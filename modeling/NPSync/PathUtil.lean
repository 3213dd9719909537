import Mathlib.Data.List.DropRight
import NPSync.Text

/-! `core/PathUtil.cpp` and the path helpers of `SyncEngine.cpp`. Wide strings
are UTF-16 code units; the code page conversions and `towlower` are the
operating system's. -/
namespace NPSync

abbrev WStr := List UInt16

def wlit (text : String) : WStr := text.toList.map (fun c => UInt16.ofNat c.toNat)

/-- What the plugin takes from Windows for its paths; a conversion that fails is `none`. -/
structure Windows where
  multiByteToWideChar : Str → Option WStr
  wideCharToMultiByte : WStr → Option Str
  towlower : UInt16 → UInt16

namespace PathUtil

def lower (s : Str) : Str := s.map asciiLower

def segments (s : Str) : List Str := s.splitOn 47

def joined (segs : List Str) : Str := List.intercalate [47] segs

def illegal : Str := lit "<>:\"|?*"

def hasIllegalChars (relPath : Str) : Bool :=
  relPath.any (fun c => c < 32 || illegal.contains c) ||
    (match ((segments relPath).getLastD []).getLast? with
    | some c => c = 46 || c = 32
    | none => false)

def reservedNames : List Str := [lit "con",lit "prn",lit "aux",lit "nul",lit "com1",lit "com2",lit "com3",
  lit "com4",lit "com5",lit "com6",lit "com7",lit "com8",lit "com9",lit "lpt1",lit "lpt2",lit "lpt3",
  lit "lpt4",lit "lpt5",lit "lpt6",lit "lpt7",lit "lpt8",lit "lpt9"]

def hasReservedName (relPath : Str) : Bool :=
  (segments relPath).any (fun seg => reservedNames.contains ((lower seg).takeWhile (· ≠ 46)))

/-- The segment loop of `normalizeRelative`. -/
def resolve : List Str → List Str → Option (List Str)
  | [],segs => some segs
  | seg::rest,segs =>
    if seg = [] ∨ seg = lit "." then resolve rest segs
    else if seg = lit ".." then
      if segs = [] then none else resolve rest segs.dropLast
    else resolve rest (segs ++ [seg])

def slashed (s : Str) : Str := s.map (fun c => if c = 92 then 47 else c)

/-- `normalizeRelative`; `none` is false. -/
def normalizeRelative (input : Str) : Option Str :=
  if input = [] ∨ 4096 < input.length then none
  else
    let s := slashed input
    if s.head? = some 47 ∨ s[1]? = some 58 then none
    else if s.contains 0 then none
    else match resolve (segments s) [] with
      | none => none
      | some segs =>
        if segs = [] then none
        else if hasIllegalChars (joined segs) || hasReservedName (joined segs) then none
        else some (joined segs)

@[simp] theorem segments_nil : segments [] = [[]] := rfl

theorem segments_cons (c : UInt8) (s : Str) :
    segments (c::s) = if c = 47 then []::segments s else (segments s).modifyHead (c::·) := by
  simp [segments,List.splitOn_cons_eq_if_modifyHead]

theorem segments_ne_nil (s : Str) : segments s ≠ [] := List.splitOn_ne_nil 47 s

/-- A segment consists of bytes of the text and has no slash. -/
theorem mem_segments (s seg : Str) (member : seg ∈ segments s) : (∀ c ∈ seg, c ∈ s) ∧ 47 ∉ seg := by
  induction s generalizing seg with
  | nil => simp_all
  | cons c rest ih =>
    rw [segments_cons] at member
    split at member
    · rcases List.mem_cons.mp member with rfl | inside
      · simp
      · exact ⟨fun b here => List.mem_cons_of_mem _ ((ih seg inside).1 b here),(ih seg inside).2⟩
    · rename_i notSlash
      cases split : segments rest with
      | nil => exact absurd split (segments_ne_nil rest)
      | cons first others =>
        rw [split] at member ih
        rcases List.mem_cons.mp member with rfl | inside
        · have old := ih first List.mem_cons_self
          refine ⟨?_,?_⟩
          · intro b here
            rcases List.mem_cons.mp here with rfl | here
            · exact List.mem_cons_self
            · exact List.mem_cons_of_mem _ (old.1 b here)
          · simpa [Ne.symm notSlash] using old.2
        · have old := ih seg (List.mem_cons_of_mem _ inside)
          exact ⟨fun b here => List.mem_cons_of_mem _ (old.1 b here),old.2⟩

theorem mem_joined (segs : List Str) (seg : Str) (c : UInt8) (member : seg ∈ segs) (inside : c ∈ seg) :
    c ∈ joined segs := by
  induction segs with
  | nil => contradiction
  | cons first rest ih =>
    cases rest with
    | nil => simpa [joined,← List.mem_singleton.mp member] using inside
    | cons second rest =>
      rw [joined,List.intercalate_cons_cons]
      rcases List.mem_cons.mp member with rfl | later
      · simp [inside]
      · exact List.mem_append_right _ (ih later)

theorem of_mem_joined (segs : List Str) (c : UInt8) (member : c ∈ joined segs) :
    c = 47 ∨ ∃ seg ∈ segs, c ∈ seg := by
  rcases mem_intercalate member with slash | inside
  · exact .inl (List.mem_singleton.mp slash)
  · exact .inr inside

theorem resolve_append (first second segs : List Str) :
    resolve (first ++ second) segs = (resolve first segs).bind (resolve second) := by
  induction first generalizing segs with
  | nil => rfl
  | cons seg rest ih =>
    simp only [List.cons_append,resolve]
    split
    · exact ih segs
    split
    · split
      · rfl
      · exact ih _
    · exact ih _

/-- The loop returns segments it was given, and never an empty one, `.` or `..`. -/
theorem resolve_mem (input segs out : List Str) (done : resolve input segs = some out) (seg : Str)
    (member : seg ∈ out) : seg ∈ segs ∨ (seg ∈ input ∧ seg ≠ [] ∧ seg ≠ lit "." ∧ seg ≠ lit "..") := by
  induction input generalizing segs with
  | nil =>
    rw [resolve,Option.some.injEq] at done
    exact Or.inl (done ▸ member)
  | cons first rest ih =>
    have later : seg ∈ rest ∧ seg ≠ [] ∧ seg ≠ lit "." ∧ seg ≠ lit ".." →
        seg ∈ first::rest ∧ seg ≠ [] ∧ seg ≠ lit "." ∧ seg ≠ lit ".." :=
      fun good => ⟨List.mem_cons_of_mem _ good.1,good.2⟩
    rw [resolve] at done
    split at done
    · exact (ih segs done).imp_right later
    split at done
    · split at done
      · contradiction
      · exact (ih _ done).imp (fun inside => List.dropLast_subset _ inside) later
    · rename_i skip up
      rcases ih _ done with before | good
      · rcases List.mem_append.mp before with old | new
        · exact Or.inl old
        · rw [List.mem_singleton.mp new]
          rw [not_or] at skip
          exact Or.inr ⟨List.mem_cons_self,skip.1,skip.2,up⟩
      · exact Or.inr (later good)

/-- Without `..` nothing that was pushed is popped. -/
theorem resolve_keeps (input segs : List Str) (flat : lit ".." ∉ input) :
    ∃ out, resolve input segs = some (segs ++ out) := by
  induction input generalizing segs with
  | nil => exact ⟨[],by simp [resolve]⟩
  | cons first rest ih =>
    have tail : lit ".." ∉ rest := fun inside => flat (List.mem_cons_of_mem _ inside)
    have notUp : first ≠ lit ".." := fun same => flat (same ▸ List.mem_cons_self)
    rw [resolve]
    split
    · exact ih segs tail
    · obtain ⟨out,done⟩ := ih (segs ++ [first]) tail
      exact ⟨first::out,by rw [done,List.append_assoc]; rfl⟩

/-- The parts of an accepted path. -/
theorem normalizeRelative_parts (input out : Str) (accepted : normalizeRelative input = some out) :
    ∃ segs, resolve (segments (slashed input)) [] = some segs ∧ segs ≠ [] ∧ out = joined segs ∧
      hasIllegalChars out = false := by
  unfold normalizeRelative at accepted
  dsimp only at accepted
  split at accepted
  · contradiction
  split at accepted
  · contradiction
  split at accepted
  · contradiction
  split at accepted
  · contradiction
  rename_i segs resolved
  split at accepted
  · contradiction
  rename_i some_segs
  split at accepted
  · contradiction
  rename_i legal
  rw [Bool.or_eq_true,not_or] at legal
  have same := Option.some.inj accepted
  exact ⟨segs,resolved,some_segs,same.symm,same ▸ Bool.eq_false_iff.mpr legal.1⟩

/-- An accepted path has no colon. -/
theorem normalizeRelative_no_colon (input out : Str) (accepted : normalizeRelative input = some out) : 58 ∉ out := by
  obtain ⟨segs,-,-,-,legal⟩ := normalizeRelative_parts input out accepted
  intro member
  have bad : hasIllegalChars out = true := by
    refine Bool.or_eq_true_iff.mpr (.inl (List.any_eq_true.mpr ⟨58,member,?_⟩))
    decide
  exact Bool.noConfusion (bad.symm.trans legal)

theorem slashed_no_backslash (s : Str) : 92 ∉ slashed s := by
  intro member
  obtain ⟨c,-,same⟩ := List.mem_map.mp member
  split at same
  · contradiction
  · contradiction

theorem slashed_eq_self (s : Str) (clean : 92 ∉ s) : slashed s = s := by
  have fixed : ∀ c ∈ s, (if c = 92 then 47 else c) = c := by
    intro c member
    exact if_neg (fun same : c = 92 => clean (same ▸ member))
  exact (List.map_congr_left fixed).trans (List.map_id' s)

/-- A path that is accepted unchanged has no backslash and no `..` segment. -/
theorem accepted_unchanged (p : Str) (normal : normalizeRelative p = some p) :
    slashed p = p ∧ lit ".." ∉ segments p := by
  obtain ⟨segs,resolved,nonempty,same,-⟩ := normalizeRelative_parts p p normal
  have from_input : ∀ seg ∈ segs, seg ∈ segments (slashed p) ∧ seg ≠ lit ".." := by
    intro seg member
    rcases resolve_mem _ _ _ resolved seg member with empty | good
    · contradiction
    · exact ⟨good.1,good.2.2.2⟩
  have clean : 92 ∉ p := by
    intro member
    rw [same] at member
    rcases of_mem_joined segs 92 member with slash | ⟨seg,inside,here⟩
    · contradiction
    · exact slashed_no_backslash p ((mem_segments _ seg (from_input seg inside).1).1 92 here)
  have whole : segments p = segs := by
    conv_lhs => rw [same]
    exact List.splitOn_intercalate 47 (fun seg inside => (mem_segments _ seg (from_input seg inside).1).2) nonempty
  refine ⟨slashed_eq_self p clean,?_⟩
  rw [whole]
  exact fun inside => (from_input _ inside).2 rfl

/-- A colon in front of a flat path stays in the last segments of the whole. -/
private theorem segments_colon (before p : Str) (flat : lit ".." ∉ segments p) :
    ∃ front seg back, segments (before ++ 58::p) = front ++ seg::back ∧ 58 ∈ seg ∧ lit ".." ∉ back := by
  induction before with
  | nil =>
    cases split : segments p with
    | nil => exact absurd split (segments_ne_nil p)
    | cons first rest =>
      refine ⟨[],58::first,rest,?_,List.mem_cons_self,?_⟩
      · rw [List.nil_append,segments_cons,if_neg (by decide),split]
        rfl
      · rw [split] at flat
        exact fun inside => flat (List.mem_cons_of_mem _ inside)
  | cons c rest ih =>
    obtain ⟨front,seg,back,whole,colon,tail⟩ := ih
    rw [List.cons_append,segments_cons,whole]
    split
    · exact ⟨[]::front,seg,back,rfl,colon,tail⟩
    · cases front with
      | nil => exact ⟨[],c::seg,back,rfl,List.mem_cons_of_mem _ colon,tail⟩
      | cons first front => exact ⟨(c::first)::front,seg,back,rfl,colon,tail⟩

/-- A path with a root prefix in front of it is never accepted. -/
theorem normalizeRelative_prefixed (id p : Str) (normal : normalizeRelative p = some p) :
    normalizeRelative (id ++ lit ":" ++ p) = none := by
  obtain ⟨same,flat⟩ := accepted_unchanged p normal
  cases accepted : normalizeRelative (id ++ lit ":" ++ p) with
  | none => rfl
  | some out =>
    obtain ⟨segs,resolved,-,joint,legal⟩ := normalizeRelative_parts _ out accepted
    have text : slashed (id ++ lit ":" ++ p) = slashed id ++ 58::p := by
      conv_rhs => rw [← same]
      simp [slashed,lit]
    obtain ⟨front,seg,back,whole,colon,tail⟩ := segments_colon (slashed id) p flat
    rw [text,whole,resolve_append] at resolved
    obtain ⟨pushed,-,resolved⟩ := Option.bind_eq_some_iff.mp resolved
    have solid : ¬(seg = [] ∨ seg = lit ".") ∧ seg ≠ lit ".." := by
      refine ⟨?_,?_⟩
      · rintro (rfl | rfl)
        · contradiction
        · exact absurd colon (by decide)
      · rintro rfl
        exact absurd colon (by decide)
    rw [resolve,if_neg solid.1,if_neg solid.2] at resolved
    obtain ⟨more,kept⟩ := resolve_keeps back (pushed ++ [seg]) tail
    rw [kept,Option.some.injEq] at resolved
    have inside : 58 ∈ out := by
      rw [joint]
      exact mem_joined segs seg 58 (by simp [← resolved]) colon
    have bad : hasIllegalChars out = true := by
      rw [hasIllegalChars,Bool.or_eq_true]
      exact Or.inl (List.any_eq_true.mpr ⟨58,inside,by decide⟩)
    rw [bad] at legal
    contradiction

section
variable (win : Windows)

def utf8ToWide (s : Str) : WStr := if s = [] then [] else (win.multiByteToWideChar s).getD []

def wideToUtf8 (s : WStr) : Str := if s = [] then [] else (win.wideCharToMultiByte s).getD []

def backslashed (s : WStr) : WStr := s.map (fun c => if c = 47 then 92 else c)

def wlower (s : WStr) : WStr := backslashed (s.map win.towlower)

def isInsideRoot (absRoot absPath : WStr) : Bool :=
  let root := (wlower win absRoot).rdropWhile (· = 92)
  let path := wlower win absPath
  if path = root then true
  else if path.length ≤ root.length then false
  else path.take root.length = root && path[root.length]? = some 92

def joinInsideRoot (absRoot : WStr) (relNormalized : Str) : Option WStr :=
  match normalizeRelative relNormalized with
  | none => none
  | some rel =>
    let root := absRoot.rdropWhile (fun c => c = 92 || c = 47)
    let full := root ++ [92] ++ backslashed (utf8ToWide win rel)
    if isInsideRoot win root full then some full else none

end

def separator (c : UInt16) : Bool := c = 92 || c = 47

/-- `dirOf`. -/
def dirOf (p : WStr) : WStr := if p.any separator then (p.rdropWhile (fun c => !separator c)).dropLast else p

/-- `fileNameOf`. -/
def fileNameOf (p : WStr) : WStr := p.rtakeWhile (fun c => !separator c)

example : normalizeRelative (lit "docs\\.\\old/../notes.txt") = some (lit "docs/notes.txt") := by decide
example : normalizeRelative (lit "root:notes.txt") = none := by decide

end PathUtil
end NPSync
