import NPSync.Library.Unicode
import NPSync.Engine.Events
import NPSync.Engine.RootRules

/-! The keys under which the files are known. `locateInRoots` names a file and
`absPathForRel` finds it again: below a root by the letters of its path, an
individually added one by its name alone. -/
namespace NPSync.Engine
open Library

section
variable (win : Windows)

/-- `addSyncRootPath`. -/
def addSyncRootPath (prim : Primitives) (db : LocalDb) (absPath : WStr) (isFolder : Bool) : LocalDb :=
  db.addSyncRoot win ((Crypto.sha256Hex prim (PathUtil.wideToUtf8 win absPath)).take 16) absPath isFolder

inductive RootEdit where
  | add (absPath : WStr) (isFolder : Bool)
  | remove (rootId : Str)

/-- What the dialog does to the table: `addSyncRootPath` and `removeSyncRootPath`. -/
def editRoots (prim : Primitives) (db : LocalDb) : RootEdit → LocalDb
  | .add absPath isFolder => addSyncRootPath win prim db absPath isFolder
  | .remove rootId => {db with syncRoots := db.syncRoots.remove rootId}

/-- The conversions of the UTF-8 code page. -/
structure CodePage : Prop where
  toUtf8 : ∀ s, s ≠ [] → win.wideCharToMultiByte s = some (Unicode.toUtf8 (Unicode.characters s))
  toUtf16 : ∀ text, text ≠ [] → win.multiByteToWideChar (Unicode.toUtf8 text) = some (Unicode.toUtf16 text)

/-- No root id holds a colon or reads `file`. -/
def PlainIds (db : LocalDb) : Prop := ∀ root ∈ db.listSyncRoots win, 58 ∉ root.1 ∧ root.1 ≠ lit "file"

/-- Equal up to letter case and separators. -/
def SameFile (p q : WStr) : Prop := PathUtil.wlower win p = PathUtil.wlower win q

instance (p q : WStr) : Decidable (SameFile win p q) :=
  inferInstanceAs (Decidable (PathUtil.wlower win p = PathUtil.wlower win q))

/-- The text that `locateInRoot` normalizes. -/
def below (root p : WStr) : Str := PathUtil.wideToUtf8 win ((p.drop root.length).dropWhile PathUtil.separator)

/-- What follows the root and one separator. -/
def tailBelow (root p : WStr) : WStr := p.drop ((PathUtil.trimmedRoot root).length + 1)

/-- The root ends in one separator at most, and the path below it is well-formed
UTF-16 whose names are neither empty nor `.` nor `..`. -/
structure PlainBelow (root p : WStr) : Prop where
  trimmed : root.length ≤ (PathUtil.trimmedRoot root).length + 1
  names : ∀ seg ∈ PathUtil.segments (PathUtil.slashed (PathUtil.wideToUtf8 win (tailBelow root p))), PathUtil.Solid seg
  text : SameFile win (Unicode.toUtf16 (Unicode.characters (tailBelow root p))) (tailBelow root p)

/-- Neither path can be normalized, or the first is plain and the second has its letters. -/
def OneNameBelow (root p q : WStr) : Prop :=
  (PathUtil.normalizeRelative (below win root p) = none ∧ PathUtil.normalizeRelative (below win root q) = none) ∨
  (PlainBelow win root p ∧ PathUtil.slashed (PathUtil.wideToUtf8 win (tailBelow root p)) =
    PathUtil.slashed (PathUtil.wideToUtf8 win (tailBelow root q)))

def nameOf (f : Str × WStr) : Str := PathUtil.wideToUtf8 win (PathUtil.fileNameOf f.2)

def addedFile (db : LocalDb) (p : WStr) : Option (Str × WStr) :=
  (db.listSyncFiles win).find? (fun f => f.2.map win.towlower = p.map win.towlower)

def firstNamed (db : LocalDb) (name : Str) : Option (Str × WStr) :=
  (db.listSyncFiles win).find? (fun f => nameOf win f = name)

/-- Neither path was added, or both were under one name and no other file of that name before them. -/
def OneNameAdded (db : LocalDb) (p q : WStr) : Prop :=
  (addedFile win db p = none ∧ addedFile win db q = none) ∨
  ∃ f other first, addedFile win db p = some f ∧ addedFile win db q = some other ∧ nameOf win f = nameOf win other ∧
    firstNamed win db (nameOf win f) = some first ∧ SameFile win first.2 p

def OneName (db : LocalDb) (p q : WStr) : Prop :=
  match (db.listSyncRoots win).find? (fun root => PathUtil.isInsideRoot win root.2 p) with
  | some root => OneNameBelow win root.2 p q
  | none => OneNameAdded win db p q

/-- The key of the path leads back to it. -/
def NamedBack (db : LocalDb) (p : WStr) : Prop :=
  ∀ key, keyOf win db p = some key → ∃ q, absPathForRel win db key = some q ∧ SameFile win q p

end

/-! ### Conversions -/

section
variable {win : Windows}

theorem wideToUtf8_eq (page : CodePage win) (s : WStr) : PathUtil.wideToUtf8 win s = Unicode.toUtf8 (Unicode.characters s) := by
  unfold PathUtil.wideToUtf8
  split
  · rename_i empty
    rw [empty]
    rfl
  · rename_i filled
    rw [page.toUtf8 s filled]
    rfl

theorem toUtf8_nil_iff (text : List Char) : Unicode.toUtf8 text = [] ↔ text = [] := by
  cases text with
  | nil => exact iff_of_true rfl rfl
  | cons c rest => simp [Unicode.toUtf8]

theorem utf8ToWide_toUtf8 (page : CodePage win) (text : List Char) :
    PathUtil.utf8ToWide win (Unicode.toUtf8 text) = Unicode.toUtf16 text := by
  unfold PathUtil.utf8ToWide
  split
  · rename_i empty
    rw [(toUtf8_nil_iff text).mp empty]
    rfl
  · rename_i filled
    rw [page.toUtf16 text (fun empty => filled ((toUtf8_nil_iff text).mpr empty))]
    rfl

/-- A backslash becomes a slash. -/
def slash (c : Char) : Char := if c = Char.ofNat 92 then Char.ofNat 47 else c

theorem slashed_toUtf8 (text : List Char) : PathUtil.slashed (Unicode.toUtf8 text) = Unicode.toUtf8 (text.map slash) := by
  have one : ∀ c, PathUtil.slashed (String.utf8EncodeChar c) = String.utf8EncodeChar (slash c) := by
    intro c
    by_cases backslash : c = Char.ofNat 92
    · subst backslash
      decide
    · rw [slash,if_neg backslash]
      apply PathUtil.slashed_eq_self
      intro member
      exact backslash (Unicode.mem_utf8EncodeChar c 92 (by decide) member)
  induction text with
  | nil => rfl
  | cons c rest ih =>
    simp only [Unicode.toUtf8,List.flatMap_cons,List.map_cons] at ih ⊢
    rw [← ih,← one]
    exact List.map_append

/-- The names of a path are the encodings of the names of its text. -/
theorem segments_toUtf8 (text : List Char) : PathUtil.segments (PathUtil.slashed (Unicode.toUtf8 text)) =
    ((text.map slash).splitOn (Char.ofNat 47)).map Unicode.toUtf8 := by
  rw [slashed_toUtf8]
  exact Unicode.splitOn_toUtf8 (Char.ofNat 47) 47 (by decide) rfl (by decide) _

theorem joined_toUtf8 (names : List (List Char)) :
    PathUtil.joined (names.map Unicode.toUtf8) = Unicode.toUtf8 ([Char.ofNat 47].intercalate names) := by
  have encoded := Unicode.flatMap_intercalate String.utf8EncodeChar [Char.ofNat 47] names
  exact encoded.symm

theorem wlower_backslashed (separators : PathUtil.Separators win) (s : WStr) :
    PathUtil.wlower win (PathUtil.backslashed s) = PathUtil.wlower win s := by
  have slash : win.towlower 47 = 47 := (separators.slash 47).mpr rfl
  have backslash : win.towlower 92 = 92 := (separators.backslash 92).mpr rfl
  unfold PathUtil.wlower PathUtil.backslashed
  rw [List.map_map,List.map_map,List.map_map]
  apply List.map_congr_left
  intro c _
  by_cases separates : c = 47
  · subst separates
    simp [slash,backslash]
  · simp [separates]

theorem wlower_slash (separators : PathUtil.Separators win) (text : List Char) :
    PathUtil.wlower win (Unicode.toUtf16 (text.map slash)) = PathUtil.wlower win (Unicode.toUtf16 text) := by
  have one : ∀ c, PathUtil.wlower win (Unicode.units (slash c)) = PathUtil.wlower win (Unicode.units c) := by
    intro c
    by_cases backslash : c = Char.ofNat 92
    · subst backslash
      have slash47 : win.towlower 47 = 47 := (separators.slash 47).mpr rfl
      have backslash92 : win.towlower 92 = 92 := (separators.backslash 92).mpr rfl
      have written : Unicode.units (slash (Char.ofNat 92)) = [47] ∧ Unicode.units (Char.ofNat 92) = [92] := by decide
      rw [written.1,written.2]
      simp [PathUtil.wlower,PathUtil.backslashed,slash47,backslash92]
    · rw [slash,if_neg backslash]
  induction text with
  | nil => rfl
  | cons c rest ih =>
    simp only [Unicode.toUtf16,List.flatMap_cons,List.map_cons] at ih ⊢
    rw [wlower_append,wlower_append,ih,one]

/-! ### Below a root -/

theorem lowered_separator (separators : PathUtil.Separators win) (c : UInt16) :
    (if win.towlower c = 47 then 92 else win.towlower c) = 92 ↔ PathUtil.separator c = true := by
  have marks := separators.slash c
  have bars := separators.backslash c
  simp only [PathUtil.separator,Bool.or_eq_true,decide_eq_true_eq,← marks,← bars]
  by_cases slash : win.towlower c = 47
  · simp [slash]
  · simp [slash]

/-- A path inside a root is the root, or goes on behind a separator. -/
theorem inside_cases (separators : PathUtil.Separators win) (root p : WStr)
    (inside : PathUtil.isInsideRoot win root p = true) :
    SameFile win p (PathUtil.trimmedRoot root) ∨ ∃ front c, p = front ++ c::tailBelow root p ∧
      PathUtil.separator c = true ∧ SameFile win front (PathUtil.trimmedRoot root) := by
  unfold PathUtil.isInsideRoot at inside
  dsimp only at inside
  rw [PathUtil.wlower_rdropWhile separators] at inside
  split at inside
  · rename_i same
    exact .inl same
  split at inside
  · contradiction
  · rename_i longer
    rw [Bool.and_eq_true,decide_eq_true_eq,decide_eq_true_eq,wlower_length] at inside
    obtain ⟨front,bar⟩ := inside
    rw [wlower_length,wlower_length,Nat.not_le] at longer
    refine .inr ⟨p.take (PathUtil.trimmedRoot root).length,p[(PathUtil.trimmedRoot root).length],?_,?_,?_⟩
    · rw [tailBelow,← List.drop_eq_getElem_cons longer,List.take_append_drop]
    · apply (lowered_separator separators _).mp
      simpa [PathUtil.wlower,PathUtil.backslashed,List.getElem?_eq_getElem longer] using bar
    · rw [SameFile,← front]
      simp [PathUtil.wlower,PathUtil.backslashed,List.map_take]

/-- What is cut off a path as its relative part is an end of what follows the root. -/
theorem rest_suffix (root p front : WStr) (c : UInt16) (cut : p = front ++ c::tailBelow root p)
    (separates : PathUtil.separator c = true) (size : front.length = (PathUtil.trimmedRoot root).length) :
    (p.drop root.length).dropWhile PathUtil.separator <:+ tailBelow root p := by
  have trimmed : (PathUtil.trimmedRoot root).length ≤ root.length := (List.rdropWhile_prefix _ _).length_le
  rcases Nat.lt_or_ge (PathUtil.trimmedRoot root).length root.length with longer | short
  · have later : p.drop root.length <:+ tailBelow root p := by
      have split : root.length = (PathUtil.trimmedRoot root).length + 1 + (root.length - (PathUtil.trimmedRoot root).length - 1) := by
        omega
      rw [tailBelow,split,← List.drop_drop]
      exact List.drop_suffix _ _
    exact (List.dropWhile_suffix _).trans later
  · have same : root.length = front.length := by omega
    have dropped : p.drop root.length = c::tailBelow root p := by
      rw [same]
      conv_lhs => rw [cut]
      exact List.drop_left
    rw [dropped,List.dropWhile_cons_of_pos separates]
    exact List.dropWhile_suffix _

/-- A normalized path is no longer than what follows the root, and as long only
when that is plain and taken as it stands. -/
theorem accepted_text (separators : PathUtil.Separators win) (page : CodePage win) (root p front : WStr) (c : UInt16)
    (norm : Str) (cut : p = front ++ c::tailBelow root p) (separates : PathUtil.separator c = true)
    (size : front.length = (PathUtil.trimmedRoot root).length)
    (accepted : PathUtil.normalizeRelative (below win root p) = some norm) :
    (PathUtil.utf8ToWide win norm).length ≤ (tailBelow root p).length ∧
      ((PathUtil.utf8ToWide win norm).length = (tailBelow root p).length →
        root.length ≤ (PathUtil.trimmedRoot root).length + 1 ∧
        norm = PathUtil.slashed (PathUtil.wideToUtf8 win (tailBelow root p)) ∧
        ∀ seg ∈ PathUtil.segments (PathUtil.slashed (PathUtil.wideToUtf8 win (tailBelow root p))), PathUtil.Solid seg) := by
  have suffix := rest_suffix root p front c cut separates size
  have text : below win root p =
      Unicode.toUtf8 (Unicode.characters ((p.drop root.length).dropWhile PathUtil.separator)) := wideToUtf8_eq page _
  have filled := ((PathUtil.normalizeRelative_some_iff _ _).mp accepted).1.1
  have room : ((p.drop root.length).dropWhile PathUtil.separator).length ≤ p.length - root.length := by
    have shorter := (List.dropWhile_suffix (p := PathUtil.separator) (l := p.drop root.length)).length_le
    rwa [List.length_drop] at shorter
  obtain ⟨segs,resolved,some_segs,joint,cuts,safe⟩ := PathUtil.normalizeRelative_segments _ norm accepted
  have part := PathUtil.resolve_sublist _ _ _ resolved
  generalize rests : (p.drop root.length).dropWhile PathUtil.separator = rest at suffix text room
  rw [text,segments_toUtf8] at part
  obtain ⟨names,sub,rfl⟩ := List.sublist_map_iff.mp part
  have wide : PathUtil.utf8ToWide win norm = Unicode.toUtf16 ([Char.ofNat 47].intercalate names) := by
    rw [joint,joined_toUtf8,utf8ToWide_toUtf8 page]
  have same : (Unicode.toUtf16 ((Unicode.characters rest).map slash)).length = rest.length := by
    have lengths := congrArg List.length (wlower_slash separators (Unicode.characters rest))
    rwa [wlower_length,wlower_length,Unicode.toUtf16_characters_length] at lengths
  have bound := Unicode.length_of_names Unicode.units (Char.ofNat 47) 47 (by decide) _ names
    (fun empty => some_segs (by rw [empty]; rfl)) sub
  rw [← Unicode.toUtf16,← Unicode.toUtf16,← wide,same] at bound
  refine ⟨bound.1.trans suffix.length_le,?_⟩
  intro full
  have whole : rest = tailBelow root p := suffix.eq_of_length (Nat.le_antisymm suffix.length_le (full ▸ bound.1))
  have all := bound.2 (full.trans (congrArg _ whole.symm))
  have every : names.map Unicode.toUtf8 = PathUtil.segments (PathUtil.slashed (PathUtil.wideToUtf8 win (tailBelow root p))) := by
    rw [wideToUtf8_eq page,segments_toUtf8,all,whole]
  refine ⟨?_,?_,?_⟩
  · have positive : 0 < rest.length := by
      apply List.length_pos_iff.mpr
      intro empty
      rw [text,empty] at filled
      exact filled rfl
    have cutLength : p.length = (PathUtil.trimmedRoot root).length + 1 + rest.length := by
      rw [whole,← size]
      conv_lhs => rw [cut]
      simp only [List.length_append,List.length_cons]
      omega
    omega
  · rw [joint,every,PathUtil.joined_segments]
  · rw [← every]
    exact fun seg member => (safe seg member).solid

/-- Separators alone do not change what is normalized. -/
theorem normalizeRelative_congr (s t : Str) (same : PathUtil.slashed s = PathUtil.slashed t) :
    PathUtil.normalizeRelative s = PathUtil.normalizeRelative t := by
  have lengths : s.length = t.length := by
    have both := congrArg List.length same
    rwa [PathUtil.slashed,PathUtil.slashed,List.length_map,List.length_map] at both
  have empty : s = [] ↔ t = [] := by
    rw [← List.length_eq_zero_iff,← List.length_eq_zero_iff,lengths]
  unfold PathUtil.normalizeRelative
  simp only [same,lengths,empty]

theorem characters_cons (unit : UInt16) (rest : WStr) (low : Unicode.isHigh unit = false) :
    Unicode.characters (unit::rest) = Unicode.single unit::Unicode.characters rest := by
  cases rest with
  | nil => rfl
  | cons second rest => simp [Unicode.characters,low]

/-- Text that begins with a separator has an empty first name. -/
theorem nil_mem_segments (page : CodePage win) (c : UInt16) (rest : WStr) (separates : PathUtil.separator c = true) :
    [] ∈ PathUtil.segments (PathUtil.slashed (PathUtil.wideToUtf8 win (c::rest))) := by
  have marked : ∃ more, PathUtil.slashed (PathUtil.wideToUtf8 win (c::rest)) = 47::more := by
    rw [PathUtil.separator,Bool.or_eq_true,decide_eq_true_eq,decide_eq_true_eq] at separates
    rw [wideToUtf8_eq page]
    rcases separates with rfl | rfl
    · rw [characters_cons 92 rest (by decide)]
      exact ⟨PathUtil.slashed (Unicode.toUtf8 (Unicode.characters rest)),rfl⟩
    · rw [characters_cons 47 rest (by decide)]
      exact ⟨PathUtil.slashed (Unicode.toUtf8 (Unicode.characters rest)),rfl⟩
  obtain ⟨more,first⟩ := marked
  rw [first,PathUtil.segments_cons,if_pos rfl]
  exact List.mem_cons_self

/-- Below a root that ends in one separator at most, plain text is taken as it stands. -/
theorem below_plain (separators : PathUtil.Separators win) (page : CodePage win) (root p : WStr)
    (inside : PathUtil.isInsideRoot win root p = true) (trimmed : root.length ≤ (PathUtil.trimmedRoot root).length + 1)
    (names : ∀ seg ∈ PathUtil.segments (PathUtil.slashed (PathUtil.wideToUtf8 win (tailBelow root p))), PathUtil.Solid seg) :
    (∃ front c, p = front ++ c::tailBelow root p ∧ PathUtil.separator c = true ∧
      SameFile win front (PathUtil.trimmedRoot root)) ∧
    below win root p = PathUtil.wideToUtf8 win (tailBelow root p) := by
  have filled : tailBelow root p ≠ [] := by
    intro empty
    rw [empty] at names
    exact (names [] List.mem_cons_self).1 rfl
  have headed : (tailBelow root p).dropWhile PathUtil.separator = tailBelow root p := by
    obtain ⟨c,rest,first⟩ := List.exists_cons_of_ne_nil filled
    rw [first] at names ⊢
    apply List.dropWhile_cons_of_neg
    intro separates
    exact (names [] (nil_mem_segments page c rest separates)).1 rfl
  have cut := (inside_cases separators root p inside).resolve_left (by
    intro same
    have lengths := congrArg List.length same
    rw [wlower_length,wlower_length] at lengths
    apply filled
    rw [tailBelow,List.drop_eq_nil_iff]
    omega)
  refine ⟨cut,?_⟩
  obtain ⟨front,c,whole,separates,same⟩ := cut
  have size := congrArg List.length same
  rw [wlower_length,wlower_length] at size
  have atLeast : (PathUtil.trimmedRoot root).length ≤ root.length := (List.rdropWhile_prefix _ _).length_le
  rcases Nat.lt_or_ge (PathUtil.trimmedRoot root).length root.length with one | none
  · have length : root.length = (PathUtil.trimmedRoot root).length + 1 := by omega
    rw [below,length,← tailBelow,headed]
  · have length : root.length = front.length := by omega
    have dropped : p.drop root.length = c::tailBelow root p := by
      rw [length]
      conv_lhs => rw [whole]
      exact List.drop_left
    rw [below,dropped,List.dropWhile_cons_of_pos separates,headed]

theorem wlower_text (separators : PathUtil.Separators win) (page : CodePage win) (s : WStr) :
    SameFile win (PathUtil.utf8ToWide win (PathUtil.slashed (PathUtil.wideToUtf8 win s)))
      (Unicode.toUtf16 (Unicode.characters s)) := by
  rw [wideToUtf8_eq page,slashed_toUtf8,utf8ToWide_toUtf8 page]
  exact wlower_slash separators _

/-- What is normalized has somewhere to lie below the root. -/
theorem accepted_cut (separators : PathUtil.Separators win) (root p : WStr) (norm : Str)
    (inside : PathUtil.isInsideRoot win root p = true) (accepted : PathUtil.normalizeRelative (below win root p) = some norm) :
    ∃ front c, p = front ++ c::tailBelow root p ∧ PathUtil.separator c = true ∧
      SameFile win front (PathUtil.trimmedRoot root) := by
  apply (inside_cases separators root p inside).resolve_left
  intro same
  have lengths := congrArg List.length same
  rw [wlower_length,wlower_length] at lengths
  have atLeast : (PathUtil.trimmedRoot root).length ≤ root.length := (List.rdropWhile_prefix _ _).length_le
  have dropped : p.drop root.length = [] := List.drop_eq_nil_iff.mpr (by omega)
  have filled := ((PathUtil.normalizeRelative_some_iff _ _).mp accepted).1.1
  rw [below,dropped] at filled
  exact filled rfl

/-- The normalized text of a plain path is what follows the root. -/
theorem plain_accepted (separators : PathUtil.Separators win) (page : CodePage win) (root p : WStr) (norm : Str)
    (inside : PathUtil.isInsideRoot win root p = true) (accepted : PathUtil.normalizeRelative (below win root p) = some norm)
    (plain : PlainBelow win root p) : norm = PathUtil.slashed (PathUtil.wideToUtf8 win (tailBelow root p)) ∧
      SameFile win (PathUtil.utf8ToWide win norm) (tailBelow root p) := by
  have whole := (below_plain separators page root p inside plain.trimmed plain.names).2
  obtain ⟨segs,resolved,-,joint,-⟩ := PathUtil.normalizeRelative_segments _ norm accepted
  rw [whole,PathUtil.resolve_solid _ _ plain.names,List.nil_append,Option.some.injEq] at resolved
  have text : norm = PathUtil.slashed (PathUtil.wideToUtf8 win (tailBelow root p)) := by
    rw [joint,← resolved,PathUtil.joined_segments]
  refine ⟨text,?_⟩
  rw [text]
  exact (wlower_text separators page _).trans plain.text

/-- The key of a path below a root leads back to it exactly when the path is plain. -/
theorem back_below_iff (separators : PathUtil.Separators win) (page : CodePage win) (root p : WStr) (norm : Str)
    (inside : PathUtil.isInsideRoot win root p = true) (accepted : PathUtil.normalizeRelative (below win root p) = some norm) :
    SameFile win (PathUtil.trimmedRoot root ++ [92] ++ PathUtil.backslashed (PathUtil.utf8ToWide win norm)) p ↔
      PlainBelow win root p := by
  obtain ⟨front,c,cut,separates,same⟩ := accepted_cut separators root p norm inside accepted
  have size := congrArg List.length same
  rw [wlower_length,wlower_length] at size
  have bar : PathUtil.wlower win [c] = PathUtil.wlower win [92] := by
    have lowered := (lowered_separator separators c).mpr separates
    have mark := (lowered_separator separators 92).mpr (by decide)
    simp only [PathUtil.wlower,PathUtil.backslashed,List.map_cons,List.map_nil,lowered,mark]
  have texts : SameFile win (PathUtil.trimmedRoot root ++ [92] ++ PathUtil.backslashed (PathUtil.utf8ToWide win norm)) p ↔
      SameFile win (PathUtil.utf8ToWide win norm) (tailBelow root p) := by
    have parts : PathUtil.wlower win p =
        PathUtil.wlower win (PathUtil.trimmedRoot root) ++ PathUtil.wlower win [92] ++ PathUtil.wlower win (tailBelow root p) := by
      conv_lhs => rw [cut]
      rw [List.append_cons,wlower_append,wlower_append,same,bar]
    unfold SameFile
    rw [parts,wlower_append,wlower_append,wlower_backslashed separators]
    exact List.append_right_inj _
  rw [texts]
  constructor
  · intro back
    have lengths := congrArg List.length back
    rw [wlower_length,wlower_length] at lengths
    obtain ⟨trimmed,text,names⟩ := (accepted_text separators page root p front c norm cut separates size accepted).2 lengths
    refine ⟨trimmed,names,?_⟩
    rw [text] at back
    exact (wlower_text separators page _).symm.trans back
  · intro plain
    exact (plain_accepted separators page root p norm inside accepted plain).2

/-! ### The two laws -/

theorem isInsideRoot_congr {p q : WStr} (same : SameFile win p q) (root : WStr) :
    PathUtil.isInsideRoot win root p = PathUtil.isInsideRoot win root q := by
  unfold PathUtil.isInsideRoot
  rw [show PathUtil.wlower win p = PathUtil.wlower win q from same]

theorem keyOf_below (db : LocalDb) (p : WStr) (root : Str × WStr)
    (found : (db.listSyncRoots win).find? (fun root => PathUtil.isInsideRoot win root.2 p) = some root) :
    keyOf win db p = (PathUtil.normalizeRelative (below win root.2 p)).map (fun norm => root.1 ++ lit ":" ++ norm) := by
  unfold keyOf locateInRoots
  rw [found]
  show (locateInRoot win root p).map Prod.fst = _
  unfold locateInRoot
  dsimp only
  rw [← below]
  cases PathUtil.normalizeRelative (below win root.2 p) with
  | none => rfl
  | some norm => rfl

theorem keyOf_added (db : LocalDb) (p : WStr)
    (outside : (db.listSyncRoots win).find? (fun root => PathUtil.isInsideRoot win root.2 p) = none) :
    keyOf win db p = (addedFile win db p).map (fun f => lit "file:" ++ nameOf win f) := by
  unfold keyOf locateInRoots
  rw [outside]
  show (match addedFile win db p with
    | some f => some (lit "file:" ++ nameOf win f,PathUtil.dirOf f.2)
    | none => none).map Prod.fst = _
  cases addedFile win db p with
  | none => rfl
  | some f => rfl

theorem splitKey_prefixed (id rest : Str) (plain : 58 ∉ id) : splitKey (id ++ lit ":" ++ rest) = some (id,rest) := by
  have fine : ∀ c ∈ id, decide (c ≠ 58) = true := fun c member => decide_eq_true (fun same => plain (same ▸ member))
  have colon : id ++ lit ":" ++ rest = id ++ 58::rest := by simp [lit]
  rw [colon,splitKey,if_pos (by simp),List.takeWhile_append_of_pos fine,List.dropWhile_append_of_pos fine]
  simp

theorem absPathForRel_below (separators : PathUtil.Separators win) (db : LocalDb) (ids : PlainIds win db) (root : Str × WStr)
    (member : root ∈ db.listSyncRoots win) (input norm : Str) (accepted : PathUtil.normalizeRelative input = some norm) :
    absPathForRel win db (root.1 ++ lit ":" ++ norm) =
      some (PathUtil.trimmedRoot root.2 ++ [92] ++ PathUtil.backslashed (PathUtil.utf8ToWide win norm)) := by
  have named : (db.listSyncRoots win).find? (fun other => decide (other.1 = root.1)) = some root := by
    cases found : (db.listSyncRoots win).find? (fun other => decide (other.1 = root.1)) with
    | none => exact absurd (decide_eq_true rfl) (List.find?_eq_none.mp found root member)
    | some other =>
      have same := List.find?_some found
      rw [decide_eq_true_eq] at same
      exact congrArg some
        (List.inj_on_of_nodup_map (listSyncRoots_distinct win db) (List.mem_of_find?_eq_some found) member same)
  unfold absPathForRel
  rw [splitKey_prefixed root.1 norm (ids root member).1]
  dsimp only
  rw [named]
  exact PathUtil.joinInsideRoot_accepted separators root.2 norm norm (PathUtil.normalizeRelative_again input norm accepted)

theorem absPathForRel_added (db : LocalDb) (ids : PlainIds win db) (name : Str) :
    absPathForRel win db (lit "file:" ++ name) = (firstNamed win db name).map Prod.snd := by
  have unnamed : (db.listSyncRoots win).find? (fun root => decide (root.1 = lit "file")) = none := by
    apply List.find?_eq_none.mpr
    intro root member same
    exact (ids root member).2 (of_decide_eq_true same)
  have key : splitKey (lit "file:" ++ name) = some (lit "file",name) :=
    splitKey_prefixed (lit "file") name (by decide)
  unfold absPathForRel
  rw [key]
  dsimp only
  rw [unnamed,firstNamed]
  have tests : ∀ f : Str × WStr, (decide (lit "file" = lit "file") && decide (PathUtil.wideToUtf8 win (PathUtil.fileNameOf f.2) = name)) =
      decide (nameOf win f = name) := by
    intro f
    rw [decide_eq_true rfl,Bool.true_and]
    exact decide_eq_decide.mpr Iff.rfl
  exact congrArg (fun test => ((db.listSyncFiles win).find? test).map Prod.snd) (funext tests)

/-- Below a root the two laws hold exactly for plain paths in the same letters. -/
theorem names_below_iff (separators : PathUtil.Separators win) (page : CodePage win) (db : LocalDb) (ids : PlainIds win db)
    (root : Str × WStr) (p q : WStr) (same : SameFile win p q)
    (found : (db.listSyncRoots win).find? (fun root => PathUtil.isInsideRoot win root.2 p) = some root) :
    NamedBack win db p ∧ keyOf win db p = keyOf win db q ↔ OneNameBelow win root.2 p q := by
  have member := List.mem_of_find?_eq_some found
  have inside := List.find?_some found
  have insideOther : PathUtil.isInsideRoot win root.2 q = true := (isInsideRoot_congr same root.2) ▸ inside
  have foundOther : (db.listSyncRoots win).find? (fun root => PathUtil.isInsideRoot win root.2 q) = some root := by
    rw [← found]
    exact congrArg (fun test => (db.listSyncRoots win).find? test) (funext fun root => (isInsideRoot_congr same root.2).symm)
  have keyP := keyOf_below db p root found
  have keyQ := keyOf_below db q root foundOther
  have size : (tailBelow root.2 p).length = (tailBelow root.2 q).length := by
    have lengths := congrArg List.length same
    rw [wlower_length,wlower_length] at lengths
    rw [tailBelow,tailBelow,List.length_drop,List.length_drop,lengths]
  constructor
  · rintro ⟨back,keys⟩
    cases accepted : PathUtil.normalizeRelative (below win root.2 p) with
    | none =>
      rw [keyP,keyQ,accepted] at keys
      exact .inl ⟨accepted,Option.map_eq_none_iff.mp keys.symm⟩
    | some norm =>
      rw [accepted] at keyP
      obtain ⟨path,named,samePath⟩ := back _ keyP
      rw [absPathForRel_below separators db ids root member _ norm accepted,Option.some.injEq] at named
      subst named
      have plain := (back_below_iff separators page root.2 p norm inside accepted).mp samePath
      obtain ⟨other,acceptedOther,rest⟩ := Option.map_eq_some_iff.mp (keyQ.symm.trans (keys.symm.trans keyP))
      have one : other = norm := List.append_cancel_left rest
      subst one
      obtain ⟨text,written⟩ := plain_accepted separators page root.2 p other inside accepted plain
      have lengths := congrArg List.length written
      rw [wlower_length,wlower_length,size] at lengths
      obtain ⟨front,c,cut,separates,parts⟩ := accepted_cut separators root.2 q other insideOther acceptedOther
      have frontSize := congrArg List.length parts
      rw [wlower_length,wlower_length] at frontSize
      have textOther :=
        ((accepted_text separators page root.2 q front c other cut separates frontSize acceptedOther).2 lengths).2.1
      exact .inr ⟨plain,text.symm.trans textOther⟩
  · rintro (⟨refused,refusedOther⟩ | ⟨plain,letters⟩)
    · rw [refused] at keyP
      rw [refusedOther] at keyQ
      refine ⟨?_,keyP.trans keyQ.symm⟩
      intro key named
      rw [keyP] at named
      contradiction
    · have whole := (below_plain separators page root.2 p inside plain.trimmed plain.names).2
      have wholeOther := (below_plain separators page root.2 q insideOther plain.trimmed (letters ▸ plain.names)).2
      have normal := normalizeRelative_congr _ _ letters
      rw [← whole,← wholeOther] at normal
      refine ⟨?_,?_⟩
      · intro key named
        rw [keyP] at named
        obtain ⟨norm,accepted,rfl⟩ := Option.map_eq_some_iff.mp named
        exact ⟨_,absPathForRel_below separators db ids root member _ norm accepted,
          (back_below_iff separators page root.2 p norm inside accepted).mpr plain⟩
      · rw [keyP,keyQ,normal]

/-- For an individually added file they hold exactly when both spellings were
added under one name that no other file took before. -/
theorem names_added_iff (db : LocalDb) (ids : PlainIds win db) (p q : WStr) (same : SameFile win p q)
    (outside : (db.listSyncRoots win).find? (fun root => PathUtil.isInsideRoot win root.2 p) = none) :
    NamedBack win db p ∧ keyOf win db p = keyOf win db q ↔ OneNameAdded win db p q := by
  have outsideOther : (db.listSyncRoots win).find? (fun root => PathUtil.isInsideRoot win root.2 q) = none := by
    rw [← outside]
    exact congrArg (fun test => (db.listSyncRoots win).find? test) (funext fun root => (isInsideRoot_congr same root.2).symm)
  have keyP := keyOf_added db p outside
  have keyQ := keyOf_added db q outsideOther
  constructor
  · rintro ⟨back,keys⟩
    cases added : addedFile win db p with
    | none =>
      rw [keyP,keyQ,added] at keys
      exact .inl ⟨added,Option.map_eq_none_iff.mp keys.symm⟩
    | some f =>
      rw [added] at keyP
      obtain ⟨other,addedOther,rest⟩ := Option.map_eq_some_iff.mp (keyQ.symm.trans (keys.symm.trans keyP))
      obtain ⟨path,named,samePath⟩ := back _ keyP
      rw [absPathForRel_added db ids] at named
      obtain ⟨first,earliest,rfl⟩ := Option.map_eq_some_iff.mp named
      exact .inr ⟨f,other,first,added,addedOther,(List.append_cancel_left rest).symm,earliest,samePath⟩
  · rintro (⟨absent,absentOther⟩ | ⟨f,other,first,added,addedOther,name,earliest,samePath⟩)
    · rw [absent] at keyP
      rw [absentOther] at keyQ
      refine ⟨?_,keyP.trans keyQ.symm⟩
      intro key named
      rw [keyP] at named
      contradiction
    · rw [added] at keyP
      rw [addedOther,Option.map_some,← name] at keyQ
      refine ⟨?_,keyP.trans keyQ.symm⟩
      intro key named
      rw [keyP,Option.map_some,Option.some.injEq] at named
      subst named
      refine ⟨first.2,?_,samePath⟩
      rw [absPathForRel_added db ids,earliest]
      rfl

/-- A key leads back to its file, and two spellings of a file have one key,
exactly when the configuration gives both spellings one name. -/
theorem keys_name_one_file_iff (separators : PathUtil.Separators win) (page : CodePage win) (db : LocalDb)
    (ids : PlainIds win db) (p q : WStr) (same : SameFile win p q) :
    NamedBack win db p ∧ keyOf win db p = keyOf win db q ↔ OneName win db p q := by
  unfold OneName
  split
  · rename_i root found
    exact names_below_iff separators page db ids root p q same found
  · rename_i outside
    exact names_added_iff db ids p q same outside

/-- Files that share a key are one file. -/
theorem one_key_one_file (db : LocalDb) (p q : WStr) (back : NamedBack win db p) (backOther : NamedBack win db q) (key : Str)
    (named : keyOf win db p = some key) (namedOther : keyOf win db q = some key) : SameFile win p q := by
  obtain ⟨path,found,same⟩ := back key named
  obtain ⟨other,foundOther,sameOther⟩ := backOther key namedOther
  have one : path = other := Option.some.inj (found.symm.trans foundOther)
  subst one
  exact same.symm.trans sameOther

theorem mem_rootsWhere (db : LocalDb) (isFolder : Bool) (root : Str × WStr) (member : root ∈ db.rootsWhere win isFolder) :
    ∃ row, db.syncRoots.get root.1 = some row := by
  obtain ⟨row,kept,rfl⟩ := List.mem_map.mp member
  exact ⟨row.2,(Table.mem_rows_iff _ _ _).mp (List.mem_filter.mp kept).1⟩

end

section
variable (win : Windows) (prim : Primitives)

/-- The ids of all rows are plain. -/
def PlainKeys (db : LocalDb) : Prop := ∀ id row, db.syncRoots.get id = some row → 58 ∉ id ∧ id ≠ lit "file"

theorem hashed_plain (absPath : WStr) (id : Str) (hashed : id = (Crypto.sha256Hex prim (PathUtil.wideToUtf8 win absPath)).take 16) :
    58 ∉ id ∧ id ≠ lit "file" := by
  have digits : ∀ c ∈ id, isLowerHex c = true := by
    intro c member
    rw [hashed] at member
    exact List.all_eq_true.mp (Crypto.sha256Hex_isLowerHex prim _) c (List.mem_of_mem_take member)
  refine ⟨?_,?_⟩
  · intro colon
    exact absurd (digits 58 colon) (by decide)
  · rintro rfl
    exact absurd (digits 105 (by decide)) (by decide)

theorem editRoots_plain (db : LocalDb) (plain : PlainKeys db) (edit : RootEdit) : PlainKeys (editRoots win prim db edit) := by
  cases edit with
  | add absPath isFolder =>
    intro id row held
    by_cases new : id = (Crypto.sha256Hex prim (PathUtil.wideToUtf8 win absPath)).take 16
    · exact hashed_plain win prim absPath id new
    · apply plain id row
      rwa [editRoots,addSyncRootPath,LocalDb.addSyncRoot,Table.get_upsert,if_neg new] at held
  | remove rootId =>
    intro id row held
    rw [editRoots,Table.get_remove] at held
    split at held
    · contradiction
    · exact plain id row held

/-- Every configuration the dialog makes has plain ids. -/
theorem configured_plain (edits : List RootEdit) : PlainIds win (edits.foldl (editRoots win prim) .empty) := by
  have keys : ∀ db, PlainKeys db → PlainKeys (edits.foldl (editRoots win prim) db) := by
    induction edits with
    | nil => exact fun _ plain => plain
    | cons edit rest ih => exact fun db plain => ih _ (editRoots_plain win prim db plain edit)
  intro root member
  obtain ⟨row,held⟩ := mem_rootsWhere _ true root member
  exact keys .empty (fun _ _ absent => nomatch absent) root.1 row held

end

/-- Windows with the UTF-8 code page and the case mapping of ASCII letters. -/
def utf8Windows : Windows where
  multiByteToWideChar s := (Unicode.ofUtf8 s).map Unicode.toUtf16
  wideCharToMultiByte s := some (Unicode.toUtf8 (Unicode.characters s))
  towlower := PathUtil.unicode.towlower

theorem utf8Windows_separators : PathUtil.Separators utf8Windows :=
  ⟨PathUtil.unicode_separators.slash,PathUtil.unicode_separators.backslash⟩

theorem utf8Windows_page : CodePage utf8Windows where
  toUtf8 _ _ := rfl
  toUtf16 text _ := by
    show (Unicode.ofUtf8 (Unicode.toUtf8 text)).map Unicode.toUtf16 = some (Unicode.toUtf16 text)
    rw [Unicode.ofUtf8_toUtf8]
    rfl

theorem stored_path (s : WStr) (wellFormed : Unicode.toUtf16 (Unicode.characters s) = s) :
    PathUtil.utf8ToWide utf8Windows (PathUtil.wideToUtf8 utf8Windows s) = s := by
  rw [wideToUtf8_eq utf8Windows_page,utf8ToWide_toUtf8 utf8Windows_page,wellFormed]

def notesFolder : LocalDb := LocalDb.empty.addSyncRoot utf8Windows (lit "5f70bf18a0860070") (wlit "C:\\notes") true

theorem notesFolder_roots :
    notesFolder.listSyncRoots utf8Windows = [(lit "5f70bf18a0860070",wlit "C:\\notes")] :=
  congrArg (fun path => [(lit "5f70bf18a0860070",path)]) (stored_path (wlit "C:\\notes") (by decide))

theorem todo_has_one_key : NamedBack utf8Windows notesFolder (wlit "C:\\notes\\lists\\Todo.txt") ∧
    keyOf utf8Windows notesFolder (wlit "C:\\notes\\lists\\Todo.txt") = keyOf utf8Windows notesFolder (wlit "c:/Notes/lists/Todo.txt") := by
  have ids : PlainIds utf8Windows notesFolder := by
    intro root member
    rw [notesFolder_roots,List.mem_singleton] at member
    subst member
    decide
  apply (keys_name_one_file_iff utf8Windows_separators utf8Windows_page notesFolder ids _ _ (by decide)).mpr
  have found : [(lit "5f70bf18a0860070",wlit "C:\\notes")].find?
      (fun root => PathUtil.isInsideRoot utf8Windows root.2 (wlit "C:\\notes\\lists\\Todo.txt")) =
      some (lit "5f70bf18a0860070",wlit "C:\\notes") := by decide
  unfold OneName
  rw [notesFolder_roots,found]
  refine .inr ⟨⟨by decide,?_,by decide⟩,by decide⟩
  show ∀ seg ∈ PathUtil.segments (PathUtil.slashed (PathUtil.wideToUtf8 utf8Windows
    (tailBelow (wlit "C:\\notes") (wlit "C:\\notes\\lists\\Todo.txt")))), seg ≠ [] ∧ seg ≠ lit "." ∧ seg ≠ lit ".."
  decide

/-- Two added files of one name. -/
def twoNotes : LocalDb :=
  (LocalDb.empty.addSyncRoot utf8Windows (lit "5f70bf18a0860070") (wlit "C:\\work\\notes.txt") false).addSyncRoot utf8Windows
    (lit "16e948b04aed3b82") (wlit "C:\\home\\notes.txt") false

theorem twoNotes_files : twoNotes.listSyncFiles utf8Windows =
    [(lit "5f70bf18a0860070",wlit "C:\\work\\notes.txt"),(lit "16e948b04aed3b82",wlit "C:\\home\\notes.txt")] :=
  congrArg₂ (fun work home => [(lit "5f70bf18a0860070",work),(lit "16e948b04aed3b82",home)])
    (stored_path (wlit "C:\\work\\notes.txt") (by decide)) (stored_path (wlit "C:\\home\\notes.txt") (by decide))

/-- The key of the second file leads to the first. -/
theorem second_notes_misplaced : ¬∀ db p q, PlainIds utf8Windows db → SameFile utf8Windows p q →
    NamedBack utf8Windows db p ∧ keyOf utf8Windows db p = keyOf utf8Windows db q := by
  intro laws
  have noRoots : twoNotes.listSyncRoots utf8Windows = [] := rfl
  have ids : PlainIds utf8Windows twoNotes := by
    intro root member
    rw [noRoots] at member
    exact nomatch member
  have back := (laws twoNotes (wlit "C:\\home\\notes.txt") (wlit "C:\\home\\notes.txt") ids rfl).1
  have key : keyOf utf8Windows twoNotes (wlit "C:\\home\\notes.txt") = some (lit "file:notes.txt") := by
    rw [keyOf_added _ _ (by rw [noRoots]; rfl),addedFile,twoNotes_files]
    decide
  obtain ⟨path,named,same⟩ := back _ key
  have first : absPathForRel utf8Windows twoNotes (lit "file:" ++ lit "notes.txt") = some (wlit "C:\\work\\notes.txt") := by
    rw [absPathForRel_added _ ids,firstNamed,twoNotes_files]
    decide
  have text : lit "file:notes.txt" = lit "file:" ++ lit "notes.txt" := by decide
  rw [text,first,Option.some.injEq] at named
  subst named
  exact absurd same (by decide)

end NPSync.Engine
