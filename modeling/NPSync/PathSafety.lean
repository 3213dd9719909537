import Mathlib.Algebra.Order.BigOperators.Group.List
import NPSync.PathUtil
import NPSync.Json

/-! What `normalizeRelative` lets through. A path that comes from another device
is cut into segments, resolved on a stack and checked; what is accepted names a
place below the root, and naming it again changes nothing. -/
namespace NPSync.PathUtil

/-- A segment that is neither skipped nor popped. -/
def Solid (seg : Str) : Prop := seg ≠ [] ∧ seg ≠ lit "." ∧ seg ≠ lit ".."

/-- A segment of an accepted path. Control characters are the bytes below 32. -/
structure SafeSegment (seg : Str) : Prop where
  solid : Solid seg
  noSeparator : 47 ∉ seg ∧ 92 ∉ seg
  printable : ∀ c ∈ seg, 32 ≤ c
  legal : ∀ c ∈ seg, c ∉ illegal
  unreserved : lower (seg.takeWhile (· ≠ 46)) ∉ reservedNames

/-- How deep below the root a sequence of segments ends. -/
def depth : List Str → Int
  | [] => 0
  | seg::rest => (if seg = [] ∨ seg = lit "." then 0 else if seg = lit ".." then -1 else 1) + depth rest

def Absolute (input : Str) : Prop := input.head? = some 47 ∨ input.head? = some 92

def DriveQualified (input : Str) : Prop := input[1]? = some 58

/-- Some prefix of the segments pops above the root. -/
def PopsAbove (input : Str) : Prop := ∃ front, front <+: segments (slashed input) ∧ depth front < 0

theorem resolve_solid (input segs : List Str) (solid : ∀ seg ∈ input, Solid seg) :
    resolve input segs = some (segs ++ input) := by
  induction input generalizing segs with
  | nil => simp [resolve]
  | cons seg rest ih =>
    obtain ⟨filled,notDot,notUp⟩ := solid seg List.mem_cons_self
    rw [resolve,if_neg (not_or.mpr ⟨filled,notDot⟩),if_neg notUp]
    rw [ih _ (fun other member => solid other (List.mem_cons_of_mem _ member)),List.append_assoc]
    rfl

theorem resolve_sublist (input segs out : List Str) (done : resolve input segs = some out) :
    out.Sublist (segs ++ input) := by
  induction input generalizing segs with
  | nil =>
    rw [resolve,Option.some.injEq] at done
    rw [← done,List.append_nil]
  | cons seg rest ih =>
    have skip : (segs ++ rest).Sublist (segs ++ seg::rest) := (List.sublist_cons_self seg rest).append_left segs
    rw [resolve] at done
    split at done
    · exact (ih _ done).trans skip
    split at done
    · split at done
      · contradiction
      · exact ((ih _ done).trans ((List.dropLast_sublist segs).append_right rest)).trans skip
    · have kept := ih _ done
      rwa [List.append_assoc] at kept

/-- The loop fails exactly when some prefix ends above where it started. -/
theorem resolve_none_iff (input segs : List Str) :
    resolve input segs = none ↔ ∃ front, front <+: input ∧ (segs.length : Int) + depth front < 0 := by
  induction input generalizing segs with
  | nil =>
    constructor
    · intro failed
      contradiction
    · rintro ⟨front,start,above⟩
      rw [List.prefix_nil.mp start,depth] at above
      omega
  | cons seg rest ih =>
    have cut : ∀ (level : Int), 0 ≤ level → ((∃ front, front <+: seg::rest ∧ level + depth front < 0) ↔
        ∃ front, front <+: rest ∧ level + depth (seg::front) < 0) := by
      intro level ground
      constructor
      · rintro ⟨front,start,above⟩
        rcases List.prefix_cons_iff.mp start with rfl | ⟨tail,rfl,later⟩
        · rw [depth] at above
          omega
        · exact ⟨tail,later,above⟩
      · rintro ⟨front,start,above⟩
        exact ⟨seg::front,List.prefix_cons_inj seg |>.mpr start,above⟩
    rw [cut _ (Int.natCast_nonneg _),resolve]
    simp only [depth]
    split
    · rw [ih]
      simp
    split
    · split
      · rename_i _ _ empty
        subst empty
        simp only [true_iff]
        exact ⟨[],List.nil_prefix,by decide⟩
      · rename_i _ _ filled
        rw [ih,List.length_dropLast]
        have positive := List.length_pos_iff.mpr filled
        have level : ((segs.length - 1 : Nat) : Int) = segs.length + -1 := by omega
        simp only [level,Int.add_assoc]
    · rw [ih,List.length_append]
      simp only [List.length_singleton,Nat.cast_add,Nat.cast_one,Int.add_assoc]

theorem joined_length (segs : List Str) (filled : segs ≠ []) :
    (joined segs).length + 1 = (segs.map (·.length + 1)).sum := by
  induction segs with
  | nil => contradiction
  | cons first rest ih =>
    cases rest with
    | nil => simp [joined]
    | cons second rest =>
      have tail := ih (List.cons_ne_nil _ _)
      rw [joined,List.intercalate_cons_cons,List.map_cons,List.sum_cons,← tail]
      simp only [joined,List.length_append,List.length_singleton]
      omega

theorem joined_segments (s : Str) : joined (segments s) = s := List.intercalate_splitOn 47

/-- An accepted path is no longer than the text it came from. -/
theorem resolved_length (s : Str) (segs : List Str) (resolved : resolve (segments s) [] = some segs) (filled : segs ≠ []) :
    (joined segs).length ≤ s.length := by
  have part : segs.Sublist (segments s) := resolve_sublist _ _ _ resolved
  have sums : (segs.map (·.length + 1)).sum ≤ ((segments s).map (·.length + 1)).sum :=
    (part.map _).sum_le_sum (fun _ _ => Nat.zero_le _)
  have short := joined_length segs filled
  have whole := joined_length (segments s) (segments_ne_nil s)
  rw [joined_segments] at whole
  omega

/-- The checks of `normalizeRelative`, all of them. -/
theorem normalizeRelative_some_iff (input out : Str) : normalizeRelative input = some out ↔
    (input ≠ [] ∧ input.length ≤ 4096 ∧ (slashed input).head? ≠ some 47 ∧ (slashed input)[1]? ≠ some 58 ∧
      0 ∉ slashed input) ∧
    ∃ segs, resolve (segments (slashed input)) [] = some segs ∧ segs ≠ [] ∧ hasIllegalChars (joined segs) = false ∧
      hasReservedName (joined segs) = false ∧ joined segs = out := by
  unfold normalizeRelative
  dsimp only
  split
  · rename_i bad
    simp only [reduceCtorEq,false_iff]
    rintro ⟨⟨filled,short,-⟩,-⟩
    rcases bad with empty | long
    · exact filled empty
    · omega
  rename_i sized
  rw [not_or,Nat.not_lt] at sized
  split
  · rename_i bad
    simp only [reduceCtorEq,false_iff]
    rintro ⟨⟨-,-,relative,local',-⟩,-⟩
    exact bad.elim relative local'
  rename_i relative
  rw [not_or] at relative
  split
  · rename_i bad
    simp only [reduceCtorEq,false_iff]
    rintro ⟨⟨-,-,-,-,noNul⟩,-⟩
    exact noNul (List.contains_iff_mem.mp bad)
  rename_i noNul
  rw [List.contains_iff_mem] at noNul
  have first : input ≠ [] ∧ input.length ≤ 4096 ∧ (slashed input).head? ≠ some 47 ∧ (slashed input)[1]? ≠ some 58 ∧
      0 ∉ slashed input := ⟨sized.1,sized.2,relative.1,relative.2,noNul⟩
  rw [and_iff_right first]
  cases resolve (segments (slashed input)) [] with
  | none => simp
  | some segs =>
    dsimp only
    split
    · rename_i empty
      simp [empty]
    rename_i filled
    cases legal : hasIllegalChars (joined segs) <;> cases unreserved : hasReservedName (joined segs) <;>
      simp [filled,legal,unreserved]

theorem hasIllegalChars_false (s : Str) (legal : hasIllegalChars s = false) (c : UInt8) (member : c ∈ s) :
    32 ≤ c ∧ c ∉ illegal := by
  have none := (Bool.or_eq_false_iff.mp legal).1
  have fine := List.any_eq_false.mp none c member
  simp only [Bool.or_eq_true,decide_eq_true_eq,List.contains_iff_mem,not_or] at fine
  exact ⟨UInt8.not_lt.mp fine.1,fine.2⟩

theorem asciiLower_dot (c : UInt8) : asciiLower c = 46 ↔ c = 46 := by
  unfold asciiLower
  split
  · rename_i upper
    simp only [Bool.and_eq_true,decide_eq_true_eq,UInt8.le_iff_toNat_le] at upper
    simp only [← UInt8.toNat_inj,UInt8.toNat_add]
    have low : (65 : UInt8).toNat = 65 := rfl
    have high : (90 : UInt8).toNat = 90 := rfl
    have shift : (32 : UInt8).toNat = 32 := rfl
    have dot : (46 : UInt8).toNat = 46 := rfl
    omega
  · exact Iff.rfl

/-- Lower case and cutting at the first dot can be done in either order. -/
theorem lower_takeWhile (seg : Str) : (lower seg).takeWhile (· ≠ 46) = lower (seg.takeWhile (· ≠ 46)) := by
  induction seg with
  | nil => rfl
  | cons c rest ih =>
    simp only [lower,List.map_cons,List.takeWhile_cons,decide_not] at ih ⊢
    rw [show decide (asciiLower c = 46) = decide (c = 46) from decide_eq_decide.mpr (asciiLower_dot c)]
    cases decide (c = 46)
    · exact congrArg _ ih
    · rfl

theorem hasReservedName_false (s : Str) (unreserved : hasReservedName s = false) (seg : Str) (member : seg ∈ segments s) :
    lower (seg.takeWhile (· ≠ 46)) ∉ reservedNames := by
  have fine := List.any_eq_false.mp unreserved seg member
  rwa [List.contains_iff_mem,lower_takeWhile] at fine

/-- An accepted path is the join of its resolved segments, every one of them safe. -/
theorem normalizeRelative_segments (input out : Str) (accepted : normalizeRelative input = some out) :
    ∃ segs, resolve (segments (slashed input)) [] = some segs ∧ segs ≠ [] ∧ out = joined segs ∧
      segments out = segs ∧ ∀ seg ∈ segs, SafeSegment seg := by
  obtain ⟨-,segs,resolved,filled,legal,unreserved,same⟩ := (normalizeRelative_some_iff input out).mp accepted
  have origin : ∀ seg ∈ segs, seg ∈ segments (slashed input) ∧ Solid seg := by
    intro seg member
    rcases resolve_mem _ _ _ resolved seg member with empty | good
    · contradiction
    · exact good
  have cut : segments (joined segs) = segs :=
    List.splitOn_intercalate 47 (fun seg member => (mem_segments _ seg (origin seg member).1).2) filled
  refine ⟨segs,resolved,filled,same.symm,same ▸ cut,?_⟩
  intro seg member
  have bytes := mem_segments _ seg (origin seg member).1
  have fine : ∀ c ∈ seg, 32 ≤ c ∧ c ∉ illegal := fun c inside =>
    hasIllegalChars_false _ legal c (mem_joined segs seg c member inside)
  exact {
    solid := (origin seg member).2
    noSeparator := ⟨bytes.2,fun inside => slashed_no_backslash input (bytes.1 92 inside)⟩
    printable := fun c inside => (fine c inside).1
    legal := fun c inside => (fine c inside).2
    unreserved := hasReservedName_false _ unreserved seg (by rwa [cut]) }

/-- Safe segments are accepted as they stand. -/
theorem normalizeRelative_joined (segs : List Str) (filled : segs ≠ []) (safe : ∀ seg ∈ segs, SafeSegment seg)
    (short : (joined segs).length ≤ 4096) (legal : hasIllegalChars (joined segs) = false)
    (unreserved : hasReservedName (joined segs) = false) : normalizeRelative (joined segs) = some (joined segs) := by
  have clean : 92 ∉ joined segs := by
    intro member
    rcases of_mem_joined segs 92 member with slash | ⟨seg,inside,here⟩
    · contradiction
    · exact (safe seg inside).noSeparator.2 here
  have bytes := hasIllegalChars_false _ legal
  have cut : segments (joined segs) = segs :=
    List.splitOn_intercalate 47 (fun seg member => (safe seg member).noSeparator.1) filled
  have headed : ∃ c rest, joined segs = c::rest ∧ c ≠ 47 := by
    obtain ⟨first,others,rfl⟩ := List.exists_cons_of_ne_nil filled
    have front := safe first List.mem_cons_self
    obtain ⟨c,rest,rfl⟩ := List.exists_cons_of_ne_nil front.solid.1
    have notSlash : c ≠ 47 := fun slash => front.noSeparator.1 (slash ▸ List.mem_cons_self)
    cases others with
    | nil => exact ⟨c,rest,by simp [joined],notSlash⟩
    | cons second others => exact ⟨c,_,by rw [joined,List.intercalate_cons_cons]; rfl,notSlash⟩
  obtain ⟨c,rest,headed,notSlash⟩ := headed
  rw [normalizeRelative_some_iff,slashed_eq_self _ clean]
  refine ⟨⟨by simp [headed],short,by simpa [headed] using notSlash,?_,?_⟩,segs,?_,filled,legal,unreserved,rfl⟩
  · intro colon
    exact (bytes 58 (List.mem_of_getElem? colon)).2 (by decide)
  · intro nul
    exact absurd (bytes 0 nul).1 (by decide)
  · rw [cut,resolve_solid segs [] (fun seg member => (safe seg member).solid),List.nil_append]

/-- Normalising an accepted path again changes nothing. -/
theorem normalizeRelative_again (input out : Str) (accepted : normalizeRelative input = some out) :
    normalizeRelative out = some out := by
  obtain ⟨⟨-,short,-⟩,others,resolved,-,legal,unreserved,same⟩ := (normalizeRelative_some_iff input out).mp accepted
  obtain ⟨segs,again,filled,joint,-,safe⟩ := normalizeRelative_segments input out accepted
  have one : others = segs := Option.some.inj (resolved.symm.trans again)
  subst one
  have size := resolved_length _ _ resolved filled
  rw [show (slashed input).length = input.length from List.length_map _] at size
  rw [joint]
  exact normalizeRelative_joined others filled safe (by omega) legal unreserved

/-- What leaves the root, or does not start below it, is refused. -/
theorem normalizeRelative_refused (input : Str) (outside : PopsAbove input ∨ Absolute input ∨ DriveQualified input) :
    normalizeRelative input = none := by
  cases accepted : normalizeRelative input with
  | none => rfl
  | some out =>
    obtain ⟨⟨-,-,relative,local',-⟩,segs,resolved,-⟩ := (normalizeRelative_some_iff input out).mp accepted
    rcases outside with ⟨front,start,above⟩ | absolute | drive
    · have failed := (resolve_none_iff (segments (slashed input)) []).mpr ⟨front,start,by simpa using above⟩
      rw [resolved] at failed
      contradiction
    · have slash : (slashed input).head? = some 47 := by
        rw [slashed,List.head?_map]
        rcases absolute with slash | backslash
        · rw [slash]
          rfl
        · rw [backslash]
          rfl
      exact absurd slash relative
    · have colon : (slashed input)[1]? = some 58 := by
        rw [slashed,List.getElem?_map,show input[1]? = some 58 from drive]
        rfl
      exact absurd colon local'

section
variable (win : Windows)

/-- `towlower` does not touch the two separators, nor make one. -/
structure Separators : Prop where
  slash : ∀ c, win.towlower c = 47 ↔ c = 47
  backslash : ∀ c, win.towlower c = 92 ↔ c = 92

/-- The root as `joinInsideRoot` uses it. -/
def trimmedRoot (absRoot : WStr) : WStr := absRoot.rdropWhile (fun c => c = 92 || c = 47)

variable {win}

/-- The lowered form ends in separators exactly where the text does. -/
theorem wlower_rdropWhile (separators : Separators win) (absRoot : WStr) :
    (wlower win absRoot).rdropWhile (· = 92) = wlower win (trimmedRoot absRoot) := by
  induction absRoot using List.reverseRecOn with
  | nil => rfl
  | append_singleton front c ih =>
    have last : (if win.towlower c = 47 then 92 else win.towlower c) = 92 ↔ c = 92 ∨ c = 47 := by
      rw [← separators.slash c,← separators.backslash c]
      by_cases slash : win.towlower c = 47
      · simp [slash]
      · simp [slash]
    have text : wlower win (front ++ [c]) = wlower win front ++ [if win.towlower c = 47 then 92 else win.towlower c] := by
      simp [wlower,backslashed]
    rw [text,trimmedRoot,List.rdropWhile_concat,List.rdropWhile_concat]
    by_cases separates : c = 92 ∨ c = 47
    · rw [if_pos (decide_eq_true (last.mpr separates)),if_pos (by simpa using separates)]
      exact ih
    · have kept : ¬(decide (c = 92) || decide (c = 47)) = true := by simpa using separates
      rw [if_neg (fun lowered => separates (last.mp (of_decide_eq_true lowered))),if_neg kept,← text]

theorem trimmedRoot_idem (absRoot : WStr) : trimmedRoot (trimmedRoot absRoot) = trimmedRoot absRoot :=
  List.rdropWhile_idempotent _ _

/-- A path below the root, written with the root's own text, is inside it. -/
theorem isInsideRoot_below (separators : Separators win) (absRoot tail : WStr) :
    isInsideRoot win absRoot (trimmedRoot absRoot ++ [92] ++ tail) = true := by
  have root := wlower_rdropWhile separators absRoot
  have bar : win.towlower 92 = 92 := (separators.backslash 92).mpr rfl
  have path : wlower win (trimmedRoot absRoot ++ [92] ++ tail) = wlower win (trimmedRoot absRoot) ++ 92::wlower win tail := by
    simp [wlower,backslashed,bar]
  unfold isInsideRoot
  dsimp only
  rw [root,path]
  split
  · rfl
  split
  · rename_i short
    rw [List.length_append,List.length_cons] at short
    omega
  · simp

/-- `joinInsideRoot` on an accepted path. -/
theorem joinInsideRoot_accepted (separators : Separators win) (absRoot : WStr) (input out : Str)
    (accepted : normalizeRelative input = some out) :
    joinInsideRoot win absRoot input = some (trimmedRoot absRoot ++ [92] ++ backslashed (utf8ToWide win out)) := by
  have inside := isInsideRoot_below separators (trimmedRoot absRoot) (backslashed (utf8ToWide win out))
  rw [trimmedRoot_idem] at inside
  unfold joinInsideRoot
  rw [accepted]
  exact if_pos inside

/-- What a path from another device can name: safe segments, resolved as written,
at a place below the root; and nothing that leaves the root. -/
theorem path_traversal_defended (separators : Separators win)
    (converts : ∀ s, Json.validUtf8 s = true → (win.multiByteToWideChar s).isSome) (input : Str) :
    (∀ out, normalizeRelative input = some out →
      (∃ segs, resolve (segments (slashed input)) [] = some segs ∧ segs ≠ [] ∧ out = joined segs ∧ segments out = segs ∧
        ∀ seg ∈ segs, SafeSegment seg) ∧
      normalizeRelative out = some out ∧
      (Json.validUtf8 out = true → ∃ wide, win.multiByteToWideChar out = some wide ∧ ∀ absRoot,
        joinInsideRoot win absRoot input = some (trimmedRoot absRoot ++ [92] ++ backslashed wide) ∧
        isInsideRoot win absRoot (trimmedRoot absRoot ++ [92] ++ backslashed wide) = true)) ∧
    (PopsAbove input ∨ Absolute input ∨ DriveQualified input → normalizeRelative input = none) := by
  refine ⟨?_,normalizeRelative_refused input⟩
  intro out accepted
  refine ⟨normalizeRelative_segments input out accepted,normalizeRelative_again input out accepted,?_⟩
  intro valid
  obtain ⟨wide,converted⟩ := Option.isSome_iff_exists.mp (converts out valid)
  refine ⟨wide,converted,fun absRoot => ⟨?_,isInsideRoot_below separators absRoot _⟩⟩
  have filled : out ≠ [] := ((normalizeRelative_some_iff out out).mp (normalizeRelative_again input out accepted)).1.1
  have text : utf8ToWide win out = wide := by rw [utf8ToWide,if_neg filled,converted]; rfl
  rw [joinInsideRoot_accepted separators absRoot input out accepted,text]

end

/-- The UTF-16 code units of well-formed UTF-8. -/
def utf16 : Bytes → WStr
  | [] => []
  | a::rest =>
    if a < 128 then a.toUInt16::utf16 rest
    else match rest with
      | [] => []
      | b::rest =>
        let two := (b &&& 63).toUInt16
        if a < 224 then ((a &&& 31).toUInt16 <<< 6 ||| two)::utf16 rest
        else match rest with
          | [] => []
          | c::rest =>
            let three := (c &&& 63).toUInt16
            if a < 240 then ((a &&& 15).toUInt16 <<< 12 ||| two <<< 6 ||| three)::utf16 rest
            else match rest with
              | [] => []
              | d::rest =>
                let plane := (a &&& 7).toUInt16 <<< 8 ||| two <<< 2 ||| three >>> 4
                let low := (three &&& 15) <<< 6 ||| (d &&& 63).toUInt16
                (0xD800 + (plane - 0x40))::(0xDC00 + low)::utf16 rest

/-- Windows on Unicode text, with the case mapping of ASCII letters. -/
def unicode : Windows where
  multiByteToWideChar s := if Json.validUtf8 s then some (utf16 s) else none
  wideCharToMultiByte s := if s.all (· < 128) then some (s.map (fun c => c.toUInt8)) else none
  towlower c := if 65 ≤ c && c ≤ 90 then c + 32 else c

theorem unicode_towlower (c : UInt16) (mark : UInt16) (low : mark.toNat < 65 ∨ 90 < mark.toNat)
    (unlettered : mark.toNat < 97 ∨ 122 < mark.toNat) : unicode.towlower c = mark ↔ c = mark := by
  show (if 65 ≤ c && c ≤ 90 then c + 32 else c) = mark ↔ c = mark
  split
  · rename_i upper
    simp only [Bool.and_eq_true,decide_eq_true_eq,UInt16.le_iff_toNat_le] at upper
    simp only [← UInt16.toNat_inj,UInt16.toNat_add]
    have first : (65 : UInt16).toNat = 65 := rfl
    have last : (90 : UInt16).toNat = 90 := rfl
    have shift : (32 : UInt16).toNat = 32 := rfl
    omega
  · exact Iff.rfl

theorem unicode_separators : Separators unicode :=
  ⟨fun c => unicode_towlower c 47 (by decide) (by decide),fun c => unicode_towlower c 92 (by decide) (by decide)⟩

theorem unicode_converts (s : Str) (valid : Json.validUtf8 s = true) : (unicode.multiByteToWideChar s).isSome := by
  show (if Json.validUtf8 s then some (utf16 s) else none).isSome = true
  rw [if_pos valid]
  rfl

theorem notes_path_defended :
    normalizeRelative (lit "docs/../../evil.txt") = none ∧
    ∃ wide, unicode.multiByteToWideChar (lit "docs/notes.txt") = some wide ∧ ∀ absRoot,
      joinInsideRoot unicode absRoot (lit "docs\\.\\old/../notes.txt") =
        some (trimmedRoot absRoot ++ [92] ++ backslashed wide) ∧
      isInsideRoot unicode absRoot (trimmedRoot absRoot ++ [92] ++ backslashed wide) = true :=
  ⟨(path_traversal_defended unicode_separators unicode_converts (lit "docs/../../evil.txt")).2
      (.inl ⟨[lit "docs",lit "..",lit ".."],by decide,by decide⟩),
    ((path_traversal_defended unicode_separators unicode_converts (lit "docs\\.\\old/../notes.txt")).1
      (lit "docs/notes.txt") (by decide)).2.2 (Json.validUtf8_of_ascii _ (by decide +kernel))⟩

section

/-- The last byte of the segment is a dot or a space. -/
def Trailing (seg : Str) : Prop := seg.getLast? = some 46 ∨ seg.getLast? = some 32

theorem last_untrailed (s : Str) (legal : hasIllegalChars s = false) (seg : Str) (last : (segments s).getLast? = some seg) :
    ¬Trailing seg := by
  have fine := (Bool.or_eq_false_iff.mp legal).2
  rw [List.getLastD_eq_getLast?,last,Option.getD_some] at fine
  rintro (dot | space)
  · rw [dot] at fine
    contradiction
  · rw [space] at fine
    contradiction

/-- Only the last segment of a path is checked for a trailing dot or space: an
accepted path is free of them exactly when its directories are. -/
theorem segments_untrailed_iff (input out : Str) (accepted : normalizeRelative input = some out) :
    (∀ seg ∈ segments out, ¬Trailing seg) ↔
      ∀ segs, resolve (segments (slashed input)) [] = some segs → ∀ seg ∈ segs.dropLast, ¬Trailing seg := by
  obtain ⟨segs,resolved,filled,-,cut,-⟩ := normalizeRelative_segments input out accepted
  obtain ⟨-,others,again,-,legal,-,same⟩ := (normalizeRelative_some_iff input out).mp accepted
  rw [same] at legal
  constructor
  · intro clean other resolves seg member
    have one : other = segs := Option.some.inj (resolves.symm.trans resolved)
    exact clean seg (cut ▸ one ▸ List.dropLast_subset _ member)
  · intro clean seg member
    rw [cut] at member
    rw [← List.dropLast_append_getLast filled] at member
    rcases List.mem_append.mp member with directory | last
    · exact clean segs resolved seg directory
    · apply last_untrailed out legal
      rw [cut,List.mem_singleton.mp last,List.getLast?_eq_getLast_of_ne_nil filled]

theorem plain_path_untrailed : normalizeRelative (lit "docs/old./../notes.txt") = some (lit "docs/notes.txt") ∧
    ∀ seg ∈ segments (lit "docs/notes.txt"), ¬Trailing seg := by
  refine ⟨by decide,?_⟩
  apply (segments_untrailed_iff (lit "docs/old./../notes.txt") (lit "docs/notes.txt") (by decide)).mpr
  · intro segs resolved
    have resolves : resolve (segments (slashed (lit "docs/old./../notes.txt"))) [] =
        some [lit "docs",lit "notes.txt"] := by decide
    rw [resolves,Option.some.injEq] at resolved
    subst resolved
    intro seg member
    rw [show [lit "docs",lit "notes.txt"].dropLast = [lit "docs"] from rfl,List.mem_singleton] at member
    subst member
    rintro (dot | space)
    · exact absurd dot (by decide)
    · exact absurd space (by decide)

/-- `dir./a` names what Windows opens as `dir\a`, and is accepted. -/
theorem dotted_directory_accepted :
    ¬∀ input out, normalizeRelative input = some out → ∀ seg ∈ segments out, ¬Trailing seg := by
  intro legal
  have accepted : normalizeRelative (lit "dir./a") = some (lit "dir./a") := by decide
  refine legal _ _ accepted (lit "dir.") ?_ (.inl ?_)
  · decide
  · decide

end

end NPSync.PathUtil
