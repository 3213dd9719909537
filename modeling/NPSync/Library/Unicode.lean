import Mathlib

/-! Text as a list of characters, its UTF-16 code units and its UTF-8 bytes. An
unpaired surrogate reads as U+FFFD. A separator cuts the text and its encodings
at the same places. -/
namespace NPSync.Library.Unicode

def isHigh (unit : UInt16) : Bool := 0xD800 ≤ unit && unit < 0xDC00

def isLow (unit : UInt16) : Bool := 0xDC00 ≤ unit && unit < 0xE000

def single (unit : UInt16) : Char := if isHigh unit || isLow unit then Char.ofNat 0xFFFD else Char.ofNat unit.toNat

def paired (first second : UInt16) : Char :=
  Char.ofNat (0x10000 + (first.toNat - 0xD800) * 0x400 + (second.toNat - 0xDC00))

/-- The characters that UTF-16 text stands for. -/
def characters : List UInt16 → List Char
  | [] => []
  | [unit] => [single unit]
  | first::second::rest =>
    if isHigh first && isLow second then paired first second::characters rest
    else single first::characters (second::rest)

def units (c : Char) : List UInt16 :=
  if c.toNat < 0x10000 then [UInt16.ofNat c.toNat]
  else [UInt16.ofNat (0xD800 + (c.toNat - 0x10000) / 0x400),UInt16.ofNat (0xDC00 + (c.toNat - 0x10000) % 0x400)]

def toUtf16 (text : List Char) : List UInt16 := text.flatMap units

def toUtf8 (text : List Char) : List UInt8 := text.flatMap String.utf8EncodeChar

def ofUtf8 (bytes : List UInt8) : Option (List Char) := bytes.toByteArray.utf8Decode?.map Array.toList

theorem ofUtf8_toUtf8 (text : List Char) : ofUtf8 (toUtf8 text) = some text := by
  have decoded : (toUtf8 text).toByteArray.utf8Decode? = some text.toArray := List.utf8Decode?_utf8Encode
  rw [ofUtf8,decoded]
  rfl

theorem toNat_ofNat (n : Nat) (valid : n.isValidChar) : (Char.ofNat n).toNat = n := by
  unfold Char.ofNat
  rw [dif_pos valid]
  rfl

theorem single_toNat (unit : UInt16) : (single unit).toNat < 0x10000 := by
  have size := unit.toNat_lt
  unfold single
  split
  · decide
  · rename_i plain
    have valid : unit.toNat.isValidChar := by
      simp only [isHigh,isLow,Bool.or_eq_true,Bool.and_eq_true,decide_eq_true_eq,UInt16.le_iff_toNat_le,
        UInt16.lt_iff_toNat_lt,not_or] at plain
      have marks : (0xD800 : UInt16).toNat = 0xD800 ∧ (0xDC00 : UInt16).toNat = 0xDC00 ∧ (0xE000 : UInt16).toNat = 0xE000 :=
        ⟨rfl,rfl,rfl⟩
      unfold Nat.isValidChar
      omega
    rw [toNat_ofNat _ valid]
    omega

theorem paired_toNat (first second : UInt16) (high : isHigh first = true) (low : isLow second = true) :
    0x10000 ≤ (paired first second).toNat := by
  simp only [isHigh,isLow,Bool.and_eq_true,decide_eq_true_eq,UInt16.le_iff_toNat_le,UInt16.lt_iff_toNat_lt] at high low
  have marks : (0xD800 : UInt16).toNat = 0xD800 ∧ (0xDC00 : UInt16).toNat = 0xDC00 ∧ (0xE000 : UInt16).toNat = 0xE000 :=
    ⟨rfl,rfl,rfl⟩
  have valid : (0x10000 + (first.toNat - 0xD800) * 0x400 + (second.toNat - 0xDC00)).isValidChar := by
    unfold Nat.isValidChar
    omega
  rw [paired,toNat_ofNat _ valid]
  omega

theorem units_short (c : Char) (small : c.toNat < 0x10000) : (units c).length = 1 := by
  rw [units,if_pos small]
  rfl

theorem units_long (c : Char) (large : 0x10000 ≤ c.toNat) : (units c).length = 2 := by
  rw [units,if_neg (by omega)]
  rfl

/-- Reading UTF-16 and writing it back keeps its length. -/
theorem toUtf16_characters_length (text : List UInt16) : (toUtf16 (characters text)).length = text.length := by
  fun_induction characters text with
  | case1 => rfl
  | case2 unit => simp [toUtf16,units_short _ (single_toNat unit)]
  | case3 first second rest pair ih =>
    obtain ⟨high,low⟩ := Bool.and_eq_true_iff.mp pair
    simp only [toUtf16,List.flatMap_cons,List.length_append,List.length_cons] at ih ⊢
    rw [ih,units_long _ (paired_toNat first second high low)]
    omega
  | case4 first second rest lone ih =>
    simp only [toUtf16,List.flatMap_cons,List.length_append,List.length_cons] at ih ⊢
    rw [ih,units_short _ (single_toNat first)]
    omega

/-- A byte below 128 encodes the character of that number, alone. -/
theorem mem_utf8EncodeChar (c : Char) (mark : UInt8) (ascii : mark.toNat < 128) (member : mark ∈ String.utf8EncodeChar c) :
    c = Char.ofNat mark.toNat := by
  unfold String.utf8EncodeChar at member
  extract_lets value at member
  split at member
  · rename_i small
    have same : mark.toNat = c.toNat := by
      rw [List.mem_singleton.mp member,UInt8.toNat_ofNat']
      exact Nat.mod_eq_of_lt (Nat.lt_of_le_of_lt small (by decide))
    rw [same]
    exact (Char.ofNat_toNat c).symm
  -- every byte of a longer encoding is 128 or more
  · exfalso
    have byte : ∃ n, 128 ≤ n ∧ n < 256 ∧ mark = UInt8.ofNat n := by
      split at member
      · rcases List.mem_cons.mp member with lead | member
        · exact ⟨_,by omega,by omega,lead⟩
        · exact ⟨_,by omega,by omega,List.mem_singleton.mp member⟩
      split at member
      · rcases List.mem_cons.mp member with lead | member
        · exact ⟨_,by omega,by omega,lead⟩
        rcases List.mem_cons.mp member with second | member
        · exact ⟨_,by omega,by omega,second⟩
        · exact ⟨_,by omega,by omega,List.mem_singleton.mp member⟩
      · rcases List.mem_cons.mp member with lead | member
        · exact ⟨_,by omega,by omega,lead⟩
        rcases List.mem_cons.mp member with second | member
        · exact ⟨_,by omega,by omega,second⟩
        rcases List.mem_cons.mp member with third | member
        · exact ⟨_,by omega,by omega,third⟩
        · exact ⟨_,by omega,by omega,List.mem_singleton.mp member⟩
    obtain ⟨n,large,small,rfl⟩ := byte
    rw [UInt8.toNat_ofNat'] at ascii
    omega

section
variable {α β : Type}

theorem flatMap_intercalate (f : α → List β) (sep : List α) (names : List (List α)) :
    (sep.intercalate names).flatMap f = (sep.flatMap f).intercalate (names.map (·.flatMap f)) := by
  induction names with
  | nil => rfl
  | cons first rest ih =>
    cases rest with
    | nil => simp
    | cons second rest =>
      rw [List.intercalate_cons_cons,List.flatMap_append,List.flatMap_append,ih]
      simp only [List.map_cons,List.intercalate_cons_cons]

theorem length_intercalate (sep : α) (names : List (List α)) (filled : names ≠ []) :
    ([sep].intercalate names).length + 1 = (names.map (·.length + 1)).sum := by
  induction names with
  | nil => contradiction
  | cons first rest ih =>
    cases rest with
    | nil => simp
    | cons second rest =>
      have tail := ih (List.cons_ne_nil _ _)
      rw [List.intercalate_cons_cons,List.map_cons,List.sum_cons,← tail]
      simp only [List.length_append,List.length_singleton]
      omega

/-- A part of a list that weighs as much is the list. -/
theorem sublist_eq_of_sum (weight : α → Nat) (positive : ∀ a, 0 < weight a) (part whole : List α) (sub : part.Sublist whole)
    (same : (part.map weight).sum = (whole.map weight).sum) : part = whole := by
  induction sub with
  | slnil => rfl
  | @cons part whole a sub ih =>
    have less := (sub.map weight).sum_le_sum (fun _ _ => Nat.zero_le _)
    rw [List.map_cons,List.sum_cons] at same
    have weighs := positive a
    omega
  | @cons_cons part whole a sub ih =>
    rw [List.map_cons,List.map_cons,List.sum_cons,List.sum_cons] at same
    exact congrArg _ (ih (by omega))

/-- Some of the names of a text, joined again, are no longer than the text, and
as long only when they are all of them. -/
theorem length_of_names (f : Char → List β) (sep : Char) (mark : β) (one : f sep = [mark]) (text : List Char)
    (names : List (List Char)) (filled : names ≠ []) (part : names.Sublist (text.splitOn sep)) :
    (([sep].intercalate names).flatMap f).length ≤ (text.flatMap f).length ∧
      ((([sep].intercalate names).flatMap f).length = (text.flatMap f).length → names = text.splitOn sep) := by
  have size : ∀ (names : List (List Char)), names ≠ [] →
      (([sep].intercalate names).flatMap f).length + 1 = (names.map (fun name => (name.flatMap f).length + 1)).sum := by
    intro names filled
    have cut : [sep].flatMap f = [mark] := by simp [one]
    rw [flatMap_intercalate,cut,length_intercalate _ _ (by simpa using filled),List.map_map]
    rfl
  have some_names := size names filled
  have all_names := size (text.splitOn sep) (List.splitOn_ne_nil sep text)
  rw [List.intercalate_splitOn] at all_names
  have less := (part.map (fun name => (name.flatMap f).length + 1)).sum_le_sum (fun _ _ => Nat.zero_le _)
  refine ⟨by omega,?_⟩
  intro same
  apply sublist_eq_of_sum (fun name => (name.flatMap f).length + 1) (fun _ => Nat.succ_pos _) names _ part
  omega

end

/-- No name holds the separator the text was cut at. -/
theorem not_mem_splitOn {α : Type} [DecidableEq α] (sep : α) (text name : List α) (member : name ∈ text.splitOn sep) :
    sep ∉ name := by
  induction text generalizing name with
  | nil => simp_all
  | cons c rest ih =>
    rw [List.splitOn_cons_eq_if_modifyHead] at member
    split at member
    · rcases List.mem_cons.mp member with rfl | inside
      · exact List.not_mem_nil
      · exact ih name inside
    · rename_i other
      cases cut : rest.splitOn sep with
      | nil => exact absurd cut (List.splitOn_ne_nil sep rest)
      | cons first others =>
        rw [cut] at member ih
        rcases List.mem_cons.mp member with rfl | inside
        · have old := ih first List.mem_cons_self
          have apart : sep ≠ c := fun same => other (beq_iff_eq.mpr same.symm)
          simpa [apart] using old
        · exact ih name (List.mem_cons_of_mem _ inside)

/-- Cutting the bytes of a text cuts the text. -/
theorem splitOn_toUtf8 (sep : Char) (mark : UInt8) (ascii : mark.toNat < 128) (same : sep = Char.ofNat mark.toNat)
    (one : String.utf8EncodeChar sep = [mark]) (text : List Char) :
    (toUtf8 text).splitOn mark = (text.splitOn sep).map toUtf8 := by
  have cut : [sep].flatMap String.utf8EncodeChar = [mark] := by simp [one]
  have whole : toUtf8 text = [mark].intercalate ((text.splitOn sep).map toUtf8) := by
    have again : [sep].intercalate (text.splitOn sep) = text := List.intercalate_splitOn sep
    conv_lhs => rw [← again]
    rw [toUtf8,flatMap_intercalate,cut]
    rfl
  rw [whole]
  apply List.splitOn_intercalate
  · intro bytes member inside
    obtain ⟨name,named,rfl⟩ := List.mem_map.mp member
    obtain ⟨c,here,encoded⟩ := List.mem_flatMap.mp inside
    have marked := mem_utf8EncodeChar c mark ascii encoded
    exact not_mem_splitOn sep text name named (same ▸ marked ▸ here)
  · simp

end NPSync.Library.Unicode
