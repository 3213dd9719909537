import Mathlib.Data.List.Induction
import Mathlib.Tactic.Ring

/-! Bit strings, the most significant bit first, and their regrouping: a sequence of
numbers of one width is read as numbers of another. -/
namespace NPSync.Library.BitText

/-- The low bits of a number. -/
def bits : (width : Nat) → Nat → List Bool
  | 0,_ => []
  | width + 1,n => bits width (n / 2) ++ [n.testBit 0]

def value (text : List Bool) : Nat := text.foldl (fun n bit => 2 * n + bit.toNat) 0

@[simp] theorem length_bits (width n : Nat) : (bits width n).length = width := by
  induction width generalizing n with
  | zero => rfl
  | succ width ih =>
    rw [bits,List.length_append,ih]
    rfl

theorem value_snoc (text : List Bool) (bit : Bool) : value (text ++ [bit]) = 2 * value text + bit.toNat := by
  unfold value
  rw [List.foldl_append]
  rfl

theorem testBit_zero_toNat (n : Nat) : (n.testBit 0).toNat = n % 2 := by
  rw [Nat.testBit_zero]
  rcases Nat.mod_two_eq_zero_or_one n with even | odd
  · rw [even]
    rfl
  · rw [odd]
    rfl

/-- Reading the bits of a number gives the number back, as far as the width goes. -/
theorem value_bits (width n : Nat) : value (bits width n) = n % 2^width := by
  induction width generalizing n with
  | zero => rw [Nat.pow_zero,Nat.mod_one]; rfl
  | succ width ih =>
    rw [bits,value_snoc,ih,testBit_zero_toNat,Nat.pow_succ,Nat.mul_comm _ 2,Nat.mod_mul]
    exact Nat.add_comm _ _

theorem bits_value (text : List Bool) : bits text.length (value text) = text := by
  induction text using List.reverseRecOn with
  | nil => rfl
  | append_singleton text bit ih =>
    have half : (2 * value text + bit.toNat) / 2 = value text := by
      have small := bit.toNat_lt
      omega
    have last : (2 * value text + bit.toNat).testBit 0 = bit := by
      rw [Nat.testBit_zero,Nat.mul_add_mod]
      cases bit <;> rfl
    rw [value_snoc,List.length_append,List.length_singleton,bits,half,last,ih]

theorem value_lt (text : List Bool) : value text < 2^text.length := by
  rw [← bits_value text,value_bits,length_bits]
  exact Nat.mod_lt _ (Nat.pow_pos (by decide))

theorem bits_add (high low n : Nat) : bits (high + low) n = bits high (n / 2^low) ++ bits low n := by
  induction low generalizing n with
  | zero => rw [Nat.pow_zero,Nat.div_one]; exact (List.append_nil _).symm
  | succ low ih =>
    have deeper : n / 2 / 2^low = n / 2^(low + 1) := by
      rw [Nat.div_div_eq_div_mul,Nat.pow_succ,Nat.mul_comm]
    rw [← Nat.add_assoc,bits,bits,ih,deeper,List.append_assoc]

/-- Higher bits do not matter. -/
theorem bits_congr {width m n : Nat} (same : m % 2^width = n % 2^width) : bits width m = bits width n := by
  induction width generalizing m n with
  | zero => rfl
  | succ width ih =>
    rw [Nat.pow_succ,Nat.mul_comm _ 2,Nat.mod_mul,Nat.mod_mul] at same
    have last : m % 2 = n % 2 := by omega
    have others : m / 2 % 2^width = n / 2 % 2^width := by omega
    rw [bits,bits,ih others,Nat.testBit_zero,Nat.testBit_zero,last]

theorem bits_zero (width : Nat) : bits width 0 = List.replicate width false := by
  induction width with
  | zero => rfl
  | succ width ih =>
    rw [bits,Nat.zero_div,ih,List.replicate_succ']
    rfl

/-- A shift makes room for the bits that are added. -/
theorem bits_shift (high low m n : Nat) (fits : n < 2^low) : bits (high + low) (m * 2^low + n) = bits high m ++ bits low n := by
  have positive : 0 < 2^low := Nat.pow_pos (by decide)
  have front : (m * 2^low + n) / 2^low = m := by
    rw [Nat.add_comm,Nat.add_mul_div_right _ _ positive,Nat.div_eq_of_lt fits,Nat.zero_add]
  have back : (m * 2^low + n) % 2^low = n % 2^low := by
    rw [Nat.add_comm,Nat.add_mul_mod_self_right]
  rw [bits_add,front,bits_congr back]

section
variable {α : Type}

/-- The whole groups of a list; what is left at its end is dropped. -/
def groups (size : Nat) (text : List α) : List (List α) :=
  (List.range (text.length / size)).map fun i => (text.drop (i * size)).take size

@[simp] theorem length_groups (size : Nat) (text : List α) : (groups size text).length = text.length / size := by
  rw [groups,List.length_map,List.length_range]

theorem groups_short {size : Nat} {text : List α} (short : text.length < size) : groups size text = [] := by
  rw [groups,Nat.div_eq_of_lt short]
  rfl

theorem groups_append {size : Nat} {group : List α} (whole : group.length = size) (positive : 0 < size) (text : List α) :
    groups size (group ++ text) = group::groups size text := by
  have count : (group ++ text).length / size = text.length / size + 1 := by
    rw [List.length_append,whole,Nat.add_comm,Nat.add_div_right _ positive]
  rw [groups,count,List.range_succ_eq_map,List.map_cons,List.map_map,Nat.zero_mul,List.drop_zero,List.take_left' whole]
  congr 1
  apply List.map_congr_left
  intro i _
  have next : (i + 1) * size = group.length + i * size := by
    rw [whole]
    ring
  rw [Function.comp_apply,next,List.drop_length_add_append]

theorem flatten_groups {size : Nat} (positive : 0 < size) (text : List α) (whole : text.length % size = 0) :
    (groups size text).flatten = text := by
  obtain ⟨count,length⟩ := Nat.dvd_of_mod_eq_zero whole
  induction count generalizing text with
  | zero =>
    rw [groups_short (by omega)]
    exact (List.eq_nil_of_length_eq_zero length).symm
  | succ count ih =>
    have more : text.length = size * count + size := length
    have first : (text.take size).length = size := by
      rw [List.length_take]
      omega
    have rest : (text.drop size).length = size * count := by
      rw [List.length_drop]
      omega
    have cut : groups size text = text.take size::groups size (text.drop size) := by
      rw [← groups_append first positive,List.take_append_drop]
    rw [cut,List.flatten_cons,ih _ (by rw [rest,Nat.mul_mod_right]) rest,List.take_append_drop]

theorem length_of_mem_groups {size : Nat} {text group : List α} (member : group ∈ groups size text) : group.length = size := by
  obtain ⟨i,bound,rfl⟩ := List.mem_map.mp member
  have room : (i + 1) * size ≤ text.length :=
    (Nat.mul_le_mul_right size (List.mem_range.mp bound)).trans (Nat.div_mul_le_self _ _)
  rw [Nat.add_mul,Nat.one_mul] at room
  rw [List.length_take,List.length_drop]
  omega

/-- Groups of one size that are put together and cut again, with less than a group behind them. -/
theorem groups_flatMap {β : Type} {size : Nat} (positive : 0 < size) (write : β → List α) (whole : ∀ b, (write b).length = size)
    (items : List β) {rest : List α} (short : rest.length < size) :
    groups size (items.flatMap write ++ rest) = items.map write := by
  induction items with
  | nil => exact groups_short short
  | cons b items ih =>
    rw [List.flatMap_cons,List.append_assoc,groups_append (whole b) positive,ih,List.map_cons]

end

/-- How many zero bits fill up the last group. -/
def missing (size : Nat) (text : List Bool) : Nat := (size - text.length % size) % size

/-- Zero bits are added at the end until the groups are whole. -/
def filled (size : Nat) (text : List Bool) : List Bool := text ++ List.replicate (missing size text) false

theorem missing_lt {size : Nat} (positive : 0 < size) (text : List Bool) : missing size text < size := Nat.mod_lt _ positive

theorem length_filled {size : Nat} (positive : 0 < size) (text : List Bool) : (filled size text).length % size = 0 := by
  have part := Nat.mod_lt text.length positive
  have split := Nat.div_add_mod text.length size
  rw [filled,List.length_append,List.length_replicate,missing]
  rcases Nat.eq_zero_or_pos (text.length % size) with whole | rest
  · rw [whole,Nat.sub_zero,Nat.mod_self,Nat.add_zero,whole]
  · have full : text.length + (size - text.length % size) = size * (text.length / size + 1) := by
      rw [Nat.mul_succ]
      omega
    rw [Nat.mod_eq_of_lt (by omega : size - text.length % size < size),full,Nat.mul_mod_right]

theorem filled_filled {size : Nat} (positive : 0 < size) (text : List Bool) : filled size (filled size text) = filled size text := by
  have none : missing size (filled size text) = 0 := by
    rw [missing,length_filled positive,Nat.sub_zero,Nat.mod_self]
  rw [filled,none]
  exact List.append_nil _

/-- Filling up a number shifts it. -/
theorem filled_bits (size width fill n : Nat) (count : (size - width % size) % size = fill) :
    filled size (bits width n) = bits (width + fill) (n * 2^fill) := by
  have zeros : missing size (bits width n) = fill := by rw [missing,length_bits,count]
  have shifted := bits_shift width fill n 0 (Nat.pow_pos (by decide))
  rw [filled,zeros,← bits_zero,← shifted,Nat.add_zero]

theorem filled_append {size : Nat} {front : List Bool} (whole : front.length % size = 0) (text : List Bool) :
    filled size (front ++ text) = front ++ filled size text := by
  have same : missing size (front ++ text) = missing size text := by
    rw [missing,List.length_append,Nat.add_mod,whole,Nat.zero_add,Nat.mod_mod]
    rfl
  rw [filled,filled,same,List.append_assoc]

end NPSync.Library.BitText
