import Mathlib.Data.Nat.Digits.Defs
import Mathlib.Data.List.Basic
import Mathlib.Tactic.IntervalCases

/-! Byte strings. `std::string` and Go's `string` are both sequences of bytes,
so every text of the program is a list of bytes here; `lit` writes an ASCII
literal. -/
namespace NPSync

abbrev Bytes := List UInt8
abbrev Str := List UInt8

def lit (text : String) : Str := text.toList.map (fun c => UInt8.ofNat c.toNat)

/-- `std::to_string` of a non-negative number. -/
def decimalNat (n : Nat) : Str :=
  if n = 0 then lit "0" else (Nat.digits 10 n).reverse.map (fun d => UInt8.ofNat (48 + d))

/-- `std::to_string` of an `int64_t`. -/
def decimal (n : Int) : Str :=
  if n < 0 then lit "-" ++ decimalNat n.natAbs else decimalNat n.natAbs

def hexDigit (n : Nat) : UInt8 := (lit "0123456789abcdef").getD n 0

def hexByte (b : UInt8) : Str := [hexDigit (b.toNat / 16),hexDigit (b.toNat % 16)]

def hex (data : Bytes) : Str := data.flatMap hexByte

def isLowerHex (c : UInt8) : Bool := (48 ≤ c && c ≤ 57) || (97 ≤ c && c ≤ 102)

/-- `std::tolower` in the C locale. -/
def asciiLower (c : UInt8) : UInt8 := if 65 ≤ c && c ≤ 90 then c + 32 else c

/-- Signed 64-bit wrap-around. -/
def wrap64 (n : Int) : Int := n.bmod (2^64)

/-- What holds of every number below 256 holds of every byte. -/
theorem forall_byte {P : UInt8 → Prop} (each : ∀ n < 256, P (UInt8.ofNat n)) (b : UInt8) : P b := by
  have one := each b.toNat b.toNat_lt
  rwa [UInt8.ofNat_toNat] at one

theorem mem_intercalate {sep : Str} {parts : List Str} {c : UInt8} (member : c ∈ List.intercalate sep parts) :
    c ∈ sep ∨ ∃ part ∈ parts, c ∈ part := by
  induction parts with
  | nil => contradiction
  | cons first rest ih =>
    cases rest with
    | nil => exact .inr ⟨first,List.mem_cons_self,by simpa using member⟩
    | cons second rest =>
      rw [List.intercalate_cons_cons] at member
      rcases List.mem_append.mp member with front | back
      · rcases List.mem_append.mp front with here | between
        · exact .inr ⟨first,List.mem_cons_self,here⟩
        · exact .inl between
      · rcases ih back with between | ⟨part,later,here⟩
        · exact .inl between
        · exact .inr ⟨part,List.mem_cons_of_mem _ later,here⟩

theorem decimalNat_digits (n : Nat) : Nat.ofDigits 10 ((decimalNat n).reverse.map (fun c => c.toNat - 48)) = n := by
  unfold decimalNat
  split
  · next zero =>
    rw [zero]
    rfl
  · have digits : ∀ d ∈ Nat.digits 10 n, (UInt8.ofNat (48 + d)).toNat - 48 = d := by
      intro d member
      have small : d < 10 := Nat.digits_lt_base (by decide) member
      rw [UInt8.toNat_ofNat']
      omega
    rw [← List.map_reverse,List.reverse_reverse,List.map_map]
    have same : (Nat.digits 10 n).map ((fun c => c.toNat - 48) ∘ fun d => UInt8.ofNat (48 + d)) = Nat.digits 10 n :=
      (List.map_congr_left digits).trans (List.map_id _)
    rw [same,Nat.ofDigits_digits]

theorem decimalNat_digit (n : Nat) : ∀ c ∈ decimalNat n, (48 ≤ c && c ≤ 57) = true := by
  intro c member
  unfold decimalNat at member
  split at member
  · rw [List.mem_singleton.mp member]
    rfl
  · obtain ⟨d,inside,rfl⟩ := List.mem_map.mp member
    have small : d < 10 := Nat.digits_lt_base (by decide) (List.mem_reverse.mp inside)
    interval_cases d <;> rfl

theorem decimalNat_inj {a b : Nat} (same : decimalNat a = decimalNat b) : a = b := by
  rw [← decimalNat_digits a,same,decimalNat_digits]

/-- Two numbers that are not negative have different decimals. -/
theorem decimal_inj {a b : Int} (first : 0 ≤ a) (second : 0 ≤ b) (same : decimal a = decimal b) : a = b := by
  unfold decimal at same
  rw [if_neg (Int.not_lt.mpr first),if_neg (Int.not_lt.mpr second)] at same
  have sizes := decimalNat_inj same
  omega

theorem hexDigit_isLowerHex (n : Nat) (bound : n < 16) : isLowerHex (hexDigit n) = true := by
  interval_cases n <;> decide

theorem hex_length (data : Bytes) : (hex data).length = 2 * data.length := by
  induction data with
  | nil => rfl
  | cons b rest ih =>
    simp only [hex,List.flatMap_cons,hexByte,List.length_append,List.length_cons,List.length_nil] at ih ⊢
    omega

theorem hex_isLowerHex (data : Bytes) : (hex data).all isLowerHex = true := by
  rw [List.all_eq_true]
  intro c member
  obtain ⟨b,-,inside⟩ := List.mem_flatMap.mp member
  have bound := b.toNat_lt
  rcases List.mem_cons.mp inside with rfl | inside
  · exact hexDigit_isLowerHex _ (by omega)
  · rw [List.mem_singleton.mp inside]
    exact hexDigit_isLowerHex _ (by omega)

end NPSync
