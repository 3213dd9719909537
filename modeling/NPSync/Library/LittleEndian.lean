import Mathlib.Data.Nat.Digits.Lemmas
import Mathlib.Data.List.Basic

/-! Numbers and 16-bit units as little-endian bytes, and reads inside a buffer. -/
namespace NPSync.Library.LittleEndian

def readLE (bytes : List UInt8) : Nat := Nat.ofDigits 256 (bytes.map UInt8.toNat)

def leBytes (width value : Nat) : List UInt8 := (Nat.digitsAppend 256 width value).map UInt8.ofNat

theorem leBytes_length {width value : Nat} (fits : value < 256^width) : (leBytes width value).length = width := by
  rw [leBytes,List.length_map,Nat.length_digitsAppend (by decide) width fits]

theorem readLE_leBytes (width value : Nat) : readLE (leBytes width value) = value := by
  have digits : ((Nat.digitsAppend 256 width value).map UInt8.ofNat).map UInt8.toNat = Nat.digitsAppend 256 width value := by
    rw [List.map_map]
    refine (List.map_congr_left fun digit member => ?_).trans (List.map_id _)
    exact UInt8.toNat_ofNat_of_lt' (Nat.lt_of_mem_digitsAppend (by decide) width digit member)
  rw [readLE,leBytes,digits,Nat.digitsAppend,Nat.ofDigits_append_replicate_zero,Nat.ofDigits_digits]

/-- The 16-bit units of an even number of bytes; an odd byte is left out. -/
def units : List UInt8 → List UInt16
  | low::high::rest => UInt16.ofNat (low.toNat + 256 * high.toNat)::units rest
  | _ => []

def unitBytes (text : List UInt16) : List UInt8 := text.flatMap fun unit => [UInt8.ofNat (unit.toNat % 256),UInt8.ofNat (unit.toNat / 256)]

theorem unitBytes_length (text : List UInt16) : (unitBytes text).length = 2 * text.length := by
  induction text with
  | nil => rfl
  | cons unit rest ih =>
    rw [unitBytes,List.flatMap_cons,List.length_append,← unitBytes,ih,List.length_cons]
    simp
    omega

theorem units_unitBytes (text : List UInt16) : units (unitBytes text) = text := by
  induction text with
  | nil => rfl
  | cons unit rest ih =>
    have low : (UInt8.ofNat (unit.toNat % 256)).toNat = unit.toNat % 256 := UInt8.toNat_ofNat_of_lt' (Nat.mod_lt _ (by decide))
    have high : (UInt8.ofNat (unit.toNat / 256)).toNat = unit.toNat / 256 := by
      apply UInt8.toNat_ofNat_of_lt'
      have bound : unit.toNat < 65536 := unit.toNat_lt
      exact Nat.div_lt_of_lt_mul (by simpa [UInt8.size] using bound)
    have whole : UInt16.ofNat (unit.toNat % 256 + 256 * (unit.toNat / 256)) = unit := by
      rw [Nat.mod_add_div]
      exact UInt16.ofNat_toNat
    change UInt16.ofNat ((UInt8.ofNat (unit.toNat % 256)).toNat + 256 * (UInt8.ofNat (unit.toNat / 256)).toNat)::units (unitBytes rest) = _
    rw [low,high,whole,ih]

/-- A read; `none` leaves the buffer. -/
def readAt (buf : List UInt8) (offset width : Nat) : Option (List UInt8) :=
  if offset + width ≤ buf.length then some ((buf.drop offset).take width) else none

theorem readAt_append (front middle back : List UInt8) : readAt (front ++ (middle ++ back)) front.length middle.length = some middle := by
  rw [readAt,if_pos (by simp),List.drop_left,List.take_left]

end NPSync.Library.LittleEndian
