import Mathlib.Data.List.Basic

/-! Texts made of pieces, with blanks around them. -/
namespace NPSync.Library
variable {α : Type} {blank : α → Prop}

/-- The text is the pieces in their order, with blanks before, between and after them. -/
inductive Spaced (blank : α → Prop) : List (List α) → List α → Prop
  | ended (blanks : List α) (only : ∀ c ∈ blanks, blank c) : Spaced blank [] blanks
  | piece (blanks : List α) (only : ∀ c ∈ blanks, blank c) (piece : List α) (pieces : List (List α)) (text : List α)
      (later : Spaced blank pieces text) : Spaced blank (piece::pieces) (blanks ++ (piece ++ text))

namespace Spaced

theorem flatten (pieces : List (List α)) : Spaced blank pieces pieces.flatten := by
  induction pieces with
  | nil => exact .ended [] nofun
  | cons piece pieces ih => exact .piece [] nofun piece pieces _ ih

theorem length_le {pieces : List (List α)} {text : List α} (spaced : Spaced blank pieces text) :
    pieces.flatten.length ≤ text.length := by
  induction spaced with
  | ended blanks only => exact Nat.zero_le _
  | piece blanks only piece pieces text later ih =>
    rw [List.flatten_cons,List.length_append,List.length_append,List.length_append]
    omega

/-- Blanks in front make no difference. -/
theorem lead {pieces : List (List α)} {text : List α} (spaced : Spaced blank pieces text) (blanks : List α)
    (only : ∀ c ∈ blanks, blank c) : Spaced blank pieces (blanks ++ text) := by
  cases spaced with
  | ended more only' => exact .ended _ fun c member => (List.mem_append.mp member).elim (only c) (only' c)
  | piece more only' piece pieces text later =>
    rw [← List.append_assoc]
    exact .piece _ (fun c member => (List.mem_append.mp member).elim (only c) (only' c)) piece pieces text later

end Spaced
end NPSync.Library
