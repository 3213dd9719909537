import Mathlib.Data.List.Forall2
import Mathlib.Data.List.Sort
import NPSync.Library.Table

/-! Two tables that hold related rows in the same order, under a renaming of the keys
that tells the keys in use apart. -/
namespace NPSync.Library

theorem rel_none {X Y : Type} {same : X → Y → Prop} {b : Option Y} (rel : Option.Rel same none b) : b = none := by
  cases rel
  rfl

theorem rel_some {X Y : Type} {same : X → Y → Prop} {a : X} {b : Option Y} (rel : Option.Rel same (some a) b) :
    ∃ y, b = some y ∧ same a y := by
  cases rel with
  | some one => exact ⟨_,rfl,one⟩

theorem some_rel {X Y : Type} {same : X → Y → Prop} {a : Option X} {y : Y} (rel : Option.Rel same a (some y)) :
    ∃ x, a = some x ∧ same x y := by
  cases rel with
  | some one => exact ⟨_,rfl,one⟩

/-- Sorting related lists by orders that agree on them. -/
theorem forall₂_insertionSort {X Y : Type} {related : X → Y → Prop} {r : X → X → Prop} {s : Y → Y → Prop}
    [DecidableRel r] [DecidableRel s] (agrees : ∀ a b c d, related a c → related b d → (r a b ↔ s c d))
    {xs : List X} {ys : List Y} (rel : List.Forall₂ related xs ys) :
    List.Forall₂ related (xs.insertionSort r) (ys.insertionSort s) := by
  have insert : ∀ {a c} {xs : List X} {ys : List Y}, related a c → List.Forall₂ related xs ys →
      List.Forall₂ related (xs.orderedInsert r a) (ys.orderedInsert s c) := by
    intro a c xs ys one rel
    induction rel with
    | nil => exact .cons one .nil
    | @cons b d xs ys other rest ih =>
      rw [List.orderedInsert_cons,List.orderedInsert_cons]
      by_cases before : r a b
      · rw [if_pos before,if_pos ((agrees a b c d one other).mp before)]
        exact .cons one (.cons other rest)
      · rw [if_neg before,if_neg fun there => before ((agrees a b c d one other).mpr there)]
        exact .cons other ih
  induction rel with
  | nil => exact .nil
  | cons one rest ih =>
    rw [List.insertionSort_cons,List.insertionSort_cons]
    exact insert one ih

namespace Table
variable {K K' V V' : Type} [DecidableEq K] [DecidableEq K'] {rename : K' → K} {related : K' → V → V' → Prop}

def SameRows (rename : K' → K) (related : K' → V → V' → Prop) (rows : List (K × V)) (rows' : List (K' × V')) : Prop :=
  List.Forall₂ (fun x y => x.1 = rename y.1 ∧ related y.1 x.2 y.2) rows rows'

def Related (rename : K' → K) (related : K' → V → V' → Prop) (table : Table K V) (table' : Table K' V') : Prop :=
  SameRows rename related table.rows table'.rows

section
variable {key : K'} (apart : ∀ other value value', related other value value' → rename other = rename key → other = key)
include apart

private theorem find_related {rows : List (K × V)} {rows' : List (K' × V')} (rel : SameRows rename related rows rows') :
    Option.Rel (related key) (find (rename key) rows) (find key rows') := by
  induction rel with
  | nil => exact .none
  | @cons x y xs ys one rest ih =>
    by_cases here : y.1 = key
    · have there : x.1 = rename key := one.1.trans (congrArg rename here)
      rw [find,find,if_pos there,if_pos here]
      exact .some (here ▸ one.2)
    · have elsewhere : x.1 ≠ rename key := fun there => here (apart y.1 x.2 y.2 one.2 (one.1.symm.trans there))
      rw [find,find,if_neg elsewhere,if_neg here]
      exact ih

private theorem replace_related {rows : List (K × V)} {rows' : List (K' × V')} (rel : SameRows rename related rows rows')
    {value : V} {value' : V'} (new : related key value value') :
    SameRows rename related (replace (rename key) value rows) (replace key value' rows') := by
  induction rel with
  | nil => exact .cons ⟨rfl,new⟩ .nil
  | @cons x y xs ys one rest ih =>
    by_cases here : y.1 = key
    · have there : x.1 = rename key := one.1.trans (congrArg rename here)
      rw [replace,replace,if_pos there,if_pos here]
      exact .cons ⟨rfl,new⟩ rest
    · have elsewhere : x.1 ≠ rename key := fun there => here (apart y.1 x.2 y.2 one.2 (one.1.symm.trans there))
      rw [replace,replace,if_neg elsewhere,if_neg here]
      exact .cons one ih

variable (key)

theorem Related.get {table : Table K V} {table' : Table K' V'} (rel : Related rename related table table') :
    Option.Rel (related key) (table.get (rename key)) (table'.get key) :=
  find_related apart rel

theorem Related.upsert {table : Table K V} {table' : Table K' V'} (rel : Related rename related table table')
    {value : V} {value' : V'} (new : related key value value') :
    Related rename related (table.upsert (rename key) value) (table'.upsert key value') :=
  replace_related apart rel new

end

omit [DecidableEq K] [DecidableEq K'] in
/-- The values in their order. -/
theorem Related.values {table : Table K V} {table' : Table K' V'} (rel : Related rename related table table') :
    List.Forall₂ (fun value value' => ∃ key, related key value value') (table.rows.map Prod.snd) (table'.rows.map Prod.snd) := by
  rw [List.forall₂_map_left_iff,List.forall₂_map_right_iff]
  exact rel.imp fun x y one => ⟨y.1,one.2⟩

end Table
end NPSync.Library
