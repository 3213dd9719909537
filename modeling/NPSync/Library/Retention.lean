import Mathlib.Data.List.DropRight
import Mathlib.Data.List.Nodup
import Mathlib.Data.List.Sort

/-! Keeping the newest of all that came. What is held is an end of the whole and has
at least the newest ones; cut to their number it is exactly these. -/
namespace NPSync.Library.Retention

section
variable {A : Type}

structure Retains (n : Nat) (held all : List A) : Prop where
  newest : held <:+ all
  enough : min n all.length ≤ held.length

theorem Retains.refl (n : Nat) (all : List A) : Retains n all all := ⟨List.suffix_refl all,Nat.min_le_right _ _⟩

variable {n : Nat} {held all : List A}

theorem Retains.snoc (retains : Retains n held all) (x : A) : Retains n (held ++ [x]) (all ++ [x]) := by
  obtain ⟨older,rfl⟩ := retains.newest
  have enough := retains.enough
  constructor
  · exact ⟨older,(List.append_assoc older held [x]).symm⟩
  · simp only [List.length_append,List.length_singleton] at enough ⊢
    omega

/-- A short end is the newest ones. -/
theorem Retains.exact (retains : Retains n held all) (few : held.length ≤ n) : held = all.rtake n := by
  obtain ⟨older,rfl⟩ := retains.newest
  have enough := retains.enough
  rw [List.length_append] at enough
  rw [List.rtake,List.length_append]
  by_cases full : held.length = n
  · have cut : older.length + held.length - n = older.length := by omega
    rw [cut,List.drop_left]
  · have none : older.length = 0 := by omega
    rw [List.length_eq_zero_iff.mp none]
    have cut : ([] : List A).length + held.length - n = 0 := by
      simp only [List.length_nil]
      omega
    rw [cut]
    rfl

/-- Of a long end the newest ones are cut off. -/
theorem Retains.cut (retains : Retains n held all) (many : n ≤ held.length) : Retains n (held.rtake n) all := by
  constructor
  · exact (List.drop_suffix _ _).trans retains.newest
  · rw [List.rtake,List.length_drop]
    omega

end

section
variable {K V : Type} [BEq K] [LawfulBEq K]

/-- Without the first keys the rest of the rows stays. -/
theorem filter_rest {rows : List (K × V)} {n : Nat} (apart : ∀ key ∈ (rows.map Prod.fst).take n, key ∉ (rows.map Prod.fst).drop n) :
    rows.filter (fun row => !((rows.map Prod.fst).take n).contains row.1) = rows.drop n := by
  have halves : rows.take n ++ rows.drop n = rows := List.take_append_drop n rows
  have front : (rows.take n).filter (fun row => !((rows.map Prod.fst).take n).contains row.1) = [] := by
    apply List.filter_eq_nil_iff.mpr
    intro row member
    have key : row.1 ∈ (rows.map Prod.fst).take n := by
      rw [← List.map_take]
      exact List.mem_map_of_mem member
    simp [key]
  have back : (rows.drop n).filter (fun row => !((rows.map Prod.fst).take n).contains row.1) = rows.drop n := by
    apply List.filter_eq_self.mpr
    intro row member
    have other : row.1 ∉ (rows.map Prod.fst).take n := by
      intro early
      have late : row.1 ∈ (rows.map Prod.fst).drop n := by
        rw [← List.map_drop]
        exact List.mem_map_of_mem member
      exact apart row.1 early late
    simp [other]
  calc rows.filter (fun row => !((rows.map Prod.fst).take n).contains row.1)
      = (rows.take n ++ rows.drop n).filter (fun row => !((rows.map Prod.fst).take n).contains row.1) := by rw [halves]
    _ = rows.drop n := by rw [List.filter_append,front,back,List.nil_append]

end
section
variable {A : Type} (le : A → A → Prop) [DecidableRel le] [Std.Total le] [IsTrans A le] [Std.Antisymm le]

omit [IsTrans A le] in
/-- Among the first, all but `n`, are those with more than `n` that are not before them,
themselves counted. -/
theorem mem_first_iff {sorted : List A} (ascends : sorted.Pairwise le) (n : Nat) (x : A) :
    x ∈ sorted.take (sorted.length - n) ↔ x ∈ sorted ∧ n < (sorted.filter fun y => le x y).length := by
  let k := sorted.length - n
  have halves : sorted.take k ++ sorted.drop k = sorted := List.take_append_drop k sorted
  have apart := List.pairwise_append.mp (halves.symm ▸ ascends)
  have count : (sorted.filter fun y => le x y).length =
      ((sorted.take k).filter fun y => le x y).length + ((sorted.drop k).filter fun y => le x y).length := by
    rw [← List.length_append,← List.filter_append,halves]
  have reflexive : le x x := (Std.Total.total x x).elim id id
  constructor
  · intro first
    refine ⟨List.mem_of_mem_take first,?_⟩
    have later : (sorted.drop k).filter (fun y => le x y) = sorted.drop k := by
      rw [List.filter_eq_self]
      exact fun y last => decide_eq_true (apart.2.2 x first y last)
    have itself : 0 < ((sorted.take k).filter fun y => le x y).length :=
      List.length_pos_of_mem (List.mem_filter.mpr ⟨first,decide_eq_true reflexive⟩)
    have some_first : 0 < k := by
      have bound := List.length_pos_of_mem first
      rw [List.length_take] at bound
      omega
    rw [count,later,List.length_drop]
    omega
  · rintro ⟨member,many⟩
    by_contra last
    have earlier : (sorted.take k).filter (fun y => le x y) = [] := by
      rw [List.filter_eq_nil_iff]
      intro y first after
      rcases List.mem_append.mp (halves.symm ▸ member) with front | back
      · exact last front
      · exact last (Std.Antisymm.antisymm x y (of_decide_eq_true after) (apart.2.2 y first x back) ▸ first)
    have short : ((sorted.drop k).filter fun y => le x y).length ≤ n := by
      refine Nat.le_trans (List.length_filter_le _ _) ?_
      rw [List.length_drop]
      omega
    rw [count,earlier,List.length_nil,Nat.zero_add] at many
    exact Nat.not_lt_of_le short many

/-- Sorting leaves the count. -/
theorem mem_oldest_iff (names : List A) (n : Nat) (x : A) :
    x ∈ (names.insertionSort le).take ((names.insertionSort le).length - n) ↔
      x ∈ names ∧ n < (names.filter fun y => le x y).length := by
  have count := ((List.perm_insertionSort le names).filter fun y => le x y).length_eq
  rw [mem_first_iff le (List.pairwise_insertionSort le names),List.mem_insertionSort,count]

/-- Names that all come before the others are the first ones of any order that has them so. -/
theorem mem_front_iff {front back : List A} (before : ∀ x ∈ front, ∀ y ∈ back, le x y ∧ ¬le y x) (x : A) :
    x ∈ ((front ++ back).insertionSort le).take (((front ++ back).insertionSort le).length - back.length) ↔ x ∈ front := by
  rw [mem_oldest_iff,List.filter_append,List.length_append]
  have reflexive : le x x := (Std.Total.total x x).elim id id
  constructor
  · rintro ⟨member,many⟩
    refine (List.mem_append.mp member).resolve_right fun last => ?_
    have none_before : front.filter (fun y => le x y) = [] := by
      rw [List.filter_eq_nil_iff]
      intro y first after
      exact (before y first x last).2 (of_decide_eq_true after)
    have some_after := List.length_filter_le (fun y => decide (le x y)) back
    rw [none_before,List.length_nil] at many
    omega
  · intro first
    refine ⟨List.mem_append_left _ first,?_⟩
    have all_after : back.filter (fun y => le x y) = back := by
      rw [List.filter_eq_self]
      exact fun y last => decide_eq_true (before x first y last).1
    have itself : 0 < (front.filter fun y => le x y).length :=
      List.length_pos_of_mem (List.mem_filter.mpr ⟨first,decide_eq_true reflexive⟩)
    rw [all_after]
    omega

end
end NPSync.Library.Retention
