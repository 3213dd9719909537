import NPSync.DiffLines

/-! What the edits of a line diff do to the text they were made for. -/
namespace NPSync.Merge
open Library Library.EditScript

/-- Every edit replaces its lines; the text is written from line `pos` on. -/
def applyEdits (source : List Str) : (pos : Nat) → List Edit → List Str
  | pos,[] => source.drop pos
  | pos,e::rest => slice source pos e.aStart ++ e.lines ++ applyEdits source e.aEnd rest

/-- The lines from `pos` on that no edit replaces. -/
def keptLines (source : List Str) : (pos : Nat) → List Edit → List Str
  | pos,[] => source.drop pos
  | pos,e::rest => slice source pos e.aStart ++ keptLines source e.aEnd rest

theorem slice_eq (lines : List Str) (a b : Nat) : slice lines a b = (lines.drop a).take (b - a) := List.drop_take

/-- The slice over a script's own lines. -/
theorem slice_before {base front back : List Str} {pos : Nat} (there : base.drop pos = front ++ back) :
    slice base pos (pos + front.length) = front ∧ base.drop (pos + front.length) = back := by
  constructor
  · rw [slice_eq,there,Nat.add_sub_cancel_left,List.take_left]
  · rw [← List.drop_drop,there,List.drop_left]

namespace Groups

/-- Each edit ends before the next one starts, with a kept line between them. -/
theorem apart {pos : Nat} {script : EditScript Str} {edits : List Edit} (groups : Groups pos script edits) :
    edits.Pairwise fun first second => first.aEnd < second.aStart := by
  induction groups with
  | kept => exact List.Pairwise.nil
  | changed pos lines change rest edits real changes apart later ih => exact List.pairwise_cons.mpr ⟨apart,ih⟩

theorem nonempty {pos : Nat} {script : EditScript Str} {edits : List Edit} (groups : Groups pos script edits) :
    ∀ e ∈ edits, e.aStart < e.aEnd ∨ e.lines ≠ [] := by
  induction groups with
  | kept => exact fun e member => absurd member List.not_mem_nil
  | changed pos lines change rest edits real changes apart later ih =>
    intro e member
    rcases List.mem_cons.mp member with rfl | others
    · obtain ⟨op,ops,rfl⟩ := List.exists_cons_of_ne_nil real
      cases op with
      | keep line => exact absurd (changes _ List.mem_cons_self) (List.cons_ne_nil _ _)
      | delete line =>
        left
        simp only [before_cons,List.length_append,EditOp.before,List.length_singleton]
        omega
      | insert line => exact .inr (List.cons_ne_nil _ _)
    · exact ih e others

/-- The edits write the script's target, and leave standing what it keeps. -/
theorem applied {pos : Nat} {script : EditScript Str} {edits : List Edit} (groups : Groups pos script edits) (source : List Str)
    (there : source.drop pos = before script) :
    applyEdits source pos edits = after script ∧ keptLines source pos edits = EditScript.kept script := by
  induction groups with
  | kept pos lines =>
    rw [before_keeps] at there
    rw [applyEdits,keptLines,there,after_keeps,kept_keeps]
    exact ⟨rfl,rfl⟩
  | changed pos lines change rest edits real changes apart later ih =>
    rw [before_append,before_append,before_keeps,List.append_assoc] at there
    obtain ⟨front,behind⟩ := slice_before there
    obtain ⟨-,tail⟩ := slice_before behind
    obtain ⟨written,stands⟩ := ih tail
    have nothing : EditScript.kept change = [] := List.flatMap_eq_nil_iff.mpr changes
    rw [applyEdits,keptLines,after_append,after_append,after_keeps,kept_append,kept_append,kept_keeps,nothing,List.append_nil]
    dsimp only
    rw [front,written,stands]
    exact ⟨rfl,rfl⟩

end Groups

/-- Within the cell budget the diff is a list of edits that lie in the text in order, with a kept
line between any two and none of them empty; they turn the source into the target, and the
lines that they leave standing are as many as a longest common subsequence has. -/
theorem diffLines_minimal (source target : List Str) (fits : source.length * target.length ≤ kMaxAutoMergeCells) :
    ∃ edits, diffLines source target = some edits ∧
      (∀ e ∈ edits, e.aStart ≤ e.aEnd ∧ e.aEnd ≤ source.length) ∧
      edits.Pairwise (fun first second => first.aEnd < second.aStart) ∧
      (∀ e ∈ edits, e.aStart < e.aEnd ∨ e.lines ≠ []) ∧
      applyEdits source 0 edits = target ∧
      IsLcs (keptLines source 0 edits).length source target := by
  obtain ⟨edits,done⟩ := (diffLines_isSome_iff source target).mpr fits
  obtain ⟨script,rfl,rfl,optimal,groups⟩ := diffLines_script source target edits done
  obtain ⟨written,stands⟩ := groups.applied (before script) rfl
  have inside := groups.inside
  rw [Nat.zero_add] at inside
  refine ⟨edits,done,inside,groups.apart,groups.nonempty,written,?_⟩
  rw [stands]
  exact ⟨⟨kept script,kept_sublist_before script,kept_sublist_after script,rfl⟩,optimal⟩

/-- A line replaced, one deleted and one added at the end. -/
theorem diff_of_four_lines : ∃ edits,
    diffLines [lit "a",lit "b",lit "c",lit "d"] [lit "a",lit "B",lit "d",lit "e"] = some edits ∧
      (∀ e ∈ edits, e.aStart ≤ e.aEnd ∧ e.aEnd ≤ 4) ∧
      edits.Pairwise (fun first second => first.aEnd < second.aStart) ∧
      (∀ e ∈ edits, e.aStart < e.aEnd ∨ e.lines ≠ []) ∧
      applyEdits [lit "a",lit "b",lit "c",lit "d"] 0 edits = [lit "a",lit "B",lit "d",lit "e"] ∧
      IsLcs (keptLines [lit "a",lit "b",lit "c",lit "d"] 0 edits).length [lit "a",lit "b",lit "c",lit "d"]
        [lit "a",lit "B",lit "d",lit "e"] :=
  diffLines_minimal _ _ (by decide)

end NPSync.Merge
