import Mathlib.Data.List.Basic

/-! Edit scripts between two lists, and longest common subsequences. A script is
optimal when it keeps as many lines as any common subsequence has. -/
namespace NPSync.Library

variable {α : Type}

inductive EditOp (α : Type) where
  | keep (line : α)
  | delete (line : α)
  | insert (line : α)

abbrev EditScript (α : Type) := List (EditOp α)

namespace EditOp

def before : EditOp α → List α
  | .keep line | .delete line => [line]
  | .insert _ => []

def after : EditOp α → List α
  | .keep line | .insert line => [line]
  | .delete _ => []

def kept : EditOp α → List α
  | .keep line => [line]
  | .delete _ | .insert _ => []

def Changes (op : EditOp α) : Prop := op.kept = []

end EditOp

namespace EditScript

def before (script : EditScript α) : List α := script.flatMap EditOp.before

def after (script : EditScript α) : List α := script.flatMap EditOp.after

def kept (script : EditScript α) : List α := script.flatMap EditOp.kept

/-- The script that changes nothing. -/
def keeps (lines : List α) : EditScript α := lines.map EditOp.keep

/-- No common subsequence is longer than what the script keeps. -/
def Optimal (script : EditScript α) : Prop :=
  ∀ common : List α, common.Sublist (before script) → common.Sublist (after script) →
    common.length ≤ (kept script).length

@[simp] theorem before_nil : before ([] : EditScript α) = [] := rfl

@[simp] theorem after_nil : after ([] : EditScript α) = [] := rfl

@[simp] theorem kept_nil : kept ([] : EditScript α) = [] := rfl

@[simp] theorem before_cons (op : EditOp α) (script : EditScript α) : before (op::script) = op.before ++ before script :=
  List.flatMap_cons

@[simp] theorem after_cons (op : EditOp α) (script : EditScript α) : after (op::script) = op.after ++ after script :=
  List.flatMap_cons

@[simp] theorem kept_cons (op : EditOp α) (script : EditScript α) : kept (op::script) = op.kept ++ kept script :=
  List.flatMap_cons

@[simp] theorem before_append (first second : EditScript α) : before (first ++ second) = before first ++ before second :=
  List.flatMap_append

@[simp] theorem after_append (first second : EditScript α) : after (first ++ second) = after first ++ after second :=
  List.flatMap_append

@[simp] theorem kept_append (first second : EditScript α) : kept (first ++ second) = kept first ++ kept second :=
  List.flatMap_append

theorem keeps_append (first second : List α) : keeps (first ++ second) = keeps first ++ keeps second := List.map_append

@[simp] theorem before_keeps (lines : List α) : before (keeps lines) = lines := by
  induction lines with
  | nil => rfl
  | cons line rest ih =>
    show line::before (keeps rest) = line::rest
    rw [ih]

@[simp] theorem after_keeps (lines : List α) : after (keeps lines) = lines := by
  induction lines with
  | nil => rfl
  | cons line rest ih =>
    show line::after (keeps rest) = line::rest
    rw [ih]

@[simp] theorem kept_keeps (lines : List α) : kept (keeps lines) = lines := by
  induction lines with
  | nil => rfl
  | cons line rest ih =>
    show line::kept (keeps rest) = line::rest
    rw [ih]

theorem kept_sublist_before (script : EditScript α) : (kept script).Sublist (before script) := by
  induction script with
  | nil => exact List.Sublist.refl _
  | cons op rest ih =>
    rw [kept_cons,before_cons]
    apply List.Sublist.append _ ih
    cases op <;> simp [EditOp.kept,EditOp.before]

theorem kept_sublist_after (script : EditScript α) : (kept script).Sublist (after script) := by
  induction script with
  | nil => exact List.Sublist.refl _
  | cons op rest ih =>
    rw [kept_cons,after_cons]
    apply List.Sublist.append _ ih
    cases op <;> simp [EditOp.kept,EditOp.after]

/-- A script in which nothing changes is made of its own lines. -/
theorem eq_keeps_of_kept (script : EditScript α) (all : ∀ op ∈ script, ¬op.Changes) : script = keeps (before script) := by
  induction script with
  | nil => rfl
  | cons op rest ih =>
    have tail := ih (fun other member => all other (List.mem_cons_of_mem _ member))
    cases op with
    | keep line =>
      show EditOp.keep line::rest = EditOp.keep line::keeps (before rest)
      rw [← tail]
    | delete line => exact absurd rfl (all _ List.mem_cons_self)
    | insert line => exact absurd rfl (all _ List.mem_cons_self)

theorem Optimal.of_append {first second : EditScript α} (optimal : Optimal (first ++ second)) :
    Optimal first ∧ Optimal second := by
  constructor
  · intro common inBefore inAfter
    have whole := optimal (common ++ kept second)
      (by rw [before_append]; exact inBefore.append (kept_sublist_before second))
      (by rw [after_append]; exact inAfter.append (kept_sublist_after second))
    rw [kept_append,List.length_append,List.length_append] at whole
    omega
  · intro common inBefore inAfter
    have whole := optimal (kept first ++ common)
      (by rw [before_append]; exact (kept_sublist_before first).append inBefore)
      (by rw [after_append]; exact (kept_sublist_after first).append inAfter)
    rw [kept_append,List.length_append,List.length_append] at whole
    omega

/-- A script that keeps as many lines as both texts have changes nothing. -/
theorem all_kept (script : EditScript α) (full : (before script).length ≤ (kept script).length)
    (fits : (after script).length ≤ (kept script).length) : ∀ op ∈ script, ¬op.Changes := by
  induction script with
  | nil => exact fun op member => absurd member List.not_mem_nil
  | cons op rest ih =>
    have least := (kept_sublist_before rest).length_le
    have most := (kept_sublist_after rest).length_le
    rw [before_cons,kept_cons,List.length_append,List.length_append] at full
    rw [after_cons,kept_cons,List.length_append,List.length_append] at fits
    cases op with
    | keep line =>
      simp only [EditOp.before,EditOp.after,EditOp.kept,List.length_singleton] at full fits
      intro other member
      rcases List.mem_cons.mp member with rfl | later
      · exact List.cons_ne_nil _ _
      · exact ih (by omega) (by omega) other later
    | delete line =>
      simp only [EditOp.before,EditOp.kept,List.length_singleton,List.length_nil] at full
      omega
    | insert line =>
      simp only [EditOp.after,EditOp.kept,List.length_singleton,List.length_nil] at fits
      omega

/-- An optimal script between equal texts changes nothing. -/
theorem Optimal.unchanged {script : EditScript α} (optimal : Optimal script) (same : before script = after script) :
    script = keeps (before script) := by
  have full := optimal (before script) (List.Sublist.refl _) (same ▸ List.Sublist.refl _)
  exact eq_keeps_of_kept script (all_kept script full (same ▸ full))

/-- A line that ends both texts and occurs nowhere else in them is kept. -/
theorem Optimal.keeps_last {script : EditScript α} (optimal : Optimal script) {line : α} {front back : List α}
    (ends : before script = front ++ [line]) (ends' : after script = back ++ [line]) (once : line ∉ front) (once' : line ∉ back) :
    line ∈ kept script := by
  by_contra absent
  have shorter : ∀ {text : List α}, line ∉ text → (kept script).Sublist (text ++ [line]) → (kept script).Sublist text := by
    intro text _ part
    obtain ⟨left,right,split,inFront,inLast⟩ := List.sublist_append_iff.mp part
    rcases List.sublist_singleton.mp inLast with rfl | rfl
    · rwa [split,List.append_nil]
    · exact absurd (split ▸ List.mem_append_right _ List.mem_cons_self) absent
  have long := optimal (kept script ++ [line])
    (by rw [ends]; exact (shorter once (ends ▸ kept_sublist_before script)).append_right _)
    (by rw [ends']; exact (shorter once' (ends' ▸ kept_sublist_after script)).append_right _)
  rw [List.length_append,List.length_singleton] at long
  omega

end EditScript

/-- `n` is the length of a longest common subsequence. -/
structure IsLcs (n : Nat) (source target : List α) : Prop where
  reached : ∃ common : List α, common.Sublist source ∧ common.Sublist target ∧ common.length = n
  longest : ∀ common : List α, common.Sublist source → common.Sublist target → common.length ≤ n

namespace IsLcs

theorem nil_left (target : List α) : IsLcs 0 [] target :=
  ⟨⟨[],List.Sublist.refl _,List.nil_sublist _,rfl⟩,fun common inside _ => by rw [List.sublist_nil.mp inside]; exact Nat.le_refl _⟩

theorem nil_right (source : List α) : IsLcs 0 source [] :=
  ⟨⟨[],List.nil_sublist _,List.Sublist.refl _,rfl⟩,fun common _ inside => by rw [List.sublist_nil.mp inside]; exact Nat.le_refl _⟩

theorem cons_same {n : Nat} {source target : List α} (lcs : IsLcs n source target) (line : α) :
    IsLcs (n + 1) (line::source) (line::target) := by
  obtain ⟨⟨common,inSource,inTarget,size⟩,longest⟩ := lcs
  refine ⟨⟨line::common,inSource.cons_cons line,inTarget.cons_cons line,by rw [List.length_cons,size]⟩,?_⟩
  intro other left right
  cases other with
  | nil => exact Nat.zero_le _
  | cons first rest =>
    have shorter := longest rest (List.Sublist.tail left) (List.Sublist.tail right)
    rw [List.length_cons]
    omega

theorem cons_differ {p q : Nat} {line other : α} {source target : List α} (differ : line ≠ other)
    (dropped : IsLcs p source (other::target)) (added : IsLcs q (line::source) target) :
    IsLcs (max p q) (line::source) (other::target) := by
  constructor
  · rcases Nat.le_total q p with less | more
    · obtain ⟨common,inSource,inTarget,size⟩ := dropped.reached
      exact ⟨common,inSource.cons line,inTarget,by omega⟩
    · obtain ⟨common,inSource,inTarget,size⟩ := added.reached
      exact ⟨common,inSource,inTarget.cons other,by omega⟩
  · intro common inSource inTarget
    -- The first line of a common subsequence cannot come from both heads.
    rcases List.sublist_cons_iff.mp inSource with rest | ⟨tail,rfl,-⟩
    · exact Nat.le_trans (dropped.longest common rest inTarget) (Nat.le_max_left _ _)
    · rcases List.sublist_cons_iff.mp inTarget with rest | ⟨tail',same,-⟩
      · exact Nat.le_trans (added.longest _ inSource rest) (Nat.le_max_right _ _)
      · exact absurd (List.cons.inj same).1 differ

end IsLcs

end NPSync.Library
