import Mathlib
import NPSync.Library.Ledger

/-! Conversations of a program: the one it has with a given server, what every one
of them can cost, and what each of their calls is. -/
namespace NPSync.Library.Program
variable {Op : Type} {Res : Op → Type} {A S : Type}

/-- The calls of an execution, with their answers. -/
def trace (exec : S → (op : Op) → Res op × S) : Program Op Res A → S → List (Event Op Res)
  | .done _,_ => []
  | .call op next,state => ⟨op,(exec state op).1⟩::(next (exec state op).1).trace exec (exec state op).2

@[simp] theorem trace_done (exec : S → (op : Op) → Res op × S) (value : A) (state : S) :
    (Program.done value : Program Op Res A).trace exec state = [] := rfl

@[simp] theorem trace_call (exec : S → (op : Op) → Res op × S) (op : Op) (next : Res op → Program Op Res A) (state : S) :
    (Program.call op next).trace exec state =
      ⟨op,(exec state op).1⟩::(next (exec state op).1).trace exec (exec state op).2 := rfl

/-- An execution is a conversation. -/
theorem yields_trace (exec : S → (op : Op) → Res op × S) (program : Program Op Res A) (state : S) :
    program.Yields (program.trace exec state) (program.run exec state).1 := by
  induction program generalizing state with
  | done value => exact ⟨rfl,rfl⟩
  | call op next ih => exact ⟨(exec state op).1,_,rfl,ih _ _⟩

theorem Only.yields {kind : Op → Prop} {program : Program Op Res A} (only : program.Only kind) {log : List (Event Op Res)}
    {value : A} (yields : program.Yields log value) : ∀ event ∈ log, kind event.op := by
  induction program generalizing log with
  | done other =>
    obtain ⟨rfl,-⟩ := yields
    exact nofun
  | call op next ih =>
    obtain ⟨answer,rest,rfl,after⟩ := yields
    intro event member
    rcases List.mem_cons.mp member with rfl | later
    · exact only.1
    · exact ih answer (only.2 answer) after event later

variable (cost : Event Op Res → Nat)

/-- No conversation of the program costs more than the budget. -/
def Spends (program : Program Op Res A) (budget : Nat) : Prop :=
  ∀ log value, program.Yields log value → (log.map cost).sum ≤ budget

theorem Spends.done (value : A) (budget : Nat) : Spends cost (.done value : Program Op Res A) budget := by
  rintro log other ⟨rfl,-⟩
  exact Nat.zero_le budget

variable {cost}

/-- A call pays for itself, whatever the answer, and leaves the rest of the budget. -/
theorem Spends.call {op : Op} {next : Res op → Program Op Res A} {price budget : Nat}
    (paid : ∀ answer, cost ⟨op,answer⟩ ≤ price) (rest : ∀ answer, Spends cost (next answer) budget) :
    Spends cost (.call op next) (price + budget) := by
  rintro log value ⟨answer,others,rfl,after⟩
  rw [List.map_cons,List.sum_cons]
  exact Nat.add_le_add (paid answer) (rest answer others value after)

theorem Spends.free {op : Op} {next : Res op → Program Op Res A} {budget : Nat} (free : ∀ answer, cost ⟨op,answer⟩ = 0)
    (rest : ∀ answer, Spends cost (next answer) budget) : Spends cost (.call op next) budget := by
  have whole := Spends.call (fun answer => Nat.le_of_eq (free answer)) rest
  rwa [Nat.zero_add] at whole

theorem Spends.mono {program : Program Op Res A} {small large : Nat} (spends : Spends cost program small)
    (within : small ≤ large) : Spends cost program large :=
  fun log value yields => Nat.le_trans (spends log value yields) within

end NPSync.Library.Program
