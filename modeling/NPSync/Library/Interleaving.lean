import NPSync.Library.Run

/-! Programs that call a shared object, and every interleaving of any number of
them. A program is a tree: each node is one atomic call and branches on the
answer. A system runs one call of one program at a time, so its moves are all
schedules at the granularity of single calls. -/
namespace NPSync.Library

inductive Program (Op : Type) (Res : Op → Type) (A : Type) : Type
  | done (value : A)
  | call (op : Op) (next : Res op → Program Op Res A)

/-- One executed call with its answer. -/
structure Event (Op : Type) (Res : Op → Type) where
  op : Op
  result : Res op

namespace Program
variable {Op : Type} {Res : Op → Type} {A B S : Type}

def bind : Program Op Res A → (A → Program Op Res B) → Program Op Res B
  | .done value,rest => rest value
  | .call op next,rest => .call op (fun result => (next result).bind rest)

/-- Execution without interference. -/
def run (exec : S → (op : Op) → Res op × S) : Program Op Res A → S → A × S
  | .done value,state => (value,state)
  | .call op next,state => (next (exec state op).1).run exec (exec state op).2

@[simp] theorem run_done (exec : S → (op : Op) → Res op × S) (value : A) (state : S) :
    (Program.done value : Program Op Res A).run exec state = (value,state) := rfl

@[simp] theorem run_call (exec : S → (op : Op) → Res op × S) (op : Op)
    (next : Res op → Program Op Res A) (state : S) :
    (Program.call op next).run exec state = (next (exec state op).1).run exec (exec state op).2 := rfl

theorem run_bind (exec : S → (op : Op) → Res op × S) (program : Program Op Res A)
    (rest : A → Program Op Res B) (state : S) :
    (program.bind rest).run exec state =
      (rest (program.run exec state).1).run exec (program.run exec state).2 := by
  induction program generalizing state with
  | done value => rfl
  | call op next ih => exact ih _ _

/-- Every value the program can end with is good, whatever the answers are. -/
def Ends (good : A → Prop) : Program Op Res A → Prop
  | .done value => good value
  | .call _ next => ∀ result, (next result).Ends good

theorem Ends.run {good : A → Prop} (exec : S → (op : Op) → Res op × S) {program : Program Op Res A}
    (ends : program.Ends good) (state : S) : good (program.run exec state).1 := by
  induction program generalizing state with
  | done value => exact ends
  | call op next ih => exact ih _ (ends _) _

theorem Ends.mono {good better : A → Prop} {program : Program Op Res A} (ends : program.Ends good)
    (implies : ∀ value, good value → better value) : program.Ends better := by
  induction program with
  | done value => exact implies value ends
  | call op next ih => exact fun result => ih result (ends result)

theorem Ends.bind {good : A → Prop} {after : B → Prop} {program : Program Op Res A}
    {rest : A → Program Op Res B} (ends : program.Ends good) (continues : ∀ value, good value → (rest value).Ends after) :
    (program.bind rest).Ends after := by
  induction program with
  | done value => exact continues value ends
  | call op next ih => exact fun result => ih result (ends result)

/-- Every call the program can make is of the given kind. -/
def Only (kind : Op → Prop) : Program Op Res A → Prop
  | .done _ => True
  | .call op next => kind op ∧ ∀ result, (next result).Only kind

theorem Only.bind {kind : Op → Prop} {program : Program Op Res A} {rest : A → Program Op Res B}
    (only : program.Only kind) (continues : ∀ value, (rest value).Only kind) : (program.bind rest).Only kind := by
  induction program with
  | done value => exact continues value
  | call op next ih => exact ⟨only.1,fun result => ih result (only.2 result)⟩

/-- Every call of the execution is good in the state it is made in. -/
def Along (exec : S → (op : Op) → Res op × S) (good : S → Op → Prop) : Program Op Res A → S → Prop
  | .done _,_ => True
  | .call op next,state => good state op ∧ (next (exec state op).1).Along exec good (exec state op).2

instance decidableAlong (exec : S → (op : Op) → Res op × S) (good : S → Op → Prop)
    [∀ state op, Decidable (good state op)] :
    (program : Program Op Res A) → (state : S) → Decidable (program.Along exec good state)
  | .done _,_ => .isTrue trivial
  | .call op next,state =>
    have := decidableAlong exec good (next (exec state op).1) (exec state op).2
    inferInstanceAs (Decidable (_ ∧ _))

/-- What every good call keeps holds after the execution. -/
theorem run_along (exec : S → (op : Op) → Res op × S) (good : S → Op → Prop) (Inv : S → Prop)
    (calls : ∀ state op, Inv state → good state op → Inv (exec state op).2)
    (program : Program Op Res A) (state : S) (before : Inv state) (along : program.Along exec good state) :
    Inv (program.run exec state).2 := by
  induction program generalizing state with
  | done value => exact before
  | call op next ih => exact ih _ _ (calls state op before along.1) along.2

/-- Every call the program can make is allowed after the calls and answers it
has seen, whatever the answers are. -/
def Keeps (allowed : List (Event Op Res) → Op → Prop) : Program Op Res A → List (Event Op Res) → Prop
  | .done _,_ => True
  | .call op next,log => allowed log op ∧ ∀ result, (next result).Keeps allowed (log ++ [⟨op,result⟩])

@[simp] theorem keeps_done (allowed : List (Event Op Res) → Op → Prop) (value : A)
    (log : List (Event Op Res)) : (Program.done value : Program Op Res A).Keeps allowed log := trivial

@[simp] theorem keeps_call (allowed : List (Event Op Res) → Op → Prop) (op : Op)
    (next : Res op → Program Op Res A) (log : List (Event Op Res)) :
    (Program.call op next).Keeps allowed log ↔
      allowed log op ∧ ∀ result, (next result).Keeps allowed (log ++ [⟨op,result⟩]) := Iff.rfl

theorem keeps_of_forall {allowed : List (Event Op Res) → Op → Prop} (always : ∀ log op, allowed log op)
    (program : Program Op Res A) (log : List (Event Op Res)) : program.Keeps allowed log := by
  induction program generalizing log with
  | done value => trivial
  | call op next ih => exact ⟨always log op,fun result => ih result _⟩

end Program

structure Thread (Op : Type) (Res : Op → Type) (A : Type) where
  program : Program Op Res A
  log : List (Event Op Res)

structure System (S Op : Type) (Res : Op → Type) (A : Type) where
  shared : S
  threads : List (Thread Op Res A)
  trace : List (Event Op Res)

inductive Move (Req Env : Type)
  | spawn (request : Req)
  | step (index : Nat) (env : Env)

namespace System
variable {S Op A Req Env : Type} {Res : Op → Type}

def initial (state : S) : System S Op Res A := ⟨state,[],[]⟩

/-- The call that thread `index` makes next. -/
def pending (system : System S Op Res A) (index : Nat) : Option Op :=
  match system.threads[index]? with
  | some ⟨.call op _,_⟩ => some op
  | _ => none

theorem pending_call {system : System S Op Res A} {index : Nat} {op : Op}
    {next : Res op → Program Op Res A} {log : List (Event Op Res)}
    (found : system.threads[index]? = some ⟨.call op next,log⟩) : system.pending index = some op := by
  simp [pending,found]

section
variable (start : Req → Program Op Res A) (exec : Env → S → (op : Op) → Res op × S)

/-- The state after thread `index` has made its call `op`. -/
def advance (system : System S Op Res A) (index : Nat) (env : Env) (op : Op)
    (next : Res op → Program Op Res A) (log : List (Event Op Res)) : System S Op Res A :=
  let out := exec env system.shared op
  ⟨out.2,system.threads.set index ⟨next out.1,log ++ [⟨op,out.1⟩]⟩,system.trace ++ [⟨op,out.1⟩]⟩

def move (system : System S Op Res A) : Move Req Env → System S Op Res A
  | .spawn request => {system with threads := system.threads ++ [⟨start request,[]⟩]}
  | .step index env =>
    match system.threads[index]? with
    | some ⟨.call op next,log⟩ => advance exec system index env op next log
    | some ⟨.done _,_⟩ => system
    | none => system

theorem move_cases (system : System S Op Res A) (first : Move Req Env) :
    (∃ request, first = .spawn request ∧
      move start exec system first = {system with threads := system.threads ++ [⟨start request,[]⟩]}) ∨
    (∃ index env op next log, first = .step index env ∧
      system.threads[index]? = some ⟨.call op next,log⟩ ∧
      move start exec system first = advance exec system index env op next log) ∨
    move start exec system first = system := by
  cases first with
  | spawn request => exact Or.inl ⟨request,rfl,rfl⟩
  | step index env =>
    cases found : system.threads[index]? with
    | none => exact Or.inr (Or.inr (by simp [move,found]))
    | some thread =>
      rcases thread with ⟨program,log⟩
      cases program with
      | done value => exact Or.inr (Or.inr (by simp [move,found]))
      | call op next =>
        exact Or.inr (Or.inl ⟨index,env,op,next,log,rfl,found,by simp [move,found]⟩)

/-- Every thread only makes allowed calls from here on. -/
def Disciplined (allowed : List (Event Op Res) → Op → Prop) (system : System S Op Res A) : Prop :=
  ∀ thread ∈ system.threads, thread.program.Keeps allowed thread.log

theorem initial_disciplined (allowed : List (Event Op Res) → Op → Prop) (state : S) :
    Disciplined (A := A) allowed (initial state) := by
  intro thread member
  simp [initial] at member

theorem move_disciplined (allowed : List (Event Op Res) → Op → Prop)
    (starts : ∀ request, (start request).Keeps allowed [])
    (system : System S Op Res A) (first : Move Req Env)
    (disciplined : Disciplined allowed system) :
    Disciplined allowed (move start exec system first) := by
  rcases move_cases start exec system first with
    ⟨request,-,same⟩ | ⟨index,env,op,next,log,-,found,same⟩ | same
  · rw [same]
    intro thread member
    rcases List.mem_append.mp member with old | new
    · exact disciplined thread old
    · rw [List.mem_singleton.mp new]
      exact starts request
  · rw [same]
    intro thread member
    rcases List.mem_or_eq_of_mem_set member with old | new
    · exact disciplined thread old
    · rw [new]
      exact (disciplined _ (List.mem_of_getElem? found)).2 _
  · rw [same]
    exact disciplined

/-- The invariant rule: a property that new requests and allowed guarded calls
keep holds after every guarded run. -/
theorem calls_invariant (allowed : List (Event Op Res) → Op → Prop)
    (guard : System S Op Res A → Move Req Env → Prop) (Inv : System S Op Res A → Prop)
    (starts : ∀ request, (start request).Keeps allowed [])
    (spawns : ∀ system request, Inv system →
      Inv {system with threads := system.threads ++ [⟨start request,[]⟩]})
    (calls : ∀ system index env op next log, Inv system → Disciplined allowed system →
      guard system (.step index env) → system.threads[index]? = some ⟨.call op next,log⟩ →
      allowed log op → Inv (advance exec system index env op next log))
    (system : System S Op Res A) (moves : List (Move Req Env))
    (before : Inv system) (disciplined : Disciplined allowed system)
    (guarded : Guarded (move start exec) guard system moves) :
    Inv (run (move start exec) system moves) := by
  refine (run_invariant (move start exec) guard (fun s => Inv s ∧ Disciplined allowed s) ?_
    system moves ⟨before,disciplined⟩ guarded).1
  rintro state first ⟨holds,kept⟩ meets
  refine ⟨?_,move_disciplined start exec allowed starts state first kept⟩
  rcases move_cases start exec state first with
    ⟨request,-,same⟩ | ⟨index,env,op,next,log,moved,found,same⟩ | same
  · rw [same]
    exact spawns state request holds
  · rw [same]
    have permitted := (kept _ (List.mem_of_getElem? found)).1
    exact calls state index env op next log holds kept (moved ▸ meets) found permitted
  · rw [same]
    exact holds

end
end System
end NPSync.Library
