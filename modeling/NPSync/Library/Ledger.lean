import Mathlib.Data.List.Induction
import NPSync.Library.Interleaving

/-! Interleavings that keep their history: the request each thread serves, and for
every call the thread that made it and the shared states around it. -/
namespace NPSync.Library

/-- One executed call of the history. -/
structure Entry (S Op : Type) (Res : Op → Type) (Req : Type) where
  index : Nat
  request : Req
  before : S
  event : Event Op Res
  after : S

structure Ledger (S Op : Type) (Res : Op → Type) (A Req : Type) where
  shared : S
  requests : List Req
  threads : List (Thread Op Res A)
  history : List (Entry S Op Res Req)

/-- The answer in an event that a function answered. -/
theorem answer_of_event {Op : Type} {Res : Op → Type} (answer : (op : Op) → Res op) {op other : Op} {result : Res op}
    (same : (⟨op,result⟩ : Event Op Res) = ⟨other,answer other⟩) : answer op = result := by
  cases same
  rfl

namespace Program
variable {Op : Type} {Res : Op → Type} {A B : Type}

/-- The program, answered as the log says, makes the calls of the log and ends with the value. -/
def Yields : Program Op Res A → List (Event Op Res) → A → Prop
  | .done value,log,result => log = [] ∧ value = result
  | .call op next,log,result => ∃ answer rest, log = ⟨op,answer⟩::rest ∧ (next answer).Yields rest result

/-- Whatever the program ends with is good for the calls it has seen. -/
def Answers (good : List (Event Op Res) → A → Prop) : Program Op Res A → List (Event Op Res) → Prop
  | .done value,log => good log value
  | .call op next,log => ∀ result, (next result).Answers good (log ++ [⟨op,result⟩])

theorem Only.keeps {kind : Op → Prop} {allowed : List (Event Op Res) → Op → Prop} {program : Program Op Res A}
    (only : program.Only kind) (implies : ∀ log op, kind op → allowed log op) (log : List (Event Op Res)) :
    program.Keeps allowed log := by
  induction program generalizing log with
  | done value => trivial
  | call op next ih => exact ⟨implies log op only.1,fun result => ih result (only.2 result) _⟩

theorem Ends.answers {ended : A → Prop} {good : List (Event Op Res) → A → Prop} {program : Program Op Res A}
    {log : List (Event Op Res)} (ends : program.Ends ended)
    (implies : ∀ more value, ended value → good (log ++ more) value) : program.Answers good log := by
  induction program generalizing log with
  | done value =>
    have now := implies [] value ends
    rwa [List.append_nil] at now
  | call op next ih =>
    refine fun result => ih result (ends result) fun more value holds => ?_
    rw [List.append_assoc]
    exact implies _ value holds

theorem Ends.yields {good : A → Prop} {program : Program Op Res A} {log : List (Event Op Res)} {value : A}
    (ends : program.Ends good) (yields : program.Yields log value) : good value := by
  induction program generalizing log with
  | done other => exact yields.2 ▸ ends
  | call op next ih =>
    obtain ⟨answer,rest,-,after⟩ := yields
    exact ih answer (ends answer) after

theorem ends_of_yields {good : A → Prop} {program : Program Op Res A}
    (yields : ∀ log value, program.Yields log value → good value) : program.Ends good := by
  induction program with
  | done value => exact yields [] value ⟨rfl,rfl⟩
  | call op next ih => exact fun answer => ih answer fun log value rest => yields _ value ⟨answer,log,rfl,rest⟩

/-- What holds of every value holds of the answer. -/
theorem answers_of_forall {good : List (Event Op Res) → A → Prop} (always : ∀ log value, good log value)
    (program : Program Op Res A) (log : List (Event Op Res)) : program.Answers good log := by
  induction program generalizing log with
  | done value => exact always log value
  | call op next ih => exact fun result => ih result _

theorem Answers.bind {good : List (Event Op Res) → A → Prop} {better : List (Event Op Res) → B → Prop}
    {program : Program Op Res A} {rest : A → Program Op Res B} {log : List (Event Op Res)}
    (answers : program.Answers good log) (continues : ∀ log value, good log value → (rest value).Answers better log) :
    (program.bind rest).Answers better log := by
  induction program generalizing log with
  | done value => exact continues log value answers
  | call op next ih => exact fun result => ih result (answers result)

theorem Keeps.bind {allowed : List (Event Op Res) → Op → Prop} {program : Program Op Res A}
    {rest : A → Program Op Res B} {log : List (Event Op Res)} (keeps : program.Keeps allowed log)
    (continues : ∀ calls value, program.Yields calls value → (rest value).Keeps allowed (log ++ calls)) :
    (program.bind rest).Keeps allowed log := by
  induction program generalizing log with
  | done value =>
    have ends := continues [] value ⟨rfl,rfl⟩
    rwa [List.append_nil] at ends
  | call op next ih =>
    refine ⟨keeps.1,fun result => ih result (keeps.2 result) fun calls value yields => ?_⟩
    have ends := continues (⟨op,result⟩::calls) value ⟨result,calls,rfl,yields⟩
    rwa [List.append_cons] at ends

theorem Yields.of_bind {program : Program Op Res A} {rest : A → Program Op Res B} {calls : List (Event Op Res)} {value : B}
    (yields : (program.bind rest).Yields calls value) :
    ∃ first second middle, calls = first ++ second ∧ program.Yields first middle ∧ (rest middle).Yields second value := by
  induction program generalizing calls with
  | done middle => exact ⟨[],calls,middle,rfl,⟨rfl,rfl⟩,yields⟩
  | call op next ih =>
    obtain ⟨answer,others,rfl,after⟩ := yields
    obtain ⟨first,second,middle,rfl,before,continues⟩ := ih answer after
    exact ⟨⟨op,answer⟩::first,second,middle,rfl,⟨answer,first,rfl,before⟩,continues⟩

theorem Keeps.mono {allowed permitted : List (Event Op Res) → Op → Prop} {program : Program Op Res A}
    {log : List (Event Op Res)} (keeps : program.Keeps allowed log)
    (implies : ∀ log op, allowed log op → permitted log op) : program.Keeps permitted log := by
  induction program generalizing log with
  | done value => trivial
  | call op next ih => exact ⟨implies log op keeps.1,fun result => ih result (keeps.2 result)⟩

theorem Keeps.later {allowed : List (Event Op Res) → Op → Prop} {program : Program Op Res A}
    {log : List (Event Op Res)} (keeps : program.Keeps allowed log) (more : List (Event Op Res))
    (later : ∀ log op, allowed log op → allowed (more ++ log) op) : program.Keeps allowed (more ++ log) := by
  induction program generalizing log with
  | done value => trivial
  | call op next ih =>
    refine ⟨later log op keeps.1,fun result => ?_⟩
    rw [List.append_assoc]
    exact ih result (keeps.2 result)

/-- The program, answered as the log says, makes the calls of the log and goes on as `rest`. -/
def Follows : List (Event Op Res) → Program Op Res A → Program Op Res A → Prop
  | [],program,rest => program = rest
  | _::_,.done _,_ => False
  | event::log,.call op next,rest => ∃ answer, event = ⟨op,answer⟩ ∧ Follows log (next answer) rest

theorem Follows.snoc {program rest : Program Op Res A} {log : List (Event Op Res)} {op : Op}
    {next : Res op → Program Op Res A} (follows : program.Follows log (.call op next)) (answer : Res op)
    (same : next answer = rest) : program.Follows (log ++ [⟨op,answer⟩]) rest := by
  induction log generalizing program with
  | nil =>
    cases follows
    exact ⟨answer,rfl,same⟩
  | cons event log ih =>
    cases program with
    | done value => exact follows.elim
    | call first others =>
      obtain ⟨given,called,after⟩ := follows
      exact ⟨given,called,ih after⟩

theorem Follows.yields {program : Program Op Res A} {log : List (Event Op Res)} {value : A}
    (follows : program.Follows log (.done value)) : program.Yields log value := by
  induction log generalizing program with
  | nil =>
    cases follows
    exact ⟨rfl,rfl⟩
  | cons event log ih =>
    cases program with
    | done other => exact follows.elim
    | call op next =>
      obtain ⟨answer,rfl,after⟩ := follows
      exact ⟨answer,log,rfl,ih after⟩

theorem Only.follows {kind : Op → Prop} {program rest : Program Op Res A} {log : List (Event Op Res)}
    (only : program.Only kind) (follows : program.Follows log rest) : rest.Only kind := by
  induction log generalizing program with
  | nil =>
    cases follows
    exact only
  | cons event log ih =>
    cases program with
    | done value => exact follows.elim
    | call first others =>
      obtain ⟨given,-,after⟩ := follows
      exact ih (only.2 given) after

theorem keeps_of_follows {allowed : List (Event Op Res) → Op → Prop} {program : Program Op Res A}
    {log : List (Event Op Res)}
    (reached : ∀ calls op next, program.Follows calls (.call op next) → allowed (log ++ calls) op) :
    program.Keeps allowed log := by
  induction program generalizing log with
  | done value => trivial
  | call op next ih =>
    refine ⟨?_,fun result => ih result fun calls other after follows => ?_⟩
    · have now := reached [] op next rfl
      rwa [List.append_nil] at now
    · have then_ := reached (⟨op,result⟩::calls) other after ⟨result,rfl,follows⟩
      rwa [List.append_cons] at then_

theorem Answers.yields {good : List (Event Op Res) → A → Prop} {program : Program Op Res A} {log calls : List (Event Op Res)}
    {value : A} (answers : program.Answers good log) (yields : program.Yields calls value) : good (log ++ calls) value := by
  induction program generalizing log calls with
  | done result =>
    obtain ⟨rfl,rfl⟩ := yields
    rw [List.append_nil]
    exact answers
  | call op next ih =>
    obtain ⟨answer,rest,rfl,after⟩ := yields
    rw [List.append_cons]
    exact ih answer (answers answer) after

end Program

namespace Ledger
variable {S Op A Req Env : Type} {Res : Op → Type}

def initial (state : S) : Ledger S Op Res A Req := ⟨state,[],[],[]⟩

/-- Thread `index` serves the request and has come to this point. -/
structure Serves (l : Ledger S Op Res A Req) (index : Nat) (request : Req) (program : Program Op Res A)
    (log : List (Event Op Res)) : Prop where
  request : l.requests[index]? = some request
  thread : l.threads[index]? = some ⟨program,log⟩

/-- The calls of one thread, in order. -/
def callsOf (history : List (Entry S Op Res Req)) (index : Nat) : List (Event Op Res) :=
  (history.filter (fun entry => decide (entry.index = index))).map (fun entry => entry.event)

/-- A call in the log of a thread stands in the history. -/
theorem callsOf_split {history : List (Entry S Op Res Req)} {index : Nat} {before rest : List (Event Op Res)}
    {event : Event Op Res} (calls : callsOf history index = before ++ event::rest) :
    ∃ past entry future, history = past ++ entry::future ∧ entry.index = index ∧ entry.event = event ∧
      callsOf past index = before ∧ callsOf future index = rest := by
  induction history generalizing before with
  | nil => simp [callsOf] at calls
  | cons first others ih =>
    by_cases here : first.index = index
    · have split : first.event::callsOf others index = before ++ event::rest := by
        simpa [callsOf,here] using calls
      cases before with
      | nil =>
        obtain ⟨same,tail⟩ := List.cons.inj split
        exact ⟨[],first,others,rfl,here,same,rfl,tail⟩
      | cons head before =>
        obtain ⟨same,tail⟩ := List.cons.inj split
        obtain ⟨past,entry,future,shape,owner,called,earlier,later⟩ := ih tail
        refine ⟨first::past,entry,future,by rw [shape]; rfl,owner,called,?_,later⟩
        rw [← same,← earlier]
        simp [callsOf,here]
    · have split : callsOf others index = before ++ event::rest := by
        simpa [callsOf,here] using calls
      obtain ⟨past,entry,future,shape,owner,called,earlier,later⟩ := ih split
      refine ⟨first::past,entry,future,by rw [shape]; rfl,owner,called,?_,later⟩
      rw [← earlier]
      simp [callsOf,here]

section
variable (start : Req → Program Op Res A) (exec : Env → S → (op : Op) → Res op × S)

def spawned (l : Ledger S Op Res A Req) (request : Req) : Ledger S Op Res A Req :=
  {l with requests := l.requests ++ [request],threads := l.threads ++ [⟨start request,[]⟩]}

/-- The ledger after thread `index` has made its call `op`. -/
def called (l : Ledger S Op Res A Req) (index : Nat) (env : Env) (request : Req) (op : Op)
    (next : Res op → Program Op Res A) (log : List (Event Op Res)) : Ledger S Op Res A Req :=
  let out := exec env l.shared op
  ⟨out.2,l.requests,l.threads.set index ⟨next out.1,log ++ [⟨op,out.1⟩]⟩,
    l.history ++ [⟨index,request,l.shared,⟨op,out.1⟩,out.2⟩]⟩

def move (l : Ledger S Op Res A Req) : Move Req Env → Ledger S Op Res A Req
  | .spawn request => spawned start l request
  | .step index env =>
    match l.requests[index]?,l.threads[index]? with
    | some request,some ⟨.call op next,log⟩ => called exec l index env request op next log
    | _,_ => l

theorem move_cases (l : Ledger S Op Res A Req) (first : Move Req Env) :
    (∃ request, first = .spawn request ∧ move start exec l first = spawned start l request) ∨
    (∃ index env request op next log, first = .step index env ∧ l.Serves index request (.call op next) log ∧
      move start exec l first = called exec l index env request op next log) ∨
    move start exec l first = l := by
  cases first with
  | spawn request => exact .inl ⟨request,rfl,rfl⟩
  | step index env =>
    cases asked : l.requests[index]? with
    | none => exact .inr (.inr (by simp [move,asked]))
    | some request =>
      cases found : l.threads[index]? with
      | none => exact .inr (.inr (by simp [move,asked,found]))
      | some thread =>
        rcases thread with ⟨program,log⟩
        cases program with
        | done value => exact .inr (.inr (by simp [move,asked,found]))
        | call op next =>
          exact .inr (.inl ⟨index,env,request,op,next,log,rfl,⟨asked,found⟩,by simp [move,asked,found]⟩)

theorem move_call {l : Ledger S Op Res A Req} {index : Nat} {request : Req} {op : Op} {next : Res op → Program Op Res A}
    {log : List (Event Op Res)} (serves : l.Serves index request (.call op next) log) (env : Env) :
    move start exec l (.step index env) = called exec l index env request op next log := by
  simp only [move,serves.request,serves.thread]

variable {start exec}

theorem serves_spawned {l : Ledger S Op Res A Req} {request : Req} (sized : l.requests.length = l.threads.length)
    {index : Nat} {asked : Req} {program : Program Op Res A} {log : List (Event Op Res)}
    (serves : (spawned start l request).Serves index asked program log) :
    l.Serves index asked program log ∨
      (index = l.threads.length ∧ asked = request ∧ program = start request ∧ log = []) := by
  obtain ⟨there,found⟩ := serves
  simp only [spawned,List.getElem?_append] at there found
  by_cases old : index < l.threads.length
  · rw [if_pos (sized ▸ old)] at there
    rw [if_pos old] at found
    exact .inl ⟨there,found⟩
  · rw [if_neg (sized ▸ old),List.getElem?_singleton] at there
    rw [if_neg old,List.getElem?_singleton] at found
    split at found
    · rename_i last
      rw [if_pos (by omega)] at there
      have same := Option.some.inj found
      injection same with same empty
      exact .inr ⟨by omega,(Option.some.inj there).symm,same.symm,empty.symm⟩
    · contradiction

theorem serves_called {l : Ledger S Op Res A Req} {index other : Nat} {env : Env} {request asked : Req} {op : Op}
    {next : Res op → Program Op Res A} {log calls : List (Event Op Res)} {program : Program Op Res A}
    (here : l.Serves index request (.call op next) log)
    (serves : (called exec l index env request op next log).Serves other asked program calls) :
    (other ≠ index ∧ l.Serves other asked program calls) ∨
      (other = index ∧ asked = request ∧ program = next (exec env l.shared op).1 ∧
        calls = log ++ [⟨op,(exec env l.shared op).1⟩]) := by
  obtain ⟨there,found⟩ := serves
  by_cases same : other = index
  · subst same
    have bound : other < l.threads.length := (List.getElem?_eq_some_iff.mp here.thread).1
    simp only [called,List.getElem?_set_self bound] at found
    have equal := Option.some.inj found
    injection equal with equal calls
    exact .inr ⟨rfl,Option.some.inj (there.symm.trans here.request),equal.symm,calls.symm⟩
  · simp only [called,List.getElem?_set_ne (Ne.symm same)] at found
    exact .inl ⟨same,there,found⟩

end

/-- Every thread is at a point with the property. -/
def Served (P : Req → Program Op Res A → List (Event Op Res) → Prop) (l : Ledger S Op Res A Req) : Prop :=
  ∀ index request program log, l.Serves index request program log → P request program log

/-- Requests and threads go together, and the log of a thread is its part of the history. -/
structure Logged (l : Ledger S Op Res A Req) : Prop where
  sized : l.requests.length = l.threads.length
  bounded : ∀ entry ∈ l.history, entry.index < l.threads.length
  asked : ∀ entry ∈ l.history, l.requests[entry.index]? = some entry.request
  logs : ∀ index request program log, l.Serves index request program log → log = callsOf l.history index

theorem initial_logged (state : S) : (initial state : Ledger S Op Res A Req).Logged :=
  ⟨rfl,by simp [initial],by simp [initial],fun index request program log serves => by
    have there := serves.request
    simp [initial] at there⟩

section
variable {start : Req → Program Op Res A} {exec : Env → S → (op : Op) → Res op × S}

theorem Logged.spawned {l : Ledger S Op Res A Req} (logged : l.Logged) (request : Req) :
    (Ledger.spawned start l request).Logged := by
  refine ⟨by simp [Ledger.spawned,logged.sized],?_,?_,?_⟩
  · intro entry member
    have bound := logged.bounded entry member
    simp only [Ledger.spawned,List.length_append,List.length_singleton]
    omega
  · intro entry member
    have bound := logged.bounded entry member
    simp only [Ledger.spawned]
    rw [List.getElem?_append_left (by rw [logged.sized]; exact bound)]
    exact logged.asked entry member
  · intro index asked program log serves
    rcases serves_spawned logged.sized serves with old | ⟨last,-,-,empty⟩
    · exact logged.logs index asked program log old
    · subst empty
      refine (List.map_eq_nil_iff.mpr (List.filter_eq_nil_iff.mpr ?_)).symm
      intro entry member
      have bound := logged.bounded entry member
      simp only [decide_eq_true_eq]
      omega

theorem Logged.called {l : Ledger S Op Res A Req} (logged : l.Logged) {index : Nat} {request : Req} {op : Op}
    {next : Res op → Program Op Res A} {log : List (Event Op Res)} (env : Env)
    (serves : l.Serves index request (.call op next) log) :
    (Ledger.called exec l index env request op next log).Logged := by
  have bound : index < l.threads.length := (List.getElem?_eq_some_iff.mp serves.thread).1
  refine ⟨by simp [Ledger.called,logged.sized],?_,?_,?_⟩
  · intro entry member
    simp only [Ledger.called,List.length_set]
    rcases List.mem_append.mp member with old | new
    · exact logged.bounded entry old
    · rw [List.mem_singleton.mp new]
      exact bound
  · intro entry member
    rcases List.mem_append.mp member with old | new
    · exact logged.asked entry old
    · rw [List.mem_singleton.mp new]
      exact serves.request
  · intro other asked program calls there
    simp only [Ledger.called,callsOf,List.filter_append,List.map_append]
    rcases serves_called serves there with ⟨different,old⟩ | ⟨rfl,-,-,same⟩
    · rw [logged.logs other asked program calls old]
      simp [callsOf,Ne.symm different]
    · rw [same,logged.logs other request _ log serves]
      simp [callsOf]

/-- The invariant rule: a property of the ledger that new requests and guarded
calls keep holds after every guarded run. Every thread stays within `P`. -/
theorem ledger_invariant (P : Req → Program Op Res A → List (Event Op Res) → Prop)
    (guard : Ledger S Op Res A Req → Move Req Env → Prop) (Inv : Ledger S Op Res A Req → Prop)
    (starts : ∀ request, P request (start request) [])
    (steady : ∀ request op next log, P request (.call op next) log → ∀ result, P request (next result) (log ++ [⟨op,result⟩]))
    (spawns : ∀ l request, l.Logged → Inv l → Inv (spawned start l request))
    (calls : ∀ l index env request op next log, Inv l → Served P l → l.Logged → guard l (.step index env) →
      l.Serves index request (.call op next) log → Inv (called exec l index env request op next log))
    (state : S) (moves : List (Move Req Env)) (before : Inv (initial state))
    (guarded : Guarded (move start exec) guard (initial state) moves) :
    Inv (run (move start exec) (initial state) moves) ∧ Served P (run (move start exec) (initial state) moves) ∧
      (run (move start exec) (initial state) moves).Logged := by
  refine run_invariant (move start exec) guard (fun l => Inv l ∧ Served P l ∧ l.Logged) ?_ (initial state) moves
    ⟨before,?_,initial_logged state⟩ guarded
  · rintro l first ⟨holds,served,logged⟩ meets
    rcases move_cases start exec l first with
      ⟨request,-,same⟩ | ⟨index,env,request,op,next,log,moved,serves,same⟩ | same
    · rw [same]
      refine ⟨spawns l request logged holds,?_,logged.spawned request⟩
      intro index asked program log there
      rcases serves_spawned logged.sized there with old | ⟨-,rfl,rfl,rfl⟩
      · exact served index asked program log old
      · exact starts asked
    · rw [same]
      refine ⟨calls l index env request op next log holds served logged (moved ▸ meets) serves,?_,logged.called env serves⟩
      intro other asked program calls there
      rcases serves_called serves there with ⟨-,old⟩ | ⟨-,rfl,rfl,rfl⟩
      · exact served other asked program calls old
      · exact steady asked op next log (served index asked _ log serves) _
    · rw [same]
      exact ⟨holds,served,logged⟩
  · intro index request program log serves
    have there := serves.request
    simp [initial] at there

theorem run_logged (start : Req → Program Op Res A) (exec : Env → S → (op : Op) → Res op × S) (state : S)
    (moves : List (Move Req Env)) : (run (move start exec) (initial state) moves).Logged :=
  (ledger_invariant (fun _ _ _ => True) (fun _ _ => True) (fun _ => True) (fun _ => trivial) (fun _ _ _ _ _ _ => trivial)
    (fun _ _ _ _ => trivial) (fun _ _ _ _ _ _ _ _ _ _ _ _ => trivial) state moves trivial (guarded_trivial _ _ _)).2.2

/-- What every guarded call keeps of the shared state holds after every guarded run. -/
theorem shared_invariant (guard : Ledger S Op Res A Req → Move Req Env → Prop) (Inv : S → Prop)
    (calls : ∀ l index env op, Inv l.shared → guard l (.step index env) → Inv (exec env l.shared op).2)
    (l : Ledger S Op Res A Req) (moves : List (Move Req Env)) (before : Inv l.shared)
    (guarded : Guarded (move start exec) guard l moves) : Inv (run (move start exec) l moves).shared := by
  refine run_invariant (move start exec) guard (fun l => Inv l.shared) ?_ l moves before guarded
  intro l first holds meets
  rcases move_cases start exec l first with
    ⟨request,-,same⟩ | ⟨index,env,request,op,next,log,moved,-,same⟩ | same
  · rw [same]
    exact holds
  · rw [same]
    exact calls l index env op holds (moved ▸ meets)
  · rw [same]
    exact holds

end

/-- Every entry is related to the entries before it. -/
def Earlier (R : Entry S Op Res Req → List (Entry S Op Res Req) → Prop) (history : List (Entry S Op Res Req)) : Prop :=
  ∀ past entry future, history = past ++ entry::future → R entry past

theorem earlier_nil (R : Entry S Op Res Req → List (Entry S Op Res Req) → Prop) : Earlier R [] := by
  intro past entry future split
  simp at split

theorem Earlier.snoc {R : Entry S Op Res Req → List (Entry S Op Res Req) → Prop} {history : List (Entry S Op Res Req)}
    (earlier : Earlier R history) (entry : Entry S Op Res Req) (now : R entry history) :
    Earlier R (history ++ [entry]) := by
  intro past last future split
  rcases List.eq_nil_or_concat future with rfl | ⟨before,final,rfl⟩
  · obtain ⟨rfl,same⟩ := List.append_inj' split rfl
    rw [← (List.cons.inj same).1]
    exact now
  · rw [List.concat_eq_append,← List.cons_append,← List.append_assoc] at split
    exact earlier past last before (List.append_inj_left' split rfl)

theorem Earlier.at {R : Entry S Op Res Req → List (Entry S Op Res Req) → Prop} {history : List (Entry S Op Res Req)}
    (earlier : Earlier R history) {index : Nat} {entry : Entry S Op Res Req} (found : history[index]? = some entry) :
    R entry (history.take index) := by
  obtain ⟨bound,same⟩ := List.getElem?_eq_some_iff.mp found
  refine earlier (history.take index) entry (history.drop (index + 1)) ?_
  rw [← same,← List.drop_eq_getElem_cons bound,List.take_append_drop]

theorem callsOf_snoc (history : List (Entry S Op Res Req)) (entry : Entry S Op Res Req) (index : Nat) :
    callsOf (history ++ [entry]) index = callsOf history index ++ if entry.index = index then [entry.event] else [] := by
  by_cases here : entry.index = index
  · simp [callsOf,here]
  · simp [callsOf,here]

theorem mem_callsOf {history : List (Entry S Op Res Req)} {index : Nat} {event : Event Op Res} :
    event ∈ callsOf history index ↔ ∃ entry ∈ history, entry.index = index ∧ entry.event = event := by
  simp [callsOf,and_assoc]

/-- Every call of a run was allowed to its thread. -/
theorem ledger_disciplined {start : Req → Program Op Res A} {exec : Env → S → (op : Op) → Res op × S}
    (allowed : Req → List (Event Op Res) → Op → Prop) (starts : ∀ request, (start request).Keeps (allowed request) [])
    (state : S) (moves : List (Move Req Env)) :
    Earlier (fun entry past => allowed entry.request (callsOf past entry.index) entry.event.op)
      (run (move start exec) (initial state) moves).history := by
  refine (ledger_invariant (fun request program log => program.Keeps (allowed request) log) (fun _ _ => True)
    (fun l => Earlier (fun entry past => allowed entry.request (callsOf past entry.index) entry.event.op) l.history)
    starts (fun _ _ _ _ keeps => keeps.2) (fun _ _ _ holds => holds) ?_ state moves (earlier_nil _)
    (guarded_trivial _ _ _)).1
  intro l index env request op next log holds served logged _ serves
  apply holds.snoc
  have keeps := served index request _ log serves
  rw [logged.logs index request _ log serves] at keeps
  exact keeps.1

/-- The ledger without its requests. -/
def system (l : Ledger S Op Res A Req) : System S Op Res A := ⟨l.shared,l.threads,l.history.map (·.event)⟩

theorem move_system (start : Req → Program Op Res A) (exec : Env → S → (op : Op) → Res op × S) {l : Ledger S Op Res A Req}
    (logged : l.Logged) (first : Move Req Env) : (move start exec l first).system = System.move start exec l.system first := by
  cases first with
  | spawn request => rfl
  | step index env =>
    cases found : l.threads[index]? with
    | none => simp [move,System.move,system,found]
    | some thread =>
      have bound : index < l.requests.length := logged.sized ▸ (List.getElem?_eq_some_iff.mp found).1
      rcases thread with ⟨program,log⟩
      cases program with
      | done value => simp [move,System.move,system,found]
      | call op next => simp [move,System.move,System.advance,called,system,found,List.getElem?_eq_getElem bound]

/-- A run with its history is the run of the system. -/
theorem run_system (start : Req → Program Op Res A) (exec : Env → S → (op : Op) → Res op × S) (state : S)
    (moves : List (Move Req Env)) :
    (run (move start exec) (initial state) moves).system = run (System.move start exec) (System.initial state) moves := by
  induction moves using List.reverseRecOn with
  | nil => rfl
  | append_singleton before last ih =>
    have logged := run_logged start exec state before
    rw [run_append,run_append,← ih]
    exact move_system start exec logged last

/-- A move only adds requests and history. -/
theorem move_grows (start : Req → Program Op Res A) (exec : Env → S → (op : Op) → Res op × S) (l : Ledger S Op Res A Req)
    (first : Move Req Env) : ∃ requests history, (move start exec l first).requests = l.requests ++ requests ∧
      (move start exec l first).history = l.history ++ history := by
  rcases move_cases start exec l first with
    ⟨request,-,same⟩ | ⟨index,env,request,op,next,log,-,-,same⟩ | same
  · rw [same]
    exact ⟨[request],[],rfl,by simp [spawned]⟩
  · rw [same]
    exact ⟨[],_,by simp [called],rfl⟩
  · rw [same]
    exact ⟨[],[],by simp,by simp⟩

/-- Every thread has followed its program. -/
theorem ledger_follows (start : Req → Program Op Res A) (exec : Env → S → (op : Op) → Res op × S) (state : S)
    (moves : List (Move Req Env)) :
    Served (fun request program log => (start request).Follows log program) (run (move start exec) (initial state) moves) := by
  refine (ledger_invariant (fun request program log => (start request).Follows log program) (fun _ _ => True)
    (fun _ => True) ?_ ?_ (fun _ _ _ _ => trivial) (fun _ _ _ _ _ _ _ _ _ _ _ _ => trivial) state moves trivial
    (guarded_trivial _ _ _)).2.1
  · intro request
    rfl
  · intro request op next log follows result
    exact follows.snoc result rfl

/-- The request that a move adds. -/
def asked : Move Req Env → Option Req
  | .spawn request => some request
  | .step .. => none

/-- A move leaves a thread as it is or makes its call. -/
theorem Serves.moved (start : Req → Program Op Res A) (exec : Env → S → (op : Op) → Res op × S) {l : Ledger S Op Res A Req}
    {index : Nat} {request : Req} {program : Program Op Res A} {log : List (Event Op Res)}
    (serves : l.Serves index request program log) (first : Move Req Env) :
    (move start exec l first).Serves index request program log ∨ ∃ env op next, program = .call op next ∧
      first = .step index env ∧ move start exec l first = called exec l index env request op next log := by
  rcases move_cases start exec l first with
    ⟨added,-,same⟩ | ⟨other,env,asked,op,next,calls,made,here,same⟩ | same
  · left
    rw [same]
    exact ⟨by rw [spawned,List.getElem?_append_left (List.getElem?_eq_some_iff.mp serves.request).1]; exact serves.request,
      by rw [spawned,List.getElem?_append_left (List.getElem?_eq_some_iff.mp serves.thread).1]; exact serves.thread⟩
  · by_cases mine : other = index
    · subst mine
      right
      cases here.thread.symm.trans serves.thread
      cases here.request.symm.trans serves.request
      exact ⟨env,op,next,rfl,made,same⟩
    · left
      rw [same]
      refine ⟨serves.request,?_⟩
      simp only [called,List.getElem?_set_ne mine]
      exact serves.thread
  · left
    rw [same]
    exact serves

/-- A thread that has answered stays as it is. -/
theorem Serves.stays {start : Req → Program Op Res A} {exec : Env → S → (op : Op) → Res op × S} {l : Ledger S Op Res A Req}
    {index : Nat} {request : Req} {value : A} {log : List (Event Op Res)} (serves : l.Serves index request (.done value) log)
    (moves : List (Move Req Env)) : (run (move start exec) l moves).Serves index request (.done value) log := by
  induction moves generalizing l with
  | nil => exact serves
  | cons first rest ih =>
    apply ih
    rcases serves.moved start exec first with stays | ⟨env,op,next,wrong,-,-⟩
    · exact stays
    · contradiction

theorem run_requests (start : Req → Program Op Res A) (exec : Env → S → (op : Op) → Res op × S)
    (l : Ledger S Op Res A Req) (moves : List (Move Req Env)) :
    (run (move start exec) l moves).requests = l.requests ++ moves.filterMap asked := by
  induction moves generalizing l with
  | nil => simp
  | cons first rest ih =>
    rw [run_cons,ih]
    cases first with
    | spawn request => simp [move,spawned,asked]
    | step index env =>
      have same : (move start exec l (.step index env)).requests = l.requests := by
        simp only [move]
        split
        · rfl
        · rfl
      rw [same]
      rfl

/-- Every call of a run was made by a serving thread of the ledger that stood before it. -/
theorem entry_moment {start : Req → Program Op Res A} {exec : Env → S → (op : Op) → Res op × S} (state : S)
    (moves : List (Move Req Env)) (past future : List (Entry S Op Res Req)) (entry : Entry S Op Res Req)
    (split : (run (move start exec) (initial state) moves).history = past ++ entry::future) :
    ∃ before env op next log, (run (move start exec) (initial state) before).history = past ∧
      (run (move start exec) (initial state) before).Serves entry.index entry.request (.call op next) log ∧
      entry.before = (run (move start exec) (initial state) before).shared ∧
      entry.event = ⟨op,(exec env entry.before op).1⟩ ∧ entry.after = (exec env entry.before op).2 := by
  induction moves using List.reverseRecOn generalizing future with
  | nil => simp [initial] at split
  | append_singleton earlier last ih =>
    rw [run_append,run_cons,run_nil] at split
    rcases move_cases start exec (run (move start exec) (initial state) earlier) last with
      ⟨request,-,same⟩ | ⟨index,env,request,op,next,log,-,serves,same⟩ | same
    · rw [same] at split
      exact ih future split
    · rw [same] at split
      simp only [called] at split
      rcases List.eq_nil_or_concat future with rfl | ⟨front,final,rfl⟩
      · obtain ⟨here,made⟩ := List.append_inj' split rfl
        have made := (List.cons.inj made).1
        subst made
        exact ⟨earlier,env,op,next,log,here,serves,rfl,rfl,rfl⟩
      · rw [List.concat_eq_append,← List.cons_append,← List.append_assoc] at split
        exact ih front (List.append_inj_left' split rfl)
    · rw [same] at split
      exact ih future split

theorem mem_take {history : List (Entry S Op Res Req)} {first second : Nat} (order : first < second)
    {entry : Entry S Op Res Req} (found : history[first]? = some entry) : entry ∈ history.take second :=
  List.mem_of_getElem? ((List.getElem?_take_of_lt order).trans found)

end Ledger
end NPSync.Library
