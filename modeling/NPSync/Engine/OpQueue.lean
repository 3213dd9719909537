import NPSync.Library.Ledger
import NPSync.Engine.Events

/-! The table `pending_ops` between the threads that queue operations and the
worker that takes them out, one SQL statement at a time. `LocalDb` runs its
statements one by one on one connection and without transactions, so the
statements of the threads can come in any order. -/
namespace NPSync.Engine
open Library

/-- `pending_ops`; AUTOINCREMENT gives no id twice. -/
structure OpTable where
  rows : List PendingOp
  nextId : Nat
  ordered : rows.Pairwise (fun a b => a.id < b.id)
  below : ∀ op ∈ rows, op.id < nextId

/-- The statements on `pending_ops`, and what the worker does besides them: it asks
whether to go on, maps a path, and runs `uploadFile` and `deleteRemote`. -/
inductive Statement where
  | deleteSame (kind : OpKind) (relPath : Str)
  | insert (kind : OpKind) (relPath newRelPath : Str) (now : Int)
  | pendingOps
  | removeOp (id : Nat)
  | markOpFailed (id : Nat) (err : Str)
  | goesOn
  | absPathForRel (relPath : Str)
  | uploadFile (relPath : Str)
  | deleteRemote (relPath : Str)
  deriving DecidableEq

def Statement.Reply : Statement → Type
  | .pendingOps => List PendingOp
  | .goesOn | .absPathForRel _ => Bool
  | .uploadFile _ | .deleteRemote _ => Outcome
  | .deleteSame .. | .insert .. | .removeOp _ | .markOpFailed .. => Unit

/-- What the worker finds outside of `pending_ops`. -/
structure Surroundings where
  flag : Bool
  outcome : Outcome

namespace OpTable
variable (table : OpTable)

def keep (test : PendingOp → Bool) : OpTable :=
  ⟨table.rows.filter test,table.nextId,table.ordered.filter _,fun op member => table.below op (List.mem_of_mem_filter member)⟩

def insert (kind : OpKind) (relPath newRelPath : Str) (now : Int) : OpTable where
  rows := table.rows ++ [⟨table.nextId,kind,relPath,newRelPath,now,0,[]⟩]
  nextId := table.nextId + 1
  ordered := by
    apply List.pairwise_append.mpr
    refine ⟨table.ordered,List.pairwise_singleton _ _,?_⟩
    intro op member last inside
    rw [List.mem_singleton.mp inside]
    exact table.below op member
  below := by
    intro op member
    rcases List.mem_append.mp member with old | new
    · exact Nat.lt_succ_of_lt (table.below op old)
    · rw [List.mem_singleton.mp new]
      exact Nat.lt_succ_self _

def failed (id : Nat) (err : Str) (op : PendingOp) : PendingOp :=
  if op.id = id then {op with retryCount := op.retryCount + 1,lastError := err} else op

@[simp] theorem failed_id (id : Nat) (err : Str) (op : PendingOp) : (failed id err op).id = op.id := by
  unfold failed
  split <;> rfl

theorem failed_same (id : Nat) (err : Str) (op : PendingOp) :
    (failed id err op).kind = op.kind ∧ (failed id err op).relPath = op.relPath := by
  unfold failed
  split <;> exact ⟨rfl,rfl⟩

def markOpFailed (id : Nat) (err : Str) : OpTable where
  rows := table.rows.map (failed id err)
  nextId := table.nextId
  ordered := by simpa [List.pairwise_map] using table.ordered
  below := by
    intro op member
    obtain ⟨old,inside,rfl⟩ := List.mem_map.mp member
    rw [failed_id]
    exact table.below old inside

end OpTable

def execute (env : Surroundings) (table : OpTable) : (s : Statement) → s.Reply × OpTable
  | .deleteSame kind relPath => ((),table.keep (fun op => !decide (op.relPath = relPath ∧ op.kind = kind)))
  | .insert kind relPath newRelPath now => ((),table.insert kind relPath newRelPath now)
  | .pendingOps => (table.rows,table)
  | .removeOp id => ((),table.keep (fun op => !decide (op.id = id)))
  | .markOpFailed id err => ((),table.markOpFailed id err)
  | .goesOn => (env.flag,table)
  | .absPathForRel _ => (env.flag,table)
  | .uploadFile _ => (env.outcome,table)
  | .deleteRemote _ => (env.outcome,table)

abbrev Statements (A : Type) := Program Statement Statement.Reply A

/-- `enqueueOp`. -/
def enqueueStatements (kind : OpKind) (relPath newRelPath : Str) (now : Int) : Statements Unit :=
  .call (.deleteSame kind relPath) fun _ => .call (.insert kind relPath newRelPath now) fun _ => .done ()

/-- The end of `processPendingOp`; false is an exception, which ends the loop. -/
def settleStatements (op : PendingOp) : Outcome → Statements Bool
  | .threw => .done false
  | .failed err =>
    if err = lit "offline" then .done true
    else .call (.markOpFailed op.id err) fun _ =>
      if 25 < op.retryCount then .call (.removeOp op.id) fun _ => .done true else .done true
  | _ => .call (.removeOp op.id) fun _ => .done true

/-- `processPendingOp`. -/
def processStatements (op : PendingOp) : Statements Bool :=
  match op.kind with
  | .upload => .call (.absPathForRel op.relPath) fun (mapped : Bool) =>
    if mapped then .call (.uploadFile op.relPath) (settleStatements op)
    else .call (.removeOp op.id) fun _ => .done true
  | .delete => .call (.deleteRemote op.relPath) (settleStatements op)
  | .rename => .call (.removeOp op.id) fun _ => .done true

/-- The rows of one snapshot, until the worker is stopped or goes offline. -/
def workThrough : List PendingOp → Statements Unit
  | [] => .done ()
  | op::rest => .call .goesOn fun (going : Bool) =>
    if going then (processStatements op).bind fun (returned : Bool) => if returned then workThrough rest else .done ()
    else .done ()

/-- One round of `workerLoop`. -/
def passStatements : Statements Unit := .call .pendingOps workThrough

inductive QueueRequest where
  | enqueueOp (kind : OpKind) (relPath newRelPath : Str) (now : Int)
  | pass

def queueStart : QueueRequest → Statements Unit
  | .enqueueOp kind relPath newRelPath now => enqueueStatements kind relPath newRelPath now
  | .pass => passStatements

abbrev QueueLedger := Ledger OpTable Statement Statement.Reply Unit QueueRequest

abbrev QueueEntry := Entry OpTable Statement Statement.Reply QueueRequest

abbrev StatementEvent := Event Statement Statement.Reply

/-- Any interleaving of any number of `enqueueOp`s and rounds of the worker. -/
def queueRun (table : OpTable) (moves : List (Move QueueRequest Surroundings)) : QueueLedger :=
  run (Ledger.move queueStart execute) (Ledger.initial table) moves

/-! ### The statements are those of the functions -/

theorem enqueueStatements_run (env : Surroundings) (table : OpTable) (db : LocalDb) (rows : table.rows = db.pendingOps)
    (next : table.nextId = db.nextOpId) (kind : OpKind) (relPath newRelPath : Str) (now : Int) :
    ((enqueueStatements kind relPath newRelPath now).run (execute env) table).2.rows =
        (db.enqueueOp kind relPath newRelPath now).pendingOps ∧
      ((enqueueStatements kind relPath newRelPath now).run (execute env) table).2.nextId =
        (db.enqueueOp kind relPath newRelPath now).nextOpId := by
  simp only [enqueueStatements,Program.run_call,Program.run_done,execute,OpTable.insert,OpTable.keep,LocalDb.enqueueOp,rows,next,
    and_self]

theorem settleStatements_run (env : Surroundings) (table : OpTable) (l : Local) (rows : table.rows = l.db.pendingOps)
    (op : PendingOp) (outcome : Outcome) :
    ((settleStatements op outcome).run (execute env) table).2.rows = (settleOp op (outcome,l)).2.db.pendingOps := by
  cases outcome with
  | threw => exact rows
  | failed err =>
    unfold settleStatements settleOp
    dsimp only
    split
    · exact rows
    split
    · simp only [Program.run_call,Program.run_done,execute,OpTable.keep,OpTable.markOpFailed,rows]
      rfl
    · simp only [Program.run_call,Program.run_done,execute,OpTable.markOpFailed,rows]
      rfl
  | skipped | stored | merged | conflictRecorded | applied =>
    simp only [settleStatements,Program.run_call,Program.run_done,execute,OpTable.keep,rows]
    rfl

/-! ### What a statement does to the rows -/

/-- A row is there from before, or it is the one just inserted. -/
theorem execute_rows (env : Surroundings) (table : OpTable) (s : Statement) {op : PendingOp}
    (member : op ∈ (execute env table s).2.rows) :
    (∃ old ∈ table.rows, old.id = op.id ∧ old.kind = op.kind ∧ old.relPath = op.relPath) ∨
      op.id = table.nextId := by
  cases s with
  | deleteSame kind relPath => exact .inl ⟨op,List.mem_of_mem_filter member,rfl,rfl,rfl⟩
  | removeOp id => exact .inl ⟨op,List.mem_of_mem_filter member,rfl,rfl,rfl⟩
  | insert kind relPath newRelPath now =>
    rcases List.mem_append.mp member with old | new
    · exact .inl ⟨op,old,rfl,rfl,rfl⟩
    · right
      rw [List.mem_singleton.mp new]
  | markOpFailed id err =>
    obtain ⟨old,inside,rfl⟩ := List.mem_map.mp member
    obtain ⟨kind,path⟩ := OpTable.failed_same id err old
    exact .inl ⟨old,inside,(OpTable.failed_id id err old).symm,kind.symm,path.symm⟩
  | pendingOps | goesOn | absPathForRel relPath | uploadFile relPath | deleteRemote relPath => exact .inl ⟨op,member,rfl,rfl,rfl⟩

/-- A row is kept, or the statement deletes the rows of its kind and path, or it alone. -/
theorem execute_keeps (env : Surroundings) (table : OpTable) (s : Statement) {op : PendingOp} (member : op ∈ table.rows) :
    (∃ kept ∈ (execute env table s).2.rows, kept.id = op.id ∧ kept.kind = op.kind ∧ kept.relPath = op.relPath) ∨
      s = .deleteSame op.kind op.relPath ∨ s = .removeOp op.id := by
  cases s with
  | deleteSame kind relPath =>
    by_cases same : op.relPath = relPath ∧ op.kind = kind
    · obtain ⟨rfl,rfl⟩ := same
      exact .inr (.inl rfl)
    · exact .inl ⟨op,List.mem_filter.mpr ⟨member,by rw [decide_eq_false same]; rfl⟩,rfl,rfl,rfl⟩
  | removeOp id =>
    by_cases same : op.id = id
    · exact .inr (.inr (by rw [same]))
    · exact .inl ⟨op,List.mem_filter.mpr ⟨member,by simpa using same⟩,rfl,rfl,rfl⟩
  | insert kind relPath newRelPath now => exact .inl ⟨op,List.mem_append_left _ member,rfl,rfl,rfl⟩
  | markOpFailed id err =>
    obtain ⟨kind,path⟩ := OpTable.failed_same id err op
    exact .inl ⟨OpTable.failed id err op,List.mem_map_of_mem member,OpTable.failed_id id err op,kind,path⟩
  | pendingOps | goesOn | absPathForRel relPath | uploadFile relPath | deleteRemote relPath => exact .inl ⟨op,member,rfl,rfl,rfl⟩

theorem execute_nextId (env : Surroundings) (table : OpTable) (s : Statement) :
    table.nextId ≤ (execute env table s).2.nextId := by
  cases s with
  | insert kind relPath newRelPath now => exact Nat.le_succ _
  | _ => exact Nat.le_refl _

/-! ### What a thread may do -/

/-- The reason for which the worker removes a row it has processed: the calls of its thread end with it. -/
def Finished (op : PendingOp) (log : List StatementEvent) : Prop :=
  op.kind = .rename ∨
  (op.kind = .upload ∧ [⟨.absPathForRel op.relPath,false⟩] <:+ log) ∨
  (∃ outcome : Outcome, outcome.succeeded = true ∧
    ((op.kind = .upload ∧ [⟨.uploadFile op.relPath,outcome⟩] <:+ log) ∨
      (op.kind = .delete ∧ [⟨.deleteRemote op.relPath,outcome⟩] <:+ log))) ∨
  (25 < op.retryCount ∧ ∃ err, [⟨.markOpFailed op.id err,()⟩] <:+ log)

def QueueAllowed (request : QueueRequest) (log : List StatementEvent) : Statement → Prop
  | .deleteSame kind relPath => ∃ newRelPath now, request = .enqueueOp kind relPath newRelPath now
  | .insert kind relPath newRelPath now => request = .enqueueOp kind relPath newRelPath now
  | .removeOp id => request = .pass ∧ ∃ (rows : List PendingOp) (op : PendingOp), (⟨.pendingOps,rows⟩ : StatementEvent) ∈ log ∧ op ∈ rows ∧
      op.id = id ∧ Finished op log
  | _ => True

theorem settleStatements_keeps (op : PendingOp) (rows : List PendingOp) (member : op ∈ rows) (log : List StatementEvent)
    (read : (⟨.pendingOps,rows⟩ : StatementEvent) ∈ log) (outcome : Outcome)
    (ran : (op.kind = .upload ∧ [⟨.uploadFile op.relPath,outcome⟩] <:+ log) ∨
      (op.kind = .delete ∧ [⟨.deleteRemote op.relPath,outcome⟩] <:+ log)) :
    (settleStatements op outcome).Keeps (QueueAllowed .pass) log := by
  cases outcome with
  | threw => trivial
  | failed err =>
    unfold settleStatements
    dsimp only
    split
    · trivial
    · refine ⟨trivial,fun marked => ?_⟩
      split
      · rename_i poison
        refine ⟨⟨rfl,rows,op,List.mem_append_left _ read,member,rfl,?_⟩,fun _ => trivial⟩
        exact .inr (.inr (.inr ⟨poison,err,List.suffix_append _ _⟩))
      · trivial
  | skipped | stored | merged | conflictRecorded | applied =>
    exact ⟨⟨rfl,rows,op,read,member,rfl,.inr (.inr (.inl ⟨_,rfl,ran⟩))⟩,fun _ => trivial⟩

theorem processStatements_keeps (op : PendingOp) (rows : List PendingOp) (member : op ∈ rows) (log : List StatementEvent)
    (read : (⟨.pendingOps,rows⟩ : StatementEvent) ∈ log) : (processStatements op).Keeps (QueueAllowed .pass) log := by
  unfold processStatements
  split
  · rename_i kind
    refine ⟨trivial,fun mapped => ?_⟩
    cases mapped with
    | false =>
      refine ⟨⟨rfl,rows,op,List.mem_append_left _ read,member,rfl,?_⟩,fun _ => trivial⟩
      exact .inr (.inl ⟨kind,List.suffix_append _ _⟩)
    | true =>
      refine ⟨trivial,fun outcome => ?_⟩
      exact settleStatements_keeps op rows member _ (List.mem_append_left _ (List.mem_append_left _ read)) outcome
        (.inl ⟨kind,List.suffix_append _ _⟩)
  · rename_i kind
    refine ⟨trivial,fun outcome => ?_⟩
    exact settleStatements_keeps op rows member _ (List.mem_append_left _ read) outcome (.inr ⟨kind,List.suffix_append _ _⟩)
  · rename_i kind
    exact ⟨⟨rfl,rows,op,read,member,rfl,.inl kind⟩,fun _ => trivial⟩

theorem workThrough_keeps (rows left : List PendingOp) (inside : ∀ op ∈ left, op ∈ rows) (log : List StatementEvent)
    (read : (⟨.pendingOps,rows⟩ : StatementEvent) ∈ log) : (workThrough left).Keeps (QueueAllowed .pass) log := by
  induction left generalizing log with
  | nil => trivial
  | cons op rest ih =>
    refine ⟨trivial,fun going => ?_⟩
    have seen := List.mem_append_left [(⟨.goesOn,going⟩ : StatementEvent)] read
    cases going with
    | false => trivial
    | true =>
      apply Program.Keeps.bind (processStatements_keeps op rows (inside op List.mem_cons_self) _ seen)
      intro calls returned _
      cases returned with
      | false => trivial
      | true => exact ih (fun other member => inside other (List.mem_cons_of_mem _ member)) _ (List.mem_append_left _ seen)

theorem queueStart_keeps (request : QueueRequest) : (queueStart request).Keeps (QueueAllowed request) [] := by
  cases request with
  | enqueueOp kind relPath newRelPath now => exact ⟨⟨newRelPath,now,rfl⟩,fun _ => ⟨rfl,fun _ => trivial⟩⟩
  | pass =>
    refine ⟨trivial,fun rows => ?_⟩
    exact workThrough_keeps rows rows (fun _ member => member) _ (List.mem_singleton_self _)

/-! ### Every row keeps what it is -/

/-- Later ids are larger, and a row with an earlier row's id is that row. -/
def Precedes (earlier : QueueEntry) (table : OpTable) : Prop :=
  earlier.after.nextId ≤ table.nextId ∧ ∀ op ∈ earlier.before.rows, ∀ row ∈ table.rows, row.id = op.id →
    row.kind = op.kind ∧ row.relPath = op.relPath

theorem Precedes.execute {earlier : QueueEntry} {table : OpTable} (precedes : Precedes earlier table)
    (grows : earlier.before.nextId ≤ earlier.after.nextId) (env : Surroundings) (s : Statement) :
    Precedes earlier (execute env table s).2 := by
  refine ⟨Nat.le_trans precedes.1 (execute_nextId env table s),?_⟩
  intro op member row inside same
  rcases execute_rows env table s inside with ⟨old,there,id,kind,path⟩ | fresh
  · rw [← kind,← path]
    exact precedes.2 op member old there (id.trans same)
  · have bound := earlier.before.below op member
    have later := precedes.1
    omega

/-- A row has one kind and one path. -/
theorem rows_same_id (table : OpTable) {a b : PendingOp} (first : a ∈ table.rows) (second : b ∈ table.rows) (same : a.id = b.id) :
    a = b := by
  obtain ⟨i,bound,rfl⟩ := List.getElem_of_mem first
  obtain ⟨j,limit,rfl⟩ := List.getElem_of_mem second
  have ordered := List.pairwise_iff_getElem.mp table.ordered
  rcases Nat.lt_trichotomy i j with less | rfl | more
  · have order := ordered i j bound limit less
    omega
  · rfl
  · have order := ordered j i limit bound more
    omega

/-- Every call so far comes before what the table holds now, and before each later call. -/
def InOrder (l : QueueLedger) : Prop :=
  (∀ earlier ∈ l.history, Precedes earlier l.shared ∧ earlier.before.nextId ≤ earlier.after.nextId) ∧
    Ledger.Earlier (fun entry past => ∀ earlier ∈ past, Precedes earlier entry.before) l.history

theorem queueRun_precedes (table : OpTable) (moves : List (Move QueueRequest Surroundings)) :
    (∀ earlier ∈ (queueRun table moves).history, Precedes earlier (queueRun table moves).shared) ∧
      Ledger.Earlier (fun entry past => ∀ earlier ∈ past, Precedes earlier entry.before) (queueRun table moves).history := by
  have both : InOrder (queueRun table moves) := (Ledger.ledger_invariant (fun _ _ _ => True) (fun _ _ => True) InOrder
    (fun _ => trivial) (fun _ _ _ _ _ _ => trivial) (fun _ _ _ holds => holds) ?_ table moves
    ⟨nofun,Ledger.earlier_nil _⟩ (guarded_trivial _ _ _)).1
  · exact ⟨fun earlier member => (both.1 earlier member).1,both.2⟩
  intro l index env request s next log holds _ _ _ serves
  constructor
  · intro earlier member
    rcases List.mem_append.mp member with old | new
    · obtain ⟨precedes,grows⟩ := holds.1 earlier old
      exact ⟨precedes.execute grows env s,grows⟩
    · rw [List.mem_singleton.mp new]
      refine ⟨⟨Nat.le_refl _,?_⟩,execute_nextId env l.shared s⟩
      intro op there row inside same
      rcases execute_rows env l.shared s inside with ⟨old,before,id,kind,path⟩ | fresh
      · rw [← kind,← path,rows_same_id l.shared before there (id.trans same)]
        exact ⟨rfl,rfl⟩
      · have bound := l.shared.below op there
        omega
  · apply holds.2.snoc
    intro earlier member
    exact (holds.1 earlier member).1

/-! ### Removals -/

/-- The id that an INSERT gives its row. -/
def insertedId (entry : QueueEntry) : Option Nat :=
  match entry.event.op with
  | .insert .. => some entry.before.nextId
  | _ => none

/-- The `k`-th statement of the history removes the row for the worker, which has read
it after it was inserted and has processed it for a reason to remove it. -/
structure ProcessedRow (history : List QueueEntry) (k : Nat) (row : PendingOp) : Prop where
  removes : ∃ entry ∈ history[k]?, entry.request = .pass ∧ entry.event.op = .removeOp row.id ∧
    ∃ (j : Nat) (rows : List PendingOp) (op : PendingOp), j < k ∧
      (∃ snapshot ∈ history[j]?, snapshot.index = entry.index ∧ snapshot.event = ⟨.pendingOps,rows⟩) ∧
      (∀ m inserted, ∀ insert ∈ history[m]?, insertedId insert = some inserted → inserted ≤ row.id → m < j) ∧
      op ∈ rows ∧ op.id = row.id ∧ op.kind = row.kind ∧ op.relPath = row.relPath ∧
      Finished op (Ledger.callsOf (history.take k) entry.index)

/-- What a snapshot reads. -/
theorem snapshot_rows (table : OpTable) (moves : List (Move QueueRequest Surroundings)) {snapshot : QueueEntry}
    (member : snapshot ∈ (queueRun table moves).history) {rows : List PendingOp} (asked : snapshot.event = ⟨.pendingOps,rows⟩) :
    rows = snapshot.before.rows ∧ snapshot.after = snapshot.before := by
  obtain ⟨front,back,split⟩ := List.append_of_mem member
  obtain ⟨-,env,s,-,-,-,-,-,event,after⟩ := Ledger.entry_moment table moves front back snapshot split
  rw [asked] at event
  cases congrArg Event.op event
  exact ⟨(answer_of_event (fun op => (execute env snapshot.before op).1) event).symm,after⟩

/-- A row that is gone after a statement was deleted by `enqueueOp` for its own
kind and path, or by the worker that has processed it. -/
theorem queueRun_removed (table : OpTable) (moves : List (Move QueueRequest Surroundings)) (k : Nat) (entry : QueueEntry)
    (found : (queueRun table moves).history[k]? = some entry) (row : PendingOp) (member : row ∈ entry.before.rows)
    (gone : ∀ op ∈ entry.after.rows, op.id ≠ row.id) :
    (entry.event.op = .deleteSame row.kind row.relPath ∧
      ∃ newRelPath now, entry.request = .enqueueOp row.kind row.relPath newRelPath now) ∨
      ProcessedRow (queueRun table moves).history k row := by
  have allowed := (Ledger.ledger_disciplined QueueAllowed queueStart_keeps table moves).at found
  obtain ⟨-,earlier⟩ := queueRun_precedes table moves
  have past := earlier.at found
  obtain ⟨front,back,split⟩ : ∃ front back, (queueRun table moves).history = front ++ entry::back :=
    List.append_of_mem (List.mem_of_getElem? found)
  obtain ⟨before,env,s,next,log,-,-,-,event,after⟩ := Ledger.entry_moment table moves front back entry split
  have statement : entry.event.op = s := by rw [event]
  rw [statement] at allowed ⊢
  rcases execute_keeps env entry.before s member with ⟨kept,inside,id,-,-⟩ | same | removes
  · rw [← after] at inside
    exact absurd id (gone kept inside)
  · left
    rw [same] at allowed ⊢
    exact ⟨rfl,allowed⟩
  · right
    rw [removes] at allowed
    obtain ⟨worker,rows,op,read,there,id,finished⟩ := allowed
    obtain ⟨snapshot,inside,mine,asked⟩ := Ledger.mem_callsOf.mp read
    obtain ⟨rfl,same⟩ := snapshot_rows table moves (List.mem_of_mem_take inside) asked
    obtain ⟨j,limit,here⟩ := List.getElem_of_mem inside
    have order : j < k := Nat.lt_of_lt_of_le limit (List.length_take_le _ _)
    have there_j : (queueRun table moves).history[j]? = some snapshot := by
      rw [← List.getElem?_take_of_lt order,List.getElem?_eq_some_iff]
      exact ⟨limit,here⟩
    obtain ⟨kind,path⟩ := (past snapshot inside).2 op there row member id.symm
    refine ⟨entry,found,worker,by rw [statement,removes],j,_,op,order,⟨snapshot,there_j,mine,asked⟩,?_,there,id,kind.symm,path.symm,
      finished⟩
    intro m inserted insert at_m given below
    by_contra late
    rcases Nat.eq_or_lt_of_le (Nat.le_of_not_lt late) with rfl | after_j
    · cases Option.some.inj (there_j.symm.trans at_m)
      rw [insertedId,asked] at given
      contradiction
    · have later := (earlier.at at_m snapshot (Ledger.mem_take after_j there_j)).1
      have bound := snapshot.before.below op there
      have starts : insert.before.nextId = inserted := by
        unfold insertedId at given
        split at given
        · exact Option.some.inj given
        · contradiction
      rw [same] at later
      omega

/-! ### Nothing is lost -/

/-- After its DELETE an `enqueueOp` goes on with its INSERT. -/
theorem enqueue_inserts {kind other : OpKind} {relPath newRelPath path : Str} {now : Int} {log : List StatementEvent}
    {next : Unit → Statements Unit}
    (follows : (enqueueStatements kind relPath newRelPath now).Follows log (.call (.deleteSame other path) next)) :
    next () = .call (.insert kind relPath newRelPath now) fun _ => .done () := by
  cases log with
  | nil =>
    cases follows
    rfl
  | cons first log =>
    obtain ⟨answer,-,after⟩ := follows
    cases log with
    | nil => cases after
    | cons second log =>
      obtain ⟨answer,-,after⟩ := after
      cases log with
      | nil => cases after
      | cons third log => exact after.elim

/-- An operation of this kind and path with at least this id is queued, is about to be
inserted, or has been removed by its id. -/
def Outstanding (l : QueueLedger) (kind : OpKind) (relPath : Str) (id : Nat) : Prop :=
  (∃ op ∈ l.shared.rows, op.kind = kind ∧ op.relPath = relPath ∧ id ≤ op.id) ∨
  (∃ index newRelPath now next log,
    l.Serves index (.enqueueOp kind relPath newRelPath now) (.call (.insert kind relPath newRelPath now) next) log) ∨
  (∃ entry ∈ l.history, ∃ row ∈ entry.before.rows, entry.event.op = .removeOp row.id ∧
    row.kind = kind ∧ row.relPath = relPath ∧ id ≤ row.id)

theorem Outstanding.called {l : QueueLedger} {kind : OpKind} {relPath : Str} {id : Nat} (outstanding : Outstanding l kind relPath id)
    (reached : id ≤ l.shared.nextId) {index : Nat} {request : QueueRequest} {s : Statement} {next : s.Reply → Statements Unit}
    {log : List StatementEvent} (serves : l.Serves index request (.call s next) log) (allowed : QueueAllowed request log s)
    (follows : (queueStart request).Follows log (.call s next)) (env : Surroundings) :
    Outstanding (Ledger.called execute l index env request s next log) kind relPath id := by
  rcases outstanding with ⟨op,member,sameKind,samePath,later⟩ | ⟨other,newRelPath,now,rest,calls,waits⟩ |
    ⟨entry,member,row,there,removed⟩
  · rcases execute_keeps env l.shared s member with ⟨kept,inside,same,kind_,path_⟩ | deletes | removes
    · exact .inl ⟨kept,inside,kind_.trans sameKind,path_.trans samePath,by omega⟩
    · subst sameKind samePath deletes
      obtain ⟨newRelPath,now,rfl⟩ := allowed
      have bound : index < l.threads.length := (List.getElem?_eq_some_iff.mp serves.thread).1
      refine .inr (.inl ⟨index,newRelPath,now,fun _ => .done (),log ++ [⟨.deleteSame op.kind op.relPath,()⟩],serves.request,?_⟩)
      rw [← enqueue_inserts follows]
      exact List.getElem?_set_self bound
    · exact .inr (.inr ⟨_,List.mem_append_right _ (List.mem_singleton_self _),op,member,removes,sameKind,samePath,later⟩)
  · by_cases mine : index = other
    · subst mine
      cases waits.request.symm.trans serves.request
      cases waits.thread.symm.trans serves.thread
      exact .inl ⟨_,List.mem_append_right _ (List.mem_singleton_self _),rfl,rfl,reached⟩
    · refine .inr (.inl ⟨other,newRelPath,now,rest,calls,waits.request,?_⟩)
      exact (List.getElem?_set_ne mine).trans waits.thread
  · exact .inr (.inr ⟨entry,List.mem_append_left _ member,row,there,removed⟩)

theorem Outstanding.spawned {l : QueueLedger} {kind : OpKind} {relPath : Str} {id : Nat} (outstanding : Outstanding l kind relPath id)
    (request : QueueRequest) : Outstanding (Ledger.spawned queueStart l request) kind relPath id := by
  rcases outstanding with there | ⟨index,path,time,next,log,waits⟩ | removed
  · exact .inl there
  · refine .inr (.inl ⟨index,path,time,next,log,?_,?_⟩)
    · exact (List.getElem?_append_left (List.getElem?_eq_some_iff.mp waits.request).1).trans waits.request
    · exact (List.getElem?_append_left (List.getElem?_eq_some_iff.mp waits.thread).1).trans waits.thread
  · exact .inr (.inr removed)

/-- Every insertion so far is below the next id and still outstanding. -/
def InsertsKept (l : QueueLedger) : Prop :=
  ∀ insert ∈ l.history, insert.before.nextId ≤ l.shared.nextId ∧ ∀ kind relPath newRelPath now,
    insert.event.op = .insert kind relPath newRelPath now → Outstanding l kind relPath insert.before.nextId

theorem queueRun_outstanding (table : OpTable) (moves : List (Move QueueRequest Surroundings)) :
    ∀ insert ∈ (queueRun table moves).history, ∀ kind relPath newRelPath now,
      insert.event.op = .insert kind relPath newRelPath now →
        Outstanding (queueRun table moves) kind relPath insert.before.nextId := by
  have both : InsertsKept (queueRun table moves) := (Ledger.ledger_invariant
    (fun request program log => program.Keeps (QueueAllowed request) log ∧ (queueStart request).Follows log program)
    (fun _ _ => True) InsertsKept
    (fun request => ⟨queueStart_keeps request,rfl⟩)
    (fun request op next log stays result => ⟨stays.1.2 result,stays.2.snoc result rfl⟩) ?_ ?_ table moves nofun
    (guarded_trivial _ _ _)).1
  · exact fun insert member => (both insert member).2
  · intro l request logged holds insert member
    obtain ⟨reached,inserted⟩ := holds insert member
    exact ⟨reached,fun kind relPath newRelPath now inserts => (inserted kind relPath newRelPath now inserts).spawned request⟩
  · intro l index env request s next log holds served _ _ serves insert member
    obtain ⟨keeps,follows⟩ := served index request _ log serves
    have grows := execute_nextId env l.shared s
    rcases List.mem_append.mp member with old | new
    · obtain ⟨reached,inserted⟩ := holds insert old
      refine ⟨Nat.le_trans reached grows,fun kind relPath newRelPath now inserts => ?_⟩
      exact (inserted kind relPath newRelPath now inserts).called reached serves keeps.1 follows env
    · rw [List.mem_singleton.mp new]
      refine ⟨grows,?_⟩
      rintro kind relPath newRelPath now rfl
      exact .inl ⟨_,List.mem_append_right _ (List.mem_singleton_self _),rfl,rfl,Nat.le_refl _⟩

/-- A row that is removed by its id has been processed. -/
theorem queueRun_processed (table : OpTable) (moves : List (Move QueueRequest Surroundings)) {entry : QueueEntry}
    (member : entry ∈ (queueRun table moves).history) {row : PendingOp} (there : row ∈ entry.before.rows)
    (removes : entry.event.op = .removeOp row.id) : ∃ k, ProcessedRow (queueRun table moves).history k row := by
  obtain ⟨k,bound,here⟩ := List.getElem_of_mem member
  have found : (queueRun table moves).history[k]? = some entry := List.getElem?_eq_some_iff.mpr ⟨bound,here⟩
  have gone : ∀ op ∈ entry.after.rows, op.id ≠ row.id := by
    obtain ⟨front,back,split⟩ := List.append_of_mem member
    obtain ⟨-,env,s,-,-,-,-,-,event,after⟩ := Ledger.entry_moment table moves front back entry split
    have statement : s = .removeOp row.id := by rw [← removes,event]
    subst statement
    intro op left
    rw [after] at left
    simpa using (List.mem_filter.mp left).2
  rcases queueRun_removed table moves k entry found row there gone with ⟨deletes,-⟩ | processed
  · rw [removes] at deletes
    contradiction
  · exact ⟨k,processed⟩

/-- An `enqueueOp` that has returned has inserted its row. -/
theorem queueRun_inserted (table : OpTable) (moves : List (Move QueueRequest Surroundings)) {index : Nat} {kind : OpKind}
    {relPath newRelPath : Str} {now : Int} {log : List StatementEvent}
    (returned : (queueRun table moves).Serves index (.enqueueOp kind relPath newRelPath now) (.done ()) log) :
    ∃ insert ∈ (queueRun table moves).history, insert.index = index ∧ insert.event.op = .insert kind relPath newRelPath now := by
  have follows := Ledger.ledger_follows queueStart execute table moves index _ _ log returned
  obtain ⟨_,_,rfl,done,_,rfl,_⟩ := Program.Follows.yields follows
  have calls : _ = Ledger.callsOf (queueRun table moves).history index :=
    (Ledger.run_logged queueStart execute table moves).logs index _ _ _ returned
  have member : (⟨.insert kind relPath newRelPath now,done⟩ : StatementEvent) ∈ Ledger.callsOf (queueRun table moves).history index := by
    rw [← calls]
    simp
  obtain ⟨insert,inside,mine,same⟩ := Ledger.mem_callsOf.mp member
  exact ⟨insert,inside,mine,congrArg Event.op same⟩

/-- Any interleaving of `enqueueOp`s with the worker: a row is removed by a later
`enqueueOp` for its kind and path, or by the worker that has read and processed this
very row; an operation once inserted is still queued, is about to be inserted again,
or has been processed from a snapshot that was taken after its insert; and an
`enqueueOp` that has returned has inserted its operation. -/
theorem queued_operations_kept (table : OpTable) (moves : List (Move QueueRequest Surroundings)) :
    (∀ k, ∀ entry ∈ (queueRun table moves).history[k]?, ∀ row ∈ entry.before.rows, (∀ op ∈ entry.after.rows, op.id ≠ row.id) →
      (entry.event.op = .deleteSame row.kind row.relPath ∧
        ∃ newRelPath now, entry.request = .enqueueOp row.kind row.relPath newRelPath now) ∨
      ProcessedRow (queueRun table moves).history k row) ∧
    (∀ insert ∈ (queueRun table moves).history, ∀ kind relPath newRelPath now,
      insert.event.op = .insert kind relPath newRelPath now →
      (∃ op ∈ (queueRun table moves).shared.rows, op.kind = kind ∧ op.relPath = relPath ∧ insert.before.nextId ≤ op.id) ∨
      (∃ index newRelPath now next log, (queueRun table moves).Serves index (.enqueueOp kind relPath newRelPath now)
        (.call (.insert kind relPath newRelPath now) next) log) ∨
      ∃ k row, ProcessedRow (queueRun table moves).history k row ∧ row.kind = kind ∧ row.relPath = relPath ∧
        insert.before.nextId ≤ row.id) ∧
    ∀ index kind relPath newRelPath now log,
      (queueRun table moves).Serves index (.enqueueOp kind relPath newRelPath now) (.done ()) log →
      ∃ insert ∈ (queueRun table moves).history, insert.index = index ∧ insert.event.op = .insert kind relPath newRelPath now := by
  refine ⟨?_,?_,fun _ _ _ _ _ _ returned => queueRun_inserted table moves returned⟩
  · exact fun k entry found row member gone => queueRun_removed table moves k entry found row member gone
  · intro insert member kind relPath newRelPath now inserts
    rcases queueRun_outstanding table moves insert member kind relPath newRelPath now inserts with
      there | waits | ⟨entry,inside,row,before,removes,same⟩
    · exact .inl there
    · exact .inr (.inl waits)
    · obtain ⟨k,processed⟩ := queueRun_processed table moves inside before removes
      exact .inr (.inr ⟨k,row,processed,same⟩)

/-- A second save while the upload of the first is in flight. -/
private def editInFlight : List (Move QueueRequest Surroundings) :=
  let save := Move.spawn (.enqueueOp .upload (lit "root:notes.txt") [] 0)
  let step := fun thread => Move.step thread ⟨true,.stored⟩
  [save,step 0,step 0,.spawn .pass,step 1,step 1,step 1,save,step 2,step 2,step 1,step 1]

example : (queueRun ⟨[],1,.nil,nofun⟩ editInFlight).shared.rows.map (·.id) = [2] := by decide

end NPSync.Engine
