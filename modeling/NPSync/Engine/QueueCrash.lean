import NPSync.Library.Lifetimes
import NPSync.Engine.OpQueue

/-! The queue when the process dies. Each statement takes effect on its own, so what the
next start finds is the table as the last statement left it. -/
namespace NPSync.Engine.QueueCrash
open Library

/-- A statement that SQLite carries out, or one that fails and changes nothing; `enqueueOp`
goes on after a failed DELETE. -/
def attempt (env : Surroundings) (works : Bool) (table : OpTable) (s : Statement) : s.Reply × OpTable :=
  if works then execute env table s else ((execute env table s).1,table)

/-- What is found after an `enqueueOp` of which as many statements are run as there are fates. -/
def foundAfter (env : Surroundings) (table : OpTable) (kind : OpKind) (relPath newRelPath : Str) (now : Int)
    (fates : List Bool) : OpTable :=
  ((enqueueStatements kind relPath newRelPath now).lives (attempt env) fates table).2

theorem foundAfter_completed (env : Surroundings) (table : OpTable) (kind : OpKind) (relPath newRelPath : Str) (now : Int) :
    foundAfter env table kind relPath newRelPath now [true,true] =
      ((enqueueStatements kind relPath newRelPath now).run (execute env) table).2 := rfl

/-- An operation of this kind and path is queued, with at least this id. -/
def Holds (table : OpTable) (kind : OpKind) (relPath : Str) (id : Nat) : Prop :=
  ∃ op ∈ table.rows, op.kind = kind ∧ op.relPath = relPath ∧ id ≤ op.id

/-- Whatever was queued for the path and kind of the new operation is still there, or the new one is. -/
def Survives (before found : OpTable) (newer : PendingOp) : Prop :=
  ∀ old ∈ before.rows, old.kind = newer.kind → old.relPath = newer.relPath → old ∈ found.rows ∨ newer ∈ found.rows

/-- The DELETE has taken effect, and the INSERT has not: it failed, or the process died before it. -/
def Halved (fates : List Bool) : Prop := fates[0]? = some true ∧ fates[1]? ≠ some true

theorem survives_self (table : OpTable) (newer : PendingOp) : Survives table table newer := fun _ member _ _ => .inl member

theorem survives_inserted {before found : OpTable} {newer : PendingOp} (inserted : newer ∈ found.rows) :
    Survives before found newer := fun _ _ _ _ => .inr inserted

/-- After the DELETE alone the queue has nothing of the kind and path. -/
theorem survives_deleted (table : OpTable) (newer : PendingOp) (fresh : newer.id = table.nextId) :
    Survives table (table.keep fun op => !decide (op.relPath = newer.relPath ∧ op.kind = newer.kind)) newer ↔
      ¬Holds table newer.kind newer.relPath 0 := by
  constructor
  · rintro survives ⟨old,member,kind,path,-⟩
    rcases survives old member kind path with kept | inserted
    · simpa [kind,path] using (List.mem_filter.mp kept).2
    · have below := table.below newer (List.mem_of_mem_filter inserted)
      omega
  · intro none old member kind path
    exact absurd ⟨old,member,kind,path,Nat.zero_le _⟩ none

theorem foundAfter_survives_iff (env : Surroundings) (table : OpTable) (kind : OpKind) (relPath newRelPath : Str) (now : Int)
    (fates : List Bool) :
    Survives table (foundAfter env table kind relPath newRelPath now fates) ⟨table.nextId,kind,relPath,newRelPath,now,0,[]⟩ ↔
      ¬(Halved fates ∧ Holds table kind relPath 0) := by
  let newer : PendingOp := ⟨table.nextId,kind,relPath,newRelPath,now,0,[]⟩
  have deleted := survives_deleted table newer rfl
  have halved : ∀ {rest : List Bool}, rest[0]? ≠ some true → (Survives table (table.keep fun op =>
      !decide (op.relPath = relPath ∧ op.kind = kind)) newer ↔ ¬(Halved (true::rest) ∧ Holds table kind relPath 0)) := by
    intro rest unfinished
    rw [deleted]
    exact not_congr (and_iff_right ⟨rfl,unfinished⟩).symm
  have kept : ∀ {rest : List Bool}, ¬(Halved (false::rest) ∧ Holds table kind relPath 0) := fun both =>
    absurd both.1.1 (by simp)
  rcases fates with _ | ⟨_ | _,_ | ⟨_ | _,rest⟩⟩
  all_goals simp only [foundAfter,enqueueStatements,Program.lives_died,Program.lives_call,Program.lives_done]
  · exact iff_of_true (survives_self table newer) fun both => absurd both.1.1 (by simp)
  · exact iff_of_true (survives_self table newer) kept
  · exact iff_of_true (survives_self table newer) kept
  · exact iff_of_true (survives_inserted (List.mem_append_right _ (List.mem_singleton_self _))) kept
  · exact halved (by simp)
  · exact halved (by simp)
  · exact iff_of_true (survives_inserted (List.mem_append_right _ (List.mem_singleton_self _))) fun both => both.1.2 rfl

/-! ### Lives of the process -/

/-- A thread stands between its DELETE and its INSERT. -/
def Replacing (l : QueueLedger) (kind : OpKind) (relPath : Str) : Prop :=
  ∃ index newRelPath now next log,
    l.Serves index (.enqueueOp kind relPath newRelPath now) (.call (.insert kind relPath newRelPath now) next) log

/-- The operation was accepted in this life. -/
def Accepted (l : QueueLedger) (kind : OpKind) (relPath : Str) (id : Nat) : Prop :=
  ∃ insert ∈ l.history, ∃ newRelPath now, insert.event.op = .insert kind relPath newRelPath now ∧ insert.before.nextId = id

/-- The worker has processed the operation or a later one for its kind and path. -/
def Processed (l : QueueLedger) (kind : OpKind) (relPath : Str) (id : Nat) : Prop :=
  ∃ k row, ProcessedRow l.history k row ∧ row.kind = kind ∧ row.relPath = relPath ∧ id ≤ row.id

/-- What is queued when a life begins is outstanding at every moment of it. -/
theorem queueRun_held (table : OpTable) (moves : List (Move QueueRequest Surroundings)) {kind : OpKind} {relPath : Str} {id : Nat}
    (held : Holds table kind relPath id) : Outstanding (queueRun table moves) kind relPath id := by
  have both : id ≤ (queueRun table moves).shared.nextId ∧ Outstanding (queueRun table moves) kind relPath id :=
    (Ledger.ledger_invariant
      (fun request program log => program.Keeps (QueueAllowed request) log ∧ (queueStart request).Follows log program)
      (fun _ _ => True) (fun l => id ≤ l.shared.nextId ∧ Outstanding l kind relPath id)
      (fun request => ⟨queueStart_keeps request,rfl⟩)
      (fun request op next log stays result => ⟨stays.1.2 result,stays.2.snoc result rfl⟩)
      (fun l request _ holds => ⟨holds.1,holds.2.spawned request⟩) ?_ table moves ?_ (guarded_trivial _ _ _)).1
  · exact both.2
  · intro l index env request s next log holds served _ _ serves
    obtain ⟨keeps,follows⟩ := served index request _ log serves
    exact ⟨Nat.le_trans holds.1 (execute_nextId env l.shared s),holds.2.called holds.1 serves keeps.1 follows env⟩
  · obtain ⟨op,member,sameKind,samePath,later⟩ := held
    exact ⟨Nat.le_of_lt (Nat.lt_of_le_of_lt later (table.below op member)),.inl ⟨op,member,sameKind,samePath,later⟩⟩

/-- A life that does not end in the middle of a replacement leaves what it took over or accepted. -/
theorem queueRun_leaves (table : OpTable) (moves : List (Move QueueRequest Surroundings)) {kind : OpKind} {relPath : Str} {id : Nat}
    (taken : Holds table kind relPath id ∨ Accepted (queueRun table moves) kind relPath id)
    (whole : ¬Replacing (queueRun table moves) kind relPath) :
    Holds (queueRun table moves).shared kind relPath id ∨ Processed (queueRun table moves) kind relPath id := by
  have outstanding : Outstanding (queueRun table moves) kind relPath id := by
    rcases taken with held | ⟨insert,member,newRelPath,now,inserts,rfl⟩
    · exact queueRun_held table moves held
    · exact queueRun_outstanding table moves insert member kind relPath newRelPath now inserts
  rcases outstanding with there | waits | ⟨entry,inside,row,before,removes,same⟩
  · exact .inl there
  · exact absurd waits whole
  · obtain ⟨k,processed⟩ := queueRun_processed table moves inside before removes
    exact .inr ⟨k,row,processed,same⟩

/-- An `enqueueOp` loses what was queued exactly when its DELETE takes effect and its INSERT does
not. Over any number of lives, each with any interleaving of calls and ended anywhere but in
the middle of such a replacement, an accepted operation is still queued, as it was or
replaced by a later one, or has been processed. -/
theorem queue_survives_crash_iff (table : OpTable) (kind : OpKind) (relPath : Str) :
    (∀ (env : Surroundings) (newRelPath : Str) (now : Int) (fates : List Bool),
      Survives table (foundAfter env table kind relPath newRelPath now fates) ⟨table.nextId,kind,relPath,newRelPath,now,0,[]⟩ ↔
        ¬(Halved fates ∧ Holds table kind relPath 0)) ∧
    ∀ (lives : List (List (Move QueueRequest Surroundings))) (id : Nat),
      (∀ one ∈ Ledger.lifetimes queueStart execute table lives, ¬Replacing one kind relPath) →
      (Holds table kind relPath id ∨ ∃ one ∈ Ledger.lifetimes queueStart execute table lives, Accepted one kind relPath id) →
      Holds (Ledger.remains queueStart execute table lives) kind relPath id ∨
        ∃ one ∈ Ledger.lifetimes queueStart execute table lives, Processed one kind relPath id := by
  refine ⟨fun env newRelPath now fates => foundAfter_survives_iff env table kind relPath newRelPath now fates,?_⟩
  intro lives id whole taken
  exact Ledger.remains_kept queueStart execute (Holds · kind relPath id) (Accepted · kind relPath id) (Processed · kind relPath id)
    (¬Replacing · kind relPath) (fun state moves => queueRun_leaves state moves) table lives whole taken

/-- A save that is queued. -/
def savedOnce : OpTable :=
  (execute ⟨true,.stored⟩ ⟨[],1,.nil,nofun⟩ (.insert .upload (lit "root:notes.txt") [] 0)).2

def saveAgain : Move QueueRequest Surroundings := .spawn (.enqueueOp .upload (lit "root:notes.txt") [] 7)

theorem saved_once_held : Holds savedOnce .upload (lit "root:notes.txt") 1 :=
  ⟨_,List.mem_singleton_self _,rfl,rfl,Nat.le_refl _⟩

/-- The second save is queued in one life, and dies before its first statement in the next. -/
theorem saved_again_survives :
    Survives savedOnce (foundAfter ⟨true,.stored⟩ savedOnce .upload (lit "root:notes.txt") [] 7 [])
      ⟨2,.upload,lit "root:notes.txt",[],7,0,[]⟩ ∧
    let lives := [[saveAgain,.step 0 ⟨true,.stored⟩,.step 0 ⟨true,.stored⟩],[saveAgain]]
    Holds (Ledger.remains queueStart execute savedOnce lives) .upload (lit "root:notes.txt") 1 ∨
      ∃ one ∈ Ledger.lifetimes queueStart execute savedOnce lives, Processed one .upload (lit "root:notes.txt") 1 := by
  obtain ⟨exactly,kept⟩ := queue_survives_crash_iff savedOnce .upload (lit "root:notes.txt")
  refine ⟨(exactly _ _ _ _).mpr fun both => absurd both.1.1 (by simp),?_⟩
  apply kept _ 1 _ (.inl saved_once_held)
  intro one member
  rcases List.mem_cons.mp member with rfl | member
  · -- the one thread of the first life has ended
    rintro ⟨_ | index,newRelPath,now,next,log,serves⟩
    · cases serves.thread
    · cases serves.thread
  · -- in the second life it still stands before its DELETE
    rw [List.mem_singleton.mp member]
    rintro ⟨_ | index,newRelPath,now,next,log,serves⟩
    · cases serves.thread
    · cases serves.thread

/-- Killed between the two statements of the second save, the process leaves an empty queue. -/
theorem killed_save_loses :
    (foundAfter ⟨true,.stored⟩ savedOnce .upload (lit "root:notes.txt") [] 7 [true]).rows = [] ∧
    ¬Survives savedOnce (foundAfter ⟨true,.stored⟩ savedOnce .upload (lit "root:notes.txt") [] 7 [true])
      ⟨2,.upload,lit "root:notes.txt",[],7,0,[]⟩ := by
  have empty : (foundAfter ⟨true,.stored⟩ savedOnce .upload (lit "root:notes.txt") [] 7 [true]).rows = [] := by decide
  refine ⟨empty,fun survives => ?_⟩
  rcases survives _ (List.mem_singleton_self _) rfl rfl with kept | inserted
  · rw [empty] at kept
    contradiction
  · rw [empty] at inserted
    contradiction

end NPSync.Engine.QueueCrash
