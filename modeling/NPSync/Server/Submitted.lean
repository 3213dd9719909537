import NPSync.KnownAnswers
import NPSync.Library.Ledger
import NPSync.Server.Calls
import NPSync.Server.VersionChain

/-! Which body a request is writing. POST and PUT have one; a batch goes through its
uploads, and the calls that a request has made tell which of them is under way. -/
namespace NPSync.Server
open Library

def Request.context : Request → Context
  | .post ctx _ | .put ctx _ _ | .delete ctx _ | .restore ctx _ _ | .batch ctx _ _ | .get ctx _ | .poll ctx _ => ctx

/-- After an accepted write of a batch the record is published, after a conflict the head
is read again. -/
def afterWrite : List CallEvent → Option (List CallEvent)
  | ⟨.createFile _,.ok _⟩::log => log.tail?
  | ⟨.updateFile ..,.ok _⟩::log => log.tail?
  | ⟨.updateFile ..,.error .conflict⟩::log => log.tail?
  | _::log => some log
  | [] => none

def afterRead : List CallEvent → Option (List CallEvent)
  | ⟨.getFile ..,.ok _⟩::log => afterWrite log
  | ⟨.getFile ..,.error .notFound⟩::log => afterWrite log
  | _::log => some log
  | [] => none

/-- The calls that follow those of the upload, once it is done. -/
def afterUpload (u : FileJSON) : List CallEvent → Option (List CallEvent)
  | [] => none
  | first::log => if u.deleted then afterRead (first::log) else
      match first with
      | ⟨.putBlob ..,true⟩ => afterRead log
      | _ => some log

section
variable (prim : Primitives) (cfg : Config)

/-- The upload of a batch that the calls have not finished. -/
def underWay : List FileJSON → List CallEvent → Option FileJSON
  | [],_ => none
  | u::rest,log =>
    match validateIncomingFile prim cfg u with
    | some _ => underWay rest log
    | none =>
      match afterUpload u log with
      | none => some u
      | some later => underWay rest later

/-- The body that the request writes next. -/
def submitted : Request → List CallEvent → Option FileJSON
  | .post _ req,_ => some req
  | .put _ fileID req,_ => some {req with fileID := fileID}
  | .batch _ uploads _,log => underWay prim cfg uploads log
  | _,_ => none

/-- The record of a write is that of the submitted body, the tombstone of a head that was
read or a version put on top of one. -/
inductive WriteOf (request : Request) (log : List CallEvent) : FileRecord → Int → Prop
  | body (u : FileJSON) (writing : submitted prim cfg request log = some u) :
    WriteOf request log (recordFromRequest request.context u) u.baseVersion
  | delete (fileID : Str) (cur : FileRecord) (asked : request = .delete request.context fileID)
      (read : ⟨.getFile request.context.accountID fileID,.ok cur⟩ ∈ log) :
    WriteOf request log (tombstone request.context cur) cur.version
  | restore (fileID : Str) (version : Int) (v : VersionRecord) (cur : FileRecord)
      (asked : request = .restore request.context fileID version)
      (found : ⟨.getVersion request.context.accountID fileID version,.ok v⟩ ∈ log)
      (read : ⟨.getFile request.context.accountID fileID,.ok cur⟩ ∈ log) :
    WriteOf request log (restored request.context fileID v cur) cur.version

/-- Every write of the request is of what it was sent. -/
def WriteAllowed (request : Request) (log : List CallEvent) : Call → Prop
  | .createFile rec => ∃ u, submitted prim cfg request log = some u ∧ rec = recordFromRequest request.context u
  | .updateFile rec base => WriteOf prim cfg request log rec base
  | _ => True

end

/-! ### The uploads of a batch in their order -/

section
variable (prim : Primitives) (cfg : Config) (ctx : Context) (uploads : List FileJSON) (downloads : List Str)

/-- The calls have finished all uploads but the rest. -/
def Finished (log : List CallEvent) (rest : List FileJSON) : Prop :=
  ∀ more, underWay prim cfg uploads (log ++ more) = underWay prim cfg rest more

variable {prim cfg uploads}

theorem Finished.skip {log : List CallEvent} {u : FileJSON} {rest : List FileJSON}
    (finished : Finished prim cfg uploads log (u::rest)) {err : APIError} (invalid : validateIncomingFile prim cfg u = some err) :
    Finished prim cfg uploads log rest := by
  intro more
  rw [finished more,underWay]
  simp only [invalid]

/-- The calls finish the upload, whatever follows. -/
theorem Finished.done {log calls : List CallEvent} {u : FileJSON} {rest : List FileJSON}
    (finished : Finished prim cfg uploads log (u::rest)) (valid : validateIncomingFile prim cfg u = none)
    (ends : ∀ more, afterUpload u (calls ++ more) = some more) : Finished prim cfg uploads (log ++ calls) rest := by
  intro more
  rw [List.append_assoc,finished (calls ++ more),underWay]
  simp only [valid,ends more]

theorem Finished.writing {log calls : List CallEvent} {u : FileJSON} {rest : List FileJSON}
    (finished : Finished prim cfg uploads log (u::rest)) (valid : validateIncomingFile prim cfg u = none)
    (opens : afterUpload u calls = none) : underWay prim cfg uploads (log ++ calls) = some u := by
  rw [finished calls,underWay]
  simp only [valid,opens]

/-- The tail of one upload after the answer of its write. -/
private theorem finishUpload_writes {u : FileJSON} {rest : List FileJSON} {log : List CallEvent} (calls : List CallEvent)
    (finished : Finished prim cfg uploads log (u::rest)) (valid : validateIncomingFile prim cfg u = none)
    (next : BatchResultItem → Handler)
    (continues : ∀ item log, Finished prim cfg uploads log rest → (next item).Keeps (WriteAllowed prim cfg (.batch ctx uploads downloads)) log)
    (outcome : Except StoreError FileRecord)
    (fails : ∀ err, outcome = .error err → ∀ more, afterUpload u (calls ++ more) = some more)
    (publishes : ∀ out event, outcome = .ok out → ∀ more, afterUpload u (calls ++ [event] ++ more) = some more) :
    (finishUpload ctx u outcome next).Keeps (WriteAllowed prim cfg (.batch ctx uploads downloads)) (log ++ calls) := by
  cases outcome with
  | error err => exact continues _ _ (finished.done valid (fails err rfl))
  | ok out =>
    refine ⟨trivial,fun result => continues _ _ ?_⟩
    rw [List.append_assoc]
    exact finished.done valid (publishes out _ rfl)

/-- One upload, once its blob is stored by the given calls. -/
private theorem storedUpload_writes {u : FileJSON} {rest : List FileJSON} {log calls : List CallEvent}
    (finished : Finished prim cfg uploads log (u::rest)) (valid : validateIncomingFile prim cfg u = none)
    (stored : ∀ more, afterUpload u (calls ++ more) = afterRead more) (next : BatchResultItem → Handler)
    (continues : ∀ item log, Finished prim cfg uploads log rest → (next item).Keeps (WriteAllowed prim cfg (.batch ctx uploads downloads)) log) :
    (Program.call (.getFile ctx.accountID u.fileID) fun
      | .error .notFound => .call (.createFile (recordFromRequest ctx u)) fun outcome =>
        finishUpload ctx u outcome next
      | .error err => finishUpload ctx u (.error err) next
      | .ok _ => .call (.updateFile (recordFromRequest ctx u) u.baseVersion) fun
        | .error .conflict => .call (.getFile ctx.accountID u.fileID) fun
          | .ok cur => next (failedItem u.fileID "conflict" (some (toFileJSON cur [])))
          | .error _ => finishUpload ctx u (.error .conflict) next
        | outcome => finishUpload ctx u outcome next : Handler).Keeps
      (WriteAllowed prim cfg (.batch ctx uploads downloads)) (log ++ calls) := by
  have finish := fun calls => finishUpload_writes ctx downloads calls finished valid next continues
  have after : ∀ (first : CallEvent) (more : List CallEvent), afterUpload u (calls ++ [first] ++ more) = afterRead (first::more) := by
    intro first more
    rw [List.append_assoc]
    exact stored _
  have writing : ∀ (read : CallEvent), afterRead [read] = none →
      underWay prim cfg uploads (log ++ calls ++ [read]) = some u := by
    intro read opens
    rw [List.append_assoc]
    refine finished.writing valid ?_
    rw [stored]
    exact opens
  refine ⟨trivial,fun read => ?_⟩
  rw [List.append_assoc]
  rcases read with err | current
  · cases err with
    | notFound =>
      refine ⟨⟨u,?_,rfl⟩,fun outcome => ?_⟩
      · rw [← List.append_assoc]
        exact writing _ rfl
      rw [List.append_assoc]
      refine finish _ outcome ?_ ?_
      · rintro err rfl more
        simp [stored,afterRead,afterWrite]
      · rintro out event rfl more
        simp [stored,afterRead,afterWrite]
    | conflict => exact finish _ _ (fun _ _ more => after _ more) (fun _ _ same => by contradiction)
    | duplicate => exact finish _ _ (fun _ _ more => after _ more) (fun _ _ same => by contradiction)
  · refine ⟨.body u ?_,fun outcome => ?_⟩
    · rw [← List.append_assoc]
      exact writing _ rfl
    rw [List.append_assoc]
    rcases outcome with err | out
    · cases err with
      | conflict =>
        refine ⟨trivial,fun again => ?_⟩
        have done : Finished prim cfg uploads (log ++ (calls ++ [⟨.getFile ctx.accountID u.fileID,.ok current⟩] ++
            [⟨.updateFile (recordFromRequest ctx u) u.baseVersion,.error .conflict⟩] ++
            [⟨.getFile ctx.accountID u.fileID,again⟩])) rest :=
          finished.done valid fun more => by simp [stored,afterRead,afterWrite]
        rw [List.append_assoc]
        cases again with
        | ok cur => exact continues _ _ done
        | error err => exact continues _ _ done
      | notFound =>
        refine finish _ _ ?_ (fun _ _ same => by contradiction)
        intro _ _ more
        simp [stored,afterRead,afterWrite]
      | duplicate =>
        refine finish _ _ ?_ (fun _ _ same => by contradiction)
        intro _ _ more
        simp [stored,afterRead,afterWrite]
    · refine finish _ _ (fun _ same => by contradiction) ?_
      intro _ event _ more
      simp [stored,afterRead,afterWrite]

theorem batchUpload_writes {u : FileJSON} {rest : List FileJSON} {log : List CallEvent}
    (finished : Finished prim cfg uploads log (u::rest)) (next : BatchResultItem → Handler)
    (continues : ∀ item log, Finished prim cfg uploads log rest → (next item).Keeps (WriteAllowed prim cfg (.batch ctx uploads downloads)) log) :
    (batchUpload prim cfg ctx u next).Keeps (WriteAllowed prim cfg (.batch ctx uploads downloads)) log := by
  unfold batchUpload
  split
  · next invalid => exact continues _ _ (finished.skip invalid)
  next valid =>
    unfold storeBlob
    by_cases deleted : u.deleted = true
    · rw [if_pos deleted]
      have stored : ∀ more, afterUpload u ([] ++ more) = afterRead more := by
        intro more
        cases more with
        | nil => rfl
        | cons first others => simp [afterUpload,deleted]
      have keeps := storedUpload_writes ctx downloads finished valid stored next continues
      rwa [List.append_nil] at keeps
    · rw [if_neg deleted]
      refine ⟨trivial,fun stored => ?_⟩
      cases stored with
      | false => exact continues _ _ (finished.done valid fun more => by simp [afterUpload,deleted])
      | true => exact storedUpload_writes ctx downloads finished valid (fun more => by simp [afterUpload,deleted]) next continues

theorem batchUploads_writes {rest : List FileJSON} {log : List CallEvent} (finished : Finished prim cfg uploads log rest)
    (results : List BatchResultItem) (next : List BatchResultItem → Handler)
    (quiet : ∀ results log, (next results).Keeps (WriteAllowed prim cfg (.batch ctx uploads downloads)) log) :
    (batchUploads prim cfg ctx rest results next).Keeps (WriteAllowed prim cfg (.batch ctx uploads downloads)) log := by
  induction rest generalizing results log with
  | nil => exact quiet results log
  | cons u others ih => exact batchUpload_writes ctx downloads finished _ fun item log done => ih done _

end

/-! ### All requests -/

section
variable (prim : Primitives) (cfg : Config)

theorem handle_writes (request : Request) : (handle prim cfg request).Keeps (WriteAllowed prim cfg request) [] := by
  have quiet : ∀ call, call.quiet = true → ∀ log, WriteAllowed prim cfg request log call := by
    intro call other log
    cases call with
    | createFile rec => contradiction
    | updateFile rec base => contradiction
    | _ => trivial
  have keeps : ∀ (program : Handler) log, program.Only (fun call => ∀ log, WriteAllowed prim cfg request log call) →
      program.Keeps (WriteAllowed prim cfg request) log :=
    fun program log only => only.keeps (fun log call holds => holds log) log
  cases request with
  | post ctx req =>
    exact keeps _ _ (handleCreateFile_only quiet prim cfg ctx req (fun _ _ _ => trivial) fun _ _ => ⟨req,rfl,rfl⟩)
  | put ctx fileID req =>
    exact keeps _ _ (handleUpdateFile_only quiet prim cfg ctx fileID req (fun _ _ _ => trivial)
      fun _ _ => .body {req with fileID := fileID} rfl)
  | delete ctx fileID =>
    refine ⟨trivial,fun read => ?_⟩
    cases read with
    | error err => trivial
    | ok cur =>
      refine ⟨.delete fileID cur rfl (by simp [Request.context]),fun result => ?_⟩
      cases result with
      | error err => trivial
      | ok updated => exact ⟨trivial,fun _ => trivial⟩
  | restore ctx fileID version =>
    refine ⟨trivial,fun found => ?_⟩
    cases found with
    | error err => trivial
    | ok v =>
      refine ⟨trivial,fun read => ?_⟩
      cases read with
      | error err => trivial
      | ok cur =>
        refine ⟨.restore fileID version v cur rfl (by simp [Request.context]) (by simp [Request.context]),fun result => ?_⟩
        cases result with
        | error err => trivial
        | ok updated => exact ⟨trivial,fun _ => trivial⟩
  | batch ctx uploads downloads =>
    show (handleBatch prim cfg ctx uploads downloads).Keeps _ []
    unfold handleBatch
    split
    · trivial
    · refine batchUploads_writes ctx downloads (fun more => rfl) [] _ fun results log => keeps _ log ?_
      exact batchDownloads_only quiet ctx downloads results _ fun results => trivial
  | get ctx fileID => exact keeps _ _ (handleGetFile_only quiet ctx fileID)
  | poll ctx since => exact ⟨trivial,fun _ => trivial⟩

/-! ### The version chain -/

/-- The server with its history, started empty, after any schedule of any requests. -/
def serverLedger (moves : List (Move Request Bool)) : Ledger State Call Call.Result Response Request :=
  run (Ledger.move (handle prim cfg) exec) (Ledger.initial State.empty) moves

/-- The file, the kind and the origin device of an accepted write are those of the request
that made it. -/
structure RowOf (request : Request) (log : List CallEvent) (row : Str × Str × Int × ChangeKind × Str) : Prop where
  device : row.2.2.2.2 = request.context.deviceID
  kind : (∃ u, submitted prim cfg request log = some u ∧ row.2.1 = u.fileID ∧ row.2.2.2.1 = Mem.kindOf u.deleted) ∨
    (∃ fileID, request = .delete request.context fileID ∧ row.2.2.2.1 = .delete) ∨
    ∃ fileID version v, request = .restore request.context fileID version ∧ row.2.1 = fileID ∧
      ⟨.getVersion request.context.accountID fileID version,.ok v⟩ ∈ log ∧ row.2.2.2.1 = Mem.kindOf v.deleted

theorem WriteAllowed.row {request : Request} {log : List CallEvent} {event : CallEvent}
    (allowed : WriteAllowed prim cfg request log event.op) {row : Str × Str × Int × ChangeKind × Str}
    (accepted : acceptedWrite event = some row) : RowOf prim cfg request log row := by
  rcases event with ⟨op,result⟩
  cases op with
  | createFile rec =>
    obtain ⟨u,writing,rfl⟩ := allowed
    cases result with
    | error err => contradiction
    | ok head =>
      obtain rfl := Option.some.inj accepted
      exact ⟨rfl,.inl ⟨u,writing,rfl,rfl⟩⟩
  | updateFile rec base =>
    cases result with
    | error err => contradiction
    | ok head =>
      obtain rfl := Option.some.inj accepted
      cases allowed with
      | body u writing => exact ⟨rfl,.inl ⟨u,writing,rfl,rfl⟩⟩
      | delete fileID cur asked read => exact ⟨rfl,.inr (.inl ⟨fileID,asked,rfl⟩)⟩
      | restore fileID version v cur asked found read =>
        exact ⟨rfl,.inr (.inr ⟨fileID,version,v,asked,rfl,found,rfl⟩)⟩
  | _ => contradiction

/-- Every reachable state of every interleaving keeps the version chain, a call that is
answered with a store error changes nothing, and each accepted write of the trace has the
kind and the device of the request that made it. -/
theorem server_version_chain (moves : List (Move Request Bool)) :
    Chain (serverRun prim cfg moves).shared.mem (serverRun prim cfg moves).trace ∧
    (∀ fault call, refused call (exec fault (serverRun prim cfg moves).shared call).1 = true →
      (exec fault (serverRun prim cfg moves).shared call).2 = (serverRun prim cfg moves).shared) ∧
    (serverRun prim cfg moves).trace = (serverLedger prim cfg moves).history.map (·.event) ∧
    Ledger.Earlier (fun entry past => ∀ row, acceptedWrite entry.event = some row →
      RowOf prim cfg entry.request (Ledger.callsOf past entry.index) row) (serverLedger prim cfg moves).history := by
  refine ⟨serverRun_chain prim cfg moves,fun fault call error => exec_refused fault _ call error,?_,?_⟩
  · exact (congrArg System.trace (Ledger.run_system (handle prim cfg) exec State.empty moves)).symm
  · intro past entry future split row accepted
    have allowed := Ledger.ledger_disciplined (WriteAllowed prim cfg) (handle_writes prim cfg) State.empty moves
      past entry future split
    exact allowed.row prim cfg accepted

end

section
open KnownAnswers (sample)

private def laptopWrites : Context := ⟨lit "alice",lit "laptop",[],1⟩

private def phoneWrites : Context := ⟨lit "alice",lit "phone",[],1⟩

private def sharedNote (deleted : Bool) (baseVersion : Int) : FileJSON :=
  ⟨lit "11111111-1111-4111-8111-111111111111",lit "bWV0YQ",lit "aGVsbG8",
    lit "2cf24dba5fb0a30e26e83b2ac5b9e29e1b161e5c1fa7425e73043362938b9824",0,baseVersion,.empty,deleted,5,0,[],0,[]⟩

/-- The laptop creates the file and the phone replaces it by a tombstone. -/
example : (serverRun sample ⟨1000000,1000000,10⟩
      (.spawn (.post laptopWrites (sharedNote false 0))::List.replicate 3 (.step 0 false) ++
        .spawn (.put phoneWrites (sharedNote true 1).fileID (sharedNote true 1))::List.replicate 3 (.step 1 false))).trace.filterMap acceptedWrite =
    [(lit "alice",(sharedNote true 1).fileID,1,.upsert,lit "laptop"),(lit "alice",(sharedNote true 1).fileID,2,.delete,lit "phone")] := by
  decide +kernel

end
end NPSync.Server
