import NPSync.Engine.Upload
import NPSync.Server.Retained
import NPSync.Wire

/-! Runs of one client against the server. Each request of an upload meets its
own fate: it may be answered, answered with a body that does not parse, executed
while the answer is lost, or never delivered. The bodies of requests are taken
as decoded. -/
namespace NPSync.Engine
open Library Server

/-- The request that `decodeJSON` makes of a payload. -/
def toRequest (payload : Payload) : FileJSON where
  fileID := payload.fileId
  encryptedMetadata := payload.encryptedMetadata
  encryptedContent := payload.encryptedContent
  contentHash := payload.contentHash
  version := 0
  baseVersion := payload.baseVersion
  versionVector := (Wire.decodeVector .empty payload.versionVector).getD .empty
  deleted := false
  size := payload.size
  modifiedAt := 0
  originDeviceID := []
  changeSeq := 0
  idempotencyKey := payload.idempotencyKey

/-- A Go map is written in the order of its keys. -/
def vectorJson (vector : Server.Vector) : Json :=
  .obj ((vector.rows.insertionSort (fun a b => ¬b.1 < a.1)).map (fun row => (row.1,.num row.2)))

/-- The fields of an answered record that the client reads; an empty content is omitted. -/
def recordJson (f : FileJSON) : Json := .obj ([
  (lit "file_id",.str f.fileID),(lit "encrypted_metadata",.str f.encryptedMetadata),
  (lit "content_hash",.str f.contentHash),(lit "version",.num f.version),
  (lit "version_vector",vectorJson f.versionVector),(lit "deleted",.bool f.deleted)] ++
  if f.encryptedContent = [] then [] else [(lit "encrypted_content",.str f.encryptedContent)])

def errorJson (err : APIError) : Json := .obj ([
  (lit "error",.str err.code),(lit "message",.str err.message)] ++
  match err.current with
  | none => []
  | some current => [(lit "current",recordJson current)])

/-- An answer as the client receives it; the file endpoints give records and errors only. -/
def toApiResponse : Response → ApiResponse
  | .record status body => ⟨true,status,recordJson body⟩
  | .error err => ⟨true,err.httpStatus,errorJson err⟩
  | .batch _ | .changes .. => ⟨true,200,.null⟩

inductive Fate where
  | answered
  | garbled
  | lost
  | undelivered
  deriving DecidableEq

/-- One request: what becomes of it, whether the blob storage fails, and the server's clock. -/
structure Attempt where
  fate : Fate
  fault : Bool
  now : Nat

/-- The settings that stay fixed in a run. -/
structure Setup where
  plat : Platform
  dev : Device
  cfg : Config
  accountID : Str

section
variable (u : Setup)

def context (now : Nat) : Context := ⟨u.accountID,u.dev.deviceId,[],now⟩

def handlerOf (now : Nat) : ApiCall → Handler
  | .createFile payload => handleCreateFile u.plat.prim u.cfg (context u now) (toRequest payload)
  | .updateFile fileId payload => handleUpdateFile u.plat.prim u.cfg (context u now) fileId (toRequest payload)
  | .deleteFile fileId => handleDeleteFile (context u now) fileId
  | .getFile fileId => handleGetFile (context u now) fileId

def unreachable : ApiResponse := ⟨false,0,.null⟩

def serve (attempt : Attempt) (s : State) (call : ApiCall) : ApiResponse × State :=
  let out := (handlerOf u attempt.now call).run (exec attempt.fault) s
  match attempt.fate with
  | .undelivered => (unreachable,s)
  | .lost => (unreachable,out.2)
  | .garbled => ({toApiResponse out.1 with body := .null},out.2)
  | .answered => (toApiResponse out.1,out.2)

/-- The server together with the fates of the requests to come; after them there is no network. -/
structure Network where
  server : State
  attempts : List Attempt

def request (n : Network) (call : ApiCall) : ApiResponse × Network :=
  match n.attempts with
  | [] => (unreachable,n)
  | attempt::rest => ((serve u attempt n.server call).1,⟨(serve u attempt n.server call).2,rest⟩)

/-! ### The condition on a request -/

/-- The record that a request asks the server to store. -/
def requested : ApiCall → Option FileJSON
  | .createFile payload => some (toRequest payload)
  | .updateFile fileId payload => some {toRequest payload with fileID := fileId}
  | _ => none

/-- A response kept for the key of the request names the file of the request and
a version that the server still has, live and with its blob. -/
def ReplaySafe (s : State) (req : FileJSON) : Prop :=
  ∀ response ∈ storedResponse s (context u 0) req.idempotencyKey,
    response.fileID = req.fileID ∧
      ∃ v ∈ s.mem.history (Mem.fileKey u.accountID req.fileID), (v.version : Int) = response.version ∧
        v.deleted = false ∧ (s.blobs.get v.blobKey).isSome = true

/-- The strings hashed for the request are on the list. -/
def Listed (hashed : List Bytes) (req : FileJSON) : Prop :=
  ∃ plaintext, MadeFor u.plat.prim u.dev.masterKey hashed req.idempotencyKey (mustDecode req.encryptedContent) plaintext

/-- The condition on a request that reaches the server: its strings are listed
and, if it is answered, a stored response is safe to replay. -/
def RequestGuard (hashed : List Bytes) (n : Network) (call : ApiCall) : Prop :=
  ∀ attempt ∈ n.attempts.head?, attempt.fate ≠ .undelivered → ∀ req ∈ requested call,
    Listed u hashed req ∧ (attempt.fate = .answered → ReplaySafe u n.server req)

/-! ### One request -/

variable (hashed : List Bytes)

/-- What the server retains from request to request. -/
def Settled (s : State) : Prop := Retained u.plat.prim u.dev.masterKey u.accountID hashed s

/-- The server has this version, live, and it opens to the plaintext. -/
def OnServer (s : State) (fileID : Str) (version : Int) (plaintext : Bytes) : Prop :=
  HoldsVersion u.plat.prim u.dev.masterKey u.accountID s fileID version plaintext

/-- What the handler of an upload makes of a request whose content is the plaintext. -/
structure Served (s : State) (req : FileJSON) (plaintext : Bytes) (out : Response × State) : Prop where
  settled : Settled u hashed out.2
  answer : (∃ err, 400 ≤ err.httpStatus ∧ out.1 = .error err) ∨
    ∃ status body, out.1 = .record status body ∧
      (ReplaySafe u s req → OnServer u out.2 req.fileID body.version plaintext)

variable {u hashed} {s : State} {req : FileJSON} {plaintext : Bytes}

theorem key_ne_nil {name : Str} {env : Bytes}
    (made : MadeFor u.plat.prim u.dev.masterKey hashed name env plaintext) : name ≠ [] := by
  obtain ⟨text,-,same,-⟩ := made.text
  intro empty
  have length := congrArg List.length (empty.symm.trans same)
  simp [Crypto.sha256Hex_length] at length

theorem keyOf_eq {name : Str} {env : Bytes} (made : MadeFor u.plat.prim u.dev.masterKey hashed name env plaintext)
    (now : Nat) : idempotencyKeyOf (context u now) name = name := by
  rw [idempotencyKeyOf,if_neg (key_ne_nil made)]

section
variable (injective : NoCollision u.plat.prim hashed) (settled : Settled u hashed s) (live : req.deleted = false)
  (made : MadeFor u.plat.prim u.dev.masterKey hashed req.idempotencyKey (mustDecode req.encryptedContent) plaintext)

include injective settled made

theorem served_replay (now : Nat) (response : FileJSON)
    (stored : storedResponse s (context u now) req.idempotencyKey = some response) :
    Served u hashed s req plaintext (.record 200 response,s) := by
  refine ⟨settled,.inr ⟨200,response,rfl,?_⟩⟩
  intro safe
  obtain ⟨names,held⟩ := safe response stored
  rw [storedResponse,keyOf_eq made,if_neg (key_ne_nil made)] at stored
  exact Retained.replay settled injective req.fileID names stored made held

include live

omit injective in
/-- A committed request, over the state with its blob stored. -/
theorem commits_of (fault : Bool) (now : Nat) (rec : FileRecord)
    (valid : validateIncomingFile u.plat.prim u.cfg req = none) (stored : (storing fault s req).1 = true)
    (recDeleted : rec.deleted = req.deleted)
    (names : rec.fileID = req.fileID ∧ rec.contentHash = req.contentHash ∧ rec.blobKey = req.contentHash)
    (above : ∀ head, (storing fault s req).2.mem.files.get (Mem.fileKey u.accountID req.fileID) = some head →
      head.version < rec.version) :
    Settled u hashed (storing fault s req).2 ∧
      Commits u.plat.prim u.dev.masterKey hashed (storing fault s req).2 (context u now) req rec plaintext := by
  have hash := (validateIncomingFile_valid u.plat.prim u.cfg valid).hashed live
  refine ⟨Retained.storing settled fault req live hash made.envelope,recDeleted.trans live,names,hash,?_,?_,above⟩
  · rw [keyOf_eq made]
    exact made
  · exact (storing_cases fault s req live).2.2 stored

theorem served_create (fault : Bool) (now : Nat) :
    Served u hashed s req plaintext
      ((handleCreateFile u.plat.prim u.cfg (context u now) req).run (exec fault) s) := by
  generalize result : (handleCreateFile u.plat.prim u.cfg (context u now) req).run (exec fault) s = out
  rcases handleCreateFile_run fault s u.plat.prim u.cfg (context u now) req out result with
    ⟨err,status,rfl⟩ | ⟨response,stored,rfl⟩ | ⟨valid,⟨err,status,rfl⟩ | ⟨rec,created,stored,absent,rfl⟩⟩
  · exact ⟨settled,.inl ⟨err,status,rfl⟩⟩
  · exact served_replay injective settled made now response stored
  · have hash := (validateIncomingFile_valid u.plat.prim u.cfg valid).hashed live
    exact ⟨Retained.storing settled fault req live hash made.envelope,.inl ⟨err,status,rfl⟩⟩
  · have fresh : ∀ head, (storing fault s req).2.mem.files.get (Mem.fileKey u.accountID req.fileID) = some head →
        head.version < rec.version := by
      intro head found
      exact absurd (absent.symm.trans found) (Option.some_ne_none head).symm
    subst created
    obtain ⟨kept,commits⟩ := commits_of settled live made fault now _ valid stored rfl ⟨rfl,rfl,rfl⟩ fresh
    refine ⟨commits.retained kept (.refl _ _) fault,.inr ⟨201,_,rfl,fun _ => ?_⟩⟩
    exact commits.holds injective kept (.refl _ _) fault

theorem served_replace (fault : Bool) (now : Nat) :
    Served u hashed s req plaintext
      ((replaceFile u.plat.prim u.cfg (context u now) req).run (exec fault) s) := by
  generalize result : (replaceFile u.plat.prim u.cfg (context u now) req).run (exec fault) s = out
  rcases replaceFile_run fault s u.plat.prim u.cfg (context u now) req out result with
    ⟨err,status,rfl⟩ | ⟨response,stored,rfl⟩ | ⟨valid,⟨err,status,rfl⟩ | ⟨cur,rec,updated,stored,found,-,rfl⟩⟩
  · exact ⟨settled,.inl ⟨err,status,rfl⟩⟩
  · exact served_replay injective settled made now response stored
  · have hash := (validateIncomingFile_valid u.plat.prim u.cfg valid).hashed live
    exact ⟨Retained.storing settled fault req live hash made.envelope,.inl ⟨err,status,rfl⟩⟩
  · have above : ∀ head, (storing fault s req).2.mem.files.get (Mem.fileKey u.accountID req.fileID) = some head →
        head.version < rec.version := by
      intro head same
      have equal : cur = head := Option.some.inj (found.symm.trans same)
      rw [updated,equal]
      exact Nat.lt_succ_self _
    subst updated
    obtain ⟨kept,commits⟩ := commits_of settled live made fault now _ valid stored rfl ⟨rfl,rfl,rfl⟩ above
    have pruned := pruning_pruned fault (committed (context u now) req (storing fault s req).2
      (updated (context u now) req (storing fault s req).2.mem cur)) u.cfg (context u now) req.fileID
    exact ⟨commits.retained kept pruned fault,.inr ⟨200,_,rfl,fun _ => commits.holds injective kept pruned fault⟩⟩

end

theorem served_delete (settled : Settled u hashed s) (fault : Bool) (now : Nat) (fileID : Str) :
    Settled u hashed ((handleDeleteFile (context u now) fileID).run (exec fault) s).2 := by
  simp only [handleDeleteFile,Program.run_call,exec,Mem.getFile]
  cases found : s.mem.files.get (Mem.fileKey (context u now).accountID fileID) with
  | none => exact settled
  | some cur =>
    simp only [Program.run_call,exec]
    rcases s.mem.updateFile_cases (tombstone (context u now) cur) cur.version with
      ⟨err,refused⟩ | ⟨head,stored,current,accepted⟩
    · rw [refused]
      exact settled
    · rw [accepted]
      refine Retained.fewer (Retained.commit settled _ _ ?_) rfl rfl (fun _ => List.Sublist.refl _)
        (fun _ _ blob => blob)
      intro other same
      have equal : head = other := Option.some.inj (stored.symm.trans same)
      rw [← equal]
      exact Nat.lt_succ_self _

theorem served_get (fault : Bool) (now : Nat) (fileID : Str) :
    ((handleGetFile (context u now) fileID).run (exec fault) s).2 = s := by
  simp only [handleGetFile,Program.run_call,exec]
  cases s.mem.getFile (context u now).accountID fileID with
  | error err => rfl
  | ok f =>
    cases gone : f.deleted with
    | true => simp [gone]
    | false =>
      simp only [gone,Bool.false_eq_true,if_false,readBlob,Program.run_call,exec]
      cases fault with
      | true => rfl
      | false => cases s.blobs.get f.blobKey <;> rfl

/-- Every listed request leaves the server settled. -/
theorem handlerOf_settled (injective : NoCollision u.plat.prim hashed) (settled : Settled u hashed s) (fault : Bool)
    (now : Nat) (call : ApiCall) (listed : ∀ req ∈ requested call, Listed u hashed req) :
    Settled u hashed ((handlerOf u now call).run (exec fault) s).2 := by
  cases call with
  | createFile payload =>
    obtain ⟨plaintext,made⟩ := listed _ rfl
    exact (served_create injective settled rfl made fault now).settled
  | updateFile fileId payload =>
    obtain ⟨plaintext,made⟩ := listed _ rfl
    simp only [handlerOf,handleUpdateFile]
    split
    · exact settled
    · exact (served_replace injective settled rfl made fault now).settled
  | deleteFile fileId => exact served_delete settled fault now fileId
  | getFile fileId =>
    rw [handlerOf,served_get]
    exact settled

theorem request_settled (injective : NoCollision u.plat.prim hashed) (n : Network) (call : ApiCall)
    (settled : Settled u hashed n.server) (guard : RequestGuard u hashed n call) :
    Settled u hashed (request u n call).2.server := by
  obtain ⟨server,attempts⟩ := n
  cases attempts with
  | nil => exact settled
  | cons attempt rest =>
    have guard := guard attempt rfl
    have run := fun delivered => handlerOf_settled injective settled attempt.fault attempt.now call
      (fun req member => (guard delivered req member).1)
    simp only [request,serve]
    cases fate : attempt.fate with
    | undelivered => exact settled
    | lost => exact run (by simp [fate])
    | garbled => exact run (by simp [fate])
    | answered => exact run (by simp [fate])

@[simp] theorem recordJson_version (f : FileJSON) (default : Int) :
    (recordJson f).valueInt (lit "version") default = some f.version := by
  simp [recordJson,Json.valueInt,Json.value,Json.field,lit]

/-- A version that the client reads from an accepted answer is on the server. -/
theorem request_accepted (injective : NoCollision u.plat.prim hashed) (n : Network) (call : ApiCall)
    (settled : Settled u hashed n.server) (guard : RequestGuard u hashed n call) (req : FileJSON)
    (asks : requested call = some req)
    (opens : Crypto.decrypt u.plat.prim u.dev.masterKey (mustDecode req.encryptedContent) (lit "file") = .plain plaintext)
    (status : (request u n call).1.status = 200 ∨ (request u n call).1.status = 201) (default version : Int)
    (reads : (request u n call).1.body.valueInt (lit "version") default = some version) :
    OnServer u (request u n call).2.server req.fileID version plaintext := by
  obtain ⟨server,attempts⟩ := n
  cases attempts with
  | nil => simp [request,unreachable] at status
  | cons attempt rest =>
    simp only [request,serve] at status reads ⊢
    cases fate : attempt.fate with
    | undelivered => simp [fate,unreachable] at status
    | lost => simp [fate,unreachable] at status
    | garbled => simp [fate,Json.valueInt,Json.value] at reads
    | answered =>
      obtain ⟨⟨text,made⟩,safe⟩ := guard attempt rfl (by simp [fate]) req asks
      have same : text = plaintext := Opened.plain.inj (made.opens.symm.trans opens)
      subst same
      simp only [fate] at status reads ⊢
      have served : ((handlerOf u attempt.now call).run (exec attempt.fault) server).1 =
            .error (badRequest "file id must be a UUID") ∨
          Served u hashed server req text ((handlerOf u attempt.now call).run (exec attempt.fault) server) := by
        cases call with
        | createFile payload =>
          cases asks
          exact .inr (served_create injective settled rfl made _ _)
        | updateFile fileId payload =>
          cases asks
          simp only [handlerOf,handleUpdateFile]
          split
          · exact .inl rfl
          · exact .inr (served_replace injective settled rfl made _ _)
        | deleteFile fileId => contradiction
        | getFile fileId => contradiction
      rcases served with refused | served
      · rw [refused] at status
        rcases status with bad | bad <;> simp [toApiResponse,badRequest,apiError] at bad
      · rcases served.answer with ⟨err,high,answer⟩ | ⟨code,body,answer,holds⟩
        · rw [answer] at status
          simp only [toApiResponse] at status
          omega
        · rw [answer] at reads
          simp only [toApiResponse,recordJson_version,Option.some.injEq] at reads
          rw [← reads]
          exact holds (safe fate)

end

/-! ### Uploads and runs -/

section
variable (u : Setup) (hashed : List Bytes)

/-- The client and the server. -/
structure Pair where
  here : Local
  server : State

/-- A step of a run: any change of the device's own files and database, an
upload, or the deletion of a remote file. -/
inductive Act where
  | work (next : Local)
  | upload (relPath : Str) (absPath : WStr) (io : UploadIo) (attempts : List Attempt)
  | delete (relPath : Str) (attempts : List Attempt)

/-- The exchange that a step starts. -/
def exchange (p : Pair) : Act → Exchange
  | .work next => .done (.skipped,next)
  | .upload relPath absPath io _ => uploadFile u.plat u.dev p.here relPath absPath io
  | .delete relPath _ => deleteRemote p.here relPath

def attemptsOf : Act → List Attempt
  | .work _ => []
  | .upload _ _ _ attempts | .delete _ attempts => attempts

/-- The outcome of a step, the device and the network after it. -/
def Pair.act (p : Pair) (act : Act) : (Outcome × Local) × Network :=
  (exchange u p act).run (request u) ⟨p.server,attemptsOf act⟩

def Pair.step (p : Pair) (act : Act) : Pair := ⟨(p.act u act).1.2,(p.act u act).2.server⟩

/-- If the upload was reported after an accepting answer, the row it stored names
a version that the server holds with the text on disk. -/
def Reported (relPath : Str) (absPath : WStr) (out : (Outcome × Local) × Network) : Prop :=
  (out.1.1 = .stored ∨ out.1.1 = .merged) → ∃ row text, out.1.2.db.getFile relPath = some row ∧
    out.1.2.disk.read u.plat.win absPath = some text ∧ OnServer u out.2.server row.fileId row.remoteVersion text

def TrueReport (p : Pair) : Act → Prop
  | .upload relPath absPath io attempts =>
    Reported u relPath absPath (p.act u (.upload relPath absPath io attempts))
  | _ => True

/-- Every request of the step meets its condition. -/
def ActGuard (p : Pair) (act : Act) : Prop :=
  (exchange u p act).Along (request u) (RequestGuard u hashed) ⟨p.server,attemptsOf act⟩

variable {u hashed}

theorem reported_other (relPath : Str) (absPath : WStr) (outcome : Outcome) (l : Local) (n : Network)
    (other : outcome ≠ .stored ∧ outcome ≠ .merged) : Reported u relPath absPath ((outcome,l),n) := by
  rintro (stored | merged)
  · exact absurd stored other.1
  · exact absurd merged other.2

/-- The row that an accepted upload stores names what the server holds. -/
theorem reported_row (row : LocalFileState) (absPath : WStr) (outcome : Outcome) (l : Local) (n : Network)
    (content text : Bytes) (fate : WriteFate) (read : l.disk.read u.plat.win absPath = some text)
    (held : OnServer u n.server row.fileId row.remoteVersion text) :
    Reported u row.relPath absPath
      ((outcome,writeShadow u.plat {l with db := l.db.upsertFile row} row.relPath content fate),n) := by
  intro _
  refine ⟨LocalDb.ofRow row.relPath (LocalDb.toRow row),text,?_,?_,held⟩
  · rw [writeShadow_db]
    exact LocalDb.getFile_upsertFile_same _ _
  · rw [writeShadow_disk]
    exact read

theorem reported_refused (relPath : Str) (absPath : WStr) (r : ApiResponse) (fallback : String) (l : Local)
    (n : Network) : Reported u relPath absPath ((refused r fallback l).run (request u) n) := by
  unfold refused
  split
  · exact reported_other _ _ _ _ _ (by simp)
  · exact reported_other _ _ _ _ _ (by simp)

theorem reported_keepBoth (l : Local) (relPath : Str) (absPath : WStr) (serverCurrent : Json) (fileId : Str)
    (localText : Bytes) (io : MergeIo) (n : Network) :
    Reported u relPath absPath
      ((keepBoth u.plat u.dev l relPath absPath serverCurrent fileId localText io).run (request u) n) := by
  unfold keepBoth
  dsimp only
  split
  · exact reported_other _ _ _ _ _ (by simp)
  · exact reported_other _ _ _ _ _ (by simp)

/-- The content of a payload opens to the plaintext it was built from. -/
theorem payload_opens (db : LocalDb) (relPath : Str) (plaintext : Bytes) (baseVersion : Int) (vv : VersionVector)
    (rnd : Random) (payload : Payload)
    (built : buildFilePayload u.plat u.dev db relPath plaintext baseVersion vv rnd = some payload) :
    Crypto.decrypt u.plat.prim u.dev.masterKey (mustDecode payload.encryptedContent) (lit "file") =
      .plain plaintext := by
  obtain ⟨env,metaStr,encMeta,vector,sealed,-,-,-,rfl⟩ := buildFilePayload_parts _ _ _ _ _ _ _ _ _ built
  rw [mustDecode,Base64.decodeBase64URL_encode,Option.getD_some]
  exact Crypto.decrypt_encrypt _ _ _ _ _ _ sealed

section
variable (injective : NoCollision u.plat.prim hashed) (relPath : Str) (absPath : WStr) (n : Network)
  (settled : Settled u hashed n.server)

include injective settled

theorem reported_uploadMerged (l : Local) (serverCurrent : Json) (fileId : Str) (localText merged : Bytes)
    (rnd : Random) (io : MergeIo)
    (along : (uploadMerged u.plat u.dev l relPath absPath serverCurrent fileId localText merged rnd io).Along
      (request u) (RequestGuard u hashed) n) :
    Reported u relPath absPath
      ((uploadMerged u.plat u.dev l relPath absPath serverCurrent fileId localText merged rnd io).run (request u) n) := by
  unfold uploadMerged at along ⊢
  simp only [writeFileAtomic_written] at along ⊢
  by_cases written : io.write = .replaced
  case neg =>
    simp only [written,decide_false,Bool.not_false,if_true]
    exact reported_other _ _ _ _ _ (by simp)
  simp only [written,decide_true,Bool.not_true,Bool.false_eq_true,if_false] at along ⊢
  split
  case h_2 => exact reported_other _ _ _ _ _ (by simp)
  rename_i newBase vector hasBase hasVector
  simp only [hasBase,hasVector] at along
  split
  · exact reported_other _ _ _ _ _ (by simp)
  rename_i payload built
  rw [built] at along
  simp only [Program.run_call]
  split
  case isFalse => exact reported_keepBoth _ _ _ _ _ _ _ _
  rename_i status
  split
  case h_2 => exact reported_other _ _ _ _ _ (by simp)
  rename_i version vv hasVersion hasVector
  have opens := payload_opens _ _ _ _ _ _ _ built
  have held := request_accepted injective n (.updateFile fileId payload) settled along.1 _ rfl opens (.inl status) _
    version hasVersion
  refine reported_row (mergedRow u.plat _ relPath fileId merged version vv) absPath .merged _ _ merged merged io.shadow
    ?_ held
  simp [writeFileAtomic,Disk.read,Disk.write]

theorem reported_handleConflict (l : Local) (serverCurrent : Json) (rnd : Random) (io : MergeIo)
    (along : (handleConflict u.plat u.dev l relPath absPath serverCurrent rnd io).Along
      (request u) (RequestGuard u hashed) n) :
    Reported u relPath absPath
      ((handleConflict u.plat u.dev l relPath absPath serverCurrent rnd io).run (request u) n) := by
  unfold handleConflict at along ⊢
  split
  · exact reported_other _ _ _ _ _ (by simp)
  rename_i fileId named
  simp only [named] at along
  split
  · exact reported_other _ _ _ _ _ (by simp)
  rename_i known
  simp only [known,if_false] at along
  have after := request_settled injective n (.getFile fileId) settled along.1
  have along := along.2
  simp only [Program.run_call]
  split
  · exact reported_other _ _ _ _ _ (by simp)
  rename_i status
  simp only [status,if_false] at along
  split
  · exact reported_other _ _ _ _ _ (by simp)
  rename_i text hasText
  simp only [hasText] at along
  split
  · exact reported_other _ _ _ _ _ (by simp)
  rename_i encRemote decoded
  simp only [decoded] at along
  split
  · exact reported_other _ _ _ _ _ (by simp)
  · exact reported_other _ _ _ _ _ (by simp)
  rename_i remoteText opened
  simp only [opened] at along
  split
  · rename_i clean
    simp only [clean,if_true] at along
    exact reported_uploadMerged injective relPath absPath _ after _ _ _ _ _ _ _ along
  · exact reported_keepBoth _ _ _ _ _ _ _ _

omit injective settled in
theorem requested_uploadCall (baseVersion : Int) (payload : Payload) :
    requested (uploadCall baseVersion payload) = some (toRequest payload) := by
  unfold uploadCall
  split <;> rfl

theorem reported_finishUpload (l : Local) (plaintext : Bytes) (payload : Payload) (io : UploadIo) (call : ApiCall)
    (asks : requested call = some (toRequest payload)) (read : l.disk.read u.plat.win absPath = some plaintext)
    (opens : Crypto.decrypt u.plat.prim u.dev.masterKey (mustDecode payload.encryptedContent) (lit "file") =
      .plain plaintext)
    (guard : RequestGuard u hashed n call)
    (along : (finishUpload u.plat u.dev l relPath absPath plaintext payload io (request u n call).1).Along
      (request u) (RequestGuard u hashed) (request u n call).2) :
    Reported u relPath absPath
      ((finishUpload u.plat u.dev l relPath absPath plaintext payload io (request u n call).1).run (request u)
        (request u n call).2) := by
  have after := request_settled injective n call settled guard
  have held := request_accepted injective n call settled guard (toRequest payload) asks opens
  generalize request u n call = answer at along after held ⊢
  obtain ⟨r,m⟩ := answer
  unfold finishUpload at along ⊢
  dsimp only at along after held ⊢
  split
  · exact reported_other _ _ _ _ _ (by simp)
  rename_i reached
  rw [if_neg reached] at along
  split
  · rename_i accepted
    split
    · rename_i version vv hasVersion hasVector
      refine reported_row (storedRow relPath _ payload _ version vv) absPath .stored
        {l with online := r.transportOk} m plaintext plaintext io.shadow ?_ (held accepted 1 version hasVersion)
      exact read
    · exact reported_other _ _ _ _ _ (by simp)
  rename_i rejected
  rw [if_neg rejected] at along
  split
  · rename_i conflict
    rw [if_pos conflict] at along
    split
    · exact reported_other _ _ _ _ _ (by simp)
    rename_i current hasCurrent
    rw [hasCurrent] at along
    exact reported_handleConflict injective relPath absPath m after _ _ _ _ along
  · exact reported_refused _ _ _ _ _ _

theorem reported_uploadFile (l : Local) (io : UploadIo)
    (along : (uploadFile u.plat u.dev l relPath absPath io).Along (request u) (RequestGuard u hashed) n) :
    Reported u relPath absPath ((uploadFile u.plat u.dev l relPath absPath io).run (request u) n) := by
  unfold uploadFile at along ⊢
  split
  · exact reported_other _ _ _ _ _ (by simp)
  rename_i ready
  rw [if_neg ready] at along
  split
  · exact reported_other _ _ _ _ _ (by simp)
  rename_i plaintext found
  rw [found] at along
  dsimp only at along ⊢
  split
  · exact reported_other _ _ _ _ _ (by simp)
  rename_i small
  rw [if_neg small] at along
  split
  · exact reported_other _ _ _ _ _ (by simp)
  rename_i changed
  rw [if_neg changed] at along
  split
  · exact reported_other _ _ _ _ _ (by simp)
  rename_i payload built
  rw [built] at along
  have read : l.disk.read u.plat.win absPath = some plaintext := by
    unfold readFileBytes at found
    split at found
    · exact found
    · contradiction
  exact reported_finishUpload injective relPath absPath n settled l plaintext payload io _
    (requested_uploadCall _ payload) read (payload_opens _ _ _ _ _ _ _ built) along.1 along.2

end

/-- In every run whose requests meet their condition, a reported upload is on the server. -/
theorem reported_upload_on_server (injective : NoCollision u.plat.prim hashed) (l : Local) (acts : List Act) (act : Act)
    (guarded : Guarded (Pair.step u) (ActGuard u hashed) ⟨l,State.empty⟩ (acts ++ [act])) :
    TrueReport u (run (Pair.step u) ⟨l,State.empty⟩ acts) act := by
  obtain ⟨before,last⟩ := (guarded_append _ _ _ _ _).mp guarded
  have settled : Settled u hashed (run (Pair.step u) ⟨l,State.empty⟩ acts).server := by
    refine run_invariant (Pair.step u) (ActGuard u hashed) (fun p => Settled u hashed p.server) ?_ _ _
      (empty_retained _ _ _ _) before
    intro p act settled guard
    exact Program.run_along (request u) (RequestGuard u hashed) (fun n => Settled u hashed n.server)
      (request_settled injective) (exchange u p act) _ settled guard
  cases act with
  | work next => trivial
  | delete relPath attempts => trivial
  | upload relPath absPath io attempts =>
    exact reported_uploadFile injective relPath absPath _ settled _ io last.1

end

/-! ### A lost answer -/

section
variable (u : Setup) (hashed : List Bytes)

instance (s : State) (req : FileJSON) : Decidable (ReplaySafe u s req) :=
  inferInstanceAs (Decidable (∀ response ∈ storedResponse s (context u 0) req.idempotencyKey,_))

instance (req : FileJSON) : Decidable (Listed u hashed req) :=
  match opened : Crypto.decrypt u.plat.prim u.dev.masterKey (mustDecode req.encryptedContent) (lit "file") with
  | .plain plaintext =>
    decidable_of_iff (MadeFor u.plat.prim u.dev.masterKey hashed req.idempotencyKey (mustDecode req.encryptedContent)
        plaintext)
      ⟨fun made => ⟨plaintext,made⟩,fun ⟨_,made⟩ => Opened.plain.inj (made.opens.symm.trans opened) ▸ made⟩
  | .threw => .isFalse fun ⟨_,made⟩ => Opened.noConfusion (made.opens.symm.trans opened)
  | .rejected => .isFalse fun ⟨_,made⟩ => Opened.noConfusion (made.opens.symm.trans opened)

instance (n : Network) (call : ApiCall) : Decidable (RequestGuard u hashed n call) :=
  inferInstanceAs (Decidable (∀ attempt ∈ n.attempts.head?,_))

instance (p : Pair) (act : Act) : Decidable (ActGuard u hashed p act) :=
  inferInstanceAs (Decidable ((exchange u p act).Along (request u) (RequestGuard u hashed) _))

end

/-- A stored row whose file the server has never seen is not a true report. -/
theorem unreported (u : Setup) (relPath : Str) (absPath : WStr) (out : (Outcome × Local) × Network) (fileId : Str)
    (outcome : out.1.1 = .stored) (named : (out.1.2.db.getFile relPath).map (fun row => row.fileId) = some fileId)
    (unknown : out.2.server.mem.versions.get (Mem.fileKey u.accountID fileId) = none) :
    ¬Reported u relPath absPath out := by
  intro report
  obtain ⟨row,text,stored,-,v,member,-⟩ := report (.inl outcome)
  rw [stored,Option.map_some,Option.some.injEq] at named
  rw [named,Mem.history,unknown] at member
  exact List.not_mem_nil member

section
open KnownAnswers

private def setup : Setup := ⟨platform,laptop,⟨1000000,1000000,10⟩,lit "account"⟩

private theorem setup_numerals : setup = ⟨numeralPlatform,laptop,⟨1000000,1000000,10⟩,lit "account"⟩ := by
  rw [setup,platform_numerals]

/-- `notes.txt` is on disk and not tracked. -/
private def notesOnDisk : Local :=
  ⟨rooted,⟨Table.empty.upsert (wlit "c:\\notes\\notes.txt") (lit "hello"),[]⟩,.empty,[],true⟩

private def draws (contentNonce metadataNonce uuid : UInt8) : Random :=
  ⟨nonceOf contentNonce,nonceOf metadataNonce,uuidOf uuid⟩

private def uploadIo (rnd : Random) : UploadIo :=
  ⟨true,.replaced,rnd,rnd,true,true,.replaced,⟨0,true⟩,.replaced,.replaced,0⟩

/-- One attempt to upload the file, with its own random draws. -/
private def attempt (rnd : Random) (fate : Fate) : Act :=
  .upload (lit "root:notes.txt") (wlit "C:\\notes\\notes.txt") (uploadIo rnd) [⟨fate,false,1⟩]

private def notesHashed : List Bytes := [lit "hello",
  lit "root:notes.txt02cf24dba5fb0a30e26e83b2ac5b9e29e1b161e5c1fa7425e73043362938b9824",
  unhex "4e50533101010101010101010101010101ec0863e2f1f30802e122435af26262631fa6895907"]

private theorem notesHashed_numerals : notesHashed = [lit "hello",
    numeral 79 0x726f6f743a6e6f7465732e7478743032636632346462613566623061333065323665383362326163356239653239653162313631653563316661373432356537333034333336323933386239383234,
    numeral 38 0x4e50533101010101010101010101010101ec0863e2f1f30802e122435af26262631fa6895907] := by
  unfold notesHashed
  simp only [List.cons.injEq,and_true,true_and]
  exact ⟨lit_numeral _ (by decide),unhex_numeral _ (by decide)⟩

theorem first_upload_on_server :
    NoCollision setup.plat.prim notesHashed ∧
      Guarded (Pair.step setup) (ActGuard setup notesHashed) ⟨notesOnDisk,State.empty⟩
        ([] ++ [attempt (draws 1 2 17) .answered]) ∧
      TrueReport setup ⟨notesOnDisk,State.empty⟩ (attempt (draws 1 2 17) .answered) := by
  have injective : NoCollision setup.plat.prim notesHashed := by
    rw [setup_numerals,notesHashed_numerals]
    decide
  have guarded : Guarded (Pair.step setup) (ActGuard setup notesHashed) ⟨notesOnDisk,State.empty⟩
      ([] ++ [attempt (draws 1 2 17) .answered]) := by
    rw [setup_numerals,notesHashed_numerals]
    decide +kernel
  exact ⟨injective,guarded,reported_upload_on_server injective notesOnDisk [] _ guarded⟩

/-- The state after an attempt whose answer is lost. -/
private def afterLost : Pair := run (Pair.step setup) ⟨notesOnDisk,State.empty⟩ [attempt (draws 1 2 17) .lost]

/-- The answer to the first attempt is lost. The second draws a new file id, is
answered with the first's response and stores a row that no record belongs to. -/
theorem retried_upload_not_on_server :
    ¬TrueReport setup afterLost (attempt (draws 4 5 34) .answered) := by
  have facts : (afterLost.act setup (attempt (draws 4 5 34) .answered)).1.1 = .stored ∧
      ((afterLost.act setup (attempt (draws 4 5 34) .answered)).1.2.db.getFile (lit "root:notes.txt")).map
        (fun row => row.fileId) = some (lit "22222222-2222-4222-a222-222222222222") ∧
      (afterLost.act setup (attempt (draws 4 5 34) .answered)).2.server.mem.versions.get
        (Mem.fileKey setup.accountID (lit "22222222-2222-4222-a222-222222222222")) = none := by
    rw [afterLost,setup_numerals]
    decide +kernel
  have report : ¬Reported setup (lit "root:notes.txt") (wlit "C:\\notes\\notes.txt")
      (afterLost.act setup (attempt (draws 4 5 34) .answered)) :=
    unreported setup (lit "root:notes.txt") (wlit "C:\\notes\\notes.txt") _
      (lit "22222222-2222-4222-a222-222222222222") facts.1 facts.2.1 facts.2.2
  unfold TrueReport attempt
  unfold attempt at report
  exact report

end
end NPSync.Engine
