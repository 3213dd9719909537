import NPSync.Crypto
import NPSync.Server.Mem
import NPSync.Library.Interleaving

/-! `api/sync_handlers.go`. A handler is a program whose calls are the single
`Store`, blob-store and hub calls it makes, in the order it makes them; what it
answers is the value the program ends with. Request bodies are taken after
`decodeJSON`. -/
namespace NPSync.Server
open Library

/-- `fileJSON`. -/
structure FileJSON where
  fileID : Str
  encryptedMetadata : Str
  encryptedContent : Str
  contentHash : Str
  version : Int
  baseVersion : Int
  versionVector : Vector
  deleted : Bool
  size : Int
  modifiedAt : Int
  originDeviceID : Str
  changeSeq : Int
  idempotencyKey : Str

def toFileJSON (f : FileRecord) (content : Str) : FileJSON where
  fileID := f.fileID
  encryptedMetadata := Base64.encodeBase64URL f.encryptedMetadata
  encryptedContent := content
  contentHash := f.contentHash
  version := f.version
  baseVersion := 0
  versionVector := f.versionVector
  deleted := f.deleted
  size := f.size
  modifiedAt := f.modifiedAt
  originDeviceID := f.originDeviceID
  changeSeq := f.changeSeq
  idempotencyKey := []

/-- `apperr.Error`. -/
structure APIError where
  httpStatus : Nat
  code : Str
  message : Str
  current : Option FileJSON

def apiError (status : Nat) (code message : String) : APIError := ⟨status,lit code,lit message,none⟩
def badRequest (message : String) : APIError := apiError 400 "invalid_request" message
def errNotFound : APIError := apiError 404 "not_found" "resource not found"
def internalError : APIError := apiError 500 "internal" "internal server error"

/-- `mapStoreErr` followed by `apperr.Write`: an unmapped sentinel is a 500. -/
def mapStoreErr : StoreError → APIError
  | .notFound => errNotFound
  | .duplicate => apiError 409 "duplicate" "resource already exists"
  | .conflict => internalError

structure Config where
  maxFileBytes : Int
  maxBatchBytes : Int
  versionRetention : Int

/-- What `withAuth` and the HTTP layer give a handler: the authenticated
account and device, the `Idempotency-Key` header and the clock. -/
structure Context where
  accountID : Str
  deviceID : Str
  idempotencyHeader : Str
  now : Nat

structure BatchResultItem where
  fileID : Str
  ok : Bool
  error : Str
  conflict : Option FileJSON
  record : Option FileJSON
  content : Str

inductive Response where
  | record (status : Nat) (body : FileJSON)
  | error (err : APIError)
  | batch (results : List BatchResultItem)
  | changes (changes : List Change) (latestSeq : Nat)

inductive BlobRead where
  | found (content : Bytes)
  | missing
  | failed

/-- The single calls a handler makes to the store, the blobs and the hub. -/
inductive Call where
  | getFile (accountID fileID : Str)
  | createFile (rec : FileRecord)
  | updateFile (rec : FileRecord) (baseVersion : Int)
  | getVersion (accountID fileID : Str) (version : Int)
  | pruneVersions (accountID fileID : Str) (keep : Nat)
  | listChangesSince (accountID : Str) (since limit : Nat)
  | getIdempotentResponse (accountID key : Str)
  | saveIdempotentResponse (accountID key : Str) (response : FileJSON)
  | putBlob (key : Str) (content : Bytes)
  | getBlob (key : Str)
  | deleteBlob (key : Str)
  | publish (accountID originDeviceID : Str) (rec : FileRecord)

@[reducible] def Call.Result : Call → Type
  | .getFile .. => Except StoreError FileRecord
  | .createFile .. => Except StoreError FileRecord
  | .updateFile .. => Except StoreError FileRecord
  | .getVersion .. => Except StoreError VersionRecord
  | .pruneVersions .. => List Str
  | .listChangesSince .. => List Change
  | .getIdempotentResponse .. => Option FileJSON
  | .saveIdempotentResponse .. => Unit
  | .putBlob .. => Bool
  | .getBlob .. => BlobRead
  | .deleteBlob .. => Unit
  | .publish .. => Unit

abbrev Handler := Program Call Call.Result Response

/-- A WebSocket event as `publish` builds it. -/
structure WsEvent where
  accountID : Str
  deleted : Bool
  fileID : Str
  version : Nat
  changeSeq : Nat
  originDeviceID : Str

structure State where
  mem : Mem FileJSON
  blobs : Table Str Bytes
  events : List WsEvent

def State.empty : State := ⟨Mem.newMem,.empty,[]⟩

/-- One call. `fault` makes a blob call fail without effect; `FS.Put` leaves an
existing blob in place. -/
def exec (fault : Bool) (s : State) : (call : Call) → call.Result × State
  | .getFile accountID fileID => (s.mem.getFile accountID fileID,s)
  | .createFile rec => ((s.mem.createFile rec).1,{s with mem := (s.mem.createFile rec).2})
  | .updateFile rec base => ((s.mem.updateFile rec base).1,{s with mem := (s.mem.updateFile rec base).2})
  | .getVersion accountID fileID version => (s.mem.getVersion accountID fileID version,s)
  | .pruneVersions accountID fileID keep =>
    ((s.mem.pruneVersions accountID fileID keep).1,
      {s with mem := (s.mem.pruneVersions accountID fileID keep).2})
  | .listChangesSince accountID since limit => (s.mem.listChangesSince accountID since limit,s)
  | .getIdempotentResponse accountID key => (s.mem.getIdempotentResponse accountID key,s)
  | .saveIdempotentResponse accountID key response =>
    ((),{s with mem := s.mem.saveIdempotentResponse accountID key response})
  | .putBlob key content =>
    if fault then (false,s)
    else if (s.blobs.get key).isSome then (true,s)
    else (true,{s with blobs := s.blobs.upsert key content})
  | .getBlob key =>
    if fault then (.failed,s)
    else match s.blobs.get key with
      | some content => (.found content,s)
      | none => (.missing,s)
  | .deleteBlob key => ((),if fault then s else {s with blobs := s.blobs.remove key})
  | .publish accountID origin rec =>
    ((),{s with events := s.events ++
      [⟨accountID,rec.deleted,rec.fileID,rec.version,rec.changeSeq,origin⟩]})

/-- `isUUID`. -/
def isUUID (s : Str) : Bool :=
  s.length = 36 && s.zipIdx.all (fun (c,i) =>
    if i = 8 || i = 13 || i = 18 || i = 23 then c = 45
    else (48 ≤ c && c ≤ 57) || (97 ≤ c && c ≤ 102) || (65 ≤ c && c ≤ 70))

/-- `isHex64`. -/
def isHex64 (s : Str) : Bool := s.length = 64 && s.all isLowerHex

/-- `blobKey`. -/
def blobKey (contentHash : Str) : Str := contentHash

def mustDecode (s : Str) : Bytes := (Base64.decodeBase64URL s).getD []

variable (prim : Primitives) (cfg : Config)

/-- `validateIncomingFile`; `none` is a nil error. -/
def validateIncomingFile (req : FileJSON) : Option APIError :=
  if !isUUID req.fileID then some (badRequest "file_id must be a UUID")
  else if !isHex64 req.contentHash then some (badRequest "content_hash must be 64 lowercase hex chars")
  else
    let metadata := Base64.decodeBase64URL req.encryptedMetadata
    if metadata = none ∨ (mustDecode req.encryptedMetadata).length = 0 ∨
        (mustDecode req.encryptedMetadata).length > 64 * 1024 then
      some (badRequest "encrypted_metadata missing or oversized")
    else if req.deleted then none
    else match Base64.decodeBase64URL req.encryptedContent with
      | none => some (badRequest "encrypted_content required")
      | some content =>
        if content.length = 0 then some (badRequest "encrypted_content required")
        else if (content.length : Int) > cfg.maxFileBytes then
          some ⟨413,lit "payload_too_large",
            lit "file exceeds " ++ decimal cfg.maxFileBytes ++ lit " byte limit",none⟩
        else if Crypto.sha256Hex prim content ≠ req.contentHash then
          some (badRequest "content_hash does not match encrypted_content")
        else if req.size ≠ content.length then
          some (badRequest "size does not match encrypted_content")
        else none

/-- What is known of an upload that passes. -/
structure ValidUpload (req : FileJSON) : Prop where
  named : isUUID req.fileID = true
  hashed : req.deleted = false → Crypto.sha256Hex prim (mustDecode req.encryptedContent) = req.contentHash
  sized : req.deleted = false → req.size = (mustDecode req.encryptedContent).length

theorem validateIncomingFile_valid {req : FileJSON} (valid : validateIncomingFile prim cfg req = none) :
    ValidUpload prim req := by
  unfold validateIncomingFile at valid
  dsimp only at valid
  split at valid
  · contradiction
  rename_i identified
  have named : isUUID req.fileID = true := by simpa using identified
  split at valid
  · contradiction
  split at valid
  · contradiction
  split at valid
  · rename_i deleted
    have dead : req.deleted ≠ false := by rw [deleted]; exact Bool.noConfusion
    exact ⟨named,fun live => absurd live dead,fun live => absurd live dead⟩
  split at valid
  · contradiction
  rename_i content decoded
  have opened : mustDecode req.encryptedContent = content := by rw [mustDecode,decoded]; rfl
  split at valid
  · contradiction
  split at valid
  · contradiction
  split at valid
  · contradiction
  rename_i hashed
  split at valid
  · contradiction
  rename_i sized
  rw [← opened] at hashed sized
  exact ⟨named,fun _ => not_not.mp hashed,fun _ => not_not.mp sized⟩

/-- A refusal is a client error and tells nothing of the head. -/
theorem validateIncomingFile_error {req : FileJSON} {err : APIError} (invalid : validateIncomingFile prim cfg req = some err) :
    400 ≤ err.httpStatus ∧ err.current = none := by
  unfold validateIncomingFile at invalid
  dsimp only at invalid
  have given : ∀ message : String, some (badRequest message) = some err → 400 ≤ err.httpStatus ∧ err.current = none := by
    intro message same
    rw [← Option.some.inj same]
    exact ⟨le_refl 400,rfl⟩
  split at invalid
  · exact given _ invalid
  split at invalid
  · exact given _ invalid
  split at invalid
  · exact given _ invalid
  split at invalid
  · contradiction
  split at invalid
  · exact given _ invalid
  split at invalid
  · exact given _ invalid
  split at invalid
  · rw [← Option.some.inj invalid]
    exact ⟨(by decide : 400 ≤ 413),rfl⟩
  split at invalid
  · exact given _ invalid
  split at invalid
  · exact given _ invalid
  · contradiction

def storeBlob (req : FileJSON) (next : Bool → Handler) : Handler :=
  if req.deleted then next true
  else .call (.putBlob (blobKey req.contentHash) (mustDecode req.encryptedContent)) next

def recordFromRequest (ctx : Context) (req : FileJSON) : FileRecord where
  accountID := ctx.accountID
  fileID := req.fileID
  encryptedMetadata := mustDecode req.encryptedMetadata
  contentHash := req.contentHash
  version := 0
  versionVector := req.versionVector
  deleted := req.deleted
  size := req.size
  blobKey := blobKey req.contentHash
  modifiedAt := if req.modifiedAt = 0 then ctx.now else req.modifiedAt
  originDeviceID := ctx.deviceID
  changeSeq := 0

def idempotencyKeyOf (ctx : Context) (key : Str) : Str := if key = [] then ctx.idempotencyHeader else key

def checkIdempotency (ctx : Context) (key : Str) (found : FileJSON → Handler) (absent : Handler) : Handler :=
  if idempotencyKeyOf ctx key = [] then absent
  else .call (.getIdempotentResponse ctx.accountID (idempotencyKeyOf ctx key)) fun
    | some response => found response
    | none => absent

def saveIdempotency (ctx : Context) (key : Str) (response : FileJSON) (next : Handler) : Handler :=
  if idempotencyKeyOf ctx key = [] then next
  else .call (.saveIdempotentResponse ctx.accountID (idempotencyKeyOf ctx key) response) fun _ => next

def deleteBlobs : List Str → Handler → Handler
  | [],next => next
  | key::rest,next => .call (.deleteBlob key) fun _ => deleteBlobs rest next

def pruneVersions (ctx : Context) (fileID : Str) (next : Handler) : Handler :=
  if cfg.versionRetention ≤ 0 then next
  else .call (.pruneVersions ctx.accountID fileID cfg.versionRetention.toNat) fun keys =>
    deleteBlobs keys next

def publish (ctx : Context) (rec : FileRecord) (next : Handler) : Handler :=
  .call (.publish ctx.accountID ctx.deviceID rec) fun _ => next

def handleCreateFile (ctx : Context) (req : FileJSON) : Handler :=
  match validateIncomingFile prim cfg req with
  | some err => .done (.error err)
  | none =>
    checkIdempotency ctx req.idempotencyKey (fun response => .done (.record 200 response)) <|
    storeBlob req fun stored =>
    if !stored then .done (.error internalError)
    else .call (.createFile (recordFromRequest ctx req)) fun
      | .error .duplicate =>
        .done (.error (apiError 409 "duplicate" "file_id already exists; use PUT"))
      | .error _ => .done (.error internalError)
      | .ok created =>
        publish ctx created <|
        saveIdempotency ctx req.idempotencyKey (toFileJSON created []) <|
        .done (.record 201 (toFileJSON created []))

/-- The 409 of `handleUpdateFile`, with the record read after the rejection. -/
def conflictError (baseVersion : Int) (cur : FileRecord) : APIError :=
  ⟨409,lit "conflict",lit "base_version " ++ decimal baseVersion ++ lit " is stale; current version is " ++
    decimal cur.version,some (toFileJSON cur [])⟩

/-- `handleUpdateFile` once the id of the path has replaced the one of the body. -/
def replaceFile (ctx : Context) (req : FileJSON) : Handler :=
  match validateIncomingFile prim cfg req with
  | some err => .done (.error err)
  | none =>
    checkIdempotency ctx req.idempotencyKey (fun response => .done (.record 200 response)) <|
    storeBlob req fun stored =>
    if !stored then .done (.error internalError)
    else .call (.updateFile (recordFromRequest ctx req) req.baseVersion) fun
      | .error .conflict => .call (.getFile ctx.accountID req.fileID) fun
        | .error err => .done (.error (mapStoreErr err))
        | .ok cur => .done (.error (conflictError req.baseVersion cur))
      | .error err => .done (.error (mapStoreErr err))
      | .ok updated =>
        pruneVersions cfg ctx req.fileID <|
        publish ctx updated <|
        saveIdempotency ctx req.idempotencyKey (toFileJSON updated []) <|
        .done (.record 200 (toFileJSON updated []))

def handleUpdateFile (ctx : Context) (fileID : Str) (body : FileJSON) : Handler :=
  if !isUUID fileID then .done (.error (badRequest "file id must be a UUID"))
  else replaceFile prim cfg ctx {body with fileID := fileID}

def tombstone (ctx : Context) (cur : FileRecord) : FileRecord :=
  {cur with deleted := true,modifiedAt := ctx.now,originDeviceID := ctx.deviceID,size := 0}

def handleDeleteFile (ctx : Context) (fileID : Str) : Handler :=
  .call (.getFile ctx.accountID fileID) fun
    | .error err => .done (.error (mapStoreErr err))
    | .ok cur => .call (.updateFile (tombstone ctx cur) cur.version) fun
      | .error err => .done (.error (mapStoreErr err))
      | .ok updated => publish ctx updated (.done (.record 200 (toFileJSON updated [])))

def restored (ctx : Context) (fileID : Str) (v : VersionRecord) (cur : FileRecord) : FileRecord where
  accountID := ctx.accountID
  fileID := fileID
  encryptedMetadata := v.encryptedMetadata
  contentHash := v.contentHash
  version := 0
  versionVector := mergeVersionVector cur.versionVector v.versionVector
  deleted := v.deleted
  size := v.size
  blobKey := v.blobKey
  modifiedAt := ctx.now
  originDeviceID := ctx.deviceID
  changeSeq := 0

def handleRestoreVersion (ctx : Context) (fileID : Str) (version : Int) : Handler :=
  .call (.getVersion ctx.accountID fileID version) fun
    | .error err => .done (.error (mapStoreErr err))
    | .ok v => .call (.getFile ctx.accountID fileID) fun
      | .error err => .done (.error (mapStoreErr err))
      | .ok cur => .call (.updateFile (restored ctx fileID v cur) cur.version) fun
        | .error err => .done (.error (mapStoreErr err))
        | .ok updated => publish ctx updated (.done (.record 200 (toFileJSON updated [])))

def readBlob (key : Str) (next : BlobRead → Handler) : Handler := .call (.getBlob key) next

def handleGetFile (ctx : Context) (fileID : Str) : Handler :=
  .call (.getFile ctx.accountID fileID) fun
    | .error err => .done (.error (mapStoreErr err))
    | .ok f =>
      if f.deleted then .done (.record 200 (toFileJSON f []))
      else readBlob f.blobKey fun
        | .missing => .done (.error errNotFound)
        | .failed => .done (.error internalError)
        | .found content => .done (.record 200 (toFileJSON f (Base64.encodeBase64URL content)))

def failedItem (fileID : Str) (error : String) (conflict : Option FileJSON) : BatchResultItem :=
  ⟨fileID,false,lit error,conflict,none,[]⟩

/-- The tail of one batch upload, after the store has answered. -/
def finishUpload (ctx : Context) (u : FileJSON) (outcome : Except StoreError FileRecord)
    (next : BatchResultItem → Handler) : Handler :=
  match outcome with
  | .error _ => next (failedItem u.fileID "internal" none)
  | .ok out => publish ctx out (next ⟨u.fileID,true,[],none,some (toFileJSON out []),[]⟩)

/-- One iteration of the upload loop of `handleBatch`. -/
def batchUpload (ctx : Context) (u : FileJSON) (next : BatchResultItem → Handler) : Handler :=
  match validateIncomingFile prim cfg u with
  | some _ => next (failedItem u.fileID "invalid_request" none)
  | none =>
    storeBlob u fun stored =>
    if !stored then next (failedItem u.fileID "internal" none)
    else .call (.getFile ctx.accountID u.fileID) fun
      | .error .notFound => .call (.createFile (recordFromRequest ctx u)) fun outcome =>
        finishUpload ctx u outcome next
      | .error err => finishUpload ctx u (.error err) next
      | .ok _ => .call (.updateFile (recordFromRequest ctx u) u.baseVersion) fun
        | .error .conflict => .call (.getFile ctx.accountID u.fileID) fun
          | .ok cur => next (failedItem u.fileID "conflict" (some (toFileJSON cur [])))
          | .error _ => finishUpload ctx u (.error .conflict) next
        | outcome => finishUpload ctx u outcome next

def batchUploads (ctx : Context) : List FileJSON → List BatchResultItem →
    (List BatchResultItem → Handler) → Handler
  | [],results,next => next results
  | u::rest,results,next =>
    batchUpload prim cfg ctx u fun item => batchUploads ctx rest (results ++ [item]) next

def batchDownloads (ctx : Context) : List Str → List BatchResultItem →
    (List BatchResultItem → Handler) → Handler
  | [],results,next => next results
  | id::rest,results,next =>
    .call (.getFile ctx.accountID id) fun
      | .error _ => batchDownloads ctx rest (results ++ [failedItem id "not_found" none]) next
      | .ok f =>
        if f.deleted then
          batchDownloads ctx rest (results ++ [⟨id,true,[],none,some (toFileJSON f []),[]⟩]) next
        else readBlob f.blobKey fun
          | .found content => batchDownloads ctx rest (results ++
            [⟨id,true,[],none,some (toFileJSON f []),Base64.encodeBase64URL content⟩]) next
          | _ => batchDownloads ctx rest (results ++ [⟨id,true,[],none,some (toFileJSON f []),[]⟩]) next

/-- The declared sizes, summed in `int64`. -/
def batchTotal (uploads : List FileJSON) : Int :=
  uploads.foldl (fun total u => wrap64 (total + u.size)) 0

def handleBatch (ctx : Context) (uploads : List FileJSON) (downloads : List Str) : Handler :=
  if batchTotal uploads > cfg.maxBatchBytes then
    .done (.error (apiError 413 "payload_too_large" "batch exceeds size limit"))
  else batchUploads prim cfg ctx uploads [] fun results =>
    batchDownloads ctx downloads results fun results => .done (.batch results)

/-- `maxSeq` of `handleChanges`. -/
def latestSeq (since : Nat) (changes : List Change) : Nat :=
  changes.foldl (fun maxSeq c => if maxSeq < c.changeSeq then c.changeSeq else maxSeq) since

/-- The largest sequence number of the page, or `since` if there is none above it. -/
theorem latestSeq_cases (since : Nat) (changes : List Change) :
    latestSeq since changes = since ∨ ∃ c ∈ changes, latestSeq since changes = c.changeSeq := by
  induction changes generalizing since with
  | nil => exact Or.inl rfl
  | cons c rest ih =>
    simp only [latestSeq,List.foldl_cons] at ih ⊢
    split
    · rcases ih c.changeSeq with same | ⟨d,member,same⟩
      · exact Or.inr ⟨c,List.mem_cons_self,same⟩
      · exact Or.inr ⟨d,List.mem_cons_of_mem _ member,same⟩
    · rcases ih since with same | ⟨d,member,same⟩
      · exact Or.inl same
      · exact Or.inr ⟨d,List.mem_cons_of_mem _ member,same⟩

def handleChanges (ctx : Context) (since : Nat) : Handler :=
  .call (.listChangesSince ctx.accountID since 1000) fun changes =>
    .done (.changes changes (latestSeq since changes))

/-- An authenticated request to one of the file endpoints. -/
inductive Request where
  | post (ctx : Context) (req : FileJSON)
  | put (ctx : Context) (fileID : Str) (req : FileJSON)
  | delete (ctx : Context) (fileID : Str)
  | restore (ctx : Context) (fileID : Str) (version : Int)
  | batch (ctx : Context) (uploads : List FileJSON) (downloads : List Str)
  | get (ctx : Context) (fileID : Str)
  | poll (ctx : Context) (since : Nat)

def handle : Request → Handler
  | .post ctx req => handleCreateFile prim cfg ctx req
  | .put ctx fileID req => handleUpdateFile prim cfg ctx fileID req
  | .delete ctx fileID => handleDeleteFile ctx fileID
  | .restore ctx fileID version => handleRestoreVersion ctx fileID version
  | .batch ctx uploads downloads => handleBatch prim cfg ctx uploads downloads
  | .get ctx fileID => handleGetFile ctx fileID
  | .poll ctx since => handleChanges ctx since

end NPSync.Server
