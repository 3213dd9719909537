import NPSync.Server.Handlers

/-! Which calls the upload and download handlers can make, for any kind of call. -/
namespace NPSync.Server
open Library

/-- Calls that write neither a blob nor a record. -/
def Call.quiet : Call → Bool
  | .putBlob .. | .createFile _ | .updateFile .. => false
  | _ => true

section
variable {kind : Call → Prop} (quiet : ∀ call, call.quiet = true → kind call)
include quiet

theorem publish_only (ctx : Context) (rec : FileRecord) (next : Handler) (rest : next.Only kind) :
    (publish ctx rec next).Only kind := ⟨quiet _ rfl,fun _ => rest⟩

theorem saveIdempotency_only (ctx : Context) (key : Str) (response : FileJSON) (next : Handler)
    (rest : next.Only kind) : (saveIdempotency ctx key response next).Only kind := by
  unfold saveIdempotency
  split
  · exact rest
  · exact ⟨quiet _ rfl,fun _ => rest⟩

theorem checkIdempotency_only (ctx : Context) (key : Str) (found : FileJSON → Handler) (absent : Handler)
    (replays : ∀ response, (found response).Only kind) (rest : absent.Only kind) :
    (checkIdempotency ctx key found absent).Only kind := by
  unfold checkIdempotency
  split
  · exact rest
  · refine ⟨quiet _ rfl,fun stored => ?_⟩
    cases stored with
    | some response => exact replays response
    | none => exact rest

theorem deleteBlobs_only (keys : List Str) (next : Handler) (rest : next.Only kind) :
    (deleteBlobs keys next).Only kind := by
  induction keys with
  | nil => exact rest
  | cons key others ih => exact ⟨quiet _ rfl,fun _ => ih⟩

theorem pruneVersions_only (cfg : Config) (ctx : Context) (fileID : Str) (next : Handler) (rest : next.Only kind) :
    (pruneVersions cfg ctx fileID next).Only kind := by
  unfold pruneVersions
  split
  · exact rest
  · exact ⟨quiet _ rfl,fun keys => deleteBlobs_only quiet keys next rest⟩

omit quiet in
theorem storeBlob_only (req : FileJSON) (next : Bool → Handler)
    (put : req.deleted = false → kind (.putBlob (blobKey req.contentHash) (mustDecode req.encryptedContent)))
    (rest : ∀ stored, (next stored).Only kind) : (storeBlob req next).Only kind := by
  unfold storeBlob
  split
  · exact rest true
  · rename_i live
    exact ⟨put (by simpa using live),rest⟩

theorem handleGetFile_only (ctx : Context) (fileID : Str) : (handleGetFile ctx fileID).Only kind := by
  refine ⟨quiet _ rfl,fun result => ?_⟩
  cases result with
  | error err => trivial
  | ok f =>
    dsimp only
    split
    · trivial
    · refine ⟨quiet _ rfl,fun read => ?_⟩
      cases read <;> trivial

variable (prim : Primitives) (cfg : Config) (ctx : Context)

theorem handleCreateFile_only (req : FileJSON)
    (put : validateIncomingFile prim cfg req = none → req.deleted = false →
      kind (.putBlob (blobKey req.contentHash) (mustDecode req.encryptedContent)))
    (create : validateIncomingFile prim cfg req = none → kind (.createFile (recordFromRequest ctx req))) :
    (handleCreateFile prim cfg ctx req).Only kind := by
  unfold handleCreateFile
  split
  · trivial
  rename_i valid
  apply checkIdempotency_only quiet
  · intro response
    trivial
  apply storeBlob_only req _ (put valid)
  intro stored
  split
  · trivial
  refine ⟨create valid,fun result => ?_⟩
  rcases result with err | created
  · cases err <;> trivial
  · apply publish_only quiet
    apply saveIdempotency_only quiet
    trivial

theorem handleUpdateFile_only (fileID : Str) (body : FileJSON)
    (put : validateIncomingFile prim cfg {body with fileID := fileID} = none → body.deleted = false →
      kind (.putBlob (blobKey body.contentHash) (mustDecode body.encryptedContent)))
    (update : validateIncomingFile prim cfg {body with fileID := fileID} = none →
      kind (.updateFile (recordFromRequest ctx {body with fileID := fileID}) body.baseVersion)) :
    (handleUpdateFile prim cfg ctx fileID body).Only kind := by
  unfold handleUpdateFile
  split
  · trivial
  unfold replaceFile
  split
  · trivial
  rename_i valid
  apply checkIdempotency_only quiet
  · intro response
    trivial
  apply storeBlob_only _ _ (put valid)
  intro stored
  split
  · trivial
  refine ⟨update valid,fun result => ?_⟩
  rcases result with err | updated
  · cases err with
    | conflict =>
      refine ⟨quiet _ rfl,fun read => ?_⟩
      cases read <;> trivial
    | _ => trivial
  · apply pruneVersions_only quiet
    apply publish_only quiet
    apply saveIdempotency_only quiet
    trivial

theorem finishUpload_only (u : FileJSON) (outcome : Except StoreError FileRecord) (next : BatchResultItem → Handler)
    (rest : ∀ item, (next item).Only kind) : (finishUpload ctx u outcome next).Only kind := by
  cases outcome with
  | error err => exact rest _
  | ok out => exact publish_only quiet ctx out _ (rest _)

/-- The writes that a valid upload of a batch makes are of the kind. -/
structure UploadKind (kind : Call → Prop) (u : FileJSON) : Prop where
  put : u.deleted = false → kind (.putBlob (blobKey u.contentHash) (mustDecode u.encryptedContent))
  create : kind (.createFile (recordFromRequest ctx u))
  update : kind (.updateFile (recordFromRequest ctx u) u.baseVersion)

theorem batchUpload_only (u : FileJSON) (next : BatchResultItem → Handler)
    (writes : validateIncomingFile prim cfg u = none → UploadKind ctx kind u) (rest : ∀ item, (next item).Only kind) :
    (batchUpload prim cfg ctx u next).Only kind := by
  unfold batchUpload
  split
  · exact rest _
  rename_i valid
  have writes := writes valid
  apply storeBlob_only u _ writes.put
  intro stored
  split
  · exact rest _
  refine ⟨quiet _ rfl,fun read => ?_⟩
  rcases read with err | current
  · cases err with
    | notFound => exact ⟨writes.create,fun outcome => finishUpload_only quiet ctx u outcome next rest⟩
    | _ => exact finishUpload_only quiet ctx u _ next rest
  · refine ⟨writes.update,fun outcome => ?_⟩
    rcases outcome with err | out
    · cases err with
      | conflict =>
        refine ⟨quiet _ rfl,fun again => ?_⟩
        cases again with
        | ok cur => exact rest _
        | error err => exact finishUpload_only quiet ctx u _ next rest
      | _ => exact finishUpload_only quiet ctx u _ next rest
    · exact finishUpload_only quiet ctx u _ next rest

theorem batchUploads_only (uploads : List FileJSON) (results : List BatchResultItem)
    (next : List BatchResultItem → Handler)
    (writes : ∀ u ∈ uploads, validateIncomingFile prim cfg u = none → UploadKind ctx kind u)
    (rest : ∀ results, (next results).Only kind) : (batchUploads prim cfg ctx uploads results next).Only kind := by
  induction uploads generalizing results with
  | nil => exact rest results
  | cons u others ih =>
    apply batchUpload_only quiet prim cfg ctx u _ (writes u List.mem_cons_self)
    intro item
    exact ih (results ++ [item]) fun other member => writes other (List.mem_cons_of_mem u member)

omit prim cfg in
theorem batchDownloads_only (ids : List Str) (results : List BatchResultItem) (next : List BatchResultItem → Handler)
    (rest : ∀ results, (next results).Only kind) : (batchDownloads ctx ids results next).Only kind := by
  induction ids generalizing results with
  | nil => exact rest results
  | cons id others ih =>
    refine ⟨quiet _ rfl,fun read => ?_⟩
    cases read with
    | error err => exact ih _
    | ok f =>
      dsimp only
      split
      · exact ih _
      · refine ⟨quiet _ rfl,fun blob => ?_⟩
        cases blob <;> exact ih _

theorem handleBatch_only (uploads : List FileJSON) (downloads : List Str)
    (writes : ∀ u ∈ uploads, validateIncomingFile prim cfg u = none → UploadKind ctx kind u) :
    (handleBatch prim cfg ctx uploads downloads).Only kind := by
  unfold handleBatch
  split
  · trivial
  apply batchUploads_only quiet prim cfg ctx uploads [] _ writes
  intro results
  apply batchDownloads_only quiet ctx downloads results
  intro results
  trivial

end
end NPSync.Server
