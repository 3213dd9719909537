import NPSync.Server.Handlers

/-! What every handler does with blobs between its calls. A request holds a
blob key from the moment it stored the blob (or read the live version it will
restore) to its metadata write, and it owes the deletions its pruning returned.
Every handler writes a live record only under a key it holds, deletes only keys
it owes and prunes with a positive bound. -/
namespace NPSync.Server
open Library

abbrev CallEvent := Event Call Call.Result

/-- The blob keys a request holds after one more call. -/
def holdStep (held : List Str) : CallEvent → List Str
  | ⟨.putBlob key _,true⟩ => key::held
  | ⟨.getVersion ..,.ok v⟩ => if v.deleted then held else v.blobKey::held
  | ⟨.createFile _,_⟩ => []
  | ⟨.updateFile ..,_⟩ => []
  | _ => held

def held (log : List CallEvent) : List Str := log.foldl holdStep []

/-- The blob deletions a request still owes after one more call. -/
def oweStep (owed : List Str) : CallEvent → List Str
  | ⟨.pruneVersions ..,keys⟩ => List.append owed keys
  | ⟨.deleteBlob key,_⟩ => owed.erase key
  | _ => owed

def owed (log : List CallEvent) : List Str := log.foldl oweStep []

def Allowed (log : List CallEvent) : Call → Prop
  | .createFile rec => rec.deleted = false → rec.blobKey ∈ held log
  | .updateFile rec _ => rec.deleted = false → rec.blobKey ∈ held log
  | .deleteBlob key => key ∈ owed log
  | .pruneVersions _ _ keep => 0 < keep
  | _ => True

@[simp] theorem held_append (log : List CallEvent) (e : CallEvent) :
    held (log ++ [e]) = holdStep (held log) e := by
  simp [held]

@[simp] theorem owed_append (log : List CallEvent) (e : CallEvent) :
    owed (log ++ [e]) = oweStep (owed log) e := by
  simp [owed]

theorem owed_quiet {log : List CallEvent} (e : CallEvent) (owes : owed log = [])
    (quiet : oweStep [] e = []) : owed (log ++ [e]) = [] := by
  rw [owed_append,owes,quiet]

/-- A tail that may run after any calls. -/
def Free (next : Handler) : Prop := ∀ log, next.Keeps Allowed log

theorem free_done (response : Response) : Free (.done response) := fun _ => trivial

theorem free_publish (ctx : Context) (rec : FileRecord) (next : Handler) (free : Free next) :
    Free (publish ctx rec next) := fun _ => ⟨trivial,fun _ => free _⟩

theorem free_saveIdempotency (ctx : Context) (key : Str) (response : FileJSON) (next : Handler)
    (free : Free next) : Free (saveIdempotency ctx key response next) := by
  intro log
  unfold saveIdempotency
  split
  · exact free log
  · exact ⟨trivial,fun _ => free _⟩

theorem free_readBlob (key : Str) (next : BlobRead → Handler) (free : ∀ answer, Free (next answer)) :
    Free (readBlob key next) := fun _ => ⟨trivial,fun answer => free answer _⟩

theorem deleteBlobs_keeps (keys : List Str) (next : Handler) (free : Free next)
    (log : List CallEvent) (owes : owed log = keys) : (deleteBlobs keys next).Keeps Allowed log := by
  induction keys generalizing log with
  | nil => exact free log
  | cons key rest ih =>
    refine ⟨?_,fun _ => ih _ ?_⟩
    · change key ∈ owed log
      simp [owes]
    · simp [oweStep,owes]

theorem pruneVersions_keeps (cfg : Config) (ctx : Context) (fileID : Str) (next : Handler)
    (free : Free next) (log : List CallEvent) (owes : owed log = []) :
    (pruneVersions cfg ctx fileID next).Keeps Allowed log := by
  unfold pruneVersions
  split
  · exact free log
  · rename_i positive
    refine ⟨?_,fun keys => deleteBlobs_keeps keys next free _ ?_⟩
    · change 0 < cfg.versionRetention.toNat
      omega
    · rw [owed_append,owes]
      rfl

theorem checkIdempotency_keeps (ctx : Context) (key : Str) (found : FileJSON → Handler) (absent : Handler)
    (free : ∀ response, Free (found response)) (log : List CallEvent) (owes : owed log = [])
    (continues : ∀ log, owed log = [] → absent.Keeps Allowed log) :
    (checkIdempotency ctx key found absent).Keeps Allowed log := by
  unfold checkIdempotency
  split
  · exact continues log owes
  · refine ⟨trivial,fun answer => ?_⟩
    cases answer with
    | some response => exact free response _
    | none => exact continues _ (owed_quiet _ owes rfl)

theorem storeBlob_keeps (req : FileJSON) (next : Bool → Handler) (log : List CallEvent)
    (owes : owed log = [])
    (stops : ∀ log, owed log = [] → (next false).Keeps Allowed log)
    (continues : ∀ log, owed log = [] →
      (req.deleted = false → blobKey req.contentHash ∈ held log) → (next true).Keeps Allowed log) :
    (storeBlob req next).Keeps Allowed log := by
  unfold storeBlob
  split
  · rename_i gone
    exact continues log owes (fun live => by simp [gone] at live)
  · refine ⟨trivial,fun stored => ?_⟩
    cases stored with
    | false => exact stops _ (owed_quiet _ owes rfl)
    | true => exact continues _ (owed_quiet _ owes rfl) (fun _ => by simp [holdStep])

variable (prim : Primitives) (cfg : Config)

theorem handleCreateFile_keeps (ctx : Context) (req : FileJSON) :
    (handleCreateFile prim cfg ctx req).Keeps Allowed [] := by
  unfold handleCreateFile
  split
  · trivial
  · refine checkIdempotency_keeps _ _ _ _ (fun _ => free_done _) _ rfl fun log owes => ?_
    refine storeBlob_keeps _ _ _ owes (fun _ _ => trivial) fun log owes holds => ?_
    refine ⟨holds,fun answer => ?_⟩
    cases answer with
    | error err => cases err <;> trivial
    | ok created => exact free_publish _ _ _ (free_saveIdempotency _ _ _ _ (free_done _)) _

theorem handleUpdateFile_keeps (ctx : Context) (fileID : Str) (body : FileJSON) :
    (handleUpdateFile prim cfg ctx fileID body).Keeps Allowed [] := by
  unfold handleUpdateFile
  split
  · trivial
  unfold replaceFile
  split
  · trivial
  · refine checkIdempotency_keeps _ _ _ _ (fun _ => free_done _) _ rfl fun log owes => ?_
    refine storeBlob_keeps _ _ _ owes (fun _ _ => trivial) fun log owes holds => ?_
    refine ⟨holds,fun answer => ?_⟩
    cases answer with
    | error err =>
      cases err with
      | conflict => exact ⟨trivial,fun read => by cases read <;> trivial⟩
      | notFound => trivial
      | duplicate => trivial
    | ok updated =>
      exact pruneVersions_keeps _ _ _ _
        (free_publish _ _ _ (free_saveIdempotency _ _ _ _ (free_done _))) _
        (owed_quiet _ owes rfl)

theorem handleDeleteFile_keeps (ctx : Context) (fileID : Str) :
    (handleDeleteFile ctx fileID).Keeps Allowed [] := by
  refine ⟨trivial,fun read => ?_⟩
  cases read with
  | error err => trivial
  | ok cur =>
    refine ⟨fun live => by simp [tombstone] at live,fun answer => ?_⟩
    cases answer with
    | error err => trivial
    | ok updated => exact free_publish _ _ _ (free_done _) _

theorem handleRestoreVersion_keeps (ctx : Context) (fileID : Str) (version : Int) :
    (handleRestoreVersion ctx fileID version).Keeps Allowed [] := by
  refine ⟨trivial,fun read => ?_⟩
  cases read with
  | error err => trivial
  | ok v =>
    refine ⟨trivial,fun head => ?_⟩
    cases head with
    | error err => trivial
    | ok cur =>
      refine ⟨fun live => ?_,fun answer => ?_⟩
      · change v.deleted = false at live
        simp [holdStep,held,live,restored]
      · cases answer with
        | error err => trivial
        | ok updated => exact free_publish _ _ _ (free_done _) _

theorem handleGetFile_free (ctx : Context) (fileID : Str) : Free (handleGetFile ctx fileID) := by
  intro log
  refine ⟨trivial,fun read => ?_⟩
  cases read with
  | error err => trivial
  | ok f =>
    dsimp only
    split
    · trivial
    · exact free_readBlob _ _ (fun answer => by cases answer <;> exact free_done _) _

private theorem finishUpload_keeps (ctx : Context) (u : FileJSON)
    (outcome : Except StoreError FileRecord) (next : BatchResultItem → Handler)
    (continues : ∀ item log, owed log = [] → (next item).Keeps Allowed log)
    (log : List CallEvent) (owes : owed log = []) :
    (finishUpload ctx u outcome next).Keeps Allowed log := by
  cases outcome with
  | error err => exact continues _ _ owes
  | ok out => exact ⟨trivial,fun _ => continues _ _ (owed_quiet _ owes rfl)⟩

theorem batchUpload_keeps (ctx : Context) (u : FileJSON) (next : BatchResultItem → Handler)
    (continues : ∀ item log, owed log = [] → (next item).Keeps Allowed log)
    (log : List CallEvent) (owes : owed log = []) :
    (batchUpload prim cfg ctx u next).Keeps Allowed log := by
  have finish := finishUpload_keeps ctx u
  unfold batchUpload
  split
  · exact continues _ _ owes
  · refine storeBlob_keeps _ _ _ owes (continues _) fun log owes holds => ?_
    refine ⟨trivial,fun read => ?_⟩
    have owes := owed_quiet ⟨.getFile ctx.accountID u.fileID,read⟩ owes rfl
    have holds : u.deleted = false →
        blobKey u.contentHash ∈ held (log ++ [⟨.getFile ctx.accountID u.fileID,read⟩]) := by
      rw [held_append]
      exact holds
    cases read with
    | error err =>
      cases err with
      | notFound => exact ⟨holds,fun outcome => finish _ _ continues _ (owed_quiet _ owes rfl)⟩
      | conflict => exact finish _ _ continues _ owes
      | duplicate => exact finish _ _ continues _ owes
    | ok current =>
      refine ⟨holds,fun outcome => ?_⟩
      have owes := owed_quiet ⟨.updateFile (recordFromRequest ctx u) u.baseVersion,outcome⟩ owes rfl
      cases outcome with
      | ok out => exact finish _ _ continues _ owes
      | error err =>
        cases err with
        | conflict =>
          refine ⟨trivial,fun again => ?_⟩
          cases again with
          | ok cur => exact continues _ _ (owed_quiet _ owes rfl)
          | error err => exact finish _ _ continues _ (owed_quiet _ owes rfl)
        | notFound => exact finish _ _ continues _ owes
        | duplicate => exact finish _ _ continues _ owes

theorem batchUploads_keeps (ctx : Context) (uploads : List FileJSON) (results : List BatchResultItem)
    (next : List BatchResultItem → Handler) (free : ∀ results, Free (next results))
    (log : List CallEvent) (owes : owed log = []) :
    (batchUploads prim cfg ctx uploads results next).Keeps Allowed log := by
  induction uploads generalizing results log with
  | nil => exact free results log
  | cons u rest ih => exact batchUpload_keeps prim cfg ctx u _ (fun _ _ owes => ih _ _ owes) log owes

theorem free_batchDownloads (ctx : Context) (ids : List Str) (results : List BatchResultItem)
    (next : List BatchResultItem → Handler) (free : ∀ results, Free (next results)) :
    Free (batchDownloads ctx ids results next) := by
  induction ids generalizing results with
  | nil => exact free results
  | cons id rest ih =>
    intro log
    refine ⟨trivial,fun read => ?_⟩
    cases read with
    | error err => exact ih _ _
    | ok f =>
      dsimp only
      split
      · exact ih _ _
      · exact free_readBlob _ _ (fun answer => by cases answer <;> exact ih _) _

/-- Every request keeps the discipline, whatever the store answers. -/
theorem handle_keeps (request : Request) : (handle prim cfg request).Keeps Allowed [] := by
  cases request with
  | post ctx req => exact handleCreateFile_keeps prim cfg ctx req
  | put ctx fileID req => exact handleUpdateFile_keeps prim cfg ctx fileID req
  | delete ctx fileID => exact handleDeleteFile_keeps ctx fileID
  | restore ctx fileID version => exact handleRestoreVersion_keeps ctx fileID version
  | batch ctx uploads downloads =>
    simp only [handle,handleBatch]
    split
    · trivial
    · exact batchUploads_keeps prim cfg ctx uploads [] _
        (fun results => free_batchDownloads ctx downloads results _ (fun _ => free_done _)) [] rfl
  | get ctx fileID => exact handleGetFile_free ctx fileID []
  | poll ctx since => exact ⟨trivial,fun _ => trivial⟩

end NPSync.Server
