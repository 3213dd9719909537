import NPSync.Server.VersionChain

/-! A single upload that no other request interrupts: `handleCreateFile` and
`handleUpdateFile` run from their first call to their answer. -/
namespace NPSync.Server
open Library

variable (fault : Bool) (s : State)

/-- The state with a blob written, and whether `storeBlob` succeeded. -/
def storing (req : FileJSON) : Bool × State :=
  if req.deleted then (true,s)
  else exec fault s (.putBlob (blobKey req.contentHash) (mustDecode req.encryptedContent))

def published (ctx : Context) (rec : FileRecord) : State := (exec fault s (.publish ctx.accountID ctx.deviceID rec)).2

def answered (ctx : Context) (key : Str) (response : FileJSON) : State :=
  if idempotencyKeyOf ctx key = [] then s
  else {s with mem := s.mem.saveIdempotentResponse ctx.accountID (idempotencyKeyOf ctx key) response}

def deleting (keys : List Str) : State := keys.foldl (fun s key => (exec fault s (.deleteBlob key)).2) s

def pruning (cfg : Config) (ctx : Context) (fileID : Str) : State :=
  if cfg.versionRetention ≤ 0 then s
  else
    let out := exec fault s (.pruneVersions ctx.accountID fileID cfg.versionRetention.toNat)
    deleting fault out.2 out.1

/-- The response stored under the key of a request, if it has one. -/
def storedResponse (ctx : Context) (key : Str) : Option FileJSON :=
  if idempotencyKeyOf ctx key = [] then none
  else s.mem.getIdempotentResponse ctx.accountID (idempotencyKeyOf ctx key)

section
variable (next : Handler)

theorem run_publish (ctx : Context) (rec : FileRecord) :
    (publish ctx rec next).run (exec fault) s = next.run (exec fault) (published fault s ctx rec) := rfl

theorem run_saveIdempotency (ctx : Context) (key : Str) (response : FileJSON) :
    (saveIdempotency ctx key response next).run (exec fault) s =
      next.run (exec fault) (answered s ctx key response) := by
  unfold saveIdempotency answered
  split
  · rfl
  · rfl

theorem run_storeBlob (req : FileJSON) (next : Bool → Handler) :
    (storeBlob req next).run (exec fault) s =
      (next (storing fault s req).1).run (exec fault) (storing fault s req).2 := by
  by_cases gone : req.deleted = true
  · simp [storeBlob,storing,gone]
  · simp [storeBlob,storing,gone]

theorem run_checkIdempotency (ctx : Context) (key : Str) (found : FileJSON → Handler) :
    (checkIdempotency ctx key found next).run (exec fault) s =
      match storedResponse s ctx key with
      | some response => (found response).run (exec fault) s
      | none => next.run (exec fault) s := by
  unfold checkIdempotency storedResponse
  split
  · rfl
  · simp only [Program.run_call,exec]
    split
    · rename_i same
      rw [same]
    · rename_i same
      rw [same]

theorem run_deleteBlobs (keys : List Str) :
    (deleteBlobs keys next).run (exec fault) s = next.run (exec fault) (deleting fault s keys) := by
  induction keys generalizing s with
  | nil => rfl
  | cons key rest ih => exact ih _

theorem run_pruneVersions (cfg : Config) (ctx : Context) (fileID : Str) :
    (pruneVersions cfg ctx fileID next).run (exec fault) s =
      next.run (exec fault) (pruning fault s cfg ctx fileID) := by
  unfold pruneVersions pruning
  split
  · rfl
  · exact run_deleteBlobs fault _ next _

end

section
variable (prim : Primitives) (cfg : Config) (ctx : Context) (req : FileJSON)

/-- The record a create commits. -/
def created (m : Mem FileJSON) : FileRecord :=
  {recordFromRequest ctx req with version := 1,changeSeq := m.nextSeq}

/-- The record an update commits over `cur`. -/
def updated (m : Mem FileJSON) (cur : FileRecord) : FileRecord :=
  {recordFromRequest ctx req with version := cur.version + 1,changeSeq := m.nextSeq}

def committed (s : State) (rec : FileRecord) : State :=
  {s with mem := s.mem.commit (Mem.fileKey ctx.accountID req.fileID) rec}

theorem mapStoreErr_refuses (err : StoreError) : 400 ≤ (mapStoreErr err).httpStatus := by
  cases err <;> decide

/-- Everything `handleCreateFile` can do. -/
theorem handleCreateFile_run (out : Response × State)
    (same : (handleCreateFile prim cfg ctx req).run (exec fault) s = out) :
    (∃ err, 400 ≤ err.httpStatus ∧ out = (.error err,s)) ∨
    (∃ response, storedResponse s ctx req.idempotencyKey = some response ∧
      out = (.record 200 response,s)) ∨
    (validateIncomingFile prim cfg req = none ∧
      ((∃ err, 400 ≤ err.httpStatus ∧ out = (.error err,(storing fault s req).2)) ∨
      ∃ rec, rec = created ctx req (storing fault s req).2.mem ∧ (storing fault s req).1 = true ∧
        (storing fault s req).2.mem.files.get (Mem.fileKey ctx.accountID req.fileID) = none ∧
        out = (.record 201 (toFileJSON rec []),answered (published fault
          (committed ctx req (storing fault s req).2 rec) ctx rec) ctx req.idempotencyKey (toFileJSON rec [])))) := by
  cases checked : validateIncomingFile prim cfg req with
  | some err =>
    simp only [handleCreateFile,checked,Program.run_done] at same
    exact Or.inl ⟨err,(validateIncomingFile_error prim cfg checked).1,same.symm⟩
  | none =>
    simp only [handleCreateFile,checked,run_checkIdempotency,run_storeBlob] at same
    cases stored : storedResponse s ctx req.idempotencyKey with
    | some response =>
      rw [stored] at same
      exact Or.inr (Or.inl ⟨response,rfl,same.symm⟩)
    | none =>
      rw [stored] at same
      refine Or.inr (Or.inr ⟨rfl,?_⟩)
      cases put : (storing fault s req).1 with
      | false =>
        rw [put] at same
        exact Or.inl ⟨internalError,by decide,same.symm⟩
      | true =>
        simp only [put,Bool.not_true,Bool.false_eq_true,if_false,Program.run_call,exec] at same
        rcases (storing fault s req).2.mem.createFile_cases (recordFromRequest ctx req) with
          refused | ⟨absent,accepted⟩
        · rw [refused] at same
          exact Or.inl ⟨_,by decide,same.symm⟩
        · rw [accepted] at same
          dsimp only at same
          rw [run_publish,run_saveIdempotency] at same
          exact Or.inr ⟨_,rfl,rfl,absent,same.symm⟩

/-- Everything `handleUpdateFile` can do with a well-formed id in its path. -/
theorem replaceFile_run (out : Response × State)
    (same : (replaceFile prim cfg ctx req).run (exec fault) s = out) :
    (∃ err, 400 ≤ err.httpStatus ∧ out = (.error err,s)) ∨
    (∃ response, storedResponse s ctx req.idempotencyKey = some response ∧
      out = (.record 200 response,s)) ∨
    (validateIncomingFile prim cfg req = none ∧
      ((∃ err, 400 ≤ err.httpStatus ∧ out = (.error err,(storing fault s req).2)) ∨
      ∃ cur rec, rec = updated ctx req (storing fault s req).2.mem cur ∧ (storing fault s req).1 = true ∧
        (storing fault s req).2.mem.files.get (Mem.fileKey ctx.accountID req.fileID) = some cur ∧
        (cur.version : Int) = req.baseVersion ∧
        out = (.record 200 (toFileJSON rec []),answered (published fault (pruning fault
          (committed ctx req (storing fault s req).2 rec) cfg ctx req.fileID) ctx rec)
          ctx req.idempotencyKey (toFileJSON rec [])))) := by
  cases checked : validateIncomingFile prim cfg req with
  | some err =>
    simp only [replaceFile,checked,Program.run_done] at same
    exact Or.inl ⟨err,(validateIncomingFile_error prim cfg checked).1,same.symm⟩
  | none =>
    simp only [replaceFile,checked,run_checkIdempotency,run_storeBlob] at same
    cases stored : storedResponse s ctx req.idempotencyKey with
    | some response =>
      rw [stored] at same
      exact Or.inr (Or.inl ⟨response,rfl,same.symm⟩)
    | none =>
      rw [stored] at same
      refine Or.inr (Or.inr ⟨rfl,?_⟩)
      cases put : (storing fault s req).1 with
      | false =>
        rw [put] at same
        exact Or.inl ⟨internalError,by decide,same.symm⟩
      | true =>
        simp only [put,Bool.not_true,Bool.false_eq_true,if_false,Program.run_call,exec] at same
        rcases (storing fault s req).2.mem.updateFile_cases (recordFromRequest ctx req) req.baseVersion with
          ⟨err,refused⟩ | ⟨cur,found,current,accepted⟩
        · rw [refused] at same
          -- a rejected write is followed by at most one more read
          cases err with
          | conflict =>
            simp only [Program.run_call,exec] at same
            split at same
            · exact Or.inl ⟨_,mapStoreErr_refuses _,same.symm⟩
            · exact Or.inl ⟨_,by simp [conflictError],same.symm⟩
          | notFound => exact Or.inl ⟨_,mapStoreErr_refuses _,same.symm⟩
          | duplicate => exact Or.inl ⟨_,mapStoreErr_refuses _,same.symm⟩
        · rw [accepted] at same
          dsimp only at same
          rw [run_pruneVersions,run_publish,run_saveIdempotency] at same
          exact Or.inr ⟨cur,_,rfl,rfl,found,current,same.symm⟩

end
end NPSync.Server
