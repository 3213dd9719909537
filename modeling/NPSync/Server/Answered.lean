import NPSync.Library.Ledger
import NPSync.Server.Discipline

/-! What the answer to an upload or a download says of the calls that were made for it. -/
namespace NPSync.Server
open Library

section
variable {good : Response → Prop}

theorem publish_ends (ctx : Context) (rec : FileRecord) {next : Handler} (ends : next.Ends good) :
    (publish ctx rec next).Ends good := fun _ => ends

theorem saveIdempotency_ends (ctx : Context) (key : Str) (response : FileJSON) {next : Handler} (ends : next.Ends good) :
    (saveIdempotency ctx key response next).Ends good := by
  unfold saveIdempotency
  split
  · exact ends
  · exact fun _ => ends

theorem deleteBlobs_ends (keys : List Str) {next : Handler} (ends : next.Ends good) :
    (deleteBlobs keys next).Ends good := by
  induction keys with
  | nil => exact ends
  | cons key rest ih => exact fun _ => ih

theorem pruneVersions_ends (cfg : Config) (ctx : Context) (fileID : Str) {next : Handler} (ends : next.Ends good) :
    (pruneVersions cfg ctx fileID next).Ends good := by
  unfold pruneVersions
  split
  · exact ends
  · exact fun keys => deleteBlobs_ends keys ends

end

/-- The body is a stored answer that was read, or the record that was written. -/
def Written (ctx : Context) (req : FileJSON) (log : List CallEvent) (body : FileJSON) : Prop :=
  (∃ key, ⟨.getIdempotentResponse ctx.accountID key,some body⟩ ∈ log) ∨
  ∃ head, body = toFileJSON head [] ∧ (⟨.createFile (recordFromRequest ctx req),.ok head⟩ ∈ log ∨
    ⟨.updateFile (recordFromRequest ctx req) req.baseVersion,.ok head⟩ ∈ log)

/-- An accepted upload was written, and the record in a rejection was read last. -/
def UploadAnswer (ctx : Context) (req : FileJSON) (log : List CallEvent) : Response → Prop
  | .record status body => (status = 200 ∨ status = 201) ∧ Written ctx req log body
  | .error err => 400 ≤ err.httpStatus ∧ ∀ current ∈ err.current, ∃ before cur,
      log = before ++ [⟨.getFile ctx.accountID req.fileID,.ok cur⟩] ∧ current = toFileJSON cur []
  | _ => False

section
variable {ctx : Context} {req : FileJSON}

theorem UploadAnswer.plain {log : List CallEvent} {err : APIError} (status : 400 ≤ err.httpStatus)
    (bare : err.current = none) : UploadAnswer ctx req log (.error err) := by
  refine ⟨status,fun current member => ?_⟩
  rw [bare] at member
  contradiction

theorem UploadAnswer.mapped {log : List CallEvent} (err : StoreError) :
    UploadAnswer ctx req log (.error (mapStoreErr err)) := by
  cases err <;> exact .plain (by decide) rfl

theorem checkIdempotency_answers {absent : Handler} (rest : ∀ log, absent.Answers (UploadAnswer ctx req) log)
    (log : List CallEvent) :
    (checkIdempotency ctx req.idempotencyKey (fun response => .done (.record 200 response)) absent).Answers
      (UploadAnswer ctx req) log := by
  unfold checkIdempotency
  split
  · exact rest log
  · intro stored
    cases stored with
    | none => exact rest _
    | some response => exact ⟨.inl rfl,.inl ⟨_,List.mem_append_right _ List.mem_cons_self⟩⟩

theorem storeBlob_answers {good : List CallEvent → Response → Prop} {next : Bool → Handler}
    (rest : ∀ stored log, (next stored).Answers good log) (log : List CallEvent) :
    (storeBlob req next).Answers good log := by
  unfold storeBlob
  split
  · exact rest true log
  · exact fun stored => rest stored _

variable (prim : Primitives) (cfg : Config) (ctx)

theorem handleCreateFile_answers (req : FileJSON) :
    (handleCreateFile prim cfg ctx req).Answers (UploadAnswer ctx req) [] := by
  unfold handleCreateFile
  split
  · rename_i err invalid
    obtain ⟨status,bare⟩ := validateIncomingFile_error prim cfg invalid
    exact .plain status bare
  apply checkIdempotency_answers
  intro log
  refine storeBlob_answers (fun stored log => ?_) log
  split
  · exact .plain (by decide) rfl
  intro result
  rcases result with err | created
  · cases err <;> exact .plain (by decide) rfl
  · have ended : Program.Ends (fun out => out = .record 201 (toFileJSON created []))
        (.done (.record 201 (toFileJSON created [])) : Handler) := rfl
    apply Program.Ends.answers (publish_ends ctx created (saveIdempotency_ends ctx _ _ ended))
    rintro more value rfl
    refine ⟨.inr rfl,.inr ⟨created,rfl,.inl ?_⟩⟩
    simp

theorem handleUpdateFile_answers (fileID : Str) (body : FileJSON) :
    (handleUpdateFile prim cfg ctx fileID body).Answers (UploadAnswer ctx {body with fileID := fileID}) [] := by
  unfold handleUpdateFile
  split
  · exact .plain (by decide) rfl
  unfold replaceFile
  split
  · rename_i err invalid
    obtain ⟨status,bare⟩ := validateIncomingFile_error prim cfg invalid
    exact .plain status bare
  apply checkIdempotency_answers
  intro log
  refine storeBlob_answers (fun stored log => ?_) log
  split
  · exact .plain (by decide) rfl
  intro result
  rcases result with err | updated
  · cases err with
    | conflict =>
      intro read
      cases read with
      | error err => exact .mapped err
      | ok cur =>
        refine ⟨(by decide : 400 ≤ 409),fun current member => ?_⟩
        cases member
        exact ⟨_,cur,rfl,rfl⟩
    | duplicate => exact .mapped _
    | notFound => exact .mapped _
  · have ended : Program.Ends (fun out => out = .record 200 (toFileJSON updated []))
        (.done (.record 200 (toFileJSON updated [])) : Handler) := rfl
    apply Program.Ends.answers
      (pruneVersions_ends cfg ctx _ (publish_ends ctx updated (saveIdempotency_ends ctx _ _ ended)))
    rintro more value rfl
    refine ⟨.inl rfl,.inr ⟨updated,rfl,.inr ?_⟩⟩
    simp

end

/-- A download is answered with the head that was read and, if it is live, the blob that was read for it. -/
def DownloadAnswer (ctx : Context) (fileID : Str) (log : List CallEvent) : Response → Prop
  | .record status body => status = 200 ∧ ∃ f, (f.deleted = true ∧ log = [⟨.getFile ctx.accountID fileID,.ok f⟩] ∧
        body = toFileJSON f []) ∨
      f.deleted = false ∧ ∃ content, log = [⟨.getFile ctx.accountID fileID,.ok f⟩,⟨.getBlob f.blobKey,.found content⟩] ∧
        body = toFileJSON f (Base64.encodeBase64URL content)
  | .error err => 400 ≤ err.httpStatus
  | _ => False

theorem handleGetFile_answers (ctx : Context) (fileID : Str) :
    (handleGetFile ctx fileID).Answers (DownloadAnswer ctx fileID) [] := by
  intro result
  cases result with
  | error err =>
    cases err with
    | notFound => exact (by decide : 400 ≤ 404)
    | conflict => exact (by decide : 400 ≤ 500)
    | duplicate => exact (by decide : 400 ≤ 409)
  | ok f =>
    dsimp only
    split
    · rename_i gone
      exact ⟨rfl,f,.inl ⟨gone,rfl,rfl⟩⟩
    · rename_i live
      intro read
      cases read with
      | missing => exact (by decide : 400 ≤ 404)
      | failed => exact (by decide : 400 ≤ 500)
      | found content => exact ⟨rfl,f,.inr ⟨by simpa using live,content,rfl,rfl⟩⟩

end NPSync.Server
