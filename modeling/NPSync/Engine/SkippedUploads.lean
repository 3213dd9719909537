import NPSync.Engine.Ancestor
import NPSync.Engine.ConflictList

/-! When `uploadFile` sends nothing. Beside the device the run keeps, for every
key, the last state of the file on the server that an answer showed and the
device recorded in the key's row. -/
namespace NPSync.Engine
open Library

inductive ServerState where
  | live (text : Bytes)
  | tombstone
  deriving DecidableEq

section
variable (plat : Platform) (dev : Device)

/-- The plaintext of what a payload sends. -/
def sentText (payload : Payload) : Option Bytes :=
  match Base64.base64UrlDecode payload.encryptedContent with
  | none => none
  | some enc =>
    match Crypto.decrypt plat.prim dev.masterKey enc (lit "file") with
    | .plain text => some text
    | .threw | .rejected => none

/-- The state of the file after an accepted upload, or in a fetched record. -/
def shownState (event : ApiEvent) : Option ServerState :=
  match event.op with
  | .createFile payload | .updateFile _ payload => (sentText plat dev payload).map .live
  | .getFile _ =>
    if event.result.body.valueBool (lit "deleted") false = some true then some .tombstone
    else (fetchedText plat dev event.result).map .live
  | .deleteFile _ => none

/-- The key whose row an operation writes after its last answer. -/
def recordedKey (l : Local) (last : ApiEvent) : EngineOp → Outcome → Option Str
  | .upload relPath _ _,.stored | .upload relPath _ _,.merged => some relPath
  | .apply _ io _,.applied =>
    match planRemote plat dev l last.result io.opens with
    | .remove t => t.st.map fun _ => t.key
    | .replace t _ => some t.key
    | .stop _ | .conflict .. => none
  | .resolve fileId _ _,.applied =>
    (l.db.conflicts.get fileId).bind fun c => (l.db.getFile c.relPath).map fun _ => c.relPath
  | _,_ => none

/-- What is recorded after an operation; a deleted row takes its record with it. -/
def recordedAfter (l : Local) (op : EngineOp) (conversation : List ApiEvent) (outcome : Outcome)
    (recorded : Table Str ServerState) : Table Str ServerState :=
  match op,outcome with
  | .delete relPath,.applied => recorded.remove relPath
  | op,outcome =>
    match conversation.getLast? with
    | none => recorded
    | some last =>
      match recordedKey plat dev l last op outcome,shownState plat dev last with
      | some key,some state => recorded.upsert key state
      | _,_ => recorded

/-- The requests of an exchange are answered one after the other. -/
def answering (answers : Nat → ApiResponse) (sent : List ApiEvent) (call : ApiCall) : ApiResponse × List ApiEvent :=
  (answers sent.length,sent ++ [⟨call,answers sent.length⟩])

structure Tracked where
  here : Local
  recorded : Table Str ServerState

/-- An operation of the device and the answers that its requests get. -/
structure Answered where
  op : EngineOp
  answers : Nat → ApiResponse

def Tracked.step (s : Tracked) (e : Answered) : Tracked :=
  let ended := (e.op.exchange plat dev s.here).run (answering e.answers) []
  ⟨ended.1.2,recordedAfter plat dev s.here e.op ended.2 ended.1.1 s.recorded⟩

/-- No file is tracked yet. -/
def Tracked.initial (l : Local) : Tracked := ⟨{l with db := {l.db with files := .empty}},.empty⟩

/-- An upload that returns true without a request leaves the server with the
text of the file. -/
def Tracked.SkipJustified (s : Tracked) : EngineOp → Prop
  | .upload relPath absPath io => ∀ out, uploadFile plat dev s.here relPath absPath io = .done out → out.1.succeeded = true →
      ∃ text, s.recorded.get relPath = some (.live text) ∧ s.here.disk.read plat.win absPath = some text
  | _ => True

/-- The file has the content of both hashes of its row. -/
def Unchanged (l : Local) (relPath : Str) (absPath : WStr) (io : UploadIo) : Prop :=
  hasMasterKey dev = true ∧ ∃ text st, readFileBytes plat.win l.disk absPath io.opens = some text ∧
    text.length ≤ dev.maxFileBytes ∧ l.db.getFile relPath = some st ∧
    st.localHash = Crypto.sha256Hex plat.prim text ∧ st.remoteHash = Crypto.sha256Hex plat.prim text

/-- What was recorded last for an unchanged file is not a remote deletion. -/
def Tracked.NotDeleted (s : Tracked) : EngineOp → Prop
  | .upload relPath absPath io => Unchanged plat dev s.here relPath absPath io → s.recorded.get relPath ≠ some .tombstone
  | _ => True

/-- The content of the file and the recorded text have the same hash only if they are the same. -/
def Tracked.HashedApart (s : Tracked) : EngineOp → Prop
  | .upload relPath absPath _ => ∀ text held, s.here.disk.read plat.win absPath = some text →
      s.recorded.get relPath = some (.live held) → Crypto.sha256Hex plat.prim text = Crypto.sha256Hex plat.prim held → text = held
  | _ => True

/-! ### What one operation does to the rows and the record -/

/-- The rows and the record change together. -/
inductive RecordStep (s after : Tracked) : Prop
  | same (files : after.here.db.files = s.here.db.files) (recorded : after.recorded = s.recorded)
  | removed (key : Str) (files : after.here.db.files = s.here.db.files.remove key)
      (recorded : after.recorded = s.recorded.remove key)
  | opened (row : LocalFileState) (empty : row.localHash = [])
      (files : after.here.db.files = s.here.db.files.upsert row.relPath (LocalDb.toRow row))
      (recorded : after.recorded = s.recorded)
  | stored (row : LocalFileState) (state : ServerState)
      (hash : ∀ text, state = .live text → row.localHash = Crypto.sha256Hex plat.prim text)
      (files : after.here.db.files = s.here.db.files.upsert row.relPath (LocalDb.toRow row))
      (recorded : after.recorded = s.recorded.upsert row.relPath state)

/-- A row with a hash is that of a recorded state, and of its text if it is live. -/
def RowsRecorded (s : Tracked) : Prop :=
  ∀ relPath st, s.here.db.getFile relPath = some st → st.localHash ≠ [] →
    ∃ state, s.recorded.get relPath = some state ∧ ∀ text, state = .live text → st.localHash = Crypto.sha256Hex plat.prim text

end

theorem RowsRecorded.step {plat : Platform} {s after : Tracked} (holds : RowsRecorded plat s) (step : RecordStep plat s after) :
    RowsRecorded plat after := by
  intro relPath st tracked hashed
  cases step with
  | same files recorded =>
    rw [recorded]
    exact holds relPath st (by rw [LocalDb.getFile,← files]; exact tracked) hashed
  | removed key files recorded =>
    unfold LocalDb.getFile at tracked
    rw [files,Table.get_remove] at tracked
    split at tracked
    · contradiction
    · rename_i other
      rw [recorded,Table.get_remove_other _ _ _ other]
      exact holds relPath st tracked hashed
  | opened row empty files recorded =>
    rw [recorded]
    rcases getFile_upsert files tracked with ⟨rfl,rfl⟩ | ⟨-,old⟩
    · exact absurd empty hashed
    · exact holds relPath st old hashed
  | stored row state hash files recorded =>
    rw [recorded]
    rcases getFile_upsert files tracked with ⟨rfl,rfl⟩ | ⟨other,old⟩
    · exact ⟨state,Table.get_upsert_same _ _ _,hash⟩
    · rw [Table.get_upsert_other _ _ _ _ other]
      exact holds relPath st old hashed

section
variable {plat : Platform} {dev : Device} {l : Local} {conversation : List ApiEvent} {out : Outcome × Local}

theorem getFile_relPath {db : LocalDb} {relPath : Str} {st : LocalFileState} (tracked : db.getFile relPath = some st) :
    st.relPath = relPath := by
  obtain ⟨row,-,rfl⟩ := Option.map_eq_some_iff.mp tracked
  rfl

/-- The operation ended without a write of a row. -/
structure Quiet (l : Local) (out : Outcome × Local) : Prop where
  files : out.2.db.files = l.db.files
  stored : out.1 ≠ .stored
  merged : out.1 ≠ .merged
  applied : out.1 ≠ .applied

/-- The row of the path was written after the last answer, with the hash of the text that it shows. -/
def Writes (plat : Platform) (dev : Device) (l : Local) (relPath : Str) (conversation : List ApiEvent) (after : Local) : Prop :=
  ∃ last state row, conversation.getLast? = some last ∧ shownState plat dev last = some state ∧ row.relPath = relPath ∧
    (∀ text, state = .live text → row.localHash = Crypto.sha256Hex plat.prim text) ∧
    after.db.files = l.db.files.upsert relPath (LocalDb.toRow row)

theorem Writes.cons {relPath : Str} {after : Local} (event : ApiEvent) (writes : Writes plat dev l relPath conversation after) :
    Writes plat dev l relPath (event::conversation) after := by
  obtain ⟨last,state,row,ends,rest⟩ := writes
  refine ⟨last,state,row,?_,rest⟩
  rw [List.getLast?_cons,ends]
  rfl

theorem sentText_built {db : LocalDb} {relPath : Str} {plaintext : Bytes} {baseVersion : Int} {vv : VersionVector} {rnd : Random}
    {payload : Payload} (built : buildFilePayload plat dev db relPath plaintext baseVersion vv rnd = some payload) :
    sentText plat dev payload = some plaintext := by
  obtain ⟨encContent,metaStr,encMeta,vector,sealed,-,-,-,rfl⟩ := buildFilePayload_parts _ _ _ _ _ _ _ _ _ built
  simp only [sentText,Base64.base64UrlDecode_encode]
  rw [Crypto.decrypt_encrypt _ _ _ _ _ _ sealed]

theorem shownState_uploadCall (baseVersion : Int) (payload : Payload) (r : ApiResponse) :
    shownState plat dev ⟨uploadCall baseVersion payload,r⟩ = (sentText plat dev payload).map .live := by
  unfold uploadCall
  split
  · rfl
  · rfl

theorem refused_quiet (r : ApiResponse) (fallback : String) : (refused r fallback l).Ends (Quiet l) := by
  unfold refused
  split
  · exact ⟨rfl,nofun,nofun,nofun⟩
  · exact ⟨rfl,nofun,nofun,nofun⟩

theorem keepBoth_quiet (relPath : Str) (absPath : WStr) (serverCurrent : Json) (fileId : Str) (localText : Bytes)
    (io : MergeIo) : (keepBoth plat dev l relPath absPath serverCurrent fileId localText io).Ends (Quiet l) := by
  unfold keepBoth
  dsimp only
  split
  · exact ⟨rfl,nofun,nofun,nofun⟩
  · exact ⟨rfl,nofun,nofun,nofun⟩

theorem uploadMerged_writes {relPath : Str} {absPath : WStr} {serverCurrent : Json} {fileId : Str}
    {localText merged : Bytes} {rnd : Random} {io : MergeIo}
    (yields : (uploadMerged plat dev l relPath absPath serverCurrent fileId localText merged rnd io).Yields conversation out) :
    Quiet l out ∨ out.1 = .merged ∧ Writes plat dev l relPath conversation out.2 := by
  unfold uploadMerged at yields
  dsimp only at yields
  split at yields
  · obtain ⟨-,rfl⟩ := yields
    exact .inl ⟨rfl,nofun,nofun,nofun⟩
  split at yields
  case h_2 =>
    obtain ⟨-,rfl⟩ := yields
    exact .inl ⟨rfl,nofun,nofun,nofun⟩
  split at yields
  · obtain ⟨-,rfl⟩ := yields
    exact .inl ⟨rfl,nofun,nofun,nofun⟩
  rename_i payload built
  obtain ⟨r,rest,rfl,after⟩ := yields
  dsimp only at after
  split at after
  case isFalse =>
    have quiet := (keepBoth_quiet _ _ _ _ _ _).yields after
    exact .inl ⟨quiet.files,quiet.stored,quiet.merged,quiet.applied⟩
  split at after
  case h_2 =>
    obtain ⟨-,rfl⟩ := after
    exact .inl ⟨rfl,nofun,nofun,nofun⟩
  rename_i version vv reads parsed
  obtain ⟨rfl,rfl⟩ := after
  refine .inr ⟨rfl,_,.live merged,mergedRow plat l relPath fileId merged version vv,rfl,?_,rfl,?_,?_⟩
  · exact congrArg (Option.map ServerState.live) (sentText_built built)
  · rintro text ⟨⟩
    rfl
  · rw [writeShadow_db]
    rfl

theorem handleConflict_writes {relPath : Str} {absPath : WStr} {serverCurrent : Json} {rnd : Random} {io : MergeIo}
    (yields : (handleConflict plat dev l relPath absPath serverCurrent rnd io).Yields conversation out) :
    Quiet l out ∨ out.1 = .merged ∧ Writes plat dev l relPath conversation out.2 := by
  unfold handleConflict at yields
  split at yields
  · obtain ⟨-,rfl⟩ := yields
    exact .inl ⟨rfl,nofun,nofun,nofun⟩
  split at yields
  · obtain ⟨-,rfl⟩ := yields
    exact .inl ⟨rfl,nofun,nofun,nofun⟩
  obtain ⟨full,rest,rfl,after⟩ := yields
  dsimp only at after
  split at after
  · obtain ⟨-,rfl⟩ := after
    exact .inl ⟨rfl,nofun,nofun,nofun⟩
  split at after
  · obtain ⟨-,rfl⟩ := after
    exact .inl ⟨rfl,nofun,nofun,nofun⟩
  split at after
  · obtain ⟨-,rfl⟩ := after
    exact .inl ⟨rfl,nofun,nofun,nofun⟩
  split at after
  · obtain ⟨-,rfl⟩ := after
    exact .inl ⟨rfl,nofun,nofun,nofun⟩
  · obtain ⟨-,rfl⟩ := after
    exact .inl ⟨rfl,nofun,nofun,nofun⟩
  split at after
  · exact (uploadMerged_writes after).imp_right fun writes => ⟨writes.1,writes.2.cons _⟩
  · exact .inl ((keepBoth_quiet _ _ _ _ _ _).yields after)

theorem uploadFile_writes {relPath : Str} {absPath : WStr} {io : UploadIo}
    (yields : (uploadFile plat dev l relPath absPath io).Yields conversation out) :
    Quiet l out ∨ (out.1 = .stored ∨ out.1 = .merged) ∧ Writes plat dev l relPath conversation out.2 := by
  unfold uploadFile at yields
  split at yields
  · obtain ⟨-,rfl⟩ := yields
    exact .inl ⟨rfl,nofun,nofun,nofun⟩
  split at yields
  · obtain ⟨-,rfl⟩ := yields
    exact .inl ⟨rfl,nofun,nofun,nofun⟩
  dsimp only at yields
  split at yields
  · obtain ⟨-,rfl⟩ := yields
    exact .inl ⟨rfl,nofun,nofun,nofun⟩
  split at yields
  · obtain ⟨-,rfl⟩ := yields
    exact .inl ⟨rfl,nofun,nofun,nofun⟩
  split at yields
  · obtain ⟨-,rfl⟩ := yields
    exact .inl ⟨rfl,nofun,nofun,nofun⟩
  rename_i plaintext _ _ _ _ payload built
  obtain ⟨r,rest,rfl,after⟩ := yields
  unfold finishUpload at after
  dsimp only at after
  split at after
  · obtain ⟨-,rfl⟩ := after
    exact .inl ⟨rfl,nofun,nofun,nofun⟩
  split at after
  · split at after
    case h_2 =>
      obtain ⟨-,rfl⟩ := after
      exact .inl ⟨rfl,nofun,nofun,nofun⟩
    rename_i version vv reads parsed
    obtain ⟨rfl,rfl⟩ := after
    refine .inr ⟨.inl rfl,_,.live plaintext,storedRow relPath (l.db.getFile relPath) payload (Crypto.sha256Hex plat.prim plaintext) version vv,rfl,?_,rfl,?_,?_⟩
    · exact (shownState_uploadCall _ _ _).trans (congrArg (Option.map ServerState.live) (sentText_built built))
    · rintro text ⟨⟩
      rfl
    · rw [writeShadow_db]
      rfl
  split at after
  · split at after
    · obtain ⟨-,rfl⟩ := after
      exact .inl ⟨rfl,nofun,nofun,nofun⟩
    · rcases handleConflict_writes after with quiet | ⟨merged,writes⟩
      · exact .inl ⟨quiet.files,quiet.stored,quiet.merged,quiet.applied⟩
      · exact .inr ⟨.inr merged,writes.cons _⟩
  · have quiet := (refused_quiet _ _).yields after
    exact .inl ⟨quiet.files,quiet.stored,quiet.merged,quiet.applied⟩

theorem fetchedText_of_parts {r : ApiResponse} {plain : Bytes}
    (parts : ∃ text enc, r.body.valueStr (lit "encrypted_content") [] = some text ∧ Base64.base64UrlDecode text = some enc ∧
      Crypto.decrypt plat.prim dev.masterKey enc (lit "file") = .plain plain) : fetchedText plat dev r = some plain := by
  obtain ⟨text,enc,has,decoded,opens⟩ := parts
  unfold fetchedText
  rw [has]
  simp only [decoded,opens]

/-- A fetched record shows a tombstone or the text that it holds. -/
theorem shownState_fetched (fileId : Str) {r : ApiResponse} {plain : Bytes} (fetched : fetchedText plat dev r = some plain) :
    ∃ state, shownState plat dev ⟨.getFile fileId,r⟩ = some state ∧ ∀ text, state = .live text → text = plain := by
  by_cases deleted : r.body.valueBool (lit "deleted") false = some true
  · exact ⟨.tombstone,if_pos deleted,nofun⟩
  · refine ⟨.live plain,(if_neg deleted).trans (congrArg (Option.map ServerState.live) fetched),?_⟩
    rintro text ⟨⟩
    rfl

theorem remoteRecord_deleted {r : ApiResponse} {record : RemoteRecord} (accepted : remoteRecord plat dev r = .ok record) :
    r.body.valueBool (lit "deleted") false = some record.deleted := by
  unfold remoteRecord at accepted
  split at accepted
  · contradiction
  split at accepted
  · contradiction
  cases reads : r.body.valueInt (lit "version") 0 with
  | none => simp [reads,orThrow,bind,Except.bind] at accepted
  | some version =>
    cases flag : r.body.valueBool (lit "deleted") false with
    | none => simp [reads,flag,orThrow,bind,Except.bind] at accepted
    | some deleted =>
      simp only [reads,flag,orThrow,bind,Except.bind] at accepted
      split at accepted
      · contradiction
      split at accepted
      · contradiction
      split at accepted
      · contradiction
      split at accepted
      · contradiction
      split at accepted
      · contradiction
      split at accepted
      · contradiction
      rw [← Except.ok.inj accepted]

variable {recorded : Table Str ServerState}

theorem recordedAfter_same {op : EngineOp} {outcome : Outcome} (kept : ∀ relPath, op ≠ .delete relPath)
    (unwritten : ∀ last, conversation.getLast? = some last → recordedKey plat dev l last op outcome = none) :
    recordedAfter plat dev l op conversation outcome recorded = recorded := by
  unfold recordedAfter
  split
  · exact absurd rfl (kept _)
  split
  · rfl
  · rename_i last ends
    rw [unwritten last ends]

theorem recordedAfter_stored {op : EngineOp} {outcome : Outcome} {last : ApiEvent} {key : Str} {state : ServerState}
    (ends : conversation.getLast? = some last) (written : recordedKey plat dev l last op outcome = some key)
    (shown : shownState plat dev last = some state) :
    recordedAfter plat dev l op conversation outcome recorded = recorded.upsert key state := by
  unfold recordedAfter
  split
  · contradiction
  · rw [ends]
    simp only [written,shown]

theorem RecordStep.unwritten {op : EngineOp} (files : out.2.db.files = l.db.files) (kept : ∀ relPath, op ≠ .delete relPath)
    (unwritten : ∀ last, conversation.getLast? = some last → recordedKey plat dev l last op out.1 = none) :
    RecordStep plat ⟨l,recorded⟩ ⟨out.2,recordedAfter plat dev l op conversation out.1 recorded⟩ :=
  .same files (recordedAfter_same kept unwritten)

theorem RecordStep.wrote {op : EngineOp} (row : LocalFileState) (state : ServerState)
    (hash : ∀ text, state = .live text → row.localHash = Crypto.sha256Hex plat.prim text)
    (files : out.2.db.files = l.db.files.upsert row.relPath (LocalDb.toRow row)) {last : ApiEvent}
    (ends : conversation.getLast? = some last) (written : recordedKey plat dev l last op out.1 = some row.relPath)
    (shown : shownState plat dev last = some state) :
    RecordStep plat ⟨l,recorded⟩ ⟨out.2,recordedAfter plat dev l op conversation out.1 recorded⟩ :=
  .stored row state hash files (recordedAfter_stored ends written shown)

/-- A write whose key is recorded is a step. -/
theorem Writes.records {op : EngineOp} {relPath : Str} (writes : Writes plat dev l relPath conversation out.2)
    (written : ∀ last, conversation.getLast? = some last → recordedKey plat dev l last op out.1 = some relPath) :
    RecordStep plat ⟨l,recorded⟩ ⟨out.2,recordedAfter plat dev l op conversation out.1 recorded⟩ := by
  obtain ⟨last,state,row,ends,shown,rfl,hash,files⟩ := writes
  exact .wrote row state hash files ends (written last ends) shown

theorem uploadFile_records {relPath : Str} {absPath : WStr} {io : UploadIo}
    (yields : (uploadFile plat dev l relPath absPath io).Yields conversation out) :
    RecordStep plat ⟨l,recorded⟩
      ⟨out.2,recordedAfter plat dev l (.upload relPath absPath io) conversation out.1 recorded⟩ := by
  rcases uploadFile_writes yields with quiet | ⟨stored | merged,writes⟩
  · refine .unwritten quiet.files ?_ fun last ends => ?_
    · exact nofun
    · obtain ⟨-,stored,merged,-⟩ := quiet
      revert stored merged
      cases out.1 <;> simp [recordedKey]
  · exact writes.records fun last ends => by rw [stored]; rfl
  · exact writes.records fun last ends => by rw [merged]; rfl

theorem deleteRemote_records {relPath : Str} (yields : (deleteRemote l relPath).Yields conversation out) :
    RecordStep plat ⟨l,recorded⟩ ⟨out.2,recordedAfter plat dev l (.delete relPath) conversation out.1 recorded⟩ := by
  have quiet : ∀ {after : Outcome × Local}, Quiet l after →
      RecordStep plat ⟨l,recorded⟩ ⟨after.2,recordedAfter plat dev l (.delete relPath) conversation after.1 recorded⟩ := by
    intro after quiet
    refine .same quiet.files ?_
    unfold recordedAfter
    split
    · exact absurd ‹after.1 = _› quiet.applied
    · split
      · rfl
      · rfl
  unfold deleteRemote at yields
  dsimp only at yields
  split at yields
  · obtain ⟨-,rfl⟩ := yields
    exact .removed relPath rfl rfl
  split at yields
  · obtain ⟨-,rfl⟩ := yields
    exact .removed relPath rfl rfl
  obtain ⟨r,rest,rfl,after⟩ := yields
  dsimp only at after
  split at after
  · obtain ⟨-,rfl⟩ := after
    exact quiet ⟨rfl,nofun,nofun,nofun⟩
  split at after
  · obtain ⟨-,rfl⟩ := after
    exact .removed relPath rfl rfl
  · have ends := (refused_quiet _ _).yields after
    exact quiet ⟨ends.files,ends.stored,ends.merged,ends.applied⟩

theorem applyRemoteFile_records {fileId : Str} {r : ApiResponse} {io : ApplyIo} {now : Int} :
    RecordStep plat ⟨l,recorded⟩ ⟨(applyRemoteFile plat dev l fileId r io now).2,
      recordedAfter plat dev l (.apply fileId io now) [⟨.getFile fileId,r⟩] (applyRemoteFile plat dev l fileId r io now).1 recorded⟩ := by
  unfold applyRemoteFile
  rw [planRemote_online]
  rcases planRemote_cases plat dev l r io.opens with ⟨outcome,plan⟩ | ⟨record,t,accepted,found,branch⟩
  · rw [plan]
    refine .unwritten rfl ?_ ?_
    · exact fun _ => EngineOp.noConfusion
    · rintro last ⟨⟩
      cases outcome <;> simp [recordedKey,perform,plan]
  rcases branch with ⟨dead,plan⟩ | ⟨plain,hash,live,valid,⟨currentLocal,-,plan⟩ | ⟨-,plan⟩⟩
  · rw [plan]
    cases row : t.st with
    | none =>
      refine .unwritten ?_ ?_ ?_
      · simp [perform,performRemove_db,row]
      · exact fun _ => EngineOp.noConfusion
      · rintro last ⟨⟩
        simp [recordedKey,perform,plan,row]
    | some st =>
      have own : st.relPath = t.key := getFile_relPath ((remoteTarget_parts plat dev l record t found).2.2.1.symm.trans row)
      have shown : shownState plat dev ⟨.getFile fileId,r⟩ = some .tombstone :=
        if_pos ((remoteRecord_deleted accepted).trans (congrArg some dead))
      refine .wrote {st with deleted := true,remoteVersion := t.version} .tombstone (fun _ => ServerState.noConfusion) ?_ rfl ?_ shown
      · simp [perform,performRemove_db,row,LocalDb.upsertFile]
      · simp [recordedKey,perform,plan,row,own]
  · rw [plan]
    refine .unwritten rfl ?_ ?_
    · exact fun _ => EngineOp.noConfusion
    · rintro last ⟨⟩
      rfl
  · rw [plan]
    obtain ⟨state,shown,text⟩ := shownState_fetched fileId (fetchedText_of_parts (remoteContent_parts valid))
    rcases performReplace_cases plat {l with online := r.transportOk} fileId r t plain io with
      ⟨same,ends⟩ | ⟨vector,-,-,applied,files⟩
    · refine .unwritten (congrArg LocalDb.files same) ?_ ?_
      · exact fun _ => EngineOp.noConfusion
      · rintro last ⟨⟩
        rcases ends with ⟨-,failed⟩ | ⟨-,-,threw⟩
        · simp [perform,failed,recordedKey]
        · simp [perform,threw,recordedKey]
    · refine .wrote (appliedRow plat fileId t plain vector) state ?_ (congrArg LocalDb.files files) rfl ?_ shown
      · intro held live
        rw [text held live]
        rfl
      · simp [perform,applied,recordedKey,plan,appliedRow]

/-- How a resolution ends: without a row to write, or with the text in the row. -/
inductive ResolveEnd (plat : Platform) (l : Local) (relPath : Str) (text : Bytes) (out : Outcome × Local) : Prop
  | quiet (quiet : Quiet l out)
  | untracked (missing : l.db.getFile relPath = none) (files : out.2.db.files = l.db.files)
  | settled (f : LocalFileState) (version : Int) (vv : VersionVector) (tracked : l.db.getFile relPath = some f)
      (applied : out.1 = .applied) (files : out.2.db.files = l.db.files.upsert f.relPath (LocalDb.toRow (resolvedRow plat f text version vv)))

theorem Quiet.of_unsuccessful (files : out.2.db.files = l.db.files) (unsuccessful : out.1.succeeded = false) : Quiet l out := by
  refine ⟨files,?_,?_,?_⟩
  all_goals
    intro same
    rw [same] at unsuccessful
    contradiction

theorem RowEnd.resolveEnd {middle : Local} {fileId : Str} {target : ConflictState} {text : Bytes} {version : Option Int}
    {vector : LocalFileState → Option VersionVector} {shadow : WriteFate}
    (ends : RowEnd plat middle fileId target text version vector shadow out) (same : middle.db = l.db) :
    ResolveEnd plat l target.relPath text out := by
  cases ends with
  | stopped outcome unsuccessful => exact .quiet (.of_unsuccessful (congrArg LocalDb.files same) unsuccessful)
  | untracked missing =>
    have files : middle.db.files = l.db.files := congrArg LocalDb.files same
    exact .untracked (same ▸ missing) files
  | settled f tracked number reads vv takes out yields =>
    obtain ⟨-,rfl⟩ := yields
    refine .settled f number vv (same ▸ tracked) rfl ?_
    change (writeShadow plat _ f.relPath text shadow).db.files = _
    rw [writeShadow_db,← same]
    rfl

theorem Quiet.resolves {fileId strategy : Str} {io : ResolveIo} (quiet : Quiet l out) : RecordStep plat ⟨l,recorded⟩
    ⟨out.2,recordedAfter plat dev l (.resolve fileId strategy io) conversation out.1 recorded⟩ := by
  refine .unwritten quiet.files nofun fun last ends => ?_
  have applied := quiet.applied
  revert applied
  cases out.1 <;> simp [recordedKey]

/-- A resolution records what the last answer shows. -/
theorem ResolveEnd.records {fileId strategy : Str} {io : ResolveIo} {target : ConflictState} {text : Bytes} {last : ApiEvent}
    {state : ServerState} (conflict : l.db.conflicts.get fileId = some target) (ends : ResolveEnd plat l target.relPath text out)
    (shown : shownState plat dev last = some state) (shows : ∀ held, state = .live held → held = text) :
    RecordStep plat ⟨l,recorded⟩ ⟨out.2,recordedAfter plat dev l (.resolve fileId strategy io) [last] out.1 recorded⟩ := by
  cases ends with
  | quiet quiet => exact quiet.resolves
  | untracked missing files =>
    refine .unwritten files ?_ fun other same => ?_
    · exact nofun
    · cases out.1 <;> simp [recordedKey,conflict,missing]
  | settled f version vv tracked applied files =>
    refine .wrote (resolvedRow plat f text version vv) state ?_ files rfl ?_ shown
    · intro held live
      rw [shows held live]
      rfl
    · rw [applied]
      simp [recordedKey,conflict,tracked,resolvedRow,getFile_relPath tracked]

theorem keepLocal_records {fileId strategy : Str} {io : ResolveIo} {target : ConflictState} {abs : WStr}
    (conflict : l.db.conflicts.get fileId = some target)
    (yields : (keepLocal plat dev l fileId target abs io).Yields conversation out) :
    RecordStep plat ⟨l,recorded⟩
      ⟨out.2,recordedAfter plat dev l (.resolve fileId strategy io) conversation out.1 recorded⟩ := by
  cases keepLocal_ends yields with
  | missing outcome unsuccessful absent => exact Quiet.resolves (.of_unsuccessful rfl unsuccessful)
  | unsealed data copy unsealed => exact .unwritten rfl nofun (fun last ends => rfl)
  | sent data copy payload built r out ends =>
    have shown : shownState plat dev ⟨.updateFile fileId payload,r⟩ = some (.live data) :=
      congrArg (Option.map ServerState.live) (sentText_built built)
    have settles : ResolveEnd plat l target.relPath data out := ends.resolveEnd rfl
    refine settles.records conflict shown fun held live => ?_
    cases live
    rfl

/-- `keepRemote` and `keepBoth` from their request on. -/
theorem fetched_records {fileId strategy : Str} {io : ResolveIo} {target : ConflictState} {abs : WStr} {disk : Disk}
    {takesVector : Bool} {full : ApiResponse} {rest : List ApiEvent} (conflict : l.db.conflicts.get fileId = some target)
    (yields : (if full.status ≠ 200 then fails "cannot fetch remote" l
      else match conflictText plat dev full with
        | .error outcome => .done (outcome,l)
        | .ok plain => installRemote plat {l with disk := disk} fileId target abs full plain takesVector io).Yields rest out) :
    RecordStep plat ⟨l,recorded⟩
      ⟨out.2,recordedAfter plat dev l (.resolve fileId strategy io) (⟨.getFile fileId,full⟩::rest) out.1 recorded⟩ := by
  obtain ⟨rfl,ends⟩ := fetched_ends yields
  cases ends with
  | refused outcome unsuccessful reason => exact Quiet.resolves (.of_unsuccessful rfl unsuccessful)
  | installed text answered opens out ends =>
    obtain ⟨state,shown,shows⟩ := shownState_fetched fileId (fetchedText_of_parts (conflictText_parts opens))
    have settles : ResolveEnd plat l target.relPath text out := ends.resolveEnd rfl
    exact settles.records conflict shown shows

theorem resolveConflict_records {fileId strategy : Str} {io : ResolveIo}
    (yields : (resolveConflict plat dev l fileId strategy io).Yields conversation out) :
    RecordStep plat ⟨l,recorded⟩
      ⟨out.2,recordedAfter plat dev l (.resolve fileId strategy io) conversation out.1 recorded⟩ := by
  unfold resolveConflict at yields
  split at yields
  · obtain ⟨-,rfl⟩ := yields
    exact .unwritten rfl nofun (fun last ends => rfl)
  rename_i target conflict
  split at yields
  · obtain ⟨-,rfl⟩ := yields
    exact .unwritten rfl nofun (fun last ends => rfl)
  rename_i abs mapped
  split at yields
  · exact keepLocal_records conflict yields
  split at yields
  · obtain ⟨full,rest,rfl,after⟩ := yields
    exact fetched_records conflict after
  split at yields
  · obtain ⟨full,rest,rfl,after⟩ := yields
    exact fetched_records conflict after
  · obtain ⟨-,rfl⟩ := yields
    exact .unwritten rfl nofun (fun last ends => rfl)

theorem EngineOp.records (op : EngineOp) (yields : (op.exchange plat dev l).Yields conversation out) :
    RecordStep plat ⟨l,recorded⟩ ⟨out.2,recordedAfter plat dev l op conversation out.1 recorded⟩ := by
  cases op with
  | upload relPath absPath io => exact uploadFile_records yields
  | delete relPath => exact deleteRemote_records yields
  | apply fileId io now =>
    obtain ⟨r,rest,rfl,rfl,rfl⟩ := yields
    exact applyRemoteFile_records
  | resolve fileId strategy io => exact resolveConflict_records yields
  | opened signedIn absPath =>
    obtain ⟨rfl,rfl⟩ := yields
    change RecordStep plat ⟨l,recorded⟩ ⟨{l with db := onFileOpened plat.win l.db signedIn absPath},recorded⟩
    unfold onFileOpened
    split
    · exact .same rfl rfl
    split
    · exact .same rfl rfl
    split
    · exact .same rfl rfl
    · exact .opened {LocalFileState.fresh with relPath := _,syncRoot := _} rfl rfl rfl
  | edit disk =>
    obtain ⟨rfl,rfl⟩ := yields
    exact .same rfl rfl

end

/-! ### Runs -/

/-- An exchange with answers is one of its conversations. -/
theorem run_answering (answers : Nat → ApiResponse) (exchange : Exchange) (sent : List ApiEvent) :
    ∃ conversation, (exchange.run (answering answers) sent).2 = sent ++ conversation ∧
      exchange.Yields conversation (exchange.run (answering answers) sent).1 := by
  induction exchange generalizing sent with
  | done out => exact ⟨[],(List.append_nil sent).symm,rfl,rfl⟩
  | call call next ih =>
    obtain ⟨conversation,log,yields⟩ := ih (answers sent.length) (sent ++ [⟨call,answers sent.length⟩])
    refine ⟨⟨call,answers sent.length⟩::conversation,?_,answers sent.length,conversation,rfl,yields⟩
    exact log.trans (List.append_assoc _ _ _)

section
variable {plat : Platform} {dev : Device}

theorem Tracked.step_records (s : Tracked) (e : Answered) : RecordStep plat s (s.step plat dev e) := by
  obtain ⟨conversation,log,yields⟩ := run_answering e.answers (e.op.exchange plat dev s.here) []
  rw [List.nil_append] at log
  subst log
  exact e.op.records yields

/-- An upload succeeds without a request exactly when the file is unchanged. -/
theorem uploadFile_silent_iff (l : Local) (relPath : Str) (absPath : WStr) (io : UploadIo) :
    (∃ out, uploadFile plat dev l relPath absPath io = .done out ∧ out.1.succeeded = true) ↔
      Unchanged plat dev l relPath absPath io := by
  constructor
  · rintro ⟨out,silent,succeeds⟩
    unfold uploadFile at silent
    split at silent
    · cases silent
      contradiction
    rename_i keyed
    split at silent
    · cases silent
      contradiction
    rename_i text reads
    dsimp only at silent
    split at silent
    · cases silent
      contradiction
    rename_i small
    split at silent
    · rename_i same
      obtain ⟨st,tracked,hashes⟩ := (Option.any_eq_true _ _).mp same
      simp only [Bool.and_eq_true,decide_eq_true_eq] at hashes
      exact ⟨by simpa using keyed,text,st,reads,not_lt.mp small,tracked,hashes.1,hashes.2⟩
    split at silent
    · cases silent
      contradiction
    · contradiction
  · rintro ⟨keyed,text,st,reads,small,tracked,own,remote⟩
    refine ⟨(.skipped,l),?_,rfl⟩
    have fits : ¬dev.maxFileBytes < text.length := not_lt.mpr small
    simp [uploadFile,keyed,reads,fits,tracked,own,remote]

theorem skipJustified_iff {s : Tracked} (holds : RowsRecorded plat s) {op : EngineOp} (apart : s.HashedApart plat op) :
    s.SkipJustified plat dev op ↔ s.NotDeleted plat dev op := by
  cases op with
  | upload relPath absPath io =>
    constructor
    · intro justified unchanged deleted
      obtain ⟨out,silent,succeeds⟩ := (uploadFile_silent_iff s.here relPath absPath io).mpr unchanged
      obtain ⟨text,live,-⟩ := justified out silent succeeds
      exact nomatch deleted.symm.trans live
    · intro kept out silent succeeds
      have unchanged := (uploadFile_silent_iff s.here relPath absPath io).mp ⟨out,silent,succeeds⟩
      have kept := kept unchanged
      obtain ⟨-,text,st,reads,-,tracked,own,-⟩ := unchanged
      have hashed : st.localHash ≠ [] := by
        intro empty
        have size := Crypto.sha256Hex_length plat.prim text
        rw [← own,empty] at size
        contradiction
      obtain ⟨state,found,hash⟩ := holds relPath st tracked hashed
      have onDisk : s.here.disk.read plat.win absPath = some text := by
        unfold readFileBytes at reads
        split at reads
        · exact reads
        · contradiction
      cases state with
      | tombstone => exact absurd found kept
      | live held =>
        have same : text = held := apart text held onDisk found (own.symm.trans (hash held rfl))
        exact ⟨held,found,same ▸ onDisk⟩
  | delete | apply | resolve | opened | edit => exact Iff.rfl

/-- In every run all uploads that are skipped are justified, exactly when none
of an unchanged file comes after its remote deletion. -/
theorem skips_justified_iff (l : Local) (events : List Answered)
    (apart : Guarded (Tracked.step plat dev) (fun s e => s.HashedApart plat e.op) (Tracked.initial l) events) :
    Guarded (Tracked.step plat dev) (fun s e => s.SkipJustified plat dev e.op) (Tracked.initial l) events ↔
      Guarded (Tracked.step plat dev) (fun s e => s.NotDeleted plat dev e.op) (Tracked.initial l) events := by
  refine guarded_iff _ (RowsRecorded plat) (fun s e holds => holds.step (s.step_records e)) _ _ _ _ ?_
    (fun s e holds apart => skipJustified_iff holds apart) events apart
  intro relPath st tracked
  simp [Tracked.initial,LocalDb.getFile] at tracked

end

/-! ### A file that comes back after its deletion -/

section
open KnownAnswers

private def helloRecord : ApiResponse :=
  let content := unhex "4e50533101010101010101010101010101ec0863e2f1f30802e122435af26262631fa6895907"
  ⟨true,200,.obj [(lit "version",.num 1),(lit "encrypted_metadata",.str notesMetadata),
    (lit "encrypted_content",.str (Base64.encodeBase64URL content)),
    (lit "content_hash",.str (lit "7f6cbf117c8f9ae9a755ae37b34adcee94b9600958b62dd3a315f1ba17b81269"))]⟩

private def uploadDraws : Random := ⟨nonceOf 4,nonceOf 5,uuidOf 0⟩

private def uploadWorks : UploadIo :=
  ⟨true,.replaced,uploadDraws,uploadDraws,⟨true,true,.replaced,⟨0,true⟩,.replaced,.replaced,0⟩⟩

private def notesUpload : EngineOp := .upload (lit "home:notes.txt") (wlit "C:\\notes\\notes.txt") uploadWorks

private def downloads (answer : ApiResponse) : Answered := ⟨.apply notesId workingIo 0,fun _ => answer⟩

/-- The user makes `notes.txt` again with its old text. -/
private def recreated : Answered :=
  ⟨.edit ⟨Table.empty.upsert (wlit "c:\\notes\\notes.txt") (lit "hello"),[]⟩,fun _ => unreachable⟩

private def emptyHere : Local := ⟨rooted,⟨.empty,[]⟩,.empty,[],true⟩

theorem downloaded_skip_justified :
    Guarded (Tracked.step platform laptop) (fun s e => s.SkipJustified platform laptop e.op) (Tracked.initial emptyHere)
      [downloads helloRecord,⟨notesUpload,fun _ => unreachable⟩] := by
  have facts : ((Tracked.initial emptyHere).step platform laptop (downloads helloRecord)).here.disk.read ascii
        (wlit "C:\\notes\\notes.txt") = some (lit "hello") ∧
      ((Tracked.initial emptyHere).step platform laptop (downloads helloRecord)).recorded.get (lit "home:notes.txt") =
        some (.live (lit "hello")) := by
    simp only [platform_numerals,helloRecord,notesMetadata_numerals,
      show unhex "4e50533101010101010101010101010101ec0863e2f1f30802e122435af26262631fa6895907" = numeral 38
        0x4e50533101010101010101010101010101ec0863e2f1f30802e122435af26262631fa6895907 from unhex_numeral _ (by decide),
      show lit "7f6cbf117c8f9ae9a755ae37b34adcee94b9600958b62dd3a315f1ba17b81269" = _ from lit_text _]
    decide +kernel
  obtain ⟨text,live⟩ := facts
  refine (skips_justified_iff emptyHere [downloads helloRecord,⟨notesUpload,fun _ => unreachable⟩] ⟨trivial,?_,trivial⟩).mpr
    ⟨trivial,?_,trivial⟩
  · intro other held onDisk recorded _
    have first := Option.some.inj (onDisk.symm.trans text)
    have second := ServerState.live.inj (Option.some.inj (recorded.symm.trans live))
    rw [first,second]
  · intro _ deleted
    exact nomatch live.symm.trans deleted

private def afterDeletion : Tracked :=
  run (Tracked.step platform laptop) (Tracked.initial emptyHere) [downloads helloRecord,downloads notesTombstone,recreated]

/-- The upload of a file that was made again is skipped while it is deleted on the server. -/
theorem recreated_file_skipped : ¬∀ (plat : Platform) (dev : Device) (l : Local) (events : List Answered),
    Guarded (Tracked.step plat dev) (fun s e => s.HashedApart plat e.op) (Tracked.initial l) events →
      Guarded (Tracked.step plat dev) (fun s e => s.SkipJustified plat dev e.op) (Tracked.initial l) events := by
  intro justified
  have facts : afterDeletion.recorded.get (lit "home:notes.txt") = some .tombstone ∧
      (afterDeletion.here.db.getFile (lit "home:notes.txt")).map (fun st => (st.localHash,st.remoteHash)) =
        some (Crypto.sha256Hex platform.prim (lit "hello"),Crypto.sha256Hex platform.prim (lit "hello")) := by
    simp only [afterDeletion,platform_numerals,helloRecord,notesTombstone,notesMetadata_numerals,
      show unhex "4e50533101010101010101010101010101ec0863e2f1f30802e122435af26262631fa6895907" = numeral 38
        0x4e50533101010101010101010101010101ec0863e2f1f30802e122435af26262631fa6895907 from unhex_numeral _ (by decide +kernel),
      show lit "7f6cbf117c8f9ae9a755ae37b34adcee94b9600958b62dd3a315f1ba17b81269" = _ from lit_text _]
    decide +kernel
  obtain ⟨gone,row⟩ := facts
  have apart : afterDeletion.HashedApart platform notesUpload := fun text held _ live _ => by
    exact ServerState.noConfusion (Option.some.inj (live.symm.trans gone))
  have guarded := justified platform laptop emptyHere
    [downloads helloRecord,downloads notesTombstone,recreated,⟨notesUpload,fun _ => unreachable⟩]
    ⟨trivial,trivial,trivial,apart,trivial⟩
  obtain ⟨st,tracked,hashes⟩ := Option.map_eq_some_iff.mp row
  obtain ⟨own,remote⟩ := Prod.mk.inj hashes
  have unchanged : Unchanged platform laptop afterDeletion.here (lit "home:notes.txt") (wlit "C:\\notes\\notes.txt") uploadWorks :=
    ⟨by decide,lit "hello",st,by decide,by decide,tracked,own.symm ▸ rfl,remote.symm ▸ rfl⟩
  obtain ⟨out,silent,succeeds⟩ := (uploadFile_silent_iff _ _ _ _).mpr unchanged
  obtain ⟨text,live,-⟩ := guarded.2.2.2.1 out silent succeeds
  exact ServerState.noConfusion (Option.some.inj (live.symm.trans gone))

end
end NPSync.Engine
