import NPSync.Engine.Clients

/-! The automatic merge of `handleConflict` among other writers. The base version
of the merged upload comes from the 409 answer and the remote text from a later
download; both are reads of the head, and versions only grow. -/
namespace NPSync.Engine
open Library Server

section
variable (plat : Platform) (dev : Device) (l : Local) (relPath : Str) (absPath : WStr) (io : UploadIo)

/-- The request `call` uploads the merge with `remoteText`, which was taken from
the answer `second`, on top of the version in the 409 answer `first`. -/
structure MergeUpload (first second : ApiEvent) (call : ApiCall) (remoteText : Bytes) where
  current : Json
  fileId : Str
  newBase : Int
  vv : VersionVector
  payload : Payload
  upload : ∃ req, requested first.op = some req
  rejected : first.result.status = 409
  told : first.result.body.value (lit "current") (.obj []) = some current
  named : current.valueStr (lit "file_id") [] = some fileId
  known : fileId ≠ []
  fetched : second.op = .getFile fileId
  answered : second.result.status = 200
  text : fetchedText plat dev second.result = some remoteText
  based : current.valueInt (lit "version") 0 = some newBase
  merged : buildFilePayload plat dev l.db relPath
    (Merge.merge ((readShadow plat l relPath io.merge.shadowOpens).getD [])
      ((readFileBytes plat.win l.disk absPath io.merge.opens).getD []) remoteText).merged
    newBase vv io.mergeRnd = some payload
  sent : call = .updateFile fileId payload

end

/-! ### The requests of an upload -/

theorem done_follows {value : Outcome × Local} {log : List ApiEvent} {call : ApiCall} {next : ApiResponse → Exchange}
    (follows : (Program.done value : Exchange).Follows log (.call call next)) : False := by
  cases log with
  | nil => cases follows
  | cons event rest => exact follows

theorem refused_follows {r : ApiResponse} {fallback : String} {l : Local} {log : List ApiEvent} {call : ApiCall}
    {next : ApiResponse → Exchange} (follows : (refused r fallback l).Follows log (.call call next)) : False := by
  unfold refused at follows
  split at follows
  · exact done_follows follows
  · exact done_follows follows

section
variable {plat : Platform} {dev : Device} {l : Local} {relPath : Str} {absPath : WStr}
  {call : ApiCall} {next : ApiResponse → Exchange}

theorem keepBoth_follows {serverCurrent : Json} {fileId : Str} {localText : Bytes} {io : MergeIo} {log : List ApiEvent}
    (follows : (keepBoth plat dev l relPath absPath serverCurrent fileId localText io).Follows log (.call call next)) :
    False := by
  unfold keepBoth at follows
  dsimp only at follows
  split at follows
  · exact done_follows follows
  · exact done_follows follows

/-- The only request of `uploadMerged` is the upload of the merged text. -/
theorem uploadMerged_follows {serverCurrent : Json} {fileId : Str} {localText merged : Bytes} {rnd : Random} {io : MergeIo}
    {log : List ApiEvent}
    (follows : (uploadMerged plat dev l relPath absPath serverCurrent fileId localText merged rnd io).Follows log
      (.call call next)) :
    log = [] ∧ ∃ newBase vv payload, serverCurrent.valueInt (lit "version") 0 = some newBase ∧
      buildFilePayload plat dev l.db relPath merged newBase vv rnd = some payload ∧ call = .updateFile fileId payload := by
  unfold uploadMerged at follows
  dsimp only at follows
  split at follows
  · exact (done_follows follows).elim
  split at follows
  case h_2 => exact (done_follows follows).elim
  rename_i newBase vector based hasVector
  split at follows
  · exact (done_follows follows).elim
  rename_i payload built
  cases log with
  | nil =>
    injection follows with same
    exact ⟨rfl,newBase,_,payload,based,built,same.symm⟩
  | cons event rest =>
    obtain ⟨r,-,after⟩ := follows
    dsimp only at after
    split at after
    · split at after
      · exact (done_follows after).elim
      · exact (done_follows after).elim
    · exact (keepBoth_follows after).elim

/-- A request of `handleConflict` after its download is the upload of the merge with the downloaded text. -/
theorem handleConflict_follows {current : Json} {rnd : Random} {io : MergeIo} {second : ApiEvent} {more : List ApiEvent}
    (follows : (handleConflict plat dev l relPath absPath current rnd io).Follows (second::more) (.call call next)) :
    ∃ fileId remoteText newBase vv payload, more = [] ∧ current.valueStr (lit "file_id") [] = some fileId ∧
      fileId ≠ [] ∧ second.op = .getFile fileId ∧ second.result.status = 200 ∧
      fetchedText plat dev second.result = some remoteText ∧ current.valueInt (lit "version") 0 = some newBase ∧
      buildFilePayload plat dev l.db relPath
        (Merge.merge ((readShadow plat l relPath io.shadowOpens).getD [])
          ((readFileBytes plat.win l.disk absPath io.opens).getD []) remoteText).merged newBase vv rnd = some payload ∧
      call = .updateFile fileId payload := by
  unfold handleConflict at follows
  split at follows
  · exact (done_follows follows).elim
  rename_i fileId named
  split at follows
  · exact (done_follows follows).elim
  rename_i known
  obtain ⟨full,rfl,after⟩ := follows
  dsimp only at after
  split at after
  · exact (done_follows after).elim
  rename_i answered
  split at after
  · exact (done_follows after).elim
  rename_i text hasText
  split at after
  · exact (done_follows after).elim
  rename_i encRemote decoded
  split at after
  · exact (done_follows after).elim
  · exact (done_follows after).elim
  rename_i remoteText opened
  split at after
  · obtain ⟨ends,newBase,vv,payload,based,built,sent⟩ := uploadMerged_follows after
    have taken : fetchedText plat dev full = some remoteText := by
      simp only [fetchedText,hasText,decoded,opened]
    exact ⟨fileId,remoteText,newBase,vv,payload,ends,named,known,rfl,not_not.mp answered,taken,based,built,sent⟩
  · exact (keepBoth_follows after).elim

/-- After its first request an upload goes on as `handleConflict`, with the record of the rejection. -/
theorem uploadFile_conflict {io : UploadIo} {first : ApiEvent} {rest : List ApiEvent}
    (follows : (uploadFile plat dev l relPath absPath io).Follows (first::rest) (.call call next)) :
    (∃ req, requested first.op = some req) ∧ first.result.status = 409 ∧
      ∃ current, first.result.body.value (lit "current") (.obj []) = some current ∧
        (handleConflict plat dev {l with online := first.result.transportOk} relPath absPath current io.mergeRnd
          io.merge).Follows rest (.call call next) := by
  unfold uploadFile at follows
  split at follows
  · exact follows.elim
  split at follows
  · exact follows.elim
  dsimp only at follows
  split at follows
  · exact follows.elim
  split at follows
  · exact follows.elim
  split at follows
  · exact follows.elim
  obtain ⟨r,rfl,after⟩ := follows
  unfold finishUpload at after
  dsimp only at after
  split at after
  · exact (done_follows after).elim
  split at after
  · split at after
    · exact (done_follows after).elim
    · exact (done_follows after).elim
  split at after
  case isFalse => exact (refused_follows after).elim
  rename_i rejected
  split at after
  · exact (done_follows after).elim
  rename_i current told
  exact ⟨⟨_,requested_uploadCall _ _⟩,rejected,current,told,after⟩

/-- The first request of an upload has the version of the row as its base. -/
theorem uploadFile_first {io : UploadIo}
    (follows : (uploadFile plat dev l relPath absPath io).Follows [] (.call call next)) :
    ∃ payload, payload.baseVersion = ((l.db.getFile relPath).map (·.remoteVersion)).getD 0 ∧
      call = uploadCall payload.baseVersion payload := by
  unfold uploadFile at follows
  split at follows
  · cases follows
  split at follows
  · cases follows
  dsimp only at follows
  split at follows
  · cases follows
  split at follows
  · cases follows
  split at follows
  · cases follows
  rename_i payload built
  obtain ⟨encContent,metaStr,encMeta,vector,-,-,-,-,same⟩ := buildFilePayload_parts _ _ _ _ _ _ _ _ _ built
  injection follows with sent
  exact ⟨payload,by rw [same],by rw [← sent,same]⟩

theorem handleConflict_first {current : Json} {rnd : Random} {io : MergeIo}
    (follows : (handleConflict plat dev l relPath absPath current rnd io).Follows [] (.call call next)) :
    ∃ fileId, call = .getFile fileId := by
  unfold handleConflict at follows
  split at follows
  · cases follows
  rename_i fileId named
  split at follows
  · cases follows
  · injection follows with sent
    exact ⟨fileId,sent.symm⟩

theorem uploadFile_follows {io : UploadIo} {first second : ApiEvent} {more : List ApiEvent}
    (follows : (uploadFile plat dev l relPath absPath io).Follows (first::second::more) (.call call next)) :
    more = [] ∧ ∃ remoteText, Nonempty (MergeUpload plat dev l relPath absPath io first second call remoteText) := by
  obtain ⟨upload,rejected,current,told,after⟩ := uploadFile_conflict follows
  obtain ⟨fileId,remoteText,newBase,vv,payload,ends,named,known,fetched,answered,text,based,built,sent⟩ :=
    handleConflict_follows after
  exact ⟨ends,remoteText,⟨⟨current,fileId,newBase,vv,payload,upload,rejected,told,named,known,fetched,answered,text,based,
    built,sent⟩⟩⟩

end

/-! ### The reads behind a merge -/

theorem fetchedText_readable {plat : Platform} {dev : Device} {full : ApiResponse} {remoteText : Bytes}
    (text : fetchedText plat dev full = some remoteText) : full.body ≠ .null := by
  intro null
  simp [fetchedText,null,Json.valueStr,Json.value] at text

/-- A record without content is not merged. -/
theorem fetchedText_tombstone (plat : Platform) (dev : Device) (full : ApiResponse) (f : FileRecord)
    (body : full.body = recordJson (toFileJSON f [])) : fetchedText plat dev full = none := by
  have empty : Base64.base64UrlDecode [] = some [] := by
    have decoded := Base64.base64UrlDecode_encode []
    exact decoded
  have short : Crypto.decrypt plat.prim dev.masterKey [] (lit "file") = .rejected := by
    simp [Crypto.decrypt,Crypto.headerLen]
  simp [fetchedText,body,toFileJSON,empty,short]

theorem fetchedText_live {plat : Platform} {dev : Device} {full : ApiResponse} {f : FileRecord} {content remoteText : Bytes}
    (body : full.body = recordJson (toFileJSON f (Base64.encodeBase64URL content)))
    (text : fetchedText plat dev full = some remoteText) :
    Crypto.decrypt plat.prim dev.masterKey content (lit "file") = .plain remoteText := by
  simp only [fetchedText,body,recordJson_content,toFileJSON,Base64.encodeBase64URL,Base64.base64UrlDecode_encode] at text
  split at text
  · rename_i opened
    rw [opened,Option.some.inj text]
  · contradiction
  · contradiction

/-- A call that updates a head writes this record over this version. -/
def UpdatesOnly (written : FileRecord) (replaced : Int) : Call → Prop
  | .updateFile rec base => rec = written ∧ base = replaced
  | _ => True

/-- The record of an update at the server is made of the payload that was sent. -/
theorem send_update {u : Setup} {dispatch : Dispatch} {fileId : Str} {payload : Payload} {here : List CallEvent}
    {rec : FileRecord} {base : Int} {next : (Call.updateFile rec base).Result → Program Call Call.Result ApiResponse}
    (follows : (send u dispatch (.updateFile fileId payload)).Follows here (.call (.updateFile rec base) next)) :
    rec = recordFromRequest (context u dispatch.now) {toRequest payload with fileID := fileId} ∧
      base = payload.baseVersion := by
  let kind := UpdatesOnly (recordFromRequest (context u dispatch.now) {toRequest payload with fileID := fileId}) payload.baseVersion
  have quiet : ∀ call : Call, call.quiet = true → kind call := by
    intro call quiet
    cases call with
    | updateFile rec base => contradiction
    | _ => trivial
  have only : (send u dispatch (.updateFile fileId payload)).Only kind := by
    unfold send
    split
    · trivial
    · apply Program.Only.bind
      · exact handleUpdateFile_only quiet u.plat.prim u.cfg _ fileId _ (fun _ _ => trivial) (fun _ => ⟨rfl,rfl⟩)
      · intro out
        trivial
  exact (only.follows follows).1

section
variable {plat : Platform} {dev : Device} {cfg : Config} {accountID : Str} {dispatches : List Dispatch}
  {l : Local} {relPath : Str} {absPath : WStr} {io : UploadIo} {first second : ApiEvent} {call : ApiCall}
  {remoteText : Bytes} {log : List CallEvent}

theorem MergeUpload.payload_base (merge : MergeUpload plat dev l relPath absPath io first second call remoteText) :
    merge.payload.baseVersion = merge.newBase := by
  obtain ⟨encContent,metaStr,encMeta,vector,-,-,-,-,same⟩ := buildFilePayload_parts _ _ _ _ _ _ _ _ _ merge.merged
  rw [same]

/-- The calls behind a merge: the head that the rejection carried, then the head
that was downloaded, and its content. -/
theorem MergeUpload.reads (merge : MergeUpload plat dev l relPath absPath io first second call remoteText)
    (carried : Carried ⟨plat,dev,cfg,accountID⟩ dispatches [first,second] log) :
    ∃ before asked cur fetched content, log = before ++ ⟨.getFile accountID asked,.ok cur⟩::
        ⟨.getFile accountID cur.fileID,.ok fetched⟩::[⟨.getBlob fetched.blobKey,.found content⟩] ∧
      merge.fileId = cur.fileID ∧ merge.newBase = cur.version ∧ fetched.deleted = false ∧
      Crypto.decrypt plat.prim dev.masterKey content (lit "file") = .plain remoteText := by
  obtain ⟨current,fileId,newBase,vv,payload,⟨req,asks⟩,rejected,told,named,known,asked,answered,text,based,built,sent⟩ := merge
  obtain ⟨op,full⟩ := second
  dsimp only at asked answered text
  subst asked
  cases dispatches with
  | nil =>
    rw [carried.1] at rejected
    contradiction
  | cons one others =>
    obtain ⟨calls,more,rfl,yields,carried⟩ := carried
    cases others with
    | nil =>
      have gone : full = unreachable := carried.1
      rw [gone] at answered
      contradiction
    | cons two others =>
      obtain ⟨again,none_,rfl,downloads,ends⟩ := carried
      cases ends
      obtain ⟨before,cur,rfl,same⟩ := send_conflict yields asks rejected told named known
      subst same
      rw [recordJson_fileID] at named
      rw [recordJson_version] at based
      have file : cur.fileID = fileId := Option.some.inj named
      have version : (cur.version : Int) = newBase := Option.some.inj based
      subst file version
      obtain ⟨fetched,⟨-,-,body⟩ | ⟨live,content,rfl,body⟩⟩ := send_download downloads answered (fetchedText_readable text)
      · rw [fetchedText_tombstone plat dev full fetched body] at text
        contradiction
      · exact ⟨before,req.fileID,cur,fetched,content,by simp,rfl,rfl,live,fetchedText_live body text⟩

end

section
variable (plat : Platform) (cfg : Config)

/-- The only update of an upload after its first request is that of the merge. -/
theorem update_conversation {plat : Platform} {dev : Device} {cfg : Config} {accountID : Str} {l : Local} {relPath : Str}
    {absPath : WStr} {io : UploadIo} {conversation : List ApiEvent} {call : ApiCall} {after : ApiResponse → Exchange}
    (asks : (uploadFile plat dev l relPath absPath io).Follows conversation (.call call after)) {dispatch : Dispatch}
    {here : List CallEvent} {rec : FileRecord} {base : Int}
    {rest : (Call.updateFile rec base).Result → Program Call Call.Result ApiResponse}
    (follows : (send ⟨plat,dev,cfg,accountID⟩ dispatch call).Follows here (.call (.updateFile rec base) rest))
    (answered : conversation ≠ []) : ∃ first second, conversation = [first,second] := by
  rcases conversation with _ | ⟨first,_ | ⟨second,more⟩⟩
  · contradiction
  · obtain ⟨-,-,current,-,goes⟩ := uploadFile_conflict asks
    obtain ⟨fileId,rfl⟩ := handleConflict_first goes
    have only : (send ⟨plat,dev,cfg,accountID⟩ dispatch (.getFile fileId)).Only (fun op => op.quiet = true) := by
      unfold send
      split
      · trivial
      · apply Program.Only.bind
        · exact handleGetFile_only (fun _ quiet => quiet) _ fileId
        · intro out
          trivial
    exact absurd (only.follows follows).1 (by simp [Call.quiet])
  · obtain ⟨rfl,-⟩ := uploadFile_follows asks
    exact ⟨first,second,rfl⟩

/-- Every store call of a client serves one of its requests. -/
theorem client_requesting (moves : List (Move Party Bool)) (past future : List (ServerEntry Party))
    (entry : ServerEntry Party) (split : (clientRun plat cfg moves).history = past ++ entry::future)
    (dev : Device) (accountID : Str) (exchange : Exchange) (dispatches : List Dispatch)
    (works : entry.request.1 = .client dev accountID exchange dispatches) :
    ∃ conversation call, Requesting ⟨plat,dev,cfg,accountID⟩ exchange dispatches (Ledger.callsOf past entry.index)
      conversation call entry.event.op := by
  let allowed : Party → List CallEvent → Call → Prop := fun party log op =>
    ∀ dev accountID exchange dispatches, party.1 = .client dev accountID exchange dispatches →
      ∃ conversation call, Requesting ⟨plat,dev,cfg,accountID⟩ exchange dispatches log conversation call op
  have starts : ∀ party, (partyProgram plat cfg party).Keeps (allowed party) [] := by
    rintro ⟨work,plain⟩
    cases work with
    | request asked =>
      apply Program.keeps_of_forall
      intro log op dev accountID exchange dispatches same
      contradiction
    | client dev accountID exchange dispatches =>
      apply Program.Keeps.bind
      · apply (overServer_requesting ⟨plat,dev,cfg,accountID⟩ exchange dispatches).mono
        intro log op requesting dev accountID exchange dispatches same
        cases same
        exact requesting
      · intro calls out _
        trivial
  exact Ledger.ledger_disciplined allowed starts State.empty moves past entry future split dev accountID exchange dispatches
    works

/-- A merged upload that the server accepts replaces the version whose plaintext was merged. -/
theorem merge_replaces_fetched (moves : List (Move Party Bool)) (past future : List (ServerEntry Party))
    (entry : ServerEntry Party) (split : (clientRun plat cfg moves).history = past ++ entry::future)
    (dev : Device) (accountID : Str) (l : Local) (relPath : Str) (absPath : WStr) (io : UploadIo)
    (dispatches : List Dispatch)
    (works : entry.request.1 = .client dev accountID (uploadFile plat dev l relPath absPath io) dispatches)
    (rec head : FileRecord) (base : Int) (accepted : entry.event = ⟨.updateFile rec base,.ok head⟩)
    (conversation : List ApiEvent) (call : ApiCall)
    (requesting : Requesting ⟨plat,dev,cfg,accountID⟩ (uploadFile plat dev l relPath absPath io) dispatches
      (Ledger.callsOf past entry.index) conversation call (.updateFile rec base)) (answered : conversation ≠ []) :
    ∃ first second remoteText replaced, conversation = [first,second] ∧
      Nonempty (MergeUpload plat dev l relPath absPath io first second call remoteText) ∧
      entry.before.mem.files.get (Mem.fileKey rec.accountID rec.fileID) = some replaced ∧
      base = replaced.version ∧ PlaintextOf plat.prim dev.masterKey replaced remoteText := by
  obtain ⟨before,fault,op,next,log,rfl,serves,state,event,-⟩ := Ledger.entry_moment State.empty moves past future entry split
  have heads := clientRun_heads plat cfg before
  have contents := clientRun_contents plat cfg before
  change HeadInv _ at heads
  have plain : PlainAccount accountID := by
    have owner := entry.request.2
    rwa [works] at owner
  obtain ⟨⟨after,asks⟩,told,here,dispatch,later,rest,calls,carried,left,follows⟩ := requesting
  obtain ⟨first,second,rfl⟩ := update_conversation asks follows answered
  obtain ⟨-,remoteText,⟨merge⟩⟩ := uploadFile_follows asks
  obtain ⟨earlier,asked,cur,fetched,content,rfl,file,version,live,opens⟩ := merge.reads carried
  rw [merge.sent] at follows
  obtain ⟨made,based⟩ := send_update follows
  have calls : Ledger.callsOf (clientRun plat cfg before).history entry.index =
      earlier ++ ⟨.getFile accountID asked,.ok cur⟩::⟨.getFile accountID cur.fileID,.ok fetched⟩::
        (⟨.getBlob fetched.blobKey,.found content⟩::here) := by
    rw [clientRun,calls]
    simp
  obtain ⟨newer,⟨current,stored,older,same⟩,named⟩ := reads_ordered heads contents plain calls
  have key : Mem.fileKey rec.accountID rec.fileID = Mem.fileKey accountID cur.fileID := by
    rw [made,← file]
    rfl
  have served : (exec fault entry.before (.updateFile rec base)).1 = .ok head := by
    rw [accepted] at event
    exact answer_of_event (fun op => (exec fault entry.before op).1) event
  obtain ⟨replaced,found,base_,-⟩ := exec_updateFile_ok served
  have here_ : replaced = current := by
    rw [state,key] at found
    exact Option.some.inj (found.symm.trans stored)
  subst here_
  -- The base is the version of the rejection, and the download lies between it and the write.
  have equal : fetched = replaced := by
    have told : base = cur.version := by rw [based,← version,merge.payload_base]
    apply same
    omega
  subst equal
  refine ⟨first,second,remoteText,fetched,rfl,⟨merge⟩,found,base_.symm,live,content,?_,opens⟩
  obtain ⟨download,member,-,reading⟩ := Ledger.mem_callsOf.mp
    (show (⟨.getBlob fetched.blobKey,.found content⟩ : CallEvent) ∈ _ by rw [calls]; simp)
  rw [← named]
  exact contents.readContents download member fetched.blobKey content (by rw [reading]; rfl)

end

/-! ### A merge over a version that arrived in between -/

section
open KnownAnswers

private def small : Config := ⟨1000000,1000000,10⟩

private def phone : Context := ⟨lit "alice",lit "phone",[],1⟩

private def phoneUpload (content hash : String) (baseVersion : Int) : FileJSON :=
  ⟨notesId,lit "TlBTMQECAgICAgICAgICAgKpDWB9OL6OYG9NIKr9aMFf4Apr3tW4RTK94P2IUg2yMSbL3QP7IEKfLSq0cFkfMbbyhQ",
    lit content,lit hash,0,baseVersion,.empty,false,47,0,[],0,[]⟩

private def laptopNotes : Local :=
  ⟨rooted.upsertFile (notesRow 1),⟨Table.empty.upsert (wlit "c:\\notes\\notes.txt") localEdit,[]⟩,
    Table.empty.upsert (lit "d4c17acf05803eba06a649370f82265b102cae36d8cce5582d006805540ee495") baseText,[],true⟩

private def editDraws (content : UInt8) : Random := ⟨nonceOf content,nonceOf 2,uuidOf 0⟩

private def editIo : UploadIo :=
  ⟨true,.replaced,editDraws 8,editDraws 9,⟨true,true,.replaced,⟨0,true⟩,.replaced,.replaced,0⟩⟩

private def threeAnswers : List Dispatch := List.replicate 3 ⟨.answered,1⟩

private def phoneCreates : Party := ⟨.request (.post phone (phoneUpload
  "TlBTMQEGBgYGBgYGBgYGBgYbYLVPRCClN0TSSmqw_jKcUzaIgw3CwpuvDPfbImk"
  "d9e0c41c6e88df5b1aaa47717c6319cb12e33f45f41ea7b6fc5ec4ac154aff9d" 0)),by decide⟩

private def phoneUpdates : Party := ⟨.request (.put phone notesId (phoneUpload
  "TlBTMQEHBwcHBwcHBwcHBweuyv6ZOTEUOiYg1UuGhDf-YATDVht4uP6S1UHFxVs"
  "7addf682dd29a91008ef1073f7386fc88060a62515419ec88407ad4a5ebb9d5f" 1)),by decide⟩

private def laptopUploads : Party := ⟨.client laptop (lit "alice") (uploadFile editPlatform laptop laptopNotes
  (lit "root:notes.txt") (wlit "C:\\notes\\notes.txt") editIo) threeAnswers,by decide⟩

/-- The phone creates the file. While the laptop's upload is under way the phone
stores version 2; the laptop is rejected, downloads, merges and uploads again. -/
private def editedTwice : List (Move Party Bool) :=
  .spawn phoneCreates::List.replicate 3 (.step 0 false) ++ .spawn laptopUploads::.spawn phoneUpdates::
    [.step 1 false,.step 1 false,.step 2 false,.step 2 false] ++ List.replicate 7 (.step 1 false)

theorem acceptedBase_update {event : CallEvent} {key : Str} {base : Int} (accepted : acceptedBase event = some (key,base))
    (later : base ≠ 0) : ∃ rec head, event = ⟨.updateFile rec base,.ok head⟩ := by
  unfold acceptedBase at accepted
  split at accepted
  · cases accepted
    contradiction
  · cases accepted
    exact ⟨_,_,rfl⟩
  · contradiction

theorem notes_merged : ∃ entry ∈ (clientRun editPlatform small editedTwice).history, ∃ rec head base remoteText replaced,
    entry.event = ⟨.updateFile rec base,.ok head⟩ ∧
      entry.before.mem.files.get (Mem.fileKey rec.accountID rec.fileID) = some replaced ∧
      base = replaced.version ∧ PlaintextOf editPlatform.prim laptop.masterKey replaced remoteText := by
  have facts : ((clientRun editPlatform small editedTwice).history[13]?).map
      (fun entry => (entry.index,acceptedBase entry.event)) =
        some (1,some (Mem.fileKey (lit "alice") notesId,2)) := by
    simp only [editedTwice,laptopUploads,laptopNotes,notesRow,phoneCreates,phoneUpdates,phoneUpload,editPlatform_numerals,
      show lit "TlBTMQECAgICAgICAgICAgKpDWB9OL6OYG9NIKr9aMFf4Apr3tW4RTK94P2IUg2yMSbL3QP7IEKfLSq0cFkfMbbyhQ" = _ from lit_text _,
      show lit "TlBTMQEGBgYGBgYGBgYGBgYbYLVPRCClN0TSSmqw_jKcUzaIgw3CwpuvDPfbImk" = _ from lit_text _,
      show lit "d9e0c41c6e88df5b1aaa47717c6319cb12e33f45f41ea7b6fc5ec4ac154aff9d" = _ from lit_text _,
      show lit "TlBTMQEHBwcHBwcHBwcHBweuyv6ZOTEUOiYg1UuGhDf-YATDVht4uP6S1UHFxVs" = _ from lit_text _,
      show lit "7addf682dd29a91008ef1073f7386fc88060a62515419ec88407ad4a5ebb9d5f" = _ from lit_text _,
      show lit "b6285c57e8797db5d4c51c80d6f11938afda9b11c6a003549709189e9b4b92a2" = _ from lit_text _,
      show lit "d4c17acf05803eba06a649370f82265b102cae36d8cce5582d006805540ee495" = _ from lit_text _]
    decide +kernel
  obtain ⟨entry,found,same⟩ := Option.map_eq_some_iff.mp facts
  obtain ⟨thread,written⟩ := Prod.mk.inj same
  obtain ⟨rec,head,accepted⟩ := acceptedBase_update written (by decide)
  have member := List.mem_of_getElem? found
  obtain ⟨past,future,split⟩ := List.append_of_mem member
  have works : entry.request.1 = .client laptop (lit "alice") (uploadFile editPlatform laptop laptopNotes
      (lit "root:notes.txt") (wlit "C:\\notes\\notes.txt") editIo) threeAnswers := by
    have asked := (clientRun_logged editPlatform small editedTwice).asked entry member
    rw [clientRun,Ledger.run_requests,thread] at asked
    have parties : editedTwice.filterMap Ledger.asked = [phoneCreates,laptopUploads,phoneUpdates] := rfl
    rw [parties] at asked
    rw [← Option.some.inj asked]
    rfl
  obtain ⟨conversation,call,requesting⟩ := client_requesting editPlatform small editedTwice past future entry split laptop
    (lit "alice") _ threeAnswers works
  rw [accepted] at requesting
  have answered : conversation ≠ [] := by
    rintro rfl
    obtain ⟨⟨after,asks⟩,told,here,dispatch,later,rest,-,-,-,follows⟩ := requesting
    obtain ⟨payload,based,rfl⟩ := uploadFile_first asks
    have row : ((laptopNotes.db.getFile (lit "root:notes.txt")).map (·.remoteVersion)).getD 0 = 1 := by decide
    rw [row] at based
    rw [based,uploadCall,if_neg (by decide)] at follows
    obtain ⟨-,same⟩ := send_update follows
    rw [based] at same
    exact absurd same (by decide)
  obtain ⟨first,second,remoteText,replaced,-,-,before,based,plain⟩ := merge_replaces_fetched editPlatform small editedTwice
    past future entry split laptop (lit "alice") laptopNotes (lit "root:notes.txt") (wlit "C:\\notes\\notes.txt") editIo
    threeAnswers works rec head 2 accepted conversation call requesting answered
  exact ⟨entry,member,rec,head,2,remoteText,replaced,accepted,before,based,plain⟩

end
end NPSync.Engine
