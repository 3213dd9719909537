import NPSync.Engine.Clients

/-! How an upload ends that the server rejects with the current record. The 409 is
that of `handleUpdateFile`, the download that of `handleGetFile` for the same head. -/
namespace NPSync.Engine
open Library Server

section
variable (u : Setup)

/-- The 409 answer for a head. -/
def conflictAnswer (baseVersion : Int) (f : FileRecord) : ApiResponse := toApiResponse (.error (conflictError baseVersion f))

/-- The answers that `handleConflict` gets: the server's download, and `r` to the merged upload. -/
def answersOf (s : State) (now : Nat) (r : ApiResponse) : ApiCall → ApiResponse
  | .getFile fileId => toApiResponse ((handleGetFile (context u now) fileId).run (Server.exec false) s).1
  | _ => r

def answered (answers : ApiCall → ApiResponse) : Unit → ApiCall → ApiResponse × Unit := fun _ call => (answers call,())

/-- The requests so far are kept beside the answers. -/
def noting (answers : ApiCall → ApiResponse) : List ApiCall → ApiCall → ApiResponse × List ApiCall :=
  fun sent call => (answers call,sent ++ [call])

/-- The plaintext of the head, if it is live and its blob opens. -/
def headText (s : State) (f : FileRecord) : Option Bytes :=
  if f.deleted then none
  else match s.blobs.get f.blobKey with
    | none => none
    | some content =>
      match Crypto.decrypt u.plat.prim u.dev.masterKey content (lit "file") with
      | .plain text => some text
      | .threw | .rejected => none

def conflictCopy (absPath : WStr) : WStr :=
  absPath ++ wlit " (conflict - " ++ PathUtil.utf8ToWide u.plat.win u.dev.deviceName ++ wlit ").bak"

variable (l : Local) (relPath : Str) (absPath : WStr) (f : FileRecord) (io : UploadIo) (bytes : Bytes) (r : ApiResponse)

/-- The merge of a local text with that of the head, over the shadow. -/
def mergeOf (localText remoteText : Bytes) : MergeResult :=
  Merge.merge ((readShadow u.plat l relPath io.merge.shadowOpens).getD []) localText remoteText

/-- The payload of the merged text, on top of the head. -/
def mergedPayload (merged : Bytes) : Option Payload :=
  (vectorJson f.versionVector).dump.bind fun vector =>
    buildFilePayload u.plat u.dev l.db relPath merged f.version (VersionVector.fromJson vector) io.mergeRnd

/-- The local bytes merge cleanly with the text of the head, and their merge is the
text of the file, of the row and of the last upload. -/
def UploadsMerge (s : State) (out : (Outcome × Local) × List ApiCall) (st : LocalFileState) : Prop :=
  ∃ remoteText payload, headText u s f = some remoteText ∧ (mergeOf u l relPath io bytes remoteText).clean = true ∧
    out.1.2.disk.read u.plat.win absPath = some (mergeOf u l relPath io bytes remoteText).merged ∧
    st.localHash = Crypto.sha256Hex u.plat.prim (mergeOf u l relPath io bytes remoteText).merged ∧
    mergedPayload u l relPath f io (mergeOf u l relPath io bytes remoteText).merged = some payload ∧
    out.2.getLast? = some (.updateFile f.fileID payload)

/-- An accepted merge of the bytes with an updated row, or a conflict of the file
whose copy holds the bytes. -/
def EndsWell (s : State) (out : (Outcome × Local) × List ApiCall) : Prop :=
  (out.1.1 = .merged ∧ r.status = 200 ∧ ∃ st default, out.1.2.db.getFile relPath = some st ∧ st.fileId = f.fileID ∧
    r.body.valueInt (lit "version") default = some st.remoteVersion ∧
    UploadsMerge u l relPath absPath f io bytes s out st) ∨
  (out.1.1 = .conflictRecorded ∧ ∃ c, out.1.2.db.conflicts.get f.fileID = some c ∧
    c.localCopyPath = PathUtil.wideToUtf8 u.plat.win (conflictCopy u absPath) ∧
    out.1.2.disk.read u.plat.win (conflictCopy u absPath) = some bytes)

/-- The bytes that `handleConflict` takes for the local text. -/
def localText : Bytes := (readFileBytes u.plat.win l.disk absPath io.merge.opens).getD []

/-- The copy is written and the file could be read for it, or an older copy has the bytes. -/
def CopyKept (disk : Disk) : Prop :=
  if io.merge.copyWrite = .replaced then io.merge.opens = true ∨ bytes = []
  else disk.read u.plat.win (conflictCopy u absPath) = some bytes

/-- The file could be read for the merge, or its bytes merge into what no text merges into. -/
def BytesMerged (remoteText : Bytes) : Prop :=
  io.merge.opens = true ∨ bytes = [] ∨ ((mergeOf u l relPath io bytes remoteText).clean = true ∧
    (mergeOf u l relPath io bytes remoteText).merged = (mergeOf u l relPath io [] remoteText).merged)

/-- The merged file is written and its payload built; a 200 answer can be read and
the bytes were merged, after any other answer the local bytes are copied. -/
def MergeKept (remoteText merged : Bytes) : Prop :=
  io.merge.write = .replaced ∧ ∃ payload, mergedPayload u l relPath f io merged = some payload ∧
    if r.status = 200 then (r.body.valueInt (lit "version") (f.version + 1)).isSome ∧ (sentVector payload).isSome ∧
      BytesMerged u l relPath io bytes remoteText
    else CopyKept u absPath io bytes (writeFileAtomic u.plat.win l.disk absPath merged io.merge.write).2

/-- The head has a text, and what is made of it and the local text can be kept. -/
def Recoverable (s : State) : Prop :=
  ∃ remoteText, headText u s f = some remoteText ∧
    if (mergeOf u l relPath io (localText u l absPath io) remoteText).clean then
      MergeKept u l relPath absPath f io bytes r remoteText
        (mergeOf u l relPath io (localText u l absPath io) remoteText).merged
    else CopyKept u absPath io bytes l.disk

end

/-! ### The end without a merge -/

@[simp] theorem recordJson_contentHash (f : FileJSON) :
    (recordJson f).valueStr (lit "content_hash") [] = some f.contentHash := by
  simp [recordJson,Json.valueStr,Json.value,Json.field,lit]

@[simp] theorem recordJson_versionVector (f : FileJSON) :
    (recordJson f).value (lit "version_vector") (.obj []) = some (vectorJson f.versionVector) := by
  simp [recordJson,Json.value,Json.field,lit]

section
variable {u : Setup} {l : Local} {relPath : Str} {absPath : WStr} {f : FileRecord} {io : UploadIo} {bytes : Bytes}
  {r : ApiResponse}

theorem localText_eq (holds : l.disk.read u.plat.win absPath = some bytes) :
    localText u l absPath io = bytes ↔ io.merge.opens = true ∨ bytes = [] := by
  unfold localText readFileBytes
  by_cases opens : io.merge.opens = true
  · simp [opens,holds]
  · simp [opens,eq_comm]

/-- The merge that is made is that of the bytes exactly when they could be read or make no difference. -/
theorem bytesMerged_iff (holds : l.disk.read u.plat.win absPath = some bytes) {remoteText : Bytes}
    (clean : (mergeOf u l relPath io (localText u l absPath io) remoteText).clean = true) :
    BytesMerged u l relPath io bytes remoteText ↔ (mergeOf u l relPath io bytes remoteText).clean = true ∧
      (mergeOf u l relPath io bytes remoteText).merged =
        (mergeOf u l relPath io (localText u l absPath io) remoteText).merged := by
  by_cases read : io.merge.opens = true ∨ bytes = []
  · have same : localText u l absPath io = bytes := (localText_eq holds).mpr read
    rw [same] at clean ⊢
    exact iff_of_true (read.imp_right .inl) ⟨clean,rfl⟩
  · have unread : io.merge.opens = false := by simpa using (not_or.mp read).1
    have empty : localText u l absPath io = [] := by simp [localText,readFileBytes,unread]
    rw [empty]
    constructor
    · rintro (opens | none | same)
      · exact absurd (.inl opens) read
      · exact absurd (.inr none) read
      · exact same
    · exact fun same => .inr (.inr same)

/-- Without a merge the exchange records the conflict; only the copy can be wrong. -/
theorem endsWell_keepBoth {s : State} (answers : ApiCall → ApiResponse) (now : Local) (sent : List ApiCall)
    (holds : l.disk.read u.plat.win absPath = some bytes) :
    EndsWell u l relPath absPath f io bytes r s ((keepBoth u.plat u.dev now relPath absPath (recordJson (toFileJSON f []))
        f.fileID (localText u l absPath io) io.merge).run (noting answers) sent) ↔ CopyKept u absPath io bytes now.disk := by
  unfold keepBoth
  rw [recordJson_version,recordJson_contentHash]
  dsimp only [Program.run_done]
  have copied := read_writeFileAtomic u.plat.win now.disk (conflictCopy u absPath) (localText u l absPath io) io.merge.copyWrite
  constructor
  · rintro (⟨merged,-⟩ | ⟨-,c,-,-,copies⟩)
    · contradiction
    · have reads := copied.symm.trans copies
      unfold CopyKept
      split
      · rename_i replaced
        rw [if_pos replaced] at reads
        have same : localText u l absPath io = bytes := Option.some.inj reads
        exact (localText_eq holds).mp same
      · rename_i kept
        rwa [if_neg kept] at reads
  · intro kept
    refine .inr ⟨rfl,_,Table.get_upsert_same _ _ _,rfl,copied.trans ?_⟩
    unfold CopyKept at kept
    split at kept
    · rename_i replaced
      rw [if_pos replaced]
      exact congrArg some ((localText_eq holds).mpr kept)
    · rename_i failed
      rwa [if_neg failed]

/-! ### The end with a merge -/

theorem endsWell_threw {s : State} (answers : ApiCall → ApiResponse) (now : Local) (sent : List ApiCall) :
    ¬EndsWell u l relPath absPath f io bytes r s ((threw now).run (noting answers) sent) := by
  rintro (⟨ended,-⟩ | ⟨ended,-⟩)
  · contradiction
  · contradiction

theorem endsWell_fails {s : State} (answers : ApiCall → ApiResponse) (error : String) (now : Local) (sent : List ApiCall) :
    ¬EndsWell u l relPath absPath f io bytes r s ((fails error now).run (noting answers) sent) := by
  rintro (⟨ended,-⟩ | ⟨ended,-⟩)
  · contradiction
  · contradiction

/-- An accepted merge whose answer can be read updates the row; it is the merge of
the bytes or it is none. -/
theorem endsWell_accepted {s : State} (answers : ApiCall → ApiResponse) (now : Local) (sent : List ApiCall)
    (version default : Int) (vv : VersionVector) (payload : Payload) {remoteText : Bytes}
    (holds : l.disk.read u.plat.win absPath = some bytes) (head : headText u s f = some remoteText)
    (clean : (mergeOf u l relPath io (localText u l absPath io) remoteText).clean = true)
    (file : now.disk.read u.plat.win absPath =
      some (mergeOf u l relPath io (localText u l absPath io) remoteText).merged)
    (built : mergedPayload u l relPath f io (mergeOf u l relPath io (localText u l absPath io) remoteText).merged =
      some payload)
    (accepted : r.status = 200) (reads : r.body.valueInt (lit "version") default = some version) :
    EndsWell u l relPath absPath f io bytes r s ((Program.done (.merged,writeShadow u.plat
      {now with db := now.db.upsertFile (mergedRow u.plat now relPath f.fileID
        (mergeOf u l relPath io (localText u l absPath io) remoteText).merged version vv)} relPath
          (mergeOf u l relPath io (localText u l absPath io) remoteText).merged io.merge.shadow) :
        Exchange).run (noting answers) (sent ++ [.updateFile f.fileID payload])) ↔
      BytesMerged u l relPath io bytes remoteText := by
  rw [bytesMerged_iff holds clean]
  generalize (mergeOf u l relPath io (localText u l absPath io) remoteText).merged = merged at file built
  let row := mergedRow u.plat now relPath f.fileID merged version vv
  have kept := LocalDb.getFile_upsertFile_same now.db row
  rw [Program.run_done]
  constructor
  · rintro (⟨-,-,st,other,-,-,-,text,_,found,merges,same,-⟩ | ⟨ended,-⟩)
    · obtain rfl : text = remoteText := Option.some.inj (found.symm.trans head)
      rw [writeShadow_disk] at same
      exact ⟨merges,Option.some.inj (same.symm.trans file)⟩
    · contradiction
  · rintro ⟨merges,same⟩
    refine .inl ⟨rfl,accepted,LocalDb.ofRow relPath (LocalDb.toRow row),default,?_,rfl,reads,remoteText,payload,head,
      merges,?_,?_,?_,by simp⟩
    · rw [writeShadow_db]
      exact kept
    · rw [writeShadow_disk,same]
      exact file
    · rw [same]
      rfl
    · rw [same]
      exact built

theorem endsWell_uploadMerged {s : State} {answers : ApiCall → ApiResponse} {sent : List ApiCall} {remoteText : Bytes}
    (merges : ∀ fileId payload, answers (.updateFile fileId payload) = r) (holds : l.disk.read u.plat.win absPath = some bytes)
    (head : headText u s f = some remoteText)
    (clean : (mergeOf u l relPath io (localText u l absPath io) remoteText).clean = true) :
    EndsWell u l relPath absPath f io bytes r s ((uploadMerged u.plat u.dev l relPath absPath
        (recordJson (toFileJSON f [])) f.fileID (localText u l absPath io)
        (mergeOf u l relPath io (localText u l absPath io) remoteText).merged io.mergeRnd io.merge).run
          (noting answers) sent) ↔
      MergeKept u l relPath absPath f io bytes r remoteText
        (mergeOf u l relPath io (localText u l absPath io) remoteText).merged := by
  have accepts := fun now version default vv payload =>
    endsWell_accepted (r := r) answers now sent version default vv payload holds head clean
  generalize (mergeOf u l relPath io (localText u l absPath io) remoteText).merged = merged at accepts
  unfold uploadMerged MergeKept
  dsimp only
  have said : (toFileJSON f []).version = some (f.version : Int) := rfl
  have carried : (toFileJSON f []).versionVector = f.versionVector := rfl
  rw [writeFileAtomic_written,recordJson_version,recordJson_versionVector,said,carried]
  by_cases written : io.merge.write = .replaced
  · have file : (writeFileAtomic u.plat.win l.disk absPath merged .replaced).2.read u.plat.win absPath = some merged := by
      rw [read_writeFileAtomic,if_pos rfl]
    rw [written]
    dsimp only [decide_true,Bool.not_true,Option.bind_some]
    rw [if_neg (by decide)]
    cases dumped : (vectorJson f.versionVector).dump with
    | none => exact iff_of_false (endsWell_threw answers _ _) (by simp [mergedPayload,dumped])
    | some vector =>
      dsimp only
      rw [backupReplaced_db]
      have builds : mergedPayload u l relPath f io merged = buildFilePayload u.plat u.dev l.db relPath merged f.version
          (VersionVector.fromJson vector) io.mergeRnd := by
        simp only [mergedPayload,dumped,Option.bind_some]
      cases built : buildFilePayload u.plat u.dev l.db relPath merged f.version (VersionVector.fromJson vector) io.mergeRnd with
      | none => exact iff_of_false (endsWell_threw answers _ _) (by simp [builds,built])
      | some payload =>
        rw [built] at builds
        simp only [builds,Option.some.injEq,exists_eq_left',true_and]
        have merge : noting answers sent (.updateFile f.fileID payload) =
            (r,sent ++ [.updateFile f.fileID payload]) := by
          rw [noting,merges]
        rw [Program.run_call,merge]
        by_cases accepted : r.status = 200
        · rw [if_pos accepted,if_pos accepted]
          cases reads : r.body.valueInt (lit "version") (f.version + 1) with
          | none => exact iff_of_false (endsWell_threw answers _ _) (by simp)
          | some version =>
            cases vector : sentVector payload with
            | none => exact iff_of_false (endsWell_threw answers _ _) (by simp)
            | some vv =>
              let written := {l with disk := (writeFileAtomic u.plat.win l.disk absPath merged .replaced).2}
              have ends := accepts (backupReplaced u.plat.win written absPath io.merge.backup) version _ vv payload
                file builds accepted reads
              simpa using ends
        · rw [if_neg accepted,if_neg accepted]
          exact endsWell_keepBoth answers _ _ holds
  · have failed : decide (io.merge.write = .replaced) = false := decide_eq_false written
    rw [failed]
    exact iff_of_false (endsWell_fails answers _ _ _) fun kept => written kept.1

/-! ### From the rejection on -/

theorem headText_opens {s : State} {remoteText : Bytes} (opens : headText u s f = some remoteText) :
    f.deleted = false ∧ ∃ content, s.blobs.get f.blobKey = some content ∧
      Crypto.decrypt u.plat.prim u.dev.masterKey content (lit "file") = .plain remoteText := by
  unfold headText at opens
  split at opens
  · contradiction
  rename_i live
  split at opens
  · contradiction
  rename_i content found
  split at opens
  · rename_i text plain
    cases opens
    exact ⟨by simpa using live,content,found,plain⟩
  · contradiction
  · contradiction

section
variable {s : State} {now : Nat}

theorem answersOf_tombstone (head : s.mem.files.get (Mem.fileKey u.accountID f.fileID) = some f) (gone : f.deleted = true) :
    answersOf u s now r (.getFile f.fileID) = ⟨true,200,recordJson (toFileJSON f [])⟩ := by
  have stored : s.mem.getFile u.accountID f.fileID = .ok f := by simp [Mem.getFile,head]
  simp [answersOf,handleGetFile,context,exec,stored,gone,toApiResponse]

theorem answersOf_live {content : Bytes} (head : s.mem.files.get (Mem.fileKey u.accountID f.fileID) = some f)
    (live : f.deleted = false) (found : s.blobs.get f.blobKey = some content) :
    answersOf u s now r (.getFile f.fileID) = ⟨true,200,recordJson (toFileJSON f (Base64.encodeBase64URL content))⟩ := by
  have stored : s.mem.getFile u.accountID f.fileID = .ok f := by simp [Mem.getFile,head]
  simp [answersOf,handleGetFile,readBlob,context,exec,stored,live,found,toApiResponse]

/-- A record without content cannot be decrypted, so the operation fails. -/
theorem handleConflict_tombstone (head : s.mem.files.get (Mem.fileKey u.accountID f.fileID) = some f) (named : f.fileID ≠ [])
    (gone : f.deleted = true) :
    ((handleConflict u.plat u.dev l relPath absPath (recordJson (toFileJSON f [])) io.mergeRnd io.merge).run
      (noting (answersOf u s now r)) []).1 = (.failed (lit "cannot decrypt remote version"),l) := by
  have empty : Base64.base64UrlDecode [] = some [] := Base64.base64UrlDecode_encode []
  have short : Crypto.decrypt u.plat.prim u.dev.masterKey [] (lit "file") = .rejected := by
    simp [Crypto.decrypt,Crypto.headerLen]
  have file : (toFileJSON f []).fileID ≠ [] := named
  have fetched : (noting (answersOf u s now r) [] (.getFile (toFileJSON f []).fileID)).1 =
    ⟨true,200,recordJson (toFileJSON f [])⟩ := answersOf_tombstone (r := r) head gone
  simp only [handleConflict,recordJson_fileID,file,if_false,Program.run_call,fetched,recordJson_content]
  simp only [toFileJSON,empty,short]
  rfl

theorem handleConflict_live {remoteText : Bytes} (head : s.mem.files.get (Mem.fileKey u.accountID f.fileID) = some f)
    (named : f.fileID ≠ []) (opens : headText u s f = some remoteText) :
    (handleConflict u.plat u.dev l relPath absPath (recordJson (toFileJSON f [])) io.mergeRnd io.merge).run
        (noting (answersOf u s now r)) [] =
      (if (mergeOf u l relPath io (localText u l absPath io) remoteText).clean then
        uploadMerged u.plat u.dev l relPath absPath (recordJson (toFileJSON f [])) f.fileID (localText u l absPath io)
          (mergeOf u l relPath io (localText u l absPath io) remoteText).merged io.mergeRnd io.merge
      else keepBoth u.plat u.dev l relPath absPath (recordJson (toFileJSON f [])) f.fileID (localText u l absPath io)
        io.merge).run (noting (answersOf u s now r)) [.getFile f.fileID] := by
  obtain ⟨live,content,found,plain⟩ := headText_opens opens
  have file : (toFileJSON f []).fileID ≠ [] := named
  have fetched : (noting (answersOf u s now r) [] (.getFile (toFileJSON f []).fileID)).1 =
    ⟨true,200,recordJson (toFileJSON f (Base64.encodeBase64URL content))⟩ := answersOf_live (r := r) head live found
  simp only [handleConflict,recordJson_fileID,file,if_false,Program.run_call,fetched,recordJson_content]
  simp only [toFileJSON,Base64.encodeBase64URL,Base64.base64UrlDecode_encode,plain]
  rfl

end

section
variable (u l relPath absPath f io bytes r)

/-- An upload that is rejected with the current head ends merged or recorded
exactly when the head has a text and the rest of the exchange can keep it. -/
theorem conflict_recovers_iff (s : State) (now : Nat) (plaintext : Bytes) (payload : Payload) (baseVersion : Int)
    (head : s.mem.files.get (Mem.fileKey u.accountID f.fileID) = some f) (named : f.fileID ≠ [])
    (fetchable : f.deleted = false → (headText u s f).isSome) (holds : l.disk.read u.plat.win absPath = some bytes) :
    EndsWell u l relPath absPath f io bytes r s ((Engine.finishUpload u.plat u.dev l relPath absPath plaintext payload io
        (conflictAnswer baseVersion f)).run (noting (answersOf u s now r)) []) ↔
      Recoverable u l relPath absPath f io bytes r s := by
  have rejected : Engine.finishUpload u.plat u.dev l relPath absPath plaintext payload io (conflictAnswer baseVersion f) =
      handleConflict u.plat u.dev {l with online := true} relPath absPath (recordJson (toFileJSON f [])) io.mergeRnd
        io.merge := by
    simp [Engine.finishUpload,conflictAnswer,conflictError,toApiResponse,errorJson,Json.value,Json.field,lit]
  rw [rejected]
  have reads : ({l with online := true} : Local).disk.read u.plat.win absPath = some bytes := holds
  by_cases gone : f.deleted = true
  · apply iff_of_false
    · rintro (⟨merged,-⟩ | ⟨recorded,-⟩)
      · rw [handleConflict_tombstone head named gone] at merged
        contradiction
      · rw [handleConflict_tombstone head named gone] at recorded
        contradiction
    · rintro ⟨remoteText,opens,-⟩
      have live := (headText_opens opens).1
      rw [gone] at live
      contradiction
  · obtain ⟨remoteText,opens⟩ := Option.isSome_iff_exists.mp (fetchable (by simpa using gone))
    rw [handleConflict_live head named opens]
    have recovers : Recoverable u l relPath absPath f io bytes r s ↔
        if (mergeOf u l relPath io (localText u l absPath io) remoteText).clean then
          MergeKept u l relPath absPath f io bytes r remoteText
            (mergeOf u l relPath io (localText u l absPath io) remoteText).merged
        else CopyKept u absPath io bytes l.disk := by
      simp only [Recoverable,opens,Option.some.injEq,exists_eq_left']
    rw [recovers]
    have same : mergeOf u {l with online := true} relPath io (localText u {l with online := true} absPath io) remoteText =
      mergeOf u l relPath io (localText u l absPath io) remoteText := rfl
    rw [same]
    split
    · rename_i clean
      exact endsWell_uploadMerged (l := {l with online := true}) (fun _ _ => rfl) reads opens clean
    · exact endsWell_keepBoth (l := {l with online := true}) _ _ _ reads

end
end

/-! ### Two heads of `notes.txt` -/

section
open KnownAnswers

private def notesSetup : Setup := ⟨platform,laptop,⟨1000000,1000000,10⟩,lit "alice"⟩

private def phoneHead (deleted : Bool) : FileRecord :=
  let hash := lit "7f6cbf117c8f9ae9a755ae37b34adcee94b9600958b62dd3a315f1ba17b81269"
  ⟨lit "alice",notesId,[],hash,2,.empty,deleted,38,hash,1,lit "phone",2⟩

/-- The server with version 2 of `notes.txt`; its content is `hello`. -/
private def serverWith (f : FileRecord) : State :=
  ⟨{Mem.newMem with files := Table.empty.upsert (Mem.fileKey (lit "alice") notesId) f},
    Table.empty.upsert f.blobKey (unhex "4e50533101010101010101010101010101ec0863e2f1f30802e122435af26262631fa6895907"),[]⟩

private def editedHere : Local := ⟨rooted,⟨Table.empty.upsert (wlit "c:\\notes\\notes.txt") (lit "world"),[]⟩,.empty,[],true⟩

private def allWorks : UploadIo :=
  ⟨true,.replaced,⟨nonceOf 1,nonceOf 2,uuidOf 0⟩,⟨nonceOf 4,nonceOf 5,uuidOf 0⟩,
    ⟨true,true,.replaced,⟨0,true⟩,.replaced,.replaced,0⟩⟩

private def notesPayload : Payload := ⟨notesId,[],[],[],1,.obj [],5,[],[]⟩

theorem live_head_recorded : EndsWell notesSetup editedHere (lit "root:notes.txt") (wlit "C:\\notes\\notes.txt")
    (phoneHead false) allWorks (lit "world") unreachable (serverWith (phoneHead false)) ((Engine.finishUpload platform laptop
      editedHere (lit "root:notes.txt") (wlit "C:\\notes\\notes.txt") (lit "world") notesPayload allWorks
      (conflictAnswer 1 (phoneHead false))).run
        (noting (answersOf notesSetup (serverWith (phoneHead false)) 0 unreachable)) []) := by
  have text : headText notesSetup (serverWith (phoneHead false)) (phoneHead false) = some (lit "hello") := by decide
  have apart : (mergeOf notesSetup editedHere (lit "root:notes.txt") allWorks
      (localText notesSetup editedHere (wlit "C:\\notes\\notes.txt") allWorks) (lit "hello")).clean = false := by
    decide
  apply (conflict_recovers_iff notesSetup editedHere (lit "root:notes.txt") (wlit "C:\\notes\\notes.txt") (phoneHead false)
    allWorks (lit "world") unreachable (serverWith (phoneHead false)) 0 (lit "world") notesPayload 1
    (Table.get_upsert_same _ _ _) (by decide) (fun _ => by rw [text]; rfl) (by decide)).mpr
  refine ⟨lit "hello",text,?_⟩
  rw [apart]
  exact .inl rfl

/-- The phone deleted the file that was edited here: the rejected upload fails. -/
theorem deleted_head_fails : ¬∀ (u : Setup) (l : Local) (relPath : Str) (absPath : WStr) (f : FileRecord) (io : UploadIo)
    (bytes : Bytes) (r : ApiResponse) (s : State) (now : Nat) (plaintext : Bytes) (payload : Payload) (baseVersion : Int),
    s.mem.files.get (Mem.fileKey u.accountID f.fileID) = some f → f.fileID ≠ [] →
    (f.deleted = false → (headText u s f).isSome) → l.disk.read u.plat.win absPath = some bytes →
    EndsWell u l relPath absPath f io bytes r s ((Engine.finishUpload u.plat u.dev l relPath absPath plaintext payload io
      (conflictAnswer baseVersion f)).run (noting (answersOf u s now r)) []) := by
  intro claim
  have ended := claim notesSetup editedHere (lit "root:notes.txt") (wlit "C:\\notes\\notes.txt") (phoneHead true) allWorks
    (lit "world") unreachable (serverWith (phoneHead true)) 0 (lit "world") notesPayload 1 (Table.get_upsert_same _ _ _)
    (by decide) (fun live => by contradiction) (by decide)
  have outcome : ((Engine.finishUpload platform laptop editedHere (lit "root:notes.txt") (wlit "C:\\notes\\notes.txt")
      (lit "world") notesPayload allWorks (conflictAnswer 1 (phoneHead true))).run
        (noting (answersOf notesSetup (serverWith (phoneHead true)) 0 unreachable)) []).1.1 =
      .failed (lit "cannot decrypt remote version") := by
    decide
  rcases ended with ⟨merged,-⟩ | ⟨recorded,-⟩
  · exact absurd (outcome.symm.trans merged) (by decide)
  · exact absurd (outcome.symm.trans recorded) (by decide)

end
end NPSync.Engine
