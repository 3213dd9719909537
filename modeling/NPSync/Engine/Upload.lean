import NPSync.Engine.Payload
import NPSync.Library.Interleaving
import NPSync.Merge

/-! `SyncEngine::uploadFile`, `handleConflict` and `deleteRemote`. Each is a
program whose calls are the requests it sends; it ends with its outcome and the
state of the device. -/
namespace NPSync.Engine
open Library

inductive ApiCall where
  | createFile (payload : Payload)
  | updateFile (fileId : Str) (payload : Payload)
  | deleteFile (fileId : Str)
  | getFile (fileId : Str)

abbrev Exchange := Program ApiCall (fun _ => ApiResponse) (Outcome × Local)

/-- What the operating system makes of the I/O calls of one `handleConflict`. -/
structure MergeIo where
  opens : Bool
  shadowOpens : Bool
  write : WriteFate
  backup : BackupIo
  shadow : WriteFate
  copyWrite : WriteFate
  now : Int

structure UploadIo where
  opens : Bool
  shadow : WriteFate
  rnd : Random
  mergeRnd : Random
  merge : MergeIo

section
variable (plat : Platform) (dev : Device)

def threw (l : Local) : Exchange := .done (.threw,l)
def fails (error : String) (l : Local) : Exchange := .done (.failed (lit error),l)

/-- `r.body.value("message", fallback)` as the error of a refused request. -/
def refused (r : ApiResponse) (fallback : String) (l : Local) : Exchange :=
  match r.body.valueStr (lit "message") (lit fallback) with
  | none => threw l
  | some message => .done (.failed message,l)

/-- The vector of a payload as it is stored with the row. -/
def sentVector (payload : Payload) : Option VersionVector := payload.versionVector.dump.map VersionVector.fromJson

/-- The end of `handleConflict` without a merge: a copy of the local text and a conflict. -/
def keepBoth (l : Local) (relPath : Str) (absPath : WStr) (serverCurrent : Json) (fileId : Str)
    (localText : Bytes) (io : MergeIo) : Exchange :=
  let copy := absPath ++ wlit " (conflict - " ++ PathUtil.utf8ToWide plat.win dev.deviceName ++ wlit ").bak"
  let l := {l with disk := (writeFileAtomic plat.win l.disk copy localText io.copyWrite).2}
  match serverCurrent.valueInt (lit "version") 0,serverCurrent.valueStr (lit "content_hash") [] with
  | some version,some contentHash =>
    let c := ⟨fileId,relPath,version,PathUtil.wideToUtf8 plat.win copy,contentHash,io.now⟩
    .done (.conflictRecorded,{l with db := l.db.addConflict c})
  | _,_ => threw l

/-- The row after an accepted merge. -/
def mergedRow (l : Local) (relPath fileId : Str) (merged : Bytes) (version : Int) (vv : VersionVector) :
    LocalFileState :=
  let st := (l.db.getFile relPath).getD .fresh
  let hash := Crypto.sha256Hex plat.prim merged
  ⟨fileId,st.syncRoot,relPath,hash,hash,version,vv,st.deleted,st.modifiedAtLocal⟩

/-- The upload of a merged text as the new head. -/
def uploadMerged (l : Local) (relPath : Str) (absPath : WStr) (serverCurrent : Json) (fileId : Str)
    (localText merged : Bytes) (rnd : Random) (io : MergeIo) : Exchange :=
  let out := writeFileAtomic plat.win l.disk absPath merged io.write
  let l := {l with disk := out.2}
  if !out.1 then fails "cannot write merged file" l
  else
    let l := backupReplaced plat.win l absPath io.backup
    match serverCurrent.valueInt (lit "version") 0,
        (serverCurrent.value (lit "version_vector") (.obj [])).bind Json.dump with
    | some newBase,some vector =>
      match buildFilePayload plat dev l.db relPath merged newBase (VersionVector.fromJson vector) rnd with
      | none => threw l
      | some payload => .call (.updateFile fileId payload) fun r =>
        if r.status = 200 then
          match r.body.valueInt (lit "version") (newBase + 1),sentVector payload with
          | some version,some vv =>
            let l := {l with db := l.db.upsertFile (mergedRow plat l relPath fileId merged version vv)}
            .done (.merged,writeShadow plat l relPath merged io.shadow)
          | _,_ => threw l
        else keepBoth plat dev l relPath absPath serverCurrent fileId localText io
    | _,_ => threw l

def handleConflict (l : Local) (relPath : Str) (absPath : WStr) (serverCurrent : Json) (rnd : Random)
    (io : MergeIo) : Exchange :=
  match serverCurrent.valueStr (lit "file_id") [] with
  | none => threw l
  | some fileId =>
    if fileId = [] then fails "conflict without file id" l
    else .call (.getFile fileId) fun full =>
      if full.status ≠ 200 then fails "cannot fetch remote version" l
      else match full.body.valueStr (lit "encrypted_content") [] with
        | none => threw l
        | some text =>
          match Base64.base64UrlDecode text with
          | none => fails "bad remote payload" l
          | some encRemote =>
            match Crypto.decrypt plat.prim dev.masterKey encRemote (lit "file") with
            | .threw => threw l
            | .rejected => fails "cannot decrypt remote version" l
            | .plain remoteText =>
              let localText := (readFileBytes plat.win l.disk absPath io.opens).getD []
              let baseText := (readShadow plat l relPath io.shadowOpens).getD []
              let result := Merge.merge baseText localText remoteText
              if result.clean then
                uploadMerged plat dev l relPath absPath serverCurrent fileId localText result.merged rnd io
              else keepBoth plat dev l relPath absPath serverCurrent fileId localText io

/-- The row after an accepted upload. -/
def storedRow (relPath : Str) (st : Option LocalFileState) (payload : Payload) (plainHash : Str) (version : Int)
    (vv : VersionVector) : LocalFileState :=
  ⟨payload.fileId,(st.map (·.syncRoot)).getD [],relPath,plainHash,plainHash,version,vv,false,0⟩

/-- `uploadFile` once the answer of the server is there. -/
def finishUpload (l : Local) (relPath : Str) (absPath : WStr) (plaintext : Bytes) (payload : Payload)
    (io : UploadIo) (r : ApiResponse) : Exchange :=
  let l := {l with online := r.transportOk}
  if !r.transportOk then fails "offline" l
  else if r.status = 200 ∨ r.status = 201 then
    match r.body.valueInt (lit "version") 1,sentVector payload with
    | some version,some vv =>
      let row := storedRow relPath (l.db.getFile relPath) payload (Crypto.sha256Hex plat.prim plaintext) version vv
      .done (.stored,writeShadow plat {l with db := l.db.upsertFile row} relPath plaintext io.shadow)
    | _,_ => threw l
  else if r.status = 409 then
    match r.body.value (lit "current") (.obj []) with
    | none => threw l
    | some current => handleConflict plat dev l relPath absPath current io.mergeRnd io.merge
  else refused r "upload failed" l

def uploadCall (baseVersion : Int) (payload : Payload) : ApiCall :=
  if baseVersion = 0 then .createFile payload else .updateFile payload.fileId payload

def uploadFile (l : Local) (relPath : Str) (absPath : WStr) (io : UploadIo) : Exchange :=
  if !hasMasterKey dev then fails "encryption not set up" l
  else match readFileBytes plat.win l.disk absPath io.opens with
    | none => fails "cannot read file" l
    | some plaintext =>
      if dev.maxFileBytes < plaintext.length then fails "file exceeds max size" l
      else
        let plainHash := Crypto.sha256Hex plat.prim plaintext
        let st := l.db.getFile relPath
        if st.any (fun st => st.localHash = plainHash && st.remoteHash = plainHash) then .done (.skipped,l)
        else
          let baseVersion := (st.map (·.remoteVersion)).getD 0
          let vv := (st.map (·.versionVector)).getD .empty
          match buildFilePayload plat dev l.db relPath plaintext baseVersion vv io.rnd with
          | none => threw l
          | some payload => .call (uploadCall baseVersion payload)
              (finishUpload plat dev l relPath absPath plaintext payload io)

/-- `deleteRemote`; a file the server never knew only loses its row. -/
def deleteRemote (l : Local) (relPath : Str) : Exchange :=
  let removed : Exchange := .done (.applied,{l with db := l.db.removeFile relPath})
  match l.db.getFile relPath with
  | none => removed
  | some st =>
    if st.fileId = [] then removed
    else .call (.deleteFile st.fileId) fun r =>
      let l := {l with online := r.transportOk}
      if !r.transportOk then fails "offline" l
      else if r.status = 200 ∨ r.status = 404 then .done (.applied,{l with db := l.db.removeFile relPath})
      else refused r "delete failed" l

end

/-- The plaintext of an answered record, as `handleConflict` takes it. -/
def fetchedText (plat : Platform) (dev : Device) (full : ApiResponse) : Option Bytes :=
  match full.body.valueStr (lit "encrypted_content") [] with
  | none => none
  | some text =>
    match Base64.base64UrlDecode text with
    | none => none
    | some encRemote =>
      match Crypto.decrypt plat.prim dev.masterKey encRemote (lit "file") with
      | .plain remoteText => some remoteText
      | .threw | .rejected => none

end NPSync.Engine
