import NPSync.Engine.Events

/-! `SyncEngine::resolveConflict`, and the operations of the engine as exchanges. -/
namespace NPSync.Engine
open Library

/-- What the operating system makes of the I/O calls of one `resolveConflict`,
with the local date as it is printed. -/
structure ResolveIo where
  opens : Bool
  moves : Bool
  date : Str
  backup : BackupIo
  write : WriteFate
  shadow : WriteFate
  rnd : Random

/-- `MoveFileExW` onto a path that may be taken. -/
def Disk.move (win : Windows) (disk : Disk) (source target : WStr) : Disk :=
  match disk.read win source with
  | some data => (disk.delete win source).write win target data
  | none => disk

section
variable (plat : Platform) (dev : Device)

/-- The name of the copy that `keepBoth` leaves beside the file. -/
def bothName (abs : WStr) (date : Str) : WStr :=
  let name := PathUtil.fileNameOf abs
  let parts := if name.contains 46 then ((name.rdropWhile (· ≠ 46)).dropLast,46::name.rtakeWhile (· ≠ 46)) else (name,[])
  PathUtil.dirOf abs ++ wlit "\\" ++ parts.1 ++ wlit " (conflict - " ++ PathUtil.utf8ToWide plat.win dev.deviceName ++
    wlit " - " ++ PathUtil.utf8ToWide plat.win date ++ wlit ")" ++ parts.2

/-- The row after a resolution; its file id stays. -/
def resolvedRow (f : LocalFileState) (text : Bytes) (version : Int) (vv : VersionVector) : LocalFileState :=
  let hash := Crypto.sha256Hex plat.prim text
  {f with localHash := hash,remoteHash := hash,remoteVersion := version,versionVector := vv}

def resolved (l : Local) (fileId : Str) : Exchange := .done (.applied,{l with db := l.db.resolveConflict fileId})

/-- The row and the shadow copy get the text, and the conflict is gone. -/
def settle (l : Local) (fileId : Str) (f : LocalFileState) (text : Bytes) (version : Int) (vv : VersionVector)
    (shadow : WriteFate) : Exchange :=
  resolved (writeShadow plat {l with db := l.db.upsertFile (resolvedRow plat f text version vv)} f.relPath text shadow) fileId

def keepLocal (l : Local) (fileId : Str) (target : ConflictState) (abs : WStr) (io : ResolveIo) : Exchange :=
  match readFileBytes plat.win l.disk (PathUtil.utf8ToWide plat.win target.localCopyPath) io.opens with
  | none => fails "local copy missing" l
  | some data =>
    let l := {l with disk := (writeFileAtomic plat.win l.disk abs data io.write).2}
    let st := l.db.getFile target.relPath
    let vv := (st.map (·.versionVector)).getD .empty
    match buildFilePayload plat dev l.db target.relPath data target.remoteVersion vv io.rnd with
    | none => threw l
    | some payload => .call (.updateFile fileId payload) fun r =>
      if r.status ≠ 200 then refused r "upload failed" l
      else match st with
        | none => resolved l fileId
        | some f =>
          match r.body.valueInt (lit "version") (target.remoteVersion + 1) with
          | none => threw l
          | some version => settle plat l fileId f data version f.versionVector io.shadow

/-- The plaintext of the fetched head. -/
def conflictText (full : ApiResponse) : Except Outcome Bytes := do
  let text ← orThrow (full.body.valueStr (lit "encrypted_content") [])
  let enc ← orFail "cannot decrypt remote" (Base64.base64UrlDecode text)
  opened "cannot decrypt remote" (Crypto.decrypt plat.prim dev.masterKey enc (lit "file"))

/-- The fetched text replaces the file. `keepRemote` takes over the version vector as well. -/
def installRemote (l : Local) (fileId : Str) (target : ConflictState) (abs : WStr) (full : ApiResponse) (plain : Bytes)
    (takesVector : Bool) (io : ResolveIo) : Exchange :=
  let l := backupReplaced plat.win l abs io.backup
  let out := writeFileAtomic plat.win l.disk abs plain io.write
  let l := {l with disk := out.2}
  if !out.1 then fails "write failed" l
  else match l.db.getFile target.relPath with
    | none => resolved l fileId
    | some f =>
      match full.body.valueInt (lit "version") target.remoteVersion with
      | none => threw l
      | some version =>
        if takesVector then
          match (full.body.value (lit "version_vector") (.obj [])).bind Json.dump with
          | none => threw l
          | some vector => settle plat l fileId f plain version (VersionVector.fromJson vector) io.shadow
        else settle plat l fileId f plain version f.versionVector io.shadow

def keepRemote (l : Local) (fileId : Str) (target : ConflictState) (abs : WStr) (io : ResolveIo) : Exchange :=
  .call (.getFile fileId) fun full =>
    if full.status ≠ 200 then fails "cannot fetch remote" l
    else match conflictText plat dev full with
      | .error outcome => .done (outcome,l)
      | .ok plain => installRemote plat l fileId target abs full plain true io

def keepBothCopies (l : Local) (fileId : Str) (target : ConflictState) (abs : WStr) (io : ResolveIo) : Exchange :=
  .call (.getFile fileId) fun full =>
    if full.status ≠ 200 then fails "cannot fetch remote" l
    else match conflictText plat dev full with
      | .error outcome => .done (outcome,l)
      | .ok plain =>
        let localCopy := PathUtil.utf8ToWide plat.win target.localCopyPath
        let disk := if io.moves then l.disk.move plat.win localCopy (bothName plat dev abs io.date) else l.disk
        installRemote plat {l with disk := disk} fileId target abs full plain false io

def resolveConflict (l : Local) (fileId strategy : Str) (io : ResolveIo) : Exchange :=
  match l.db.conflicts.get fileId with
  | none => fails "conflict not found" l
  | some target =>
    match absPathForRel plat.win l.db target.relPath with
    | none => fails "cannot map path" l
    | some abs =>
      if strategy = lit "keepLocal" then keepLocal plat dev l fileId target abs io
      else if strategy = lit "keepRemote" then keepRemote plat dev l fileId target abs io
      else if strategy = lit "keepBoth" then keepBothCopies plat dev l fileId target abs io
      else fails "unknown strategy" l

/-- The operations that change rows and shadow copies, and any change of the disk by the user. -/
inductive EngineOp where
  | upload (relPath : Str) (absPath : WStr) (io : UploadIo)
  | delete (relPath : Str)
  | apply (fileId : Str) (io : ApplyIo) (now : Int)
  | resolve (fileId strategy : Str) (io : ResolveIo)
  | opened (signedIn : Bool) (absPath : WStr)
  | edit (disk : Disk)

def EngineOp.exchange (l : Local) : EngineOp → Exchange
  | .upload relPath absPath io => uploadFile plat dev l relPath absPath io
  | .delete relPath => deleteRemote l relPath
  | .apply fileId io now => .call (.getFile fileId) fun r => .done (applyRemoteFile plat dev l fileId r io now)
  | .resolve fileId strategy io => resolveConflict plat dev l fileId strategy io
  | .opened signedIn absPath => .done (.skipped,{l with db := onFileOpened plat.win l.db signedIn absPath})
  | .edit disk => .done (.skipped,{l with disk := disk})

end
end NPSync.Engine
