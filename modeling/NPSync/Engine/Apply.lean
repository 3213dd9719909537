import NPSync.Engine.Device

/-! `SyncEngine::applyRemoteFile`. The answer of `getFile` is an argument; the
function first decides what to do from the answer, the database and the bytes on
disk (`planRemote`) and then does it (`perform`). -/
namespace NPSync.Engine
open Library

def orThrow {A : Type} : Option A → Except Outcome A
  | some a => .ok a
  | none => .error .threw

def orFail {A : Type} (error : String) : Option A → Except Outcome A
  | some a => .ok a
  | none => .error (.failed (lit error))

def opened (error : String) : Opened → Except Outcome Bytes
  | .threw => .error .threw
  | .rejected => .error (.failed (lit error))
  | .plain text => .ok text

/-- The version, the tombstone flag and the normalized path of a fetched record. -/
structure RemoteRecord where
  version : Int
  deleted : Bool
  norm : Str
  deriving DecidableEq

/-- What the operating system makes of the I/O calls of one `applyRemoteFile`. -/
structure ApplyIo where
  opens : Bool
  deletes : Bool
  backup : BackupIo
  copyWrite : WriteFate
  write : WriteFate
  shadow : WriteFate

section
variable (plat : Platform) (dev : Device)

def remoteRecord (r : ApiResponse) : Except Outcome RemoteRecord := do
  if !r.transportOk then .error (.failed (lit "offline"))
  else if r.status ≠ 200 then .error (.failed (lit "fetch failed"))
  else
    let version ← orThrow (r.body.valueInt (lit "version") 0)
    let deleted ← orThrow (r.body.valueBool (lit "deleted") false)
    let text ← orThrow (r.body.valueStr (lit "encrypted_metadata") [])
    let encMeta ← orFail "cannot decrypt metadata" (Base64.base64UrlDecode text)
    let metaPlain ← opened "cannot decrypt metadata"
      (Crypto.decrypt plat.prim dev.masterKey encMeta (lit "metadata"))
    let metadata ← orFail "bad metadata" (plat.parse metaPlain)
    let relPath ← orThrow (metadata.valueStr (lit "relative_path") [])
    let norm ← orFail "remote path rejected" (PathUtil.normalizeRelative relPath)
    return ⟨version,deleted,norm⟩

/-- The plaintext of a live record and its `content_hash`. -/
def remoteContent (r : ApiResponse) : Except Outcome (Bytes × Str) := do
  let text ← orThrow (r.body.valueStr (lit "encrypted_content") [])
  let encContent ← orFail "bad content" (Base64.base64UrlDecode text)
  let contentHash ← orThrow (r.body.valueStr (lit "content_hash") [])
  if Crypto.sha256Hex plat.prim encContent ≠ contentHash then .error (.failed (lit "hash mismatch"))
  else
    let plain ← opened "decrypt failed" (Crypto.decrypt plat.prim dev.masterKey encContent (lit "file"))
    return (plain,contentHash)

/-- The first row whose key ends in the path after its first colon. -/
def rowBySuffix (db : LocalDb) (norm : Str) : Option Str :=
  (db.files.rows.map Prod.fst).find? (fun key => (splitKey key).map Prod.snd = some norm)

/-- The root a new remote file is placed in: the first that the path can be
joined to, else the first; an empty identifier counts as none. -/
def chosenRoot (win : Windows) (roots : List (Str × WStr)) (norm : Str) : Option Str :=
  match roots.find? (fun root => (PathUtil.joinInsideRoot win root.2 norm).isSome) with
  | some root => if root.1 = [] then roots.head?.map Prod.fst else some root.1
  | none => roots.head?.map Prod.fst

def localKeyFor (win : Windows) (db : LocalDb) (norm : Str) : Option Str :=
  match rowBySuffix db norm with
  | some key => some key
  | none => (chosenRoot win (db.listSyncRoots win) norm).map (fun id => id ++ lit ":" ++ norm)

/-- A record of this path and version is "already current" for the row its path finds. -/
def alreadyCurrent (win : Windows) (db : LocalDb) (norm : Str) (version : Int) : Bool :=
  match (localKeyFor win db norm).bind db.getFile with
  | some st => version ≤ st.remoteVersion
  | none => false

structure Target where
  key : Str
  abs : WStr
  st : Option LocalFileState
  version : Int

inductive Plan where
  | stop (outcome : Outcome)
  | remove (target : Target)
  | conflict (target : Target) (currentLocal : Bytes) (contentHash : Str)
  | replace (target : Target) (plain : Bytes)

/-- The mapped path of a record: key, absolute path and row; an ignored or
current record stops with true. -/
def remoteTarget (l : Local) (record : RemoteRecord) : Except Outcome Target := do
  let key ← orFail "no sync roots" (localKeyFor plat.win l.db record.norm)
  let abs ← orFail "path mapping failed" (absPathForRel plat.win l.db key)
  if ignored dev record.norm false then .error .skipped
  else match l.db.getFile key with
    | some st =>
      if record.version ≤ st.remoteVersion then .error .skipped
      else return ⟨key,abs,some st,record.version⟩
    | none => return ⟨key,abs,none,record.version⟩

/-- The bytes on disk are unsynchronised edits of a tracked file. -/
def edited (l : Local) (t : Target) (opens : Bool) : Option Bytes :=
  match readFileBytes plat.win l.disk t.abs opens,t.st with
  | some currentLocal,some st =>
    let curHash := Crypto.sha256Hex plat.prim currentLocal
    if st.localHash ≠ [] ∧ curHash ≠ st.localHash ∧ curHash ≠ st.remoteHash then some currentLocal else none
  | _,_ => none

def planRemote (l : Local) (r : ApiResponse) (opens : Bool) : Plan :=
  match remoteRecord plat dev r with
  | .error outcome => .stop outcome
  | .ok record =>
    match remoteTarget plat dev l record with
    | .error outcome => .stop outcome
    | .ok t =>
      if record.deleted then .remove t
      else match remoteContent plat dev r with
        | .error outcome => .stop outcome
        | .ok (plain,contentHash) =>
          match edited plat l t opens with
          | some currentLocal => .conflict t currentLocal contentHash
          | none => .replace t plain

def conflictCopyPath (abs : WStr) : WStr :=
  PathUtil.dirOf abs ++ wlit "\\" ++ PathUtil.fileNameOf abs ++ wlit " (conflict - local unsaved).bak"

def performRemove (l : Local) (t : Target) (io : ApplyIo) : Local :=
  let l := backupReplaced plat.win l t.abs io.backup
  let l := if io.deletes then {l with disk := l.disk.delete plat.win t.abs} else l
  match t.st with
  | some st => {l with db := l.db.upsertFile {st with deleted := true,remoteVersion := t.version}}
  | none => l

def performConflict (l : Local) (fileId : Str) (t : Target) (currentLocal : Bytes) (contentHash : Str)
    (io : ApplyIo) (now : Int) : Local :=
  let copy := conflictCopyPath t.abs
  {l with
    disk := (writeFileAtomic plat.win l.disk copy currentLocal io.copyWrite).2
    db := l.db.addConflict ⟨fileId,t.key,t.version,PathUtil.wideToUtf8 plat.win copy,contentHash,now⟩}

/-- The row of a file that was just replaced. -/
def appliedRow (fileId : Str) (t : Target) (plain : Bytes) (vector : Str) : LocalFileState :=
  let st := t.st.getD .fresh
  let hash := Crypto.sha256Hex plat.prim plain
  ⟨fileId,st.syncRoot,t.key,hash,hash,t.version,VersionVector.fromJson vector,false,st.modifiedAtLocal⟩

def performReplace (l : Local) (fileId : Str) (r : ApiResponse) (t : Target) (plain : Bytes) (io : ApplyIo) :
    Outcome × Local :=
  let l := if (l.disk.read plat.win t.abs).isSome then backupReplaced plat.win l t.abs io.backup else l
  let out := writeFileAtomic plat.win l.disk t.abs plain io.write
  let l := {l with disk := out.2}
  if !out.1 then (.failed (lit "write failed"),l)
  else match (r.body.value (lit "version_vector") (.obj [])).bind Json.dump with
    | none => (.threw,l)
    | some vector =>
      (.applied,writeShadow plat {l with db := l.db.upsertFile (appliedRow plat fileId t plain vector)}
        t.key plain io.shadow)

def perform (l : Local) (fileId : Str) (r : ApiResponse) (io : ApplyIo) (now : Int) : Plan → Outcome × Local
  | .stop outcome => (outcome,l)
  | .remove t => (.applied,performRemove plat l t io)
  | .conflict t currentLocal contentHash =>
    (.conflictRecorded,performConflict plat l fileId t currentLocal contentHash io now)
  | .replace t plain => performReplace plat l fileId r t plain io

def applyRemoteFile (l : Local) (fileId : Str) (r : ApiResponse) (io : ApplyIo) (now : Int) : Outcome × Local :=
  perform plat {l with online := r.transportOk} fileId r io now
    (planRemote plat dev {l with online := r.transportOk} r io.opens)

/-- What a plan can be, with everything that was checked on the way to it. -/
theorem planRemote_cases (l : Local) (r : ApiResponse) (opens : Bool) :
    (∃ outcome, planRemote plat dev l r opens = .stop outcome) ∨
    ∃ record t, remoteRecord plat dev r = .ok record ∧ remoteTarget plat dev l record = .ok t ∧
      ((record.deleted = true ∧ planRemote plat dev l r opens = .remove t) ∨
        ∃ plain contentHash, record.deleted = false ∧ remoteContent plat dev r = .ok (plain,contentHash) ∧
          ((∃ currentLocal, edited plat l t opens = some currentLocal ∧
              planRemote plat dev l r opens = .conflict t currentLocal contentHash) ∨
            edited plat l t opens = none ∧ planRemote plat dev l r opens = .replace t plain)) := by
  cases accepted : remoteRecord plat dev r with
  | error outcome => exact .inl ⟨outcome,by simp [planRemote,accepted]⟩
  | ok record =>
    cases found : remoteTarget plat dev l record with
    | error outcome => exact .inl ⟨outcome,by simp [planRemote,accepted,found]⟩
    | ok t =>
      cases dead : record.deleted with
      | true => exact .inr ⟨record,t,rfl,found,.inl ⟨dead,by simp [planRemote,accepted,found,dead]⟩⟩
      | false =>
        cases content : remoteContent plat dev r with
        | error outcome => exact .inl ⟨outcome,by simp [planRemote,accepted,found,dead,content]⟩
        | ok both =>
          refine .inr ⟨record,t,rfl,found,.inr ⟨both.1,both.2,dead,rfl,?_⟩⟩
          cases local_ : edited plat l t opens with
          | some currentLocal =>
            exact .inl ⟨currentLocal,rfl,by simp [planRemote,accepted,found,dead,content,local_]⟩
          | none => exact .inr ⟨rfl,by simp [planRemote,accepted,found,dead,content,local_]⟩

/-- The plan does not depend on `online`. -/
@[simp] theorem planRemote_online (l : Local) (online : Bool) (r : ApiResponse) (opens : Bool) :
    planRemote plat dev {l with online := online} r opens = planRemote plat dev l r opens := rfl

/-- The paths that performing a plan overwrites or deletes. -/
def touchedPaths (io : ApplyIo) : Plan → List WStr
  | .stop _ => []
  | .remove t => if io.deletes then [PathUtil.wlower plat.win t.abs] else []
  | .conflict t _ _ => writtenPaths plat.win (conflictCopyPath t.abs) io.copyWrite
  | .replace t _ => writtenPaths plat.win t.abs io.write

@[simp] theorem backupReplaced_db (win : Windows) (l : Local) (abs : WStr) (io : BackupIo) :
    (backupReplaced win l abs io).db = l.db := rfl

@[simp] theorem backupReplaced_disk (win : Windows) (l : Local) (abs : WStr) (io : BackupIo) :
    (backupReplaced win l abs io).disk = l.disk := rfl

@[simp] theorem writeShadow_db (l : Local) (key : Str) (content : Bytes) (fate : WriteFate) :
    (writeShadow plat l key content fate).db = l.db := by
  cases fate <;> rfl

@[simp] theorem writeShadow_disk (l : Local) (key : Str) (content : Bytes) (fate : WriteFate) :
    (writeShadow plat l key content fate).disk = l.disk := by
  cases fate <;> rfl

theorem performRemove_disk (l : Local) (t : Target) (io : ApplyIo) :
    (performRemove plat l t io).disk = if io.deletes then l.disk.delete plat.win t.abs else l.disk := by
  cases st : t.st <;> cases deletes : io.deletes <;> simp [performRemove,st,deletes]

theorem performReplace_disk (l : Local) (fileId : Str) (r : ApiResponse) (t : Target) (plain : Bytes)
    (io : ApplyIo) :
    (performReplace plat l fileId r t plain io).2.disk =
      (writeFileAtomic plat.win l.disk t.abs plain io.write).2 := by
  have kept : (if (l.disk.read plat.win t.abs).isSome then backupReplaced plat.win l t.abs io.backup else l).disk =
      l.disk := by
    split <;> rfl
  unfold performReplace
  simp only [kept]
  split
  · rfl
  · split
    · rfl
    · simp

theorem performRemove_db (l : Local) (t : Target) (io : ApplyIo) :
    (performRemove plat l t io).db = match t.st with
      | some st => l.db.upsertFile {st with deleted := true,remoteVersion := t.version}
      | none => l.db := by
  cases st : t.st <;> cases deletes : io.deletes <;> simp [performRemove,st,deletes]

/-- How a replacement ends, and what it makes of the database. -/
theorem performReplace_cases (l : Local) (fileId : Str) (r : ApiResponse) (t : Target) (plain : Bytes)
    (io : ApplyIo) :
    (performReplace plat l fileId r t plain io).2.db = l.db ∧
      (io.write ≠ .replaced ∧ (performReplace plat l fileId r t plain io).1 = .failed (lit "write failed") ∨
        io.write = .replaced ∧ (r.body.value (lit "version_vector") (.obj [])).bind Json.dump = none ∧
          (performReplace plat l fileId r t plain io).1 = .threw) ∨
    ∃ vector, io.write = .replaced ∧
      (r.body.value (lit "version_vector") (.obj [])).bind Json.dump = some vector ∧
      (performReplace plat l fileId r t plain io).1 = .applied ∧
      (performReplace plat l fileId r t plain io).2.db = l.db.upsertFile (appliedRow plat fileId t plain vector) := by
  have kept : (if (l.disk.read plat.win t.abs).isSome then backupReplaced plat.win l t.abs io.backup else l).db =
      l.db := by
    split <;> rfl
  unfold performReplace
  simp only [writeFileAtomic_written,kept]
  by_cases written : io.write = .replaced
  · cases dumped : (r.body.value (lit "version_vector") (.obj [])).bind Json.dump with
    | none => exact .inl ⟨by simp [written],.inr ⟨written,rfl,by simp [written]⟩⟩
    | some vector => exact .inr ⟨vector,written,rfl,by simp [written],by simp [written]⟩
  · exact .inl ⟨by simp [written],.inl ⟨written,by simp [written]⟩⟩

theorem perform_journal (l : Local) (fileId : Str) (r : ApiResponse) (io : ApplyIo) (now : Int) (plan : Plan) :
    (perform plat l fileId r io now plan).2.disk.journal = l.disk.journal ++ touchedPaths plat io plan := by
  cases plan with
  | stop outcome => simp [perform,touchedPaths]
  | remove t =>
    simp only [perform,performRemove_disk,touchedPaths]
    split
    · rfl
    · simp
  | conflict t currentLocal contentHash => exact writeFileAtomic_journal plat.win _ _ _ _
  | replace t plain =>
    simp only [perform,performReplace_disk,touchedPaths]
    exact writeFileAtomic_journal plat.win _ _ _ _

/-- Performing a plan leaves every other file as it was. -/
theorem perform_other (l : Local) (fileId : Str) (r : ApiResponse) (io : ApplyIo) (now : Int) (plan : Plan)
    (path : WStr) (different : path ∉ touchedPaths plat io plan) :
    (perform plat l fileId r io now plan).2.disk.files.get path = l.disk.files.get path := by
  cases plan with
  | stop outcome => rfl
  | remove t =>
    simp only [perform,performRemove_disk]
    split
    · rename_i deletes
      exact Table.get_remove_other _ _ _ (by simpa [touchedPaths,deletes] using different)
    · rfl
  | conflict t currentLocal contentHash => exact writeFileAtomic_other plat.win _ _ _ _ _ different
  | replace t plain =>
    simp only [perform,performReplace_disk]
    exact writeFileAtomic_other plat.win _ _ _ _ _ different

/-- The tables beside `files` and `conflicts` are as they were. -/
structure SameSetup (before after : LocalDb) : Prop where
  syncRoots : after.syncRoots = before.syncRoots
  pendingOps : after.pendingOps = before.pendingOps
  nextOpId : after.nextOpId = before.nextOpId
  lastChangeSeq : after.lastChangeSeq = before.lastChangeSeq

theorem applyRemoteFile_frame (l : Local) (fileId : Str) (r : ApiResponse) (io : ApplyIo) (now : Int) :
    SameSetup l.db (applyRemoteFile plat dev l fileId r io now).2.db := by
  simp only [applyRemoteFile,planRemote_online]
  cases planRemote plat dev l r io.opens with
  | stop outcome => exact ⟨rfl,rfl,rfl,rfl⟩
  | remove t =>
    simp only [perform,performRemove_db]
    cases t.st <;> exact ⟨rfl,rfl,rfl,rfl⟩
  | conflict t currentLocal hash => exact ⟨rfl,rfl,rfl,rfl⟩
  | replace t plain =>
    simp only [perform]
    rcases performReplace_cases plat {l with online := r.transportOk} fileId r t plain io with
      ⟨same,-⟩ | ⟨vector,-,-,-,row⟩
    · rw [same]
      exact ⟨rfl,rfl,rfl,rfl⟩
    · rw [row]
      exact ⟨rfl,rfl,rfl,rfl⟩

end
end NPSync.Engine
