import NPSync.Library.Table
import NPSync.PathUtil
import NPSync.VersionVector

/-! `LocalDb.cpp`: the plugin's SQLite tables. A table keeps its rows in the order
of first insertion, as a scan by rowid returns them; texts have no NUL. -/
namespace NPSync
open Library

structure LocalFileState where
  fileId : Str
  syncRoot : Str
  relPath : Str
  localHash : Str
  remoteHash : Str
  remoteVersion : Int
  versionVector : VersionVector
  deleted : Bool
  modifiedAtLocal : Int

/-- `LocalFileState{}`. -/
def LocalFileState.fresh : LocalFileState := ⟨[],[],[],[],[],0,.empty,false,0⟩

/-- The columns of `files` beside its key; the vector is stored as text. -/
structure FileRow where
  fileId : Str
  syncRoot : Str
  localHash : Str
  remoteHash : Str
  remoteVersion : Int
  versionVector : Str
  deleted : Bool
  modifiedLocal : Int
  deriving DecidableEq

inductive OpKind where
  | upload
  | delete
  | rename
  deriving DecidableEq

structure PendingOp where
  id : Nat
  kind : OpKind
  relPath : Str
  newRelPath : Str
  queuedAt : Int
  retryCount : Nat
  lastError : Str
  deriving DecidableEq

structure ConflictState where
  fileId : Str
  relPath : Str
  remoteVersion : Int
  localCopyPath : Str
  remoteBlobHash : Str
  detectedAt : Int
  deriving DecidableEq

/-- A row of `sync_roots`: the UTF-8 path and `is_folder`. -/
structure SyncRoot where
  absPath : Str
  isFolder : Bool

structure LocalDb where
  syncRoots : Table Str SyncRoot
  files : Table Str FileRow
  pendingOps : List PendingOp
  nextOpId : Nat
  conflicts : Table Str ConflictState
  lastChangeSeq : Int

namespace LocalDb

def empty : LocalDb := ⟨.empty,.empty,[],1,.empty,0⟩

section
variable (win : Windows) (db : LocalDb)

def addSyncRoot (id : Str) (absPath : WStr) (isFolder : Bool) : LocalDb :=
  let kept := match db.syncRoots.get id with
    | some root => root.isFolder
    | none => isFolder
  {db with syncRoots := db.syncRoots.upsert id ⟨PathUtil.wideToUtf8 win absPath,kept⟩}

def rootsWhere (isFolder : Bool) : List (Str × WStr) :=
  (db.syncRoots.rows.filter (fun row => row.2.isFolder = isFolder)).map
    (fun row => (row.1,PathUtil.utf8ToWide win row.2.absPath))

def listSyncRoots : List (Str × WStr) := rootsWhere win db true

def listSyncFiles : List (Str × WStr) := rootsWhere win db false

end

section
variable (db : LocalDb)

def toRow (f : LocalFileState) : FileRow :=
  ⟨f.fileId,f.syncRoot,f.localHash,f.remoteHash,f.remoteVersion,f.versionVector.toJson,f.deleted,
    f.modifiedAtLocal⟩

def ofRow (relPath : Str) (row : FileRow) : LocalFileState :=
  ⟨row.fileId,row.syncRoot,relPath,row.localHash,row.remoteHash,row.remoteVersion,
    VersionVector.fromJson row.versionVector,row.deleted,row.modifiedLocal⟩

def upsertFile (f : LocalFileState) : LocalDb := {db with files := db.files.upsert f.relPath (toRow f)}

def getFile (relPath : Str) : Option LocalFileState := (db.files.get relPath).map (ofRow relPath)

def allFiles : List LocalFileState := db.files.rows.map (fun row => ofRow row.1 row.2)

def removeFile (relPath : Str) : LocalDb := {db with files := db.files.remove relPath}

/-- `enqueueOp`: an op of the same kind for the same path is replaced. -/
def enqueueOp (kind : OpKind) (relPath newRelPath : Str) (now : Int) : LocalDb :=
  {db with
    pendingOps := db.pendingOps.filter (fun op => !decide (op.relPath = relPath ∧ op.kind = kind)) ++
      [⟨db.nextOpId,kind,relPath,newRelPath,now,0,[]⟩]
    nextOpId := db.nextOpId + 1}

def removeOp (id : Nat) : LocalDb := {db with pendingOps := db.pendingOps.filter (fun op => !decide (op.id = id))}

def markOpFailed (id : Nat) (err : Str) : LocalDb :=
  {db with pendingOps := db.pendingOps.map (fun op =>
    if op.id = id then {op with retryCount := op.retryCount + 1,lastError := err} else op)}

/-- `addConflict`; a second conflict of a file keeps the path of the first. -/
def addConflict (c : ConflictState) : LocalDb :=
  let relPath := match db.conflicts.get c.fileId with
    | some old => old.relPath
    | none => c.relPath
  {db with conflicts := db.conflicts.upsert c.fileId {c with relPath := relPath}}

def resolveConflict (fileId : Str) : LocalDb := {db with conflicts := db.conflicts.remove fileId}

def setLastChangeSeq (seq : Int) : LocalDb := {db with lastChangeSeq := seq}

@[simp] theorem getFile_upsertFile_same (f : LocalFileState) :
    (db.upsertFile f).getFile f.relPath = some (ofRow f.relPath (toRow f)) := by
  simp [getFile,upsertFile]

theorem getFile_upsertFile_other (f : LocalFileState) (relPath : Str) (different : relPath ≠ f.relPath) :
    (db.upsertFile f).getFile relPath = db.getFile relPath := by
  simp [getFile,upsertFile,Table.get_upsert_other _ _ _ _ different]

end
end LocalDb
end NPSync
