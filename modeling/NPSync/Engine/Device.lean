import Mathlib.Data.List.Sort
import NPSync.Crypto
import NPSync.Json
import NPSync.IgnoreRules
import NPSync.LocalDb

/-! The state a device's `SyncEngine` works on: its settings, its database, the
disk, and the shadow and backup copies of the plugin's own data directory. Path
mapping and file I/O of `SyncEngine.cpp`. The file system is case-insensitive,
so the disk is keyed by the lower-cased path; what the operating system makes of
an I/O call is an argument of the operation. -/
namespace NPSync.Engine
open Library

/-- What the plugin takes from its platform. `parse` is `json::parse`; `none` throws. -/
structure Platform where
  prim : Primitives
  win : Windows
  parse : Str → Option Json

structure Device where
  masterKey : Bytes
  deviceId : Str
  deviceName : Str
  maxFileBytes : Int
  rootRules : List (Str × IgnoreRules)

/-- `journal` lists the paths whose file was overwritten or deleted. -/
structure Disk where
  files : Table WStr Bytes
  journal : List WStr

structure Local where
  db : LocalDb
  disk : Disk
  shadows : Table Str Bytes
  backups : List (WStr × Bytes)
  online : Bool

def hasMasterKey (dev : Device) : Bool := dev.masterKey.length = kMasterKeyLen

def ignored (dev : Device) (relPath : Str) (isDir : Bool) : Bool :=
  dev.rootRules.any (fun rules => rules.2.ignored relPath isDir)

/-- How one `writeFileAtomic` ends: the temporary file could not be opened, it
was given up and removed or left behind, or it replaced the target. -/
inductive WriteFate where
  | notOpened
  | abandoned (leftover : Option Bytes)
  | replaced
  deriving DecidableEq

section
variable (win : Windows)

/-- The source throws where the root's text is longer than the path; there is no key then. -/
def locateInRoot (root : Str × WStr) (absPath : WStr) : Option (Str × WStr) :=
  let rel := (absPath.drop root.2.length).dropWhile PathUtil.separator
  match PathUtil.normalizeRelative (PathUtil.wideToUtf8 win rel) with
  | some norm => some (root.1 ++ lit ":" ++ norm,root.2)
  | none => none

def locateInRoots (db : LocalDb) (absPath : WStr) : Option (Str × WStr) :=
  match (db.listSyncRoots win).find? (fun root => PathUtil.isInsideRoot win root.2 absPath) with
  | some root => locateInRoot win root absPath
  | none =>
    match (db.listSyncFiles win).find? (fun f => f.2.map win.towlower = absPath.map win.towlower) with
    | some f => some (lit "file:" ++ PathUtil.wideToUtf8 win (PathUtil.fileNameOf f.2),PathUtil.dirOf f.2)
    | none => none

/-- The part of a key before its first colon, and the rest; `none` without one. -/
def splitKey (relPath : Str) : Option (Str × Str) :=
  if relPath.contains 58 then some (relPath.takeWhile (· ≠ 58),(relPath.dropWhile (· ≠ 58)).tail) else none

def absPathForRel (db : LocalDb) (relPath : Str) : Option WStr :=
  match splitKey relPath with
  | none => none
  | some (rootId,rel) =>
    match (db.listSyncRoots win).find? (fun root => root.1 = rootId) with
    | some root => PathUtil.joinInsideRoot win root.2 rel
    | none =>
      ((db.listSyncFiles win).find? (fun f =>
        rootId = lit "file" && PathUtil.wideToUtf8 win (PathUtil.fileNameOf f.2) = rel)).map Prod.snd

namespace Disk

def read (disk : Disk) (absPath : WStr) : Option Bytes := disk.files.get (PathUtil.wlower win absPath)

def write (disk : Disk) (absPath : WStr) (data : Bytes) : Disk :=
  ⟨disk.files.upsert (PathUtil.wlower win absPath) data,disk.journal ++ [PathUtil.wlower win absPath]⟩

def delete (disk : Disk) (absPath : WStr) : Disk :=
  ⟨disk.files.remove (PathUtil.wlower win absPath),disk.journal ++ [PathUtil.wlower win absPath]⟩

end Disk

/-- `readFileBytes`; the file may exist and still not open. -/
def readFileBytes (disk : Disk) (absPath : WStr) (opens : Bool) : Option Bytes :=
  if opens then disk.read win absPath else none

def tmpPath (absPath : WStr) : WStr := absPath ++ wlit ".npsync-tmp"

def writeFileAtomic (disk : Disk) (absPath : WStr) (data : Bytes) : WriteFate → Bool × Disk
  | .notOpened => (false,disk)
  | .abandoned none => (false,disk.delete win (tmpPath absPath))
  | .abandoned (some leftover) => (false,disk.write win (tmpPath absPath) leftover)
  | .replaced => (true,(disk.delete win (tmpPath absPath)).write win absPath data)

@[simp] theorem wlower_length (s : WStr) : (PathUtil.wlower win s).length = s.length := by
  simp [PathUtil.wlower,PathUtil.backslashed]

theorem wlower_append (s t : WStr) : PathUtil.wlower win (s ++ t) = PathUtil.wlower win s ++ PathUtil.wlower win t := by
  simp [PathUtil.wlower,PathUtil.backslashed]

/-- A longer path is another file. -/
theorem wlower_ne_of_length (a b : WStr) (longer : a.length < b.length) :
    PathUtil.wlower win b ≠ PathUtil.wlower win a := by
  intro same
  have lengths := congrArg List.length same
  simp only [wlower_length] at lengths
  omega

theorem tmpPath_ne (absPath : WStr) :
    PathUtil.wlower win (tmpPath absPath) ≠ PathUtil.wlower win absPath :=
  wlower_ne_of_length win absPath (tmpPath absPath) (by simp [tmpPath,wlit])

/-- The paths that one atomic write adds to the journal. -/
def writtenPaths (absPath : WStr) : WriteFate → List WStr
  | .notOpened => []
  | .abandoned _ => [PathUtil.wlower win (tmpPath absPath)]
  | .replaced => [PathUtil.wlower win (tmpPath absPath),PathUtil.wlower win absPath]

theorem writeFileAtomic_journal (disk : Disk) (absPath : WStr) (data : Bytes) (fate : WriteFate) :
    (writeFileAtomic win disk absPath data fate).2.journal = disk.journal ++ writtenPaths win absPath fate := by
  cases fate with
  | notOpened => simp [writeFileAtomic,writtenPaths]
  | abandoned leftover => cases leftover <;> rfl
  | replaced => simp [writeFileAtomic,writtenPaths,Disk.delete,Disk.write]

@[simp] theorem writeFileAtomic_written (disk : Disk) (absPath : WStr) (data : Bytes) (fate : WriteFate) :
    (writeFileAtomic win disk absPath data fate).1 = decide (fate = .replaced) := by
  cases fate with
  | abandoned leftover => cases leftover <;> simp [writeFileAtomic]
  | _ => simp [writeFileAtomic]

/-- An atomic write leaves every path it does not journal as it was. -/
theorem writeFileAtomic_other (disk : Disk) (absPath : WStr) (data : Bytes) (fate : WriteFate) (path : WStr)
    (different : path ∉ writtenPaths win absPath fate) :
    (writeFileAtomic win disk absPath data fate).2.files.get path = disk.files.get path := by
  cases fate with
  | notOpened => rfl
  | abandoned leftover =>
    have other : path ≠ PathUtil.wlower win (tmpPath absPath) := by simpa [writtenPaths] using different
    cases leftover with
    | none => exact Table.get_remove_other _ _ _ other
    | some bytes => exact Table.get_upsert_other _ _ _ _ other
  | replaced =>
    have others : path ≠ PathUtil.wlower win (tmpPath absPath) ∧ path ≠ PathUtil.wlower win absPath := by
      simpa [writtenPaths] using different
    exact (Table.get_upsert_other _ _ _ _ others.2).trans (Table.get_remove_other _ _ _ others.1)

theorem read_writeFileAtomic (disk : Disk) (path : WStr) (data : Bytes) (fate : WriteFate) :
    (writeFileAtomic win disk path data fate).2.read win path =
      if fate = .replaced then some data else disk.read win path := by
  have apart := (tmpPath_ne win path).symm
  cases fate with
  | notOpened => rfl
  | abandoned leftover =>
    cases leftover with
    | none => exact Table.get_remove_other _ _ _ apart
    | some bytes => exact Table.get_upsert_other _ _ _ _ apart
  | replaced => exact Table.get_upsert_same _ _ _

def kMaxBackupsPerFile : Nat := 5

def wdecimal (n : Nat) : WStr := (decimalNat n).map (fun c => UInt16.ofNat c.toNat)

/-- `name.*.bak`, without regard to case. -/
def isBackupOf (name file : WStr) : Bool :=
  let pattern := PathUtil.wlower win name ++ wlit "."
  let file := PathUtil.wlower win file
  pattern.isPrefixOf file && (wlit ".bak").isSuffixOf (file.drop pattern.length)

/-- The clock, and whether `CopyFileW` can read the source. -/
structure BackupIo where
  time : Nat
  copies : Bool

def backupReplaced (l : Local) (absPath : WStr) (io : BackupIo) : Local :=
  let name := PathUtil.fileNameOf absPath
  let dst := name ++ wlit "." ++ wdecimal io.time ++ wlit ".bak"
  let taken := l.backups.any (fun old => PathUtil.wlower win old.1 = PathUtil.wlower win dst)
  let backups := match readFileBytes win l.disk absPath io.copies with
    | some data => if taken then l.backups else l.backups ++ [(dst,data)]
    | none => l.backups
  let found := ((backups.map Prod.fst).filter (isBackupOf win name)).insertionSort (fun a b => ¬b < a)
  let old := found.take (found.length - kMaxBackupsPerFile)
  {l with backups := backups.filter (fun backup => !old.contains backup.1)}

end

section
variable (plat : Platform)

def writeShadow (l : Local) (relKey : Str) (content : Bytes) : WriteFate → Local
  | .replaced => {l with shadows := l.shadows.upsert (Crypto.sha256Hex plat.prim relKey) content}
  | _ => l

def readShadow (l : Local) (relKey : Str) (opens : Bool) : Option Bytes :=
  if opens then l.shadows.get (Crypto.sha256Hex plat.prim relKey) else none

end

/-- `ApiResponse`; `transportError` and the raw body are not read by the engine. -/
structure ApiResponse where
  transportOk : Bool
  status : Int
  body : Json

/-- How an operation of the engine ends: by an exception, with false and its
`errorOut`, or with true for one of the reasons listed. -/
inductive Outcome where
  | threw
  | failed (error : Str)
  | skipped
  | stored
  | merged
  | conflictRecorded
  | applied
  deriving DecidableEq

/-- The operation returned true. -/
def Outcome.succeeded : Outcome → Bool
  | .threw | .failed _ => false
  | _ => true

end NPSync.Engine
