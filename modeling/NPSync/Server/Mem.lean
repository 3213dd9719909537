import Mathlib.Data.List.Sort
import NPSync.Text
import NPSync.Library.Table

/-! `store/models.go` and the file part of `store/mem.go`. Every method holds
the mutex for its whole body, so each is one atomic function of the state. Go
maps are keyed tables. Version and sequence numbers are unbounded. -/
namespace NPSync.Server
open Library

/-- The sentinel errors the file methods return. -/
inductive StoreError where
  | notFound
  | conflict
  | duplicate
  deriving DecidableEq

inductive ChangeKind where
  | upsert
  | delete
  deriving DecidableEq

/-- `map[string]int`. -/
abbrev Vector := Table Str Int

structure FileRecord where
  accountID : Str
  fileID : Str
  encryptedMetadata : Bytes
  contentHash : Str
  version : Nat
  versionVector : Vector
  deleted : Bool
  size : Int
  blobKey : Str
  modifiedAt : Int
  originDeviceID : Str
  changeSeq : Nat

structure VersionRecord where
  accountID : Str
  fileID : Str
  version : Nat
  encryptedMetadata : Bytes
  contentHash : Str
  versionVector : Vector
  deleted : Bool
  size : Int
  blobKey : Str
  modifiedAt : Int
  originDeviceID : Str

structure Change where
  changeSeq : Nat
  accountID : Str
  fileID : Str
  version : Nat
  kind : ChangeKind
  originDeviceID : Str
  deriving DecidableEq

/-- `MergeVersionVector`. -/
def mergeVersionVector (a b : Vector) : Vector :=
  b.rows.foldl (fun out row => if (out.get row.1).getD 0 < row.2 then out.upsert row.1 row.2 else out) a

/-- The file maps of `Mem`. `R` is the stored idempotent response. -/
structure Mem (R : Type) where
  files : Table Str FileRecord
  versions : Table Str (List VersionRecord)
  changes : List Change
  nextSeq : Nat
  idempotent : Table Str R

namespace Mem
variable {R : Type}

def newMem : Mem R := ⟨.empty,.empty,[],1,.empty⟩

def fileKey (accountID fileID : Str) : Str := accountID ++ lit "/" ++ fileID

def versionFromRecord (f : FileRecord) : VersionRecord :=
  ⟨f.accountID,f.fileID,f.version,f.encryptedMetadata,f.contentHash,f.versionVector,f.deleted,f.size,
    f.blobKey,f.modifiedAt,f.originDeviceID⟩

def kindOf (deleted : Bool) : ChangeKind := if deleted then .delete else .upsert

def changeOf (f : FileRecord) : Change :=
  ⟨f.changeSeq,f.accountID,f.fileID,f.version,kindOf f.deleted,f.originDeviceID⟩

/-- The history of a key; a missing map entry is the empty slice. -/
def history (m : Mem R) (key : Str) : List VersionRecord := (m.versions.get key).getD []

def getFile (m : Mem R) (accountID fileID : Str) : Except StoreError FileRecord :=
  match m.files.get (fileKey accountID fileID) with
  | none => .error .notFound
  | some f => .ok f

/-- The writes `CreateFile` and `UpdateFile` share: a new head under the next
sequence number, its history entry and its feed row. -/
def commit (m : Mem R) (key : Str) (cp : FileRecord) : Mem R :=
  {m with
    nextSeq := m.nextSeq + 1
    files := m.files.upsert key cp
    versions := m.versions.upsert key (m.history key ++ [versionFromRecord cp])
    changes := m.changes ++ [changeOf cp]}

def createFile (m : Mem R) (rec : FileRecord) : Except StoreError FileRecord × Mem R :=
  let key := fileKey rec.accountID rec.fileID
  match m.files.get key with
  | some _ => (.error .duplicate,m)
  | none =>
    let cp := {rec with version := 1,changeSeq := m.nextSeq}
    (.ok cp,m.commit key cp)

def updateFile (m : Mem R) (rec : FileRecord) (baseVersion : Int) :
    Except StoreError FileRecord × Mem R :=
  let key := fileKey rec.accountID rec.fileID
  match m.files.get key with
  | none => (.error .notFound,m)
  | some cur =>
    if (cur.version : Int) ≠ baseVersion then (.error .conflict,m)
    else
      let cp := {rec with version := cur.version + 1,changeSeq := m.nextSeq}
      (.ok cp,m.commit key cp)

/-- By file id, as `sort.Slice` leaves it. -/
def FileOrder (a b : FileRecord) : Prop := a.fileID ≤ b.fileID

instance : DecidableRel FileOrder := fun a b => inferInstanceAs (Decidable (a.fileID ≤ b.fileID))

def listFiles (m : Mem R) (accountID : Str) : List FileRecord :=
  ((m.files.rows.map Prod.snd).filter (fun f => decide (f.accountID = accountID))).insertionSort FileOrder

/-- The newest entry first. -/
def listVersions (m : Mem R) (accountID fileID : Str) (limit : Int) : List VersionRecord :=
  (m.history (fileKey accountID fileID)).reverse.take limit.toNat

def getVersion (m : Mem R) (accountID fileID : Str) (version : Int) :
    Except StoreError VersionRecord :=
  match (m.history (fileKey accountID fileID)).find? (fun v => (v.version : Int) = version) with
  | some v => .ok v
  | none => .error .notFound

/-- The keys of dropped entries that neither the head nor a kept entry uses,
with repetitions as the loop appends them. -/
def prunedKeys (headBlob : Str) (drop kept : List VersionRecord) : List Str :=
  (drop.map (·.blobKey)).filter (fun key => !decide (key = headBlob ∨ key ∈ kept.map (·.blobKey)))

def pruneVersions (m : Mem R) (accountID fileID : Str) (keep : Nat) : List Str × Mem R :=
  let key := fileKey accountID fileID
  let vs := m.history key
  if vs.length ≤ keep then ([],m)
  else
    let headBlob := match m.files.get key with
      | some f => f.blobKey
      | none => []
    let drop := vs.take (vs.length - keep)
    let kept := vs.drop (vs.length - keep)
    (prunedKeys headBlob drop kept,{m with versions := m.versions.upsert key kept})

def listChangesSince (m : Mem R) (accountID : Str) (since limit : Nat) : List Change :=
  let out := m.changes.filter (fun c => decide (c.accountID = accountID ∧ since < c.changeSeq))
  if 0 < limit then out.take limit else out

def idemKey (accountID key : Str) : Str := accountID ++ lit "/" ++ key

def getIdempotentResponse (m : Mem R) (accountID key : Str) : Option R :=
  m.idempotent.get (idemKey accountID key)

def saveIdempotentResponse (m : Mem R) (accountID key : Str) (response : R) : Mem R :=
  {m with idempotent := m.idempotent.upsert (idemKey accountID key) response}

end Mem
end NPSync.Server
