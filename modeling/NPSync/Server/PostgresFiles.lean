import NPSync.Server.PostgresAuth
import NPSync.Server.PostgresFeed

/-! The rest of `store/postgres.go`: files, versions, the feed, idempotent responses
and sessions, each method as one operation on the tables. A number that `nextval`
gives is not given back. A violated constraint that the method does not map is an
internal error. -/
namespace NPSync.Server

structure Session where
  accountID : Str
  encryptedState : Bytes
  version : Int
  originDeviceID : Str
  deriving DecidableEq

namespace Postgres
open Library

/-- What the methods rely on in the database server: the text that a `JSONB` column
gives back for one it takes, the order in which a `DELETE` returns its rows, and the
order of rows that an `ORDER BY` leaves open. -/
structure PgLibrary where
  jsonb : Bytes → Option Bytes
  returning : List Str → List Str
  scanned : List DeviceRecord → List DeviceRecord

structure Store where
  auth : AuthDb
  nextval : Nat
  files : Table (Str × Str) FileRecord
  versions : List VersionRecord
  changes : List Change
  idempotent : Table (Str × Str) Bytes
  sessions : Table Str Session

namespace Store

def empty : Store := ⟨.empty,1,.empty,[],[],.empty,.empty⟩

variable (lib : PgLibrary) (p : Store)

/-- The row a foreign key to `accounts` needs. -/
def known (accountID : Str) : Bool := (p.auth.accounts.get accountID).isSome

/-! ### Files -/

/-- `ORDER BY file_id`. -/
def listFiles (accountID : Str) : List FileRecord :=
  ((p.files.rows.map Prod.snd).filter (fun f => decide (f.accountID = accountID))).insertionSort Mem.FileOrder

def getFile (accountID fileID : Str) : Except AuthError FileRecord :=
  AuthDb.selected id (p.files.get (accountID,fileID))

def versionRows (accountID fileID : Str) : List VersionRecord :=
  p.versions.filter (fun v => decide (v.accountID = accountID ∧ v.fileID = fileID))

def draw : Store := {p with nextval := p.nextval + 1}

/-- The head, `insertVersionRow` and `insertChangeRow` of one transaction; the head
and the feed row each draw a number. -/
def write (rec : FileRecord) (version : Nat) : Except AuthError FileRecord × Store :=
  let head := {rec with version := version,changeSeq := p.nextval}
  if (p.versionRows rec.accountID rec.fileID).any (fun v => decide (v.version = version)) then (.error .internal,p.draw)
  else (.ok head,{p with
    nextval := p.nextval + 2
    files := p.files.upsert (rec.accountID,rec.fileID) head
    versions := p.versions ++ [Mem.versionFromRecord head]
    changes := p.changes ++ [{Mem.changeOf head with changeSeq := p.nextval + 1}]})

def createFile (rec : FileRecord) : Except AuthError FileRecord × Store :=
  match p.files.get (rec.accountID,rec.fileID) with
  | some _ => (.error .duplicate,p.draw)
  | none => if p.known rec.accountID then p.write rec 1 else (.error .internal,p.draw)

/-- When no row has the version, `GetFile` tells why. -/
def updateFile (rec : FileRecord) (baseVersion : Int) : Except AuthError FileRecord × Store :=
  match p.files.get (rec.accountID,rec.fileID) with
  | none => (.error .notFound,p)
  | some cur => if (cur.version : Int) = baseVersion then p.write rec (cur.version + 1) else (.error .conflict,p)

/-! ### Versions and the feed -/

def Newer (a b : VersionRecord) : Prop := b.version ≤ a.version

instance : DecidableRel Newer := fun a b => inferInstanceAs (Decidable (b.version ≤ a.version))

/-- `ORDER BY version DESC`. -/
def newestFirst (accountID fileID : Str) : List VersionRecord := (p.versionRows accountID fileID).insertionSort Newer

/-- A negative `LIMIT` is an error. -/
def listVersions (accountID fileID : Str) (limit : Int) : Except AuthError (List VersionRecord) :=
  if limit < 0 then .error .internal else .ok ((p.newestFirst accountID fileID).take limit.toNat)

def getVersion (accountID fileID : Str) (version : Int) : Except AuthError VersionRecord :=
  AuthDb.selected id ((p.versionRows accountID fileID).find? (fun v => decide ((v.version : Int) = version)))

/-- No row of the file still has the key. -/
def unreferenced (accountID fileID key : Str) : Bool :=
  !((p.files.get (accountID,fileID)).any (fun f => decide (f.blobKey = key)) ||
    (p.versionRows accountID fileID).any (fun v => decide (v.blobKey = key)))

def pruneVersions (accountID fileID : Str) (keep : Int) : Except AuthError (List Str) × Store :=
  if keep < 0 then (.error .internal,p)
  else
    let doomed := (p.newestFirst accountID fileID).drop keep.toNat
    let after := {p with versions := p.versions.filter (fun v =>
      !decide (v.accountID = accountID ∧ v.fileID = fileID ∧ v.version ∈ doomed.map (·.version)))}
    (.ok ((lib.returning (doomed.map (·.blobKey))).filter (after.unreferenced accountID fileID)),after)

def feed (accountID : Str) (since : Nat) (limit : Int) : Except AuthError (List Change) :=
  if limit < 0 then .error .internal else .ok (listChangesSince p.changes accountID since limit.toNat)

/-! ### Idempotent responses and sessions -/

def getIdempotentResponse (accountID key : Str) : Option Bytes := p.idempotent.get (accountID,key)

/-- A stored response stays. -/
def saveIdempotentResponse (accountID key : Str) (response : Bytes) : Except AuthError Unit × Store :=
  match lib.jsonb response with
  | none => (.error .internal,p)
  | some stored =>
    if !p.known accountID then (.error .internal,p)
    else if (p.idempotent.get (accountID,key)).isSome then (.ok (),p)
    else (.ok (),{p with idempotent := p.idempotent.upsert (accountID,key) stored})

def getSession (accountID : Str) : Except AuthError Session := AuthDb.selected id (p.sessions.get accountID)

def putSession (s : Session) : Except AuthError Unit × Store :=
  if p.known s.accountID then (.ok (),{p with sessions := p.sessions.upsert s.accountID s}) else (.error .internal,p)

/-! ### The same writes statement by statement -/

/-- The tables as the transactions see them, with none open. -/
def tables : Db := ⟨p.nextval,p.files,p.versions,p.changes,[],[],[]⟩

/-- A write with nothing between its statements. -/
def script (rec : FileRecord) (base : Option Int) : List Action :=
  [.begin rec base,.writeHead 0,.writeVersion 0,.writeChange 0,.commit 0]

/-- The constraints of the two inserts after the head. -/
def Unobstructed (rec : FileRecord) (version : Nat) : Prop :=
  (p.versionRows rec.accountID rec.fileID).any (fun v => decide (v.version = version)) = false

theorem write_tables (rec : FileRecord) (version : Nat) (free : p.Unobstructed rec version) :
    (p.write rec version).2.tables =
      {p.tables with
        nextval := p.nextval + 2
        files := p.files.upsert (rec.accountID,rec.fileID) {rec with version := version,changeSeq := p.nextval}
        versions := p.versions ++ [Mem.versionFromRecord {rec with version := version}]
        changes := p.changes ++ [⟨p.nextval + 1,rec.accountID,rec.fileID,version,Mem.kindOf rec.deleted,rec.originDeviceID⟩]} := by
  unfold write
  dsimp only
  rw [free]
  rfl

theorem createFile_serial (rec : FileRecord) (known : p.known rec.accountID = true) (free : p.Unobstructed rec 1) :
    run step p.tables (script rec none) = (p.createFile rec).2.tables := by
  unfold createFile
  cases found : p.files.get (rec.accountID,rec.fileID) with
  | some cur => simp [script,tables,run,step,onTx,Db.writeHead,Db.locked,Db.draw,Db.endTx,draw,found]
  | none =>
    dsimp only
    rw [if_pos known,write_tables p rec 1 free]
    simp [script,tables,run,step,onTx,Db.writeHead,Db.locked,Db.draw,Db.replaceTx,Db.endTx,Db.writeVersion,
      Db.writeChange,Db.changeRow,Db.commit,Mem.versionFromRecord,found]

theorem updateFile_serial (rec : FileRecord) (base : Int)
    (free : ∀ cur, p.files.get (rec.accountID,rec.fileID) = some cur → p.Unobstructed rec (cur.version + 1)) :
    run step p.tables (script rec (some base)) = (p.updateFile rec base).2.tables := by
  unfold updateFile
  cases found : p.files.get (rec.accountID,rec.fileID) with
  | none => simp [script,tables,run,step,onTx,Db.writeHead,Db.locked,Db.endTx,found]
  | some cur =>
    dsimp only
    by_cases matching : (cur.version : Int) = base
    · rw [if_pos matching,write_tables p rec _ (free cur found)]
      simp [script,tables,run,step,onTx,Db.writeHead,Db.locked,Db.draw,Db.replaceTx,Db.endTx,Db.writeVersion,
        Db.writeChange,Db.changeRow,Db.commit,Mem.versionFromRecord,found,matching]
    · rw [if_neg matching]
      simp [script,tables,run,step,onTx,Db.writeHead,Db.locked,Db.endTx,found,matching]

end Store
end Postgres
end NPSync.Server
