import NPSync.Json
import NPSync.Server.PostgresFiles

/-! The calls of the `Store` interface on its two implementations, and what it means
that both answer alike. -/
namespace NPSync.Server
open Library

/-- The methods that the authentication handlers use, and the others. -/
inductive StoreCall where
  | auth (call : AuthCall)
  | listDevices (accountID : Str)
  | revokeRefreshToken (id : Str)
  | listFiles (accountID : Str)
  | getFile (accountID fileID : Str)
  | createFile (rec : FileRecord)
  | updateFile (rec : FileRecord) (baseVersion : Int)
  | listVersions (accountID fileID : Str) (limit : Int)
  | getVersion (accountID fileID : Str) (version : Int)
  | pruneVersions (accountID fileID : Str) (keep : Int)
  | listChangesSince (accountID : Str) (since : Nat) (limit : Int)
  | getIdempotentResponse (accountID key : Str)
  | saveIdempotentResponse (accountID key : Str) (response : Bytes)
  | getSession (accountID : Str)
  | putSession (s : Session)

@[reducible] def StoreCall.Result : StoreCall → Type
  | .auth call => call.Result
  | .listDevices _ => List DeviceRecord
  | .listFiles _ => List FileRecord
  | .getFile .. | .createFile _ | .updateFile .. => Except AuthError FileRecord
  | .listVersions .. => Except AuthError (List VersionRecord)
  | .getVersion .. => Except AuthError VersionRecord
  | .pruneVersions .. => Except AuthError (List Str)
  | .listChangesSince .. => Except AuthError (List Change)
  | .getIdempotentResponse .. => Option Bytes
  | .revokeRefreshToken _ | .saveIdempotentResponse .. | .putSession _ => Except AuthError Unit
  | .getSession _ => Except AuthError Session

/-- What a call gets from `uuidFn` and the clock. -/
structure StoreEnv where
  uuid : Str
  now : Nat

def StoreEnv.auth (env : StoreEnv) : AuthEnv := ⟨0,env.uuid,false,none,none⟩

/-- All maps of `Mem`. -/
structure MemStore where
  auth : AuthMem
  files : Mem Bytes
  sessions : Table Str Session

namespace MemStore

def empty : MemStore := ⟨.newMem,.newMem,.empty⟩

def fileError : StoreError → AuthError
  | .notFound => .notFound
  | .conflict => .conflict
  | .duplicate => .duplicate

def answer {X : Type} : Except StoreError X → Except AuthError X
  | .ok x => .ok x
  | .error err => .error (fileError err)

def getSession (m : MemStore) (accountID : Str) : Except AuthError Session :=
  match m.sessions.get accountID with
  | none => .error .notFound
  | some s => .ok s

/-- A negative `keep` is a slice out of bounds; a limit of zero or less on the feed is none. -/
def exec (env : StoreEnv) (m : MemStore) : (call : StoreCall) → call.Result × MemStore
  | .auth call =>
    let out := execAuth env.auth ⟨m.auth,env.now⟩ call
    (out.1,{m with auth := out.2.mem})
  | .listDevices accountID => (m.auth.listDevices accountID,m)
  | .revokeRefreshToken id => (.ok (),{m with auth := m.auth.revokeRefreshToken id env.now})
  | .listFiles accountID => (m.files.listFiles accountID,m)
  | .getFile accountID fileID => (answer (m.files.getFile accountID fileID),m)
  | .createFile rec => (answer (m.files.createFile rec).1,{m with files := (m.files.createFile rec).2})
  | .updateFile rec base => (answer (m.files.updateFile rec base).1,{m with files := (m.files.updateFile rec base).2})
  | .listVersions accountID fileID limit => (.ok (m.files.listVersions accountID fileID limit),m)
  | .getVersion accountID fileID version => (answer (m.files.getVersion accountID fileID version),m)
  | .pruneVersions accountID fileID keep =>
    if keep < 0 then (.error .internal,m)
    else
      let out := m.files.pruneVersions accountID fileID keep.toNat
      (.ok out.1,{m with files := out.2})
  | .listChangesSince accountID since limit => (.ok (m.files.listChangesSince accountID since limit.toNat),m)
  | .getIdempotentResponse accountID key => (m.files.getIdempotentResponse accountID key,m)
  | .saveIdempotentResponse accountID key response =>
    (.ok (),{m with files := m.files.saveIdempotentResponse accountID key response})
  | .getSession accountID => (m.getSession accountID,m)
  | .putSession s => (.ok (),{m with sessions := m.sessions.upsert s.accountID s})

end MemStore

/-- A caller passes the feed numbers that it was given, which `numbers` translates. -/
def Postgres.Store.exec (lib : Postgres.PgLibrary) (numbers : Nat → Nat) (env : StoreEnv) (p : Postgres.Store) :
    (call : StoreCall) → call.Result × Postgres.Store
  | .auth call =>
    let out := Postgres.execAuth env.auth ⟨p.auth,env.now⟩ call
    (out.1,{p with auth := out.2.db})
  | .listDevices accountID => (p.auth.listDevices lib.scanned accountID,p)
  | .revokeRefreshToken id => (.ok (),{p with auth := p.auth.revokeRefreshToken id env.now})
  | .listFiles accountID => (p.listFiles accountID,p)
  | .getFile accountID fileID => (p.getFile accountID fileID,p)
  | .createFile rec => p.createFile rec
  | .updateFile rec base => p.updateFile rec base
  | .listVersions accountID fileID limit => (p.listVersions accountID fileID limit,p)
  | .getVersion accountID fileID version => (p.getVersion accountID fileID version,p)
  | .pruneVersions accountID fileID keep => p.pruneVersions lib accountID fileID keep
  | .listChangesSince accountID since limit => (p.feed accountID (numbers since) limit,p)
  | .getIdempotentResponse accountID key => (p.getIdempotentResponse accountID key,p)
  | .saveIdempotentResponse accountID key response => p.saveIdempotentResponse lib accountID key response
  | .getSession accountID => (p.getSession accountID,p)
  | .putSession s => p.putSession s

/-! ### Equal answers -/

/-- The same error, or related values. -/
inductive Alike {X : Type} (related : X → X → Prop) : Except AuthError X → Except AuthError X → Prop
  | ok {a b : X} (same : related a b) : Alike related (.ok a) (.ok b)
  | error (err : AuthError) : Alike related (.error err) (.error err)

/-- Two answers for an account, up to the time it is locked until. -/
structure Undated (a b : Account) : Prop where
  id : a.id = b.id
  email : a.email = b.email
  passwordHash : a.passwordHash = b.passwordHash
  googleSub : a.googleSub = b.googleSub
  failedLoginAttempts : a.failedLoginAttempts = b.failedLoginAttempts
  locked : a.lockedUntil.isSome = b.lockedUntil.isSome

def AuthCall.Agrees : (call : AuthCall) → call.Result → call.Result → Prop
  | .createAccount .. | .createGoogleAccount .. | .accountByEmail .. | .accountByGoogleSub .. | .accountByID ..
  | .recordFailedLogin .. => Alike Undated
  | .linkGoogleSubject .. | .resetFailedLogins .. | .createOAuthLogin .. | .renameDevice .. | .revokeDevice ..
  | .touchDevice .. | .createPairingCode .. | .approvePairingCode .. | .consumePairingCode .. => Alike Eq
  | .oauthLoginByState .. | .claimOAuthLogin .. | .markOAuthReady .. | .markOAuthError .. | .consumeOAuthLogin ..
  | .reopenOAuthLogin .. => Alike Eq
  | .createDevice .. | .deviceByID .. | .deviceByIDGlobal .. => Alike Eq
  | .countActiveDevices .. => Alike Eq
  | .createRefreshToken .. | .refreshTokenByHash .. | .rotateRefreshToken .. => Alike Eq
  | .pairingCodeByCode .. => Alike Eq
  | .now => Eq
  | .exchangeGoogleCode .. => Eq
  | .verifyRS256IDToken .. => Eq

/-- Two records of a file. The number of the second lies above the feed number of the
write before and is renamed to that of its own write. -/
structure SameFile (numbers : Nat → Nat) (a b : FileRecord) : Prop where
  record : a = {b with changeSeq := a.changeSeq}
  above : numbers (a.changeSeq - 1) < b.changeSeq
  own : b.changeSeq ≤ numbers a.changeSeq

def StoreCall.Agrees (numbers : Nat → Nat) : (call : StoreCall) → call.Result → call.Result → Prop
  | .auth call => call.Agrees
  | .listDevices _ => Eq
  | .listFiles _ => List.Forall₂ (SameFile numbers)
  | .getFile .. | .createFile _ | .updateFile .. => Alike (SameFile numbers)
  | .listVersions .. => Alike Eq
  | .getVersion .. => Alike Eq
  | .pruneVersions .. => Alike List.Perm
  | .listChangesSince .. => Alike fun a b => b = a.map fun c => {c with changeSeq := numbers c.changeSeq}
  | .getIdempotentResponse .. => Eq
  | .revokeRefreshToken _ | .saveIdempotentResponse .. | .putSession _ => Alike Eq
  | .getSession _ => Alike Eq

/-- Both stores answer every call of the sequence alike. -/
def AnswerAlike (lib : Postgres.PgLibrary) (numbers : Nat → Nat) : MemStore → Postgres.Store → List (StoreEnv × StoreCall) → Prop
  | _,_,[] => True
  | m,p,(env,call)::rest =>
    call.Agrees numbers (m.exec env call).1 (p.exec lib numbers env call).1 ∧
      AnswerAlike lib numbers (m.exec env call).2 (p.exec lib numbers env call).2 rest

end NPSync.Server
