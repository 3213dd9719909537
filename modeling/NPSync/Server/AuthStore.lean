import Mathlib.Data.List.Sort
import NPSync.Text
import NPSync.Library.Table

/-! The accounts, Google logins, devices, refresh tokens and pairing codes of
`store/mem.go`. Every method holds the mutex for its whole body. Times are
nanoseconds; a method that calls `time.Now` or `uuidFn` is given the value. -/
namespace NPSync.Server
open Library

/-- The sentinel errors of these methods; `internal` is any other failure of a store. -/
inductive AuthError where
  | notFound
  | emailTaken
  | conflict
  | pairingExpired
  | duplicate
  | internal
  deriving DecidableEq

inductive OAuthStatus where
  | pending
  | exchanging
  | ready
  | error
  | consumed
  deriving DecidableEq

structure Account where
  id : Str
  email : Str
  passwordHash : Str
  googleSub : Str
  failedLoginAttempts : Nat
  lockedUntil : Option Nat
  deriving DecidableEq

structure OAuthLogin where
  state : Str
  codeVerifier : Str
  nonce : Str
  deviceName : Str
  pollSecretHash : Str
  expiresAt : Nat
  status : OAuthStatus
  accountID : Str
  errorCode : Str
  errorMessage : Str
  deriving DecidableEq

structure DeviceRecord where
  id : Str
  accountID : Str
  name : Str
  createdAt : Nat
  lastSeenAt : Nat
  revokedAt : Option Nat
  deriving DecidableEq

/-- In the order of creation. -/
def DeviceRecord.Older (a b : DeviceRecord) : Prop := a.createdAt ≤ b.createdAt

instance : DecidableRel DeviceRecord.Older := fun a b => inferInstanceAs (Decidable (a.createdAt ≤ b.createdAt))

structure RefreshToken where
  id : Str
  deviceID : Str
  tokenHash : Str
  expiresAt : Nat
  revokedAt : Option Nat
  deriving DecidableEq

structure PairingCode where
  code : Str
  accountID : Str
  requestingDevice : Str
  wrappedMasterKey : Bytes
  approvingDevice : Option Str
  expiresAt : Nat
  consumedAt : Option Nat
  deriving DecidableEq

structure AuthMem where
  accounts : Table Str Account
  byEmail : Table Str Str
  byGoogle : Table Str Str
  oauth : Table Str OAuthLogin
  devices : Table Str DeviceRecord
  tokens : Table Str RefreshToken
  tokensByH : Table Str Str
  pairing : Table Str PairingCode

namespace AuthMem

def newMem : AuthMem := ⟨.empty,.empty,.empty,.empty,.empty,.empty,.empty,.empty⟩

variable (m : AuthMem)

/-! ### Accounts -/

def insertAccountLocked (email passwordHash googleSub id : Str) : Except AuthError Account × AuthMem :=
  match m.byEmail.get email with
  | some _ => (.error .emailTaken,m)
  | none =>
    let a : Account := ⟨id,email,passwordHash,googleSub,0,none⟩
    (.ok a,{m with
      accounts := m.accounts.upsert id a
      byEmail := m.byEmail.upsert email id
      byGoogle := if googleSub = [] then m.byGoogle else m.byGoogle.upsert googleSub id})

def createAccount (email passwordHash id : Str) : Except AuthError Account × AuthMem :=
  m.insertAccountLocked email passwordHash [] id

def createGoogleAccount (email googleSub id : Str) : Except AuthError Account × AuthMem :=
  if googleSub = [] then (.error .notFound,m)
  else match m.byGoogle.get googleSub with
    | some _ => (.error .duplicate,m)
    | none => m.insertAccountLocked email [] googleSub id

/-- The account an index names; an index without an account is a nil dereference. -/
def indexed (id : Option Str) : Except AuthError Account :=
  match id with
  | none => .error .notFound
  | some id =>
    match m.accounts.get id with
    | some a => .ok a
    | none => .error .internal

def accountByEmail (email : Str) : Except AuthError Account := m.indexed (m.byEmail.get email)

def accountByGoogleSub (googleSub : Str) : Except AuthError Account := m.indexed (m.byGoogle.get googleSub)

def linkGoogleSubject (accountID googleSub : Str) : Except AuthError Unit × AuthMem :=
  match m.accounts.get accountID with
  | none => (.error .notFound,m)
  | some a =>
    if a.googleSub = googleSub then (.ok (),m)
    else if a.googleSub ≠ [] then (.error .conflict,m)
    else
      let taken := match m.byGoogle.get googleSub with
        | some other => decide (other ≠ accountID)
        | none => false
      if taken then (.error .duplicate,m)
      else (.ok (),{m with
        accounts := m.accounts.upsert accountID {a with googleSub := googleSub}
        byGoogle := m.byGoogle.upsert googleSub accountID})

def accountByID (id : Str) : Except AuthError Account :=
  match m.accounts.get id with
  | none => .error .notFound
  | some a => .ok a

def recordFailedLogin (accountID : Str) (lockAfter lockFor now : Nat) : Except AuthError Account × AuthMem :=
  match m.accounts.get accountID with
  | none => (.error .notFound,m)
  | some a =>
    let attempts := a.failedLoginAttempts + 1
    let a := if lockAfter ≤ attempts then {a with failedLoginAttempts := 0,lockedUntil := some (now + lockFor)}
      else {a with failedLoginAttempts := attempts}
    (.ok a,{m with accounts := m.accounts.upsert accountID a})

def resetFailedLogins (accountID : Str) : AuthMem :=
  match m.accounts.get accountID with
  | none => m
  | some a => {m with accounts := m.accounts.upsert accountID {a with failedLoginAttempts := 0,lockedUntil := none}}

/-! ### Google logins -/

def day : Nat := 24 * 60 * 60 * 1000000000

def purgeExpiredOAuthLocked (now : Nat) : AuthMem :=
  {m with oauth := m.oauth.filterValues (fun login => !decide (login.expiresAt + day < now))}

def createOAuthLogin (login : OAuthLogin) (now : Nat) : Except AuthError Unit × AuthMem :=
  let m := m.purgeExpiredOAuthLocked now
  match m.oauth.get login.state with
  | some _ => (.error .duplicate,m)
  | none => (.ok (),{m with oauth := m.oauth.upsert login.state login})

def oauthLoginByState (state : Str) : Except AuthError OAuthLogin :=
  match m.oauth.get state with
  | none => .error .notFound
  | some login => .ok login

/-- A transition of a stored login; it fails unless the login is as required. -/
def changeLogin (state : Str) (allowed : OAuthLogin → Bool) (change : OAuthLogin → OAuthLogin) :
    Except AuthError OAuthLogin × AuthMem :=
  match m.oauth.get state with
  | none => (.error .notFound,m)
  | some login =>
    if allowed login then (.ok (change login),{m with oauth := m.oauth.upsert state (change login)})
    else (.error .notFound,m)

def claimOAuthLogin (state : Str) (now : Nat) : Except AuthError OAuthLogin × AuthMem :=
  m.changeLogin state (fun login => login.status = .pending ∧ now < login.expiresAt)
    (fun login => {login with status := .exchanging})

def markOAuthReady (state accountID : Str) : Except AuthError OAuthLogin × AuthMem :=
  m.changeLogin state (fun login => login.status = .exchanging) (fun login =>
    {login with status := .ready,accountID := accountID,codeVerifier := [],errorCode := [],errorMessage := []})

def markOAuthError (state code message : Str) : Except AuthError OAuthLogin × AuthMem :=
  m.changeLogin state (fun login => login.status = .exchanging) (fun login =>
    {login with status := .error,errorCode := code,errorMessage := message,codeVerifier := []})

def consumeOAuthLogin (state : Str) : Except AuthError OAuthLogin × AuthMem :=
  m.changeLogin state (fun login => login.status = .ready) (fun login =>
    {login with status := .consumed,codeVerifier := []})

def reopenOAuthLogin (state : Str) : Except AuthError OAuthLogin × AuthMem :=
  m.changeLogin state (fun login => login.status = .consumed) (fun login => {login with status := .ready})

/-! ### Devices and refresh tokens -/

def createDevice (accountID name id : Str) (now : Nat) : DeviceRecord × AuthMem :=
  let d : DeviceRecord := ⟨id,accountID,name,now,now,none⟩
  (d,{m with devices := m.devices.upsert id d})

def countActiveDevices (accountID : Str) : Nat :=
  (m.devices.rows.filter (fun row => decide (row.2.accountID = accountID ∧ row.2.revokedAt = none))).length

def devicesOf (accountID : Str) : List DeviceRecord :=
  (m.devices.rows.map Prod.snd).filter (fun d => decide (d.accountID = accountID))

/-- `sort.Slice` over the map; devices created at one time may come out in any order. -/
def listDevices (accountID : Str) : List DeviceRecord := (m.devicesOf accountID).insertionSort DeviceRecord.Older

def deviceByID (accountID deviceID : Str) : Except AuthError DeviceRecord :=
  match m.devices.get deviceID with
  | none => .error .notFound
  | some d => if d.accountID = accountID then .ok d else .error .notFound

def deviceByIDGlobal (deviceID : Str) : Except AuthError DeviceRecord :=
  match m.devices.get deviceID with
  | none => .error .notFound
  | some d => .ok d

def renameDevice (accountID deviceID name : Str) : Except AuthError Unit × AuthMem :=
  match m.deviceByID accountID deviceID with
  | .error err => (.error err,m)
  | .ok d => (.ok (),{m with devices := m.devices.upsert deviceID {d with name := name}})

def revokeDevice (accountID deviceID : Str) (now : Nat) : Except AuthError Unit × AuthMem :=
  match m.deviceByID accountID deviceID with
  | .error err => (.error err,m)
  | .ok d => (.ok (),{m with
      devices := m.devices.upsert deviceID {d with revokedAt := some now}
      tokens := m.tokens.mapValues (fun t =>
        if t.deviceID = deviceID ∧ t.revokedAt = none then {t with revokedAt := some now} else t)})

def touchDevice (deviceID : Str) (now : Nat) : AuthMem :=
  match m.devices.get deviceID with
  | none => m
  | some d => {m with devices := m.devices.upsert deviceID {d with lastSeenAt := now}}

def createRefreshToken (deviceID tokenHash : Str) (expiresAt : Nat) (id : Str) : RefreshToken × AuthMem :=
  let t : RefreshToken := ⟨id,deviceID,tokenHash,expiresAt,none⟩
  (t,{m with tokens := m.tokens.upsert id t,tokensByH := m.tokensByH.upsert tokenHash id})

def refreshTokenByHash (tokenHash : Str) : Except AuthError RefreshToken :=
  match m.tokensByH.get tokenHash with
  | none => .error .notFound
  | some id =>
    match m.tokens.get id with
    | some t => .ok t
    | none => .error .internal

def rotateRefreshToken (oldID newTokenHash : Str) (expiresAt : Nat) (id : Str) (now : Nat) :
    Except AuthError RefreshToken × AuthMem :=
  match m.tokens.get oldID with
  | none => (.error .notFound,m)
  | some old =>
    let m := {m with tokens := m.tokens.upsert oldID {old with revokedAt := some now}}
    let out := m.createRefreshToken old.deviceID newTokenHash expiresAt id
    (.ok out.1,out.2)

def revokeRefreshToken (id : Str) (now : Nat) : AuthMem :=
  match m.tokens.get id with
  | none => m
  | some t => {m with tokens := m.tokens.upsert id {t with revokedAt := some now}}

/-! ### Pairing codes -/

def createPairingCode (pc : PairingCode) : AuthMem := {m with pairing := m.pairing.upsert pc.code pc}

def pairingCodeByCode (code : Str) : Except AuthError PairingCode :=
  match m.pairing.get code with
  | none => .error .notFound
  | some pc => .ok pc

def approvePairingCode (code approvingDevice : Str) (wrappedKey : Bytes) (now : Nat) : Except AuthError Unit × AuthMem :=
  match m.pairing.get code with
  | none => (.error .pairingExpired,m)
  | some pc =>
    if pc.consumedAt ≠ none ∨ pc.expiresAt < now then (.error .pairingExpired,m)
    else
      let pc := {pc with wrappedMasterKey := wrappedKey,approvingDevice := some approvingDevice}
      (.ok (),{m with pairing := m.pairing.upsert code pc})

def consumePairingCode (code : Str) (now : Nat) : Except AuthError Unit × AuthMem :=
  match m.pairing.get code with
  | none => (.error .notFound,m)
  | some pc => (.ok (),{m with pairing := m.pairing.upsert code {pc with consumedAt := some now}})

end AuthMem
end NPSync.Server
