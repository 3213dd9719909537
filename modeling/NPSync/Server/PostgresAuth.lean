import NPSync.Server.AuthCalls

/-! The accounts, Google logins, devices, refresh tokens and pairing codes of
`store/postgres.go`, each statement or transaction as one operation on tables. A
violated constraint that the method does not map is an internal error. -/
namespace NPSync.Server.Postgres
open Library

/-- A row of `accounts`. -/
structure AccountRow where
  id : Str
  email : Str
  passwordHash : Option Str
  googleSub : Option Str
  failedLoginAttempts : Nat
  lockedUntil : Option Nat

/-- `scanAccount`. -/
def scanAccount (row : AccountRow) : Account :=
  ⟨row.id,row.email,row.passwordHash.getD [],row.googleSub.getD [],row.failedLoginAttempts,row.lockedUntil⟩

structure AuthDb where
  accounts : Table Str AccountRow
  oauth : Table Str OAuthLogin
  devices : Table Str DeviceRecord
  tokens : Table Str RefreshToken
  pairing : Table Str PairingCode

namespace AuthDb

def empty : AuthDb := ⟨.empty,.empty,.empty,.empty,.empty⟩

variable (d : AuthDb)

/-! ### Accounts -/

def nullable (text : Str) : Option Str := if text = [] then none else some text

/-- The row with this e-mail; the constraint on the column leaves at most one. -/
def accountRowBy (test : AccountRow → Bool) : Option AccountRow := (d.accounts.rows.find? (fun row => test row.2)).map Prod.snd

/-- The indexes are checked in the order of their creation. -/
def insertAccount (email passwordHash googleSub id : Str) : Except AuthError Account × AuthDb :=
  let row : AccountRow := ⟨id,email,nullable passwordHash,nullable googleSub,0,none⟩
  if (d.accounts.get id).isSome || (d.accountRowBy (fun other => other.email = email)).isSome then (.error .emailTaken,d)
  else if googleSub ≠ [] ∧ (d.accountRowBy (fun other => other.googleSub = some googleSub)).isSome then (.error .duplicate,d)
  else (.ok (scanAccount row),{d with accounts := d.accounts.upsert id row})

def createAccount (email passwordHash id : Str) : Except AuthError Account × AuthDb :=
  d.insertAccount email passwordHash [] id

def createGoogleAccount (email googleSub id : Str) : Except AuthError Account × AuthDb :=
  if googleSub = [] then (.error .notFound,d) else d.insertAccount email [] googleSub id

/-- A `SELECT` of one row. -/
def selected {X Y : Type} (scan : X → Y) : Option X → Except AuthError Y
  | some row => .ok (scan row)
  | none => .error .notFound

def accountByEmail (email : Str) : Except AuthError Account :=
  selected scanAccount (d.accountRowBy (fun row => row.email = email))

def accountByGoogleSub (googleSub : Str) : Except AuthError Account :=
  selected scanAccount (d.accountRowBy (fun row => row.googleSub = some googleSub))

def accountByID (id : Str) : Except AuthError Account := selected scanAccount (d.accounts.get id)

/-- `LinkGoogleSubject` when the update matched no row. -/
def explainUnlinked (accountID googleSub : Str) : Except AuthError Unit :=
  match d.accountByID accountID with
  | .error err => .error err
  | .ok acct =>
    if acct.googleSub = googleSub then .ok ()
    else if acct.googleSub ≠ [] then .error .conflict else .error .notFound

def linkGoogleSubject (accountID googleSub : Str) : Except AuthError Unit × AuthDb :=
  match (d.accounts.get accountID).filter (fun row => row.googleSub = none) with
  | none => (d.explainUnlinked accountID googleSub,d)
  | some row =>
    if (d.accountRowBy (fun other => other.googleSub = some googleSub)).isSome then (.error .duplicate,d)
    else (.ok (),{d with accounts := d.accounts.upsert accountID {row with googleSub := some googleSub}})

def second : Nat := 1000000000

/-- The interval is passed in whole seconds. -/
def recordFailedLogin (accountID : Str) (lockAfter lockFor now : Nat) : Except AuthError Account × AuthDb :=
  match d.accounts.get accountID with
  | none => (.error .notFound,d)
  | some row =>
    let attempts := row.failedLoginAttempts + 1
    let row := if lockAfter ≤ attempts then
        {row with failedLoginAttempts := 0,lockedUntil := some (now + lockFor / second * second)}
      else {row with failedLoginAttempts := attempts}
    (.ok (scanAccount row),{d with accounts := d.accounts.upsert accountID row})

def resetFailedLogins (accountID : Str) : AuthDb :=
  match d.accounts.get accountID with
  | none => d
  | some row => {d with accounts := d.accounts.upsert accountID {row with failedLoginAttempts := 0,lockedUntil := none}}

/-! ### Google logins -/

/-- The expired rows are deleted by a statement of its own, before the insert. -/
def createOAuthLogin (login : OAuthLogin) (now : Nat) : Except AuthError Unit × AuthDb :=
  let d := {d with oauth := d.oauth.filterValues (fun old => !decide (old.expiresAt + AuthMem.day < now))}
  match d.oauth.get login.state with
  | some _ => (.error .duplicate,d)
  | none =>
    let row := {login with accountID := [],errorCode := [],errorMessage := []}
    (.ok (),{d with oauth := d.oauth.upsert login.state row})

def oauthLoginByState (state : Str) : Except AuthError OAuthLogin := selected id (d.oauth.get state)

/-- An `UPDATE oauth_logins` of the row that passes the test. -/
def changeLogin (state : Str) (allowed : OAuthLogin → Bool) (change : OAuthLogin → OAuthLogin) :
    Except AuthError OAuthLogin × AuthDb :=
  match (d.oauth.get state).filter allowed with
  | none => (.error .notFound,d)
  | some login => (.ok (change login),{d with oauth := d.oauth.upsert state (change login)})

def claimOAuthLogin (state : Str) (now : Nat) : Except AuthError OAuthLogin × AuthDb :=
  d.changeLogin state (fun login => login.status = .pending ∧ now < login.expiresAt)
    (fun login => {login with status := .exchanging})

/-- `account_id` references `accounts`. -/
def markOAuthReady (state accountID : Str) : Except AuthError OAuthLogin × AuthDb :=
  let out := d.changeLogin state (fun login => login.status = .exchanging) (fun login =>
    {login with status := .ready,accountID := accountID,codeVerifier := [],errorCode := [],errorMessage := []})
  match out.1 with
  | .ok login => if (d.accounts.get accountID).isSome then (.ok login,out.2) else (.error .internal,d)
  | .error err => (.error err,d)

def markOAuthError (state code message : Str) : Except AuthError OAuthLogin × AuthDb :=
  d.changeLogin state (fun login => login.status = .exchanging) (fun login =>
    {login with status := .error,errorCode := code,errorMessage := message,codeVerifier := []})

def consumeOAuthLogin (state : Str) : Except AuthError OAuthLogin × AuthDb :=
  d.changeLogin state (fun login => login.status = .ready) (fun login =>
    {login with status := .consumed,codeVerifier := []})

def reopenOAuthLogin (state : Str) : Except AuthError OAuthLogin × AuthDb :=
  d.changeLogin state (fun login => login.status = .consumed) (fun login => {login with status := .ready})

/-! ### Devices and refresh tokens -/

def createDevice (accountID name id : Str) (now : Nat) : Except AuthError DeviceRecord × AuthDb :=
  if (d.devices.get id).isSome || (d.accounts.get accountID).isNone then (.error .internal,d)
  else
    let row : DeviceRecord := ⟨id,accountID,name,now,now,none⟩
    (.ok row,{d with devices := d.devices.upsert id row})

def countActiveDevices (accountID : Str) : Nat :=
  (d.devices.rows.filter (fun row => decide (row.2.accountID = accountID ∧ row.2.revokedAt = none))).length

def devicesOf (accountID : Str) : List DeviceRecord :=
  (d.devices.rows.map Prod.snd).filter (fun row => decide (row.accountID = accountID))

/-- `ORDER BY created_at` of the rows in the order they are scanned. -/
def listDevices (scanned : List DeviceRecord → List DeviceRecord) (accountID : Str) : List DeviceRecord :=
  (scanned (d.devicesOf accountID)).insertionSort DeviceRecord.Older

def deviceByID (accountID deviceID : Str) : Except AuthError DeviceRecord :=
  selected id ((d.devices.get deviceID).filter (fun row => row.accountID = accountID))

def deviceByIDGlobal (deviceID : Str) : Except AuthError DeviceRecord := selected id (d.devices.get deviceID)

/-- An `UPDATE devices` of the row that passes the test, followed by `requireAffected`. -/
def changeDevice (deviceID : Str) (allowed : DeviceRecord → Bool) (change : DeviceRecord → DeviceRecord) :
    Except AuthError Unit × AuthDb :=
  match (d.devices.get deviceID).filter allowed with
  | none => (.error .notFound,d)
  | some row => (.ok (),{d with devices := d.devices.upsert deviceID (change row)})

def renameDevice (accountID deviceID name : Str) : Except AuthError Unit × AuthDb :=
  d.changeDevice deviceID (fun row => row.accountID = accountID) (fun row => {row with name := name})

def revokeTokens (test : RefreshToken → Bool) (now : Nat) : AuthDb :=
  {d with tokens := d.tokens.mapValues (fun t => if test t then {t with revokedAt := some now} else t)}

/-- Both statements of the transaction, or neither. -/
def revokeDevice (accountID deviceID : Str) (now : Nat) : Except AuthError Unit × AuthDb :=
  let out := d.changeDevice deviceID (fun row => row.accountID = accountID ∧ row.revokedAt = none)
    (fun row => {row with revokedAt := some now})
  match out.1 with
  | .ok _ => (.ok (),out.2.revokeTokens (fun t => t.deviceID = deviceID ∧ t.revokedAt = none) now)
  | .error err => (.error err,d)

def touchDevice (deviceID : Str) (now : Nat) : AuthDb :=
  (d.changeDevice deviceID (fun _ => true) (fun row => {row with lastSeenAt := now})).2

def tokenByHash (tokenHash : Str) : Option RefreshToken :=
  (d.tokens.rows.find? (fun row => row.2.tokenHash = tokenHash)).map Prod.snd

/-- The insert of a token; its id and its hash are unique and its device exists. -/
def createRefreshToken (deviceID tokenHash : Str) (expiresAt : Nat) (id : Str) : Except AuthError RefreshToken × AuthDb :=
  if (d.tokens.get id).isSome || (d.tokenByHash tokenHash).isSome || (d.devices.get deviceID).isNone then (.error .internal,d)
  else
    let row : RefreshToken := ⟨id,deviceID,tokenHash,expiresAt,none⟩
    (.ok row,{d with tokens := d.tokens.upsert id row})

def refreshTokenByHash (tokenHash : Str) : Except AuthError RefreshToken := selected id (d.tokenByHash tokenHash)

/-- The guarded update and the insert of one transaction; a failed insert rolls the update back. -/
def rotateRefreshToken (oldID newTokenHash : Str) (expiresAt : Nat) (id : Str) (now : Nat) :
    Except AuthError RefreshToken × AuthDb :=
  match (d.tokens.get oldID).filter (fun old => old.revokedAt = none ∧ now < old.expiresAt) with
  | none => (.error .notFound,d)
  | some old =>
    let out := createRefreshToken {d with tokens := d.tokens.upsert oldID {old with revokedAt := some now}} old.deviceID
      newTokenHash expiresAt id
    match out.1 with
    | .ok row => (.ok row,out.2)
    | .error err => (.error err,d)

def revokeRefreshToken (id : Str) (now : Nat) : AuthDb := d.revokeTokens (fun t => t.id = id) now

/-! ### Pairing codes -/

/-- The insert leaves the approval columns empty. -/
def createPairingCode (pc : PairingCode) : Except AuthError Unit × AuthDb :=
  if (d.pairing.get pc.code).isSome || (d.accounts.get pc.accountID).isNone then (.error .internal,d)
  else
    let row := {pc with wrappedMasterKey := [],approvingDevice := none,consumedAt := none}
    (.ok (),{d with pairing := d.pairing.upsert pc.code row})

def pairingCodeByCode (code : Str) : Except AuthError PairingCode := selected id (d.pairing.get code)

def approvePairingCode (code approvingDevice : Str) (wrappedKey : Bytes) (now : Nat) : Except AuthError Unit × AuthDb :=
  match (d.pairing.get code).filter (fun pc => pc.consumedAt = none ∧ now < pc.expiresAt) with
  | none => (.error .pairingExpired,d)
  | some pc =>
    let pc := {pc with wrappedMasterKey := wrappedKey,approvingDevice := some approvingDevice}
    (.ok (),{d with pairing := d.pairing.upsert code pc})

/-- The number of affected rows is not looked at. -/
def consumePairingCode (code : Str) (now : Nat) : AuthDb :=
  match d.pairing.get code with
  | none => d
  | some pc => {d with pairing := d.pairing.upsert code {pc with consumedAt := some now}}

end AuthDb

/-! ### The handlers over this store -/

structure AuthState where
  db : AuthDb
  clock : Nat

def AuthState.empty (clock : Nat) : AuthState := ⟨.empty,clock⟩

/-- A store call; one that fails has no effect. -/
def attempt {X : Type} (env : AuthEnv) (s : AuthState) (out : Except AuthError X × AuthDb) :
    Except AuthError X × AuthState :=
  if env.fault then (.error .internal,s) else (out.1,{s with db := out.2})

def execAuthAt (env : AuthEnv) (s : AuthState) : (call : AuthCall) → call.Result × AuthState
  | .now => (s.clock,s)
  | .createAccount email passwordHash => attempt env s (s.db.createAccount email passwordHash env.uuid)
  | .createGoogleAccount email googleSub => attempt env s (s.db.createGoogleAccount email googleSub env.uuid)
  | .accountByEmail email => attempt env s (s.db.accountByEmail email,s.db)
  | .accountByGoogleSub googleSub => attempt env s (s.db.accountByGoogleSub googleSub,s.db)
  | .accountByID id => attempt env s (s.db.accountByID id,s.db)
  | .linkGoogleSubject accountID googleSub => attempt env s (s.db.linkGoogleSubject accountID googleSub)
  | .recordFailedLogin accountID lockAfter lockFor =>
    attempt env s (s.db.recordFailedLogin accountID lockAfter lockFor s.clock)
  | .resetFailedLogins accountID => attempt env s (.ok (),s.db.resetFailedLogins accountID)
  | .createOAuthLogin login => attempt env s (s.db.createOAuthLogin login s.clock)
  | .oauthLoginByState state => attempt env s (s.db.oauthLoginByState state,s.db)
  | .claimOAuthLogin state now => attempt env s (s.db.claimOAuthLogin state now)
  | .markOAuthReady state accountID => attempt env s (s.db.markOAuthReady state accountID)
  | .markOAuthError state code message => attempt env s (s.db.markOAuthError state code message)
  | .consumeOAuthLogin state => attempt env s (s.db.consumeOAuthLogin state)
  | .reopenOAuthLogin state => attempt env s (s.db.reopenOAuthLogin state)
  | .createDevice accountID name => attempt env s (s.db.createDevice accountID name env.uuid s.clock)
  | .countActiveDevices accountID => attempt env s (.ok (s.db.countActiveDevices accountID),s.db)
  | .deviceByID accountID deviceID => attempt env s (s.db.deviceByID accountID deviceID,s.db)
  | .deviceByIDGlobal deviceID => attempt env s (s.db.deviceByIDGlobal deviceID,s.db)
  | .renameDevice accountID deviceID name => attempt env s (s.db.renameDevice accountID deviceID name)
  | .revokeDevice accountID deviceID => attempt env s (s.db.revokeDevice accountID deviceID s.clock)
  | .touchDevice deviceID => attempt env s (.ok (),s.db.touchDevice deviceID s.clock)
  | .createRefreshToken deviceID tokenHash expiresAt =>
    attempt env s (s.db.createRefreshToken deviceID tokenHash expiresAt env.uuid)
  | .refreshTokenByHash tokenHash => attempt env s (s.db.refreshTokenByHash tokenHash,s.db)
  | .rotateRefreshToken oldID newTokenHash expiresAt =>
    attempt env s (s.db.rotateRefreshToken oldID newTokenHash expiresAt env.uuid s.clock)
  | .createPairingCode pc => attempt env s (s.db.createPairingCode pc)
  | .pairingCodeByCode code => attempt env s (s.db.pairingCodeByCode code,s.db)
  | .approvePairingCode code approvingDevice wrappedKey =>
    attempt env s (s.db.approvePairingCode code approvingDevice wrappedKey s.clock)
  | .consumePairingCode code => attempt env s (.ok (),s.db.consumePairingCode code s.clock)
  | .exchangeGoogleCode _ _ => (env.exchanged,s)
  | .verifyRS256IDToken _ _ => (env.identity,s)

/-- One call, made after the given time. -/
def execAuth (env : AuthEnv) (s : AuthState) (call : AuthCall) : call.Result × AuthState :=
  execAuthAt env {s with clock := s.clock + env.elapsed} call

/-! ### What a call can change -/

/-- The calls that write refresh tokens. -/
def writesTokens : AuthCall → Bool
  | .revokeDevice .. | .createRefreshToken .. | .rotateRefreshToken .. => true
  | _ => false

/-- The tables that a call does not write. -/
structure SameBut (call : AuthCall) (before after : AuthDb) : Prop where
  accounts : call.part ≠ some .accounts → after.accounts = before.accounts
  logins : call.part ≠ some .logins → after.oauth = before.oauth
  devices : call.part ≠ some .devices → after.devices = before.devices
  tokens : writesTokens call = false → after.tokens = before.tokens
  pairing : call.part ≠ some .pairing → after.pairing = before.pairing

theorem SameBut.refl (call : AuthCall) (d : AuthDb) : SameBut call d d :=
  ⟨fun _ => rfl,fun _ => rfl,fun _ => rfl,fun _ => rfl,fun _ => rfl⟩

section
variable (d : AuthDb) {call : AuthCall}

theorem sameBut_accounts (part : call.part = some .accounts) (accounts : Table Str AccountRow) :
    SameBut call d {d with accounts := accounts} :=
  ⟨fun other => absurd part other,fun _ => rfl,fun _ => rfl,fun _ => rfl,fun _ => rfl⟩

theorem sameBut_oauth (part : call.part = some .logins) (oauth : Table Str OAuthLogin) :
    SameBut call d {d with oauth := oauth} :=
  ⟨fun _ => rfl,fun other => absurd part other,fun _ => rfl,fun _ => rfl,fun _ => rfl⟩

theorem sameBut_devices (part : call.part = some .devices) (devices : Table Str DeviceRecord) :
    SameBut call d {d with devices := devices} :=
  ⟨fun _ => rfl,fun _ => rfl,fun other => absurd part other,fun _ => rfl,fun _ => rfl⟩

theorem sameBut_tokens (writes : writesTokens call = true) (tokens : Table Str RefreshToken) :
    SameBut call d {d with tokens := tokens} :=
  ⟨fun _ => rfl,fun _ => rfl,fun _ => rfl,fun quiet => absurd (writes.symm.trans quiet) Bool.noConfusion,fun _ => rfl⟩

theorem sameBut_pairing (part : call.part = some .pairing) (pairing : Table Str PairingCode) :
    SameBut call d {d with pairing := pairing} :=
  ⟨fun _ => rfl,fun _ => rfl,fun _ => rfl,fun _ => rfl,fun other => absurd part other⟩

theorem insertAccount_frame (part : call.part = some .accounts) (email passwordHash googleSub id : Str) :
    SameBut call d (d.insertAccount email passwordHash googleSub id).2 := by
  unfold AuthDb.insertAccount
  dsimp only
  split
  · exact .refl call d
  split
  · exact .refl call d
  · exact sameBut_accounts d part _

theorem changeLogin_frame (part : call.part = some .logins) (state : Str) (allowed : OAuthLogin → Bool) (change : OAuthLogin → OAuthLogin) :
    SameBut call d (d.changeLogin state allowed change).2 := by
  unfold AuthDb.changeLogin
  split
  · exact .refl call d
  · exact sameBut_oauth d part _

end

theorem attempt_sameBut {X : Type} {call : AuthCall} {env : AuthEnv} {s : AuthState} {out : Except AuthError X × AuthDb}
    (same : SameBut call s.db out.2) : SameBut call s.db (attempt env s out).2.db := by
  unfold attempt
  split
  · exact .refl call s.db
  · exact same

theorem execAuth_sameBut (env : AuthEnv) (s : AuthState) (call : AuthCall) :
    SameBut call s.db (execAuth env s call).2.db := by
  have attempted : ∀ {X : Type} (out : Except AuthError X × AuthDb), SameBut call s.db out.2 →
      SameBut call s.db (attempt env {s with clock := s.clock + env.elapsed} out).2.db :=
    fun out same => attempt_sameBut (s := {s with clock := s.clock + env.elapsed}) same
  cases call with
  | createAccount email passwordHash => exact attempted _ (insertAccount_frame s.db rfl email passwordHash [] env.uuid)
  | createGoogleAccount email googleSub =>
    apply attempted
    unfold AuthDb.createGoogleAccount
    split
    · exact .refl _ s.db
    · exact insertAccount_frame s.db rfl email [] googleSub env.uuid
  | linkGoogleSubject accountID googleSub =>
    apply attempted
    unfold AuthDb.linkGoogleSubject
    split
    · exact .refl _ s.db
    split
    · exact .refl _ s.db
    · exact sameBut_accounts s.db rfl _
  | recordFailedLogin accountID lockAfter lockFor =>
    apply attempted
    unfold AuthDb.recordFailedLogin
    split
    · exact .refl _ s.db
    · exact sameBut_accounts s.db rfl _
  | resetFailedLogins accountID =>
    apply attempted (X := Unit) (.ok (),s.db.resetFailedLogins accountID)
    dsimp only
    unfold AuthDb.resetFailedLogins
    split
    · exact .refl _ s.db
    · exact sameBut_accounts s.db rfl _
  | createOAuthLogin login =>
    apply attempted
    unfold AuthDb.createOAuthLogin
    dsimp only
    split
    · exact sameBut_oauth s.db rfl _
    · exact sameBut_oauth s.db rfl _
  | claimOAuthLogin state now => exact attempted _ (changeLogin_frame s.db rfl state _ _)
  | markOAuthReady state accountID =>
    apply attempted
    have frame : ∀ change, SameBut (.markOAuthReady state accountID) s.db
        (s.db.changeLogin state (fun login => login.status = .exchanging) change).2 :=
      fun change => changeLogin_frame s.db rfl state _ change
    unfold AuthDb.markOAuthReady
    dsimp only
    split
    · split
      · exact frame _
      · exact .refl _ s.db
    · exact .refl _ s.db
  | markOAuthError state code message => exact attempted _ (changeLogin_frame s.db rfl state _ _)
  | consumeOAuthLogin state => exact attempted _ (changeLogin_frame s.db rfl state _ _)
  | reopenOAuthLogin state => exact attempted _ (changeLogin_frame s.db rfl state _ _)
  | createDevice accountID name =>
    apply attempted
    unfold AuthDb.createDevice
    split
    · exact .refl _ s.db
    · exact sameBut_devices s.db rfl _
  | renameDevice accountID deviceID name =>
    apply attempted
    unfold AuthDb.renameDevice AuthDb.changeDevice
    split
    · exact .refl _ s.db
    · exact sameBut_devices s.db rfl _
  | revokeDevice accountID deviceID =>
    apply attempted
    unfold AuthDb.revokeDevice
    dsimp only
    split
    · refine ⟨fun _ => ?_,fun _ => ?_,fun other => absurd rfl other,fun written => by contradiction,fun _ => ?_⟩
      all_goals
        unfold AuthDb.changeDevice
        split
        · rfl
        · rfl
    · exact .refl _ s.db
  | touchDevice deviceID =>
    apply attempted (X := Unit) (.ok (),s.db.touchDevice deviceID (s.clock + env.elapsed))
    dsimp only
    unfold AuthDb.touchDevice AuthDb.changeDevice
    split
    · exact .refl _ s.db
    · exact sameBut_devices s.db rfl _
  | createRefreshToken deviceID tokenHash expiresAt =>
    apply attempted
    unfold AuthDb.createRefreshToken
    split
    · exact .refl _ s.db
    · exact sameBut_tokens s.db rfl _
  | rotateRefreshToken oldID newTokenHash expiresAt =>
    apply attempted
    unfold AuthDb.rotateRefreshToken
    split
    · exact .refl _ s.db
    dsimp only
    split
    · refine ⟨fun _ => ?_,fun _ => ?_,fun _ => ?_,fun written => by contradiction,fun _ => ?_⟩
      all_goals
        unfold AuthDb.createRefreshToken
        split
        · rfl
        · rfl
    · exact .refl _ s.db
  | createPairingCode pc =>
    apply attempted
    unfold AuthDb.createPairingCode
    split
    · exact .refl _ s.db
    · exact sameBut_pairing s.db rfl _
  | approvePairingCode code approvingDevice wrappedKey =>
    apply attempted
    unfold AuthDb.approvePairingCode
    split
    · exact .refl _ s.db
    · exact sameBut_pairing s.db rfl _
  | consumePairingCode code =>
    apply attempted (X := Unit) (.ok (),s.db.consumePairingCode code (s.clock + env.elapsed))
    dsimp only
    unfold AuthDb.consumePairingCode
    split
    · exact .refl _ s.db
    · exact sameBut_pairing s.db rfl _
  | now => exact .refl _ s.db
  | exchangeGoogleCode code verifier => exact .refl _ s.db
  | verifyRS256IDToken idToken nonce => exact .refl _ s.db
  | _ => exact attempted _ (.refl _ s.db)

abbrev AuthLedger := Ledger AuthState AuthCall AuthCall.Result AuthResponse AuthRequest

/-- The authentication server over Postgres, started empty, after any schedule of any requests. -/
def authRun (lib : AuthLibrary) (cfg : AuthConfig) (clock : Nat) (moves : List AuthMove) : AuthLedger :=
  run (Ledger.move (handleAuth lib cfg) execAuth) (Ledger.initial (AuthState.empty clock)) moves

end NPSync.Server.Postgres
