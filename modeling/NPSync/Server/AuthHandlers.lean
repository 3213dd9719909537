import NPSync.Crypto
import NPSync.Library.Ledger
import NPSync.Server.AuthStore
import NPSync.Server.Handlers

/-! `api/auth_handlers.go`, `api/google_auth.go`, the device and pairing handlers,
`withAuth` and `handleWebSocket`. A handler is a program of single store calls,
readings of the clock and requests to Google. Bodies are taken after
`decodeJSON`; random values, the limiter's verdict and the claims of a verified
access token come with the request. -/
namespace NPSync.Server
open Library

inductive AuthCall where
  | now
  | createAccount (email passwordHash : Str)
  | createGoogleAccount (email googleSub : Str)
  | accountByEmail (email : Str)
  | accountByGoogleSub (googleSub : Str)
  | accountByID (id : Str)
  | linkGoogleSubject (accountID googleSub : Str)
  | recordFailedLogin (accountID : Str) (lockAfter lockFor : Nat)
  | resetFailedLogins (accountID : Str)
  | createOAuthLogin (login : OAuthLogin)
  | oauthLoginByState (state : Str)
  | claimOAuthLogin (state : Str) (now : Nat)
  | markOAuthReady (state accountID : Str)
  | markOAuthError (state code message : Str)
  | consumeOAuthLogin (state : Str)
  | reopenOAuthLogin (state : Str)
  | createDevice (accountID name : Str)
  | countActiveDevices (accountID : Str)
  | deviceByID (accountID deviceID : Str)
  | deviceByIDGlobal (deviceID : Str)
  | renameDevice (accountID deviceID name : Str)
  | revokeDevice (accountID deviceID : Str)
  | touchDevice (deviceID : Str)
  | createRefreshToken (deviceID tokenHash : Str) (expiresAt : Nat)
  | refreshTokenByHash (tokenHash : Str)
  | rotateRefreshToken (oldID newTokenHash : Str) (expiresAt : Nat)
  | createPairingCode (pc : PairingCode)
  | pairingCodeByCode (code : Str)
  | approvePairingCode (code approvingDevice : Str) (wrappedKey : Bytes)
  | consumePairingCode (code : Str)
  | exchangeGoogleCode (code verifier : Str)
  | verifyRS256IDToken (idToken nonce : Str)

@[reducible] def AuthCall.Result : AuthCall → Type
  | .now => Nat
  | .createAccount .. | .createGoogleAccount .. | .accountByEmail .. | .accountByGoogleSub .. | .accountByID ..
  | .recordFailedLogin .. => Except AuthError Account
  | .linkGoogleSubject .. | .resetFailedLogins .. | .createOAuthLogin .. | .renameDevice .. | .revokeDevice ..
  | .touchDevice .. | .createPairingCode .. | .approvePairingCode .. | .consumePairingCode .. => Except AuthError Unit
  | .oauthLoginByState .. | .claimOAuthLogin .. | .markOAuthReady .. | .markOAuthError .. | .consumeOAuthLogin ..
  | .reopenOAuthLogin .. => Except AuthError OAuthLogin
  | .createDevice .. | .deviceByID .. | .deviceByIDGlobal .. => Except AuthError DeviceRecord
  | .countActiveDevices .. => Except AuthError Nat
  | .createRefreshToken .. | .refreshTokenByHash .. | .rotateRefreshToken .. => Except AuthError RefreshToken
  | .pairingCodeByCode .. => Except AuthError PairingCode
  | .exchangeGoogleCode .. => Option Str
  | .verifyRS256IDToken .. => Option (Str × Str)

/-- What one call meets: the time since the last one, the next value of `uuidFn`,
whether the store fails, and what Google answers. -/
structure AuthEnv where
  elapsed : Nat
  uuid : Str
  fault : Bool
  exchanged : Option Str
  identity : Option (Str × Str)

structure AuthState where
  mem : AuthMem
  clock : Nat

def AuthState.empty (clock : Nat) : AuthState := ⟨.newMem,clock⟩

/-- A store call; one that fails has no effect. -/
def attempt {X : Type} (env : AuthEnv) (s : AuthState) (out : Except AuthError X × AuthMem) :
    Except AuthError X × AuthState :=
  if env.fault then (.error .internal,s) else (out.1,{s with mem := out.2})

def execAuthAt (env : AuthEnv) (s : AuthState) : (call : AuthCall) → call.Result × AuthState
  | .now => (s.clock,s)
  | .createAccount email passwordHash => attempt env s (s.mem.createAccount email passwordHash env.uuid)
  | .createGoogleAccount email googleSub => attempt env s (s.mem.createGoogleAccount email googleSub env.uuid)
  | .accountByEmail email => attempt env s (s.mem.accountByEmail email,s.mem)
  | .accountByGoogleSub googleSub => attempt env s (s.mem.accountByGoogleSub googleSub,s.mem)
  | .accountByID id => attempt env s (s.mem.accountByID id,s.mem)
  | .linkGoogleSubject accountID googleSub => attempt env s (s.mem.linkGoogleSubject accountID googleSub)
  | .recordFailedLogin accountID lockAfter lockFor =>
    attempt env s (s.mem.recordFailedLogin accountID lockAfter lockFor s.clock)
  | .resetFailedLogins accountID => attempt env s (.ok (),s.mem.resetFailedLogins accountID)
  | .createOAuthLogin login => attempt env s (s.mem.createOAuthLogin login s.clock)
  | .oauthLoginByState state => attempt env s (s.mem.oauthLoginByState state,s.mem)
  | .claimOAuthLogin state now => attempt env s (s.mem.claimOAuthLogin state now)
  | .markOAuthReady state accountID => attempt env s (s.mem.markOAuthReady state accountID)
  | .markOAuthError state code message => attempt env s (s.mem.markOAuthError state code message)
  | .consumeOAuthLogin state => attempt env s (s.mem.consumeOAuthLogin state)
  | .reopenOAuthLogin state => attempt env s (s.mem.reopenOAuthLogin state)
  | .createDevice accountID name =>
    let out := s.mem.createDevice accountID name env.uuid s.clock
    attempt env s (.ok out.1,out.2)
  | .countActiveDevices accountID => attempt env s (.ok (s.mem.countActiveDevices accountID),s.mem)
  | .deviceByID accountID deviceID => attempt env s (s.mem.deviceByID accountID deviceID,s.mem)
  | .deviceByIDGlobal deviceID => attempt env s (s.mem.deviceByIDGlobal deviceID,s.mem)
  | .renameDevice accountID deviceID name => attempt env s (s.mem.renameDevice accountID deviceID name)
  | .revokeDevice accountID deviceID => attempt env s (s.mem.revokeDevice accountID deviceID s.clock)
  | .touchDevice deviceID => attempt env s (.ok (),s.mem.touchDevice deviceID s.clock)
  | .createRefreshToken deviceID tokenHash expiresAt =>
    let out := s.mem.createRefreshToken deviceID tokenHash expiresAt env.uuid
    attempt env s (.ok out.1,out.2)
  | .refreshTokenByHash tokenHash => attempt env s (s.mem.refreshTokenByHash tokenHash,s.mem)
  | .rotateRefreshToken oldID newTokenHash expiresAt =>
    attempt env s (s.mem.rotateRefreshToken oldID newTokenHash expiresAt env.uuid s.clock)
  | .createPairingCode pc => attempt env s (.ok (),s.mem.createPairingCode pc)
  | .pairingCodeByCode code => attempt env s (s.mem.pairingCodeByCode code,s.mem)
  | .approvePairingCode code approvingDevice wrappedKey =>
    attempt env s (s.mem.approvePairingCode code approvingDevice wrappedKey s.clock)
  | .consumePairingCode code => attempt env s (s.mem.consumePairingCode code s.clock)
  | .exchangeGoogleCode _ _ => (env.exchanged,s)
  | .verifyRS256IDToken _ _ => (env.identity,s)

/-- One call, made after the given time. -/
def execAuth (env : AuthEnv) (s : AuthState) (call : AuthCall) : call.Result × AuthState :=
  execAuthAt env {s with clock := s.clock + env.elapsed} call

inductive AuthResponse where
  | error (err : APIError)
  | ok
  | tokens (accountID deviceID refreshToken : Str)
  | started (state pollSecret : Str)
  | page (ok : Bool) (message : Str)
  | loginPending
  | pairingCode (code : Str) (expiresAt : Nat)
  | approved
  | pairingPending
  | paired (wrappedMasterKey : Str)
  | served (accountID deviceID : Str)

abbrev AuthHandler := Program AuthCall AuthCall.Result AuthResponse

structure AuthConfig where
  registrationOpen : Bool
  maxDevices : Nat
  refreshTokenTTL : Nat
  loginLockoutAfter : Nat
  loginLockoutFor : Nat
  googleEnabled : Bool

/-- What the handlers take from Go's libraries. -/
structure AuthLibrary where
  prim : Primitives
  normalizeEmail : Str → Str
  trimSpace : Str → Str
  verifyPassword : Str → Str → Bool

/-- The claims of a verified access token. -/
structure Claims where
  accountID : Str
  deviceID : Str
  deriving DecidableEq

structure Credentials where
  email : Str
  password : Str
  deviceName : Str
  deriving DecidableEq

/-- The limiter's verdict and the random values of one sign-in; `none` is a failed draw. -/
structure SignInDraws where
  allowed : Bool
  passwordHash : Option Str
  refreshToken : Option Str
  deriving DecidableEq

/-- The random values of a started Google login. -/
structure StartDraws where
  verifier : Str
  state : Str
  nonce : Str
  pollSecret : Str
  deriving DecidableEq

inductive PairAction where
  | request (code : Option Str)
  | approve (pairingCode wrappedMasterKey : Str)
  | poll (pairingCode : Str)
  | unknown
  deriving DecidableEq

inductive AuthRequest where
  | register (body : Credentials) (draws : SignInDraws)
  | login (body : Credentials) (draws : SignInDraws)
  | refresh (refreshToken : Str) (newToken : Option Str)
  | logout (claims : Option Claims)
  | revokeDevice (claims : Option Claims) (target : Str)
  | renameDevice (claims : Option Claims) (target name : Str)
  | authorized (claims : Option Claims)
  | webSocket (claims : Option Claims)
  | googleStart (deviceName : Str) (allowed : Bool) (draws : Option StartDraws)
  | googleCallback (state code error : Str)
  | googlePoll (state pollSecret : Str) (draws : SignInDraws)
  | pair (claims : Option Claims) (action : PairAction)
  deriving DecidableEq

def unauthorized : APIError := apiError 401 "unauthorized" "missing or invalid credentials"

def failedWith (err : APIError) : AuthHandler := .done (.error err)

/-- `apperr.Write` of `mapStoreErr`. -/
def mapAuthErr : AuthError → APIError
  | .notFound => errNotFound
  | .pairingExpired => apiError 410 "pairing_expired" "pairing code expired or invalid"
  | .duplicate => apiError 409 "duplicate" "resource already exists"
  | .emailTaken | .conflict | .internal => internalError

/-- The rest of a handler after a call that may fail; another error becomes a 500. -/
def orInternal {X : Type} (next : X → AuthHandler) : Except AuthError X → AuthHandler
  | .ok value => next value
  | .error _ => failedWith internalError

def validEmail (e : Str) : Bool :=
  let atSign := e.idxOf 64
  let domain := e.drop (atSign + 1)
  3 ≤ e.length && e.length ≤ 254 && 0 < atSign && atSign + 1 < e.length && domain.contains 46 && 0 < domain.idxOf 46

/-- `ValidatePasswordPolicy`; `none` is a nil error. -/
def validatePasswordPolicy (pw : Str) : Option String :=
  if pw.length < 10 then some "password must be at least 10 characters"
  else if 128 < pw.length then some "password must be at most 128 characters"
  else if !pw.any (fun c => (97 ≤ c && c ≤ 122) || (65 ≤ c && c ≤ 90)) || !pw.any (fun c => 48 ≤ c && c ≤ 57) then
    some "password must contain letters and digits"
  else none

/-- `validGoogleSub`; a letter outside ASCII is refused by its first byte. -/
def validGoogleSub (s : Str) : Bool :=
  1 ≤ s.length && s.length ≤ 255 && s.all (fun c =>
    (97 ≤ c && c ≤ 122) || (65 ≤ c && c ≤ 90) || (48 ≤ c && c ≤ 57) || c = 46 || c = 95 || c = 45)

section
variable (lib : AuthLibrary) (cfg : AuthConfig)

def hashTokenSHA256 (token : Str) : Str := Crypto.sha256Hex lib.prim token

/-! ### Passwords, tokens and devices -/

def respondWithTokens (accountID devID : Str) (refreshToken : Option Str) : AuthHandler :=
  match refreshToken with
  | none => failedWith internalError
  | some refresh => .call .now fun now =>
    .call (.createRefreshToken devID (hashTokenSHA256 lib refresh) (now + cfg.refreshTokenTTL)) <|
      orInternal fun _ => .done (.tokens accountID devID refresh)

def deviceLimit : APIError := apiError 403 "device_limit" "device limit reached; revoke a device first"

def issueTokens (acct : Account) (deviceName : Str) (refreshToken : Option Str) : AuthHandler :=
  .call (.countActiveDevices acct.id) <| orInternal fun count =>
    if cfg.maxDevices ≤ count then failedWith deviceLimit
    else .call (.createDevice acct.id deviceName) <| orInternal fun dev =>
      respondWithTokens lib cfg acct.id dev.id refreshToken

def rateLimited : APIError := apiError 429 "rate_limited" "too many attempts; try again later"

def registrationClosed : APIError := apiError 403 "registration_closed" "registration is disabled on this server"

def handleRegister (body : Credentials) (draws : SignInDraws) : AuthHandler :=
  if !cfg.registrationOpen then failedWith registrationClosed
  else if !validEmail (lib.normalizeEmail body.email) then failedWith (badRequest "invalid email")
  else match validatePasswordPolicy body.password with
    | some message => failedWith (badRequest message)
    | none =>
      if lib.trimSpace body.deviceName = [] ∨ 64 < body.deviceName.length then
        failedWith (badRequest "device_name required (max 64 chars)")
      else if !draws.allowed then failedWith rateLimited
      else match draws.passwordHash with
        | none => failedWith internalError
        | some hash => .call (.createAccount (lib.normalizeEmail body.email) hash) fun
          | .error .emailTaken => failedWith (apiError 409 "email_taken" "email already registered")
          | .error _ => failedWith internalError
          | .ok acct => issueTokens lib cfg acct body.deviceName draws.refreshToken

def defaultDeviceName : Str := lit "Notepad++ device"

def namedDevice (name : Str) : Str := if lib.trimSpace name = [] then defaultDeviceName else name

/-- `handleLogin` once the account is known not to be locked. -/
def checkPassword (body : Credentials) (draws : SignInDraws) (acct : Account) : AuthHandler :=
  if acct.passwordHash = [] then failedWith unauthorized
  else if !lib.verifyPassword acct.passwordHash body.password then
    .call (.recordFailedLogin acct.id cfg.loginLockoutAfter cfg.loginLockoutFor) <| orInternal fun _ =>
      failedWith unauthorized
  else .call (.resetFailedLogins acct.id) fun _ =>
    issueTokens lib cfg acct (namedDevice lib body.deviceName) draws.refreshToken

def handleLogin (body : Credentials) (draws : SignInDraws) : AuthHandler :=
  if !draws.allowed then failedWith rateLimited
  else .call (.accountByEmail (lib.normalizeEmail body.email)) fun
    | .error .notFound => failedWith unauthorized
    | .error _ => failedWith internalError
    | .ok acct =>
      match acct.lockedUntil with
      | none => checkPassword lib cfg body draws acct
      | some locked => .call .now fun now =>
        if now < locked then
          failedWith (apiError 429 "rate_limited" "account temporarily locked due to failed logins")
        else checkPassword lib cfg body draws acct

/-- `deviceForToken`. -/
def deviceForToken (deviceID : Str) (next : Option DeviceRecord → AuthHandler) : AuthHandler :=
  .call (.deviceByIDGlobal deviceID) fun
    | .error _ => next none
    | .ok dev => next (if dev.revokedAt = none then some dev else none)

/-- `handleRefresh` with a token that is neither revoked nor expired. -/
def rotateToken (tok : RefreshToken) (newToken : Option Str) : AuthHandler :=
  deviceForToken tok.deviceID fun
    | none => failedWith unauthorized
    | some dev =>
      match newToken with
      | none => failedWith internalError
      | some newRefresh => .call .now fun now =>
        .call (.rotateRefreshToken tok.id (hashTokenSHA256 lib newRefresh) (now + cfg.refreshTokenTTL)) <|
          orInternal fun _ => .done (.tokens dev.accountID dev.id newRefresh)

def handleRefresh (refreshToken : Str) (newToken : Option Str) : AuthHandler :=
  .call (.refreshTokenByHash (hashTokenSHA256 lib refreshToken)) fun
    | .error .notFound => failedWith unauthorized
    | .error _ => failedWith internalError
    | .ok tok =>
      if tok.revokedAt ≠ none then failedWith unauthorized
      else .call .now fun now =>
        if tok.expiresAt < now then failedWith unauthorized else rotateToken lib cfg tok newToken

/-- The device check that `withAuth` and `handleWebSocket` share. -/
def checkDevice (claims : Option Claims) (next : Claims → AuthHandler) : AuthHandler :=
  match claims with
  | none => failedWith unauthorized
  | some claims => .call (.deviceByID claims.accountID claims.deviceID) fun
    | .error _ => failedWith unauthorized
    | .ok dev => if dev.revokedAt ≠ none then failedWith unauthorized else next claims

def withAuth (claims : Option Claims) (next : Claims → AuthHandler) : AuthHandler :=
  checkDevice claims fun claims => .call (.touchDevice claims.deviceID) fun _ => next claims

def handleWebSocket (claims : Option Claims) : AuthHandler :=
  checkDevice claims fun claims => .done (.served claims.accountID claims.deviceID)

def handleLogout (claims : Claims) : AuthHandler :=
  .call (.revokeDevice claims.accountID claims.deviceID) <| orInternal fun _ => .done .ok

def handleRevokeDevice (claims : Claims) (target : Str) : AuthHandler :=
  .call (.revokeDevice claims.accountID target) fun
    | .error err => failedWith (mapAuthErr err)
    | .ok _ => .done .ok

def handleRenameDevice (claims : Claims) (target name : Str) : AuthHandler :=
  let name := lib.trimSpace name
  if name = [] ∨ 64 < name.length then failedWith (badRequest "name required (max 64 chars)")
  else .call (.renameDevice claims.accountID target name) fun
    | .error err => failedWith (mapAuthErr err)
    | .ok _ => .done .ok

/-! ### Pairing -/

def pairingCodeTTL : Nat := 5 * 60 * 1000000000

def pairRequestCode (claims : Claims) (code : Option Str) : AuthHandler :=
  match code with
  | none => failedWith internalError
  | some code => .call .now fun now =>
    .call (.createPairingCode ⟨code,claims.accountID,claims.deviceID,[],none,now + pairingCodeTTL,none⟩) <|
      orInternal fun _ => .done (.pairingCode code (now + pairingCodeTTL))

def pairApprove (claims : Claims) (pairingCode wrappedMasterKey : Str) : AuthHandler :=
  if pairingCode = [] ∨ wrappedMasterKey = [] then
    failedWith (badRequest "pairing_code and wrapped_master_key required")
  else match Base64.decodeBase64URL wrappedMasterKey with
    | none => failedWith (badRequest "invalid wrapped_master_key")
    | some wrapped =>
      if wrapped.length = 0 ∨ 4096 < wrapped.length then failedWith (badRequest "invalid wrapped_master_key")
      else .call (.pairingCodeByCode pairingCode) fun
        | .error _ => failedWith errNotFound
        | .ok pc =>
          if pc.accountID ≠ claims.accountID then failedWith errNotFound
          else if pc.requestingDevice = claims.deviceID then
            failedWith (badRequest "cannot approve your own pairing request")
          else .call (.approvePairingCode pairingCode claims.deviceID wrapped) fun
            | .error err => failedWith (mapAuthErr err)
            | .ok _ => .done .approved

def pairingExpired : APIError := apiError 410 "pairing_expired" "pairing code expired"

/-- `pairPoll` with the code it read. -/
def answerPoll (pairingCode : Str) (pc : PairingCode) (now : Nat) : AuthHandler :=
  if pc.expiresAt < now ∨ pc.consumedAt ≠ none then failedWith pairingExpired
  else if pc.wrappedMasterKey.length = 0 then .done .pairingPending
  else .call (.consumePairingCode pairingCode) <| orInternal fun _ =>
    .done (.paired (Base64.encodeBase64URL pc.wrappedMasterKey))

def pairPoll (claims : Claims) (pairingCode : Str) : AuthHandler :=
  if pairingCode = [] then failedWith (badRequest "pairing_code required")
  else .call (.pairingCodeByCode pairingCode) fun
    | .error _ => failedWith errNotFound
    | .ok pc =>
      if pc.accountID ≠ claims.accountID ∨ pc.requestingDevice ≠ claims.deviceID then failedWith errNotFound
      else .call .now fun now => answerPoll pairingCode pc now

def handlePair (claims : Claims) : PairAction → AuthHandler
  | .request code => pairRequestCode claims code
  | .approve pairingCode wrappedMasterKey => pairApprove claims pairingCode wrappedMasterKey
  | .poll pairingCode => pairPoll claims pairingCode
  | .unknown => failedWith (badRequest "action must be request|approve|poll")

/-! ### Google sign-in -/

def googleLoginTTL : Nat := 10 * 60 * 1000000000

def googleDisabled : APIError :=
  apiError 503 "google_sso_disabled" "Google sign-in is not configured on this server"

def handleGoogleStart (deviceName : Str) (allowed : Bool) (draws : Option StartDraws) : AuthHandler :=
  if !cfg.googleEnabled then failedWith googleDisabled
  else
    let name := if lib.trimSpace deviceName = [] then defaultDeviceName else lib.trimSpace deviceName
    if 64 < name.length then failedWith (badRequest "device_name must be at most 64 characters")
    else if !allowed then failedWith rateLimited
    else match draws with
      | none => failedWith internalError
      | some draws => .call .now fun now =>
        .call (.createOAuthLogin ⟨draws.state,draws.verifier,draws.nonce,name,hashTokenSHA256 lib draws.pollSecret,
          now + googleLoginTTL,.pending,[],[],[]⟩) <|
          orInternal fun _ => .done (.started draws.state draws.pollSecret)

/-- `accountForGoogle` ends with an account, an `apperr` error or another one (`none`). -/
abbrev Lookup := Program AuthCall AuthCall.Result (Except (Option APIError) Account)

def googleEmailTaken : APIError :=
  apiError 409 "google_email_taken" "this email is already linked to a different Google account"

/-- The account found by e-mail is used as it is, or linked. -/
def linkAccount (sub : Str) (acct : Account) (retry : Lookup) : Lookup :=
  if acct.googleSub ≠ [] ∧ acct.googleSub ≠ sub then .done (.error (some googleEmailTaken))
  else if acct.googleSub = sub then .done (.ok acct)
  else .call (.linkGoogleSubject acct.id sub) fun
    | .ok _ => .done (.ok {acct with googleSub := sub})
    | .error .duplicate => retry
    | .error .conflict => .done (.error (some googleEmailTaken))
    | .error _ => .done (.error none)

/-- One pass of `accountForGoogleRetry`; `retry` is what follows a lost race. -/
def accountForGooglePass (sub email : Str) (retry : Lookup) : Lookup :=
  .call (.accountByGoogleSub sub) fun
    | .ok acct => .done (.ok acct)
    | .error .notFound => .call (.accountByEmail email) fun
      | .ok acct => linkAccount sub acct retry
      | .error .notFound =>
        if !cfg.registrationOpen then .done (.error (some registrationClosed))
        else .call (.createGoogleAccount email sub) fun
          | .ok acct => .done (.ok acct)
          | .error .emailTaken => retry
          | .error .duplicate => retry
          | .error _ => .done (.error none)
      | .error _ => .done (.error none)
    | .error _ => .done (.error none)

def accountForGoogleRetry (sub email : Str) : Bool → Lookup
  | true => accountForGooglePass cfg sub email (.done (.error none))
  | false => accountForGooglePass cfg sub email (accountForGooglePass cfg sub email (.done (.error none)))

def accountForGoogle (sub email : Str) : Lookup := accountForGoogleRetry cfg sub email false

def page (ok : Bool) (message : String) : AuthHandler := .done (.page ok (lit message))

/-- `fallback`. -/
def fallback (s : Str) (default : String) : Str := if lib.trimSpace s = [] then lit default else s

def closeWindow : AuthHandler := page true "You can close this window and return to Notepad++."

def googleFailed (message : Str) : AuthHandler :=
  .done (.page false (fallback lib message "Google sign-in failed. Return to Notepad++ and try again."))

/-- `fail` of `handleGoogleCallback`. -/
def failLogin (state code message : Str) : AuthHandler :=
  .call (.markOAuthError state code message) fun _ => .done (.page false message)

def notCompleted : Str := lit "Sign-in could not be completed. Return to Notepad++ and try again."

/-- The end of a callback, with the verified identity. -/
def completeLogin (state sub email : Str) : AuthHandler :=
  (accountForGoogle cfg sub email).bind fun
    | .error (some err) => failLogin state err.code err.message
    | .error none => failLogin state (lit "internal") notCompleted
    | .ok acct => .call (.markOAuthReady state acct.id) fun
      | .error _ => failLogin state (lit "internal") notCompleted
      | .ok _ => closeWindow

/-- A callback that claimed its login. -/
def exchangeLogin (state code : Str) (login : OAuthLogin) : AuthHandler :=
  .call (.exchangeGoogleCode code login.codeVerifier) fun
    | none => failLogin state (lit "google_exchange_failed")
        (lit "Google sign-in could not be completed. Return to Notepad++ and try again.")
    | some idToken => .call .now fun _ => .call (.verifyRS256IDToken idToken login.nonce) fun identity =>
      match identity.filter (fun ident => validGoogleSub ident.1 && validEmail (lib.normalizeEmail ident.2)) with
      | none => failLogin state (lit "google_token_rejected")
          (lit "Google sign-in could not be verified. Return to Notepad++ and try again.")
      | some ident => completeLogin cfg state ident.1 (lib.normalizeEmail ident.2)

def claimLogin (state code error : Str) : AuthHandler :=
  .call .now fun now => .call (.claimOAuthLogin state now) fun
    | .error _ => .call (.oauthLoginByState state) fun
      | .ok again => if again.status = .error then googleFailed lib again.errorMessage else closeWindow
      | .error _ => closeWindow
    | .ok login =>
      if error ≠ [] then failLogin state (lit "google_denied")
        (lit "Google did not complete sign-in. Return to Notepad++ and try again.")
      else if code = [] ∨ login.codeVerifier = [] then failLogin state (lit "invalid_request")
        (lit "Google did not return a sign-in code. Return to Notepad++ and try again.")
      else exchangeLogin lib cfg state code login

def handleGoogleCallback (state code error : Str) : AuthHandler :=
  if !cfg.googleEnabled then page false "Google sign-in is not configured on this server."
  else if state = [] then
    page false "This sign-in link is missing its state. Return to Notepad++ and try again."
  else .call (.oauthLoginByState state) fun
    | .error .notFound => page false "This sign-in session was not found. Return to Notepad++ and try again."
    | .error _ => .done (.page false notCompleted)
    | .ok existing => .call .now fun now =>
      if existing.expiresAt < now then page false "This sign-in expired. Return to Notepad++ and try again."
      else match existing.status with
        | .ready | .consumed | .exchanging => closeWindow
        | .error => googleFailed lib existing.errorMessage
        | .pending => claimLogin lib cfg state code error

/-- `oauthStatusError`. -/
def oauthStatusError (code message : Str) : APIError :=
  let status := if code = lit "registration_closed" then 403
    else if code = lit "google_email_taken" then 409
    else if code = lit "login_expired" then 410
    else if code = lit "google_sso_disabled" then 503
    else if code = lit "internal" then 500 else 400
  ⟨status,fallback lib code "google_signin_failed",fallback lib message "Google sign-in failed",none⟩

/-- A failed `finishGoogleLogin` opens the login again. -/
def reopen (state : Str) (err : APIError) : AuthHandler := .call (.reopenOAuthLogin state) fun _ => failedWith err

def finishGoogleLogin (acct : Account) (deviceName state : Str) (refreshToken : Option Str) : AuthHandler :=
  .call (.countActiveDevices acct.id) fun
    | .error _ => reopen state internalError
    | .ok count =>
      if cfg.maxDevices ≤ count then reopen state deviceLimit
      else .call (.createDevice acct.id (namedDevice lib deviceName)) fun
        | .error _ => reopen state internalError
        | .ok dev => respondWithTokens lib cfg acct.id dev.id refreshToken

/-- `handleGooglePoll` for a login that is ready. -/
def consumeLogin (login : OAuthLogin) (refreshToken : Option Str) : AuthHandler :=
  .call (.consumeOAuthLogin login.state) fun
    | .error _ => failedWith unauthorized
    | .ok _ => .call (.accountByID login.accountID) fun
      | .error _ => reopen login.state internalError
      | .ok acct => finishGoogleLogin lib cfg acct login.deviceName login.state refreshToken

/-- `PollSecretMatches`. -/
def pollSecretMatches (storedHash presented : Str) : Bool :=
  !(storedHash = [] || presented = []) && storedHash = hashTokenSHA256 lib presented

def rejectGooglePoll (draws : SignInDraws) : AuthHandler :=
  if !draws.allowed then failedWith rateLimited else failedWith unauthorized

def handleGooglePoll (state pollSecret : Str) (draws : SignInDraws) : AuthHandler :=
  if !cfg.googleEnabled then failedWith googleDisabled
  else if state = [] ∨ pollSecret = [] then failedWith (badRequest "state and poll_secret are required")
  else .call (.oauthLoginByState state) fun
    | .error .notFound => rejectGooglePoll draws
    | .error _ => failedWith internalError
    | .ok login =>
      if !pollSecretMatches lib login.pollSecretHash pollSecret then rejectGooglePoll draws
      else .call .now fun now =>
        if login.expiresAt < now then
          failedWith (apiError 410 "login_expired" "Google sign-in expired; start again")
        else match login.status with
          | .pending | .exchanging => .done .loginPending
          | .error => failedWith (oauthStatusError lib login.errorCode login.errorMessage)
          | .consumed => failedWith unauthorized
          | .ready => consumeLogin lib cfg login draws.refreshToken

/-! ### Endpoints -/

def handleAuth : AuthRequest → AuthHandler
  | .register body draws => handleRegister lib cfg body draws
  | .login body draws => handleLogin lib cfg body draws
  | .refresh refreshToken newToken => handleRefresh lib cfg refreshToken newToken
  | .logout claims => withAuth claims handleLogout
  | .revokeDevice claims target => withAuth claims fun claims => handleRevokeDevice claims target
  | .renameDevice claims target name => withAuth claims fun claims => handleRenameDevice lib claims target name
  | .authorized claims => withAuth claims fun claims => .done (.served claims.accountID claims.deviceID)
  | .webSocket claims => handleWebSocket claims
  | .googleStart deviceName allowed draws => handleGoogleStart lib cfg deviceName allowed draws
  | .googleCallback state code error => handleGoogleCallback lib cfg state code error
  | .googlePoll state pollSecret draws => handleGooglePoll lib cfg state pollSecret draws
  | .pair claims action => withAuth claims fun claims => handlePair claims action

abbrev AuthLedger := Ledger AuthState AuthCall AuthCall.Result AuthResponse AuthRequest

abbrev AuthMove := Move AuthRequest AuthEnv

/-- The authentication server, started empty, after any schedule of any requests. -/
def authRun (clock : Nat) (moves : List AuthMove) : AuthLedger :=
  run (Ledger.move (handleAuth lib cfg) execAuth) (Ledger.initial (AuthState.empty clock)) moves

end
end NPSync.Server
