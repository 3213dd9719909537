import NPSync.Server.AccessTokens
import NPSync.Server.GoogleRequests
import NPSync.Server.Pairing

/-! Where sessions come from: a device is made for an account once the sign-in has
shown a new account, the password or a consumed Google login, and tokens are
answered only for devices made so. -/
namespace NPSync.Server
open Library

/-- The account and device of an answer with tokens. -/
def AuthResponse.session : AuthResponse → Option (Str × Str)
  | .tokens accountID deviceID _ => some (accountID,deviceID)
  | _ => none

/-- The account a lookup or an insertion returned. -/
def returnedAccount : AuthEvent → Option Account
  | ⟨.createAccount _ _,.ok acct⟩ => some acct
  | ⟨.accountByEmail _,.ok acct⟩ => some acct
  | ⟨.accountByID _,.ok acct⟩ => some acct
  | _ => none

section
variable (lib : AuthLibrary)

/-- What a request has shown, in the calls it made, before a device is made for the account. -/
def Authenticated (request : AuthRequest) (log : List AuthEvent) (accountID : Str) : Prop :=
  match request with
  | .register body _ => ∃ hash acct, (⟨.createAccount (lib.normalizeEmail body.email) hash,.ok acct⟩ : AuthEvent) ∈ log ∧
      acct.id = accountID
  | .login body _ => ∃ acct, (⟨.accountByEmail (lib.normalizeEmail body.email),.ok acct⟩ : AuthEvent) ∈ log ∧
      acct.id = accountID ∧ lib.verifyPassword acct.passwordHash body.password = true
  | .googlePoll state secret _ => ∃ login consumed acct, (⟨.oauthLoginByState state,.ok login⟩ : AuthEvent) ∈ log ∧
      pollSecretMatches lib login.pollSecretHash secret = true ∧
      (⟨.consumeOAuthLogin login.state,.ok consumed⟩ : AuthEvent) ∈ log ∧
      (⟨.accountByID login.accountID,.ok acct⟩ : AuthEvent) ∈ log ∧ acct.id = accountID
  | _ => False

/-- The call creates the device for the account, or looks it up. -/
def ShowsDevice (event : AuthEvent) (accountID deviceID : Str) : Prop :=
  (∃ name dev, event = ⟨.createDevice accountID name,.ok dev⟩ ∧ dev.id = deviceID) ∨
    ∃ asked dev, event = ⟨.deviceByIDGlobal asked,.ok dev⟩ ∧ dev.id = deviceID ∧ dev.accountID = accountID

def SignInAllowed (request : AuthRequest) (log : List AuthEvent) (call : AuthCall) : Prop :=
  ∀ accountID name, call = .createDevice accountID name → Authenticated lib request log accountID

def SessionAnswer (log : List AuthEvent) (response : AuthResponse) : Prop :=
  ∀ session, response.session = some session → ∃ event ∈ log, ShowsDevice event session.1 session.2

def SignInServed (request : AuthRequest) (program : AuthHandler) (log : List AuthEvent) : Prop :=
  program.Keeps (SignInAllowed lib request) log ∧ program.Answers SessionAnswer log

variable {lib}

theorem Authenticated.mono {request : AuthRequest} {log : List AuthEvent} {accountID : Str}
    (signed : Authenticated lib request log accountID) (more : List AuthEvent) :
    Authenticated lib request (log ++ more) accountID := by
  cases request with
  | register body draws =>
    obtain ⟨hash,acct,made,same⟩ := signed
    exact ⟨hash,acct,List.mem_append_left _ made,same⟩
  | login body draws =>
    obtain ⟨acct,found,same,verified⟩ := signed
    exact ⟨acct,List.mem_append_left _ found,same,verified⟩
  | googlePoll state secret draws =>
    obtain ⟨login,consumed,acct,read,matching,done,found,same⟩ := signed
    exact ⟨login,consumed,acct,List.mem_append_left _ read,matching,List.mem_append_left _ done,
      List.mem_append_left _ found,same⟩
  | _ => exact signed.elim

/-- The account of a sign-in was returned by one of its calls. -/
theorem Authenticated.returned {request : AuthRequest} {log : List AuthEvent} {accountID : Str}
    (signed : Authenticated lib request log accountID) :
    ∃ event ∈ log, ∃ acct, returnedAccount event = some acct ∧ acct.id = accountID := by
  cases request with
  | register body draws =>
    obtain ⟨hash,acct,made,same⟩ := signed
    exact ⟨_,made,acct,rfl,same⟩
  | login body draws =>
    obtain ⟨acct,found,same,-⟩ := signed
    exact ⟨_,found,acct,rfl,same⟩
  | googlePoll state secret draws =>
    obtain ⟨login,consumed,acct,-,-,-,found,same⟩ := signed
    exact ⟨_,found,acct,rfl,same⟩
  | _ => exact signed.elim

theorem signInAllowed_of {call : AuthCall} (other : call.createsDevice = false) (request : AuthRequest)
    (log : List AuthEvent) : SignInAllowed lib request log call := by
  rintro accountID name rfl
  contradiction

theorem signInServed_done {request : AuthRequest} {log : List AuthEvent} (response : AuthResponse)
    (quiet : response.session = none) : SignInServed lib request (.done response) log := by
  refine ⟨trivial,fun session tokens => ?_⟩
  rw [quiet] at tokens
  contradiction

theorem signInServed_call {request : AuthRequest} {log : List AuthEvent} (op : AuthCall)
    (next : op.Result → AuthHandler) (allowed : SignInAllowed lib request log op)
    (rest : ∀ result, SignInServed lib request (next result) (log ++ [⟨op,result⟩])) :
    SignInServed lib request (.call op next) log :=
  ⟨⟨allowed,fun result => (rest result).1⟩,fun result => (rest result).2⟩

/-- A request that makes no device and answers no tokens. -/
theorem signInServed_quiet {request : AuthRequest} {program : AuthHandler} {log : List AuthEvent}
    (only : program.Only (fun call => call.createsDevice = false))
    (ends : program.Ends (fun response => response.session = none)) : SignInServed lib request program log := by
  refine ⟨only.keeps (fun log call other => signInAllowed_of other request log) log,
    Program.Ends.answers ends fun more response quiet session tokens => ?_⟩
  rw [quiet] at tokens
  contradiction

end

/-! ### Answers without tokens -/

section
variable (lib : AuthLibrary) (cfg : AuthConfig)

theorem checkDevice_quiet (claims : Option Claims) (next : Claims → AuthHandler)
    (rest : ∀ claims, (next claims).Ends (fun response => response.session = none)) :
    (checkDevice claims next).Ends (fun response => response.session = none) := by
  unfold checkDevice
  split
  · rfl
  · intro found
    cases found with
    | error err => rfl
    | ok dev =>
      dsimp only
      split
      · rfl
      · exact rest _

theorem withAuth_quiet (claims : Option Claims) (next : Claims → AuthHandler)
    (rest : ∀ claims, (next claims).Ends (fun response => response.session = none)) :
    (withAuth claims next).Ends (fun response => response.session = none) :=
  checkDevice_quiet claims _ fun claims _ => rest claims

theorem handlePair_quiet (claims : Claims) (action : PairAction) :
    (handlePair claims action).Ends (fun response => response.session = none) := by
  cases action with
  | request code =>
    cases code with
    | none => rfl
    | some code =>
      intro now created
      cases created <;> rfl
  | approve code wrapped =>
    simp only [handlePair,pairApprove]
    split
    · rfl
    split
    · rfl
    split
    · rfl
    intro found
    rcases found with err | pc
    · rfl
    dsimp only
    split
    · rfl
    split
    · rfl
    intro approved
    cases approved <;> rfl
  | poll code =>
    simp only [handlePair,pairPoll]
    split
    · rfl
    intro found
    rcases found with err | pc
    · rfl
    dsimp only
    split
    · rfl
    intro now
    dsimp only [answerPoll]
    split
    · rfl
    split
    · rfl
    intro consumed
    cases consumed <;> rfl
  | unknown => rfl

theorem devices_quiet (claims : Claims) (target name : Str) :
    (handleLogout claims).Ends (fun response => response.session = none) ∧
      (handleRevokeDevice claims target).Ends (fun response => response.session = none) ∧
      (handleRenameDevice lib claims target name).Ends (fun response => response.session = none) := by
  refine ⟨fun revoked => ?_,fun revoked => ?_,?_⟩
  · cases revoked <;> rfl
  · cases revoked <;> rfl
  · unfold handleRenameDevice
    dsimp only
    split
    · rfl
    · intro renamed
      cases renamed <;> rfl

theorem handleGoogleStart_quiet (deviceName : Str) (allowed : Bool) (draws : Option StartDraws) :
    (handleGoogleStart lib cfg deviceName allowed draws).Ends (fun response => response.session = none) := by
  simp only [handleGoogleStart]
  generalize (if lib.trimSpace deviceName = [] then defaultDeviceName else lib.trimSpace deviceName) = name
  split
  · rfl
  split
  · rfl
  split
  · rfl
  split
  · rfl
  · intro now created
    cases created <;> rfl

theorem completeLogin_quiet (state sub email : Str) :
    (completeLogin cfg state sub email).Ends (fun response => response.session = none) := by
  refine Program.ends_of_yields fun log value yields => ?_
  obtain ⟨first,second,found,-,-,after⟩ := Program.Yields.of_bind yields
  rcases found with err | acct
  · cases err with
    | none =>
      obtain ⟨marked,rest,-,-,rfl⟩ := after
      rfl
    | some err =>
      obtain ⟨marked,rest,-,-,rfl⟩ := after
      rfl
  · obtain ⟨marked,rest,-,ended⟩ := after
    cases marked with
    | error err =>
      obtain ⟨failed,others,-,-,rfl⟩ := ended
      rfl
    | ok done =>
      obtain ⟨-,rfl⟩ := ended
      rfl

/-- The browser's part of a Google sign-in ends with a page. -/
theorem handleGoogleCallback_quiet (state code error : Str) :
    (handleGoogleCallback lib cfg state code error).Ends (fun response => response.session = none) := by
  unfold handleGoogleCallback
  split
  · rfl
  split
  · rfl
  intro found
  rcases found with err | existing
  · cases err <;> rfl
  intro now
  dsimp only
  split
  · rfl
  split
  · rfl
  · rfl
  · rfl
  · rfl
  intro now claimed
  rcases claimed with err | login
  · intro again
    rcases again with err | again
    · rfl
    dsimp only
    split
    · rfl
    · rfl
  dsimp only
  split
  · exact fun _ => rfl
  split
  · exact fun _ => rfl
  intro exchanged
  cases exchanged with
  | none => exact fun _ => rfl
  | some idToken =>
    intro later identity
    dsimp only
    split
    · exact fun _ => rfl
    · exact completeLogin_quiet cfg state _ _

/-! ### Sign-ins -/

variable {lib cfg}

theorem respondWithTokens_signed {request : AuthRequest} {accountID deviceID : Str} {log : List AuthEvent}
    {event : AuthEvent} (member : event ∈ log) (shows : ShowsDevice event accountID deviceID) (token : Option Str) :
    SignInServed lib request (respondWithTokens lib cfg accountID deviceID token) log := by
  unfold respondWithTokens
  split
  · exact signInServed_done _ rfl
  rename_i refresh
  refine signInServed_call _ _ (signInAllowed_of rfl _ _) fun now =>
    signInServed_call _ _ (signInAllowed_of rfl _ _) fun created => ?_
  cases created with
  | error err => exact signInServed_done _ rfl
  | ok token =>
    refine ⟨trivial,fun session tokens => ?_⟩
    cases tokens
    exact ⟨event,List.mem_append_left _ (List.mem_append_left _ member),shows⟩

/-- The device of a sign-in, and the answer with its tokens. -/
theorem createDevice_signed {request : AuthRequest} {accountID : Str} {log : List AuthEvent} (name : Str)
    (token : Option Str) {failed : AuthHandler} (signed : Authenticated lib request log accountID)
    (fails : ∀ log, SignInServed lib request failed log) (next : Except AuthError DeviceRecord → AuthHandler)
    (lost : ∀ err, next (.error err) = failed)
    (made : ∀ dev, next (.ok dev) = respondWithTokens lib cfg accountID dev.id token) :
    SignInServed lib request (.call (.createDevice accountID name) next) log := by
  refine signInServed_call _ _ ?_ fun created => ?_
  · rintro other asked same
    cases same
    exact signed
  · cases created with
    | error err =>
      rw [lost]
      exact fails _
    | ok dev =>
      rw [made]
      exact respondWithTokens_signed (List.mem_append_right _ List.mem_cons_self) (.inl ⟨name,dev,rfl,rfl⟩) token

theorem issueTokens_signed {request : AuthRequest} {log : List AuthEvent} (acct : Account) (deviceName : Str)
    (token : Option Str) (signed : Authenticated lib request log acct.id) :
    SignInServed lib request (issueTokens lib cfg acct deviceName token) log := by
  refine signInServed_call _ _ (signInAllowed_of rfl _ _) fun counted => ?_
  cases counted with
  | error err => exact signInServed_done _ rfl
  | ok count =>
    simp only [orInternal]
    split
    · exact signInServed_done _ rfl
    · exact createDevice_signed deviceName token (signed.mono _) (fun _ => signInServed_done _ rfl) _ (fun _ => rfl) fun _ => rfl

theorem handleRegister_signed (body : Credentials) (draws : SignInDraws) :
    SignInServed lib (.register body draws) (handleRegister lib cfg body draws) [] := by
  unfold handleRegister
  split
  · exact signInServed_done _ rfl
  split
  · exact signInServed_done _ rfl
  split
  · exact signInServed_done _ rfl
  split
  · exact signInServed_done _ rfl
  split
  · exact signInServed_done _ rfl
  split
  · exact signInServed_done _ rfl
  rename_i hash _
  refine signInServed_call _ _ (signInAllowed_of rfl _ _) fun created => ?_
  rcases created with err | acct
  · cases err <;> exact signInServed_done _ rfl
  · exact issueTokens_signed acct _ _ ⟨hash,acct,List.mem_cons_self,rfl⟩

theorem checkPassword_signed (body : Credentials) (draws : SignInDraws) (acct : Account) {log : List AuthEvent}
    (found : (⟨.accountByEmail (lib.normalizeEmail body.email),.ok acct⟩ : AuthEvent) ∈ log) :
    SignInServed lib (.login body draws) (checkPassword lib cfg body draws acct) log := by
  unfold checkPassword
  split
  · exact signInServed_done _ rfl
  split
  · refine signInServed_call _ _ (signInAllowed_of rfl _ _) fun recorded => ?_
    cases recorded <;> exact signInServed_done _ rfl
  · rename_i verified
    have signed : Authenticated lib (.login body draws) log acct.id := ⟨acct,found,rfl,by simpa using verified⟩
    exact signInServed_call _ _ (signInAllowed_of rfl _ _) fun _ => issueTokens_signed acct _ _ (signed.mono _)

theorem handleLogin_signed (body : Credentials) (draws : SignInDraws) :
    SignInServed lib (.login body draws) (handleLogin lib cfg body draws) [] := by
  unfold handleLogin
  split
  · exact signInServed_done _ rfl
  refine signInServed_call _ _ (signInAllowed_of rfl _ _) fun found => ?_
  rcases found with err | acct
  · cases err <;> exact signInServed_done _ rfl
  dsimp only
  split
  · exact checkPassword_signed body draws acct List.mem_cons_self
  refine signInServed_call _ _ (signInAllowed_of rfl _ _) fun now => ?_
  split
  · exact signInServed_done _ rfl
  · exact checkPassword_signed body draws acct List.mem_cons_self

theorem handleRefresh_signed (refreshToken : Str) (newToken : Option Str) :
    SignInServed lib (.refresh refreshToken newToken) (handleRefresh lib cfg refreshToken newToken) [] := by
  unfold handleRefresh
  refine signInServed_call _ _ (signInAllowed_of rfl _ _) fun found => ?_
  rcases found with err | tok
  · cases err <;> exact signInServed_done _ rfl
  dsimp only
  split
  · exact signInServed_done _ rfl
  refine signInServed_call _ _ (signInAllowed_of rfl _ _) fun now => ?_
  split
  · exact signInServed_done _ rfl
  refine signInServed_call _ _ (signInAllowed_of rfl _ _) fun looked => ?_
  rcases looked with err | dev
  · exact signInServed_done _ rfl
  dsimp only
  split
  · exact signInServed_done _ rfl
  rename_i other active
  have same : dev = other := by
    split at active
    · exact Option.some.inj active
    · contradiction
  subst same
  split
  · exact signInServed_done _ rfl
  refine signInServed_call _ _ (signInAllowed_of rfl _ _) fun later =>
    signInServed_call _ _ (signInAllowed_of rfl _ _) fun rotated => ?_
  cases rotated with
  | error err => exact signInServed_done _ rfl
  | ok next =>
    refine ⟨trivial,fun session tokens => ?_⟩
    cases tokens
    exact ⟨⟨.deviceByIDGlobal tok.deviceID,.ok dev⟩,by simp,.inr ⟨tok.deviceID,dev,rfl,rfl,rfl⟩⟩

theorem reopen_signed {request : AuthRequest} (state : Str) (err : APIError) (log : List AuthEvent) :
    SignInServed lib request (reopen state err) log :=
  signInServed_call _ _ (signInAllowed_of rfl _ _) fun _ => signInServed_done _ rfl

theorem handleGooglePoll_signed (state secret : Str) (draws : SignInDraws) :
    SignInServed lib (.googlePoll state secret draws) (handleGooglePoll lib cfg state secret draws) [] := by
  have rejects : ∀ log, SignInServed lib (.googlePoll state secret draws) (rejectGooglePoll draws) log := by
    intro log
    unfold rejectGooglePoll
    split <;> exact signInServed_done _ rfl
  unfold handleGooglePoll
  split
  · exact signInServed_done _ rfl
  split
  · exact signInServed_done _ rfl
  refine signInServed_call _ _ (signInAllowed_of rfl _ _) fun read => ?_
  rcases read with err | login
  · cases err with
    | notFound => exact rejects _
    | _ => exact signInServed_done _ rfl
  dsimp only
  split
  · exact rejects _
  rename_i presented
  refine signInServed_call _ _ (signInAllowed_of rfl _ _) fun now => ?_
  split
  · exact signInServed_done _ rfl
  split
  · exact signInServed_done _ rfl
  · exact signInServed_done _ rfl
  · exact signInServed_done _ rfl
  · exact signInServed_done _ rfl
  refine signInServed_call _ _ (signInAllowed_of rfl _ _) fun consumed => ?_
  rcases consumed with err | consumed
  · exact signInServed_done _ rfl
  refine signInServed_call _ _ (signInAllowed_of rfl _ _) fun found => ?_
  rcases found with err | acct
  · exact reopen_signed _ _ _
  refine signInServed_call _ _ (signInAllowed_of rfl _ _) fun counted => ?_
  rcases counted with err | count
  · exact reopen_signed _ _ _
  dsimp only
  split
  · exact reopen_signed _ _ _
  apply createDevice_signed _ _ _ (reopen_signed login.state internalError) _ (fun _ => rfl) fun _ => rfl
  exact ⟨login,consumed,acct,by simp,by simpa using presented,by simp,by simp,rfl⟩

theorem handleAuth_signed (request : AuthRequest) : SignInServed lib request (handleAuth lib cfg request) [] := by
  have admits : ∀ call : AuthCall, call.plain = true → call.createsDevice = false :=
    fun _ plain => (AuthCall.plain_parts plain).2.2.2
  cases request with
  | register body draws => exact handleRegister_signed body draws
  | login body draws => exact handleLogin_signed body draws
  | googlePoll state secret draws => exact handleGooglePoll_signed state secret draws
  | refresh token newToken => exact handleRefresh_signed token newToken
  | logout claims =>
    exact signInServed_quiet (withAuth_only admits claims _ fun claims => (devices_only lib admits claims [] []).1)
      (withAuth_quiet claims _ fun claims => (devices_quiet lib claims [] []).1)
  | revokeDevice claims target =>
    exact signInServed_quiet (withAuth_only admits claims _ fun claims => (devices_only lib admits claims target []).2.1)
      (withAuth_quiet claims _ fun claims => (devices_quiet lib claims target []).2.1)
  | renameDevice claims target name =>
    exact signInServed_quiet (withAuth_only admits claims _ fun claims => (devices_only lib admits claims target name).2.2)
      (withAuth_quiet claims _ fun claims => (devices_quiet lib claims target name).2.2)
  | authorized claims =>
    exact signInServed_quiet (withAuth_only admits claims _ fun _ => trivial) (withAuth_quiet claims _ fun _ => rfl)
  | webSocket claims =>
    exact signInServed_quiet (checkDevice_only admits claims _ fun _ => trivial) (checkDevice_quiet claims _ fun _ => rfl)
  | googleStart deviceName allowed draws =>
    exact signInServed_quiet (handleGoogleStart_only lib cfg (fun _ _ other => other) deviceName allowed draws)
      (handleGoogleStart_quiet lib cfg deviceName allowed draws)
  | googleCallback state code error =>
    exact signInServed_quiet (handleGoogleCallback_only lib cfg (fun _ _ other => other) state code error)
      (handleGoogleCallback_quiet lib cfg state code error)
  | pair claims action =>
    exact signInServed_quiet
      (withAuth_only admits claims _ fun claims => handlePair_only (fun _ _ _ other _ => other) claims action)
      (withAuth_quiet claims _ fun claims => handlePair_quiet claims action)

end

/-! ### Devices and accounts of the store -/

/-- Some call created the device for the account. -/
def Created (history : List AuthEntry) (accountID deviceID : Str) : Prop :=
  ∃ entry ∈ history, ∃ name dev, entry.event = ⟨.createDevice accountID name,.ok dev⟩ ∧ dev.id = deviceID

/-- `uuidFn` is `NewUUID`. -/
def UuidDrawn (_ : AuthLedger) : AuthMove → Prop
  | .spawn _ => True
  | .step _ env => Drawn env.uuid

theorem Created.snoc {history : List AuthEntry} {accountID deviceID : Str} (created : Created history accountID deviceID)
    (entry : AuthEntry) : Created (history ++ [entry]) accountID deviceID := by
  obtain ⟨made,member,event⟩ := created
  exact ⟨made,List.mem_append_left _ member,event⟩

/-- A stored device was stored under its name before, or is made by the call. -/
theorem execAuth_devices (env : AuthEnv) (s : AuthState) (call : AuthCall) (id : Str) (dev : DeviceRecord)
    (found : (execAuth env s call).2.mem.devices.get id = some dev) :
    (∃ old, s.mem.devices.get id = some old ∧ dev.id = old.id ∧ dev.accountID = old.accountID) ∨
      (id = env.uuid ∧ dev.id = id ∧
        ∃ name, (⟨call,(execAuth env s call).1⟩ : AuthEvent) = ⟨.createDevice dev.accountID name,.ok dev⟩) := by
  have same : ∀ {after : AuthMem}, after.devices = s.mem.devices → after.devices.get id = some dev →
      ∃ old, s.mem.devices.get id = some old ∧ dev.id = old.id ∧ dev.accountID = old.accountID := by
    intro after devices there
    exact ⟨dev,devices ▸ there,rfl,rfl⟩
  have changed : ∀ (new : DeviceRecord) {key : Str} {old : DeviceRecord}, s.mem.devices.get key = some old →
      new.id = old.id ∧ new.accountID = old.accountID → (s.mem.devices.upsert key new).get id = some dev →
      ∃ old, s.mem.devices.get id = some old ∧ dev.id = old.id ∧ dev.accountID = old.accountID := by
    intro new key old before kept there
    rw [Table.get_upsert] at there
    split at there
    · rename_i here
      cases there
      exact ⟨old,here ▸ before,kept⟩
    · exact ⟨dev,there,rfl,rfl⟩
  have step : ∀ {X : Type} (out : Except AuthError X × AuthMem),
      (attempt env {s with clock := s.clock + env.elapsed} out).2.mem.devices.get id = some dev →
      s.mem.devices.get id = some dev ∨ out.2.devices.get id = some dev := by
    intro X out there
    rcases attempt_cases env {s with clock := s.clock + env.elapsed} out with failed | done
    · rw [failed] at there
      exact .inl there
    · rw [done] at there
      exact .inr there
  cases call with
  | createDevice owner name =>
    simp only [execAuth,execAuthAt] at found ⊢
    rcases attempt_cases env {s with clock := s.clock + env.elapsed}
      (.ok (s.mem.createDevice owner name env.uuid (s.clock + env.elapsed)).1,
        (s.mem.createDevice owner name env.uuid (s.clock + env.elapsed)).2) with failed | done
    · rw [failed] at found
      exact .inl ⟨dev,found,rfl,rfl⟩
    · rw [done] at found ⊢
      have stored : (s.mem.devices.upsert env.uuid (s.mem.createDevice owner name env.uuid (s.clock + env.elapsed)).1).get id =
          some dev := found
      rw [Table.get_upsert] at stored
      split at stored
      · rename_i here
        cases stored
        exact .inr ⟨here,here.symm,name,rfl⟩
      · exact .inl ⟨dev,stored,rfl,rfl⟩
  | renameDevice owner deviceID name =>
    left
    rcases step _ found with there | there
    · exact ⟨dev,there,rfl,rfl⟩
    · unfold AuthMem.renameDevice at there
      split at there
      · exact same rfl there
      · rename_i d before
        exact changed {d with name := name} (deviceByID_ok before) ⟨rfl,rfl⟩ there
  | revokeDevice owner deviceID =>
    left
    rcases step _ found with there | there
    · exact ⟨dev,there,rfl,rfl⟩
    · unfold AuthMem.revokeDevice at there
      split at there
      · exact same rfl there
      · rename_i d before
        exact changed {d with revokedAt := some (s.clock + env.elapsed)} (deviceByID_ok before) ⟨rfl,rfl⟩ there
  | touchDevice deviceID =>
    left
    rcases step (X := Unit) (.ok (),s.mem.touchDevice deviceID (s.clock + env.elapsed)) found with there | there
    · exact ⟨dev,there,rfl,rfl⟩
    · dsimp only at there
      unfold AuthMem.touchDevice at there
      split at there
      · exact same rfl there
      · rename_i d before
        exact changed {d with lastSeenAt := s.clock + env.elapsed} before ⟨rfl,rfl⟩ there
  | _ => exact .inl (same ((execAuth_sameBut env s _).devices (by simp [AuthCall.part])) found)

/-- What an account lookup or insertion returns is stored, or was made with the drawn identifier. -/
theorem execAuth_returnedAccount (env : AuthEnv) (s : AuthState) (call : AuthCall) (acct : Account)
    (returned : returnedAccount ⟨call,(execAuth env s call).1⟩ = some acct) :
    acct.id = env.uuid ∨ ∃ id, s.mem.accounts.get id = some acct := by
  have step : ∀ out : Except AuthError Account × AuthMem,
      (attempt env {s with clock := s.clock + env.elapsed} out).1 = .ok acct → out.1 = .ok acct := by
    intro out answered
    rcases attempt_cases env {s with clock := s.clock + env.elapsed} out with failed | done
    · rw [failed] at answered
      contradiction
    · rw [done] at answered
      exact answered
  cases call with
  | createAccount email hash =>
    left
    simp only [execAuth,execAuthAt] at returned
    cases answered : (attempt env {s with clock := s.clock + env.elapsed} (s.mem.createAccount email hash env.uuid)).1 with
    | error err =>
      rw [answered] at returned
      contradiction
    | ok made =>
      rw [answered] at returned
      cases returned
      have created := step _ answered
      unfold AuthMem.createAccount AuthMem.insertAccountLocked at created
      split at created
      · contradiction
      · cases created
        rfl
  | accountByEmail email =>
    right
    simp only [execAuth,execAuthAt] at returned
    cases answered : (attempt env {s with clock := s.clock + env.elapsed} (s.mem.accountByEmail email,s.mem)).1 with
    | error err =>
      rw [answered] at returned
      contradiction
    | ok found =>
      rw [answered] at returned
      cases returned
      obtain ⟨id,-,stored⟩ := indexed_ok (step _ answered)
      exact ⟨id,stored⟩
  | accountByID id =>
    right
    cases answered : (execAuth env s (.accountByID id)).1 with
    | error err =>
      rw [answered] at returned
      contradiction
    | ok found =>
      rw [answered] at returned
      cases returned
      exact ⟨id,execAuth_accountByID env s id acct answered⟩
  | _ => contradiction

/-! ### Runs -/

/-- The accounts and devices of the store and those that calls returned have drawn
identifiers, and every device was created for its account. -/
structure DevicesInv (l : AuthLedger) : Prop where
  accounts : ∀ id acct, l.shared.mem.accounts.get id = some acct → Drawn acct.id
  returned : ∀ entry ∈ l.history, ∀ acct, returnedAccount entry.event = some acct → Drawn acct.id
  devices : ∀ id dev, l.shared.mem.devices.get id = some dev →
    Drawn dev.id ∧ Drawn dev.accountID ∧ Created l.history dev.accountID dev.id
  shown : ∀ entry ∈ l.history, ∀ accountID deviceID, ShowsDevice entry.event accountID deviceID →
    Drawn deviceID ∧ Drawn accountID ∧ Created l.history accountID deviceID

theorem execAuth_created {env : AuthEnv} {s : AuthState} {call : AuthCall} {accountID name : Str} {dev : DeviceRecord}
    (made : (⟨call,(execAuth env s call).1⟩ : AuthEvent) = ⟨.createDevice accountID name,.ok dev⟩) : dev.id = env.uuid := by
  obtain rfl : call = .createDevice accountID name := congrArg Event.op made
  have answered : (execAuth env s (.createDevice accountID name)).1 = .ok dev := eq_of_heq (Event.mk.inj made).2
  simp only [execAuth,execAuthAt] at answered
  rcases attempt_cases env {s with clock := s.clock + env.elapsed}
    (.ok (s.mem.createDevice accountID name env.uuid (s.clock + env.elapsed)).1,
      (s.mem.createDevice accountID name env.uuid (s.clock + env.elapsed)).2) with failed | done
  · rw [failed] at answered
    contradiction
  · rw [done] at answered
    cases answered
    rfl

theorem execAuth_looked {env : AuthEnv} {s : AuthState} {call : AuthCall} {asked : Str} {dev : DeviceRecord}
    (looked : (⟨call,(execAuth env s call).1⟩ : AuthEvent) = ⟨.deviceByIDGlobal asked,.ok dev⟩) :
    s.mem.devices.get asked = some dev := by
  obtain rfl : call = .deviceByIDGlobal asked := congrArg Event.op looked
  have answered : (execAuth env s (.deviceByIDGlobal asked)).1 = .ok dev := eq_of_heq (Event.mk.inj looked).2
  simp only [execAuth,execAuthAt] at answered
  rcases attempt_cases env {s with clock := s.clock + env.elapsed} (s.mem.deviceByIDGlobal asked,s.mem) with failed | done
  · rw [failed] at answered
    contradiction
  · rw [done] at answered
    simp only [AuthMem.deviceByIDGlobal] at answered
    split at answered
    · contradiction
    · rename_i d found
      rw [found,Except.ok.inj answered]

theorem AccountStep.drawn {m after : AuthMem} {uuid : Str} (step : AccountStep m after uuid) (fresh : Drawn uuid)
    (drawn : ∀ id acct, m.accounts.get id = some acct → Drawn acct.id) (id : Str) (acct : Account)
    (found : after.accounts.get id = some acct) : Drawn acct.id := by
  have put : ∀ (key : Str) (new : Account), after.accounts = m.accounts.upsert key new → Drawn new.id → Drawn acct.id := by
    intro key new accounts own
    rw [accounts,Table.get_upsert] at found
    split at found
    · cases found
      exact own
    · exact drawn id acct found
  cases step with
  | quiet accounts emails subjects => exact drawn id acct (accounts ▸ found)
  | created email hash sub newEmail newSub accounts emails subjects => exact put uuid _ accounts fresh
  | linked key sub old there unlinked nonempty free accounts emails subjects => exact put key _ accounts (drawn key old there)
  | counted key old new there equal accounts emails subjects => exact put key new accounts (equal.1 ▸ drawn key old there)

section
variable {lib : AuthLibrary} {cfg : AuthConfig}

theorem devicesInv_called {l : AuthLedger} (inv : DevicesInv l) (logged : l.Logged) {index : Nat} {env : AuthEnv}
    {request : AuthRequest} {op : AuthCall} {next : op.Result → AuthHandler} {log : List AuthEvent}
    (served : SignInServed lib request (.call op next) log) (drawn : Drawn env.uuid)
    (serves : l.Serves index request (.call op next) log) :
    DevicesInv (Ledger.called execAuth l index env request op next log) := by
  -- the account of a new device was returned to the same request
  have owner : ∀ accountID name, op = .createDevice accountID name → Drawn accountID := by
    intro accountID name creates
    obtain ⟨event,member,acct,returned,rfl⟩ := (served.1.1 accountID name creates).returned
    rw [logged.logs index request _ log serves] at member
    obtain ⟨entry,there,-,rfl⟩ := Ledger.mem_callsOf.mp member
    exact inv.returned entry there acct returned
  have last : ∀ accountID name dev,
      (⟨op,(execAuth env l.shared op).1⟩ : AuthEvent) = ⟨.createDevice accountID name,.ok dev⟩ →
      Drawn dev.id ∧ Drawn accountID ∧
        Created (Ledger.called execAuth l index env request op next log).history accountID dev.id := by
    intro accountID name dev made
    refine ⟨execAuth_created made ▸ drawn,owner accountID name (congrArg Event.op made),?_⟩
    exact ⟨_,List.mem_append_right _ List.mem_cons_self,name,dev,made,rfl⟩
  refine ⟨(execAuth_accounts env l.shared op).drawn drawn inv.accounts,?_,?_,?_⟩
  · intro entry member acct returned
    rcases List.mem_append.mp member with before | now
    · exact inv.returned entry before acct returned
    · rw [List.mem_singleton.mp now] at returned
      rcases execAuth_returnedAccount env l.shared op acct returned with made | ⟨id,stored⟩
      · exact made ▸ drawn
      · exact inv.accounts id acct stored
  · intro id dev found
    rcases execAuth_devices env l.shared op id dev found with ⟨old,stored,name,account⟩ | ⟨-,-,name,made⟩
    · obtain ⟨device,owned,created⟩ := inv.devices id old stored
      rw [name,account]
      exact ⟨device,owned,created.snoc _⟩
    · exact last dev.accountID name dev made
  · intro entry member accountID deviceID shows
    rcases List.mem_append.mp member with before | now
    · obtain ⟨device,owned,created⟩ := inv.shown entry before accountID deviceID shows
      exact ⟨device,owned,created.snoc _⟩
    · rw [List.mem_singleton.mp now] at shows
      rcases shows with ⟨name,dev,made,rfl⟩ | ⟨asked,dev,looked,rfl,rfl⟩
      · exact last accountID name dev made
      · obtain ⟨device,owned,created⟩ := inv.devices asked dev (execAuth_looked looked)
        exact ⟨device,owned,created.snoc _⟩

variable (lib cfg)

theorem authRun_devices (clock : Nat) (moves : List AuthMove)
    (drawn : Guarded (Ledger.move (handleAuth lib cfg) execAuth) UuidDrawn (Ledger.initial (AuthState.empty clock)) moves) :
    DevicesInv (authRun lib cfg clock moves) ∧
      Ledger.Served (SignInServed lib) (authRun lib cfg clock moves) ∧ (authRun lib cfg clock moves).Logged := by
  refine Ledger.ledger_invariant (SignInServed lib) UuidDrawn DevicesInv handleAuth_signed ?_ ?_ ?_ _ moves ?_ drawn
  · exact fun request op next log served result => ⟨served.1.2 result,served.2 result⟩
  · exact fun l request logged inv => ⟨inv.accounts,inv.returned,inv.devices,inv.shown⟩
  · exact fun l index env request op next log inv served logged fresh serves =>
      devicesInv_called inv logged (served index request _ log serves) fresh serves
  · constructor <;> simp [Ledger.initial,AuthState.empty,AuthMem.newMem]

/-- Whoever is answered with tokens has a device that a sign-in to the account made. -/
theorem tokens_signed_in (clock : Nat) (moves : List AuthMove)
    (drawn : Guarded (Ledger.move (handleAuth lib cfg) execAuth) UuidDrawn (Ledger.initial (AuthState.empty clock)) moves)
    {index : Nat} {request : AuthRequest} {response : AuthResponse} {log : List AuthEvent} {accountID deviceID : Str}
    (serves : (authRun lib cfg clock moves).Serves index request (.done response) log)
    (session : response.session = some (accountID,deviceID)) :
    Drawn accountID ∧ Drawn deviceID ∧ ∃ past entry future name dev,
      (authRun lib cfg clock moves).history = past ++ entry::future ∧
      entry.event = ⟨.createDevice accountID name,.ok dev⟩ ∧ dev.id = deviceID ∧
      Authenticated lib entry.request (Ledger.callsOf past entry.index) accountID := by
  obtain ⟨inv,served,logged⟩ := authRun_devices lib cfg clock moves drawn
  obtain ⟨event,member,shows⟩ := (served index request _ log serves).2 _ session
  rw [logged.logs index request _ log serves] at member
  obtain ⟨shown,there,-,rfl⟩ := Ledger.mem_callsOf.mp member
  obtain ⟨device,account,entry,made,name,dev,created,same⟩ := inv.shown shown there accountID deviceID shows
  obtain ⟨past,future,split⟩ := List.append_of_mem made
  have allowed : SignInAllowed lib entry.request (Ledger.callsOf past entry.index) entry.event.op :=
    Ledger.ledger_disciplined (SignInAllowed lib) (fun request => (handleAuth_signed request).1) (AuthState.empty clock) moves
      past entry future split
  exact ⟨account,device,past,entry,future,name,dev,split,created,same,allowed accountID name (congrArg Event.op created)⟩

end
end NPSync.Server
