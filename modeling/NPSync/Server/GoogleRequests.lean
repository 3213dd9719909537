import NPSync.Server.Accounts

/-! Google sign-in, call by call: what a store call does to a login, and what a
start, callback or poll request has done before each of its calls. -/
namespace NPSync.Server
open Library

def startedLogin : AuthEvent → Option OAuthLogin
  | ⟨.createOAuthLogin login,.ok _⟩ => some login
  | _ => none

def claimedState : AuthEvent → Option Str
  | ⟨.claimOAuthLogin state _,.ok _⟩ => some state
  | _ => none

/-- The state and the account of an accepted `MarkOAuthReady`. -/
def readyState : AuthEvent → Option (Str × Str)
  | ⟨.markOAuthReady state accountID,.ok _⟩ => some (state,accountID)
  | _ => none

def consumedState : AuthEvent → Option Str
  | ⟨.consumeOAuthLogin state,.ok _⟩ => some state
  | _ => none

def reopenedState : AuthEvent → Option Str
  | ⟨.reopenOAuthLogin state,_⟩ => some state
  | _ => none

def isExchange : AuthEvent → Bool
  | ⟨.exchangeGoogleCode _ _,_⟩ => true
  | _ => false

/-- The state a call asked for, with the login it returned. -/
def returnedLogin : AuthEvent → Option (Str × OAuthLogin)
  | ⟨.oauthLoginByState state,.ok login⟩ => some (state,login)
  | ⟨.claimOAuthLogin state _,.ok login⟩ => some (state,login)
  | _ => none

/-- The state whose login a successful call changed. -/
def changedState : AuthEvent → Option Str
  | ⟨.createOAuthLogin login,.ok _⟩ => some login.state
  | ⟨.claimOAuthLogin state _,.ok _⟩ => some state
  | ⟨.markOAuthReady state _,.ok _⟩ => some state
  | ⟨.markOAuthError state _ _,.ok _⟩ => some state
  | ⟨.consumeOAuthLogin state,.ok _⟩ => some state
  | ⟨.reopenOAuthLogin state,.ok _⟩ => some state
  | _ => none

/-! ### The store -/

/-- The transitions of a stored login. -/
inductive LoginMove (state : Str) : AuthEvent → OAuthLogin → OAuthLogin → Prop
  | claimed (now : Nat) (login : OAuthLogin) (was : login.status = .pending) :
    LoginMove state ⟨.claimOAuthLogin state now,.ok {login with status := .exchanging}⟩ login
      {login with status := .exchanging}
  | ready (accountID : Str) (login after : OAuthLogin) (was : login.status = .exchanging)
    (next : after = {login with
      status := .ready,accountID := accountID,codeVerifier := [],errorCode := [],errorMessage := []}) : LoginMove state ⟨.markOAuthReady state accountID,.ok after⟩ login after
  | failed (code message : Str) (login after : OAuthLogin) (was : login.status = .exchanging)
    (next : after = {login with
      status := .error,errorCode := code,errorMessage := message,codeVerifier := []}) :
    LoginMove state ⟨.markOAuthError state code message,.ok after⟩ login after
  | consumed (login after : OAuthLogin) (was : login.status = .ready)
    (next : after = {login with status := .consumed,codeVerifier := []}) :
    LoginMove state ⟨.consumeOAuthLogin state,.ok after⟩ login after
  | reopened (login after : OAuthLogin) (was : login.status = .consumed)
    (next : after = {login with status := .ready}) : LoginMove state ⟨.reopenOAuthLogin state,.ok after⟩ login after

/-- What a login keeps from its creation. -/
def SameLogin (created login : OAuthLogin) : Prop :=
  login.state = created.state ∧ login.nonce = created.nonce ∧ login.pollSecretHash = created.pollSecretHash ∧
    login.expiresAt = created.expiresAt

/-- What one call can do to the login of a state. -/
inductive LoginStep (state : Str) (event : AuthEvent) (old new : Option OAuthLogin) : Prop
  | quiet (other : changedState event ≠ some state) (kept : ∀ login, new = some login → old = some login)
  | started (login row : OAuthLogin) (made : startedLogin event = some login) (named : login.state = state)
      (same : SameLogin login row) (status : row.status = login.status) (stored : new = some row)
  | moved (login after : OAuthLogin) (move : LoginMove state event login after) (found : old = some login)
      (stored : new = some after)

theorem changeLogin_cases (m : AuthMem) (state : Str) (allowed : OAuthLogin → Bool) (change : OAuthLogin → OAuthLogin) :
    (∃ err, m.changeLogin state allowed change = (.error err,m)) ∨
      ∃ login, m.oauth.get state = some login ∧ allowed login = true ∧
        m.changeLogin state allowed change = (.ok (change login),{m with oauth := m.oauth.upsert state (change login)}) := by
  unfold AuthMem.changeLogin
  split
  · exact .inl ⟨_,rfl⟩
  · rename_i login found
    split
    · rename_i fits
      exact .inr ⟨login,found,fits,rfl⟩
    · exact .inl ⟨_,rfl⟩

theorem changedState_part {event : AuthEvent} {state : Str} (changed : changedState event = some state) :
    event.op.part = some .logins := by
  unfold changedState at changed
  split at changed
  · rfl
  · rfl
  · rfl
  · rfl
  · rfl
  · rfl
  · contradiction

/-- The login that a successful claim returns is the one it leaves. -/
theorem LoginStep.claimed_row {state : Str} {now : Nat} {claimed : OAuthLogin} {old new : Option OAuthLogin}
    (step : LoginStep state ⟨.claimOAuthLogin state now,.ok claimed⟩ old new) : new = some claimed := by
  cases step with
  | quiet other kept => exact absurd rfl other
  | started login row made named same status stored => contradiction
  | moved login after move found stored =>
    cases move
    exact stored

/-- A transition that the store makes, or refuses without a trace. -/
theorem loginStep_of_change {before after : Table Str OAuthLogin} {asked : Str} {result : Except AuthError OAuthLogin}
    (event : Except AuthError OAuthLogin → AuthEvent) (refused : ∀ err, changedState (event (.error err)) = none)
    (named : ∀ login, changedState (event (.ok login)) = some asked)
    (changed : (∃ err, result = .error err ∧ after = before) ∨ ∃ login next, before.get asked = some login ∧
      LoginMove asked (event (.ok next)) login next ∧ result = .ok next ∧ after = before.upsert asked next) (state : Str) :
    LoginStep state (event result) (before.get state) (after.get state) := by
  rcases changed with ⟨err,rfl,rfl⟩ | ⟨login,next,found,move,rfl,rfl⟩
  · apply LoginStep.quiet
    · rw [refused err]
      exact nofun
    · exact fun _ same => same
  by_cases here : state = asked
  · subst here
    exact .moved login next move found (Table.get_upsert_same _ _ _)
  · apply LoginStep.quiet
    · rw [named]
      exact fun equal => here (Option.some.inj equal).symm
    · intro other stored
      rwa [Table.get_upsert_other _ _ _ _ here] at stored

/-- An insert after a purge: a new row, or none. -/
theorem loginStep_of_insert {before purged after : Table Str OAuthLogin} {login : OAuthLogin} {result : Except AuthError Unit}
    (purges : ∀ state other, purged.get state = some other → before.get state = some other)
    (inserted : (∃ err, result = .error err ∧ (after = before ∨ after = purged)) ∨ ∃ row, result = .ok () ∧
      SameLogin login row ∧ row.status = login.status ∧ after = purged.upsert login.state row) (state : Str) :
    LoginStep state ⟨.createOAuthLogin login,result⟩ (before.get state) (after.get state) := by
  rcases inserted with ⟨err,rfl,rfl | rfl⟩ | ⟨row,rfl,same,status,rfl⟩
  · exact .quiet nofun fun _ same => same
  · exact .quiet nofun (purges state)
  by_cases here : state = login.state
  · refine .started login row rfl here.symm same status ?_
    rw [here]
    exact Table.get_upsert_same _ _ _
  · apply LoginStep.quiet
    · exact fun equal => here (Option.some.inj equal).symm
    · intro other stored
      rw [Table.get_upsert_other _ _ _ _ here] at stored
      exact purges state other stored

theorem changeLogin_step (env : AuthEnv) (s : AuthState) (asked state : Str) (allowed : OAuthLogin → Bool)
    (change : OAuthLogin → OAuthLogin) (event : Except AuthError OAuthLogin → AuthEvent)
    (refused : ∀ err, changedState (event (.error err)) = none)
    (named : ∀ login, changedState (event (.ok login)) = some asked)
    (moves : ∀ login, allowed login = true → LoginMove asked (event (.ok (change login))) login (change login)) :
    LoginStep state (event (attempt env s (s.mem.changeLogin asked allowed change)).1) (s.mem.oauth.get state)
      ((attempt env s (s.mem.changeLogin asked allowed change)).2.mem.oauth.get state) := by
  apply loginStep_of_change event refused named
  rcases attempt_cases env s (s.mem.changeLogin asked allowed change) with same | same
  · exact .inl ⟨_,by rw [same],by rw [same]⟩
  rcases changeLogin_cases s.mem asked allowed change with ⟨err,unchanged⟩ | ⟨login,found,fits,changed⟩
  · exact .inl ⟨err,by rw [same,unchanged],by rw [same,unchanged]⟩
  · exact .inr ⟨login,change login,found,moves login fits,by rw [same,changed],by rw [same,changed]⟩

theorem createOAuthLogin_step (env : AuthEnv) (s : AuthState) (login : OAuthLogin) (state : Str) :
    LoginStep state ⟨.createOAuthLogin login,(attempt env s (s.mem.createOAuthLogin login s.clock)).1⟩
      (s.mem.oauth.get state) ((attempt env s (s.mem.createOAuthLogin login s.clock)).2.mem.oauth.get state) := by
  have purged : ∀ state other, (s.mem.purgeExpiredOAuthLocked s.clock).oauth.get state = some other →
      s.mem.oauth.get state = some other := by
    intro state other stored
    simp only [AuthMem.purgeExpiredOAuthLocked,Table.get_filterValues] at stored
    exact (Option.filter_eq_some_iff.mp stored).1
  apply loginStep_of_insert purged
  rcases attempt_cases env s (s.mem.createOAuthLogin login s.clock) with same | same
  · exact .inl ⟨_,by rw [same],.inl (by rw [same])⟩
  rw [same]
  unfold AuthMem.createOAuthLogin
  dsimp only
  split
  · exact .inl ⟨_,rfl,.inr rfl⟩
  · exact .inr ⟨login,rfl,⟨rfl,rfl,rfl,rfl⟩,rfl,rfl⟩

theorem execAuth_login (env : AuthEnv) (s : AuthState) (call : AuthCall) (state : Str) :
    LoginStep state ⟨call,(execAuth env s call).1⟩ (s.mem.oauth.get state)
      ((execAuth env s call).2.mem.oauth.get state) := by
  by_cases part : call.part = some .logins
  · let s' := {s with clock := s.clock + env.elapsed}
    cases call with
    | createOAuthLogin login => exact createOAuthLogin_step env s' login state
    | claimOAuthLogin asked now =>
      refine changeLogin_step env s' asked state _ _ (fun result => ⟨.claimOAuthLogin asked now,result⟩)
        (fun _ => rfl) (fun _ => rfl) fun login fits => ?_
      exact .claimed now login (of_decide_eq_true fits).1
    | markOAuthReady asked accountID =>
      refine changeLogin_step env s' asked state _ _ (fun result => ⟨.markOAuthReady asked accountID,result⟩)
        (fun _ => rfl) (fun _ => rfl) fun login fits => ?_
      exact .ready accountID login _ (of_decide_eq_true fits) rfl
    | markOAuthError asked code message =>
      refine changeLogin_step env s' asked state _ _ (fun result => ⟨.markOAuthError asked code message,result⟩)
        (fun _ => rfl) (fun _ => rfl) fun login fits => ?_
      exact .failed code message login _ (of_decide_eq_true fits) rfl
    | consumeOAuthLogin asked =>
      refine changeLogin_step env s' asked state _ _ (fun result => ⟨.consumeOAuthLogin asked,result⟩)
        (fun _ => rfl) (fun _ => rfl) fun login fits => ?_
      exact .consumed login _ (of_decide_eq_true fits) rfl
    | reopenOAuthLogin asked =>
      refine changeLogin_step env s' asked state _ _ (fun result => ⟨.reopenOAuthLogin asked,result⟩)
        (fun _ => rfl) (fun _ => rfl) fun login fits => ?_
      exact .reopened login _ (of_decide_eq_true fits) rfl
    | _ => cases part
  · apply LoginStep.quiet
    · exact fun changed => part (changedState_part changed)
    · intro login stored
      rwa [(execAuth_sameBut env s call).logins part] at stored

/-- A login that a call returns is the stored one. -/
theorem execAuth_returned (env : AuthEnv) (s : AuthState) (call : AuthCall) (state : Str) (login : OAuthLogin)
    (returned : returnedLogin ⟨call,(execAuth env s call).1⟩ = some (state,login)) :
    (execAuth env s call).2.mem.oauth.get state = some login := by
  cases call with
  | oauthLoginByState asked =>
    simp only [execAuth,execAuthAt] at returned ⊢
    rcases attempt_cases env {s with clock := s.clock + env.elapsed} (s.mem.oauthLoginByState asked,s.mem) with
      same | same
    · rw [same] at returned
      contradiction
    rw [same] at returned ⊢
    unfold AuthMem.oauthLoginByState at returned
    cases found : s.mem.oauth.get asked with
    | none =>
      rw [found] at returned
      contradiction
    | some stored =>
      rw [found] at returned
      cases returned
      exact found
  | claimOAuthLogin asked now =>
    cases result : (execAuth env s (.claimOAuthLogin asked now)).1 with
    | error err =>
      rw [result] at returned
      contradiction
    | ok claimed =>
      have step := execAuth_login env s (.claimOAuthLogin asked now) asked
      rw [result] at returned step
      cases returned
      exact step.claimed_row
  | _ => contradiction

theorem execAuth_accountByID (env : AuthEnv) (s : AuthState) (id : Str) (acct : Account)
    (result : (execAuth env s (.accountByID id)).1 = .ok acct) : s.mem.accounts.get id = some acct := by
  simp only [execAuth,execAuthAt] at result
  rcases attempt_cases env {s with clock := s.clock + env.elapsed} (s.mem.accountByID id,s.mem) with same | same
  · rw [same] at result
    contradiction
  rw [same] at result
  unfold AuthMem.accountByID at result
  cases found : s.mem.accounts.get id with
  | none =>
    rw [found] at result
    contradiction
  | some stored =>
    rw [found] at result
    rw [Except.ok.inj result]

/-! ### The requests -/

/-- The thread consumed the login and has not tried to open it again. -/
def Ticket (state : Str) (log : List AuthEvent) : Prop :=
  (∃ event ∈ log, consumedState event = some state) ∧ ∀ event ∈ log, reopenedState event ≠ some state

section
variable (lib : AuthLibrary) (cfg : AuthConfig)

/-- The calls of a callback that claimed the login of its state. -/
def ClaimCalls (state : Str) (login : OAuthLogin) (log : List AuthEvent) : Prop :=
  ∃ existing now later, log = [⟨.oauthLoginByState state,.ok existing⟩,⟨.now,now⟩,⟨.now,later⟩,
    ⟨.claimOAuthLogin state later,.ok login⟩]

/-- The calls after which a callback has the account of a verified token. -/
def VerifiedCalls (state accountID : Str) (log : List AuthEvent) : Prop :=
  ∃ claim login code idToken now sub email lookup acct, ClaimCalls state login claim ∧
    log = claim ++ ⟨.exchangeGoogleCode code login.codeVerifier,some idToken⟩::⟨.now,now⟩::
      ⟨.verifyRS256IDToken idToken login.nonce,some (sub,email)⟩::lookup ∧
    validGoogleSub sub = true ∧ validEmail (lib.normalizeEmail email) = true ∧
    (accountForGoogle cfg sub (lib.normalizeEmail email)).Yields lookup (.ok acct) ∧ acct.id = accountID

/-- What a request has done before it changes a login or asks Google. -/
def LoginAllowed (request : AuthRequest) (log : List AuthEvent) : AuthCall → Prop
  | .createOAuthLogin login => login.status = .pending
  | .exchangeGoogleCode _ _ => ∃ state code error login,
    request = .googleCallback state code error ∧ ClaimCalls state login log
  | .markOAuthReady state accountID => ∃ code error,
    request = .googleCallback state code error ∧ VerifiedCalls lib cfg state accountID log
  | .reopenOAuthLogin state => Ticket state log
  | _ => True

/-- What a poll has done before it hands out tokens. -/
def LoginAnswer (request : AuthRequest) (log : List AuthEvent) (response : AuthResponse) : Prop :=
  ∀ state secret draws accountID deviceID token, request = .googlePoll state secret draws →
    response = .tokens accountID deviceID token →
    ∃ login now consumed acct rest, log = ⟨.oauthLoginByState state,.ok login⟩::⟨.now,now⟩::
        ⟨.consumeOAuthLogin login.state,.ok consumed⟩::⟨.accountByID login.accountID,.ok acct⟩::rest ∧
      pollSecretMatches lib login.pollSecretHash secret = true ∧ now ≤ login.expiresAt ∧ login.status = .ready ∧
      Ticket login.state log ∧ accountID = acct.id

def LoginServed (request : AuthRequest) (program : AuthHandler) (log : List AuthEvent) : Prop :=
  program.Keeps (LoginAllowed lib cfg request) log ∧ program.Answers (LoginAnswer lib request) log

variable {lib cfg}

theorem loginServed_done {request : AuthRequest} {log : List AuthEvent} (response : AuthResponse)
    (other : ∀ accountID deviceID token, response ≠ .tokens accountID deviceID token) :
    LoginServed lib cfg request (.done response) log :=
  ⟨trivial,fun _ _ _ accountID deviceID token _ same => absurd same (other accountID deviceID token)⟩

theorem loginServed_call {request : AuthRequest} {log : List AuthEvent} (op : AuthCall)
    (next : op.Result → AuthHandler) (allowed : LoginAllowed lib cfg request log op)
    (rest : ∀ result, LoginServed lib cfg request (next result) (log ++ [⟨op,result⟩])) :
    LoginServed lib cfg request (.call op next) log :=
  ⟨⟨allowed,fun result => (rest result).1⟩,fun result => (rest result).2⟩

/-- Requests other than polls answer as they like, if their calls are allowed. -/
theorem loginServed_keeps {request : AuthRequest} {program : AuthHandler} {log : List AuthEvent}
    (other : ∀ state secret draws, request ≠ .googlePoll state secret draws)
    (keeps : program.Keeps (LoginAllowed lib cfg request) log) : LoginServed lib cfg request program log := by
  refine ⟨keeps,Program.answers_of_forall ?_ program log⟩
  intro log response state secret draws _ _ _ same
  exact absurd same (other state secret draws)

theorem loginAllowed_of (call : AuthCall) (login : call.part ≠ some .logins) (here : call.asksGoogle = false)
    (request : AuthRequest) (log : List AuthEvent) : LoginAllowed lib cfg request log call := by
  cases call with
  | createOAuthLogin _ => exact absurd rfl login
  | markOAuthReady _ _ => exact absurd rfl login
  | reopenOAuthLogin _ => exact absurd rfl login
  | exchangeGoogleCode _ _ => contradiction
  | _ => trivial

theorem failLogin_keeps (request : AuthRequest) (state code message : Str) (log : List AuthEvent) :
    (failLogin state code message).Keeps (LoginAllowed lib cfg request) log :=
  ⟨trivial,fun _ => trivial⟩

theorem handleGoogleStart_keeps (request : AuthRequest) (deviceName : Str) (allowed : Bool) (draws : Option StartDraws)
    (log : List AuthEvent) : (handleGoogleStart lib cfg deviceName allowed draws).Keeps (LoginAllowed lib cfg request) log := by
  unfold handleGoogleStart
  split
  · trivial
  dsimp only
  generalize (if lib.trimSpace deviceName = [] then defaultDeviceName else lib.trimSpace deviceName) = name
  split
  · trivial
  split
  · trivial
  split
  · trivial
  · refine ⟨trivial,fun now => ⟨rfl,fun result => ?_⟩⟩
    cases result <;> trivial

theorem completeLogin_keeps (state code error sub email : Str) (log : List AuthEvent)
    (verified : ∀ lookup acct, (accountForGoogle cfg sub email).Yields lookup (.ok acct) →
      VerifiedCalls lib cfg state acct.id (log ++ lookup)) :
    (completeLogin cfg state sub email).Keeps (LoginAllowed lib cfg (.googleCallback state code error)) log := by
  have only : (accountForGoogle cfg sub email).Only fun call =>
      ∀ request log, LoginAllowed lib cfg request log call :=
    accountForGoogle_only cfg (fun call plain => loginAllowed_of call (AuthCall.plain_parts plain).1 (AuthCall.plain_parts plain).2.2.1) sub email
  refine (only.keeps (fun log call holds => holds _ log) log).bind fun lookup found yields => ?_
  rcases found with err | acct
  · cases err with
    | none => exact failLogin_keeps _ _ _ _ _
    | some err => exact failLogin_keeps _ _ _ _ _
  · refine ⟨⟨code,error,rfl,verified lookup acct yields⟩,fun result => ?_⟩
    cases result with
    | error err => exact failLogin_keeps _ _ _ _ _
    | ok done => trivial

theorem exchangeLogin_keeps (state code error asked : Str) (login : OAuthLogin) (log : List AuthEvent)
    (claimed : ClaimCalls state login log) :
    (exchangeLogin lib cfg state asked login).Keeps (LoginAllowed lib cfg (.googleCallback state code error)) log := by
  refine ⟨⟨state,code,error,login,rfl,claimed⟩,fun answer => ?_⟩
  cases answer with
  | none => exact failLogin_keeps _ _ _ _ _
  | some idToken =>
    refine ⟨trivial,fun now => ⟨trivial,fun identity => ?_⟩⟩
    dsimp only
    split
    · exact failLogin_keeps _ _ _ _ _
    · rename_i ident accepted
      obtain ⟨known,valid⟩ := Option.filter_eq_some_iff.mp accepted
      obtain ⟨subject,address⟩ := Bool.and_eq_true_iff.mp valid
      subst known
      apply completeLogin_keeps
      intro lookup acct yields
      exact ⟨log,login,asked,idToken,now,ident.1,ident.2,lookup,acct,claimed,by simp,subject,address,yields,rfl⟩

theorem handleGoogleCallback_keeps (state code error : Str) :
    (handleGoogleCallback lib cfg state code error).Keeps (LoginAllowed lib cfg (.googleCallback state code error)) [] := by
  unfold handleGoogleCallback
  split
  · trivial
  split
  · trivial
  refine ⟨trivial,fun read => ?_⟩
  rcases read with err | existing
  · cases err <;> trivial
  refine ⟨trivial,fun now => ?_⟩
  dsimp only
  split
  · trivial
  split
  · trivial
  · trivial
  · trivial
  · trivial
  refine ⟨trivial,fun later => ⟨trivial,fun claim => ?_⟩⟩
  rcases claim with err | login
  · refine ⟨trivial,fun again => ?_⟩
    cases again with
    | error err => trivial
    | ok again =>
      dsimp only
      split <;> trivial
  dsimp only
  split
  · exact failLogin_keeps _ _ _ _ _
  split
  · exact failLogin_keeps _ _ _ _ _
  · apply exchangeLogin_keeps
    exact ⟨existing,now,later,rfl⟩

theorem reopen_served {request : AuthRequest} {log : List AuthEvent} (state : Str) (err : APIError)
    (ticket : Ticket state log) : LoginServed lib cfg request (reopen state err) log :=
  loginServed_call _ _ ticket fun _ => loginServed_done _ nofun

theorem Ticket.snoc {state : Str} {log : List AuthEvent} (ticket : Ticket state log) (event : AuthEvent)
    (other : reopenedState event ≠ some state) : Ticket state (log ++ [event]) := by
  obtain ⟨⟨consumed,member,same⟩,kept⟩ := ticket
  refine ⟨⟨consumed,List.mem_append_left _ member,same⟩,fun last member => ?_⟩
  rcases List.mem_append.mp member with old | new
  · exact kept last old
  · rw [List.mem_singleton.mp new]
    exact other

/-- The answer of a poll once the device exists. -/
theorem respondWithTokens_served {state secret : Str} {draws : SignInDraws} {login : OAuthLogin} {now : Nat}
    {consumed : OAuthLogin} {acct : Account} {rest log : List AuthEvent} (deviceID : Str) (token : Option Str)
    (calls : log = ⟨.oauthLoginByState state,.ok login⟩::⟨.now,now⟩::⟨.consumeOAuthLogin login.state,.ok consumed⟩::
      ⟨.accountByID login.accountID,.ok acct⟩::rest)
    (matching : pollSecretMatches lib login.pollSecretHash secret = true) (early : now ≤ login.expiresAt)
    (ready : login.status = .ready) (ticket : Ticket login.state log) :
    LoginServed lib cfg (.googlePoll state secret draws) (respondWithTokens lib cfg acct.id deviceID token) log := by
  unfold respondWithTokens
  split
  · exact loginServed_done _ nofun
  rename_i refresh
  refine loginServed_call _ _ trivial fun later => loginServed_call _ _ trivial fun created => ?_
  cases created with
  | error err => exact loginServed_done _ nofun
  | ok done =>
    refine ⟨trivial,?_⟩
    rintro asked presented drawn accountID device issued request response
    cases request
    cases response
    let issue := AuthCall.createRefreshToken deviceID (hashTokenSHA256 lib refresh) (later + cfg.refreshTokenTTL)
    refine ⟨login,now,consumed,acct,rest ++ [⟨.now,later⟩,⟨issue,.ok done⟩],?_,matching,early,ready,?_,rfl⟩
    · rw [calls]
      simp [issue]
    · exact (ticket.snoc _ (by nofun)).snoc _ (by nofun)

theorem consumeLogin_served {state secret : Str} {draws : SignInDraws} {login : OAuthLogin} {now : Nat}
    (matching : pollSecretMatches lib login.pollSecretHash secret = true) (early : now ≤ login.expiresAt)
    (ready : login.status = .ready) :
    LoginServed lib cfg (.googlePoll state secret draws) (consumeLogin lib cfg login draws.refreshToken)
      [⟨.oauthLoginByState state,.ok login⟩,⟨.now,now⟩] := by
  refine loginServed_call _ _ trivial fun result => ?_
  cases result with
  | error err => exact loginServed_done _ nofun
  | ok consumed =>
    have ticket : Ticket login.state [⟨.oauthLoginByState state,.ok login⟩,⟨.now,now⟩,
        ⟨.consumeOAuthLogin login.state,.ok consumed⟩] := by
      refine ⟨⟨⟨.consumeOAuthLogin login.state,.ok consumed⟩,by simp,rfl⟩,?_⟩
      intro event member
      simp only [List.mem_cons,List.not_mem_nil,or_false] at member
      rcases member with rfl | rfl | rfl
      · exact nofun
      · exact nofun
      · exact nofun
    refine loginServed_call _ _ trivial fun found => ?_
    cases found with
    | error err => exact reopen_served _ _ (ticket.snoc _ (by nofun))
    | ok acct =>
      refine loginServed_call _ _ trivial fun counted => ?_
      cases counted with
      | error err => exact reopen_served _ _ ((ticket.snoc _ (by nofun)).snoc _ (by nofun))
      | ok count =>
        dsimp only
        split
        · exact reopen_served _ _ ((ticket.snoc _ (by nofun)).snoc _ (by nofun))
        refine loginServed_call _ _ trivial fun made => ?_
        cases made with
        | error err => exact reopen_served _ _ (((ticket.snoc _ (by nofun)).snoc _ (by nofun)).snoc _ (by nofun))
        | ok dev =>
          apply respondWithTokens_served dev.id draws.refreshToken rfl matching early ready
          exact ((ticket.snoc _ (by nofun)).snoc _ (by nofun)).snoc _ (by nofun)

theorem handleGooglePoll_served (state secret : Str) (draws : SignInDraws) :
    LoginServed lib cfg (.googlePoll state secret draws) (handleGooglePoll lib cfg state secret draws) [] := by
  have rejects : ∀ log, LoginServed lib cfg (.googlePoll state secret draws) (rejectGooglePoll draws) log := by
    intro log
    unfold rejectGooglePoll
    split <;> exact loginServed_done _ nofun
  unfold handleGooglePoll
  split
  · exact loginServed_done _ nofun
  split
  · exact loginServed_done _ nofun
  refine loginServed_call _ _ trivial fun read => ?_
  rcases read with err | login
  · cases err with
    | notFound => exact rejects _
    | _ => exact loginServed_done _ nofun
  dsimp only
  split
  · exact rejects _
  rename_i presented
  refine loginServed_call _ _ trivial fun now => ?_
  split
  · exact loginServed_done _ nofun
  rename_i early
  split
  · exact loginServed_done _ nofun
  · exact loginServed_done _ nofun
  · exact loginServed_done _ nofun
  · exact loginServed_done _ nofun
  rename_i ready
  apply consumeLogin_served _ (Nat.not_lt.mp early) ready
  simpa using presented

theorem handleAuth_login (request : AuthRequest) : LoginServed lib cfg request (handleAuth lib cfg request) [] := by
  have admits : ∀ call : AuthCall, call.plain = true → ∀ request log, LoginAllowed lib cfg request log call := fun call plain =>
    loginAllowed_of call (AuthCall.plain_parts plain).1 (AuthCall.plain_parts plain).2.2.1
  have creates : ∀ accountID name, ∀ request log, LoginAllowed lib cfg request log (.createDevice accountID name) :=
    fun _ _ => loginAllowed_of _ nofun rfl
  have keeps : ∀ {program : AuthHandler}, (∀ state secret draws, request ≠ .googlePoll state secret draws) →
      program.Only (fun call => ∀ request log, LoginAllowed lib cfg request log call) →
      LoginServed lib cfg request program [] :=
    fun other only => loginServed_keeps other (only.keeps (fun log call holds => holds _ log) [])
  cases request with
  | register body draws => exact keeps nofun (handleRegister_only lib cfg admits creates body draws)
  | login body draws => exact keeps nofun (handleLogin_only lib cfg admits creates body draws)
  | refresh token newToken => exact keeps nofun (handleRefresh_only lib cfg admits token newToken)
  | logout claims =>
    exact keeps nofun (withAuth_only admits claims _ fun claims => (devices_only lib admits claims [] []).1)
  | revokeDevice claims target =>
    exact keeps nofun (withAuth_only admits claims _ fun claims => (devices_only lib admits claims target []).2.1)
  | renameDevice claims target name =>
    exact keeps nofun (withAuth_only admits claims _ fun claims => (devices_only lib admits claims target name).2.2)
  | authorized claims => exact keeps nofun (withAuth_only admits claims _ fun _ => trivial)
  | webSocket claims => exact keeps nofun (checkDevice_only admits claims _ fun _ => trivial)
  | googleStart deviceName allowed draws =>
    exact loginServed_keeps nofun (handleGoogleStart_keeps _ deviceName allowed draws [])
  | googleCallback state code error => exact loginServed_keeps nofun (handleGoogleCallback_keeps state code error)
  | googlePoll state secret draws => exact handleGooglePoll_served state secret draws
  | pair claims action =>
    exact keeps nofun (withAuth_only admits claims _ fun claims =>
      handlePair_only (fun call login here _ _ => loginAllowed_of call login here) claims action)

end

end NPSync.Server
