import NPSync.Server.AuthHandlers

/-! Which part of the store one call of an authentication handler can change. -/
namespace NPSync.Server
open Library

inductive Part where
  | accounts
  | logins
  | devices
  | pairing
  deriving DecidableEq

def AuthCall.part : AuthCall → Option Part
  | .createAccount .. | .createGoogleAccount .. | .linkGoogleSubject .. | .recordFailedLogin ..
  | .resetFailedLogins .. => some .accounts
  | .createOAuthLogin .. | .claimOAuthLogin .. | .markOAuthReady .. | .markOAuthError .. | .consumeOAuthLogin ..
  | .reopenOAuthLogin .. => some .logins
  | .createDevice .. | .renameDevice .. | .revokeDevice .. | .touchDevice .. => some .devices
  | .createPairingCode .. | .approvePairingCode .. | .consumePairingCode .. => some .pairing
  | _ => none

/-- The requests to Google, which change nothing here. -/
def AuthCall.asksGoogle : AuthCall → Bool
  | .exchangeGoogleCode .. | .verifyRS256IDToken .. => true
  | _ => false

def AuthCall.createsDevice : AuthCall → Bool
  | .createDevice .. => true
  | _ => false

def AuthCall.checksDevice : AuthCall → Bool
  | .deviceByID .. | .deviceByIDGlobal .. => true
  | _ => false

/-- The calls that any endpoint may make: not for logins or pairing codes, to Google or for a new device. -/
def AuthCall.plain (call : AuthCall) : Bool :=
  decide (call.part ≠ some .logins) && decide (call.part ≠ some .pairing) && !call.asksGoogle && !call.createsDevice

theorem AuthCall.plain_parts {call : AuthCall} (plain : call.plain = true) :
    call.part ≠ some .logins ∧ call.part ≠ some .pairing ∧ call.asksGoogle = false ∧ call.createsDevice = false := by
  simpa [AuthCall.plain,and_assoc] using plain

section
variable (m : AuthMem)

theorem insertAccountLocked_frame (email passwordHash googleSub id : Str) :
    (m.insertAccountLocked email passwordHash googleSub id).2.oauth = m.oauth ∧
      (m.insertAccountLocked email passwordHash googleSub id).2.devices = m.devices ∧
      (m.insertAccountLocked email passwordHash googleSub id).2.pairing = m.pairing := by
  unfold AuthMem.insertAccountLocked
  split <;> exact ⟨rfl,rfl,rfl⟩

theorem changeLogin_frame (state : Str) (allowed : OAuthLogin → Bool) (change : OAuthLogin → OAuthLogin) :
    (m.changeLogin state allowed change).2.accounts = m.accounts ∧
      (m.changeLogin state allowed change).2.byEmail = m.byEmail ∧
      (m.changeLogin state allowed change).2.byGoogle = m.byGoogle ∧
      (m.changeLogin state allowed change).2.devices = m.devices ∧
      (m.changeLogin state allowed change).2.pairing = m.pairing := by
  unfold AuthMem.changeLogin
  split
  · exact ⟨rfl,rfl,rfl,rfl,rfl⟩
  · split <;> exact ⟨rfl,rfl,rfl,rfl,rfl⟩

end

/-- The parts of two stores that are equal. -/
structure SameBut (part : Option Part) (a b : AuthMem) : Prop where
  accounts : part ≠ some .accounts → b.accounts = a.accounts ∧ b.byEmail = a.byEmail ∧ b.byGoogle = a.byGoogle
  logins : part ≠ some .logins → b.oauth = a.oauth
  devices : part ≠ some .devices → b.devices = a.devices
  pairing : part ≠ some .pairing → b.pairing = a.pairing

theorem SameBut.refl (part : Option Part) (m : AuthMem) : SameBut part m m :=
  ⟨fun _ => ⟨rfl,rfl,rfl⟩,fun _ => rfl,fun _ => rfl,fun _ => rfl⟩

theorem attempt_sameBut {X : Type} {part : Option Part} {env : AuthEnv} {s : AuthState}
    {out : Except AuthError X × AuthMem} (same : SameBut part s.mem out.2) :
    SameBut part s.mem (attempt env s out).2.mem := by
  unfold attempt
  split
  · exact .refl part s.mem
  · exact same

theorem execAuth_sameBut (env : AuthEnv) (s : AuthState) (call : AuthCall) :
    SameBut call.part s.mem (execAuth env s call).2.mem := by
  have accountCall : ∀ {X : Type} (out : Except AuthError X × AuthMem), out.2.oauth = s.mem.oauth ∧
      out.2.devices = s.mem.devices ∧ out.2.pairing = s.mem.pairing →
      SameBut (some .accounts) s.mem (attempt env {s with clock := s.clock + env.elapsed} out).2.mem :=
    fun out same => attempt_sameBut (s := {s with clock := s.clock + env.elapsed})
      ⟨fun other => absurd rfl other,fun _ => same.1,fun _ => same.2.1,fun _ => same.2.2⟩
  have loginCall : ∀ (state : Str) (allowed : OAuthLogin → Bool) (change : OAuthLogin → OAuthLogin),
      SameBut (some .logins) s.mem
        (attempt env {s with clock := s.clock + env.elapsed} (s.mem.changeLogin state allowed change)).2.mem := by
    intro state allowed change
    obtain ⟨accounts,emails,subjects,devices,pairing⟩ := changeLogin_frame s.mem state allowed change
    exact attempt_sameBut (s := {s with clock := s.clock + env.elapsed})
      ⟨fun _ => ⟨accounts,emails,subjects⟩,fun other => absurd rfl other,fun _ => devices,fun _ => pairing⟩
  have deviceCall : ∀ {X : Type} (out : Except AuthError X × AuthMem), (out.2.accounts = s.mem.accounts ∧
      out.2.byEmail = s.mem.byEmail ∧ out.2.byGoogle = s.mem.byGoogle) ∧ out.2.oauth = s.mem.oauth ∧
      out.2.pairing = s.mem.pairing →
      SameBut (some .devices) s.mem (attempt env {s with clock := s.clock + env.elapsed} out).2.mem :=
    fun out same => attempt_sameBut (s := {s with clock := s.clock + env.elapsed})
      ⟨fun _ => same.1,fun _ => same.2.1,fun other => absurd rfl other,fun _ => same.2.2⟩
  have pairingCall : ∀ {X : Type} (out : Except AuthError X × AuthMem), (out.2.accounts = s.mem.accounts ∧
      out.2.byEmail = s.mem.byEmail ∧ out.2.byGoogle = s.mem.byGoogle) ∧ out.2.oauth = s.mem.oauth ∧
      out.2.devices = s.mem.devices →
      SameBut (some .pairing) s.mem (attempt env {s with clock := s.clock + env.elapsed} out).2.mem :=
    fun out same => attempt_sameBut (s := {s with clock := s.clock + env.elapsed})
      ⟨fun _ => same.1,fun _ => same.2.1,fun _ => same.2.2,fun other => absurd rfl other⟩
  cases call with
  | createAccount email passwordHash => exact accountCall _ (insertAccountLocked_frame s.mem email passwordHash [] env.uuid)
  | createGoogleAccount email googleSub =>
    refine accountCall _ ?_
    unfold AuthMem.createGoogleAccount
    split
    · exact ⟨rfl,rfl,rfl⟩
    · split
      · exact ⟨rfl,rfl,rfl⟩
      · exact insertAccountLocked_frame s.mem email [] googleSub env.uuid
  | linkGoogleSubject accountID googleSub =>
    refine accountCall _ ?_
    unfold AuthMem.linkGoogleSubject
    split
    · exact ⟨rfl,rfl,rfl⟩
    split
    · exact ⟨rfl,rfl,rfl⟩
    split
    · exact ⟨rfl,rfl,rfl⟩
    dsimp only
    split <;> split <;> exact ⟨rfl,rfl,rfl⟩
  | recordFailedLogin accountID lockAfter lockFor =>
    refine accountCall _ ?_
    unfold AuthMem.recordFailedLogin
    split <;> exact ⟨rfl,rfl,rfl⟩
  | resetFailedLogins accountID =>
    refine accountCall (X := Unit) (.ok (),s.mem.resetFailedLogins accountID) ?_
    unfold AuthMem.resetFailedLogins
    split <;> exact ⟨rfl,rfl,rfl⟩
  | createOAuthLogin login =>
    refine attempt_sameBut (s := {s with clock := s.clock + env.elapsed}) ?_
    unfold AuthMem.createOAuthLogin
    dsimp only
    split <;> exact ⟨fun _ => ⟨rfl,rfl,rfl⟩,fun other => absurd rfl other,fun _ => rfl,fun _ => rfl⟩
  | claimOAuthLogin state now => exact loginCall state _ _
  | markOAuthReady state accountID => exact loginCall state _ _
  | markOAuthError state code message => exact loginCall state _ _
  | consumeOAuthLogin state => exact loginCall state _ _
  | reopenOAuthLogin state => exact loginCall state _ _
  | createDevice accountID name => exact deviceCall _ ⟨⟨rfl,rfl,rfl⟩,rfl,rfl⟩
  | renameDevice accountID deviceID name =>
    refine deviceCall _ ?_
    unfold AuthMem.renameDevice
    split <;> exact ⟨⟨rfl,rfl,rfl⟩,rfl,rfl⟩
  | revokeDevice accountID deviceID =>
    refine deviceCall _ ?_
    unfold AuthMem.revokeDevice
    split <;> exact ⟨⟨rfl,rfl,rfl⟩,rfl,rfl⟩
  | touchDevice deviceID =>
    refine deviceCall (X := Unit) (.ok (),s.mem.touchDevice deviceID (s.clock + env.elapsed)) ?_
    unfold AuthMem.touchDevice
    split <;> exact ⟨⟨rfl,rfl,rfl⟩,rfl,rfl⟩
  | createPairingCode pc => exact pairingCall (X := Unit) (.ok (),s.mem.createPairingCode pc) ⟨⟨rfl,rfl,rfl⟩,rfl,rfl⟩
  | approvePairingCode code approvingDevice wrappedKey =>
    refine pairingCall _ ?_
    unfold AuthMem.approvePairingCode
    split
    · exact ⟨⟨rfl,rfl,rfl⟩,rfl,rfl⟩
    · split <;> exact ⟨⟨rfl,rfl,rfl⟩,rfl,rfl⟩
  | consumePairingCode code =>
    refine pairingCall _ ?_
    unfold AuthMem.consumePairingCode
    split <;> exact ⟨⟨rfl,rfl,rfl⟩,rfl,rfl⟩
  | createRefreshToken deviceID tokenHash expiresAt =>
    refine attempt_sameBut (s := {s with clock := s.clock + env.elapsed}) ?_
    exact ⟨fun _ => ⟨rfl,rfl,rfl⟩,fun _ => rfl,fun _ => rfl,fun _ => rfl⟩
  | rotateRefreshToken oldID newTokenHash expiresAt =>
    refine attempt_sameBut (s := {s with clock := s.clock + env.elapsed}) ?_
    unfold AuthMem.rotateRefreshToken
    split <;> exact ⟨fun _ => ⟨rfl,rfl,rfl⟩,fun _ => rfl,fun _ => rfl,fun _ => rfl⟩
  | now => exact .refl _ _
  | exchangeGoogleCode code verifier => exact .refl _ _
  | verifyRS256IDToken idToken nonce => exact .refl _ _
  | _ => exact attempt_sameBut (s := {s with clock := s.clock + env.elapsed}) (.refl _ _)

/-- A store call that a fault spares is the method itself. -/
theorem attempt_cases {X : Type} (env : AuthEnv) (s : AuthState) (out : Except AuthError X × AuthMem) :
    (attempt env s out = (.error .internal,s)) ∨ attempt env s out = (out.1,{s with mem := out.2}) := by
  unfold attempt
  split
  · exact .inl rfl
  · exact .inr rfl


/-! ### Which calls an endpoint makes -/

section
variable (lib : AuthLibrary) (cfg : AuthConfig) {kind : AuthCall → Prop}
  (admits : ∀ call, call.plain = true → kind call)
include admits

theorem respondWithTokens_only (accountID devID : Str) (token : Option Str) :
    (respondWithTokens lib cfg accountID devID token).Only kind := by
  unfold respondWithTokens
  split
  · trivial
  · refine ⟨admits _ rfl,fun now => ⟨admits _ rfl,fun r => ?_⟩⟩
    cases r <;> trivial

theorem issueTokens_only (creates : ∀ accountID name, kind (.createDevice accountID name)) (acct : Account) (deviceName : Str) (token : Option Str) :
    (issueTokens lib cfg acct deviceName token).Only kind := by
  refine ⟨admits _ rfl,fun r => ?_⟩
  cases r with
  | error err => trivial
  | ok count =>
    simp only [orInternal]
    split
    · trivial
    · refine ⟨creates _ _,fun r => ?_⟩
      cases r with
      | error err => trivial
      | ok dev => exact respondWithTokens_only lib cfg admits acct.id dev.id token

theorem handleRegister_only (creates : ∀ accountID name, kind (.createDevice accountID name)) (body : Credentials) (draws : SignInDraws) :
    (handleRegister lib cfg body draws).Only kind := by
  unfold handleRegister
  split
  · trivial
  split
  · trivial
  split
  · trivial
  split
  · trivial
  split
  · trivial
  split
  · trivial
  · refine ⟨admits _ rfl,fun r => ?_⟩
    rcases r with err | acct
    · cases err <;> trivial
    · exact issueTokens_only lib cfg admits creates acct body.deviceName draws.refreshToken

theorem checkPassword_only (creates : ∀ accountID name, kind (.createDevice accountID name)) (body : Credentials) (draws : SignInDraws) (acct : Account) :
    (checkPassword lib cfg body draws acct).Only kind := by
  unfold checkPassword
  split
  · trivial
  split
  · refine ⟨admits _ rfl,fun r => ?_⟩
    cases r <;> trivial
  · exact ⟨admits _ rfl,fun _ =>
      issueTokens_only lib cfg admits creates acct _ draws.refreshToken⟩

theorem handleLogin_only (creates : ∀ accountID name, kind (.createDevice accountID name)) (body : Credentials) (draws : SignInDraws) : (handleLogin lib cfg body draws).Only kind := by
  unfold handleLogin
  split
  · trivial
  · refine ⟨admits _ rfl,fun r => ?_⟩
    rcases r with err | acct
    · cases err <;> trivial
    · dsimp only
      split
      · exact checkPassword_only lib cfg admits creates body draws acct
      · refine ⟨admits _ rfl,fun now => ?_⟩
        dsimp only
        split
        · trivial
        · exact checkPassword_only lib cfg admits creates body draws acct

theorem handleRefresh_only (refreshToken : Str) (newToken : Option Str) :
    (handleRefresh lib cfg refreshToken newToken).Only kind := by
  refine ⟨admits _ rfl,fun r => ?_⟩
  rcases r with err | tok
  · cases err <;> trivial
  · dsimp only
    split
    · trivial
    · refine ⟨admits _ rfl,fun now => ?_⟩
      dsimp only
      split
      · trivial
      · refine ⟨admits _ rfl,fun r => ?_⟩
        rcases r with err | dev
        · trivial
        · dsimp only
          split
          · trivial
          · split
            · trivial
            · refine ⟨admits _ rfl,fun now =>
                ⟨admits _ rfl,fun r => ?_⟩⟩
              cases r <;> trivial

theorem checkDevice_only (claims : Option Claims) (next : Claims → AuthHandler)
    (rest : ∀ claims, (next claims).Only kind) : (checkDevice claims next).Only kind := by
  unfold checkDevice
  split
  · trivial
  · refine ⟨admits _ rfl,fun r => ?_⟩
    cases r with
    | error err => trivial
    | ok dev =>
      dsimp only
      split
      · trivial
      · exact rest _

theorem withAuth_only (claims : Option Claims) (next : Claims → AuthHandler)
    (rest : ∀ claims, (next claims).Only kind) : (withAuth claims next).Only kind :=
  checkDevice_only admits claims _ fun claims =>
    ⟨admits _ rfl,fun _ => rest claims⟩

/-- The endpoints for devices other than pairing. -/
theorem devices_only (claims : Claims) (target name : Str) :
    (handleLogout claims).Only kind ∧ (handleRevokeDevice claims target).Only kind ∧
      (handleRenameDevice lib claims target name).Only kind := by
  refine ⟨⟨admits _ rfl,fun r => ?_⟩,
    ⟨admits _ rfl,fun r => ?_⟩,?_⟩
  · cases r <;> trivial
  · cases r <;> trivial
  · unfold handleRenameDevice
    dsimp only
    split
    · trivial
    · refine ⟨admits _ rfl,fun r => ?_⟩
      cases r <;> trivial

theorem accountForGooglePass_only (sub email : Str) (retry : Lookup) (again : retry.Only kind) :
    (accountForGooglePass cfg sub email retry).Only kind := by
  refine ⟨admits _ rfl,fun r => ?_⟩
  rcases r with err | acct
  · cases err with
    | notFound =>
      refine ⟨admits _ rfl,fun r => ?_⟩
      rcases r with err | acct
      · cases err with
        | notFound =>
          dsimp only
          split
          · trivial
          · refine ⟨admits _ rfl,fun r => ?_⟩
            rcases r with err | acct
            · cases err with
              | emailTaken => exact again
              | duplicate => exact again
              | _ => trivial
            · trivial
        | _ => trivial
      · dsimp only [linkAccount]
        split
        · trivial
        split
        · trivial
        · refine ⟨admits _ rfl,fun r => ?_⟩
          rcases r with err | done
          · cases err with
            | duplicate => exact again
            | _ => trivial
          · trivial
    | _ => trivial
  · trivial

theorem accountForGoogle_only (sub email : Str) : (accountForGoogle cfg sub email).Only kind := by
  apply accountForGooglePass_only cfg admits sub email
  apply accountForGooglePass_only cfg admits sub email
  trivial

end

theorem handlePair_only {kind : AuthCall → Prop}
    (admits : ∀ call, call.part ≠ some .logins → call.asksGoogle = false → call.createsDevice = false →
      call.checksDevice = false → kind call)
    (claims : Claims) (action : PairAction) : (handlePair claims action).Only kind := by
  cases action with
  | request code =>
    simp only [handlePair,pairRequestCode]
    split
    · trivial
    · refine ⟨admits _ nofun rfl rfl rfl,fun now => ⟨admits _ nofun rfl rfl rfl,fun result => ?_⟩⟩
      cases result <;> trivial
  | approve code text =>
    simp only [handlePair,pairApprove]
    split
    · trivial
    split
    · trivial
    split
    · trivial
    refine ⟨admits _ nofun rfl rfl rfl,fun result => ?_⟩
    cases result with
    | error err => trivial
    | ok pc =>
      dsimp only
      split
      · trivial
      split
      · trivial
      · refine ⟨admits _ nofun rfl rfl rfl,fun result => ?_⟩
        cases result <;> trivial
  | poll code =>
    simp only [handlePair,pairPoll]
    split
    · trivial
    refine ⟨admits _ nofun rfl rfl rfl,fun result => ?_⟩
    cases result with
    | error err => trivial
    | ok pc =>
      dsimp only
      split
      · trivial
      refine ⟨admits _ nofun rfl rfl rfl,fun now => ?_⟩
      dsimp only [answerPoll]
      split
      · trivial
      split
      · trivial
      · refine ⟨admits _ nofun rfl rfl rfl,fun result => ?_⟩
        cases result <;> trivial
  | unknown => trivial

end NPSync.Server
