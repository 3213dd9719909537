import NPSync.Server.PairingPolls

/-! The number of active devices of an account. Sign-ins count the devices in one
call and create one in the next. -/
namespace NPSync.Server
open Library

def createsFor (accountID : Str) : AuthCall → Bool
  | .createDevice owner _ => owner = accountID
  | _ => false

/-- The thread has counted the devices of the account and creates one next. -/
def awaitsDevice (accountID : Str) (thread : Thread AuthCall AuthCall.Result AuthResponse) : Bool :=
  match thread.program with
  | .call op _ => createsFor accountID op
  | .done _ => false

def waiting (l : AuthLedger) (accountID : Str) : Nat := l.threads.countP (awaitsDevice accountID)

def active (l : AuthLedger) (accountID : Str) : Nat := l.shared.mem.countActiveDevices accountID

def countedAccount : AuthCall → Option Str
  | .countActiveDevices accountID => some accountID
  | _ => none

/-- A sign-in that is let through by its count leaves room for those that have
counted before it and not created their device yet. -/
def RoomReserved (cfg : AuthConfig) (l : AuthLedger) : AuthMove → Prop
  | .spawn _ => True
  | .step index _ => ∀ accountID ∈ (nextCall l index).bind countedAccount, active l accountID < cfg.maxDevices →
    active l accountID + waiting l accountID < cfg.maxDevices

instance (cfg : AuthConfig) (l : AuthLedger) (first : AuthMove) : Decidable (RoomReserved cfg l first) :=
  match first with
  | .spawn _ => .isTrue trivial
  | .step index _ => inferInstanceAs (Decidable (∀ accountID ∈ (nextCall l index).bind countedAccount,_))

/-! ### Devices are created after a count -/

/-- A device is created right after a count below the limit. -/
def DeviceAllowed (cfg : AuthConfig) (log : List AuthEvent) (call : AuthCall) : Prop :=
  ∀ accountID name, call = .createDevice accountID name →
    ∃ before n, log = before ++ [⟨.countActiveDevices accountID,.ok n⟩] ∧ n < cfg.maxDevices

theorem deviceAllowed_of {cfg : AuthConfig} {call : AuthCall} (other : call.createsDevice = false) (log : List AuthEvent) :
    DeviceAllowed cfg log call := by
  rintro accountID name rfl
  contradiction

section
variable (lib : AuthLibrary) (cfg : AuthConfig)

theorem keeps_of_only {program : AuthHandler} (only : program.Only (fun call => call.createsDevice = false))
    (log : List AuthEvent) : program.Keeps (DeviceAllowed cfg) log :=
  only.keeps (fun log _ other => deviceAllowed_of other log) log

theorem respondWithTokens_devices (accountID devID : Str) (token : Option Str) (log : List AuthEvent) :
    (respondWithTokens lib cfg accountID devID token).Keeps (DeviceAllowed cfg) log :=
  keeps_of_only cfg (respondWithTokens_only lib cfg (fun _ plain => (AuthCall.plain_parts plain).2.2.2) accountID devID token) log

theorem issueTokens_devices (acct : Account) (deviceName : Str) (token : Option Str) (log : List AuthEvent) :
    (issueTokens lib cfg acct deviceName token).Keeps (DeviceAllowed cfg) log := by
  refine ⟨deviceAllowed_of rfl log,fun counted => ?_⟩
  cases counted with
  | error err => trivial
  | ok count =>
    simp only [orInternal]
    split
    · trivial
    · rename_i below
      refine ⟨?_,fun created => ?_⟩
      · rintro accountID name same
        cases same
        exact ⟨log,count,rfl,Nat.not_le.mp below⟩
      · cases created with
        | error err => trivial
        | ok dev => exact respondWithTokens_devices lib cfg acct.id dev.id token _

theorem handleRegister_devices (body : Credentials) (draws : SignInDraws) :
    (handleRegister lib cfg body draws).Keeps (DeviceAllowed cfg) [] := by
  unfold handleRegister
  split
  · trivial
  split
  · trivial
  split
  · trivial
  split
  · trivial
  split
  · trivial
  split
  · trivial
  · refine ⟨deviceAllowed_of rfl _,fun created => ?_⟩
    rcases created with err | acct
    · cases err <;> trivial
    · exact issueTokens_devices lib cfg acct body.deviceName draws.refreshToken _

theorem checkPassword_devices (body : Credentials) (draws : SignInDraws) (acct : Account) (log : List AuthEvent) :
    (checkPassword lib cfg body draws acct).Keeps (DeviceAllowed cfg) log := by
  unfold checkPassword
  split
  · trivial
  split
  · refine ⟨deviceAllowed_of rfl _,fun recorded => ?_⟩
    cases recorded <;> trivial
  · exact ⟨deviceAllowed_of rfl _,fun _ => issueTokens_devices lib cfg acct _ draws.refreshToken _⟩

theorem handleLogin_devices (body : Credentials) (draws : SignInDraws) :
    (handleLogin lib cfg body draws).Keeps (DeviceAllowed cfg) [] := by
  unfold handleLogin
  split
  · trivial
  · refine ⟨deviceAllowed_of rfl _,fun found => ?_⟩
    rcases found with err | acct
    · cases err <;> trivial
    · dsimp only
      split
      · exact checkPassword_devices lib cfg body draws acct _
      · refine ⟨deviceAllowed_of rfl _,fun now => ?_⟩
        dsimp only
        split
        · trivial
        · exact checkPassword_devices lib cfg body draws acct _

theorem reopen_devices (state : Str) (err : APIError) (log : List AuthEvent) :
    (reopen state err).Keeps (DeviceAllowed cfg) log := ⟨deviceAllowed_of rfl _,fun _ => trivial⟩

theorem finishGoogleLogin_devices (acct : Account) (deviceName state : Str) (token : Option Str) (log : List AuthEvent) :
    (finishGoogleLogin lib cfg acct deviceName state token).Keeps (DeviceAllowed cfg) log := by
  refine ⟨deviceAllowed_of rfl log,fun counted => ?_⟩
  cases counted with
  | error err => exact reopen_devices cfg state internalError _
  | ok count =>
    dsimp only
    split
    · exact reopen_devices cfg state deviceLimit _
    · rename_i below
      refine ⟨?_,fun created => ?_⟩
      · rintro accountID name same
        cases same
        exact ⟨log,count,rfl,Nat.not_le.mp below⟩
      · cases created with
        | error err => exact reopen_devices cfg state internalError _
        | ok dev => exact respondWithTokens_devices lib cfg acct.id dev.id token _

theorem handleGooglePoll_devices (state pollSecret : Str) (draws : SignInDraws) :
    (handleGooglePoll lib cfg state pollSecret draws).Keeps (DeviceAllowed cfg) [] := by
  have rejects : ∀ log, (rejectGooglePoll draws).Keeps (DeviceAllowed cfg) log := by
    intro log
    unfold rejectGooglePoll
    split <;> trivial
  unfold handleGooglePoll
  split
  · trivial
  split
  · trivial
  refine ⟨deviceAllowed_of rfl _,fun found => ?_⟩
  rcases found with err | login
  · cases err with
    | notFound => exact rejects _
    | _ => trivial
  dsimp only
  split
  · exact rejects _
  refine ⟨deviceAllowed_of rfl _,fun now => ?_⟩
  dsimp only
  split
  · trivial
  split
  · trivial
  · trivial
  · trivial
  · trivial
  refine ⟨deviceAllowed_of rfl _,fun consumed => ?_⟩
  cases consumed with
  | error err => trivial
  | ok done =>
    refine ⟨deviceAllowed_of rfl _,fun found => ?_⟩
    cases found with
    | error err => exact reopen_devices cfg _ internalError _
    | ok acct => exact finishGoogleLogin_devices lib cfg acct login.deviceName login.state draws.refreshToken _

theorem handleAuth_devices (request : AuthRequest) : (handleAuth lib cfg request).Keeps (DeviceAllowed cfg) [] := by
  have admits : ∀ call : AuthCall, call.plain = true → call.createsDevice = false :=
    fun _ plain => (AuthCall.plain_parts plain).2.2.2
  cases request with
  | register body draws => exact handleRegister_devices lib cfg body draws
  | login body draws => exact handleLogin_devices lib cfg body draws
  | googlePoll state pollSecret draws => exact handleGooglePoll_devices lib cfg state pollSecret draws
  | refresh token newToken => exact keeps_of_only cfg (handleRefresh_only lib cfg admits token newToken) []
  | logout claims =>
    exact keeps_of_only cfg (withAuth_only admits claims _ fun claims => (devices_only lib admits claims [] []).1) []
  | revokeDevice claims target =>
    exact keeps_of_only cfg (withAuth_only admits claims _ fun claims => (devices_only lib admits claims target []).2.1) []
  | renameDevice claims target name =>
    exact keeps_of_only cfg (withAuth_only admits claims _ fun claims => (devices_only lib admits claims target name).2.2) []
  | authorized claims =>
    exact keeps_of_only cfg (withAuth_only admits claims (fun claims => .done (.served claims.accountID claims.deviceID)) fun _ => trivial) []
  | webSocket claims =>
    exact keeps_of_only cfg (checkDevice_only admits claims (fun claims => .done (.served claims.accountID claims.deviceID)) fun _ => trivial) []
  | googleStart deviceName allowed draws =>
    exact keeps_of_only cfg (handleGoogleStart_only lib cfg (fun _ _ other => other) deviceName allowed draws) []
  | googleCallback state code error =>
    exact keeps_of_only cfg (handleGoogleCallback_only lib cfg (fun _ _ other => other) state code error) []
  | pair claims action =>
    exact keeps_of_only cfg (withAuth_only admits claims _ fun claims =>
      handlePair_only (fun _ _ _ other _ => other) claims action) []

end

/-! ### Devices made and unmade -/

theorem active_of_devices {before after : AuthMem} (accountID : Str) (same : after.devices = before.devices) :
    after.countActiveDevices accountID = before.countActiveDevices accountID := by
  unfold AuthMem.countActiveDevices
  rw [same]

/-- A device that is changed in place and was active if it is now adds nothing. -/
theorem active_changed {before after : AuthMem} {deviceID : Str} {old dev : DeviceRecord} (accountID : Str)
    (found : before.devices.get deviceID = some old) (changed : after.devices = before.devices.upsert deviceID dev)
    (kept : dev.revokedAt = none → dev.accountID = old.accountID ∧ old.revokedAt = none) :
    after.countActiveDevices accountID ≤ before.countActiveDevices accountID := by
  have bound := before.devices.count_upsert_kept deviceID dev old
    (fun d => decide (d.accountID = accountID ∧ d.revokedAt = none)) found (fun now => by
      have now := of_decide_eq_true now
      have before := kept now.2
      exact decide_eq_true ⟨before.1 ▸ now.1,before.2⟩)
  rw [← changed] at bound
  exact bound

/-- Only the creation of a device adds to the active ones. -/
theorem execAuth_active (env : AuthEnv) (s : AuthState) (call : AuthCall) (accountID : Str) :
    (execAuth env s call).2.mem.countActiveDevices accountID ≤
      s.mem.countActiveDevices accountID + if createsFor accountID call then 1 else 0 := by
  have step : ∀ {X : Type} (out : Except AuthError X × AuthMem), out.2.countActiveDevices accountID ≤
      s.mem.countActiveDevices accountID → (attempt env {s with clock := s.clock + env.elapsed} out).2.mem.countActiveDevices
        accountID ≤ s.mem.countActiveDevices accountID + 0 := by
    intro X out after
    rcases attempt_cases env {s with clock := s.clock + env.elapsed} out with same | same
    · rw [same]
      exact Nat.le_refl _
    · rw [same]
      exact after
  cases call with
  | createDevice owner name =>
    simp only [execAuth,execAuthAt]
    rcases attempt_cases env {s with clock := s.clock + env.elapsed}
      (.ok (s.mem.createDevice owner name env.uuid (s.clock + env.elapsed)).1,
        (s.mem.createDevice owner name env.uuid (s.clock + env.elapsed)).2) with same | same
    · rw [same]
      exact Nat.le_add_right _ _
    · rw [same]
      have grown := s.mem.devices.count_upsert_le env.uuid (s.mem.createDevice owner name env.uuid (s.clock + env.elapsed)).1
        (fun dev => decide (dev.accountID = accountID ∧ dev.revokedAt = none))
      simp only [AuthMem.createDevice,decide_eq_true_eq,and_true] at grown
      simp only [createsFor,decide_eq_true_eq]
      exact grown
  | renameDevice owner deviceID name =>
    refine step _ ?_
    unfold AuthMem.renameDevice
    split
    · exact Nat.le_refl _
    · rename_i d found
      exact active_changed accountID (deviceByID_ok found) rfl fun now => ⟨rfl,now⟩
  | revokeDevice owner deviceID =>
    refine step _ ?_
    unfold AuthMem.revokeDevice
    split
    · exact Nat.le_refl _
    · rename_i d found
      exact active_changed accountID (deviceByID_ok found) rfl nofun
  | touchDevice deviceID =>
    refine step (X := Unit) (.ok (),s.mem.touchDevice deviceID (s.clock + env.elapsed)) ?_
    dsimp only
    unfold AuthMem.touchDevice
    split
    · exact Nat.le_refl _
    · rename_i d found
      exact active_changed accountID found rfl fun now => ⟨rfl,now⟩
  | _ => exact Nat.le_of_eq (active_of_devices accountID ((execAuth_sameBut env s _).devices (by simp [AuthCall.part])))

/-- A count lets the thread go on to create a device only below the limit. -/
theorem execAuth_counts (env : AuthEnv) (s : AuthState) {accountID : Str} {n : Nat}
    (counted : (execAuth env s (.countActiveDevices accountID)).1 = .ok n) : s.mem.countActiveDevices accountID = n := by
  simp only [execAuth,execAuthAt] at counted
  rcases attempt_cases env {s with clock := s.clock + env.elapsed}
    ((.ok (s.mem.countActiveDevices accountID) : Except AuthError Nat),s.mem) with same | same
  · rw [same] at counted
    contradiction
  · rw [same] at counted
    exact Except.ok.inj counted

section
variable (lib : AuthLibrary) (cfg : AuthConfig)

/-- The active devices and the sign-ins about to create one stay within the limit. -/
def Limited (l : AuthLedger) : Prop := ∀ accountID, active l accountID + waiting l accountID ≤ cfg.maxDevices

variable {cfg}

theorem awaits_keeps {accountID : Str} {program : AuthHandler} {log : List AuthEvent}
    (awaits : awaitsDevice accountID ⟨program,log⟩ = true) (keeps : program.Keeps (DeviceAllowed cfg) log) :
    ∃ before n, log = before ++ [⟨.countActiveDevices accountID,.ok n⟩] ∧ n < cfg.maxDevices := by
  cases program with
  | done response => contradiction
  | call op next =>
    cases op with
    | createDevice owner name =>
      obtain rfl : owner = accountID := of_decide_eq_true awaits
      exact keeps.1 owner name rfl
    | _ => contradiction

variable {lib}

theorem Limited.spawned {l : AuthLedger} (limited : Limited cfg l) (request : AuthRequest) :
    Limited cfg (Ledger.spawned (handleAuth lib cfg) l request) := by
  intro accountID
  have idle : awaitsDevice accountID ⟨handleAuth lib cfg request,[]⟩ = false := by
    rw [Bool.eq_false_iff]
    intro awaits
    obtain ⟨before,n,empty,-⟩ := awaits_keeps awaits (handleAuth_devices lib cfg request)
    simp at empty
  have same : waiting (Ledger.spawned (handleAuth lib cfg) l request) accountID = waiting l accountID := by
    simp [waiting,Ledger.spawned,List.countP_append,idle]
  rw [same]
  exact limited accountID

theorem Limited.called {l : AuthLedger} (limited : Limited cfg l) {index : Nat} {env : AuthEnv} {request : AuthRequest}
    {op : AuthCall} {next : op.Result → AuthHandler} {log : List AuthEvent} (guard : RoomReserved cfg l (.step index env))
    (serves : l.Serves index request (.call op next) log) (keeps : (Program.call op next).Keeps (DeviceAllowed cfg) log) :
    Limited cfg (Ledger.called execAuth l index env request op next log) := by
  intro accountID
  obtain ⟨bound,here⟩ := List.getElem?_eq_some_iff.mp serves.thread
  have grown := execAuth_active env l.shared op accountID
  have counted := List.countP_set (p := awaitsDevice accountID)
    (a := ⟨next (execAuth env l.shared op).1,log ++ [⟨op,(execAuth env l.shared op).1⟩]⟩) bound
  have before : awaitsDevice accountID l.threads[index] = createsFor accountID op := by
    rw [here]
    rfl
  have pending : createsFor accountID op = true → 0 < waiting l accountID := fun creates =>
    List.countP_pos_iff.mpr ⟨l.threads[index],List.getElem_mem bound,before.trans creates⟩
  have held := limited accountID
  rw [before] at counted
  simp only [active,waiting,Ledger.called] at held pending ⊢
  rw [counted]
  by_cases awaits : awaitsDevice accountID ⟨next (execAuth env l.shared op).1,log ++ [⟨op,(execAuth env l.shared op).1⟩]⟩ = true
  · obtain ⟨past,n,same,below⟩ := awaits_keeps awaits (keeps.2 _)
    obtain ⟨-,last⟩ := List.append_inj' same rfl
    obtain ⟨event,-⟩ := List.cons.inj last
    cases op with
    | countActiveDevices other =>
      injection event with call result
      cases call
      have room := execAuth_counts env l.shared (eq_of_heq (heq_of_eq result))
      have reserved := guard accountID (by simp [nextCall,serves.thread,countedAccount])
      simp only [active,waiting] at reserved
      simp only [createsFor,awaits] at grown ⊢
      simp only [Bool.false_eq_true,if_false,if_true] at grown ⊢
      omega
    | _ => injection event with call; cases call
  · rw [if_neg awaits]
    split
    · rename_i creates
      rw [if_pos creates] at grown
      have one := pending creates
      omega
    · rename_i other
      rw [if_neg other] at grown
      omega

/-- With room for every sign-in that its count lets through, the limit holds. -/
theorem active_devices_limited (lib : AuthLibrary) (cfg : AuthConfig) (clock : Nat) (moves : List AuthMove)
    (reserved : Guarded (Ledger.move (handleAuth lib cfg) execAuth) (RoomReserved cfg)
      (Ledger.initial (AuthState.empty clock)) moves) (accountID : Str) :
    active (authRun lib cfg clock moves) accountID ≤ cfg.maxDevices := by
  have invariant := Ledger.ledger_invariant (fun _ program log => program.Keeps (DeviceAllowed cfg) log) (RoomReserved cfg)
    (Limited cfg) (handleAuth_devices lib cfg) (fun _ _ _ _ keeps => keeps.2) (fun l request _ limited => limited.spawned request)
    (fun l index env request op next log limited served _ guard serves =>
      limited.called guard serves (served index request _ log serves))
    (AuthState.empty clock) moves (fun _ => Nat.zero_le _) reserved
  have held := invariant.1 accountID
  exact Nat.le_trans (Nat.le_add_right _ _) held

end

/-! ### Two logins for the last place -/

section
open SampleServer

/-- Two devices for each account. -/
private def twoDevices : AuthConfig := {openServer with maxDevices := 2}

private def annaAgain (device : String) : AuthRequest :=
  .login ⟨lit "anna@example.org",lit "correct-horse-1",lit device⟩ ⟨true,none,some (lit device)⟩

private def loginsInTurn : List AuthMove :=
  registered ++ .spawn (annaAgain "desktop")::List.replicate 6 (stepOf 1 "device-2") ++
    .spawn (annaAgain "tablet")::List.replicate 6 (stepOf 2 "device-3")

/-- Both logins count one device before either creates its own. -/
private def loginsAtOnce : List AuthMove :=
  registered ++ [.spawn (annaAgain "desktop"),.spawn (annaAgain "tablet")] ++ List.replicate 3 (stepOf 1 "unused") ++
    List.replicate 3 (stepOf 2 "unused") ++ [stepOf 1 "device-2",stepOf 2 "device-3"]

theorem logins_in_turn_limited : active (authRun asciiAuth twoDevices 0 loginsInTurn) (lit "account-1") ≤ 2 :=
  active_devices_limited asciiAuth twoDevices 0 loginsInTurn (by decide) (lit "account-1")

theorem logins_at_once_unlimited : active (authRun asciiAuth twoDevices 0 loginsAtOnce) (lit "account-1") = 3 := by
  decide

end
end NPSync.Server
