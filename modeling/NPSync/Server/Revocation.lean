import NPSync.KnownAnswers
import NPSync.Server.AuthCalls

/-! Revoked devices stay revoked, whatever requests and refreshes run beside the
revocation and whatever tokens they leave behind. -/
namespace NPSync.Server
open Library

abbrev AuthEvent := Event AuthCall AuthCall.Result

abbrev AuthEntry := Entry AuthState AuthCall AuthCall.Result AuthRequest

/-- The device whose check in `withAuth`, `handleWebSocket` or `handleRefresh` succeeds with this call. -/
def passedCheck : AuthEvent → Option Str
  | ⟨.deviceByID _ deviceID,.ok dev⟩ => if dev.revokedAt = none then some deviceID else none
  | ⟨.deviceByIDGlobal deviceID,.ok dev⟩ => if dev.revokedAt = none then some deviceID else none
  | _ => none

/-- The device that a check asks for. -/
def checkedDevice : AuthEvent → Option Str
  | ⟨.deviceByID _ deviceID,_⟩ => some deviceID
  | ⟨.deviceByIDGlobal deviceID,_⟩ => some deviceID
  | _ => none

/-- The requests behind `withAuth`, `handleWebSocket` and `handleRefresh`. -/
def AuthRequest.checks : AuthRequest → Bool
  | .logout _ | .revokeDevice .. | .renameDevice .. | .authorized _ | .webSocket _ | .pair .. | .refresh .. => true
  | _ => false

/-- The device that a completed `RevokeDevice` revokes. -/
def revokedDevice : AuthEvent → Option Str
  | ⟨.revokeDevice _ deviceID,.ok _⟩ => some deviceID
  | _ => none

/-- `uuidFn` returns a value that no account, device or token has. -/
def UuidFresh (l : AuthLedger) : AuthMove → Prop
  | .spawn _ => True
  | .step _ env => l.shared.mem.accounts.get env.uuid = none ∧ l.shared.mem.devices.get env.uuid = none ∧
    l.shared.mem.tokens.get env.uuid = none

instance (l : AuthLedger) (first : AuthMove) : Decidable (UuidFresh l first) :=
  match first with
  | .spawn _ => .isTrue trivial
  | .step _ _ => inferInstanceAs (Decidable (_ ∧ _))

def Revoked (m : AuthMem) (deviceID : Str) : Prop := ∃ dev, m.devices.get deviceID = some dev ∧ dev.revokedAt ≠ none

section
variable {m : AuthMem} {deviceID : Str}

theorem Revoked.of_devices {after : AuthMem} (revoked : Revoked m deviceID) (same : after.devices = m.devices) :
    Revoked after deviceID := by
  obtain ⟨dev,found,when⟩ := revoked
  exact ⟨dev,same ▸ found,when⟩

/-- A device that is replaced keeps its revocation. -/
theorem Revoked.upsert {after : AuthMem} (revoked : Revoked m deviceID) (other : Str) (dev : DeviceRecord)
    (devices : after.devices = m.devices.upsert other dev)
    (kept : ∀ old, m.devices.get other = some old → old.revokedAt ≠ none → dev.revokedAt ≠ none) :
    Revoked after deviceID := by
  obtain ⟨old,found,when⟩ := revoked
  by_cases same : deviceID = other
  · subst same
    exact ⟨dev,by rw [devices,Table.get_upsert_same],kept old found when⟩
  · exact ⟨old,by rw [devices,Table.get_upsert_other _ _ _ _ same,found],when⟩

theorem deviceByID_ok {accountID : Str} {dev : DeviceRecord} (found : m.deviceByID accountID deviceID = .ok dev) :
    m.devices.get deviceID = some dev := by
  unfold AuthMem.deviceByID at found
  split at found
  · contradiction
  · rename_i d there
    split at found
    · rw [there,Except.ok.inj found]
    · contradiction

end

/-- No call takes a revocation back. -/
theorem execAuth_revoked (env : AuthEnv) (s : AuthState) (call : AuthCall) (deviceID : Str)
    (fresh : s.mem.devices.get env.uuid = none) (revoked : Revoked s.mem deviceID) :
    Revoked (execAuth env s call).2.mem deviceID := by
  have step : ∀ {X : Type} (out : Except AuthError X × AuthMem), Revoked out.2 deviceID →
      Revoked (attempt env {s with clock := s.clock + env.elapsed} out).2.mem deviceID := by
    intro X out after
    rcases attempt_cases env {s with clock := s.clock + env.elapsed} out with same | same
    · rw [same]
      exact revoked
    · rw [same]
      exact after
  cases call with
  | createDevice accountID name =>
    refine step _ (revoked.upsert env.uuid _ rfl ?_)
    intro old found
    rw [fresh] at found
    contradiction
  | renameDevice accountID other name =>
    refine step _ ?_
    unfold AuthMem.renameDevice
    split
    · exact revoked
    · rename_i d found
      refine revoked.upsert other _ rfl (fun old there when => ?_)
      rw [deviceByID_ok found] at there
      exact Option.some.inj there ▸ when
  | revokeDevice accountID other =>
    refine step _ ?_
    unfold AuthMem.revokeDevice
    split
    · exact revoked
    · exact revoked.upsert other _ rfl (fun _ _ _ => by simp)
  | touchDevice other =>
    refine step (X := Unit) (.ok (),s.mem.touchDevice other (s.clock + env.elapsed)) ?_
    dsimp only
    unfold AuthMem.touchDevice
    split
    · exact revoked
    · rename_i d found
      refine revoked.upsert other _ rfl (fun old there when => ?_)
      rw [found] at there
      exact Option.some.inj there ▸ when
  | _ => exact revoked.of_devices ((execAuth_sameBut env s _).devices (by simp [AuthCall.part]))

/-- A completed revocation marks the device. -/
theorem execAuth_revokes (env : AuthEnv) (s : AuthState) (call : AuthCall) (deviceID : Str)
    (done : revokedDevice ⟨call,(execAuth env s call).1⟩ = some deviceID) :
    Revoked (execAuth env s call).2.mem deviceID := by
  cases call with
  | revokeDevice accountID other =>
    simp only [execAuth,execAuthAt] at done ⊢
    rcases attempt_cases env {s with clock := s.clock + env.elapsed}
        (s.mem.revokeDevice accountID other (s.clock + env.elapsed)) with same | same
    · rw [same] at done
      contradiction
    · rw [same] at done ⊢
      unfold AuthMem.revokeDevice at done ⊢
      split at done
      · contradiction
      · rename_i d found
        obtain rfl : other = deviceID := Option.some.inj done
        exact ⟨_,Table.get_upsert_same _ _ _,by simp⟩
  | _ => exact absurd done (by simp [revokedDevice])

/-- A check succeeds only for a device that is not revoked. -/
theorem execAuth_passes (env : AuthEnv) (s : AuthState) (call : AuthCall) (deviceID : Str)
    (passed : passedCheck ⟨call,(execAuth env s call).1⟩ = some deviceID) : ¬Revoked s.mem deviceID := by
  have unrevoked : ∀ (dev : DeviceRecord) (other : Str), s.mem.devices.get other = some dev →
      (if dev.revokedAt = none then some other else none) = some deviceID → ¬Revoked s.mem deviceID := by
    rintro dev other found passed ⟨old,there,when⟩
    split at passed
    · rename_i active
      obtain rfl : other = deviceID := Option.some.inj passed
      rw [found] at there
      exact when (Option.some.inj there ▸ active)
    · contradiction
  cases call with
  | deviceByID accountID other =>
    simp only [execAuth,execAuthAt] at passed
    rcases attempt_cases env {s with clock := s.clock + env.elapsed} (s.mem.deviceByID accountID other,s.mem) with
      same | same
    · rw [same] at passed
      contradiction
    · rw [same] at passed
      cases found : s.mem.deviceByID accountID other with
      | error err =>
        rw [found] at passed
        contradiction
      | ok dev =>
        rw [found] at passed
        exact unrevoked dev other (deviceByID_ok found) passed
  | deviceByIDGlobal other =>
    simp only [execAuth,execAuthAt] at passed
    rcases attempt_cases env {s with clock := s.clock + env.elapsed} (s.mem.deviceByIDGlobal other,s.mem) with
      same | same
    · rw [same] at passed
      contradiction
    · rw [same] at passed
      unfold AuthMem.deviceByIDGlobal at passed
      cases found : s.mem.devices.get other with
      | none =>
        rw [found] at passed
        contradiction
      | some dev =>
        rw [found] at passed
        exact unrevoked dev other found passed
  | _ => exact absurd passed (by simp [passedCheck])

/-! ### What a failed check answers -/

/-- A check that does not succeed ends the request with 401. -/
def RefusesUnchecked : AuthHandler → Prop
  | .done _ => True
  | .call op next => ∀ result, RefusesUnchecked (next result) ∧
      (checkedDevice ⟨op,result⟩ ≠ none → passedCheck ⟨op,result⟩ = none → next result = failedWith unauthorized)

theorem checkedDevice_none {event : AuthEvent} (other : event.op.checksDevice = false) : checkedDevice event = none := by
  obtain ⟨op,result⟩ := event
  cases op <;> first | rfl | contradiction

theorem passedCheck_none {event : AuthEvent} {deviceID : Str} (asked : checkedDevice event = some deviceID)
    (never : passedCheck event ≠ some deviceID) : passedCheck event = none := by
  obtain ⟨op,result⟩ := event
  cases op with
  | deviceByID accountID other =>
    cases asked
    cases result with
    | error err => rfl
    | ok dev =>
      simp only [passedCheck] at never ⊢
      split at never
      · contradiction
      · next revoked => rw [if_neg revoked]
  | deviceByIDGlobal other =>
    cases asked
    cases result with
    | error err => rfl
    | ok dev =>
      simp only [passedCheck] at never ⊢
      split at never
      · contradiction
      · next revoked => rw [if_neg revoked]
  | _ => contradiction

theorem refusesUnchecked_of_only {program : AuthHandler} (only : program.Only (fun call => call.checksDevice = false)) :
    RefusesUnchecked program := by
  induction program with
  | done response => trivial
  | call op next ih => exact fun result => ⟨ih result (only.2 result),fun checked => absurd (checkedDevice_none only.1) checked⟩

theorem checkDevice_refuses (claims : Option Claims) (next : Claims → AuthHandler)
    (rest : ∀ claims, RefusesUnchecked (next claims)) : RefusesUnchecked (checkDevice claims next) := by
  cases claims with
  | none => trivial
  | some claims =>
    intro result
    cases result with
    | error err => exact ⟨trivial,fun _ _ => rfl⟩
    | ok dev =>
      dsimp only
      by_cases active : dev.revokedAt = none
      · rw [if_neg (not_not.mpr active)]
        refine ⟨rest claims,fun _ failed => ?_⟩
        simp [passedCheck,active] at failed
      · rw [if_pos active]
        exact ⟨trivial,fun _ _ => rfl⟩

theorem withAuth_refuses (claims : Option Claims) (next : Claims → AuthHandler)
    (rest : ∀ claims, (next claims).Only (fun call => call.checksDevice = false)) : RefusesUnchecked (withAuth claims next) := by
  refine checkDevice_refuses claims _ fun claims => ?_
  exact refusesUnchecked_of_only ⟨rfl,fun _ => rest claims⟩

section
variable (lib : AuthLibrary) (cfg : AuthConfig)

theorem rotateToken_refuses (tok : RefreshToken) (newToken : Option Str) : RefusesUnchecked (rotateToken lib cfg tok newToken) := by
  intro result
  cases result with
  | error err => exact ⟨trivial,fun _ _ => rfl⟩
  | ok dev =>
    dsimp only
    by_cases active : dev.revokedAt = none
    · rw [if_pos active]
      refine ⟨?_,fun _ failed => ?_⟩
      · cases newToken with
        | none => trivial
        | some newRefresh =>
          refine refusesUnchecked_of_only ⟨rfl,fun now => ⟨rfl,fun result => ?_⟩⟩
          cases result <;> trivial
      · simp [passedCheck,active] at failed
    · rw [if_neg active]
      exact ⟨trivial,fun _ _ => rfl⟩

theorem handleRefresh_refuses (refreshToken : Str) (newToken : Option Str) :
    RefusesUnchecked (handleRefresh lib cfg refreshToken newToken) := by
  refine fun result => ⟨?_,fun checked => absurd rfl checked⟩
  rcases result with err | tok
  · cases err <;> trivial
  · dsimp only
    split
    · trivial
    · refine fun now => ⟨?_,fun checked => absurd rfl checked⟩
      dsimp only
      split
      · trivial
      · exact rotateToken_refuses lib cfg tok newToken

theorem handleAuth_refuses (request : AuthRequest) (checks : request.checks = true) :
    RefusesUnchecked (handleAuth lib cfg request) := by
  cases request with
  | refresh refreshToken newToken => exact handleRefresh_refuses lib cfg refreshToken newToken
  | logout claims =>
    refine withAuth_refuses claims _ fun claims => ⟨rfl,fun result => ?_⟩
    cases result <;> trivial
  | revokeDevice claims target =>
    refine withAuth_refuses claims _ fun claims => ⟨rfl,fun result => ?_⟩
    cases result <;> trivial
  | renameDevice claims target name =>
    refine withAuth_refuses claims _ fun claims => ?_
    unfold handleRenameDevice
    dsimp only
    split
    · trivial
    · refine ⟨rfl,fun result => ?_⟩
      cases result <;> trivial
  | authorized claims => exact withAuth_refuses claims _ fun _ => trivial
  | webSocket claims => exact checkDevice_refuses claims _ fun _ => trivial
  | pair claims action =>
    exact withAuth_refuses claims _ fun claims => handlePair_only (fun _ _ _ _ other => other) claims action
  | _ => contradiction

end

/-- The thread has come to this point without passing over a failed check. -/
def RefusalServed (request : AuthRequest) (program : AuthHandler) (_ : List AuthEvent) : Prop :=
  request.checks = true → RefusesUnchecked program

/-- The request of a failed check is answered with 401. -/
def Unauthorized (l : AuthLedger) (entry : AuthEntry) : Prop :=
  ∃ log, l.threads[entry.index]? = some ⟨failedWith unauthorized,log⟩

/-- An answer stands. -/
theorem Unauthorized.called {l : AuthLedger} {entry : AuthEntry} (refused : Unauthorized l entry) {index : Nat} (env : AuthEnv)
    {request : AuthRequest} {op : AuthCall} {next : op.Result → AuthHandler} {log : List AuthEvent}
    (serves : l.Serves index request (.call op next) log) :
    Unauthorized (Ledger.called execAuth l index env request op next log) entry := by
  obtain ⟨calls,answered⟩ := refused
  refine ⟨calls,?_⟩
  by_cases same : entry.index = index
  · rw [same,serves.thread] at answered
    simp [failedWith] at answered
  · simp only [Ledger.called,List.getElem?_set_ne (Ne.symm same)]
    exact answered

/-- No check of an entry succeeds for a device revoked before. -/
def ChecksHold (entry : AuthEntry) (past : List AuthEntry) : Prop :=
  ∀ deviceID, passedCheck entry.event = some deviceID → ∀ earlier ∈ past, revokedDevice earlier.event ≠ some deviceID

structure ChecksInv (l : AuthLedger) : Prop where
  checks : Ledger.Earlier ChecksHold l.history
  marked : ∀ entry ∈ l.history, ∀ deviceID, revokedDevice entry.event = some deviceID → Revoked l.shared.mem deviceID
  refused : ∀ entry ∈ l.history, entry.request.checks = true → checkedDevice entry.event ≠ none →
    passedCheck entry.event = none → Unauthorized l entry

section
variable (lib : AuthLibrary) (cfg : AuthConfig) (clock : Nat) (moves : List AuthMove)

/-- After a completed `RevokeDevice` no later device check succeeds for the device,
and the request that makes it is answered with 401. -/
theorem revocation_final
    (fresh : Guarded (Ledger.move (handleAuth lib cfg) execAuth) UuidFresh (Ledger.initial (AuthState.empty clock)) moves)
    (first second : Nat) (order : first < second) (revocation check : AuthEntry) (deviceID : Str)
    (before : (authRun lib cfg clock moves).history[first]? = some revocation)
    (later : (authRun lib cfg clock moves).history[second]? = some check)
    (revoked : revokedDevice revocation.event = some deviceID) :
    passedCheck check.event ≠ some deviceID ∧
      (check.request.checks = true → checkedDevice check.event = some deviceID → Unauthorized (authRun lib cfg clock moves) check) := by
  have invariant : ChecksInv (authRun lib cfg clock moves) ∧ _ := Ledger.ledger_invariant RefusalServed UuidFresh
    ChecksInv (handleAuth_refuses lib cfg) (fun _ _ _ _ served result checks => (served checks result).1) ?_ ?_
    (AuthState.empty clock) moves ?_ fresh
  · have never : passedCheck check.event ≠ some deviceID := fun passed =>
      invariant.1.checks.at later deviceID passed revocation (Ledger.mem_take order before) revoked
    refine ⟨never,fun checks asked => ?_⟩
    apply invariant.1.refused check (List.mem_of_getElem? later) checks
    · rw [asked]
      exact Option.some_ne_none deviceID
    · exact passedCheck_none asked never
  · rintro l request logged ⟨checks,marked,refused⟩
    refine ⟨checks,marked,fun entry member asks checked failed => ?_⟩
    obtain ⟨log,answered⟩ := refused entry member asks checked failed
    exact ⟨log,(List.getElem?_append_left (logged.bounded entry member)).trans answered⟩
  · rintro l index env request op next log ⟨checks,marked,refused⟩ served logged ⟨-,unused,-⟩ serves
    refine ⟨checks.snoc _ ?_,?_,?_⟩
    · intro deviceID passed earlier member done
      exact execAuth_passes env l.shared op deviceID passed (marked earlier member deviceID done)
    · intro entry member deviceID done
      rcases List.mem_append.mp member with old | new
      · exact execAuth_revoked env l.shared op deviceID unused (marked entry old deviceID done)
      · rw [List.mem_singleton.mp new] at done
        exact execAuth_revokes env l.shared op deviceID done
    · intro entry member asks checked failed
      rcases List.mem_append.mp member with old | new
      · exact (refused entry old asks checked failed).called env serves
      · obtain rfl := List.mem_singleton.mp new
        have bound : index < l.threads.length := (List.getElem?_eq_some_iff.mp serves.thread).1
        have answers := (served index request _ log serves asks _).2 checked failed
        refine ⟨log ++ [⟨op,(execAuth env l.shared op).1⟩],?_⟩
        simp only [Ledger.called,List.getElem?_set_self bound]
        rw [answers]
  · exact ⟨Ledger.earlier_nil _,by simp [Ledger.initial],by simp [Ledger.initial]⟩

end

namespace SampleServer
open KnownAnswers (sample)

/-- ASCII text as Go's `strings` treats it, and one known password. -/
def asciiAuth : AuthLibrary where
  prim := sample
  normalizeEmail e := (IgnoreRules.trim e).map asciiLower
  trimSpace := IgnoreRules.trim
  verifyPassword hash password := hash = lit "argon2-1" && password = lit "correct-horse-1"

/-- Open registration, five devices, Google enabled. -/
def openServer : AuthConfig := ⟨true,5,1000000000,5,1000000000,true⟩

/-- A call that no time passes before, with the given value of `uuidFn`. -/
def drawing (uuid : String) : AuthEnv := ⟨0,lit uuid,false,none,none⟩

def stepOf (thread : Nat) (uuid : String) : AuthMove := .step thread (drawing uuid)

def annaRegisters : AuthRequest :=
  .register ⟨lit "anna@example.org",lit "correct-horse-1",lit "laptop"⟩ ⟨true,some (lit "argon2-1"),some (lit "hello")⟩

/-- The registration of a first account `account-1` with the device `device-1`. -/
def registered : List AuthMove :=
  [.spawn annaRegisters,stepOf 0 "account-1",stepOf 0 "unused",stepOf 0 "device-1",stepOf 0 "unused",stepOf 0 "token-1"]

def anna : Option Claims := some ⟨lit "account-1",lit "device-1"⟩

end SampleServer

section
open SampleServer

/-- The device signs out; then its access token is used again. -/
private def signOut : List AuthMove :=
  registered ++ [.spawn (.logout anna),stepOf 1 "unused",stepOf 1 "unused",stepOf 1 "unused",
    .spawn (.authorized anna),stepOf 2 "unused"]

theorem signed_out_device_refused :
    Guarded (Ledger.move (handleAuth asciiAuth openServer) execAuth) UuidFresh
        (Ledger.initial (AuthState.empty 0)) signOut ∧
      ∃ revocation check : AuthEntry, (authRun asciiAuth openServer 0 signOut).history[7]? = some revocation ∧
        (authRun asciiAuth openServer 0 signOut).history[8]? = some check ∧
        revokedDevice revocation.event = some (lit "device-1") ∧
        passedCheck check.event ≠ some (lit "device-1") ∧ Unauthorized (authRun asciiAuth openServer 0 signOut) check := by
  have facts : Guarded (Ledger.move (handleAuth asciiAuth openServer) execAuth) UuidFresh
        (Ledger.initial (AuthState.empty 0)) signOut ∧
      ((authRun asciiAuth openServer 0 signOut).history[7]?).bind (fun entry => revokedDevice entry.event) =
        some (lit "device-1") ∧
      ((authRun asciiAuth openServer 0 signOut).history[8]?).map (fun entry => (entry.request.checks,checkedDevice entry.event)) =
        some (true,some (lit "device-1")) := by
    decide
  obtain ⟨fresh,first,second⟩ := facts
  obtain ⟨revocation,before,revoked⟩ := Option.bind_eq_some_iff.mp first
  obtain ⟨check,later,same⟩ := Option.map_eq_some_iff.mp second
  obtain ⟨checks,asked⟩ := Prod.mk.inj same
  have final := revocation_final asciiAuth openServer 0 signOut fresh 7 8 (by decide) revocation check (lit "device-1")
    before later revoked
  exact ⟨fresh,revocation,check,before,later,revoked,final.1,final.2 checks asked⟩

end
end NPSync.Server
