import NPSync.Server.Revocation

/-! `ws/hub.go` with the handlers that reach it: `handleRevokeDevice` publishes
after the revocation, and `handleWebSocket` authenticates once, before the
connection enters the hub. A connection stays until its reader ends. -/
namespace NPSync.Server
open Library

/-- `ws.Event`. -/
structure HubMessage where
  type : Str
  fileID : Str
  version : Nat
  changeSeq : Nat
  originDeviceID : Str
  deviceID : Str
  deriving DecidableEq

def deviceRevoked (target : Str) : HubMessage := ⟨lit "device_revoked",[],0,0,[],target⟩

/-- `conn`; `send` is the content of its channel. -/
structure Conn where
  id : Nat
  accountID : Str
  deviceID : Str
  send : List HubMessage

/-- `Hub`; `byAcct` is the list of connections, told apart by their account. -/
structure Hub where
  conns : List Conn
  nextConn : Nat
  maxPerA : Nat

def sendCapacity : Nat := 64

namespace Hub
variable (h : Hub)

/-- The connection gets an event of this account and origin, if its channel has room. -/
def takes (accountID originDeviceID : Str) (c : Conn) : Bool :=
  c.accountID = accountID && !(originDeviceID ≠ [] && c.deviceID = originDeviceID) && c.send.length < sendCapacity

/-- `Publish`. -/
def publish (accountID originDeviceID : Str) (ev : HubMessage) : Hub :=
  {h with conns := h.conns.map fun c => if takes accountID originDeviceID c then {c with send := c.send ++ [ev]} else c}

/-- The start of `Serve`; an account with too many connections gets none. -/
def join (accountID deviceID : Str) : Option Nat × Hub :=
  if h.maxPerA ≤ (h.conns.filter (fun c => c.accountID = accountID)).length then (none,h)
  else (some h.nextConn,{h with conns := h.conns ++ [⟨h.nextConn,accountID,deviceID,[]⟩],nextConn := h.nextConn + 1})

/-- The end of `Serve`. -/
def leave (id : Nat) : Hub := {h with conns := h.conns.filter (fun c => c.id ≠ id)}

/-- `writer` takes the first event of the channel. -/
def write (id : Nat) : Hub :=
  {h with conns := h.conns.map fun c => if c.id = id then {c with send := c.send.tail} else c}

end Hub

structure HubState where
  auth : AuthState
  hub : Hub

/-- The server with `NewHub(16)`. -/
def HubState.empty (clock : Nat) : HubState := ⟨.empty clock,[],0,16⟩

inductive HubCall where
  | auth (call : AuthCall)
  | publish (accountID originDeviceID : Str) (ev : HubMessage)
  | upgrade
  | join (accountID deviceID : Str)
  | leave (id : Nat)
  | write (id : Nat)

@[reducible] def HubCall.Result : HubCall → Type
  | .auth call => call.Result
  | .publish .. | .leave _ | .write _ => Unit
  | .upgrade => Bool
  | .join .. => Option Nat

def execHub (env : AuthEnv) (s : HubState) : (call : HubCall) → call.Result × HubState
  | .auth call =>
    let out := execAuth env s.auth call
    (out.1,{s with auth := out.2})
  | .publish accountID originDeviceID ev => ((),{s with hub := s.hub.publish accountID originDeviceID ev})
  | .upgrade => (!env.fault,s)
  | .join accountID deviceID =>
    let out := s.hub.join accountID deviceID
    (out.1,{s with hub := out.2})
  | .leave id => ((),{s with hub := s.hub.leave id})
  | .write id => ((),{s with hub := s.hub.write id})

abbrev HubProgram := Program HubCall HubCall.Result AuthResponse

/-- A handler that does not reach the hub. -/
def liftAuth : AuthHandler → HubProgram
  | .done response => .done response
  | .call op next => .call (.auth op) fun result => liftAuth (next result)

/-- The requests, the events that other handlers publish, and the steps of the writers. -/
inductive HubRequest where
  | auth (request : AuthRequest)
  | publish (accountID originDeviceID : Str) (ev : HubMessage)
  | write (id : Nat)

section
variable (lib : AuthLibrary) (cfg : AuthConfig)

/-- `handleRevokeDevice` publishes between the revocation and its answer. -/
def revokeAndPublish (claims : Option Claims) (target : Str) : AuthResponse → HubProgram
  | .ok => .call (.publish ((claims.map (·.accountID)).getD []) [] (deviceRevoked target)) fun _ => .done .ok
  | response => .done response

/-- `Serve` after `handleWebSocket` has let the device in; a request that is not a
handshake is not upgraded. -/
def serve : AuthResponse → HubProgram
  | .served accountID deviceID => .call .upgrade fun (upgraded : Bool) =>
    if upgraded then .call (.join accountID deviceID) fun
      | none => .done (.served accountID deviceID)
      | some id => .call (.leave id) fun _ => .done (.served accountID deviceID)
    else .done (.error internalError)
  | response => .done response

def handleHub : HubRequest → HubProgram
  | .auth request =>
    let handled := liftAuth (handleAuth lib cfg request)
    match request with
    | .revokeDevice claims target => handled.bind (revokeAndPublish claims target)
    | .webSocket _ => handled.bind serve
    | _ => handled
  | .publish accountID originDeviceID ev => .call (.publish accountID originDeviceID ev) fun _ => .done .ok
  | .write id => .call (.write id) fun _ => .done .ok

end

abbrev HubLedger := Ledger HubState HubCall HubCall.Result AuthResponse HubRequest

abbrev HubEntry := Entry HubState HubCall HubCall.Result HubRequest

abbrev HubEvent := Event HubCall HubCall.Result

abbrev HubMove := Move HubRequest AuthEnv

def hubRun (lib : AuthLibrary) (cfg : AuthConfig) (clock : Nat) (moves : List HubMove) : HubLedger :=
  run (Ledger.move (handleHub lib cfg) execHub) (Ledger.initial (HubState.empty clock)) moves

/-- The devices on whose connections a `Publish` enqueues its event. -/
def enqueuedOn (entry : HubEntry) : List Str :=
  match entry.event.op with
  | .publish accountID originDeviceID _ => (entry.before.hub.conns.filter (Hub.takes accountID originDeviceID)).map (·.deviceID)
  | _ => []

/-- The last call of a `handleRevokeDevice` that has revoked the device. -/
def revocationReturned (entry : HubEntry) : Option Str :=
  match entry.request,entry.event.op with
  | .auth (.revokeDevice _ target),.publish .. => some target
  | _,_ => none

/-- A device that `handleWebSocket` has let in. -/
def letIn (entry : HubEntry) : Option Str :=
  match entry.request,entry.event with
  | .auth (.webSocket _),⟨.auth call,result⟩ => passedCheck ⟨call,result⟩
  | _,_ => none

/-- The request joins the hub, or its `Upgrade` fails. -/
def settlesCheck (entry : HubEntry) : Bool :=
  match entry.event with
  | ⟨.join ..,_⟩ => true
  | ⟨.upgrade,upgraded⟩ => !upgraded
  | _ => false

/-- When the revocation returns no connection of the device is open, and no request that
was let in for it has yet to join. -/
structure Disconnected (history : List HubEntry) (k : Nat) (deviceID : Str) : Prop where
  closed : ∀ entry ∈ history[k]?, ∀ c ∈ entry.after.hub.conns, c.deviceID ≠ deviceID
  settled : ∀ check ∈ history.take k, letIn check = some deviceID →
    ∃ settled ∈ history.take k, settled.index = check.index ∧ settlesCheck settled = true

/-- `uuidFn` returns a value that no account, device or token has. -/
def HubFresh (l : HubLedger) : HubMove → Prop
  | .spawn _ => True
  | .step _ env => l.shared.auth.mem.accounts.get env.uuid = none ∧ l.shared.auth.mem.devices.get env.uuid = none ∧
    l.shared.auth.mem.tokens.get env.uuid = none

instance (l : HubLedger) (first : HubMove) : Decidable (HubFresh l first) :=
  match first with
  | .spawn _ => .isTrue trivial
  | .step _ _ => inferInstanceAs (Decidable (_ ∧ _))

/-! ### What the handlers may call -/

/-- Only a request that was let in joins, and only a completed revocation is published. -/
def HubAllowed (request : HubRequest) (log : List HubEvent) : HubCall → Prop
  | .join accountID deviceID => ∃ claims, request = .auth (.webSocket claims) ∧
    ∃ dev : DeviceRecord, dev.revokedAt = none ∧
      log = [⟨.auth (.deviceByID accountID deviceID),.ok dev⟩,⟨.upgrade,true⟩]
  | .publish .. => ∀ claims target, request = .auth (.revokeDevice claims target) →
    ∃ accountID, (⟨.auth (.revokeDevice accountID target),.ok ()⟩ : HubEvent) ∈ log
  | _ => True

theorem liftAuth_keeps (request : HubRequest) (handler : AuthHandler) (log : List HubEvent) :
    (liftAuth handler).Keeps (HubAllowed request) log := by
  induction handler generalizing log with
  | done response => trivial
  | call op next ih => exact ⟨trivial,fun result => ih result _⟩

section
variable (lib : AuthLibrary) (cfg : AuthConfig)

theorem handleHub_keeps (request : HubRequest) : (handleHub lib cfg request).Keeps (HubAllowed request) [] := by
  cases request with
  | publish accountID originDeviceID ev => exact ⟨nofun,fun _ => trivial⟩
  | write id => exact ⟨trivial,fun _ => trivial⟩
  | auth request =>
    cases request with
    | webSocket claims =>
      cases claims with
      | none => trivial
      | some claims =>
        refine ⟨trivial,fun found => ?_⟩
        cases found with
        | error err => trivial
        | ok dev =>
          show (Program.bind (liftAuth (if dev.revokedAt ≠ none then failedWith unauthorized
            else .done (.served claims.accountID claims.deviceID))) serve).Keeps _ _
          split
          · trivial
          · rename_i active
            refine ⟨trivial,fun upgraded => ?_⟩
            cases upgraded with
            | false => trivial
            | true =>
              refine ⟨⟨some claims,rfl,dev,not_not.mp active,rfl⟩,fun joined => ?_⟩
              cases joined with
              | none => trivial
              | some id => exact ⟨trivial,fun _ => trivial⟩
    | revokeDevice claims target =>
      cases claims with
      | none => trivial
      | some claims =>
        refine ⟨trivial,fun found => ?_⟩
        cases found with
        | error err => trivial
        | ok dev =>
          show (Program.bind (liftAuth (if dev.revokedAt ≠ none then failedWith unauthorized
            else .call (.touchDevice claims.deviceID) fun _ => handleRevokeDevice claims target)) _).Keeps _ _
          split
          · trivial
          · refine ⟨trivial,fun touched => ⟨trivial,fun revoked => ?_⟩⟩
            cases revoked with
            | error err => trivial
            | ok done =>
              refine ⟨?_,fun _ => trivial⟩
              rintro _ _ ⟨⟩
              exact ⟨claims.accountID,List.mem_append_right _ (List.mem_singleton_self _)⟩
    | _ => exact liftAuth_keeps _ _ _

end

/-! ### Revocations and checks beside the hub -/

def hubRevoked : HubEvent → Option Str
  | ⟨.auth call,result⟩ => revokedDevice ⟨call,result⟩
  | _ => none

def hubPassed : HubEvent → Option Str
  | ⟨.auth call,result⟩ => passedCheck ⟨call,result⟩
  | _ => none

structure HubChecks (l : HubLedger) : Prop where
  checks : Ledger.Earlier (fun entry past => ∀ deviceID, hubPassed entry.event = some deviceID →
    ∀ earlier ∈ past, hubRevoked earlier.event ≠ some deviceID) l.history
  marked : ∀ entry ∈ l.history, ∀ deviceID, hubRevoked entry.event = some deviceID → Revoked l.shared.auth.mem deviceID

/-- A call leaves the connections of a device, or it joins one. -/
theorem execHub_conns (env : AuthEnv) (s : HubState) (call : HubCall) {c : Conn} (member : c ∈ (execHub env s call).2.hub.conns) :
    (∃ old ∈ s.hub.conns, old.deviceID = c.deviceID) ∨ ∃ accountID, call = .join accountID c.deviceID := by
  cases call with
  | auth call => exact .inl ⟨c,member,rfl⟩
  | publish accountID originDeviceID ev =>
    obtain ⟨old,inside,rfl⟩ := List.mem_map.mp member
    refine .inl ⟨old,inside,?_⟩
    split <;> rfl
  | join accountID deviceID =>
    simp only [execHub,Hub.join] at member
    split at member
    · exact .inl ⟨c,member,rfl⟩
    · rcases List.mem_append.mp member with old | new
      · exact .inl ⟨c,old,rfl⟩
      · right
        rw [List.mem_singleton.mp new]
        exact ⟨accountID,rfl⟩
  | upgrade => exact .inl ⟨c,member,rfl⟩
  | leave id => exact .inl ⟨c,List.mem_of_mem_filter member,rfl⟩
  | write id =>
    obtain ⟨old,inside,rfl⟩ := List.mem_map.mp member
    refine .inl ⟨old,inside,?_⟩
    split <;> rfl

/-- A connection that is open now was open after an earlier call, or has joined since. -/
def ConnsKept (l : HubLedger) : Prop :=
  ∀ (k : Nat) (entry : HubEntry), l.history[k]? = some entry → ∀ c ∈ l.shared.hub.conns,
    (∃ old ∈ entry.after.hub.conns, old.deviceID = c.deviceID) ∨
      ∃ (j : Nat) (join : HubEntry), k < j ∧ l.history[j]? = some join ∧ ∃ accountID, join.event.op = .join accountID c.deviceID

section
variable (lib : AuthLibrary) (cfg : AuthConfig) (clock : Nat) (moves : List HubMove)

theorem hubRun_checks
    (fresh : Guarded (Ledger.move (handleHub lib cfg) execHub) HubFresh (Ledger.initial (HubState.empty clock)) moves) :
    HubChecks (hubRun lib cfg clock moves) := by
  refine (Ledger.ledger_invariant (fun _ _ _ => True) HubFresh HubChecks (fun _ => trivial) (fun _ _ _ _ _ _ => trivial)
    (fun _ _ _ holds => ⟨holds.1,holds.2⟩) ?_ (HubState.empty clock) moves ⟨Ledger.earlier_nil _,by simp [Ledger.initial]⟩ fresh).1
  rintro l index env request op next log ⟨checks,marked⟩ - - ⟨-,unused,-⟩ -
  cases op with
  | auth call =>
    refine ⟨checks.snoc _ ?_,?_⟩
    · intro deviceID passed earlier member done
      exact execAuth_passes env l.shared.auth call deviceID passed (marked earlier member deviceID done)
    · intro entry member deviceID done
      rcases List.mem_append.mp member with old | new
      · exact execAuth_revoked env l.shared.auth call deviceID unused (marked entry old deviceID done)
      · rw [List.mem_singleton.mp new] at done
        exact execAuth_revokes env l.shared.auth call deviceID done
  | publish | upgrade | join | leave | write =>
    refine ⟨checks.snoc _ ?_,?_⟩
    · intro deviceID passed
      contradiction
    intro entry member deviceID done
    rcases List.mem_append.mp member with old | new
    · exact marked entry old deviceID done
    · rw [List.mem_singleton.mp new] at done
      contradiction

theorem hubRun_conns : ConnsKept (hubRun lib cfg clock moves) := by
  refine (Ledger.ledger_invariant (fun _ _ _ => True) (fun _ _ => True) ConnsKept (fun _ => trivial) (fun _ _ _ _ _ _ => trivial)
    (fun _ _ _ holds => holds) ?_ (HubState.empty clock) moves ?_ (guarded_trivial _ _ _)).1
  on_goal 2 => simp [ConnsKept,Ledger.initial]
  intro l index env request op next log holds _ _ _ _ k entry found c member
  rcases Nat.lt_or_ge k l.history.length with before | last
  · have there : l.history[k]? = some entry := (List.getElem?_append_left before).symm.trans found
    have later : ∀ old ∈ l.shared.hub.conns, old.deviceID = c.deviceID → (∃ old ∈ entry.after.hub.conns, old.deviceID = c.deviceID) ∨
        ∃ (j : Nat) (join : HubEntry), k < j ∧ (Ledger.called execHub l index env request op next log).history[j]? = some join ∧
          ∃ accountID, join.event.op = .join accountID c.deviceID := by
      intro old inside same
      rcases holds k entry there old inside with left | ⟨j,join,order,at_j,accountID,joins⟩
      · exact .inl (same ▸ left)
      · have bound := (List.getElem?_eq_some_iff.mp at_j).1
        exact .inr ⟨j,join,order,(List.getElem?_append_left bound).trans at_j,accountID,same ▸ joins⟩
    rcases execHub_conns env l.shared op member with ⟨old,inside,same⟩ | ⟨accountID,joins⟩
    · exact later old inside same
    · exact .inr ⟨l.history.length,_,before,List.getElem?_concat_length,accountID,joins⟩
  · have same : entry.after = (execHub env l.shared op).2 := by
      have bound := (List.getElem?_eq_some_iff.mp found).1
      simp only [Ledger.called,List.length_append,List.length_singleton] at bound
      obtain rfl : k = l.history.length := by omega
      rw [← Option.some.inj (List.getElem?_concat_length.symm.trans found)]
    rw [same]
    exact .inl ⟨c,member,rfl⟩

theorem hubRun_disciplined : Ledger.Earlier (fun entry past => HubAllowed entry.request (Ledger.callsOf past entry.index) entry.event.op)
    (hubRun lib cfg clock moves).history :=
  Ledger.ledger_disciplined HubAllowed (handleHub_keeps lib cfg) (HubState.empty clock) moves

theorem hubRun_logged : (hubRun lib cfg clock moves).Logged := Ledger.run_logged _ _ _ moves

theorem revocation_unpassed {revocation : HubEntry} {deviceID : Str} (returned : revocationReturned revocation = some deviceID) :
    hubPassed revocation.event = none := by
  unfold revocationReturned at returned
  split at returned
  · rename_i op
    unfold hubPassed
    split
    · rename_i event
      rw [event] at op
      contradiction
    · rfl
  · contradiction

/-- The revocation stands before its publication. -/
theorem revocation_before {k : Nat} {revocation : HubEntry} {deviceID : Str}
    (found : (hubRun lib cfg clock moves).history[k]? = some revocation) (returned : revocationReturned revocation = some deviceID) :
    ∃ earlier ∈ (hubRun lib cfg clock moves).history.take k, hubRevoked earlier.event = some deviceID := by
  have allowed := (hubRun_disciplined lib cfg clock moves).at found
  unfold revocationReturned at returned
  split at returned
  · rename_i claims target accountID origin ev asked op
    obtain rfl : target = deviceID := Option.some.inj returned
    rw [op] at allowed
    obtain ⟨account,logged⟩ := allowed claims target asked
    obtain ⟨earlier,member,-,same⟩ := Ledger.mem_callsOf.mp logged
    refine ⟨earlier,member,?_⟩
    rw [same]
    rfl
  · contradiction

/-- A device that joins was let in before, and its request was upgraded and has made no other call. -/
theorem join_check {j : Nat} {join : HubEntry} {accountID deviceID : Str}
    (found : (hubRun lib cfg clock moves).history[j]? = some join) (joined : join.event.op = .join accountID deviceID) :
    ∃ i check, i < j ∧ (hubRun lib cfg clock moves).history[i]? = some check ∧ check.index = join.index ∧
      letIn check = some deviceID ∧ hubPassed check.event = some deviceID ∧
      ∀ other ∈ (hubRun lib cfg clock moves).history.take j, other.index = join.index → settlesCheck other = false := by
  have allowed := (hubRun_disciplined lib cfg clock moves).at found
  rw [joined] at allowed
  obtain ⟨claims,asked,dev,active,log⟩ := allowed
  obtain ⟨check,member,mine,same⟩ := Ledger.mem_callsOf.mp (log ▸ List.mem_cons_self)
  obtain ⟨i,bound,here⟩ := List.getElem_of_mem member
  have order : i < j := Nat.lt_of_lt_of_le bound (List.length_take_le _ _)
  have at_i : (hubRun lib cfg clock moves).history[i]? = some check := by
    rw [← List.getElem?_take_of_lt order,List.getElem?_eq_some_iff]
    exact ⟨bound,here⟩
  have logged := hubRun_logged lib cfg clock moves
  have request : check.request = join.request := by
    have first := logged.asked check (List.mem_of_mem_take member)
    have second := logged.asked join (List.mem_of_getElem? found)
    rw [mine] at first
    exact Option.some.inj (first.symm.trans second)
  refine ⟨i,check,order,at_i,mine,?_,?_,?_⟩
  · rw [letIn,request,asked,same]
    exact if_pos active
  · rw [same]
    exact if_pos active
  · intro other inside its
    have event : other.event ∈ Ledger.callsOf ((hubRun lib cfg clock moves).history.take j) join.index :=
      Ledger.mem_callsOf.mpr ⟨other,inside,its,rfl⟩
    rw [log] at event
    rcases List.mem_cons.mp event with checked | upgraded
    · rw [settlesCheck,checked]
    · rw [settlesCheck,List.mem_singleton.mp upgraded]
      rfl

/-- When a revocation returns while no connection of the device is open and none of its
requests has yet to join or fail to upgrade, no later `Publish` enqueues an event for it. -/
theorem revoked_device_silent
    (fresh : Guarded (Ledger.move (handleHub lib cfg) execHub) HubFresh (Ledger.initial (HubState.empty clock)) moves)
    (k m : Nat) (order : k < m) (revocation later : HubEntry) (deviceID : Str)
    (before : (hubRun lib cfg clock moves).history[k]? = some revocation)
    (after : (hubRun lib cfg clock moves).history[m]? = some later) (returned : revocationReturned revocation = some deviceID)
    (disconnected : Disconnected (hubRun lib cfg clock moves).history k deviceID) : deviceID ∉ enqueuedOn later := by
  intro enqueued
  have open_ : ∃ c ∈ later.before.hub.conns, c.deviceID = deviceID := by
    unfold enqueuedOn at enqueued
    split at enqueued
    · obtain ⟨c,taken,same⟩ := List.mem_map.mp enqueued
      exact ⟨c,List.mem_of_mem_filter taken,same⟩
    · contradiction
  obtain ⟨c,member,device⟩ := open_
  -- The connections of the moment are those of the run up to it.
  have bound : m < (hubRun lib cfg clock moves).history.length := (List.getElem?_eq_some_iff.mp after).1
  have split : (hubRun lib cfg clock moves).history =
      (hubRun lib cfg clock moves).history.take m ++ later::(hubRun lib cfg clock moves).history.drop (m + 1) := by
    rw [← (List.getElem?_eq_some_iff.mp after).2,← List.drop_eq_getElem_cons bound,List.take_append_drop]
  obtain ⟨prior,env,op,next,log,past,-,shared,-,-⟩ := Ledger.entry_moment (HubState.empty clock) moves _ _ later split
  have history : (hubRun lib cfg clock prior).history = (hubRun lib cfg clock moves).history.take m := past
  have earlier : ∀ (j : Nat) (entry : HubEntry), (hubRun lib cfg clock prior).history[j]? = some entry →
      (hubRun lib cfg clock moves).history[j]? = some entry := by
    intro j entry found
    rw [history,List.getElem?_take] at found
    split at found
    · exact found
    · contradiction
  have there : (hubRun lib cfg clock prior).history[k]? = some revocation := by
    rw [history,List.getElem?_take_of_lt order]
    exact before
  rw [shared] at member
  rcases hubRun_conns lib cfg clock prior k revocation there c member with ⟨old,stays,same⟩ | ⟨j,join,after_k,at_j,accountID,joined⟩
  · exact disconnected.closed revocation before old stays (same.trans device)
  rw [device] at joined
  obtain ⟨i,check,first,at_i,mine,entered,passed,alone⟩ := join_check lib cfg clock moves (earlier j join at_j) joined
  rcases Nat.lt_trichotomy i k with sooner | same | after_
  · -- the request was let in before, and has joined before
    obtain ⟨other,inside,its,settled⟩ := disconnected.settled check (Ledger.mem_take sooner at_i) entered
    have inside_j := List.take_subset_take_left _ (Nat.le_of_lt after_k) inside
    rw [alone other inside_j (its.trans mine)] at settled
    contradiction
  · subst same
    obtain rfl := Option.some.inj (before.symm.trans at_i)
    rw [revocation_unpassed returned] at passed
    contradiction
  · -- the check comes after the revocation, which it would have to overlook
    obtain ⟨revoked,inside,done⟩ := revocation_before lib cfg clock moves before returned
    exact (hubRun_checks lib cfg clock moves fresh).checks.at at_i deviceID passed revoked
      (List.take_subset_take_left _ (Nat.le_of_lt after_) inside) done

end

instance (history : List HubEntry) (k : Nat) (deviceID : Str) : Decidable (Disconnected history k deviceID) :=
  decidable_of_iff ((∀ entry ∈ history[k]?, ∀ c ∈ entry.after.hub.conns, c.deviceID ≠ deviceID) ∧
      ∀ check ∈ history.take k, letIn check = some deviceID →
        ∃ settled ∈ history.take k, settled.index = check.index ∧ settlesCheck settled = true)
    ⟨fun both => ⟨both.1,both.2⟩,fun parts => ⟨parts.closed,parts.settled⟩⟩

section
open SampleServer

private def runs (thread : Nat) (uuids : List String) : List HubMove := uuids.map fun uuid => .step thread (drawing uuid)

private def unused (calls : Nat) : List String := List.replicate calls "unused"

/-- Anna's laptop `device-1` and phone `device-2`; the laptop opens its socket. -/
private def connected : List HubMove :=
  .spawn (.auth annaRegisters)::runs 0 ["account-1","unused","device-1","unused","token-1"] ++
    .spawn (.auth (.login ⟨lit "anna@example.org",lit "correct-horse-1",lit "phone"⟩ ⟨true,none,some (lit "world")⟩))::
      runs 1 ["unused","unused","unused","device-2","unused","token-2"] ++
    .spawn (.auth (.webSocket anna))::runs 2 (unused 3)

/-- The phone revokes the laptop; then a change of the account is published. -/
private def revokedThenChanged : List HubMove :=
  .spawn (.auth (.revokeDevice (some ⟨lit "account-1",lit "device-2"⟩) (lit "device-1")))::runs 3 (unused 4) ++
    .spawn (.publish (lit "account-1") (lit "device-2") ⟨lit "file_changed",lit "f",2,7,lit "device-2",[]⟩)::runs 4 (unused 1)

theorem closed_socket_silent : ∃ revocation later : HubEntry,
    (hubRun asciiAuth openServer 0 (connected ++ runs 2 (unused 1) ++ revokedThenChanged)).history[18]? = some revocation ∧
      (hubRun asciiAuth openServer 0 (connected ++ runs 2 (unused 1) ++ revokedThenChanged)).history[19]? = some later ∧
      revocationReturned revocation = some (lit "device-1") ∧ lit "device-1" ∉ enqueuedOn later := by
  have facts : Guarded (Ledger.move (handleHub asciiAuth openServer) execHub) HubFresh (Ledger.initial (HubState.empty 0))
        (connected ++ runs 2 (unused 1) ++ revokedThenChanged) ∧
      ((hubRun asciiAuth openServer 0 (connected ++ runs 2 (unused 1) ++ revokedThenChanged)).history[18]?).bind revocationReturned =
        some (lit "device-1") ∧
      ((hubRun asciiAuth openServer 0 (connected ++ runs 2 (unused 1) ++ revokedThenChanged)).history[19]?).isSome = true ∧
      Disconnected (hubRun asciiAuth openServer 0 (connected ++ runs 2 (unused 1) ++ revokedThenChanged)).history 18
        (lit "device-1") := by
    decide
  obtain ⟨fresh,first,second,disconnected⟩ := facts
  obtain ⟨revocation,before,returned⟩ := Option.bind_eq_some_iff.mp first
  obtain ⟨later,after⟩ := Option.isSome_iff_exists.mp second
  exact ⟨revocation,later,before,after,returned,revoked_device_silent asciiAuth openServer 0 _ fresh 18 19 (by decide) revocation
    later (lit "device-1") before after returned disconnected⟩

/-- The socket of the revoked laptop stays open and gets the change. -/
theorem open_socket_notified : ¬∀ (lib : AuthLibrary) (cfg : AuthConfig) (clock : Nat) (moves : List HubMove),
    Guarded (Ledger.move (handleHub lib cfg) execHub) HubFresh (Ledger.initial (HubState.empty clock)) moves →
      ∀ (k m : Nat) (revocation later : HubEntry) (deviceID : Str), k < m → (hubRun lib cfg clock moves).history[k]? = some revocation →
        (hubRun lib cfg clock moves).history[m]? = some later → revocationReturned revocation = some deviceID →
          deviceID ∉ enqueuedOn later := by
  intro always
  have facts : Guarded (Ledger.move (handleHub asciiAuth openServer) execHub) HubFresh (Ledger.initial (HubState.empty 0))
        (connected ++ revokedThenChanged) ∧
      ((hubRun asciiAuth openServer 0 (connected ++ revokedThenChanged)).history[17]?).bind revocationReturned =
        some (lit "device-1") ∧
      ((hubRun asciiAuth openServer 0 (connected ++ revokedThenChanged)).history[18]?).map enqueuedOn = some [lit "device-1"] := by
    decide
  obtain ⟨fresh,first,second⟩ := facts
  obtain ⟨revocation,before,returned⟩ := Option.bind_eq_some_iff.mp first
  obtain ⟨later,after,enqueued⟩ := Option.map_eq_some_iff.mp second
  apply always asciiAuth openServer 0 (connected ++ revokedThenChanged) fresh 17 18 revocation later (lit "device-1") (by decide)
    before after returned
  rw [enqueued]
  exact List.mem_singleton_self _

end

end NPSync.Server
