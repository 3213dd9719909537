import NPSync.Server.Revocation

/-! Device pairing. The master key a poll hands out is the one that another device
of the same account supplied for the code this device asked for. -/
namespace NPSync.Server
open Library

/-- The pairing code that a call created. -/
def createdCode : AuthEvent → Option PairingCode
  | ⟨.createPairingCode pc,.ok _⟩ => some pc
  | _ => none

/-- The code, the approving device and the wrapped key of an accepted approval. -/
def approvedCode : AuthEvent → Option (Str × Str × Bytes)
  | ⟨.approvePairingCode code device wrapped,.ok _⟩ => some (code,device,wrapped)
  | _ => none

/-- The code that a call read, with its record. -/
def readCode : AuthEvent → Option (Str × PairingCode)
  | ⟨.pairingCodeByCode code,.ok pc⟩ => some (code,pc)
  | _ => none

/-- The code that the thread is about to create. -/
def creating (l : AuthLedger) (index : Nat) : Option PairingCode :=
  match l.threads[index]? with
  | some ⟨.call (.createPairingCode pc) _,_⟩ => some pc
  | _ => none

/-- `generatePairingCode` returns a code that is not in use. -/
def CodesDistinct (l : AuthLedger) : AuthMove → Prop
  | .spawn _ => True
  | .step index _ => ∀ pc ∈ creating l index, l.shared.mem.pairing.get pc.code = none

instance (l : AuthLedger) (first : AuthMove) : Decidable (CodesDistinct l first) :=
  match first with
  | .spawn _ => .isTrue trivial
  | .step index _ => inferInstanceAs (Decidable (∀ pc ∈ creating l index,_))

/-- The device of the claims asked for the code. -/
def RequestsCode (entry : AuthEntry) (code : Str) (claims : Claims) : Prop :=
  entry.request = .pair (some claims) (.request (some code)) ∧ (createdCode entry.event).map (·.code) = some code

/-- Another device of the account supplied the wrapped key for the code while
it was neither consumed nor expired. -/
def ApprovesCode (entry : AuthEntry) (code : Str) (claims : Claims) (wrapped : Bytes) : Prop :=
  ∃ approver text pc, entry.request = .pair (some approver) (.approve code text) ∧
    approver.accountID = claims.accountID ∧ approver.deviceID ≠ claims.deviceID ∧
    Base64.decodeBase64URL text = some wrapped ∧
    approvedCode entry.event = some (code,approver.deviceID,wrapped) ∧
    entry.before.mem.pairing.get code = some pc ∧ pc.consumedAt = none ∧ entry.after.clock ≤ pc.expiresAt

/-! ### What the handlers do with codes -/

/-- What a request has done before it changes a code. -/
def PairingAllowed (request : AuthRequest) (log : List AuthEvent) : AuthCall → Prop
  | .createPairingCode pc => ∃ claims, request = .pair (some claims) (.request (some pc.code)) ∧
    pc.accountID = claims.accountID ∧ pc.requestingDevice = claims.deviceID ∧ pc.wrappedMasterKey = []
  | .approvePairingCode code device wrapped => ∃ claims text pc,
    request = .pair (some claims) (.approve code text) ∧ device = claims.deviceID ∧
    Base64.decodeBase64URL text = some wrapped ∧ (⟨.pairingCodeByCode code,.ok pc⟩ : AuthEvent) ∈ log ∧
    pc.accountID = claims.accountID ∧ pc.requestingDevice ≠ claims.deviceID
  | _ => True

/-- What a poll has seen before it hands out a key. -/
def PairingAnswer (request : AuthRequest) (log : List AuthEvent) (response : AuthResponse) : Prop :=
  ∀ claims code w, request = .pair (some claims) (.poll code) → response = .paired w →
    ∃ pc now before rest, log = before ++ ⟨.pairingCodeByCode code,.ok pc⟩::⟨.now,now⟩::rest ∧
      pc.accountID = claims.accountID ∧ pc.requestingDevice = claims.deviceID ∧ now ≤ pc.expiresAt ∧
      pc.wrappedMasterKey ≠ [] ∧ w = Base64.encodeBase64URL pc.wrappedMasterKey

def PairingServed (request : AuthRequest) (program : AuthHandler) (log : List AuthEvent) : Prop :=
  program.Keeps (PairingAllowed request) log ∧ program.Answers (PairingAnswer request) log

section
variable (lib : AuthLibrary) (cfg : AuthConfig)

theorem pairingServed_done {request : AuthRequest} {log : List AuthEvent} (response : AuthResponse)
    (other : ∀ w, response ≠ .paired w) : PairingServed request (.done response) log :=
  ⟨trivial,fun _ _ w _ same => absurd same (other w)⟩

theorem pairingServed_call {request : AuthRequest} {log : List AuthEvent} (op : AuthCall)
    (next : op.Result → AuthHandler) (allowed : PairingAllowed request log op)
    (rest : ∀ result, PairingServed request (next result) (log ++ [⟨op,result⟩])) :
    PairingServed request (.call op next) log :=
  ⟨⟨allowed,fun result => (rest result).1⟩,fun result => (rest result).2⟩

theorem pairingServed_withAuth (claims : Option Claims) (action : PairAction) (log : List AuthEvent)
    (rest : ∀ known, claims = some known → ∀ log,
      PairingServed (.pair claims action) (handlePair known action) log) :
    PairingServed (.pair claims action) (withAuth claims fun claims => handlePair claims action) log := by
  unfold withAuth checkDevice
  split
  · exact pairingServed_done _ nofun
  · rename_i known
    refine pairingServed_call _ _ trivial fun result => ?_
    cases result with
    | error err => exact pairingServed_done _ nofun
    | ok dev =>
      dsimp only
      split
      · exact pairingServed_done _ nofun
      · exact pairingServed_call _ _ trivial fun _ => rest known rfl _

theorem pairRequestCode_served (claims : Claims) (code : Option Str) (log : List AuthEvent) :
    PairingServed (.pair (some claims) (.request code)) (pairRequestCode claims code) log := by
  unfold pairRequestCode
  split
  · exact pairingServed_done _ nofun
  · rename_i code
    refine pairingServed_call _ _ trivial fun now => ?_
    refine pairingServed_call _ _ ⟨claims,rfl,rfl,rfl,rfl⟩ fun result => ?_
    cases result <;> exact pairingServed_done _ nofun

theorem pairApprove_served (claims : Claims) (code text : Str) (log : List AuthEvent) :
    PairingServed (.pair (some claims) (.approve code text)) (pairApprove claims code text) log := by
  unfold pairApprove
  split
  · exact pairingServed_done _ nofun
  split
  · exact pairingServed_done _ nofun
  rename_i wrapped decoded
  split
  · exact pairingServed_done _ nofun
  refine pairingServed_call _ _ trivial fun result => ?_
  cases result with
  | error err => exact pairingServed_done _ nofun
  | ok pc =>
    dsimp only
    split
    · exact pairingServed_done _ nofun
    rename_i account
    split
    · exact pairingServed_done _ nofun
    rename_i other
    refine pairingServed_call _ _ ⟨claims,text,pc,rfl,rfl,decoded,by simp,not_not.mp account,other⟩ fun result => ?_
    cases result <;> exact pairingServed_done _ nofun

theorem pairPoll_served (claims : Claims) (code : Str) (log : List AuthEvent) :
    PairingServed (.pair (some claims) (.poll code)) (pairPoll claims code) log := by
  unfold pairPoll
  split
  · exact pairingServed_done _ nofun
  refine pairingServed_call _ _ trivial fun result => ?_
  cases result with
  | error err => exact pairingServed_done _ nofun
  | ok pc =>
    dsimp only
    split
    · exact pairingServed_done _ nofun
    rename_i own
    rw [not_or,not_not,not_not] at own
    refine pairingServed_call _ _ trivial fun now => ?_
    dsimp only [answerPoll]
    split
    · exact pairingServed_done _ nofun
    rename_i valid
    rw [not_or] at valid
    split
    · exact pairingServed_done _ nofun
    rename_i filled
    refine pairingServed_call _ _ trivial fun result => ?_
    cases result with
    | error err => exact pairingServed_done _ nofun
    | ok done =>
      refine ⟨trivial,?_⟩
      rintro claims' code' w request response
      injection request with same action
      injection same with same
      injection action with action
      injection response with response
      subst same action
      refine ⟨pc,now,log,[⟨.consumePairingCode code,.ok done⟩],by simp,own.1,own.2,Nat.not_lt.mp valid.1,?_,response.symm⟩
      intro empty
      exact filled (by simp [empty])

section
variable {kind : AuthCall → Prop} (admits : ∀ call, call.part ≠ some .pairing → call.createsDevice = false → kind call)
include admits

/-- The browser's part of a Google sign-in leaves codes and devices alone. -/
theorem handleGoogleCallback_only (state code error : Str) : (handleGoogleCallback lib cfg state code error).Only kind := by
  have lookup : ∀ sub email, (accountForGoogle cfg sub email).Only kind :=
    accountForGoogle_only cfg fun call plain => admits call (AuthCall.plain_parts plain).2.1 (AuthCall.plain_parts plain).2.2.2
  have fails : ∀ code message, (failLogin state code message).Only kind :=
    fun _ _ => ⟨admits _ nofun rfl,fun _ => trivial⟩
  have complete : ∀ sub email, (completeLogin cfg state sub email).Only kind := by
    intro sub email
    refine (lookup sub email).bind fun found => ?_
    rcases found with err | acct
    · cases err with
      | none => exact fails _ _
      | some err => exact fails _ _
    · refine ⟨admits _ nofun rfl,fun r => ?_⟩
      cases r with
      | error err => exact fails _ _
      | ok done => trivial
  unfold handleGoogleCallback
  split
  · trivial
  split
  · trivial
  refine ⟨admits _ nofun rfl,fun r => ?_⟩
  rcases r with err | existing
  · cases err <;> trivial
  refine ⟨admits _ nofun rfl,fun now => ?_⟩
  dsimp only
  split
  · trivial
  split
  · trivial
  · trivial
  · trivial
  · trivial
  refine ⟨admits _ nofun rfl,fun now => ⟨admits _ nofun rfl,fun r => ?_⟩⟩
  rcases r with err | login
  · refine ⟨admits _ nofun rfl,fun r => ?_⟩
    cases r with
    | error err => trivial
    | ok again =>
      dsimp only
      split <;> trivial
  dsimp only
  split
  · exact fails _ _
  split
  · exact fails _ _
  refine ⟨admits _ nofun rfl,fun r => ?_⟩
  cases r with
  | none => exact fails _ _
  | some idToken =>
    refine ⟨admits _ nofun rfl,fun _ => ⟨admits _ nofun rfl,fun identity => ?_⟩⟩
    dsimp only
    split
    · exact fails _ _
    · exact complete _ _

theorem handleGoogleStart_only (deviceName : Str) (allowed : Bool) (draws : Option StartDraws) :
    (handleGoogleStart lib cfg deviceName allowed draws).Only kind := by
  simp only [handleGoogleStart]
  generalize (if lib.trimSpace deviceName = [] then defaultDeviceName else lib.trimSpace deviceName) = name
  split
  · trivial
  split
  · trivial
  split
  · trivial
  split
  · trivial
  · refine ⟨admits _ nofun rfl,fun now => ⟨admits _ nofun rfl,fun r => ?_⟩⟩
    cases r <;> trivial

end

theorem handleGooglePoll_unpaired (state pollSecret : Str) (draws : SignInDraws) :
    (handleGooglePoll lib cfg state pollSecret draws).Only (fun call => call.part ≠ some .pairing) := by
  have reopens : ∀ state err, (reopen state err).Only (fun call => call.part ≠ some .pairing) :=
    fun _ _ => ⟨nofun,fun _ => trivial⟩
  have rejects : (rejectGooglePoll draws).Only (fun call => call.part ≠ some .pairing) := by
    unfold rejectGooglePoll
    split <;> trivial
  unfold handleGooglePoll
  split
  · trivial
  split
  · trivial
  refine ⟨nofun,fun r => ?_⟩
  rcases r with err | login
  · cases err with
    | notFound => exact rejects
    | _ => trivial
  dsimp only
  split
  · exact rejects
  refine ⟨nofun,fun now => ?_⟩
  dsimp only
  split
  · trivial
  split
  · trivial
  · trivial
  · trivial
  · trivial
  refine ⟨nofun,fun r => ?_⟩
  cases r with
  | error err => trivial
  | ok done =>
    refine ⟨nofun,fun r => ?_⟩
    cases r with
    | error err => exact reopens _ _
    | ok acct =>
      refine ⟨nofun,fun r => ?_⟩
      cases r with
      | error err => exact reopens _ _
      | ok count =>
        dsimp only
        split
        · exact reopens _ _
        · refine ⟨nofun,fun r => ?_⟩
          cases r with
          | error err => exact reopens _ _
          | ok dev => exact respondWithTokens_only lib cfg (fun call plain => (AuthCall.plain_parts plain).2.1) acct.id dev.id draws.refreshToken

theorem handleAuth_unpaired (request : AuthRequest) (other : ∀ claims action, request ≠ .pair claims action) :
    (handleAuth lib cfg request).Only (fun call => call.part ≠ some .pairing) := by
  have admits : ∀ call : AuthCall, call.plain = true → call.part ≠ some .pairing :=
    fun call plain => (AuthCall.plain_parts plain).2.1
  have creates : ∀ accountID name, (AuthCall.createDevice accountID name).part ≠ some .pairing := nofun
  cases request with
  | register body draws => exact handleRegister_only lib cfg admits creates body draws
  | login body draws => exact handleLogin_only lib cfg admits creates body draws
  | refresh token newToken => exact handleRefresh_only lib cfg admits token newToken
  | logout claims => exact withAuth_only admits claims _ fun claims => (devices_only lib admits claims [] []).1
  | revokeDevice claims target =>
    exact withAuth_only admits claims _ fun claims => (devices_only lib admits claims target []).2.1
  | renameDevice claims target name =>
    exact withAuth_only admits claims _ fun claims => (devices_only lib admits claims target name).2.2
  | authorized claims => exact withAuth_only admits claims _ fun _ => trivial
  | webSocket claims => exact checkDevice_only admits claims _ fun _ => trivial
  | googleStart deviceName allowed draws => exact handleGoogleStart_only lib cfg (fun _ other _ => other) deviceName allowed draws
  | googleCallback state code error => exact handleGoogleCallback_only lib cfg (fun _ other _ => other) state code error
  | googlePoll state pollSecret draws => exact handleGooglePoll_unpaired lib cfg state pollSecret draws
  | pair claims action => exact absurd rfl (other claims action)

/-- Every request treats pairing codes as it should. -/
theorem handleAuth_pairing (request : AuthRequest) : PairingServed request (handleAuth lib cfg request) [] := by
  by_cases other : ∀ claims action, request ≠ .pair claims action
  · refine ⟨(handleAuth_unpaired lib cfg request other).keeps (fun log op kind => ?_) [],
      Program.answers_of_forall (fun _ _ => ?_) _ []⟩
    · cases op with
      | createPairingCode pc => exact absurd rfl kind
      | approvePairingCode code device wrapped => exact absurd rfl kind
      | _ => trivial
    · exact fun claims code w same => absurd same (other _ _)
  · push Not at other
    obtain ⟨claims,action,rfl⟩ := other
    refine pairingServed_withAuth claims action [] ?_
    rintro known rfl log
    cases action with
    | request code => exact pairRequestCode_served known code log
    | approve code text => exact pairApprove_served known code text log
    | poll code => exact pairPoll_served known code log
    | unknown => exact pairingServed_done _ nofun

end

/-! ### What holds of a stored code -/

/-- The store's record of a code is accounted for by the history. -/
structure CodeKnown (history : List AuthEntry) (code : Str) (pc : PairingCode) : Prop where
  requested : ∃ entry ∈ history, RequestsCode entry code ⟨pc.accountID,pc.requestingDevice⟩
  approved : pc.wrappedMasterKey ≠ [] → ∃ entry ∈ history,
    ApprovesCode entry code ⟨pc.accountID,pc.requestingDevice⟩ pc.wrappedMasterKey

theorem CodeKnown.later {history : List AuthEntry} {code : Str} {pc : PairingCode} (known : CodeKnown history code pc)
    (entry : AuthEntry) : CodeKnown (history ++ [entry]) code pc := by
  obtain ⟨first,member,requests⟩ := known.requested
  refine ⟨⟨first,List.mem_append_left _ member,requests⟩,fun filled => ?_⟩
  obtain ⟨approval,inside,approves⟩ := known.approved filled
  exact ⟨approval,List.mem_append_left _ inside,approves⟩

/-- The fields of a code that never change. -/
def SameCode (a b : PairingCode) : Prop :=
  a.accountID = b.accountID ∧ a.requestingDevice = b.requestingDevice ∧ a.expiresAt = b.expiresAt

structure PairingInv (l : AuthLedger) : Prop where
  codes : ∀ code pc, l.shared.mem.pairing.get code = some pc → CodeKnown l.history code pc
  reads : Ledger.Earlier (fun entry past => ∀ code pc, readCode entry.event = some (code,pc) →
    CodeKnown past code pc) l.history
  stable : ∀ entry ∈ l.history, ∀ code pc, readCode entry.event = some (code,pc) →
    ∃ cur, l.shared.mem.pairing.get code = some cur ∧ SameCode cur pc
  clocks : Ledger.Earlier (fun entry past => ∀ earlier ∈ past, earlier.after.clock ≤ entry.after.clock) l.history
  running : ∀ entry ∈ l.history, entry.after.clock ≤ l.shared.clock
  times : ∀ entry ∈ l.history, ∀ now, entry.event = ⟨.now,now⟩ → now = entry.after.clock

/-- A call takes time and nothing else moves the clock. -/
theorem execAuth_clock (env : AuthEnv) (s : AuthState) (call : AuthCall) :
    (execAuth env s call).2.clock = s.clock + env.elapsed := by
  have spared : ∀ {X : Type} (out : Except AuthError X × AuthMem),
      (attempt env {s with clock := s.clock + env.elapsed} out).2.clock = s.clock + env.elapsed := by
    intro X out
    rcases attempt_cases env {s with clock := s.clock + env.elapsed} out with same | same <;> rw [same]
  cases call with
  | now => rfl
  | exchangeGoogleCode code verifier => rfl
  | verifyRS256IDToken idToken nonce => rfl
  | _ => exact spared _

/-- A read returns what is stored. -/
theorem execAuth_readCode (env : AuthEnv) (s : AuthState) (call : AuthCall) (code : Str) (pc : PairingCode)
    (read : readCode ⟨call,(execAuth env s call).1⟩ = some (code,pc)) : s.mem.pairing.get code = some pc := by
  cases call with
  | pairingCodeByCode other =>
    simp only [execAuth,execAuthAt] at read
    rcases attempt_cases env {s with clock := s.clock + env.elapsed} (s.mem.pairingCodeByCode other,s.mem) with
      same | same
    · rw [same] at read
      contradiction
    · rw [same] at read
      unfold AuthMem.pairingCodeByCode at read
      cases found : s.mem.pairing.get other with
      | none =>
        rw [found] at read
        contradiction
      | some stored =>
        rw [found] at read
        obtain ⟨rfl,rfl⟩ := Prod.mk.inj (Option.some.inj read)
        exact found
  | _ => exact absurd read (by simp [readCode])

/-- What one call can do to the pairing codes. -/
theorem execAuth_pairing (env : AuthEnv) (s : AuthState) (call : AuthCall) :
    (execAuth env s call).2.mem.pairing = s.mem.pairing ∨
    (∃ pc, call = .createPairingCode pc ∧ createdCode ⟨call,(execAuth env s call).1⟩ = some pc ∧
      (execAuth env s call).2.mem.pairing = s.mem.pairing.upsert pc.code pc) ∨
    (∃ code device wrapped pc, call = .approvePairingCode code device wrapped ∧
      approvedCode ⟨call,(execAuth env s call).1⟩ = some (code,device,wrapped) ∧
      s.mem.pairing.get code = some pc ∧ pc.consumedAt = none ∧ s.clock + env.elapsed ≤ pc.expiresAt ∧
      (execAuth env s call).2.mem.pairing =
        s.mem.pairing.upsert code {pc with wrappedMasterKey := wrapped,approvingDevice := some device}) ∨
    ∃ code pc, call = .consumePairingCode code ∧ s.mem.pairing.get code = some pc ∧
      (execAuth env s call).2.mem.pairing =
        s.mem.pairing.upsert code {pc with consumedAt := some (s.clock + env.elapsed)} := by
  by_cases other : call.part = some .pairing
  · cases failing : env.fault with
    | true =>
      refine .inl ?_
      cases call with
      | createPairingCode pc => simp only [execAuth,execAuthAt,attempt,failing,if_true]
      | approvePairingCode code device wrapped => simp only [execAuth,execAuthAt,attempt,failing,if_true]
      | consumePairingCode code => simp only [execAuth,execAuthAt,attempt,failing,if_true]
      | _ => cases other
    | false =>
      cases call with
      | createPairingCode pc =>
        refine .inr (.inl ⟨pc,rfl,?_,?_⟩)
        · simp [execAuth,execAuthAt,attempt,failing,createdCode]
        · simp [execAuth,execAuthAt,attempt,failing,AuthMem.createPairingCode]
      | approvePairingCode code device wrapped =>
        cases found : s.mem.pairing.get code with
        | none => exact .inl (by simp [execAuth,execAuthAt,attempt,failing,AuthMem.approvePairingCode,found])
        | some pc =>
          by_cases closed : pc.consumedAt ≠ none ∨ pc.expiresAt < s.clock + env.elapsed
          · exact .inl (by simp only [execAuth,execAuthAt,attempt,failing,AuthMem.approvePairingCode,found,closed,
              if_true,Bool.false_eq_true,if_false])
          · have usable := not_or.mp closed
            refine .inr (.inr (.inl ⟨code,device,wrapped,pc,rfl,?_,found,not_not.mp usable.1,Nat.not_lt.mp usable.2,?_⟩))
            · simp only [execAuth,execAuthAt,attempt,failing,AuthMem.approvePairingCode,found,closed,
                Bool.false_eq_true,if_false,approvedCode]
            · simp only [execAuth,execAuthAt,attempt,failing,AuthMem.approvePairingCode,found,closed,
                Bool.false_eq_true,if_false]
      | consumePairingCode code =>
        cases found : s.mem.pairing.get code with
        | none => exact .inl (by simp [execAuth,execAuthAt,attempt,failing,AuthMem.consumePairingCode,found])
        | some pc =>
          refine .inr (.inr (.inr ⟨code,pc,rfl,found,?_⟩))
          simp [execAuth,execAuthAt,attempt,failing,AuthMem.consumePairingCode,found]
      | _ => cases other
  · exact .inl ((execAuth_sameBut env s call).pairing other)

/-- A stored code keeps its owner and its expiry. -/
theorem execAuth_sameCode (env : AuthEnv) (s : AuthState) (call : AuthCall) (code : Str) (pc : PairingCode)
    (fresh : ∀ new, call = .createPairingCode new → s.mem.pairing.get new.code = none)
    (found : s.mem.pairing.get code = some pc) :
    ∃ cur, (execAuth env s call).2.mem.pairing.get code = some cur ∧ SameCode cur pc := by
  have kept : ∀ (other : Str) (new : PairingCode), (code = other → SameCode new pc) →
      ∃ cur, (s.mem.pairing.upsert other new).get code = some cur ∧ SameCode cur pc := by
    intro other new same
    rw [Table.get_upsert]
    split
    · rename_i here
      exact ⟨new,rfl,same here⟩
    · exact ⟨pc,found,rfl,rfl,rfl⟩
  rcases execAuth_pairing env s call with
    same | ⟨new,rfl,-,same⟩ | ⟨other,device,wrapped,old,rfl,-,there,-,-,same⟩ | ⟨other,old,rfl,there,same⟩
  · rw [same]
    exact ⟨pc,found,rfl,rfl,rfl⟩
  · rw [same]
    refine kept new.code new (fun here => ?_)
    rw [here,fresh new rfl] at found
    contradiction
  · rw [same]
    refine kept other _ (fun here => ?_)
    rw [← here,found] at there
    cases there
    exact ⟨rfl,rfl,rfl⟩
  · rw [same]
    refine kept other _ (fun here => ?_)
    rw [← here,found] at there
    cases there
    exact ⟨rfl,rfl,rfl⟩

theorem readCode_eq {event : AuthEvent} {code : Str} {pc : PairingCode}
    (same : event = ⟨.pairingCodeByCode code,.ok pc⟩) : readCode event = some (code,pc) := by
  rw [same]
  rfl

/-- The record after a call is accounted for. -/
theorem PairingInv.codes_called {l : AuthLedger} (inv : PairingInv l) (logged : l.Logged) {index : Nat} {env : AuthEnv}
    {request : AuthRequest} {op : AuthCall} {next : op.Result → AuthHandler} {log : List AuthEvent}
    (serves : l.Serves index request (.call op next) log) (allowed : PairingAllowed request log op)
    (code : Str) (pc : PairingCode) (found : (execAuth env l.shared op).2.mem.pairing.get code = some pc) :
    CodeKnown (l.history ++ [⟨index,request,l.shared,⟨op,(execAuth env l.shared op).1⟩,(execAuth env l.shared op).2⟩])
      code pc := by
  rcases execAuth_pairing env l.shared op with
    same | ⟨new,rfl,done,same⟩ | ⟨other,device,wrapped,old,rfl,done,there,unconsumed,early,same⟩ | ⟨other,old,rfl,there,same⟩
  · rw [same] at found
    exact (inv.codes code pc found).later _
  · rw [same,Table.get_upsert] at found
    split at found
    · rename_i here
      cases found
      obtain ⟨claims,asked,account,device,empty⟩ := allowed
      refine ⟨⟨_,List.mem_append_right _ (List.mem_singleton_self _),?_,?_⟩,fun filled => absurd empty filled⟩
      · rw [here,account,device]
        exact asked
      · rw [done,here]
        rfl
    · exact (inv.codes code pc found).later _
  · rw [same,Table.get_upsert] at found
    split at found
    · rename_i here
      subst here
      cases found
      obtain ⟨claims,text,read,asked,rfl,decoded,inside,account,foreign⟩ := allowed
      -- the record that was read earlier has the owner of the current one
      rw [logged.logs index request _ log serves] at inside
      obtain ⟨entry,member,called⟩ := List.mem_map.mp inside
      obtain ⟨cur,stored,owner,asker,-⟩ := inv.stable entry (List.mem_of_mem_filter member) code read (readCode_eq called)
      rw [there] at stored
      cases stored
      refine ⟨((inv.codes code old there).later _).requested,fun _ => ?_⟩
      refine ⟨_,List.mem_append_right _ (List.mem_singleton_self _),claims,text,old,asked,?_,?_,decoded,done,there,
        unconsumed,?_⟩
      · exact account.symm.trans owner.symm
      · intro own
        exact foreign (asker.symm.trans own.symm)
      · rw [execAuth_clock]
        exact early
    · exact (inv.codes code pc found).later _
  · rw [same,Table.get_upsert] at found
    split at found
    · rename_i here
      subst here
      cases found
      have known := (inv.codes code old there).later
        ⟨index,request,l.shared,⟨.consumePairingCode code,(execAuth env l.shared (.consumePairingCode code)).1⟩,
          (execAuth env l.shared (.consumePairingCode code)).2⟩
      exact ⟨known.requested,known.approved⟩
    · exact (inv.codes code pc found).later _

theorem pairingInv_called {l : AuthLedger} (inv : PairingInv l) (logged : l.Logged)
    (served : Ledger.Served PairingServed l) {index : Nat} (env : AuthEnv) {request : AuthRequest} {op : AuthCall}
    {next : op.Result → AuthHandler} {log : List AuthEvent} (guard : CodesDistinct l (.step index env))
    (serves : l.Serves index request (.call op next) log) :
    PairingInv (Ledger.called execAuth l index env request op next log) := by
  have fresh : ∀ new, op = .createPairingCode new → l.shared.mem.pairing.get new.code = none := by
    rintro new rfl
    exact guard new (by simp [creating,serves.thread])
  have allowed := (served index request _ log serves).1.1
  have clock := execAuth_clock env l.shared op
  refine ⟨fun code pc found => inv.codes_called logged serves allowed code pc found,inv.reads.snoc _ ?_,?_,inv.clocks.snoc _ ?_,?_,?_⟩
  · intro code pc read
    exact inv.codes code pc (execAuth_readCode env l.shared op code pc read)
  · intro entry member code pc read
    rcases List.mem_append.mp member with old | new
    · obtain ⟨cur,stored,owner,asker,expiry⟩ := inv.stable entry old code pc read
      obtain ⟨after,found,same⟩ := execAuth_sameCode env l.shared op code cur fresh stored
      exact ⟨after,found,same.1.trans owner,same.2.1.trans asker,same.2.2.trans expiry⟩
    · rw [List.mem_singleton.mp new] at read
      exact execAuth_sameCode env l.shared op code pc fresh (execAuth_readCode env l.shared op code pc read)
  · intro earlier member
    have past := inv.running earlier member
    show earlier.after.clock ≤ (execAuth env l.shared op).2.clock
    omega
  · intro entry member
    show entry.after.clock ≤ (execAuth env l.shared op).2.clock
    rcases List.mem_append.mp member with old | new
    · have past := inv.running entry old
      omega
    · rw [List.mem_singleton.mp new]
  · intro entry member now same
    rcases List.mem_append.mp member with old | new
    · exact inv.times entry old now same
    · rw [List.mem_singleton.mp new] at same ⊢
      dsimp only at same
      cases op with
      | now =>
        injection same with _ value
        exact value.symm
      | _ => injection same with wrong; cases wrong

section
variable (lib : AuthLibrary) (cfg : AuthConfig) (clock : Nat) (moves : List AuthMove)

theorem authRun_pairing (distinct : Guarded (Ledger.move (handleAuth lib cfg) execAuth) CodesDistinct
      (Ledger.initial (AuthState.empty clock)) moves) :
    PairingInv (authRun lib cfg clock moves) ∧ Ledger.Served PairingServed (authRun lib cfg clock moves) ∧
      (authRun lib cfg clock moves).Logged := by
  refine Ledger.ledger_invariant PairingServed CodesDistinct PairingInv (handleAuth_pairing lib cfg)
    (fun request op next log kept result => ⟨kept.1.2 result,kept.2 result⟩)
    (fun l request _ inv => ⟨inv.codes,inv.reads,inv.stable,inv.clocks,inv.running,inv.times⟩)
    (fun l index env request op next log inv served logged guard serves =>
      pairingInv_called inv logged served env guard serves)
    (AuthState.empty clock) moves ?_ distinct
  exact ⟨by simp [Ledger.initial,AuthState.empty,AuthMem.newMem],Ledger.earlier_nil _,by simp [Ledger.initial],
    Ledger.earlier_nil _,by simp [Ledger.initial],by simp [Ledger.initial]⟩

/-- A poll that answers with a key read its code before the expiry; this device
asked for the code, and another device of the account supplied the key earlier. -/
theorem pairing_agreement (distinct : Guarded (Ledger.move (handleAuth lib cfg) execAuth) CodesDistinct
      (Ledger.initial (AuthState.empty clock)) moves)
    (index : Nat) (claims : Claims) (code w : Str) (log : List AuthEvent)
    (answered : (authRun lib cfg clock moves).Serves index (.pair (some claims) (.poll code)) (.done (.paired w)) log) :
    ∃ past read future pc, (authRun lib cfg clock moves).history = past ++ read::future ∧ read.index = index ∧
      readCode read.event = some (code,pc) ∧ read.after.clock ≤ pc.expiresAt ∧
      (∃ entry ∈ past, RequestsCode entry code claims) ∧
      ∃ entry ∈ past, ∃ wrapped, ApprovesCode entry code claims wrapped ∧ w = Base64.encodeBase64URL wrapped := by
  obtain ⟨inv,served,logged⟩ := authRun_pairing lib cfg clock moves distinct
  obtain ⟨pc,now,before,rest,calls,account,device,early,filled,same⟩ :=
    (served index _ _ log answered).2 claims code w rfl rfl
  rw [logged.logs index _ _ log answered] at calls
  obtain ⟨past,read,future,history,owner,event,-,later⟩ := Ledger.callsOf_split calls
  have next : Ledger.callsOf future index = [] ++ ⟨.now,now⟩::rest := later
  obtain ⟨between,tick,after,order,-,ticked,-,-⟩ := Ledger.callsOf_split next
  have known := inv.reads past read future history code pc (readCode_eq event)
  -- the clock was read after the code
  have whole : (authRun lib cfg clock moves).history = (past ++ read::between) ++ tick::after := by
    rw [history,order,List.append_assoc,List.cons_append]
  have time : now = tick.after.clock := inv.times tick (by rw [whole]; simp) now ticked
  have order : read.after.clock ≤ tick.after.clock := inv.clocks _ tick after whole read (by simp)
  have owned : (⟨pc.accountID,pc.requestingDevice⟩ : Claims) = claims := by rw [account,device]
  obtain ⟨approval,inside,approves⟩ := known.approved filled
  rw [owned] at approves
  exact ⟨past,read,future,pc,history,owner,readCode_eq event,order.trans (time ▸ early),owned ▸ known.requested,approval,inside,_,approves,same⟩

end

/-- The key that a thread has answered with. -/
def pairedAnswer (thread : Thread AuthCall AuthCall.Result AuthResponse) : Option Str :=
  match thread.program with
  | .done (.paired w) => some w
  | _ => none

theorem serves_of_pairedAnswer {l : AuthLedger} {index : Nat} {request : AuthRequest} {w : Str}
    (asked : l.requests[index]? = some request) (answer : (l.threads[index]?).bind pairedAnswer = some w) :
    ∃ log, l.Serves index request (.done (.paired w)) log := by
  obtain ⟨⟨program,log⟩,found,same⟩ := Option.bind_eq_some_iff.mp answer
  refine ⟨log,asked,?_⟩
  unfold pairedAnswer at same
  split at same
  · rename_i key finished
    cases same
    rw [found]
    exact congrArg (fun program => some (Thread.mk program log)) finished
  · contradiction

section
open SampleServer

private def annaLogsIn : AuthRequest :=
  .login ⟨lit "anna@example.org",lit "correct-horse-1",lit "desktop"⟩ ⟨true,none,some (lit "world")⟩

private def annaDesktop : Option Claims := some ⟨lit "account-1",lit "device-2"⟩

/-- A second device signs in, asks for a code, the first approves it and the second polls. -/
private def pairDesktop : List AuthMove :=
  registered ++ [.spawn annaLogsIn,stepOf 1 "unused",stepOf 1 "unused",stepOf 1 "unused",stepOf 1 "device-2",
    stepOf 1 "unused",stepOf 1 "token-2",
    .spawn (.pair annaDesktop (.request (some (lit "ABCD-EFGH")))),stepOf 2 "unused",stepOf 2 "unused",stepOf 2 "unused",
    stepOf 2 "unused",
    .spawn (.pair anna (.approve (lit "ABCD-EFGH") (lit "aGVsbG8"))),stepOf 3 "unused",stepOf 3 "unused",
    stepOf 3 "unused",stepOf 3 "unused",
    .spawn (.pair annaDesktop (.poll (lit "ABCD-EFGH"))),stepOf 4 "unused",stepOf 4 "unused",stepOf 4 "unused",
    stepOf 4 "unused",stepOf 4 "unused"]

theorem desktop_pairing_agrees :
    Guarded (Ledger.move (handleAuth asciiAuth openServer) execAuth) CodesDistinct
        (Ledger.initial (AuthState.empty 0)) pairDesktop ∧
      ∃ past read future pc, (authRun asciiAuth openServer 0 pairDesktop).history = past ++ read::future ∧
        read.index = 4 ∧ readCode read.event = some (lit "ABCD-EFGH",pc) ∧ read.after.clock ≤ pc.expiresAt ∧
        (∃ entry ∈ past, RequestsCode entry (lit "ABCD-EFGH") ⟨lit "account-1",lit "device-2"⟩) ∧
        ∃ entry ∈ past, ∃ wrapped, ApprovesCode entry (lit "ABCD-EFGH") ⟨lit "account-1",lit "device-2"⟩ wrapped ∧
          lit "aGVsbG8" = Base64.encodeBase64URL wrapped := by
  have facts : Guarded (Ledger.move (handleAuth asciiAuth openServer) execAuth) CodesDistinct
        (Ledger.initial (AuthState.empty 0)) pairDesktop ∧
      (authRun asciiAuth openServer 0 pairDesktop).requests[4]? =
        some (.pair (some ⟨lit "account-1",lit "device-2"⟩) (.poll (lit "ABCD-EFGH"))) ∧
      ((authRun asciiAuth openServer 0 pairDesktop).threads[4]?).bind pairedAnswer = some (lit "aGVsbG8") := by
    decide
  obtain ⟨distinct,asked,answer⟩ := facts
  obtain ⟨log,serves⟩ := serves_of_pairedAnswer asked answer
  exact ⟨distinct,pairing_agreement asciiAuth openServer 0 pairDesktop distinct 4 ⟨lit "account-1",lit "device-2"⟩
    (lit "ABCD-EFGH") (lit "aGVsbG8") log serves⟩

end
end NPSync.Server
