import NPSync.Server.GoogleStores

/-! Google sign-in: what a login state goes through over either store, whatever start,
callback and poll requests run beside each other and whatever Google answers. -/
namespace NPSync.Server
open Library

section
variable {S : Type}

/-- A start request created this login for the state. -/
def Started (history : List (GoogleEntry S)) (state : Str) (created : OAuthLogin) : Prop :=
  ∃ entry ∈ history, startedLogin entry.event = some created ∧ created.state = state

/-- A callback of the state marked it ready with the account it had found. -/
def BoundTo (lib : AuthLibrary) (cfg : AuthConfig) (history : List (GoogleEntry S)) (state accountID : Str) : Prop :=
  ∃ past entry future code error, history = past ++ entry::future ∧
    entry.request = .googleCallback state code error ∧ readyState entry.event = some (state,accountID) ∧
    VerifiedCalls lib cfg state accountID (Ledger.callsOf past entry.index)

structure LoginFacts (lib : AuthLibrary) (cfg : AuthConfig) (history : List (GoogleEntry S)) (state : Str)
    (login : OAuthLogin) : Prop where
  known : ∃ created, Started history state created ∧ SameLogin created login
  bound : login.status = .ready ∨ login.status = .consumed → BoundTo lib cfg history state login.accountID
  cleared : login.status = .ready ∨ login.status = .error ∨ login.status = .consumed → login.codeVerifier = []

structure StateInv (lib : AuthLibrary) (cfg : AuthConfig) (history : List (GoogleEntry S)) (state : Str)
    (stored : Option OAuthLogin) : Prop where
  unique : ∀ a b, Started history state a → Started history state b → a = b
  touched : ∀ entry ∈ history, changedState entry.event = some state → ∃ created, Started history state created
  facts : ∀ login, stored = some login → LoginFacts lib cfg history state login
  returned : ∀ entry ∈ history, ∀ login, returnedLogin entry.event = some (state,login) →
    LoginFacts lib cfg history state login
  unclaimed : ∀ login, stored = some login → login.status = .pending →
    ∀ entry ∈ history, claimedState entry.event ≠ some state
  claimed : ∀ first ∈ history, ∀ second ∈ history, claimedState first.event = some state →
    claimedState second.event = some state → first.index = second.index
  held : ∀ first second, Ticket state (Ledger.callsOf history first) → Ticket state (Ledger.callsOf history second) →
    first = second
  closed : ∀ login, stored = some login → login.status ≠ .consumed →
    ∀ index, ¬Ticket state (Ledger.callsOf history index)

section
variable {lib : AuthLibrary} {cfg : AuthConfig} {history : List (GoogleEntry S)} {state : Str}

theorem Started.snoc {created : OAuthLogin} (started : Started history state created) (entry : GoogleEntry S) :
    Started (history ++ [entry]) state created := by
  obtain ⟨start,member,made⟩ := started
  exact ⟨start,List.mem_append_left _ member,made⟩

theorem BoundTo.snoc {accountID : Str} (bound : BoundTo lib cfg history state accountID) (entry : GoogleEntry S) :
    BoundTo lib cfg (history ++ [entry]) state accountID := by
  obtain ⟨past,ready,future,code,error,split,rest⟩ := bound
  refine ⟨past,ready,future ++ [entry],code,error,?_,rest⟩
  rw [split,List.append_assoc,List.cons_append]

theorem LoginFacts.snoc {login : OAuthLogin} (facts : LoginFacts lib cfg history state login) (entry : GoogleEntry S) :
    LoginFacts lib cfg (history ++ [entry]) state login := by
  obtain ⟨created,started,same⟩ := facts.known
  exact ⟨⟨created,started.snoc entry,same⟩,fun status => (facts.bound status).snoc entry,facts.cleared⟩

theorem claimed_changed {event : AuthEvent} (claimed : claimedState event = some state) :
    changedState event = some state := by
  unfold claimedState at claimed
  split at claimed
  · exact claimed
  · contradiction

theorem consumed_changed {event : AuthEvent} (consumed : consumedState event = some state) :
    changedState event = some state := by
  unfold consumedState at consumed
  split at consumed
  · exact consumed
  · contradiction

theorem startedLogin_eq {event : AuthEvent} {login : OAuthLogin} (made : startedLogin event = some login) :
    ∃ done, event = ⟨.createOAuthLogin login,.ok done⟩ := by
  unfold startedLogin at made
  split at made
  · cases made
    exact ⟨_,rfl⟩
  · contradiction

theorem reopenedState_eq {event : AuthEvent} (reopened : reopenedState event = some state) :
    ∃ result, event = ⟨.reopenOAuthLogin state,result⟩ := by
  unfold reopenedState at reopened
  split at reopened
  · cases reopened
    exact ⟨_,rfl⟩
  · contradiction

theorem isExchange_eq {event : AuthEvent} (exchanged : isExchange event = true) :
    ∃ code verifier result, event = ⟨.exchangeGoogleCode code verifier,result⟩ := by
  unfold isExchange at exchanged
  split at exchanged
  · exact ⟨_,_,_,rfl⟩
  · contradiction

theorem started_changed {event : AuthEvent} {login : OAuthLogin} (made : startedLogin event = some login) :
    changedState event = some login.state ∧ claimedState event = none ∧ consumedState event = none ∧
      reopenedState event = none := by
  obtain ⟨done,rfl⟩ := startedLogin_eq made
  exact ⟨rfl,rfl,rfl,rfl⟩

variable {entry : GoogleEntry S} {old new : Option OAuthLogin}

/-- The state of a new login was never used before. -/
def NewState (history : List (GoogleEntry S)) (event : AuthEvent) : Prop :=
  ∀ login, startedLogin event = some login → ∀ earlier ∈ history,
    (startedLogin earlier.event).map (fun made => made.state) ≠ some login.state

theorem NewState.unstarted {login : OAuthLogin} (fresh : NewState history entry.event)
    (made : startedLogin entry.event = some login) (created : OAuthLogin) : ¬Started history login.state created := by
  rintro ⟨start,member,same,named⟩
  apply fresh login made start member
  rw [same]
  exact congrArg some named

theorem StateInv.facts_snoc (inv : StateInv lib cfg history state old) (step : LoginStep state entry.event old new)
    (allowed : LoginAllowed lib cfg entry.request (Ledger.callsOf history entry.index) entry.event.op)
    (login : OAuthLogin) (stored : new = some login) : LoginFacts lib cfg (history ++ [entry]) state login := by
  rcases entry with ⟨index,request,before,event,after⟩
  cases step with
  | quiet other kept => exact (inv.facts login (kept login stored)).snoc _
  | started made row starts named shared status found =>
    have same := Option.some.inj (found.symm.trans stored)
    subst same
    obtain ⟨done,rfl⟩ := startedLogin_eq starts
    have pending : row.status = .pending := status.trans allowed
    refine ⟨⟨made,⟨_,List.mem_append_right _ (List.mem_singleton_self _),starts,named⟩,shared⟩,?_,?_⟩
    · simp [pending]
    · simp [pending]
  | moved was next move found changed =>
    have same := Option.some.inj (changed.symm.trans stored)
    subst same
    have facts := (inv.facts was found).snoc ⟨index,request,before,event,after⟩
    obtain ⟨created,started,shared⟩ := facts.known
    cases move with
    | claimed now _ status => exact ⟨⟨created,started,shared⟩,by simp,by simp⟩
    | ready accountID _ _ status result =>
      subst result
      obtain ⟨code,error,asked,verified⟩ := allowed
      refine ⟨⟨created,started,shared⟩,fun _ => ?_,fun _ => rfl⟩
      exact ⟨history,_,[],code,error,rfl,asked,rfl,verified⟩
    | failed code message _ _ status result =>
      subst result
      exact ⟨⟨created,started,shared⟩,by simp,fun _ => rfl⟩
    | consumed _ _ status result =>
      subst result
      exact ⟨⟨created,started,shared⟩,fun _ => facts.bound (.inl status),fun _ => rfl⟩
    | reopened _ _ status result =>
      subst result
      exact ⟨⟨created,started,shared⟩,fun _ => facts.bound (.inr status),
        fun _ => facts.cleared (.inr (.inr status))⟩

theorem StateInv.unique_snoc (inv : StateInv lib cfg history state old) (fresh : NewState history entry.event)
    (a b : OAuthLogin) (first : Started (history ++ [entry]) state a) (second : Started (history ++ [entry]) state b) :
    a = b := by
  obtain ⟨start,member,made,named⟩ := first
  obtain ⟨other,there,also,same⟩ := second
  rcases List.mem_append.mp member with before | now
  · rcases List.mem_append.mp there with earlier | last
    · exact inv.unique a b ⟨start,before,made,named⟩ ⟨other,earlier,also,same⟩
    · rw [List.mem_singleton.mp last] at also
      exact absurd ⟨start,before,made,named.trans same.symm⟩ (fresh.unstarted also a)
  · rw [List.mem_singleton.mp now] at made
    rcases List.mem_append.mp there with earlier | last
    · exact absurd ⟨other,earlier,also,same.trans named.symm⟩ (fresh.unstarted made b)
    · rw [List.mem_singleton.mp last] at also
      exact Option.some.inj (made.symm.trans also)

theorem StateInv.touched_snoc (inv : StateInv lib cfg history state old) (step : LoginStep state entry.event old new)
    (last : GoogleEntry S) (member : last ∈ history ++ [entry]) (changed : changedState last.event = some state) :
    ∃ created, Started (history ++ [entry]) state created := by
  rcases List.mem_append.mp member with before | now
  · obtain ⟨created,started⟩ := inv.touched last before changed
    exact ⟨created,started.snoc entry⟩
  · rw [List.mem_singleton.mp now] at changed
    cases step with
    | quiet other kept => exact absurd changed other
    | started made row starts named shared status stored =>
      exact ⟨made,entry,List.mem_append_right _ (List.mem_singleton_self _),starts,named⟩
    | moved was after move found stored =>
      obtain ⟨created,started,-⟩ := (inv.facts was found).known
      exact ⟨created,started.snoc entry⟩

/-- The only login that can be claimed is a pending one. -/
theorem LoginStep.claims {event : AuthEvent} (step : LoginStep state event old new)
    (claimed : claimedState event = some state) : ∃ login, old = some login ∧ login.status = .pending := by
  cases step with
  | quiet other kept => exact absurd (claimed_changed claimed) other
  | started made row starts named shared status stored =>
    rw [(started_changed starts).2.1] at claimed
    contradiction
  | moved was after move found stored =>
    cases move with
    | claimed now _ status => exact ⟨was,found,status⟩
    | _ => contradiction

theorem LoginMove.left_pending {event : AuthEvent} {login after : OAuthLogin} (move : LoginMove state event login after) :
    after.status ≠ .pending := by
  cases move <;> simp_all

theorem StateInv.unclaimed_snoc (inv : StateInv lib cfg history state old) (step : LoginStep state entry.event old new)
    (fresh : NewState history entry.event) (login : OAuthLogin) (stored : new = some login)
    (pending : login.status = .pending) (last : GoogleEntry S) (member : last ∈ history ++ [entry]) :
    claimedState last.event ≠ some state := by
  intro claimed
  cases step with
  | quiet other kept =>
    rcases List.mem_append.mp member with before | now
    · exact inv.unclaimed login (kept login stored) pending last before claimed
    · rw [List.mem_singleton.mp now] at claimed
      exact other (claimed_changed claimed)
  | started made row starts named shared settled found =>
    rcases List.mem_append.mp member with before | now
    · obtain ⟨created,started⟩ := inv.touched last before (claimed_changed claimed)
      subst named
      exact fresh.unstarted starts created started
    · rw [List.mem_singleton.mp now,(started_changed starts).2.1] at claimed
      contradiction
  | moved was after move found changed =>
    have same := Option.some.inj (changed.symm.trans stored)
    exact move.left_pending (same ▸ pending)

theorem StateInv.claimed_snoc (inv : StateInv lib cfg history state old) (step : LoginStep state entry.event old new)
    (first : GoogleEntry S) (here : first ∈ history ++ [entry]) (second : GoogleEntry S) (there : second ∈ history ++ [entry])
    (one : claimedState first.event = some state) (two : claimedState second.event = some state) :
    first.index = second.index := by
  have only : claimedState entry.event = some state → ∀ earlier ∈ history, claimedState earlier.event ≠ some state := by
    intro claimed
    obtain ⟨login,found,pending⟩ := step.claims claimed
    exact inv.unclaimed login found pending
  rcases List.mem_append.mp here with before | now
  · rcases List.mem_append.mp there with earlier | last
    · exact inv.claimed first before second earlier one two
    · rw [List.mem_singleton.mp last] at two
      exact absurd one (only two first before)
  · rw [List.mem_singleton.mp now] at one ⊢
    rcases List.mem_append.mp there with earlier | last
    · exact absurd two (only one second earlier)
    · rw [List.mem_singleton.mp last]

/-- Nobody has a ticket for a login that was never started. -/
theorem StateInv.unticketed (inv : StateInv lib cfg history state old)
    (unstarted : ∀ created, ¬Started history state created) (index : Nat) :
    ¬Ticket state (Ledger.callsOf history index) := by
  rintro ⟨⟨event,member,consumed⟩,-⟩
  obtain ⟨entry,there,-,same⟩ := Ledger.mem_callsOf.mp member
  obtain ⟨created,started⟩ := inv.touched entry there (same ▸ consumed_changed consumed)
  exact unstarted created started

/-- A call by another thread, or one that does not consume, gives no ticket. -/
theorem ticket_before {index : Nat} (ticket : Ticket state (Ledger.callsOf (history ++ [entry]) index))
    (other : entry.index = index → consumedState entry.event ≠ some state) :
    Ticket state (Ledger.callsOf history index) := by
  rw [Ledger.callsOf_snoc] at ticket
  obtain ⟨⟨event,member,consumed⟩,kept⟩ := ticket
  refine ⟨⟨event,?_,consumed⟩,fun earlier there => kept earlier (List.mem_append_left _ there)⟩
  rcases List.mem_append.mp member with before | now
  · exact before
  · split at now
    · rename_i here
      rw [List.mem_singleton.mp now] at consumed
      exact absurd consumed (other here)
    · contradiction

/-- A thread that tries to open the login again gives its ticket back. -/
theorem ticket_reopened (reopened : reopenedState entry.event = some state) :
    ¬Ticket state (Ledger.callsOf (history ++ [entry]) entry.index) := by
  rintro ⟨-,kept⟩
  apply kept entry.event _ reopened
  rw [Ledger.callsOf_snoc,if_pos rfl]
  exact List.mem_append_right _ (List.mem_singleton_self _)

theorem LoginStep.consumes {event : AuthEvent} (step : LoginStep state event old new)
    (consumed : consumedState event = some state) :
    (∃ login, old = some login ∧ login.status = .ready) ∧ ∀ login, new = some login → login.status = .consumed := by
  cases step with
  | quiet other kept => exact absurd (consumed_changed consumed) other
  | started made row starts named shared status stored =>
    rw [(started_changed starts).2.2.1] at consumed
    contradiction
  | moved was after move found stored =>
    cases move with
    | consumed _ _ status result =>
      refine ⟨⟨was,found,status⟩,fun login there => ?_⟩
      have same := Option.some.inj (stored.symm.trans there)
      rw [← same,result]
    | _ => contradiction

theorem StateInv.tickets_snoc (inv : StateInv lib cfg history state old) (step : LoginStep state entry.event old new)
    (allowed : LoginAllowed lib cfg entry.request (Ledger.callsOf history entry.index) entry.event.op)
    (fresh : NewState history entry.event) :
    (∀ first second, Ticket state (Ledger.callsOf (history ++ [entry]) first) →
      Ticket state (Ledger.callsOf (history ++ [entry]) second) → first = second) ∧
    ∀ login, new = some login → login.status ≠ .consumed →
      ∀ index, ¬Ticket state (Ledger.callsOf (history ++ [entry]) index) := by
  by_cases consumed : consumedState entry.event = some state
  · -- the login was ready, so the consumer is the only holder
    obtain ⟨⟨was,found,ready⟩,after⟩ := step.consumes consumed
    have nobody := inv.closed was found (by simp [ready])
    have owner : ∀ index, Ticket state (Ledger.callsOf (history ++ [entry]) index) → index = entry.index := by
      intro index ticket
      by_contra other
      exact nobody index (ticket_before ticket fun same => absurd same.symm other)
    refine ⟨fun first second one two => (owner first one).trans (owner second two).symm,?_⟩
    intro login stored status
    exact absurd (after login stored) status
  have before : ∀ index, Ticket state (Ledger.callsOf (history ++ [entry]) index) →
      Ticket state (Ledger.callsOf history index) := fun index ticket => ticket_before ticket fun _ => consumed
  by_cases reopened : reopenedState entry.event = some state
  · -- the thread that opens the login again was the only holder
    have holder : Ticket state (Ledger.callsOf history entry.index) := by
      obtain ⟨result,called⟩ := reopenedState_eq reopened
      rw [called] at allowed
      exact allowed
    have nobody : ∀ index, ¬Ticket state (Ledger.callsOf (history ++ [entry]) index) := by
      intro index ticket
      have same := inv.held index entry.index (before index ticket) holder
      subst same
      exact ticket_reopened reopened ticket
    exact ⟨fun first _ one => absurd one (nobody first),fun _ _ _ => nobody⟩
  refine ⟨fun first second one two => inv.held first second (before first one) (before second two),?_⟩
  intro login stored status index ticket
  have held := before index ticket
  cases step with
  | quiet other kept => exact inv.closed login (kept login stored) status index held
  | started made row starts named shared settled found =>
    subst named
    exact inv.unticketed (fresh.unstarted starts) index held
  | moved was after move found changed =>
    refine inv.closed was found ?_ index held
    rcases entry with ⟨index,request,first,event,second⟩
    cases move with
    | claimed now _ was => simp [was]
    | ready accountID _ _ was result => simp [was]
    | failed code message _ _ was result => simp [was]
    | consumed _ _ was result => exact absurd rfl consumed
    | reopened _ _ was result => exact absurd rfl reopened

theorem StateInv.snoc (inv : StateInv lib cfg history state old) (step : LoginStep state entry.event old new)
    (allowed : LoginAllowed lib cfg entry.request (Ledger.callsOf history entry.index) entry.event.op)
    (fresh : NewState history entry.event)
    (returned : ∀ login, returnedLogin entry.event = some (state,login) → new = some login) :
    StateInv lib cfg (history ++ [entry]) state new := by
  obtain ⟨held,closed⟩ := inv.tickets_snoc step allowed fresh
  refine ⟨inv.unique_snoc fresh,inv.touched_snoc step,inv.facts_snoc step allowed,?_,inv.unclaimed_snoc step fresh,
    inv.claimed_snoc step,held,closed⟩
  intro last member login asked
  rcases List.mem_append.mp member with before | now
  · exact (inv.returned last before login asked).snoc entry
  · rw [List.mem_singleton.mp now] at asked
    exact inv.facts_snoc step allowed login (returned login asked)

end

/-- The login that the thread is about to create. -/
def starting (l : GoogleLedger S) (index : Nat) : Option OAuthLogin :=
  match l.threads[index]? with
  | some ⟨.call (.createOAuthLogin login) _,_⟩ => some login
  | _ => none

/-- `RandomToken` never returns the state of an earlier login. -/
def StatesDistinct (l : GoogleLedger S) : AuthMove → Prop
  | .spawn _ => True
  | .step index _ => ∀ login ∈ starting l index, ∀ entry ∈ l.history,
    (startedLogin entry.event).map (fun made => made.state) ≠ some login.state

instance (l : GoogleLedger S) (first : AuthMove) : Decidable (StatesDistinct l first) :=
  match first with
  | .spawn _ => .isTrue trivial
  | .step index _ => inferInstanceAs (Decidable (∀ login ∈ starting l index,_))

structure LoginInv (store : GoogleStore S) (lib : AuthLibrary) (cfg : AuthConfig) (l : GoogleLedger S) : Prop where
  owned : store.Owned l.shared
  owners : ∀ entry ∈ l.history, ∀ id a, entry.event = ⟨.accountByID id,.ok a⟩ → a.id = id
  states : ∀ state, StateInv lib cfg l.history state (store.login l.shared state)

section
variable (store : GoogleStore S) (lib : AuthLibrary) (cfg : AuthConfig) (clock : Nat) (moves : List AuthMove)

theorem loginInv_called {l : GoogleLedger S} {index : Nat} {env : AuthEnv} {request : AuthRequest} {op : AuthCall}
    {next : op.Result → AuthHandler} {log : List AuthEvent} (inv : LoginInv store lib cfg l)
    (served : LoginServed lib cfg request (.call op next) log) (logged : l.Logged)
    (distinct : StatesDistinct l (.step index env)) (serves : l.Serves index request (.call op next) log) :
    LoginInv store lib cfg (Ledger.called store.exec l index env request op next log) := by
  have fresh : NewState l.history ⟨op,(store.exec env l.shared op).1⟩ := by
    intro login made
    obtain ⟨done,called⟩ := startedLogin_eq made
    obtain rfl : op = .createOAuthLogin login := congrArg Event.op called
    exact distinct login (by simp [starting,serves.thread])
  have allowed := served.1.1
  rw [logged.logs index request _ log serves] at allowed
  refine ⟨store.keeps env l.shared op inv.owned,?_,?_⟩
  · intro entry member id a read
    rcases List.mem_append.mp member with before | now
    · exact inv.owners entry before id a read
    · rw [List.mem_singleton.mp now] at read
      obtain rfl : op = .accountByID id := congrArg Event.op read
      have result : (store.exec env l.shared (.accountByID id)).1 = .ok a := eq_of_heq (Event.mk.inj read).2
      exact store.account env l.shared id a inv.owned result
  · intro state
    apply (inv.states state).snoc (store.steps env l.shared op state) allowed fresh
    intro login returned
    exact store.returns env l.shared op state login returned

theorem GoogleStore.run_login
    (distinct : Guarded (Ledger.move (handleAuth lib cfg) store.exec) StatesDistinct (Ledger.initial (store.opened clock))
      moves) :
    LoginInv store lib cfg (store.run lib cfg clock moves) ∧
      Ledger.Served (LoginServed lib cfg) (store.run lib cfg clock moves) ∧ (store.run lib cfg clock moves).Logged := by
  apply Ledger.ledger_invariant (LoginServed lib cfg) StatesDistinct (LoginInv store lib cfg) handleAuth_login
  · intro request op next log served result
    exact ⟨served.1.2 result,served.2 result⟩
  · intro l request _ inv
    exact ⟨inv.owned,inv.owners,inv.states⟩
  · intro l index env request op next log inv served logged distinct serves
    exact loginInv_called store lib cfg inv (served index request _ log serves) logged distinct serves
  · refine ⟨store.opens clock,by simp [Ledger.initial],fun state => ?_⟩
    constructor <;> simp [Ledger.initial,store.unused,Started,Ledger.callsOf,Ticket]
  · exact distinct

/-- A callback of the state exchanges the authorization code. -/
def Exchanges (state : Str) (entry : GoogleEntry S) : Prop :=
  isExchange entry.event = true ∧ ∃ code error, entry.request = .googleCallback state code error

/-- The thread is a poll of the state that was answered with tokens. -/
def AnsweredTokens (l : GoogleLedger S) (state : Str) (index : Nat) : Prop :=
  ∃ secret draws accountID deviceID token log,
    l.Serves index (.googlePoll state secret draws) (.done (.tokens accountID deviceID token)) log

/-- A callback of the state obtained the account from `accountForGoogle` for a
token verified with the nonce, and marked the login ready with it. -/
def VerifiedAccount (history : List (GoogleEntry S)) (state nonce accountID : Str) : Prop :=
  ∃ past entry future code error before idToken sub email lookup acct, history = past ++ entry::future ∧
    entry.request = .googleCallback state code error ∧ readyState entry.event = some (state,accountID) ∧
    Ledger.callsOf past entry.index = before ++ ⟨.verifyRS256IDToken idToken nonce,some (sub,email)⟩::lookup ∧
    validGoogleSub sub = true ∧ validEmail (lib.normalizeEmail email) = true ∧
    (accountForGoogle cfg sub (lib.normalizeEmail email)).Yields lookup (.ok acct) ∧ acct.id = accountID

/-- Every call of the history was one its request may make there. -/
def LoginDiscipline (history : List (GoogleEntry S)) : Prop :=
  Ledger.Earlier (fun entry past =>
    LoginAllowed lib cfg entry.request (Ledger.callsOf past entry.index) entry.event.op) history

variable {store lib cfg}

theorem StateInv.verified {history : List (GoogleEntry S)} {state accountID : Str} {stored : Option OAuthLogin}
    {created : OAuthLogin} (inv : StateInv lib cfg history state stored) (bound : BoundTo lib cfg history state accountID)
    (started : Started history state created) : VerifiedAccount lib cfg history state created.nonce accountID := by
  obtain ⟨past,entry,future,code,error,split,asked,ready,verified⟩ := bound
  obtain ⟨claim,login,secret,idToken,now,sub,email,lookup,acct,⟨existing,first,second,calls⟩,shape,rest⟩ := verified
  have member : (⟨.claimOAuthLogin state second,.ok login⟩ : AuthEvent) ∈ Ledger.callsOf past entry.index := by
    rw [shape,calls]
    simp
  obtain ⟨claimed,there,-,event⟩ := Ledger.mem_callsOf.mp member
  have known := (inv.returned claimed (split ▸ List.mem_append_left _ there) login (by rw [event]; rfl)).known
  obtain ⟨made,begun,same⟩ := known
  have nonce : login.nonce = created.nonce := by
    rw [same.2.1,inv.unique made created begun started]
  refine ⟨past,entry,future,code,error,claim ++ [⟨.exchangeGoogleCode secret login.codeVerifier,some idToken⟩,⟨.now,now⟩],
    idToken,sub,email,lookup,acct,split,asked,ready,?_,rest⟩
  rw [shape,nonce]
  simp

/-- The calls of a callback before it exchanges the code. -/
theorem exchange_calls {history : List (GoogleEntry S)} {state : Str} {index : Nat} {entry : GoogleEntry S}
    (disciplined : LoginDiscipline lib cfg history)
    (found : history[index]? = some entry) (exchange : Exchanges state entry) :
    ∃ login, ClaimCalls state login (Ledger.callsOf (history.take index) entry.index) := by
  have allowed := disciplined.at found
  obtain ⟨exchanged,code,error,asked⟩ := exchange
  obtain ⟨sent,verifier,result,event⟩ := isExchange_eq exchanged
  rw [event] at allowed
  obtain ⟨other,_,_,login,same,calls⟩ := allowed
  cases asked.symm.trans same
  exact ⟨login,calls⟩

theorem exchange_once {history : List (GoogleEntry S)} {state : Str} {stored : Option OAuthLogin} {i j : Nat}
    {first second : GoogleEntry S} (inv : StateInv lib cfg history state stored)
    (disciplined : LoginDiscipline lib cfg history)
    (here : history[i]? = some first) (there : history[j]? = some second) (one : Exchanges state first)
    (two : Exchanges state second) : ¬i < j := by
  intro order
  have claims : ∀ {index : Nat} {entry : GoogleEntry S}, history[index]? = some entry → Exchanges state entry →
      ∃ claim ∈ history, claim.index = entry.index ∧ claimedState claim.event = some state := by
    intro index entry found exchange
    obtain ⟨login,existing,now,later,calls⟩ := exchange_calls disciplined found exchange
    have member : (⟨.claimOAuthLogin state later,.ok login⟩ : AuthEvent) ∈
        Ledger.callsOf (history.take index) entry.index := by
      rw [calls]
      simp
    obtain ⟨claim,before,owner,event⟩ := Ledger.mem_callsOf.mp member
    exact ⟨claim,List.mem_of_mem_take before,owner,by rw [event]; rfl⟩
  obtain ⟨claim,member,owner,claimed⟩ := claims here one
  obtain ⟨other,also,thread,again⟩ := claims there two
  have same : first.index = second.index := by
    rw [← owner,← thread]
    exact inv.claimed claim member other also claimed again
  -- the first exchange is a call of the same thread, before the second one
  obtain ⟨login,existing,now,later,calls⟩ := exchange_calls disciplined there two
  have earlier : first.event ∈ Ledger.callsOf (history.take j) second.index :=
    Ledger.mem_callsOf.mpr ⟨first,Ledger.mem_take order here,same,rfl⟩
  have exchanged := one.1
  rw [calls] at earlier
  simp only [List.mem_cons,List.not_mem_nil,or_false] at earlier
  rcases earlier with event | event | event | event
  all_goals
    rw [event] at exchanged
    contradiction

theorem LoginInv.answered {l : GoogleLedger S} {state secret accountID deviceID token : Str} {draws : SignInDraws}
    {index : Nat} {log : List AuthEvent} (inv : LoginInv store lib cfg l)
    (answer : LoginAnswer lib (.googlePoll state secret draws) log (.tokens accountID deviceID token))
    (calls : log = Ledger.callsOf l.history index) :
    Ticket state (Ledger.callsOf l.history index) ∧
      ∃ created login now consumed rest, Started l.history state created ∧
        log = ⟨.oauthLoginByState state,.ok login⟩::⟨.now,now⟩::⟨.consumeOAuthLogin state,.ok consumed⟩::rest ∧
        hashTokenSHA256 lib secret = created.pollSecretHash ∧ now ≤ created.expiresAt ∧
        VerifiedAccount lib cfg l.history state created.nonce accountID := by
  obtain ⟨login,now,consumed,acct,rest,shape,presented,early,ready,ticket,account⟩ := answer _ _ _ _ _ _ rfl rfl
  have states := inv.states state
  have recorded : ∀ event ∈ log, ∃ entry ∈ l.history, entry.event = event := by
    intro event member
    rw [calls] at member
    obtain ⟨entry,there,-,same⟩ := Ledger.mem_callsOf.mp member
    exact ⟨entry,there,same⟩
  obtain ⟨read,member,event⟩ := recorded ⟨.oauthLoginByState state,.ok login⟩ (by simp [shape])
  have facts := states.returned read member login (by rw [event]; rfl)
  obtain ⟨created,started,same,-,hash,expiry⟩ := facts.known
  have named : login.state = state := by
    obtain ⟨_,_,_,named⟩ := started
    exact same.trans named
  obtain ⟨lookup,listed,found⟩ := recorded ⟨.accountByID login.accountID,.ok acct⟩ (by simp [shape])
  have owner := inv.owners lookup listed _ _ found
  refine ⟨by rw [← calls,← named]; exact ticket,created,login,now,consumed,_,started,named ▸ shape,?_,expiry ▸ early,?_⟩
  · rw [← hash]
    simp only [pollSecretMatches,Bool.and_eq_true,decide_eq_true_eq] at presented
    exact presented.2.symm
  · rw [account,owner]
    exact states.verified (facts.bound (.inl ready)) started

variable (store lib cfg)

/-- For every login state: one exchange of the code, one answer with tokens, given
to a poll that knows the secret in time, for the account of the verified token. -/
theorem google_login_single_use
    (distinct : Guarded (Ledger.move (handleAuth lib cfg) store.exec) StatesDistinct (Ledger.initial (store.opened clock))
      moves) (state : Str) :
    (∀ (i j : Nat) (first second : GoogleEntry S), (store.run lib cfg clock moves).history[i]? = some first →
      (store.run lib cfg clock moves).history[j]? = some second → Exchanges state first → Exchanges state second → i = j) ∧
    (∀ i j, AnsweredTokens (store.run lib cfg clock moves) state i → AnsweredTokens (store.run lib cfg clock moves) state j →
      i = j) ∧
    (∀ a b, Started (store.run lib cfg clock moves).history state a → Started (store.run lib cfg clock moves).history state b →
      a = b) ∧
    (∀ index secret draws accountID deviceID token log, (store.run lib cfg clock moves).Serves index
        (.googlePoll state secret draws) (.done (.tokens accountID deviceID token)) log →
      ∃ created login now consumed rest, Started (store.run lib cfg clock moves).history state created ∧
        log = ⟨.oauthLoginByState state,.ok login⟩::⟨.now,now⟩::⟨.consumeOAuthLogin state,.ok consumed⟩::rest ∧
        hashTokenSHA256 lib secret = created.pollSecretHash ∧ now ≤ created.expiresAt ∧
        VerifiedAccount lib cfg (store.run lib cfg clock moves).history state created.nonce accountID) ∧
    ∀ login, store.login (store.run lib cfg clock moves).shared state = some login →
      login.status = .ready ∨ login.status = .error ∨ login.status = .consumed → login.codeVerifier = [] := by
  obtain ⟨inv,served,logged⟩ := store.run_login lib cfg clock moves distinct
  have states := inv.states state
  have disciplined : LoginDiscipline lib cfg (store.run lib cfg clock moves).history :=
    Ledger.ledger_disciplined _ (fun request => (handleAuth_login request).1) (store.opened clock) moves
  refine ⟨?_,?_,states.unique,?_,fun login stored => (states.facts login stored).cleared⟩
  · intro i j first second here there one two
    have forward := exchange_once states disciplined here there one two
    have backward := exchange_once states disciplined there here two one
    omega
  · rintro i j ⟨secret,draws,accountID,deviceID,token,log,first⟩ ⟨secret',draws',accountID',deviceID',token',log',second⟩
    apply states.held
    · exact (inv.answered (served i _ _ log first).2 (logged.logs i _ _ log first)).1
    · exact (inv.answered (served j _ _ log' second).2 (logged.logs j _ _ log' second)).1
  · intro index secret draws accountID deviceID token log serves
    exact (inv.answered (served index _ _ log serves).2 (logged.logs index _ _ log serves)).2

end
end

section
open SampleServer

private def tokensOf {S : Type} (l : GoogleLedger S) (index : Nat) : Option (Str × Str × Str) :=
  match l.threads[index]? with
  | some ⟨.done (.tokens accountID deviceID token),_⟩ => some (accountID,deviceID,token)
  | _ => none

private theorem tokensOf_serves {S : Type} {l : GoogleLedger S} {index : Nat} {request : AuthRequest}
    {answer : Str × Str × Str} (asked : l.requests[index]? = some request) (found : tokensOf l index = some answer) :
    ∃ log, l.Serves index request (.done (.tokens answer.1 answer.2.1 answer.2.2)) log := by
  unfold tokensOf at found
  split at found
  · rename_i log there
    cases found
    exact ⟨log,asked,there⟩
  · contradiction

private def annaPolls : AuthRequest := .googlePoll (lit "state-1") (lit "hello") ⟨true,none,some (lit "refresh-1")⟩

/-- Google's answers for Anna. -/
private def answering (uuid : String) : AuthEnv :=
  ⟨0,lit uuid,false,some (lit "id-token-1"),some (lit "g-1",lit "anna@example.org")⟩

/-- A Google login from its start to the tokens. -/
private def googleLogin : List AuthMove :=
  [.spawn (.googleStart (lit "laptop") true (some ⟨lit "verifier-1",lit "state-1",lit "nonce-1",lit "hello"⟩)),
    stepOf 0 "unused",stepOf 0 "unused",.spawn (.googleCallback (lit "state-1") (lit "code-1") [])] ++
  List.replicate 9 (.step 1 (answering "unused")) ++ [.step 1 (answering "account-1"),stepOf 1 "unused"] ++
  .spawn annaPolls::List.replicate 5 (stepOf 2 "unused") ++ [stepOf 2 "device-1",stepOf 2 "unused",stepOf 2 "token-1"]

private abbrev annaRun {S : Type} (store : GoogleStore S) : GoogleLedger S :=
  store.run asciiAuth openServer 0 googleLogin

/-- Anna's poll is answered with tokens, for the account of her verified token. -/
private def SignsIn {S : Type} (store : GoogleStore S) : Prop :=
  AnsweredTokens (annaRun store) (lit "state-1") 2 ∧
    ∃ created, Started (annaRun store).history (lit "state-1") created ∧
      VerifiedAccount asciiAuth openServer (annaRun store).history (lit "state-1") created.nonce (lit "account-1")

theorem google_login_answered : SignsIn memGoogle ∧ SignsIn postgresGoogle := by
  have memFacts : Guarded (Ledger.move (handleAuth asciiAuth openServer) memGoogle.exec) StatesDistinct
        (Ledger.initial (memGoogle.opened 0)) googleLogin ∧
      (annaRun memGoogle).requests[2]? = some annaPolls ∧
      tokensOf (annaRun memGoogle) 2 = some (lit "account-1",lit "device-1",lit "refresh-1") := by
    decide
  have dbFacts : Guarded (Ledger.move (handleAuth asciiAuth openServer) postgresGoogle.exec) StatesDistinct
        (Ledger.initial (postgresGoogle.opened 0)) googleLogin ∧
      (annaRun postgresGoogle).requests[2]? = some annaPolls ∧
      tokensOf (annaRun postgresGoogle) 2 = some (lit "account-1",lit "device-1",lit "refresh-1") := by
    decide
  constructor
  · obtain ⟨distinct,asked,found⟩ := memFacts
    obtain ⟨log,serves⟩ := tokensOf_serves asked found
    obtain ⟨-,-,-,polls,-⟩ := google_login_single_use memGoogle asciiAuth openServer 0 googleLogin distinct (lit "state-1")
    obtain ⟨created,_,_,_,_,started,_,_,_,verified⟩ := polls 2 _ _ _ _ _ log serves
    exact ⟨⟨_,_,_,_,_,log,serves⟩,created,started,verified⟩
  · obtain ⟨distinct,asked,found⟩ := dbFacts
    obtain ⟨log,serves⟩ := tokensOf_serves asked found
    obtain ⟨-,-,-,polls,-⟩ := google_login_single_use postgresGoogle asciiAuth openServer 0 googleLogin distinct
      (lit "state-1")
    obtain ⟨created,_,_,_,_,started,_,_,_,verified⟩ := polls 2 _ _ _ _ _ log serves
    exact ⟨⟨_,_,_,_,_,log,serves⟩,created,started,verified⟩

end
end NPSync.Server
