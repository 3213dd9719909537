import NPSync.Server.Revocation

/-! One account for each e-mail and each Google subject, under any interleaving of
Google sign-ins, registrations and password logins. -/
namespace NPSync.Server
open Library

/-- A call of `accountForGoogle`, a registration or a password login. -/
inductive SignIn where
  | google (sub email : Str)
  | register (body : Credentials) (draws : SignInDraws)
  | login (body : Credentials) (draws : SignInDraws)
  deriving DecidableEq

inductive SignedIn where
  | google (found : Except (Option APIError) Account)
  | answered (response : AuthResponse)

def signIn (lib : AuthLibrary) (cfg : AuthConfig) : SignIn → Program AuthCall AuthCall.Result SignedIn
  | .google sub email => (accountForGoogle cfg sub email).bind fun found => .done (.google found)
  | .register body draws => (handleRegister lib cfg body draws).bind fun response => .done (.answered response)
  | .login body draws => (handleLogin lib cfg body draws).bind fun response => .done (.answered response)

abbrev SignInLedger := Ledger AuthState AuthCall AuthCall.Result SignedIn SignIn

abbrev SignInMove := Move SignIn AuthEnv

/-- The sign-ins of a server started empty, after any schedule. -/
def signInRun (lib : AuthLibrary) (cfg : AuthConfig) (clock : Nat) (moves : List SignInMove) : SignInLedger :=
  run (Ledger.move (signIn lib cfg) execAuth) (Ledger.initial (AuthState.empty clock)) moves

/-- `uuidFn` returns a value that no account has. -/
def AccountFresh (l : SignInLedger) : SignInMove → Prop
  | .spawn _ => True
  | .step _ env => l.shared.mem.accounts.get env.uuid = none

instance (l : SignInLedger) (first : SignInMove) : Decidable (AccountFresh l first) :=
  match first with
  | .spawn _ => .isTrue trivial
  | .step _ _ => inferInstanceAs (Decidable (_ = _))

def emailOf (a : Account) : Option Str := some a.email

/-- The Google subject of an account that has one. -/
def subjectOf (a : Account) : Option Str := if a.googleSub = [] then none else some a.googleSub

/-- The e-mail and subject indexes agree with the account records. -/
structure Indexed (m : AuthMem) : Prop where
  ids : ∀ id a, m.accounts.get id = some a → a.id = id
  emails : Table.IsIndex m.accounts m.byEmail emailOf
  subjects : Table.IsIndex m.accounts m.byGoogle subjectOf

/-- The later record of an account: its e-mail, its password hash and a subject it has stay. -/
def SameAccount (before after : Account) : Prop :=
  after.id = before.id ∧ after.email = before.email ∧ after.passwordHash = before.passwordHash ∧
    (before.googleSub ≠ [] → after.googleSub = before.googleSub)

/-- What one call can do to the accounts. -/
inductive AccountStep (m after : AuthMem) (uuid : Str) : Prop
  | quiet (accounts : after.accounts = m.accounts) (emails : after.byEmail = m.byEmail)
      (subjects : after.byGoogle = m.byGoogle)
  | created (email hash sub : Str) (newEmail : m.byEmail.get email = none) (newSub : sub = [] ∨ m.byGoogle.get sub = none)
      (accounts : after.accounts = m.accounts.upsert uuid ⟨uuid,email,hash,sub,0,none⟩)
      (emails : after.byEmail = m.byEmail.upsert email uuid)
      (subjects : after.byGoogle = if sub = [] then m.byGoogle else m.byGoogle.upsert sub uuid)
  | linked (id sub : Str) (a : Account) (found : m.accounts.get id = some a) (unlinked : a.googleSub = [])
      (nonempty : sub ≠ []) (free : ∀ other, m.byGoogle.get sub = some other → other = id)
      (accounts : after.accounts = m.accounts.upsert id {a with googleSub := sub})
      (emails : after.byEmail = m.byEmail) (subjects : after.byGoogle = m.byGoogle.upsert sub id)
  | counted (id : Str) (a new : Account) (found : m.accounts.get id = some a)
      (same : new.id = a.id ∧ new.email = a.email ∧ new.passwordHash = a.passwordHash ∧ new.googleSub = a.googleSub)
      (accounts : after.accounts = m.accounts.upsert id new)
      (emails : after.byEmail = m.byEmail) (subjects : after.byGoogle = m.byGoogle)

theorem insertAccountLocked_step (m : AuthMem) (email hash sub uuid : Str) (free : sub = [] ∨ m.byGoogle.get sub = none) :
    AccountStep m (m.insertAccountLocked email hash sub uuid).2 uuid := by
  unfold AuthMem.insertAccountLocked
  split
  · exact .quiet rfl rfl rfl
  · rename_i new
    exact .created email hash sub new free rfl rfl rfl

theorem linkGoogleSubject_step (m : AuthMem) (id sub uuid : Str) : AccountStep m (m.linkGoogleSubject id sub).2 uuid := by
  unfold AuthMem.linkGoogleSubject
  split
  · exact .quiet rfl rfl rfl
  rename_i a found
  split
  · exact .quiet rfl rfl rfl
  rename_i different
  split
  · exact .quiet rfl rfl rfl
  rename_i unlinked
  have unlinked := not_not.mp unlinked
  dsimp only
  cases taken : m.byGoogle.get sub with
  | none =>
    refine .linked id sub a found unlinked (fun empty => different (unlinked.trans empty.symm)) ?_ rfl rfl rfl
    intro other wrong
    rw [taken] at wrong
    contradiction
  | some other =>
    by_cases own : other = id
    · subst own
      simp only [ne_eq,not_true_eq_false,decide_false,Bool.false_eq_true,if_false]
      refine .linked other sub a found unlinked (fun empty => different (unlinked.trans empty.symm)) ?_ rfl rfl rfl
      intro this there
      exact Option.some.inj (there.symm.trans taken)
    · simp only [ne_eq,own,not_false_eq_true,decide_true,if_true]
      exact .quiet rfl rfl rfl

theorem execAuth_accounts (env : AuthEnv) (s : AuthState) (call : AuthCall) :
    AccountStep s.mem (execAuth env s call).2.mem env.uuid := by
  have step : ∀ {X : Type} (out : Except AuthError X × AuthMem), AccountStep s.mem out.2 env.uuid →
      AccountStep s.mem (attempt env {s with clock := s.clock + env.elapsed} out).2.mem env.uuid := by
    intro X out after
    rcases attempt_cases env {s with clock := s.clock + env.elapsed} out with same | same
    · rw [same]
      exact .quiet rfl rfl rfl
    · rw [same]
      exact after
  by_cases part : call.part = some .accounts
  · cases call with
    | createAccount email hash => exact step _ (insertAccountLocked_step s.mem email hash [] env.uuid (.inl rfl))
    | createGoogleAccount email sub =>
      refine step _ ?_
      unfold AuthMem.createGoogleAccount
      split
      · exact .quiet rfl rfl rfl
      split
      · exact .quiet rfl rfl rfl
      · rename_i free
        exact insertAccountLocked_step s.mem email [] sub env.uuid (.inr free)
    | linkGoogleSubject id sub => exact step _ (linkGoogleSubject_step s.mem id sub env.uuid)
    | recordFailedLogin id lockAfter lockFor =>
      refine step _ ?_
      unfold AuthMem.recordFailedLogin
      split
      · exact .quiet rfl rfl rfl
      · rename_i a found
        dsimp only
        split
        · exact .counted id a {a with failedLoginAttempts := 0,lockedUntil := _} found ⟨rfl,rfl,rfl,rfl⟩ rfl rfl rfl
        · exact .counted id a {a with failedLoginAttempts := a.failedLoginAttempts + 1} found ⟨rfl,rfl,rfl,rfl⟩ rfl rfl rfl
    | resetFailedLogins id =>
      refine step (X := Unit) (.ok (),s.mem.resetFailedLogins id) ?_
      dsimp only
      unfold AuthMem.resetFailedLogins
      split
      · exact .quiet rfl rfl rfl
      · rename_i a found
        exact .counted id a {a with failedLoginAttempts := 0,lockedUntil := none} found ⟨rfl,rfl,rfl,rfl⟩ rfl rfl rfl
    | _ => cases part
  · obtain ⟨accounts,emails,subjects⟩ := (execAuth_sameBut env s call).accounts part
    exact .quiet accounts emails subjects

section
variable {m after : AuthMem} {uuid : Str}

/-- An account is never lost, renamed or given another subject. -/
theorem AccountStep.kept (step : AccountStep m after uuid) (fresh : m.accounts.get uuid = none) (id : Str) (a : Account)
    (found : m.accounts.get id = some a) : ∃ new, after.accounts.get id = some new ∧ SameAccount a new := by
  have same : SameAccount a a := ⟨rfl,rfl,rfl,fun _ => rfl⟩
  cases step with
  | quiet accounts emails subjects => exact ⟨a,accounts ▸ found,same⟩
  | created email hash sub newEmail newSub accounts emails subjects =>
    have other : id ≠ uuid := by
      rintro rfl
      rw [fresh] at found
      contradiction
    exact ⟨a,by rw [accounts,Table.get_upsert_other _ _ _ _ other,found],same⟩
  | linked other sub old there unlinked nonempty free accounts emails subjects =>
    by_cases here : id = other
    · subst here
      rw [there] at found
      cases found
      exact ⟨{a with googleSub := sub},by rw [accounts,Table.get_upsert_same],rfl,rfl,rfl,
        fun linked => absurd unlinked linked⟩
    · exact ⟨a,by rw [accounts,Table.get_upsert_other _ _ _ _ here,found],same⟩
  | counted other old new there equal accounts emails subjects =>
    by_cases here : id = other
    · subst here
      rw [there] at found
      cases found
      exact ⟨new,by rw [accounts,Table.get_upsert_same],equal.1,equal.2.1,equal.2.2.1,fun _ => equal.2.2.2⟩
    · exact ⟨a,by rw [accounts,Table.get_upsert_other _ _ _ _ here,found],same⟩

theorem AccountStep.indexed (step : AccountStep m after uuid) (fresh : m.accounts.get uuid = none) (indexed : Indexed m) :
    Indexed after := by
  have ids : ∀ (id : Str) (new : Account), after.accounts = m.accounts.upsert id new → new.id = id →
      ∀ other a, after.accounts.get other = some a → a.id = other := by
    intro id new accounts same other a found
    rw [accounts,Table.get_upsert] at found
    split at found
    · rename_i here
      cases found
      exact same.trans here.symm
    · exact indexed.ids other a found
  cases step with
  | quiet accounts emails subjects =>
    exact ⟨accounts ▸ indexed.ids,by rw [accounts,emails]; exact indexed.emails,
      by rw [accounts,subjects]; exact indexed.subjects⟩
  | created email hash sub newEmail newSub accounts emails subjects =>
    refine ⟨ids uuid _ accounts rfl,?_,?_⟩
    · rw [accounts,emails]
      exact indexed.emails.add uuid _ email (by rw [fresh]; rfl) rfl newEmail
    · rw [accounts,subjects]
      split
      · rename_i empty
        exact indexed.subjects.keep uuid _ (by simp [subjectOf,empty,fresh])
      · rename_i nonempty
        exact indexed.subjects.add uuid _ sub (by rw [fresh]; rfl) (by simp [subjectOf,nonempty])
          (newSub.resolve_left nonempty)
  | linked id sub a found unlinked nonempty free accounts emails subjects =>
    refine ⟨ids id _ accounts (indexed.ids id a found),?_,?_⟩
    · rw [accounts,emails]
      exact indexed.emails.keep id _ (by rw [found]; rfl)
    · have unkeyed : (m.accounts.get id).bind subjectOf = none := by simp [found,subjectOf,unlinked]
      have unused : m.byGoogle.get sub = none := by
        cases taken : m.byGoogle.get sub with
        | none => rfl
        | some other =>
          have keyed := (indexed.subjects sub other).mp taken
          rw [free other taken,unkeyed] at keyed
          contradiction
      rw [accounts,subjects]
      exact indexed.subjects.add id _ sub unkeyed (by simp [subjectOf,nonempty]) unused
  | counted id a new found equal accounts emails subjects =>
    refine ⟨ids id new accounts (equal.1.trans (indexed.ids id a found)),?_,?_⟩
    · rw [accounts,emails]
      exact indexed.emails.keep id new (by rw [found]; exact congrArg some equal.2.1)
    · rw [accounts,subjects]
      exact indexed.subjects.keep id new (by simp [found,subjectOf,equal.2.2.2])

end

/-! ### What `accountForGoogle` returns -/

/-- The last call of an `accountForGoogle` that returned the account. -/
def settles (sub : Str) (acct : Account) : AuthEvent → Prop
  | ⟨.accountByGoogleSub asked,.ok found⟩ => asked = sub ∧ found = acct
  | ⟨.accountByEmail _,.ok found⟩ => found = acct ∧ found.googleSub = sub
  | ⟨.linkGoogleSubject id asked,.ok _⟩ => id = acct.id ∧ asked = sub
  | ⟨.createGoogleAccount _ asked,.ok found⟩ => asked = sub ∧ found = acct
  | _ => False

def isSubjectLookup : AuthEvent → Bool
  | ⟨.accountByGoogleSub _,_⟩ => true
  | _ => false

/-- An account found for a subject was settled by the last call, and at most two passes were made. -/
def LookupAnswer (sub : Str) (log : List AuthEvent) (found : Except (Option APIError) Account) : Prop :=
  log.countP isSubjectLookup ≤ 2 ∧ ∀ acct, found = .ok acct → ∃ before last, log = before ++ [last] ∧ settles sub acct last

theorem accountForGooglePass_answers (cfg : AuthConfig) (sub email : Str) (retry : Lookup) (passes : Nat)
    (good : List AuthEvent → Except (Option APIError) Account → Prop)
    (fails : ∀ log err, log.countP isSubjectLookup ≤ passes + 1 → good log (.error err))
    (settled : ∀ before last acct, (before ++ [last]).countP isSubjectLookup ≤ passes + 1 → settles sub acct last →
      good (before ++ [last]) (.ok acct))
    (again : ∀ log, log.countP isSubjectLookup ≤ passes + 1 → retry.Answers good log)
    (log : List AuthEvent) (few : log.countP isSubjectLookup ≤ passes) :
    (accountForGooglePass cfg sub email retry).Answers good log := by
  have first : ∀ result : Except AuthError Account,
      (log ++ [(⟨.accountByGoogleSub sub,result⟩ : AuthEvent)]).countP isSubjectLookup ≤ passes + 1 := by
    intro result
    simp only [List.countP_append,List.countP_singleton,isSubjectLookup,if_true]
    omega
  have more : ∀ (log : List AuthEvent) (event : AuthEvent), isSubjectLookup event = false →
      log.countP isSubjectLookup ≤ passes + 1 → (log ++ [event]).countP isSubjectLookup ≤ passes + 1 := by
    intro log event other few
    simp only [List.countP_append,List.countP_singleton,other]
    simpa using few
  intro r
  rcases r with err | acct
  · cases err with
    | notFound =>
      intro r
      have second := more _ ⟨.accountByEmail email,r⟩ rfl (first (.error .notFound))
      rcases r with err | acct
      · cases err with
        | notFound =>
          dsimp only
          split
          · exact fails _ _ second
          · intro r
            have third := more _ ⟨.createGoogleAccount email sub,r⟩ rfl second
            rcases r with err | acct
            · cases err with
              | emailTaken => exact again _ third
              | duplicate => exact again _ third
              | _ => exact fails _ _ third
            · exact settled _ _ acct third ⟨rfl,rfl⟩
        | _ => exact fails _ _ second
      · dsimp only [linkAccount]
        split
        · exact fails _ _ second
        split
        · rename_i linked
          exact settled _ _ acct second ⟨rfl,linked⟩
        · intro r
          have third := more _ ⟨.linkGoogleSubject acct.id sub,r⟩ rfl second
          rcases r with err | done
          · cases err with
            | duplicate => exact again _ third
            | _ => exact fails _ _ third
          · exact settled _ _ _ third ⟨rfl,rfl⟩
    | _ => exact fails _ _ (first _)
  · exact settled _ _ acct (first _) ⟨rfl,rfl⟩

theorem accountForGoogle_answers (cfg : AuthConfig) (sub email : Str) :
    (accountForGoogle cfg sub email).Answers (LookupAnswer sub) [] := by
  have fails : ∀ (passes : Nat) (log : List AuthEvent) (err : Option APIError), passes + 1 ≤ 2 →
      log.countP isSubjectLookup ≤ passes + 1 → LookupAnswer sub log (.error err) :=
    fun passes log err bound few => ⟨few.trans bound,nofun⟩
  have settled : ∀ (passes : Nat) (before : List AuthEvent) (last : AuthEvent) (acct : Account), passes + 1 ≤ 2 →
      (before ++ [last]).countP isSubjectLookup ≤ passes + 1 → settles sub acct last →
      LookupAnswer sub (before ++ [last]) (.ok acct) := by
    intro passes before last acct bound few settles
    refine ⟨few.trans bound,fun other same => ?_⟩
    cases same
    exact ⟨before,last,rfl,settles⟩
  refine accountForGooglePass_answers cfg sub email _ 0 _ (fun log err => fails 0 log err (by omega))
    (fun before last acct => settled 0 before last acct (by omega)) (fun log few => ?_) [] (by simp)
  exact accountForGooglePass_answers cfg sub email (.done (.error none)) 1 _ (fun log err => fails 1 log err (by omega))
    (fun before last acct => settled 1 before last acct (by omega)) (fun log few => fails 1 log none (by omega) few) log few

/-- The subject stored with the account is `sub`. -/
def HasSubject (m : AuthMem) (id sub : Str) : Prop := ∃ a, m.accounts.get id = some a ∧ a.googleSub = sub

theorem indexed_ok {m : AuthMem} {id : Option Str} {acct : Account} (found : m.indexed id = .ok acct) :
    ∃ known, id = some known ∧ m.accounts.get known = some acct := by
  cases id with
  | none => contradiction
  | some known =>
    simp only [AuthMem.indexed] at found
    split at found
    · rename_i a there
      exact ⟨known,rfl,by rw [there,Except.ok.inj found]⟩
    · contradiction

theorem linkGoogleSubject_ok {m after : AuthMem} {id sub : Str} (linked : m.linkGoogleSubject id sub = (.ok (),after)) :
    HasSubject after id sub := by
  unfold AuthMem.linkGoogleSubject at linked
  split at linked
  · cases linked
  rename_i a found
  split at linked
  · rename_i already
    cases linked
    exact ⟨a,found,already⟩
  split at linked
  · cases linked
  dsimp only at linked
  split at linked
  · split at linked
    · cases linked
    · cases linked
      exact ⟨_,Table.get_upsert_same _ _ _,rfl⟩
  · cases linked
    exact ⟨_,Table.get_upsert_same _ _ _,rfl⟩

theorem createGoogleAccount_ok {m after : AuthMem} {email sub uuid : Str} {a : Account}
    (created : m.createGoogleAccount email sub uuid = (.ok a,after)) : HasSubject after a.id sub := by
  unfold AuthMem.createGoogleAccount AuthMem.insertAccountLocked at created
  split at created
  · cases created
  split at created
  · cases created
  split at created
  · cases created
  · cases created
    exact ⟨_,Table.get_upsert_same _ _ _,rfl⟩

/-- The call that settles a lookup leaves the account with the subject. -/
theorem execAuth_settles (env : AuthEnv) (s : AuthState) (call : AuthCall) (indexed : Indexed s.mem) (sub : Str)
    (acct : Account) (done : settles sub acct ⟨call,(execAuth env s call).1⟩) :
    HasSubject (execAuth env s call).2.mem acct.id sub := by
  cases call with
  | accountByGoogleSub asked =>
    simp only [execAuth,execAuthAt] at done ⊢
    rcases attempt_cases env {s with clock := s.clock + env.elapsed} (s.mem.accountByGoogleSub asked,s.mem) with
      same | same
    · rw [same] at done
      contradiction
    · rw [same] at done ⊢
      cases found : s.mem.accountByGoogleSub asked with
      | error err =>
        rw [found] at done
        contradiction
      | ok a =>
        rw [found] at done
        obtain ⟨rfl,rfl⟩ := done
        obtain ⟨id,keyed,there⟩ := indexed_ok found
        have subject := (indexed.subjects asked id).mp keyed
        rw [there,Option.bind_some] at subject
        refine ⟨a,by rw [indexed.ids id a there]; exact there,?_⟩
        unfold subjectOf at subject
        split at subject
        · contradiction
        · exact Option.some.inj subject
  | accountByEmail email =>
    simp only [execAuth,execAuthAt] at done ⊢
    rcases attempt_cases env {s with clock := s.clock + env.elapsed} (s.mem.accountByEmail email,s.mem) with
      same | same
    · rw [same] at done
      contradiction
    · rw [same] at done ⊢
      cases found : s.mem.accountByEmail email with
      | error err =>
        rw [found] at done
        contradiction
      | ok a =>
        rw [found] at done
        obtain ⟨rfl,subject⟩ := done
        obtain ⟨id,-,there⟩ := indexed_ok found
        exact ⟨a,by rw [indexed.ids id a there]; exact there,subject⟩
  | linkGoogleSubject id asked =>
    simp only [execAuth,execAuthAt] at done ⊢
    rcases attempt_cases env {s with clock := s.clock + env.elapsed} (s.mem.linkGoogleSubject id asked) with same | same
    · rw [same] at done
      contradiction
    · rw [same] at done ⊢
      rcases linked : s.mem.linkGoogleSubject id asked with ⟨result,after⟩
      rw [linked] at done
      cases result with
      | error err => contradiction
      | ok _ =>
        obtain ⟨rfl,rfl⟩ := done
        exact linkGoogleSubject_ok linked
  | createGoogleAccount email asked =>
    simp only [execAuth,execAuthAt] at done ⊢
    rcases attempt_cases env {s with clock := s.clock + env.elapsed} (s.mem.createGoogleAccount email asked env.uuid) with
      same | same
    · rw [same] at done
      contradiction
    · rw [same] at done ⊢
      rcases created : s.mem.createGoogleAccount email asked env.uuid with ⟨result,after⟩
      rw [created] at done
      cases result with
      | error err => contradiction
      | ok a =>
        obtain ⟨rfl,rfl⟩ := done
        exact createGoogleAccount_ok created
  | _ => exact absurd done (by simp [settles])

/-! ### Every run -/

theorem SameAccount.trans {a b c : Account} (first : SameAccount a b) (second : SameAccount b c) : SameAccount a c := by
  refine ⟨second.1.trans first.1,second.2.1.trans first.2.1,second.2.2.1.trans first.2.2.1,fun linked => ?_⟩
  have same := first.2.2.2 linked
  exact (second.2.2.2 (same ▸ linked)).trans same

/-- A subject that an account has stays with it. -/
theorem HasSubject.kept {m after : AuthMem} {uuid id sub : Str} (has : HasSubject m id sub) (nonempty : sub ≠ [])
    (step : AccountStep m after uuid) (fresh : m.accounts.get uuid = none) : HasSubject after id sub := by
  obtain ⟨a,found,subject⟩ := has
  obtain ⟨new,there,same⟩ := step.kept fresh id a found
  exact ⟨new,there,(same.2.2.2 (subject ▸ nonempty)).trans subject⟩

/-- What a sign-in that is over has seen. -/
def SignInAnswer (request : SignIn) (log : List AuthEvent) (answer : SignedIn) : Prop :=
  ∀ sub email found, request = .google sub email → answer = .google found → LookupAnswer sub log found

theorem signIn_answers (lib : AuthLibrary) (cfg : AuthConfig) (request : SignIn) :
    (signIn lib cfg request).Answers (SignInAnswer request) [] := by
  cases request with
  | google sub email =>
    refine (accountForGoogle_answers cfg sub email).bind fun log found answered => ?_
    intro asked _ other same equal
    cases same
    cases equal
    exact answered
  | register body draws => exact Program.answers_of_forall (fun _ _ => nofun) _ _
  | login body draws => exact Program.answers_of_forall (fun _ _ => nofun) _ _

structure AccountsInv (l : SignInLedger) : Prop where
  indexed : Indexed l.shared.mem
  settled : ∀ entry ∈ l.history, ∀ sub acct, settles sub acct entry.event →
    HasSubject entry.after.mem acct.id sub ∧ (sub ≠ [] → HasSubject l.shared.mem acct.id sub)

section
variable (lib : AuthLibrary) (cfg : AuthConfig) (clock : Nat)

theorem signInRun_invariant (moves : List SignInMove)
    (fresh : Guarded (Ledger.move (signIn lib cfg) execAuth) AccountFresh (Ledger.initial (AuthState.empty clock)) moves) :
    AccountsInv (signInRun lib cfg clock moves) ∧
      Ledger.Served (fun request program log => program.Answers (SignInAnswer request) log)
        (signInRun lib cfg clock moves) ∧
      (signInRun lib cfg clock moves).Logged := by
  refine Ledger.ledger_invariant (fun request program log => program.Answers (SignInAnswer request) log) AccountFresh
    AccountsInv (signIn_answers lib cfg) (fun _ _ _ _ answers => answers) (fun l request _ holds => ⟨holds.1,holds.2⟩)
    ?_ (AuthState.empty clock) moves ?_ fresh
  · intro l index env request op next log holds _ _ unused _
    have step := execAuth_accounts env l.shared op
    refine ⟨step.indexed unused holds.indexed,fun entry member sub acct done => ?_⟩
    rcases List.mem_append.mp member with old | new
    · obtain ⟨before,now⟩ := holds.settled entry old sub acct done
      exact ⟨before,fun nonempty => (now nonempty).kept nonempty step unused⟩
    · rw [List.mem_singleton.mp new] at done ⊢
      have has := execAuth_settles env l.shared op holds.indexed sub acct done
      exact ⟨has,fun _ => has⟩
  · refine ⟨⟨?_,Table.empty_isIndex emailOf,Table.empty_isIndex subjectOf⟩,by simp [Ledger.initial]⟩
    intro id a found
    simp [Ledger.initial,AuthState.empty,AuthMem.newMem] at found

/-- One account for each e-mail and each Google subject; no account loses its
subject, its e-mail or its password; and a lookup that succeeds, after at most
one retry, returns an account that has the subject. -/
theorem accounts_unique (moves more : List SignInMove)
    (fresh : Guarded (Ledger.move (signIn lib cfg) execAuth) AccountFresh (Ledger.initial (AuthState.empty clock))
      (moves ++ more)) :
    Indexed (signInRun lib cfg clock moves).shared.mem ∧
    (∀ id other a b, (signInRun lib cfg clock moves).shared.mem.accounts.get id = some a →
      (signInRun lib cfg clock moves).shared.mem.accounts.get other = some b →
      a.email = b.email ∨ (a.googleSub ≠ [] ∧ a.googleSub = b.googleSub) → id = other) ∧
    (∀ id a, (signInRun lib cfg clock moves).shared.mem.accounts.get id = some a →
      ∃ new, (signInRun lib cfg clock (moves ++ more)).shared.mem.accounts.get id = some new ∧ SameAccount a new) ∧
    ∀ index sub email found log,
      (signInRun lib cfg clock moves).Serves index (.google sub email) (.done (.google found)) log →
      log.countP isSubjectLookup ≤ 2 ∧ ∀ acct, found = .ok acct →
        (∃ past entry future, (signInRun lib cfg clock moves).history = past ++ entry::future ∧ entry.index = index ∧
          Ledger.callsOf future index = [] ∧ HasSubject entry.after.mem acct.id sub) ∧
        (sub ≠ [] → HasSubject (signInRun lib cfg clock moves).shared.mem acct.id sub) := by
  obtain ⟨first,rest⟩ := (guarded_append _ _ _ _ _).mp fresh
  obtain ⟨holds,served,logged⟩ := signInRun_invariant lib cfg clock moves first
  refine ⟨holds.indexed,?_,?_,?_⟩
  · rintro id other a b here there (email | ⟨linked,subject⟩)
    · exact holds.indexed.emails.unique here there rfl (congrArg some email.symm)
    · refine holds.indexed.subjects.unique here there (if_neg linked) ?_
      rw [subject] at linked ⊢
      exact if_neg linked
  · intro id a found
    have kept := Ledger.shared_invariant AccountFresh
      (fun s => ∃ new, s.mem.accounts.get id = some new ∧ SameAccount a new) ?_ _ more
      ⟨a,found,rfl,rfl,rfl,fun _ => rfl⟩ rest
    · rw [signInRun,run_append]
      exact kept
    · rintro l index env op ⟨now,there,same⟩ unused
      obtain ⟨new,later,equal⟩ := (execAuth_accounts env l.shared op).kept unused id now there
      exact ⟨new,later,same.trans equal⟩
  · intro index sub email found log serves
    obtain ⟨few,settled⟩ := served index _ _ log serves sub email found rfl rfl
    refine ⟨few,fun acct same => ?_⟩
    obtain ⟨before,last,shape,done⟩ := settled acct same
    obtain ⟨past,entry,future,split,owner,event,-,after⟩ :=
      Ledger.callsOf_split ((logged.logs index _ _ log serves).symm.trans shape)
    have member : entry ∈ (signInRun lib cfg clock moves).history := by simp [split]
    obtain ⟨recorded,now⟩ := holds.settled entry member sub acct (event ▸ done)
    exact ⟨⟨past,entry,future,split,owner,after,recorded⟩,now⟩

end

section
open SampleServer

/-- The account that a finished lookup returned. -/
private def returned (l : SignInLedger) (index : Nat) : Option Account :=
  match l.threads[index]? with
  | some ⟨.done (.google (.ok acct)),_⟩ => some acct
  | _ => none

private theorem returned_serves {l : SignInLedger} {index : Nat} {request : SignIn} {acct : Account}
    (asked : l.requests[index]? = some request) (found : returned l index = some acct) :
    ∃ log, l.Serves index request (.done (.google (.ok acct))) log := by
  unfold returned at found
  split at found
  · rename_i log there
    cases found
    exact ⟨log,asked,there⟩
  · contradiction

private def googleAnna : SignIn := .google (lit "g-1") (lit "anna@example.org")

/-- Anna signs in with Google while her registration is under way: the lookup by
subject finds nothing, the one by e-mail finds the new account, which is linked. -/
private def linking : List SignInMove :=
  [.spawn (.register ⟨lit "anna@example.org",lit "correct-horse-1",lit "laptop"⟩
      ⟨true,some (lit "argon2-1"),some (lit "hello")⟩),
    .spawn googleAnna,.step 1 (drawing "unused"),.step 0 (drawing "account-1"),.step 1 (drawing "unused"),
    .step 1 (drawing "unused")]

theorem racing_sign_in_links :
    Guarded (Ledger.move (signIn asciiAuth openServer) execAuth) AccountFresh (Ledger.initial (AuthState.empty 0))
        (linking ++ []) ∧
      ∃ acct, returned (signInRun asciiAuth openServer 0 linking) 1 = some acct ∧ acct.id = lit "account-1" ∧
        HasSubject (signInRun asciiAuth openServer 0 linking).shared.mem (lit "account-1") (lit "g-1") := by
  have facts : Guarded (Ledger.move (signIn asciiAuth openServer) execAuth) AccountFresh
        (Ledger.initial (AuthState.empty 0)) (linking ++ []) ∧
      (signInRun asciiAuth openServer 0 linking).requests[1]? = some googleAnna ∧
      (returned (signInRun asciiAuth openServer 0 linking) 1).map (fun acct => acct.id) = some (lit "account-1") := by
    decide
  obtain ⟨fresh,asked,found⟩ := facts
  obtain ⟨acct,here,known⟩ := Option.map_eq_some_iff.mp found
  obtain ⟨log,serves⟩ := returned_serves asked here
  obtain ⟨-,-,-,lookups⟩ := accounts_unique asciiAuth openServer 0 linking [] fresh
  obtain ⟨-,settled⟩ := lookups 1 _ _ _ log serves
  exact ⟨fresh,acct,here,known,known ▸ (settled acct rfl).2 (by decide)⟩

end
end NPSync.Server
