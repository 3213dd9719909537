import NPSync.Server.GoogleRequests
import NPSync.Server.PostgresAuth

/-! The two stores as Google sign-in sees them: what any call does to a stored login,
and the account that a lookup by id returns. -/
namespace NPSync.Server
open Library

/-- A store of logins: its calls, the login it holds for a state, and that every
account is kept under its own id. -/
structure GoogleStore (S : Type) where
  exec : AuthEnv → S → (call : AuthCall) → call.Result × S
  opened : Nat → S
  login : S → Str → Option OAuthLogin
  Owned : S → Prop
  unused : ∀ clock state, login (opened clock) state = none
  opens : ∀ clock, Owned (opened clock)
  steps : ∀ env s call state, LoginStep state ⟨call,(exec env s call).1⟩ (login s state) (login (exec env s call).2 state)
  returns : ∀ env s call state row, returnedLogin ⟨call,(exec env s call).1⟩ = some (state,row) →
    login (exec env s call).2 state = some row
  keeps : ∀ env s call, Owned s → Owned (exec env s call).2
  account : ∀ env s id acct, Owned s → (exec env s (.accountByID id)).1 = .ok acct → acct.id = id

abbrev GoogleEntry (S : Type) := Entry S AuthCall AuthCall.Result AuthRequest

abbrev GoogleLedger (S : Type) := Ledger S AuthCall AuthCall.Result AuthResponse AuthRequest

/-- The authentication server over the store, started empty, after any schedule of any requests. -/
def GoogleStore.run {S : Type} (store : GoogleStore S) (lib : AuthLibrary) (cfg : AuthConfig) (clock : Nat)
    (moves : List AuthMove) : GoogleLedger S :=
  Library.run (Ledger.move (handleAuth lib cfg) store.exec) (Ledger.initial (store.opened clock)) moves

/-! ### The maps -/

theorem AccountStep.ids {m after : AuthMem} {uuid : Str} (step : AccountStep m after uuid)
    (ids : ∀ id a, m.accounts.get id = some a → a.id = id) (id : Str) (a : Account)
    (found : after.accounts.get id = some a) : a.id = id := by
  have put : ∀ (key : Str) (new : Account), after.accounts = m.accounts.upsert key new → new.id = key → a.id = id := by
    intro key new accounts own
    rw [accounts,Table.get_upsert] at found
    split at found
    · rename_i here
      cases found
      exact own.trans here.symm
    · exact ids id a found
  cases step with
  | quiet accounts emails subjects => exact ids id a (accounts ▸ found)
  | created email hash sub newEmail newSub accounts emails subjects => exact put uuid _ accounts rfl
  | linked key sub old there unlinked nonempty free accounts emails subjects => exact put key _ accounts (ids key old there)
  | counted key old new there equal accounts emails subjects => exact put key new accounts (equal.1.trans (ids key old there))

def memGoogle : GoogleStore AuthState where
  exec := execAuth
  opened := AuthState.empty
  login s state := s.mem.oauth.get state
  Owned s := ∀ id a, s.mem.accounts.get id = some a → a.id = id
  unused clock state := rfl
  opens clock := by simp [AuthState.empty,AuthMem.newMem]
  steps := execAuth_login
  returns := execAuth_returned
  keeps env s call ids := (execAuth_accounts env s call).ids ids
  account env s id acct ids result := ids id acct (execAuth_accountByID env s id acct result)

/-! ### The tables -/

namespace Postgres

theorem attempt_cases {X : Type} (env : AuthEnv) (s : AuthState) (out : Except AuthError X × AuthDb) :
    (attempt env s out = (.error .internal,s)) ∨ attempt env s out = (out.1,{s with db := out.2}) := by
  unfold attempt
  split
  · exact .inl rfl
  · exact .inr rfl

theorem changeLogin_cases (d : AuthDb) (state : Str) (allowed : OAuthLogin → Bool) (change : OAuthLogin → OAuthLogin) :
    (∃ err, d.changeLogin state allowed change = (.error err,d)) ∨
      ∃ login, d.oauth.get state = some login ∧ allowed login = true ∧
        d.changeLogin state allowed change = (.ok (change login),{d with oauth := d.oauth.upsert state (change login)}) := by
  unfold AuthDb.changeLogin
  split
  · exact .inl ⟨_,rfl⟩
  · rename_i login usable
    obtain ⟨found,fits⟩ := Option.filter_eq_some_iff.mp usable
    exact .inr ⟨login,found,fits,rfl⟩

/-- The update succeeds on the account's row, or neither row changes. -/
theorem markOAuthReady_cases (d : AuthDb) (state accountID : Str) :
    (∃ err, d.markOAuthReady state accountID = (.error err,d)) ∨
      d.markOAuthReady state accountID = d.changeLogin state (fun login => login.status = .exchanging) (fun login =>
        {login with status := .ready,accountID := accountID,codeVerifier := [],errorCode := [],errorMessage := []}) := by
  unfold AuthDb.markOAuthReady
  dsimp only
  split
  · rename_i login updated
    split
    · exact .inr (Prod.ext updated.symm rfl)
    · exact .inl ⟨_,rfl⟩
  · exact .inl ⟨_,rfl⟩

theorem changeLogin_step (env : AuthEnv) (s : AuthState) (asked state : Str) (allowed : OAuthLogin → Bool)
    (change : OAuthLogin → OAuthLogin) (out : Except AuthError OAuthLogin × AuthDb)
    (made : (∃ err, out = (.error err,s.db)) ∨ out = s.db.changeLogin asked allowed change)
    (event : Except AuthError OAuthLogin → AuthEvent) (refused : ∀ err, changedState (event (.error err)) = none)
    (named : ∀ login, changedState (event (.ok login)) = some asked)
    (moves : ∀ login, allowed login = true → LoginMove asked (event (.ok (change login))) login (change login)) :
    LoginStep state (event (attempt env s out).1) (s.db.oauth.get state) ((attempt env s out).2.db.oauth.get state) := by
  apply loginStep_of_change event refused named
  rcases attempt_cases env s out with same | same
  · exact .inl ⟨_,by rw [same],by rw [same]⟩
  rcases made with ⟨err,failed⟩ | changes
  · exact .inl ⟨err,by rw [same,failed],by rw [same,failed]⟩
  rcases changeLogin_cases s.db asked allowed change with ⟨err,unchanged⟩ | ⟨login,found,fits,changed⟩
  · exact .inl ⟨err,by rw [same,changes,unchanged],by rw [same,changes,unchanged]⟩
  · exact .inr ⟨login,change login,found,moves login fits,by rw [same,changes,changed],by rw [same,changes,changed]⟩

theorem createOAuthLogin_step (env : AuthEnv) (s : AuthState) (login : OAuthLogin) (state : Str) :
    LoginStep state ⟨.createOAuthLogin login,(attempt env s (s.db.createOAuthLogin login s.clock)).1⟩
      (s.db.oauth.get state) ((attempt env s (s.db.createOAuthLogin login s.clock)).2.db.oauth.get state) := by
  have purged : ∀ state other, (s.db.oauth.filterValues fun old =>
      !decide (old.expiresAt + AuthMem.day < s.clock)).get state = some other → s.db.oauth.get state = some other := by
    intro state other stored
    rw [Table.get_filterValues] at stored
    exact (Option.filter_eq_some_iff.mp stored).1
  apply loginStep_of_insert purged
  rcases attempt_cases env s (s.db.createOAuthLogin login s.clock) with same | same
  · exact .inl ⟨_,by rw [same],.inl (by rw [same])⟩
  rw [same]
  unfold AuthDb.createOAuthLogin
  dsimp only
  split
  · exact .inl ⟨_,rfl,.inr rfl⟩
  · exact .inr ⟨{login with accountID := [],errorCode := [],errorMessage := []},rfl,⟨rfl,rfl,rfl,rfl⟩,rfl,rfl⟩

theorem execAuth_login (env : AuthEnv) (s : AuthState) (call : AuthCall) (state : Str) :
    LoginStep state ⟨call,(execAuth env s call).1⟩ (s.db.oauth.get state) ((execAuth env s call).2.db.oauth.get state) := by
  by_cases part : call.part = some .logins
  · let s' := {s with clock := s.clock + env.elapsed}
    cases call with
    | createOAuthLogin login => exact createOAuthLogin_step env s' login state
    | claimOAuthLogin asked now =>
      refine changeLogin_step env s' asked state _ _ _ (.inr rfl) (fun result => ⟨.claimOAuthLogin asked now,result⟩)
        (fun _ => rfl) (fun _ => rfl) fun login fits => ?_
      exact .claimed now login (of_decide_eq_true fits).1
    | markOAuthReady asked accountID =>
      refine changeLogin_step env s' asked state _ _ _ (markOAuthReady_cases s.db asked accountID)
        (fun result => ⟨.markOAuthReady asked accountID,result⟩) (fun _ => rfl) (fun _ => rfl) fun login fits => ?_
      exact .ready accountID login _ (of_decide_eq_true fits) rfl
    | markOAuthError asked code message =>
      refine changeLogin_step env s' asked state _ _ _ (.inr rfl)
        (fun result => ⟨.markOAuthError asked code message,result⟩) (fun _ => rfl) (fun _ => rfl) fun login fits => ?_
      exact .failed code message login _ (of_decide_eq_true fits) rfl
    | consumeOAuthLogin asked =>
      refine changeLogin_step env s' asked state _ _ _ (.inr rfl) (fun result => ⟨.consumeOAuthLogin asked,result⟩)
        (fun _ => rfl) (fun _ => rfl) fun login fits => ?_
      exact .consumed login _ (of_decide_eq_true fits) rfl
    | reopenOAuthLogin asked =>
      refine changeLogin_step env s' asked state _ _ _ (.inr rfl) (fun result => ⟨.reopenOAuthLogin asked,result⟩)
        (fun _ => rfl) (fun _ => rfl) fun login fits => ?_
      exact .reopened login _ (of_decide_eq_true fits) rfl
    | _ => cases part
  · apply LoginStep.quiet
    · exact fun changed => part (changedState_part changed)
    · intro login stored
      rwa [(execAuth_sameBut env s call).logins part] at stored

/-- A login that a call returns is the stored row. -/
theorem execAuth_returned (env : AuthEnv) (s : AuthState) (call : AuthCall) (state : Str) (login : OAuthLogin)
    (returned : returnedLogin ⟨call,(execAuth env s call).1⟩ = some (state,login)) :
    (execAuth env s call).2.db.oauth.get state = some login := by
  cases call with
  | oauthLoginByState asked =>
    simp only [execAuth,execAuthAt] at returned ⊢
    rcases attempt_cases env {s with clock := s.clock + env.elapsed} (s.db.oauthLoginByState asked,s.db) with
      same | same
    · rw [same] at returned
      contradiction
    rw [same] at returned ⊢
    unfold AuthDb.oauthLoginByState at returned
    cases found : s.db.oauth.get asked with
    | none =>
      rw [found] at returned
      contradiction
    | some stored =>
      rw [found] at returned
      cases returned
      exact found
  | claimOAuthLogin asked now =>
    cases result : (execAuth env s (.claimOAuthLogin asked now)).1 with
    | error err =>
      rw [result] at returned
      contradiction
    | ok claimed =>
      have step := execAuth_login env s (.claimOAuthLogin asked now) asked
      rw [result] at returned step
      cases returned
      exact step.claimed_row
  | _ => contradiction

/-- The account with this id is the row with this key. -/
def KeyedById (accounts : Table Str AccountRow) : Prop := ∀ id row, accounts.get id = some row → row.id = id

theorem KeyedById.upsert {accounts : Table Str AccountRow} (keyed : KeyedById accounts) {key : Str} {new : AccountRow}
    (own : new.id = key) : KeyedById (accounts.upsert key new) := by
  intro id row found
  rw [Table.get_upsert] at found
  split at found
  · rename_i here
    cases found
    exact own.trans here.symm
  · exact keyed id row found

theorem insertAccount_keyed {d : AuthDb} (keyed : KeyedById d.accounts) (email passwordHash googleSub id : Str) :
    KeyedById (d.insertAccount email passwordHash googleSub id).2.accounts := by
  unfold AuthDb.insertAccount
  dsimp only
  split
  · exact keyed
  split
  · exact keyed
  · exact keyed.upsert rfl

theorem linkGoogleSubject_keyed {d : AuthDb} (keyed : KeyedById d.accounts) (accountID googleSub : Str) :
    KeyedById (d.linkGoogleSubject accountID googleSub).2.accounts := by
  unfold AuthDb.linkGoogleSubject
  split
  · exact keyed
  rename_i row usable
  split
  · exact keyed
  · exact keyed.upsert (keyed accountID row (Option.filter_eq_some_iff.mp usable).1)

theorem recordFailedLogin_keyed {d : AuthDb} (keyed : KeyedById d.accounts) (accountID : Str) (lockAfter lockFor now : Nat) :
    KeyedById (d.recordFailedLogin accountID lockAfter lockFor now).2.accounts := by
  unfold AuthDb.recordFailedLogin
  split
  · exact keyed
  rename_i row found
  dsimp only
  split
  · exact keyed.upsert (keyed accountID row found)
  · exact keyed.upsert (keyed accountID row found)

theorem resetFailedLogins_keyed {d : AuthDb} (keyed : KeyedById d.accounts) (accountID : Str) :
    KeyedById (d.resetFailedLogins accountID).accounts := by
  unfold AuthDb.resetFailedLogins
  split
  · exact keyed
  · rename_i row found
    exact keyed.upsert (keyed accountID row found)

theorem execAuth_keyed (env : AuthEnv) (s : AuthState) (call : AuthCall) (keyed : KeyedById s.db.accounts) :
    KeyedById (execAuth env s call).2.db.accounts := by
  have attempted : ∀ {X : Type} (out : Except AuthError X × AuthDb), KeyedById out.2.accounts →
      KeyedById (attempt env {s with clock := s.clock + env.elapsed} out).2.db.accounts := by
    intro X out after
    rcases attempt_cases env {s with clock := s.clock + env.elapsed} out with same | same
    · rw [same]
      exact keyed
    · rw [same]
      exact after
  by_cases part : call.part = some .accounts
  · cases call with
    | createAccount email hash => exact attempted _ (insertAccount_keyed keyed email hash [] env.uuid)
    | createGoogleAccount email sub =>
      apply attempted
      unfold AuthDb.createGoogleAccount
      split
      · exact keyed
      · exact insertAccount_keyed keyed email [] sub env.uuid
    | linkGoogleSubject id sub => exact attempted _ (linkGoogleSubject_keyed keyed id sub)
    | recordFailedLogin id lockAfter lockFor => exact attempted _ (recordFailedLogin_keyed keyed id lockAfter lockFor _)
    | resetFailedLogins id =>
      exact attempted (X := Unit) (.ok (),s.db.resetFailedLogins id) (resetFailedLogins_keyed keyed id)
    | _ => cases part
  · rw [(execAuth_sameBut env s call).accounts part]
    exact keyed

theorem execAuth_accountByID {env : AuthEnv} {s : AuthState} {id : Str} {acct : Account} (keyed : KeyedById s.db.accounts)
    (result : (execAuth env s (.accountByID id)).1 = .ok acct) : acct.id = id := by
  simp only [execAuth,execAuthAt] at result
  rcases attempt_cases env {s with clock := s.clock + env.elapsed} (s.db.accountByID id,s.db) with same | same
  · rw [same] at result
    contradiction
  rw [same] at result
  unfold AuthDb.accountByID at result
  cases found : s.db.accounts.get id with
  | none =>
    rw [found] at result
    contradiction
  | some row =>
    rw [found] at result
    rw [← Except.ok.inj result]
    exact keyed id row found

end Postgres

def postgresGoogle : GoogleStore Postgres.AuthState where
  exec := Postgres.execAuth
  opened := Postgres.AuthState.empty
  login s state := s.db.oauth.get state
  Owned s := Postgres.KeyedById s.db.accounts
  unused clock state := rfl
  opens clock := by simp [Postgres.KeyedById,Postgres.AuthState.empty,Postgres.AuthDb.empty]
  steps := Postgres.execAuth_login
  returns := Postgres.execAuth_returned
  keeps := Postgres.execAuth_keyed
  account env s id acct := Postgres.execAuth_accountByID

end NPSync.Server
