import NPSync.Library.Lockout
import NPSync.Server.AuthAgreement

/-! How often a password can be tried. A login reads the lock, verifies the password
and then records a failure or resets the counter, so the two calls around a
verification bound the time in which it happens. -/
namespace NPSync.Server
open Library Library.Lockout
open Postgres (AccountRow AuthDb scanAccount)

/-- A call with its answer and the time when it was made. -/
abbrev TimedEvent := AuthEvent × Nat

/-- The calls that follow a verification: a failure is recorded or the counter reset. -/
def followsPassword : AuthEvent → Bool
  | ⟨.recordFailedLogin ..,_⟩ | ⟨.resetFailedLogins _,_⟩ => true
  | _ => false

/-- The verification of a login: it begins after the call before and ends before the
call that follows. -/
def verification : List TimedEvent → Option Check
  | before::after::rest => if followsPassword after.1 then some ⟨before.2,after.2⟩ else verification (after::rest)
  | _ => none

/-- The password was right. -/
def succeeds (log : List TimedEvent) : Bool := log.any fun entry => match entry.1 with
  | ⟨.resetFailedLogins _,_⟩ => true
  | _ => false

/-- The store failed to record a failure. -/
def unrecorded (log : List TimedEvent) : Bool := log.any fun entry => match entry.1 with
  | ⟨.recordFailedLogin ..,.error _⟩ => true
  | _ => false

/-- A login with what each of its calls meets. -/
structure LoginRequest where
  body : Credentials
  draws : SignInDraws
  envs : Nat → AuthEnv

def counterOf (acct : Account) : Counter := ⟨acct.failedLoginAttempts,acct.lockedUntil⟩

/-- The account after a failure at `now`. -/
def failedAccount (cfg : AuthConfig) (acct : Account) (now : Nat) : Account :=
  let c := (counterOf acct).fail cfg.loginLockoutAfter cfg.loginLockoutFor now
  {acct with failedLoginAttempts := c.failures,lockedUntil := c.lockedUntil}

section
variable {S : Type} (exec : AuthEnv → S → (call : AuthCall) → call.Result × S) (clock : S → Nat)

/-- A handler alone with the store. -/
def converse : AuthHandler → (Nat → AuthEnv) → S → List TimedEvent × AuthResponse × S
  | .done response,_,s => ([],response,s)
  | .call op next,envs,s =>
    let out := exec (envs 0) s op
    let rest := converse (next out.1) (fun n => envs (n + 1)) out.2
    ((⟨op,out.1⟩,clock out.2)::rest.1,rest.2)

variable (lib : AuthLibrary) (cfg : AuthConfig)

def login (r : LoginRequest) (s : S) : List TimedEvent × AuthResponse × S :=
  converse exec clock (handleLogin lib cfg r.body r.draws) r.envs s

/-- The calls of logins one after another. -/
def logins : S → List LoginRequest → List (List TimedEvent)
  | _,[] => []
  | s,r::rest => (login exec clock lib cfg r s).1::logins (login exec clock lib cfg r s).2.2 rest

/-- What a login relies on: `holds` says that the store has this record for the
e-mail. -/
structure LoginStore (email : Str) (holds : S → Account → Prop) : Prop where
  time : ∀ env s call, clock (exec env s call).2 = clock s + env.elapsed
  lookup : ∀ env s acct, holds s acct → holds (exec env s (.accountByEmail email)).2 acct ∧
    ((exec env s (.accountByEmail email)).1 = .ok acct ∨
      env.fault = true ∧ (exec env s (.accountByEmail email)).1 = .error .internal)
  now : ∀ env s acct, holds s acct → holds (exec env s .now).2 acct ∧ (exec env s .now).1 = clock (exec env s .now).2
  record : ∀ env s acct, holds s acct →
    let out := exec env s (.recordFailedLogin acct.id cfg.loginLockoutAfter cfg.loginLockoutFor)
    (∃ err, out.1 = .error err) ∨ (∃ a, out.1 = .ok a) ∧ holds out.2 (failedAccount cfg acct (clock out.2))

/-! ### One login -/

variable {exec clock lib cfg} {email : Str} {holds : S → Account → Prop}

/-- What a login does for an account with a password. -/
inductive LoginOutcome (exec : AuthEnv → S → (call : AuthCall) → call.Result × S) (clock : S → Nat) (cfg : AuthConfig)
    (holds : S → Account → Prop) (s : S) (acct : Account) (out : List TimedEvent × AuthResponse × S) : Prop
  | refused (unverified : verification out.1 = none) (kept : holds out.2.2 acct) (later : clock s ≤ clock out.2.2)
  | verified (check : Check) (found : verification out.1 = some check) (begun : clock s ≤ check.begun)
      (lasts : check.begun ≤ check.settled) (settled : check.settled ≤ clock out.2.2)
      (unlocked : (counterOf acct).Unlocked check.begun)
      (outcome : succeeds out.1 = true ∨ unrecorded out.1 = true ∨ holds out.2.2 (failedAccount cfg acct check.settled))

theorem converse_call (op : AuthCall) (next : op.Result → AuthHandler) (envs : Nat → AuthEnv) (s : S) :
    converse exec clock (.call op next) envs s =
      ((⟨op,(exec (envs 0) s op).1⟩,clock (exec (envs 0) s op).2)::
          (converse exec clock (next (exec (envs 0) s op).1) (fun n => envs (n + 1)) (exec (envs 0) s op).2).1,
        (converse exec clock (next (exec (envs 0) s op).1) (fun n => envs (n + 1)) (exec (envs 0) s op).2).2) := rfl

theorem LoginStore.converse_time (store : LoginStore exec clock cfg email holds) (program : AuthHandler)
    (envs : Nat → AuthEnv) (s : S) : clock s ≤ clock (converse exec clock program envs s).2.2 := by
  induction program generalizing envs s with
  | done response => exact Nat.le_refl _
  | call op next ih =>
    apply Nat.le_trans _ (ih _ _ _)
    rw [store.time]
    exact Nat.le_add_right _ _

/-- A verification and the call that follows it. -/
theorem LoginStore.checkPassword_step (store : LoginStore exec clock cfg email holds) {s : S} {acct : Account}
    (held : holds s acct) (password : acct.passwordHash ≠ []) (body : Credentials) (draws : SignInDraws)
    (envs : Nat → AuthEnv) {before : TimedEvent} (here : before.2 = clock s) {start : S} (begun : clock start ≤ clock s)
    (unlocked : (counterOf acct).Unlocked (clock s)) :
    LoginOutcome exec clock cfg holds start acct
      (before::(converse exec clock (checkPassword lib cfg body draws acct) envs s).1,
        (converse exec clock (checkPassword lib cfg body draws acct) envs s).2) := by
  unfold checkPassword
  rw [if_neg password]
  have later : clock s ≤ clock (exec (envs 0) s (.recordFailedLogin acct.id cfg.loginLockoutAfter cfg.loginLockoutFor)).2 ∧
      clock s ≤ clock (exec (envs 0) s (.resetFailedLogins acct.id)).2 := by
    rw [store.time,store.time]
    exact ⟨Nat.le_add_right _ _,Nat.le_add_right _ _⟩
  cases right : lib.verifyPassword acct.passwordHash body.password with
  | false =>
    have outcome := store.record (envs 0) s acct held
    rw [if_pos (by rfl),converse_call]
    generalize exec (envs 0) s (.recordFailedLogin acct.id cfg.loginLockoutAfter cfg.loginLockoutFor) = out at outcome later
    obtain ⟨answer,after⟩ := out
    have ends : (converse exec clock (orInternal (fun _ : Account => failedWith unauthorized) answer) (fun n => envs (n + 1))
        after).2.2 = after := by
      cases answer with
      | error err => rfl
      | ok a => rfl
    apply LoginOutcome.verified ⟨before.2,clock after⟩
    case found => rfl
    case begun => exact here ▸ begun
    case lasts => exact here ▸ later.1
    case settled => exact Nat.le_of_eq (congrArg clock ends.symm)
    case unlocked => exact here ▸ unlocked
    case outcome =>
      rcases outcome with ⟨err,fault⟩ | ⟨-,counted⟩
      · apply Or.inr
        apply Or.inl
        simp only at fault
        simp [unrecorded,fault]
      · apply Or.inr
        apply Or.inr
        exact ends.symm ▸ counted
  | true =>
    rw [if_neg (by simp),converse_call]
    apply LoginOutcome.verified ⟨before.2,clock (exec (envs 0) s (.resetFailedLogins acct.id)).2⟩
    case found => rfl
    case begun => exact here ▸ begun
    case lasts => exact here ▸ later.2
    case settled => exact store.converse_time _ _ _
    case unlocked => exact here ▸ unlocked
    case outcome =>
      apply Or.inl
      simp [succeeds]

/-- Calls before the last one before a verification do not matter. -/
theorem LoginOutcome.prepend {s : S} {acct : Account} {first second : TimedEvent} {log : List TimedEvent}
    {rest : AuthResponse × S} (step : LoginOutcome exec clock cfg holds s acct (second::log,rest))
    (quiet : followsPassword second.1 = false) : LoginOutcome exec clock cfg holds s acct (first::second::log,rest) := by
  have same : verification (first::second::log) = verification (second::log) := by
    rw [verification,quiet]
    rfl
  cases step with
  | refused unverified kept later => exact .refused (same.trans unverified) kept later
  | verified check found begun lasts settled unlocked outcome =>
    refine .verified check (same.trans found) begun lasts settled unlocked ?_
    rcases outcome with right | lost | counted
    · apply Or.inl
      unfold succeeds at right ⊢
      rw [List.any_cons,right,Bool.or_true]
    · apply Or.inr
      apply Or.inl
      unfold unrecorded at lost ⊢
      rw [List.any_cons,lost,Bool.or_true]
    · exact .inr (.inr counted)

theorem LoginStore.login_step (store : LoginStore exec clock cfg email holds) {s : S} {acct : Account} (held : holds s acct)
    (password : acct.passwordHash ≠ []) {r : LoginRequest} (own : lib.normalizeEmail r.body.email = email) :
    LoginOutcome exec clock cfg holds s acct (login exec clock lib cfg r s) := by
  unfold login handleLogin
  cases allowed : r.draws.allowed with
  | false => exact .refused rfl held (Nat.le_refl _)
  | true =>
    obtain ⟨found,answer⟩ := store.lookup (r.envs 0) s acct held
    have began : clock s ≤ clock (exec (r.envs 0) s (.accountByEmail email)).2 := by
      rw [store.time]
      exact Nat.le_add_right _ _
    rw [if_neg (by simp),own,converse_call]
    rcases answer with known | ⟨fault,lost⟩
    · rw [known]
      dsimp only
      cases locked : acct.lockedUntil with
      | none =>
        apply store.checkPassword_step found password
        case here => rfl
        case begun => exact began
        case unlocked => simp [Counter.Unlocked,counterOf,locked]
      | some release =>
        obtain ⟨again,read⟩ := store.now (r.envs 1) _ acct found
        have passed : clock s ≤ clock (exec (r.envs 1) (exec (r.envs 0) s (.accountByEmail email)).2 .now).2 := by
          rw [store.time]
          exact Nat.le_trans began (Nat.le_add_right _ _)
        dsimp only
        rw [converse_call]
        dsimp only
        apply LoginOutcome.prepend
        case quiet => rfl
        by_cases early : (exec (r.envs 1) (exec (r.envs 0) s (.accountByEmail email)).2 .now).1 < release
        · rw [if_pos early]
          exact .refused rfl again passed
        · rw [if_neg early]
          apply store.checkPassword_step again password
          case here => rfl
          case begun => exact passed
          case unlocked =>
            intro other same
            rw [counterOf,locked] at same
            obtain rfl := Option.some.inj same
            rw [← read]
            exact Nat.le_of_not_lt early
    · rw [lost]
      exact .refused rfl found began

/-! ### Logins one after another -/

theorem mem_dropLast_cons {X : Type} {x first : X} {rest : List X} (member : x ∈ rest.dropLast) : x ∈ (first::rest).dropLast := by
  cases rest with
  | nil => contradiction
  | cons second rest => exact List.mem_cons_of_mem first member

/-- The verifications of logins without a success in between are checks of the
account's counter. -/
theorem LoginStore.logins_checks (store : LoginStore exec clock cfg email holds) {requests : List LoginRequest}
    (own : ∀ r ∈ requests, lib.normalizeEmail r.body.email = email) {s : S} {acct : Account} (held : holds s acct)
    (password : acct.passwordHash ≠ [])
    (fails : ∀ log ∈ (logins exec clock lib cfg s requests).dropLast, succeeds log = false)
    (recorded : ∀ log ∈ logins exec clock lib cfg s requests, unrecorded log = false) :
    Checks cfg.loginLockoutAfter cfg.loginLockoutFor (counterOf acct)
        ((logins exec clock lib cfg s requests).filterMap verification) ∧
      ∀ check ∈ (logins exec clock lib cfg s requests).filterMap verification, clock s ≤ check.begun := by
  induction requests generalizing s acct with
  | nil => exact ⟨.nil _,nofun⟩
  | cons r rest ih =>
    have step := store.login_step held password (own r List.mem_cons_self)
    have owned : ∀ r ∈ rest, lib.normalizeEmail r.body.email = email := fun r member => own r (List.mem_cons_of_mem _ member)
    rw [logins] at fails recorded ⊢
    have later : ∀ {acct : Account}, holds (login exec clock lib cfg r s).2.2 acct → acct.passwordHash ≠ [] → _ :=
      fun held password => ih owned held password (fun log member => fails log (mem_dropLast_cons member))
        (fun log member => recorded log (List.mem_cons_of_mem _ member))
    cases step with
    | refused unverified kept passed =>
      obtain ⟨checks,begins⟩ := later kept password
      rw [List.filterMap_cons_none unverified]
      exact ⟨checks,fun check member => Nat.le_trans passed (begins check member)⟩
    | verified check found begun lasts settled unlocked outcome =>
      rw [List.filterMap_cons_some found]
      rcases outcome with right | lost | counted
      · cases rest with
        | nil =>
          refine ⟨.last _ check unlocked lasts,?_⟩
          intro other member
          rw [List.mem_singleton.mp member]
          exact begun
        | cons second rest =>
          have wrong := fails (login exec clock lib cfg r s).1 List.mem_cons_self
          rw [right] at wrong
          contradiction
      · have kept := recorded (login exec clock lib cfg r s).1 List.mem_cons_self
        rw [lost] at kept
        contradiction
      · obtain ⟨checks,begins⟩ := later counted password
        have after : ∀ next ∈ (logins exec clock lib cfg (login exec clock lib cfg r s).2.2 rest).filterMap verification,
            check.settled ≤ next.begun := fun next member => Nat.le_trans settled (begins next member)
        refine ⟨.failed _ check _ unlocked lasts after checks,?_⟩
        intro next member
        rcases List.mem_cons.mp member with rfl | inside
        · exact begun
        · exact Nat.le_trans begun (Nat.le_trans lasts (after next inside))

/-- During a lock any login is refused, with the right password too. -/
theorem LoginStore.login_locked (store : LoginStore exec clock cfg email holds) {s : S} {acct : Account} (held : holds s acct)
    {release : Nat} (locked : acct.lockedUntil = some release) {r : LoginRequest}
    (own : lib.normalizeEmail r.body.email = email)
    (early : clock s + (r.envs 0).elapsed + (r.envs 1).elapsed < release) :
    verification (login exec clock lib cfg r s).1 = none ∧ holds (login exec clock lib cfg r s).2.2 acct ∧
      ((r.envs 0).fault = false → ∃ err, (login exec clock lib cfg r s).2.1 = .error err ∧ err.httpStatus = 429) := by
  unfold login handleLogin
  cases allowed : r.draws.allowed with
  | false => exact ⟨rfl,held,fun _ => ⟨rateLimited,rfl,rfl⟩⟩
  | true =>
    obtain ⟨found,answer⟩ := store.lookup (r.envs 0) s acct held
    rw [if_neg (by simp),own,converse_call]
    rcases answer with known | ⟨fault,lost⟩
    · obtain ⟨again,read⟩ := store.now (r.envs 1) _ acct found
      have before : (exec (r.envs 1) (exec (r.envs 0) s (.accountByEmail email)).2 .now).1 < release := by
        rw [read,store.time,store.time]
        exact early
      rw [known]
      dsimp only
      rw [locked]
      dsimp only
      rw [converse_call]
      dsimp only
      rw [if_pos before]
      exact ⟨rfl,again,fun _ => ⟨_,rfl,rfl⟩⟩
    · rw [lost]
      refine ⟨rfl,found,?_⟩
      intro spared
      rw [spared] at fault
      contradiction

end

/-! ### The two stores -/

/-- The account of an e-mail in the maps. -/
def MemHolds (email : Str) (s : AuthState) (acct : Account) : Prop :=
  s.mem.byEmail.get email = some acct.id ∧ s.mem.accounts.get acct.id = some acct

/-- The only row with an e-mail. -/
def PostgresHolds (email : Str) (s : Postgres.AuthState) (acct : Account) : Prop :=
  (∃ row, s.db.accounts.get acct.id = some row ∧ row.email = email ∧ scanAccount row = acct) ∧
    ∀ id row, s.db.accounts.get id = some row → row.email = email → id = acct.id

theorem MemHolds.found {email : Str} {s : AuthState} {acct : Account} (held : MemHolds email s acct) :
    s.mem.accountByEmail email = .ok acct := by
  unfold AuthMem.accountByEmail AuthMem.indexed
  rw [held.1]
  dsimp only
  rw [held.2]

theorem PostgresHolds.found {email : Str} {s : Postgres.AuthState} {acct : Account} (held : PostgresHolds email s acct) :
    s.db.accountByEmail email = .ok acct := by
  obtain ⟨⟨row,stored,mail,scanned⟩,only⟩ := held
  have known : s.db.accountRowBy (fun row => row.email = email) = some row := by
    cases found : s.db.accountRowBy (fun row => row.email = email) with
    | none =>
      have absent := Table.find_value_none (fun row : AccountRow => decide (row.email = email)) found stored
      simp [mail] at absent
    | some other =>
      obtain ⟨id,there,passes⟩ := Table.find_value_some (fun row : AccountRow => decide (row.email = email)) found
      obtain rfl := only id other there (of_decide_eq_true passes)
      exact there.symm.trans stored
  unfold AuthDb.accountByEmail
  rw [known,AuthDb.selected,scanned]

/-- A store call keeps the clock, and one that is spared gives what the method gives. -/
theorem attempt_spared {X : Type} (env : AuthEnv) (s : AuthState) (out : Except AuthError X × AuthMem) :
    (attempt env s out).2.clock = s.clock ∧ (attempt env s out = (out.1,{s with mem := out.2}) ∨
      env.fault = true ∧ attempt env s out = (.error .internal,s)) := by
  unfold attempt
  split
  · rename_i fault
    exact ⟨rfl,.inr ⟨fault,rfl⟩⟩
  · exact ⟨rfl,.inl rfl⟩

theorem failedAccount_locks {cfg : AuthConfig} {acct : Account} (locks : cfg.loginLockoutAfter ≤ acct.failedLoginAttempts + 1)
    (now : Nat) :
    failedAccount cfg acct now = {acct with failedLoginAttempts := 0,lockedUntil := some (now + cfg.loginLockoutFor)} := by
  have fails : (counterOf acct).fail cfg.loginLockoutAfter cfg.loginLockoutFor now = ⟨0,some (now + cfg.loginLockoutFor)⟩ :=
    if_pos locks
  rw [failedAccount,fails]

theorem failedAccount_counts {cfg : AuthConfig} {acct : Account}
    (counts : ¬cfg.loginLockoutAfter ≤ acct.failedLoginAttempts + 1) (now : Nat) :
    failedAccount cfg acct now = {acct with failedLoginAttempts := acct.failedLoginAttempts + 1} := by
  have fails : (counterOf acct).fail cfg.loginLockoutAfter cfg.loginLockoutFor now =
      ⟨acct.failedLoginAttempts + 1,acct.lockedUntil⟩ := if_neg counts
  rw [failedAccount,fails]

theorem mem_recordFailedLogin (cfg : AuthConfig) {m : AuthMem} {acct : Account}
    (stored : m.accounts.get acct.id = some acct) (now : Nat) :
    m.recordFailedLogin acct.id cfg.loginLockoutAfter cfg.loginLockoutFor now =
      (.ok (failedAccount cfg acct now),{m with accounts := m.accounts.upsert acct.id (failedAccount cfg acct now)}) := by
  unfold AuthMem.recordFailedLogin
  rw [stored]
  by_cases locks : cfg.loginLockoutAfter ≤ acct.failedLoginAttempts + 1
  · simp only [locks,if_true,failedAccount_locks locks]
  · simp only [locks,if_false,failedAccount_counts locks]

theorem mem_loginStore (cfg : AuthConfig) (email : Str) :
    LoginStore execAuth AuthState.clock cfg email (MemHolds email) := by
  constructor
  case time =>
    intro env s call
    cases call with
    | now => rfl
    | exchangeGoogleCode => rfl
    | verifyRS256IDToken => rfl
    | _ => exact (attempt_spared _ _ _).1
  case lookup =>
    intro env s acct held
    have ran : execAuth env s (.accountByEmail email) =
        attempt env {s with clock := s.clock + env.elapsed} (s.mem.accountByEmail email,s.mem) := rfl
    rw [ran]
    rcases (attempt_spared env {s with clock := s.clock + env.elapsed} (s.mem.accountByEmail email,s.mem)).2 with
      done | ⟨fault,lost⟩
    · rw [done]
      exact ⟨held,.inl held.found⟩
    · rw [lost]
      exact ⟨held,.inr ⟨fault,rfl⟩⟩
  case now => exact fun env s acct held => ⟨held,rfl⟩
  case record =>
    intro env s acct held
    have ran : execAuth env s (.recordFailedLogin acct.id cfg.loginLockoutAfter cfg.loginLockoutFor) =
        attempt env {s with clock := s.clock + env.elapsed} (.ok (failedAccount cfg acct (s.clock + env.elapsed)),
          {s.mem with accounts := s.mem.accounts.upsert acct.id (failedAccount cfg acct (s.clock + env.elapsed))}) :=
      congrArg (attempt env {s with clock := s.clock + env.elapsed}) (mem_recordFailedLogin cfg held.2 _)
    rw [ran]
    rcases (attempt_spared env {s with clock := s.clock + env.elapsed} (.ok (failedAccount cfg acct (s.clock + env.elapsed)),
        {s.mem with accounts := s.mem.accounts.upsert acct.id (failedAccount cfg acct (s.clock + env.elapsed))})).2 with
      done | ⟨fault,lost⟩
    · rw [done]
      exact .inr ⟨⟨_,rfl⟩,held.1,Table.get_upsert_same _ _ _⟩
    · rw [lost]
      exact .inl ⟨_,rfl⟩

namespace Postgres

theorem attempt_spared {X : Type} (env : AuthEnv) (s : AuthState) (out : Except AuthError X × AuthDb) :
    (attempt env s out).2.clock = s.clock ∧ (attempt env s out = (out.1,{s with db := out.2}) ∨
      env.fault = true ∧ attempt env s out = (.error .internal,s)) := by
  unfold attempt
  split
  · rename_i fault
    exact ⟨rfl,.inr ⟨fault,rfl⟩⟩
  · exact ⟨rfl,.inl rfl⟩

/-- The row after a failure. -/
def failedRow (cfg : AuthConfig) (row : AccountRow) (now : Nat) : AccountRow :=
  let c := (counterOf (scanAccount row)).fail cfg.loginLockoutAfter cfg.loginLockoutFor now
  {row with failedLoginAttempts := c.failures,lockedUntil := c.lockedUntil}

theorem scanAccount_failed (cfg : AuthConfig) (row : AccountRow) (now : Nat) :
    scanAccount (failedRow cfg row now) = failedAccount cfg (scanAccount row) now := rfl

theorem recordFailedLogin_row (cfg : AuthConfig) (whole : AuthDb.second ∣ cfg.loginLockoutFor) {d : AuthDb} {id : Str}
    {row : AccountRow} (stored : d.accounts.get id = some row) (now : Nat) :
    d.recordFailedLogin id cfg.loginLockoutAfter cfg.loginLockoutFor now =
      (.ok (failedAccount cfg (scanAccount row) now),{d with accounts := d.accounts.upsert id (failedRow cfg row now)}) := by
  unfold AuthDb.recordFailedLogin
  rw [stored,Nat.div_mul_cancel whole,← scanAccount_failed]
  by_cases locks : cfg.loginLockoutAfter ≤ row.failedLoginAttempts + 1
  · have fails : (counterOf (scanAccount row)).fail cfg.loginLockoutAfter cfg.loginLockoutFor now =
        ⟨0,some (now + cfg.loginLockoutFor)⟩ := if_pos locks
    simp only [locks,if_true,failedRow,fails]
  · have fails : (counterOf (scanAccount row)).fail cfg.loginLockoutAfter cfg.loginLockoutFor now =
        ⟨row.failedLoginAttempts + 1,row.lockedUntil⟩ := if_neg locks
    simp only [locks,if_false,failedRow,fails]

theorem holds_failed (cfg : AuthConfig) {email : Str} {s : AuthState} {acct : Account} {row : AccountRow}
    (held : PostgresHolds email s acct) (stored : s.db.accounts.get acct.id = some row) (scanned : scanAccount row = acct)
    (clock now : Nat) :
    PostgresHolds email ⟨{s.db with accounts := s.db.accounts.upsert acct.id (failedRow cfg row now)},clock⟩
      (failedAccount cfg acct now) := by
  obtain ⟨⟨same,there,mail,-⟩,only⟩ := held
  obtain rfl := Option.some.inj (stored.symm.trans there)
  constructor
  · exact ⟨failedRow cfg row now,Table.get_upsert_same _ _ _,mail,by rw [scanAccount_failed,scanned]⟩
  · intro id other found here
    by_cases own : id = acct.id
    · exact own
    · have found : s.db.accounts.get id = some other := (Table.get_upsert_other _ _ _ _ own).symm.trans found
      exact only id other found here

theorem loginStore (cfg : AuthConfig) (whole : AuthDb.second ∣ cfg.loginLockoutFor) (email : Str) :
    LoginStore execAuth AuthState.clock cfg email (PostgresHolds email) := by
  constructor
  case time =>
    intro env s call
    cases call with
    | now => rfl
    | exchangeGoogleCode => rfl
    | verifyRS256IDToken => rfl
    | _ => exact (attempt_spared _ _ _).1
  case lookup =>
    intro env s acct held
    have ran : execAuth env s (.accountByEmail email) =
        attempt env {s with clock := s.clock + env.elapsed} (s.db.accountByEmail email,s.db) := rfl
    rw [ran]
    rcases (attempt_spared env {s with clock := s.clock + env.elapsed} (s.db.accountByEmail email,s.db)).2 with
      done | ⟨fault,lost⟩
    · rw [done]
      exact ⟨held,.inl held.found⟩
    · rw [lost]
      exact ⟨held,.inr ⟨fault,rfl⟩⟩
  case now => exact fun env s acct held => ⟨held,rfl⟩
  case record =>
    intro env s acct held
    obtain ⟨row,stored,-,scanned⟩ := held.1
    have counted := recordFailedLogin_row cfg whole stored (s.clock + env.elapsed)
    rw [scanned] at counted
    have ran : execAuth env s (.recordFailedLogin acct.id cfg.loginLockoutAfter cfg.loginLockoutFor) =
        attempt env {s with clock := s.clock + env.elapsed} (.ok (failedAccount cfg acct (s.clock + env.elapsed)),
          {s.db with accounts := s.db.accounts.upsert acct.id (failedRow cfg row (s.clock + env.elapsed))}) :=
      congrArg (attempt env {s with clock := s.clock + env.elapsed}) counted
    rw [ran]
    rcases (attempt_spared env {s with clock := s.clock + env.elapsed} (.ok (failedAccount cfg acct (s.clock + env.elapsed)),
        {s.db with accounts := s.db.accounts.upsert acct.id (failedRow cfg row (s.clock + env.elapsed))})).2 with
      done | ⟨fault,lost⟩
    · rw [done]
      exact .inr ⟨⟨_,rfl⟩,holds_failed cfg held stored scanned _ _⟩
    · rw [lost]
      exact .inl ⟨_,rfl⟩

/-- The primary key and the unique e-mails of `accounts`. -/
structure Keyed (d : AuthDb) : Prop where
  ids : ∀ id row, d.accounts.get id = some row → row.id = id
  emails : ∀ first second a b, d.accounts.get first = some a → d.accounts.get second = some b → a.email = b.email →
    first = second

theorem Keyed.holds {s : AuthState} (keyed : Keyed s.db) {email : Str} {acct : Account}
    (found : s.db.accountByEmail email = .ok acct) : PostgresHolds email s acct := by
  unfold AuthDb.accountByEmail at found
  cases known : s.db.accountRowBy (fun row => row.email = email) with
  | none =>
    rw [known] at found
    contradiction
  | some row =>
    rw [known] at found
    obtain rfl := Except.ok.inj found
    obtain ⟨id,stored,passes⟩ := Table.find_value_some (fun row : AccountRow => decide (row.email = email)) known
    obtain rfl := keyed.ids id row stored
    have mail : row.email = email := of_decide_eq_true passes
    constructor
    · exact ⟨row,stored,mail,rfl⟩
    · intro id other there here
      exact keyed.emails id row.id other row there stored (here.trans mail.symm)

end Postgres

theorem Indexed.holds {s : AuthState} (indexed : Indexed s.mem) {email : Str} {acct : Account}
    (found : s.mem.accountByEmail email = .ok acct) : MemHolds email s acct := by
  unfold AuthMem.accountByEmail AuthMem.indexed at found
  cases named : s.mem.byEmail.get email with
  | none =>
    rw [named] at found
    contradiction
  | some id =>
    rw [named] at found
    dsimp only at found
    cases stored : s.mem.accounts.get id with
    | none =>
      rw [stored] at found
      contradiction
    | some a =>
      rw [stored] at found
      obtain rfl := Except.ok.inj found
      obtain rfl := indexed.ids id a stored
      exact ⟨named,stored⟩

/-! ### The bound -/

/-- Whatever the state of an account with a password and whatever is drawn and met, a
run of logins without a success in between, each failure of which the store records,
verifies the password at most `lockAfter` times in an interval of the length of a
lock; and a login during a lock is refused and leaves the account as it is. -/
structure LockedOut {S : Type} (exec : AuthEnv → S → (call : AuthCall) → call.Result × S) (clock : S → Nat)
    (good : S → Prop) (find : S → Except AuthError Account) (lib : AuthLibrary) (cfg : AuthConfig) (email : Str) : Prop where
  bounded : ∀ s acct requests, good s → find s = .ok acct → acct.passwordHash ≠ [] →
    (∀ r : LoginRequest, r ∈ requests → lib.normalizeEmail r.body.email = email) →
    (∀ log ∈ (logins exec clock lib cfg s requests).dropLast, succeeds log = false) →
    (∀ log ∈ logins exec clock lib cfg s requests, unrecorded log = false) →
    ∀ first, ((logins exec clock lib cfg s requests).filterMap verification).countP
      (Check.meets first (first + cfg.loginLockoutFor)) ≤ cfg.loginLockoutAfter
  refused : ∀ s acct release, good s → find s = .ok acct → acct.lockedUntil = some release →
    ∀ r : LoginRequest, lib.normalizeEmail r.body.email = email →
      clock s + (r.envs 0).elapsed + (r.envs 1).elapsed < release →
      verification (login exec clock lib cfg r s).1 = none ∧ find (login exec clock lib cfg r s).2.2 = .ok acct ∧
        ((r.envs 0).fault = false → ∃ err, (login exec clock lib cfg r s).2.1 = .error err ∧ err.httpStatus = 429)

theorem LoginStore.lockedOut {S : Type} {exec : AuthEnv → S → (call : AuthCall) → call.Result × S} {clock : S → Nat}
    {cfg : AuthConfig} {email : Str} {holds : S → Account → Prop} (store : LoginStore exec clock cfg email holds)
    (lib : AuthLibrary) (positive : 1 ≤ cfg.loginLockoutAfter) {good : S → Prop} {find : S → Except AuthError Account}
    (known : ∀ s acct, good s → find s = .ok acct → holds s acct) (found : ∀ s acct, holds s acct → find s = .ok acct) :
    LockedOut exec clock good find lib cfg email := by
  constructor
  case bounded =>
    intro s acct requests kept there password own fails recorded first
    obtain ⟨checks,-⟩ := store.logins_checks own (known s acct kept there) password fails recorded
    exact checks.bounded positive first
  case refused =>
    intro s acct release kept there locked r own early
    obtain ⟨unverified,after,answer⟩ := store.login_locked (known s acct kept there) locked own early
    exact ⟨unverified,found _ acct after,answer⟩

/-- The lockout bounds the verifications over both stores. -/
theorem lockout_bound (lib : AuthLibrary) (cfg : AuthConfig) (email : Str) (positive : 1 ≤ cfg.loginLockoutAfter)
    (whole : AuthDb.second ∣ cfg.loginLockoutFor) :
    LockedOut execAuth AuthState.clock (fun s => Indexed s.mem) (fun s => s.mem.accountByEmail email) lib cfg email ∧
      LockedOut Postgres.execAuth Postgres.AuthState.clock (fun s => Postgres.Keyed s.db) (fun s => s.db.accountByEmail email)
        lib cfg email := by
  constructor
  · exact (mem_loginStore cfg email).lockedOut lib positive (fun s acct indexed there => indexed.holds there)
      (fun s acct held => held.found)
  · exact (Postgres.loginStore cfg whole email).lockedOut lib positive (fun s acct keyed there => keyed.holds there)
      (fun s acct held => held.found)

section
open SampleServer

/-- A guess, a tenth of a second after the one before. -/
private def guess : LoginRequest :=
  ⟨⟨lit "a@b.c",lit "guess",lit "d"⟩,⟨true,none,none⟩,fun n => ⟨if n = 0 then 100000000 else 0,[],false,none,none⟩⟩

private def guessed : AuthState := ⟨(AuthMem.newMem.createAccount (lit "a@b.c") (lit "argon2-1") (lit "1")).2,0⟩

theorem seven_guesses_bounded :
    ((logins execAuth AuthState.clock asciiAuth openServer guessed (List.replicate 7 guess)).filterMap verification).countP
      (Check.meets 0 (0 + openServer.loginLockoutFor)) ≤ openServer.loginLockoutAfter := by
  have empty : Indexed AuthMem.newMem := by
    refine ⟨?_,Table.empty_isIndex emailOf,Table.empty_isIndex subjectOf⟩
    intro id a found
    simp [AuthMem.newMem] at found
  have step := insertAccountLocked_step AuthMem.newMem (lit "a@b.c") (lit "argon2-1") [] (lit "1") (.inl rfl)
  have own : ∀ r ∈ List.replicate 7 guess, asciiAuth.normalizeEmail r.body.email = lit "a@b.c" := by
    intro r member
    rw [List.eq_of_mem_replicate member]
    decide
  have quiet : (∀ log ∈ (logins execAuth AuthState.clock asciiAuth openServer guessed (List.replicate 7 guess)).dropLast,
        succeeds log = false) ∧
      ∀ log ∈ logins execAuth AuthState.clock asciiAuth openServer guessed (List.replicate 7 guess), unrecorded log = false := by
    decide
  exact (lockout_bound asciiAuth openServer (lit "a@b.c") (by decide) (by decide)).1.bounded guessed
    ⟨lit "1",lit "a@b.c",lit "argon2-1",[],0,none⟩ _ (step.indexed rfl empty) rfl (by decide) own quiet.1 quiet.2 0

end
end NPSync.Server
