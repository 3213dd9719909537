import Mathlib.Logic.Relation
import NPSync.Server.PostgresAuth
import NPSync.Server.Revocation

/-! Refresh tokens over Postgres. The guarded update of `RotateRefreshToken` lets a
token be rotated once, whatever the handlers have read before it. -/
namespace NPSync.Server.Postgres
open Library

abbrev AuthEntry := Entry AuthState AuthCall AuthCall.Result AuthRequest

/-- The token that a call rotated, and its successor. -/
def rotated : AuthEvent → Option (Str × RefreshToken)
  | ⟨.rotateRefreshToken oldID _ _,.ok t⟩ => some (oldID,t)
  | _ => none

/-- The token that a call read, with the hash it was asked for. -/
def readToken : AuthEvent → Option (Str × RefreshToken)
  | ⟨.refreshTokenByHash tokenHash,.ok t⟩ => some (tokenHash,t)
  | _ => none

/-- `b` was issued for `a`. -/
def Succeeds (history : List AuthEntry) (a b : Str) : Prop :=
  ∃ entry ∈ history, ∃ t, rotated entry.event = some (a,t) ∧ t.id = b

/-- `b` descends from `a`; every token descends from itself. -/
def Descends (history : List AuthEntry) : Str → Str → Prop := Relation.ReflTransGen (Succeeds history)

/-- The request presented a token with this hash and was answered with new tokens. -/
def Refreshed (lib : AuthLibrary) (l : AuthLedger) (index : Nat) (tokenHash : Str) : Prop :=
  ∃ refreshToken newToken accountID deviceID next log, hashTokenSHA256 lib refreshToken = tokenHash ∧
    l.Serves index (.refresh refreshToken newToken) (.done (.tokens accountID deviceID next)) log

/-! ### The table of tokens -/

/-- The primary key and the unique hash. -/
structure Unique (tokens : Table Str RefreshToken) : Prop where
  ids : ∀ id t, tokens.get id = some t → t.id = id
  hashes : ∀ a b s t, tokens.get a = some s → tokens.get b = some t → s.tokenHash = t.tokenHash → a = b

/-- A later record of a token. -/
structure Later (before after : RefreshToken) : Prop where
  hash : after.tokenHash = before.tokenHash
  revoked : before.revokedAt ≠ none → after.revokedAt ≠ none

theorem Later.refl (t : RefreshToken) : Later t t := ⟨rfl,id⟩

/-- Every token is still there, and none was unrevoked. -/
def Kept (before after : Table Str RefreshToken) : Prop :=
  ∀ id t, before.get id = some t → ∃ cur, after.get id = some cur ∧ Later t cur

theorem Kept.refl (tokens : Table Str RefreshToken) : Kept tokens tokens := fun _ t found => ⟨t,found,.refl t⟩

theorem Kept.trans {a b c : Table Str RefreshToken} (first : Kept a b) (second : Kept b c) : Kept a c := by
  intro id t found
  obtain ⟨middle,there,hash,revoked⟩ := first id t found
  obtain ⟨cur,last,same,still⟩ := second id middle there
  exact ⟨cur,last,same.trans hash,fun marked => still (revoked marked)⟩

section
variable {d : AuthDb}

/-- Replacing a record by a later one. -/
theorem kept_replace (id : Str) (old new : RefreshToken) (found : d.tokens.get id = some old) (later : Later old new) :
    Kept d.tokens (d.tokens.upsert id new) := by
  intro asked t there
  rw [Table.get_upsert]
  split
  · rename_i here
    rw [here,found] at there
    cases there
    exact ⟨new,rfl,later⟩
  · exact ⟨t,there,.refl t⟩

theorem unique_replace (unique : Unique d.tokens) (id : Str) (old new : RefreshToken) (found : d.tokens.get id = some old)
    (named : new.id = old.id) (hashed : new.tokenHash = old.tokenHash) : Unique (d.tokens.upsert id new) := by
  have before : ∀ asked t, (d.tokens.upsert id new).get asked = some t →
      ∃ stored, d.tokens.get asked = some stored ∧ stored.id = t.id ∧ stored.tokenHash = t.tokenHash := by
    intro asked t there
    rw [Table.get_upsert] at there
    split at there
    · rename_i here
      cases there
      exact ⟨old,here ▸ found,named.symm,hashed.symm⟩
    · exact ⟨t,there,rfl,rfl⟩
  constructor
  · intro asked t there
    obtain ⟨stored,here,same,-⟩ := before asked t there
    exact same.symm.trans (unique.ids asked stored here)
  · intro a b s t first second same
    obtain ⟨s,foundS,-,hashS⟩ := before a s first
    obtain ⟨t,foundT,-,hashT⟩ := before b t second
    exact unique.hashes a b s t foundS foundT (hashS.trans (same.trans hashT.symm))

theorem kept_mapValues (change : RefreshToken → RefreshToken) (later : ∀ t, Later t (change t)) :
    Kept d.tokens (d.tokens.mapValues change) := by
  intro id t found
  exact ⟨change t,by rw [Table.get_mapValues,found]; rfl,later t⟩

theorem unique_mapValues (unique : Unique d.tokens) (change : RefreshToken → RefreshToken)
    (named : ∀ t, (change t).id = t.id) (hashed : ∀ t, (change t).tokenHash = t.tokenHash) :
    Unique (d.tokens.mapValues change) := by
  constructor
  · intro id t found
    rw [Table.get_mapValues] at found
    obtain ⟨stored,there,rfl⟩ := Option.map_eq_some_iff.mp found
    exact (named stored).trans (unique.ids id stored there)
  · intro a b s t first second same
    rw [Table.get_mapValues] at first second
    obtain ⟨s,foundS,rfl⟩ := Option.map_eq_some_iff.mp first
    obtain ⟨t,foundT,rfl⟩ := Option.map_eq_some_iff.mp second
    rw [hashed,hashed] at same
    exact unique.hashes a b s t foundS foundT same

/-- A new token that passes the constraints. -/
theorem kept_insert (id : Str) (new : RefreshToken) (free : d.tokens.get id = none) :
    Kept d.tokens (d.tokens.upsert id new) := by
  intro asked t found
  have different : asked ≠ id := by
    rintro rfl
    rw [free] at found
    contradiction
  exact ⟨t,by rw [Table.get_upsert_other _ _ _ _ different,found],.refl t⟩

theorem unique_insert (unique : Unique d.tokens) (new : RefreshToken)
    (unused : ∀ id t, d.tokens.get id = some t → t.tokenHash ≠ new.tokenHash) : Unique (d.tokens.upsert new.id new) := by
  have cases_ : ∀ asked t, (d.tokens.upsert new.id new).get asked = some t →
      (asked = new.id ∧ t = new) ∨ d.tokens.get asked = some t := by
    intro asked t there
    rw [Table.get_upsert] at there
    split at there
    · rename_i here
      exact .inl ⟨here,(Option.some.inj there).symm⟩
    · exact .inr there
  constructor
  · intro asked t there
    rcases cases_ asked t there with ⟨rfl,rfl⟩ | old
    · rfl
    · exact unique.ids asked t old
  · intro a b s t first second same
    rcases cases_ a s first with ⟨rfl,rfl⟩ | oldS
    · rcases cases_ b t second with ⟨rfl,rfl⟩ | oldT
      · rfl
      · exact absurd same.symm (unused b t oldT)
    · rcases cases_ b t second with ⟨rfl,rfl⟩ | oldT
      · exact absurd same (unused a s oldS)
      · exact unique.hashes a b s t oldS oldT same

theorem tokenByHash_some {tokenHash : Str} {t : RefreshToken} (found : d.tokenByHash tokenHash = some t) :
    ∃ id, d.tokens.get id = some t ∧ t.tokenHash = tokenHash := by
  unfold AuthDb.tokenByHash at found
  obtain ⟨id,there,passes⟩ := Table.find_value_some (fun row : RefreshToken => row.tokenHash = tokenHash) found
  exact ⟨id,there,of_decide_eq_true passes⟩

theorem tokenByHash_none {tokenHash id : Str} {t : RefreshToken} (missing : d.tokenByHash tokenHash = none)
    (found : d.tokens.get id = some t) : t.tokenHash ≠ tokenHash := by
  unfold AuthDb.tokenByHash at missing
  exact of_decide_eq_false (Table.find_value_none (fun row : RefreshToken => row.tokenHash = tokenHash) missing found)

theorem createRefreshToken_tokens (d : AuthDb) (unique : Unique d.tokens) (deviceID tokenHash : Str) (expiresAt : Nat) (id : Str) :
    Kept d.tokens (d.createRefreshToken deviceID tokenHash expiresAt id).2.tokens ∧
      Unique (d.createRefreshToken deviceID tokenHash expiresAt id).2.tokens := by
  unfold AuthDb.createRefreshToken
  split
  · exact ⟨.refl _,unique⟩
  · rename_i free
    simp only [Bool.or_eq_true,not_or,Bool.not_eq_true,Option.isSome_eq_false_iff,Option.isNone_iff_eq_none] at free
    refine ⟨kept_insert id _ free.1.1,unique_insert unique ⟨id,deviceID,tokenHash,expiresAt,none⟩ ?_⟩
    intro other t found
    exact tokenByHash_none free.1.2 found

theorem revokeTokens_tokens (d : AuthDb) (unique : Unique d.tokens) (test : RefreshToken → Bool) (now : Nat) :
    Kept d.tokens (d.revokeTokens test now).tokens ∧ Unique (d.revokeTokens test now).tokens := by
  let change (t : RefreshToken) : RefreshToken := if test t then {t with revokedAt := some now} else t
  refine ⟨kept_mapValues change fun t => ?_,unique_mapValues unique change (fun t => ?_) (fun t => ?_)⟩
  all_goals dsimp only [change]
  · split
    · exact ⟨rfl,fun _ => by simp⟩
    · exact .refl t
  · split <;> rfl
  · split <;> rfl

/-- A rotation found the token unrevoked and leaves it revoked. -/
theorem rotateRefreshToken_ok {oldID newTokenHash id : Str} {expiresAt now : Nat} {t : RefreshToken}
    (done : (d.rotateRefreshToken oldID newTokenHash expiresAt id now).1 = .ok t) :
    ∃ old, d.tokens.get oldID = some old ∧ old.revokedAt = none ∧
      (d.rotateRefreshToken oldID newTokenHash expiresAt id now).2 =
        (AuthDb.createRefreshToken {d with tokens := d.tokens.upsert oldID {old with revokedAt := some now}} old.deviceID
          newTokenHash expiresAt id).2 := by
  unfold AuthDb.rotateRefreshToken at done ⊢
  split at done
  · contradiction
  · rename_i old usable
    obtain ⟨found,active⟩ := Option.filter_eq_some_iff.mp usable
    simp only [decide_eq_true_eq] at active
    refine ⟨old,found,active.1,?_⟩
    dsimp only at done ⊢
    split at done
    · rfl
    · contradiction

theorem rotateRefreshToken_tokens (d : AuthDb) (unique : Unique d.tokens) (oldID newTokenHash : Str) (expiresAt : Nat)
    (id : Str) (now : Nat) :
    Kept d.tokens (d.rotateRefreshToken oldID newTokenHash expiresAt id now).2.tokens ∧
      Unique (d.rotateRefreshToken oldID newTokenHash expiresAt id now).2.tokens := by
  cases done : (d.rotateRefreshToken oldID newTokenHash expiresAt id now).1 with
  | error err =>
    have same : (d.rotateRefreshToken oldID newTokenHash expiresAt id now).2 = d := by
      unfold AuthDb.rotateRefreshToken at done ⊢
      split at done
      · rfl
      · dsimp only at done ⊢
        split at done
        · contradiction
        · rfl
    rw [same]
    exact ⟨.refl _,unique⟩
  | ok t =>
    obtain ⟨old,found,active,same⟩ := rotateRefreshToken_ok done
    rw [same]
    have spent := kept_replace oldID old {old with revokedAt := some now} found ⟨rfl,fun _ => by simp⟩
    have after := createRefreshToken_tokens {d with tokens := d.tokens.upsert oldID {old with revokedAt := some now}}
      (unique_replace unique oldID old _ found rfl rfl) old.deviceID newTokenHash expiresAt id
    exact ⟨spent.trans after.1,after.2⟩

end

/-! ### What a call does to the tokens -/

theorem execAuth_tokens (env : AuthEnv) (s : AuthState) (call : AuthCall) (unique : Unique s.db.tokens) :
    Kept s.db.tokens (execAuth env s call).2.db.tokens ∧ Unique (execAuth env s call).2.db.tokens := by
  have attempted : ∀ {X : Type} (out : Except AuthError X × AuthDb), Kept s.db.tokens out.2.tokens ∧ Unique out.2.tokens →
      Kept s.db.tokens (attempt env {s with clock := s.clock + env.elapsed} out).2.db.tokens ∧
        Unique (attempt env {s with clock := s.clock + env.elapsed} out).2.db.tokens := by
    intro X out kept
    unfold attempt
    split
    · exact ⟨.refl _,unique⟩
    · exact kept
  cases call with
  | revokeDevice accountID deviceID =>
    apply attempted
    unfold AuthDb.revokeDevice
    dsimp only
    have same : (s.db.changeDevice deviceID (fun row => row.accountID = accountID ∧ row.revokedAt = none)
        (fun row => {row with revokedAt := some (s.clock + env.elapsed)})).2.tokens = s.db.tokens := by
      unfold AuthDb.changeDevice
      split
      · rfl
      · rfl
    split
    · have revoked := revokeTokens_tokens _ (same.symm ▸ unique) (fun t => t.deviceID = deviceID ∧ t.revokedAt = none)
        (s.clock + env.elapsed)
      rw [same] at revoked
      exact revoked
    · exact ⟨.refl _,unique⟩
  | createRefreshToken deviceID tokenHash expiresAt =>
    exact attempted _ (createRefreshToken_tokens s.db unique deviceID tokenHash expiresAt env.uuid)
  | rotateRefreshToken oldID newTokenHash expiresAt =>
    exact attempted _ (rotateRefreshToken_tokens s.db unique oldID newTokenHash expiresAt env.uuid (s.clock + env.elapsed))
  | _ =>
    rw [(execAuth_sameBut env s _).tokens rfl]
    exact ⟨.refl _,unique⟩

theorem execAuth_rotated {env : AuthEnv} {s : AuthState} {call : AuthCall} {oldID : Str} {t : RefreshToken}
    (unique : Unique s.db.tokens) (done : rotated ⟨call,(execAuth env s call).1⟩ = some (oldID,t)) :
    ∃ old cur, s.db.tokens.get oldID = some old ∧ old.revokedAt = none ∧
      (execAuth env s call).2.db.tokens.get oldID = some cur ∧ cur.revokedAt ≠ none := by
  cases call with
  | rotateRefreshToken asked newTokenHash expiresAt =>
    simp only [execAuth,execAuthAt,attempt] at done ⊢
    split at done
    · contradiction
    · rename_i works
      simp only [works,Bool.false_eq_true,if_false]
      unfold rotated at done
      split at done
      · rename_i other hash expiry row same
        cases done
        injection same with call result
        injection call with asks
        subst asks
        obtain ⟨old,found,active,after⟩ := rotateRefreshToken_ok result
        rw [after]
        let spent : RefreshToken := {old with revokedAt := some (s.clock + env.elapsed)}
        have replaced := unique_replace unique asked old spent found rfl rfl
        have inserts := createRefreshToken_tokens {s.db with tokens := s.db.tokens.upsert asked spent} replaced old.deviceID
          newTokenHash expiresAt env.uuid
        obtain ⟨cur,there,later⟩ := inserts.1 asked spent (Table.get_upsert_same _ _ _)
        exact ⟨old,cur,found,active,there,later.revoked (by simp)⟩
      · contradiction
  | _ => cases done

theorem execAuth_readToken {env : AuthEnv} {s : AuthState} {call : AuthCall} {tokenHash : Str} {t : RefreshToken}
    (read : readToken ⟨call,(execAuth env s call).1⟩ = some (tokenHash,t)) :
    ∃ id, s.db.tokens.get id = some t ∧ t.tokenHash = tokenHash := by
  cases call with
  | refreshTokenByHash asked =>
    simp only [execAuth,execAuthAt,attempt] at read
    split at read
    · contradiction
    · unfold AuthDb.refreshTokenByHash at read
      cases found : s.db.tokenByHash asked with
      | none =>
        rw [found] at read
        contradiction
      | some row =>
        rw [found] at read
        cases read
        exact tokenByHash_some found
  | _ => cases read

/-! ### What a refresh has done before it answers -/

/-- New tokens are handed out after the presented token was read and rotated. -/
def RefreshAnswer (lib : AuthLibrary) (request : AuthRequest) (log : List AuthEvent) (response : AuthResponse) : Prop :=
  ∀ refreshToken newToken accountID deviceID next, request = .refresh refreshToken newToken →
    response = .tokens accountID deviceID next → ∃ tok t, (∃ event ∈ log, readToken event = some (hashTokenSHA256 lib refreshToken,tok)) ∧
      ∃ event ∈ log, rotated event = some (tok.id,t)

section
variable (lib : AuthLibrary) (cfg : AuthConfig)

theorem handleRefresh_answer (refreshToken : Str) (newToken : Option Str) :
    (handleRefresh lib cfg refreshToken newToken).Answers (RefreshAnswer lib (.refresh refreshToken newToken)) [] := by
  intro read
  rcases read with err | tok
  · cases err <;> exact fun _ _ _ _ _ _ other => nomatch other
  dsimp only
  split
  · exact fun _ _ _ _ _ _ other => nomatch other
  intro now
  dsimp only
  split
  · exact fun _ _ _ _ _ _ other => nomatch other
  intro device
  rcases device with err | dev
  · exact fun _ _ _ _ _ _ other => nomatch other
  dsimp only
  split
  · exact fun _ _ _ _ _ _ other => nomatch other
  split
  · exact fun _ _ _ _ _ _ other => nomatch other
  rename_i fresh
  intro again rotation
  cases rotation with
  | error err => exact fun _ _ _ _ _ _ other => nomatch other
  | ok t =>
    intro asked new accountID deviceID next same _
    cases same
    refine ⟨tok,t,⟨⟨.refreshTokenByHash (hashTokenSHA256 lib refreshToken),.ok tok⟩,by simp,rfl⟩,?_⟩
    exact ⟨⟨.rotateRefreshToken tok.id (hashTokenSHA256 lib fresh) (again + cfg.refreshTokenTTL),.ok t⟩,by simp,rfl⟩

theorem handleAuth_refreshAnswer (request : AuthRequest) :
    (handleAuth lib cfg request).Answers (RefreshAnswer lib request) [] := by
  by_cases refreshes : ∃ refreshToken newToken, request = .refresh refreshToken newToken
  · obtain ⟨refreshToken,newToken,rfl⟩ := refreshes
    exact handleRefresh_answer lib cfg refreshToken newToken
  · apply Program.answers_of_forall
    intro log response refreshToken newToken _ _ _ same
    exact absurd ⟨refreshToken,newToken,same⟩ refreshes

end

/-! ### Rotations of a run -/

structure TokenInv (l : AuthLedger) : Prop where
  unique : Unique l.shared.db.tokens
  reads : ∀ entry ∈ l.history, ∀ tokenHash t, readToken entry.event = some (tokenHash,t) →
    ∃ cur, l.shared.db.tokens.get t.id = some cur ∧ cur.tokenHash = tokenHash
  spent : ∀ entry ∈ l.history, ∀ oldID t, rotated entry.event = some (oldID,t) →
    ∃ cur, l.shared.db.tokens.get oldID = some cur ∧ cur.revokedAt ≠ none
  once : Ledger.Earlier (fun entry past => ∀ oldID t, rotated entry.event = some (oldID,t) →
    ∀ other ∈ past, ∀ t, rotated other.event ≠ some (oldID,t)) l.history

theorem TokenInv.called {l : AuthLedger} (inv : TokenInv l) (index : Nat) (env : AuthEnv) (request : AuthRequest)
    (op : AuthCall) (next : op.Result → AuthHandler) (log : List AuthEvent) :
    TokenInv (Ledger.called execAuth l index env request op next log) := by
  obtain ⟨kept,unique⟩ := execAuth_tokens env l.shared op inv.unique
  refine ⟨unique,?_,?_,inv.once.snoc _ ?_⟩
  · intro entry member tokenHash t read
    rcases List.mem_append.mp member with old | new
    · obtain ⟨cur,found,hash⟩ := inv.reads entry old tokenHash t read
      obtain ⟨after,there,later⟩ := kept t.id cur found
      exact ⟨after,there,later.hash.trans hash⟩
    · rw [List.mem_singleton.mp new] at read
      obtain ⟨id,found,hash⟩ := execAuth_readToken read
      obtain ⟨after,there,later⟩ := kept id t found
      exact ⟨after,by rw [inv.unique.ids id t found]; exact there,later.hash.trans hash⟩
  · intro entry member oldID t done
    rcases List.mem_append.mp member with old | new
    · obtain ⟨cur,found,revoked⟩ := inv.spent entry old oldID t done
      obtain ⟨after,there,later⟩ := kept oldID cur found
      exact ⟨after,there,later.revoked revoked⟩
    · rw [List.mem_singleton.mp new] at done
      obtain ⟨-,cur,-,-,there,revoked⟩ := execAuth_rotated inv.unique done
      exact ⟨cur,there,revoked⟩
  · intro oldID t done other member again twice
    obtain ⟨cur,found,revoked⟩ := inv.spent other member oldID again twice
    obtain ⟨old,-,stored,active,-,-⟩ := execAuth_rotated inv.unique done
    rw [found] at stored
    cases stored
    exact revoked active

section
variable (lib : AuthLibrary) (cfg : AuthConfig) (clock : Nat) (moves : List AuthMove)

theorem authRun_tokens : TokenInv (authRun lib cfg clock moves) ∧
    Ledger.Served (fun request program log => program.Answers (RefreshAnswer lib request) log) (authRun lib cfg clock moves) ∧
      (authRun lib cfg clock moves).Logged := by
  refine Ledger.ledger_invariant (fun request program log => program.Answers (RefreshAnswer lib request) log)
    (fun _ _ => True) TokenInv (handleAuth_refreshAnswer lib cfg) (fun _ _ _ _ answers => answers)
    (fun l request _ inv => ⟨inv.unique,inv.reads,inv.spent,inv.once⟩)
    (fun l index env request op next log inv _ _ _ _ => inv.called index env request op next log)
    (AuthState.empty clock) moves ?_ (guarded_trivial _ _ _)
  have blank : ∀ id t, (AuthState.empty clock).db.tokens.get id ≠ some t := by simp [AuthState.empty,AuthDb.empty]
  exact ⟨⟨fun id t found => absurd found (blank id t),fun a b s t found => absurd found (blank a s)⟩,
    by simp [Ledger.initial],by simp [Ledger.initial],Ledger.earlier_nil _⟩

/-- At most one successor of a token. -/
theorem succeeds_functional {l : AuthLedger} (inv : TokenInv l) {a b c : Str} (first : Succeeds l.history a b)
    (second : Succeeds l.history a c) : b = c := by
  obtain ⟨x,memberX,s,rotatedX,rfl⟩ := first
  obtain ⟨y,memberY,t,rotatedY,rfl⟩ := second
  obtain ⟨i,foundX⟩ := List.getElem?_of_mem memberX
  obtain ⟨j,foundY⟩ := List.getElem?_of_mem memberY
  rcases Nat.lt_trichotomy i j with earlier | rfl | later
  · exact absurd rotatedX (inv.once.at foundY a t rotatedY x (Ledger.mem_take earlier foundX) s)
  · rw [foundX] at foundY
    cases foundY
    rw [rotatedX] at rotatedY
    cases rotatedY
    rfl
  · exact absurd rotatedY (inv.once.at foundX a s rotatedX y (Ledger.mem_take later foundY) t)

/-- An unrevoked token has no successor, so nothing else descends from it. -/
theorem descends_unrevoked {l : AuthLedger} (inv : TokenInv l) {a b : Str} {t : RefreshToken}
    (found : l.shared.db.tokens.get a = some t) (active : t.revokedAt = none) (descends : Descends l.history a b) : a = b := by
  rcases Relation.ReflTransGen.cases_head descends with same | ⟨c,⟨entry,member,next,done,-⟩,-⟩
  · exact same
  · obtain ⟨cur,there,revoked⟩ := inv.spent entry member a next done
    rw [found] at there
    cases there
    exact absurd active revoked

/-- Two descendants of a token stand in one line. -/
theorem descends_linear {l : AuthLedger} (inv : TokenInv l) {root a b : Str} (first : Descends l.history root a)
    (second : Descends l.history root b) : Descends l.history a b ∨ Descends l.history b a := by
  apply Relation.ReflTransGen.total_of_right_unique
  · intro x y z one two
    exact succeeds_functional inv one two
  · exact first
  · exact second

/-- The rotation behind a successful refresh. -/
theorem refreshed_rotates {index : Nat} {tokenHash : Str} (refreshed : Refreshed lib (authRun lib cfg clock moves) index tokenHash) :
    ∃ (id : Str) (cur t : RefreshToken) (position : Nat) (entry : AuthEntry),
      (authRun lib cfg clock moves).shared.db.tokens.get id = some cur ∧ cur.tokenHash = tokenHash ∧
      (authRun lib cfg clock moves).history[position]? = some entry ∧ entry.index = index ∧
      rotated entry.event = some (id,t) := by
  obtain ⟨inv,answered,logged⟩ := authRun_tokens lib cfg clock moves
  obtain ⟨refreshToken,newToken,accountID,deviceID,next,log,rfl,serves⟩ := refreshed
  obtain ⟨tok,t,⟨read,inside,found⟩,event,member,done⟩ :=
    answered index _ _ log serves refreshToken newToken accountID deviceID next rfl rfl
  rw [logged.logs index _ _ log serves] at inside member
  obtain ⟨reading,stood,-,rfl⟩ := Ledger.mem_callsOf.mp inside
  obtain ⟨cur,stored,hash⟩ := inv.reads reading stood _ tok found
  obtain ⟨entry,there,owner,rfl⟩ := Ledger.mem_callsOf.mp member
  obtain ⟨position,at_⟩ := List.getElem?_of_mem there
  exact ⟨tok.id,cur,t,position,entry,stored,hash,at_,owner,done⟩

theorem refreshed_once {first second : Nat} {tokenHash : Str} (one : Refreshed lib (authRun lib cfg clock moves) first tokenHash)
    (two : Refreshed lib (authRun lib cfg clock moves) second tokenHash) : first = second := by
  have inv := (authRun_tokens lib cfg clock moves).1
  obtain ⟨id,a,s,i,x,foundA,hashA,atX,ownerX,rotatedX⟩ := refreshed_rotates lib cfg clock moves one
  obtain ⟨other,b,t,j,y,foundB,hashB,atY,ownerY,rotatedY⟩ := refreshed_rotates lib cfg clock moves two
  obtain rfl : id = other := inv.unique.hashes id other a b foundA foundB (hashA.trans hashB.symm)
  rcases Nat.lt_trichotomy i j with earlier | rfl | later
  · exact absurd rotatedX (inv.once.at atY id t rotatedY x (Ledger.mem_take earlier atX) s)
  · rw [atX] at atY
    cases atY
    exact ownerX.symm.trans ownerY
  · exact absurd rotatedY (inv.once.at atX id s rotatedX y (Ledger.mem_take later atY) t)

/-- A refresh token succeeds once, is refused from then on, and has at most one
unrevoked descendant. -/
theorem refresh_tokens_single_use (more : List AuthMove) :
    (∀ first second tokenHash, Refreshed lib (authRun lib cfg clock moves) first tokenHash →
      Refreshed lib (authRun lib cfg clock moves) second tokenHash → first = second) ∧
    (∀ index tokenHash, Refreshed lib (authRun lib cfg clock moves) index tokenHash →
      ∀ other, other ≠ index → ¬Refreshed lib (authRun lib cfg clock (moves ++ more)) other tokenHash) ∧
    ∀ root a b s t, Descends (authRun lib cfg clock moves).history root a → Descends (authRun lib cfg clock moves).history root b →
      (authRun lib cfg clock moves).shared.db.tokens.get a = some s → s.revokedAt = none →
      (authRun lib cfg clock moves).shared.db.tokens.get b = some t → t.revokedAt = none → a = b := by
  refine ⟨fun first second tokenHash => refreshed_once lib cfg clock moves,?_,?_⟩
  · intro index tokenHash refreshed other different again
    obtain ⟨refreshToken,newToken,accountID,deviceID,next,log,hash,serves⟩ := refreshed
    have later : (run (Ledger.move (handleAuth lib cfg) execAuth) (authRun lib cfg clock moves) more).Serves index _ _ log :=
      serves.stays more
    rw [authRun,← run_append] at later
    exact different (refreshed_once lib cfg clock (moves ++ more) again
      ⟨refreshToken,newToken,accountID,deviceID,next,log,hash,later⟩)
  · intro root a b s t first second foundA activeA foundB activeB
    have inv := (authRun_tokens lib cfg clock moves).1
    rcases descends_linear inv first second with down | up
    · exact descends_unrevoked inv foundA activeA down
    · exact (descends_unrevoked inv foundB activeB up).symm

end
section
open SampleServer

private def presentsFirst (next : String) : AuthRequest := .refresh (lit "hello") (some (lit next))

/-- The token of the registration is presented twice; the second handler reads it before it is rotated. -/
private def presentedTwice : List AuthMove :=
  registered ++ [.spawn (presentsFirst "world"),.spawn (presentsFirst "notes"),stepOf 1 "unused",stepOf 2 "unused"] ++
    List.replicate 3 (stepOf 1 "unused") ++ [stepOf 1 "token-2"]

private def tokensAnswer (thread : Thread AuthCall AuthCall.Result AuthResponse) : Option (Str × Str × Str) :=
  match thread.program with
  | .done (.tokens accountID deviceID next) => some (accountID,deviceID,next)
  | _ => none

theorem presented_twice_refreshed_once :
    Refreshed asciiAuth (authRun asciiAuth openServer 0 presentedTwice) 1 (hashTokenSHA256 asciiAuth (lit "hello")) ∧
      ¬Refreshed asciiAuth (authRun asciiAuth openServer 0 (presentedTwice ++ List.replicate 4 (stepOf 2 "token-3"))) 2
        (hashTokenSHA256 asciiAuth (lit "hello")) := by
  have facts : (authRun asciiAuth openServer 0 presentedTwice).requests[1]? = some (presentsFirst "world") ∧
      ((authRun asciiAuth openServer 0 presentedTwice).threads[1]?).bind tokensAnswer =
        some (lit "account-1",lit "device-1",lit "world") := by
    decide
  have refreshed : Refreshed asciiAuth (authRun asciiAuth openServer 0 presentedTwice) 1 (hashTokenSHA256 asciiAuth (lit "hello")) := by
    obtain ⟨⟨program,log⟩,found,answer⟩ := Option.bind_eq_some_iff.mp facts.2
    unfold tokensAnswer at answer
    split at answer
    · rename_i accountID deviceID next finished
      dsimp only at finished
      subst finished
      exact ⟨lit "hello",some (lit "world"),accountID,deviceID,next,log,rfl,facts.1,found⟩
    · contradiction
  exact ⟨refreshed,(refresh_tokens_single_use asciiAuth openServer 0 presentedTwice _).2.1 1 _ refreshed 2 (by decide)⟩

end
end NPSync.Server.Postgres
