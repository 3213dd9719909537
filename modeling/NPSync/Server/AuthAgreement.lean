import NPSync.Library.Related
import NPSync.Server.Accounts
import NPSync.Server.StoreCalls

/-! The two stores on accounts, Google logins, devices, refresh tokens and pairing
codes: one relation between the maps and the tables, kept by every call that stays
within what both define alike. -/
namespace NPSync.Server
open Library
open Postgres (AccountRow AuthDb scanAccount)

/-- Devices created at different times have one order. -/
theorem sorted_devices {a b : List DeviceRecord} (perm : a.Perm b) (apart : (b.map DeviceRecord.createdAt).Nodup) :
    a.insertionSort DeviceRecord.Older = b.insertionSort DeviceRecord.Older := by
  have total : Std.Total DeviceRecord.Older := ⟨fun a b => Nat.le_total a.createdAt b.createdAt⟩
  have trans : IsTrans DeviceRecord DeviceRecord.Older := ⟨fun a b c first second => Nat.le_trans first second⟩
  have of_b : b.insertionSort DeviceRecord.Older ⊆ b := (List.perm_insertionSort DeviceRecord.Older b).subset
  have of_a : a.insertionSort DeviceRecord.Older ⊆ b := ((List.perm_insertionSort DeviceRecord.Older a).trans perm).subset
  have same : (a.insertionSort DeviceRecord.Older).Perm (b.insertionSort DeviceRecord.Older) :=
    (List.perm_insertionSort _ a).trans (perm.trans (List.perm_insertionSort _ b).symm)
  refine same.eq_of_pairwise ?_ (List.pairwise_insertionSort _ a) (List.pairwise_insertionSort _ b)
  intro d e in_a in_b before after
  exact List.inj_on_of_nodup_map apart (of_a in_a) (of_b in_b) (Nat.le_antisymm before after)

/-- A row of `accounts` and the record in the map; a subject is never the empty text. -/
structure SameRow (a : Account) (row : AccountRow) : Prop where
  undated : Undated a (scanAccount row)
  subject : row.googleSub ≠ some []

def hashOf (t : RefreshToken) : Option Str := some t.tokenHash

structure SameAuth (m : AuthMem) (d : AuthDb) : Prop where
  accounts : ∀ id, Option.Rel SameRow (m.accounts.get id) (d.accounts.get id)
  oauth : m.oauth = d.oauth
  devices : m.devices = d.devices
  tokens : ∀ id, m.tokens.get id = d.tokens.get id
  hashes : Table.IsIndex m.tokens m.tokensByH hashOf
  ids : ∀ id t, m.tokens.get id = some t → t.id = id
  owned : ∀ id t, m.tokens.get id = some t → (m.devices.get t.deviceID).isSome = true
  pairing : m.pairing = d.pairing

/-- What a method of each store gives: answers alike, and stores that still agree. -/
structure Both {X : Type} (related : X → X → Prop) (out : Except AuthError X × AuthMem)
    (out' : Except AuthError X × AuthDb) : Prop where
  answer : Alike related out.1 out'.1
  store : SameAuth out.2 out'.2

theorem Alike.rfl {X : Type} (r : Except AuthError X) : Alike Eq r r := by
  cases r with
  | error err => exact .error err
  | ok x => exact .ok (Eq.refl x)

section
variable {m : AuthMem} {d : AuthDb} (same : SameAuth m d)
include same

theorem SameAuth.missing {id : Str} (absent : m.accounts.get id = none) : d.accounts.get id = none :=
  rel_none (absent ▸ same.accounts id)

theorem SameAuth.present {id : Str} {a : Account} (held : m.accounts.get id = some a) :
    ∃ row, d.accounts.get id = some row ∧ SameRow a row :=
  rel_some (held ▸ same.accounts id)

theorem SameAuth.unheld {id : Str} (absent : d.accounts.get id = none) : m.accounts.get id = none := by
  cases held : m.accounts.get id with
  | none => rfl
  | some a =>
    obtain ⟨row,stored,_⟩ := same.present held
    rw [absent] at stored
    contradiction

/-- An index of the maps and a search through the rows. -/
theorem SameAuth.rowBy {index : Table Str Str} {keyOf : Account → Option Str} {key : Str} {test : AccountRow → Bool}
    (indexed : Table.IsIndex m.accounts index keyOf)
    (tests : ∀ a row, SameRow a row → (test row = true ↔ keyOf a = some key)) :
    Option.Rel SameRow ((index.get key).bind m.accounts.get) (d.accountRowBy test) := by
  cases found : d.accountRowBy test with
  | some row =>
    obtain ⟨id,stored,passes⟩ := Table.find_value_some test found
    obtain ⟨a,held,one⟩ := some_rel (stored ▸ same.accounts id)
    have named : index.get key = some id := by
      rw [indexed key id,held]
      exact (tests a row one).mp passes
    rw [named]
    show Option.Rel SameRow (m.accounts.get id) (some row)
    rw [held]
    exact .some one
  | none =>
    cases named : index.get key with
    | none => exact .none
    | some id =>
      have keyed := (indexed key id).mp named
      cases held : m.accounts.get id with
      | none =>
        rw [held] at keyed
        contradiction
      | some a =>
        rw [held] at keyed
        obtain ⟨row,stored,one⟩ := same.present held
        have passes := (tests a row one).mpr keyed
        rw [Table.find_value_none test found stored] at passes
        contradiction

end

theorem email_tests (email : Str) (a : Account) (row : AccountRow) (one : SameRow a row) :
    decide (row.email = email) = true ↔ emailOf a = some email := by
  have equal : a.email = row.email := one.undated.email
  simp [emailOf,equal]

theorem subject_tests (sub : Str) (a : Account) (row : AccountRow) (one : SameRow a row) :
    decide (row.googleSub = some sub) = true ↔ subjectOf a = some sub := by
  have equal : a.googleSub = row.googleSub.getD [] := one.undated.googleSub
  have nonempty := one.subject
  rw [decide_eq_true_iff,subjectOf,equal]
  cases stored : row.googleSub with
  | none => simp
  | some held =>
    have full : held ≠ [] := fun empty => nonempty (stored.trans (congrArg some empty))
    simp [full]

/-- The index has the account that it names. -/
theorem indexed_some {m : AuthMem} {index : Table Str Str} {keyOf : Account → Option Str} {key id : Str}
    (indexed : Table.IsIndex m.accounts index keyOf) (named : index.get key = some id) : ∃ a, m.accounts.get id = some a := by
  have keyed := (indexed key id).mp named
  cases held : m.accounts.get id with
  | none =>
    rw [held] at keyed
    contradiction
  | some a => exact ⟨a,rfl⟩

theorem indexed_alike {m : AuthMem} {index : Table Str Str} {keyOf : Account → Option Str} {key : Str} {b : Option AccountRow}
    (indexed : Table.IsIndex m.accounts index keyOf) (rel : Option.Rel SameRow ((index.get key).bind m.accounts.get) b) :
    Alike Undated (m.indexed (index.get key)) (AuthDb.selected scanAccount b) := by
  unfold AuthMem.indexed
  cases named : index.get key with
  | none =>
    have absent : b = none := rel_none (by simpa [named] using rel)
    rw [absent]
    exact .error .notFound
  | some id =>
    obtain ⟨a,held⟩ := indexed_some indexed named
    obtain ⟨row,stored,one⟩ : ∃ row, b = some row ∧ SameRow a row := rel_some (by simpa [named,held] using rel)
    simp only [held]
    rw [stored]
    exact .ok one.undated

/-! ### Accounts -/

section
variable {m : AuthMem} {d : AuthDb} (same : SameAuth m d)
include same

theorem SameAuth.upsert (id : Str) {a : Account} {row : AccountRow} (one : SameRow a row) (byEmail byGoogle : Table Str Str) :
    SameAuth {m with accounts := m.accounts.upsert id a,byEmail := byEmail,byGoogle := byGoogle}
      {d with accounts := d.accounts.upsert id row} := by
  refine {same with accounts := ?_}
  intro other
  simp only [Table.get_upsert]
  split
  · exact .some one
  · exact same.accounts other

variable (indexed : Indexed m)
include indexed

theorem SameAuth.byEmail (email : Str) :
    Option.Rel SameRow ((m.byEmail.get email).bind m.accounts.get) (d.accountRowBy (fun row => row.email = email)) :=
  same.rowBy indexed.emails (email_tests email)

theorem SameAuth.bySubject (sub : Str) :
    Option.Rel SameRow ((m.byGoogle.get sub).bind m.accounts.get) (d.accountRowBy (fun row => row.googleSub = some sub)) :=
  same.rowBy indexed.subjects (subject_tests sub)

theorem SameAuth.emailTaken (email : Str) :
    (d.accountRowBy (fun row => row.email = email)).isSome = (m.byEmail.get email).isSome := by
  have rel := same.byEmail indexed email
  cases named : m.byEmail.get email with
  | none =>
    rw [named] at rel
    rw [rel_none rel]
    rfl
  | some id =>
    obtain ⟨a,held⟩ := indexed_some indexed.emails named
    obtain ⟨row,found,_⟩ := rel_some (a := a) (by simpa [named,held] using rel)
    rw [found]
    rfl

theorem SameAuth.subjectTaken (sub : Str) :
    (d.accountRowBy (fun row => row.googleSub = some sub)).isSome = (m.byGoogle.get sub).isSome := by
  have rel := same.bySubject indexed sub
  cases named : m.byGoogle.get sub with
  | none =>
    rw [named] at rel
    rw [rel_none rel]
    rfl
  | some id =>
    obtain ⟨a,held⟩ := indexed_some indexed.subjects named
    obtain ⟨row,found,_⟩ := rel_some (a := a) (by simpa [named,held] using rel)
    rw [found]
    rfl

theorem insertAccount_both (email hash sub id : Str) (fresh : m.accounts.get id = none)
    (free : m.byEmail.get email = none → sub ≠ [] → m.byGoogle.get sub = none) :
    Both Undated (m.insertAccountLocked email hash sub id) (d.insertAccount email hash sub id) := by
  have taken := same.emailTaken indexed email
  have absent := same.missing fresh
  unfold AuthMem.insertAccountLocked AuthDb.insertAccount
  cases named : m.byEmail.get email with
  | some other =>
    rw [named] at taken
    simp only [taken,absent,Option.isSome_none,Option.isSome_some,Bool.false_or,if_true]
    exact ⟨.error _,same⟩
  | none =>
    rw [named] at taken
    have unused : ¬(sub ≠ [] ∧ (d.accountRowBy (fun row => row.googleSub = some sub)).isSome = true) := by
      rintro ⟨nonempty,held⟩
      rw [same.subjectTaken indexed sub,free named nonempty] at held
      contradiction
    simp only [taken,absent,Option.isSome_none,Bool.false_or,Bool.false_eq_true,if_false,if_neg unused]
    have one : SameRow ⟨id,email,hash,sub,0,none⟩ ⟨id,email,AuthDb.nullable hash,AuthDb.nullable sub,0,none⟩ := by
      have back : ∀ text, (AuthDb.nullable text).getD [] = text := by
        intro text
        unfold AuthDb.nullable
        split
        · next empty => exact empty.symm
        · rfl
      refine ⟨⟨rfl,rfl,(back hash).symm,(back sub).symm,rfl,rfl⟩,?_⟩
      show AuthDb.nullable sub ≠ some []
      unfold AuthDb.nullable
      split
      · exact (Option.some_ne_none []).symm
      · next nonempty => exact fun equal => nonempty (Option.some.inj equal)
    exact ⟨.ok one.undated,same.upsert id one _ _⟩

theorem createGoogleAccount_both (email sub id : Str) (fresh : m.accounts.get id = none)
    (apart : ¬((d.accountRowBy (fun row => row.email = email)).isSome = true ∧
      (d.accountRowBy (fun row => row.googleSub = some sub)).isSome = true)) :
    Both Undated (m.createGoogleAccount email sub id) (d.createGoogleAccount email sub id) := by
  unfold AuthMem.createGoogleAccount AuthDb.createGoogleAccount
  by_cases empty : sub = []
  · rw [if_pos empty,if_pos empty]
    exact ⟨.error _,same⟩
  · rw [if_neg empty,if_neg empty]
    have taken := same.subjectTaken indexed sub
    cases named : m.byGoogle.get sub with
    | none => exact insertAccount_both same indexed email [] sub id fresh fun _ _ => named
    | some other =>
      rw [named] at taken
      have free : (d.accountRowBy (fun row => row.email = email)).isSome = false := by
        cases held : (d.accountRowBy (fun row => row.email = email)).isSome with
        | false => rfl
        | true => exact absurd ⟨held,taken⟩ apart
      have absent := same.missing fresh
      unfold AuthDb.insertAccount
      simp only [absent,free,taken,Option.isSome_none,Option.isSome_some,Bool.false_or,Bool.false_eq_true,if_false,ne_eq,
        empty,not_false_eq_true,true_and,if_true]
      exact ⟨.error _,same⟩

omit indexed in
theorem accountByID_both (id : Str) : Both Undated (m.accountByID id,m) (d.accountByID id,d) := by
  refine ⟨?_,same⟩
  unfold AuthMem.accountByID AuthDb.accountByID
  cases held : m.accounts.get id with
  | none =>
    rw [same.missing held]
    exact .error _
  | some a =>
    obtain ⟨row,stored,one⟩ := same.present held
    rw [stored]
    exact .ok one.undated

theorem linkGoogleSubject_both (id sub : Str) (named : sub = [] → ∀ row ∈ d.accounts.get id, row.googleSub ≠ none) :
    Both Eq (m.linkGoogleSubject id sub) (d.linkGoogleSubject id sub) := by
  unfold AuthMem.linkGoogleSubject AuthDb.linkGoogleSubject
  cases held : m.accounts.get id with
  | none =>
    have absent := same.missing held
    simp only [absent,Option.filter_none,AuthDb.explainUnlinked,AuthDb.accountByID,AuthDb.selected]
    exact ⟨.error _,same⟩
  | some a =>
    obtain ⟨row,stored,one⟩ := same.present held
    have equal : a.googleSub = row.googleSub.getD [] := one.undated.googleSub
    cases subject : row.googleSub with
    | none =>
      have unlinked : a.googleSub = [] := by rw [equal,subject]; rfl
      have nonempty : sub ≠ [] := fun empty => named empty row stored subject
      have taken := same.subjectTaken indexed sub
      simp only [unlinked,Ne.symm nonempty,if_false,ne_eq,not_true_eq_false,stored,Option.filter_some,subject,decide_true,if_true]
      cases owner : m.byGoogle.get sub with
      | none =>
        rw [owner] at taken
        simp only [taken,Option.isSome_none,Bool.false_eq_true,if_false]
        have linked : SameRow {a with googleSub := sub} {row with googleSub := some sub} :=
          ⟨⟨one.undated.id,one.undated.email,one.undated.passwordHash,rfl,one.undated.failedLoginAttempts,one.undated.locked⟩,
            fun equal => nonempty (Option.some.inj equal)⟩
        exact ⟨Alike.rfl _,same.upsert id linked m.byEmail _⟩
      | some other =>
        have apart : other ≠ id := by
          rintro rfl
          have keyed := (indexed.subjects sub other).mp owner
          simp [held,subjectOf,unlinked] at keyed
        rw [owner] at taken
        simp only [taken,Option.isSome_some,if_true,apart,not_false_eq_true,decide_true]
        exact ⟨.error _,same⟩
    | some linked =>
      have full : linked ≠ [] := fun empty => one.subject (subject.trans (congrArg some empty))
      have linkedTo : a.googleSub = linked := by rw [equal,subject]; rfl
      have scanned : (scanAccount row).googleSub = linked := by rw [← one.undated.googleSub,linkedTo]
      simp only [stored,Option.filter_some,subject,reduceCtorEq,decide_false,Bool.false_eq_true,if_false,
        AuthDb.explainUnlinked,AuthDb.accountByID,AuthDb.selected,scanned,linkedTo,ne_eq,full,not_false_eq_true,if_true]
      by_cases own : linked = sub
      · simp only [own,if_true]
        exact ⟨Alike.rfl _,same⟩
      · simp only [own,if_false]
        exact ⟨.error _,same⟩

omit indexed in
theorem recordFailedLogin_both (id : Str) (lockAfter lockFor now : Nat) :
    Both Undated (m.recordFailedLogin id lockAfter lockFor now) (d.recordFailedLogin id lockAfter lockFor now) := by
  unfold AuthMem.recordFailedLogin AuthDb.recordFailedLogin
  cases held : m.accounts.get id with
  | none =>
    rw [same.missing held]
    exact ⟨.error _,same⟩
  | some a =>
    obtain ⟨row,stored,one⟩ := same.present held
    have attempts : a.failedLoginAttempts = row.failedLoginAttempts := one.undated.failedLoginAttempts
    rw [stored]
    dsimp only
    rw [attempts]
    by_cases reached : lockAfter ≤ row.failedLoginAttempts + 1
    · rw [if_pos reached,if_pos reached]
      have locked : SameRow {a with failedLoginAttempts := 0,lockedUntil := some (now + lockFor)}
          {row with failedLoginAttempts := 0,lockedUntil := some (now + lockFor / AuthDb.second * AuthDb.second)} :=
        ⟨⟨one.undated.id,one.undated.email,one.undated.passwordHash,one.undated.googleSub,rfl,by simp [scanAccount]⟩,one.subject⟩
      exact ⟨.ok locked.undated,same.upsert id locked _ _⟩
    · rw [if_neg reached,if_neg reached]
      have counted : SameRow {a with failedLoginAttempts := row.failedLoginAttempts + 1}
          {row with failedLoginAttempts := row.failedLoginAttempts + 1} :=
        ⟨⟨one.undated.id,one.undated.email,one.undated.passwordHash,one.undated.googleSub,rfl,one.undated.locked⟩,one.subject⟩
      exact ⟨.ok counted.undated,same.upsert id counted _ _⟩

omit indexed in
theorem resetFailedLogins_both (id : Str) :
    Both Eq (.ok (),m.resetFailedLogins id) (.ok (),d.resetFailedLogins id) := by
  refine ⟨Alike.rfl _,?_⟩
  show SameAuth (m.resetFailedLogins id) (d.resetFailedLogins id)
  unfold AuthMem.resetFailedLogins AuthDb.resetFailedLogins
  cases held : m.accounts.get id with
  | none =>
    rw [same.missing held]
    exact same
  | some a =>
    obtain ⟨row,stored,one⟩ := same.present held
    rw [stored]
    have cleared : SameRow {a with failedLoginAttempts := 0,lockedUntil := none} {row with failedLoginAttempts := 0,lockedUntil := none} :=
      ⟨⟨one.undated.id,one.undated.email,one.undated.passwordHash,one.undated.googleSub,rfl,rfl⟩,one.subject⟩
    exact same.upsert id cleared _ _

end

/-! ### Google logins -/

section
variable {m : AuthMem} {d : AuthDb} (same : SameAuth m d)
include same

theorem createOAuthLogin_both (login : OAuthLogin) (now : Nat)
    (pending : login.accountID = [] ∧ login.errorCode = [] ∧ login.errorMessage = []) :
    Both Eq (m.createOAuthLogin login now) (d.createOAuthLogin login now) := by
  have row : {login with accountID := [],errorCode := [],errorMessage := []} = login := by
    obtain ⟨state,verifier,nonce,name,secret,expires,status,account,code,message⟩ := login
    obtain ⟨rfl,rfl,rfl⟩ := pending
    rfl
  unfold AuthMem.createOAuthLogin AuthDb.createOAuthLogin AuthMem.purgeExpiredOAuthLocked
  simp only [same.oauth,row]
  cases (d.oauth.filterValues fun old => !decide (old.expiresAt + AuthMem.day < now)).get login.state with
  | some old => exact ⟨.error _,{same with oauth := rfl}⟩
  | none => exact ⟨Alike.rfl _,{same with oauth := rfl}⟩

theorem oauthLoginByState_both (state : Str) : Both Eq (m.oauthLoginByState state,m) (d.oauthLoginByState state,d) := by
  refine ⟨?_,same⟩
  unfold AuthMem.oauthLoginByState AuthDb.oauthLoginByState
  rw [same.oauth]
  cases d.oauth.get state with
  | none => exact .error _
  | some login => exact Alike.rfl _

theorem changeLogin_both (state : Str) (allowed : OAuthLogin → Bool) (change : OAuthLogin → OAuthLogin) :
    Both Eq (m.changeLogin state allowed change) (d.changeLogin state allowed change) := by
  unfold AuthMem.changeLogin AuthDb.changeLogin
  rw [same.oauth]
  cases d.oauth.get state with
  | none => exact ⟨.error _,same⟩
  | some login =>
    rw [Option.filter_some]
    dsimp only
    split
    · exact ⟨Alike.rfl _,{same with oauth := rfl}⟩
    · exact ⟨.error _,same⟩

theorem markOAuthReady_both (state accountID : Str)
    (known : ∀ login ∈ d.oauth.get state, login.status = .exchanging → (d.accounts.get accountID).isSome = true) :
    Both Eq (m.markOAuthReady state accountID) (d.markOAuthReady state accountID) := by
  unfold AuthMem.markOAuthReady AuthDb.markOAuthReady AuthMem.changeLogin AuthDb.changeLogin
  rw [same.oauth]
  cases stored : d.oauth.get state with
  | none => exact ⟨.error _,same⟩
  | some login =>
    rw [Option.filter_some]
    by_cases exchanging : login.status = .exchanging
    · simp only [exchanging,decide_true,if_true,known login stored exchanging]
      exact ⟨Alike.rfl _,{same with oauth := rfl}⟩
    · simp only [exchanging,decide_false,Bool.false_eq_true,if_false]
      exact ⟨.error _,same⟩

end

/-! ### Devices and refresh tokens -/

section
variable {m : AuthMem} {d : AuthDb} (same : SameAuth m d)
include same

theorem SameAuth.device (deviceID : Str) (row : DeviceRecord) :
    SameAuth {m with devices := d.devices.upsert deviceID row} {d with devices := d.devices.upsert deviceID row} := by
  refine {same with devices := rfl,owned := ?_}
  intro id t held
  have old := same.owned id t held
  rw [same.devices] at old
  simp only [Table.get_upsert]
  split
  · rfl
  · exact old

theorem deviceByID_alike (accountID deviceID : Str) : m.deviceByID accountID deviceID = d.deviceByID accountID deviceID := by
  unfold AuthMem.deviceByID AuthDb.deviceByID
  rw [same.devices]
  cases d.devices.get deviceID with
  | none => rfl
  | some row =>
    rw [Option.filter_some]
    by_cases own : row.accountID = accountID
    · simp [own,AuthDb.selected]
    · simp [own,AuthDb.selected]

theorem deviceByIDGlobal_alike (deviceID : Str) : m.deviceByIDGlobal deviceID = d.deviceByIDGlobal deviceID := by
  unfold AuthMem.deviceByIDGlobal AuthDb.deviceByIDGlobal
  rw [same.devices]
  cases d.devices.get deviceID <;> rfl

theorem listDevices_same {scanned : List DeviceRecord → List DeviceRecord}
    (rows : ∀ devices, (scanned devices).Perm devices) (accountID : Str)
    (apart : ((d.devicesOf accountID).map DeviceRecord.createdAt).Nodup) :
    m.listDevices accountID = d.listDevices scanned accountID := by
  have devices : m.devicesOf accountID = d.devicesOf accountID := by
    unfold AuthMem.devicesOf AuthDb.devicesOf
    rw [same.devices]
  unfold AuthMem.listDevices AuthDb.listDevices
  rw [devices]
  exact (sorted_devices (rows _) apart).symm

theorem createDevice_both (accountID name id : Str) (now : Nat) (fresh : d.devices.get id = none)
    (known : (d.accounts.get accountID).isSome = true) :
    Both Eq (.ok (m.createDevice accountID name id now).1,(m.createDevice accountID name id now).2)
      (d.createDevice accountID name id now) := by
  obtain ⟨row,held⟩ := Option.isSome_iff_exists.mp known
  unfold AuthDb.createDevice
  simp only [fresh,held,Option.isSome_none,Option.isNone_some,Bool.or_self,Bool.false_eq_true,if_false]
  unfold AuthMem.createDevice
  rw [same.devices]
  exact ⟨Alike.rfl _,same.device id _⟩

theorem renameDevice_both (accountID deviceID name : Str) :
    Both Eq (m.renameDevice accountID deviceID name) (d.renameDevice accountID deviceID name) := by
  unfold AuthMem.renameDevice AuthDb.renameDevice AuthDb.changeDevice AuthMem.deviceByID
  rw [same.devices]
  cases d.devices.get deviceID with
  | none => exact ⟨.error _,same⟩
  | some row =>
    rw [Option.filter_some]
    by_cases own : row.accountID = accountID
    · subst own
      simp only [if_true,decide_true]
      exact ⟨Alike.rfl _,same.device deviceID _⟩
    · simp only [own,if_false,decide_false,Bool.false_eq_true]
      exact ⟨.error _,same⟩

theorem touchDevice_both (deviceID : Str) (now : Nat) :
    Both Eq (.ok (),m.touchDevice deviceID now) (.ok (),d.touchDevice deviceID now) := by
  refine ⟨Alike.rfl _,?_⟩
  show SameAuth (m.touchDevice deviceID now) (d.touchDevice deviceID now)
  unfold AuthMem.touchDevice AuthDb.touchDevice AuthDb.changeDevice
  rw [same.devices]
  cases d.devices.get deviceID with
  | none => exact same
  | some row =>
    rw [Option.filter_some,if_pos rfl]
    exact same.device deviceID {row with lastSeenAt := now}

/-- The same change of every token that leaves its hash, its device and its id. -/
theorem SameAuth.mapTokens (f g : RefreshToken → RefreshToken) (equal : ∀ id t, m.tokens.get id = some t → f t = g t)
    (kept : ∀ t, (f t).tokenHash = t.tokenHash ∧ (f t).deviceID = t.deviceID ∧ (f t).id = t.id) :
    SameAuth {m with tokens := m.tokens.mapValues f} {d with tokens := d.tokens.mapValues g} := by
  have found : ∀ id t, (m.tokens.mapValues f).get id = some t → ∃ old, m.tokens.get id = some old ∧ t = f old := by
    intro id t held
    rw [Table.get_mapValues] at held
    obtain ⟨old,stored,rfl⟩ := Option.map_eq_some_iff.mp held
    exact ⟨old,stored,rfl⟩
  refine {same with tokens := ?_,hashes := ?_,ids := ?_,owned := ?_}
  · intro id
    simp only [Table.get_mapValues,← same.tokens id]
    cases held : m.tokens.get id with
    | none => rfl
    | some t => exact congrArg some (equal id t held)
  · intro key id
    rw [same.hashes key id]
    simp only [Table.get_mapValues]
    cases m.tokens.get id with
    | none => rfl
    | some t =>
      show some t.tokenHash = some key ↔ some (f t).tokenHash = some key
      rw [(kept t).1]
  · intro id t held
    obtain ⟨old,stored,rfl⟩ := found id t held
    exact (kept old).2.2.trans (same.ids id old stored)
  · intro id t held
    obtain ⟨old,stored,rfl⟩ := found id t held
    rw [(kept old).2.1]
    exact same.owned id old stored

theorem revokeDevice_both (accountID deviceID : Str) (now : Nat)
    (active : ∀ row ∈ d.devices.get deviceID, row.accountID = accountID → row.revokedAt = none) :
    Both Eq (m.revokeDevice accountID deviceID now) (d.revokeDevice accountID deviceID now) := by
  unfold AuthMem.revokeDevice AuthDb.revokeDevice AuthDb.changeDevice AuthMem.deviceByID AuthDb.revokeTokens
  rw [same.devices]
  cases stored : d.devices.get deviceID with
  | none => exact ⟨.error _,same⟩
  | some row =>
    rw [Option.filter_some]
    by_cases own : row.accountID = accountID
    · have unrevoked := active row stored own
      subst own
      simp only [if_true,unrevoked,and_self,decide_true]
      have marked := (same.device deviceID {row with revokedAt := some now}).mapTokens
        (fun t => if t.deviceID = deviceID ∧ t.revokedAt = none then {t with revokedAt := some now} else t)
        (fun t => if decide (t.deviceID = deviceID ∧ t.revokedAt = none) then {t with revokedAt := some now} else t)
        (fun id t _ => by simp only [decide_eq_true_eq]) (fun t => by split <;> exact ⟨rfl,rfl,rfl⟩)
      exact ⟨Alike.rfl _,marked⟩
    · simp only [own,if_false,false_and,decide_false,Bool.false_eq_true]
      exact ⟨.error _,same⟩

theorem SameAuth.tokenByHash (hash : Str) : d.tokenByHash hash = (m.tokensByH.get hash).bind m.tokens.get := by
  cases found : d.tokenByHash hash with
  | some t =>
    obtain ⟨id,stored,passes⟩ := Table.find_value_some (fun t : RefreshToken => decide (t.tokenHash = hash)) found
    rw [← same.tokens id] at stored
    have named : m.tokensByH.get hash = some id := by
      rw [same.hashes hash id,stored]
      exact congrArg some (of_decide_eq_true passes)
    simp [named,stored]
  | none =>
    cases named : m.tokensByH.get hash with
    | none => rfl
    | some id =>
      have keyed := (same.hashes hash id).mp named
      cases held : m.tokens.get id with
      | none =>
        rw [held] at keyed
        contradiction
      | some t =>
        rw [held] at keyed
        have fails := Table.find_value_none (fun t : RefreshToken => decide (t.tokenHash = hash)) found ((same.tokens id).symm.trans held)
        exact absurd (Option.some.inj keyed) (of_decide_eq_false fails)

theorem SameAuth.unused {hash : Str} (free : d.tokenByHash hash = none) : m.tokensByH.get hash = none := by
  rw [same.tokenByHash hash] at free
  cases named : m.tokensByH.get hash with
  | none => rfl
  | some id =>
    have keyed := (same.hashes hash id).mp named
    rw [named,Option.bind_some] at free
    rw [free] at keyed
    contradiction

theorem refreshTokenByHash_alike (hash : Str) : m.refreshTokenByHash hash = d.refreshTokenByHash hash := by
  unfold AuthMem.refreshTokenByHash AuthDb.refreshTokenByHash
  rw [same.tokenByHash hash]
  cases named : m.tokensByH.get hash with
  | none => rfl
  | some id =>
    have keyed := (same.hashes hash id).mp named
    cases held : m.tokens.get id with
    | none =>
      rw [held] at keyed
      contradiction
    | some t => simp [held,AuthDb.selected]

/-- A new token under a new hash, for a device that exists. -/
theorem createRefreshToken_both (deviceID hash : Str) (expiresAt : Nat) (id : Str) (fresh : d.tokens.get id = none)
    (owner : (d.devices.get deviceID).isSome = true) (free : d.tokenByHash hash = none) :
    Both Eq (.ok (m.createRefreshToken deviceID hash expiresAt id).1,(m.createRefreshToken deviceID hash expiresAt id).2)
      (d.createRefreshToken deviceID hash expiresAt id) := by
  have unheld : m.tokens.get id = none := (same.tokens id).trans fresh
  have unused := same.unused free
  unfold AuthMem.createRefreshToken AuthDb.createRefreshToken
  obtain ⟨device,held⟩ := Option.isSome_iff_exists.mp owner
  simp only [fresh,free,held,Option.isSome_none,Option.isNone_some,Bool.or_self,Bool.false_eq_true,if_false]
  refine ⟨Alike.rfl _,{same with tokens := ?_,hashes := ?_,ids := ?_,owned := ?_}⟩
  · intro other
    simp only [Table.get_upsert,same.tokens other]
  · exact same.hashes.add id _ hash (by rw [unheld]; rfl) rfl unused
  · intro other t found
    simp only [Table.get_upsert] at found
    split at found
    · next here =>
      cases found
      exact here.symm
    · exact same.ids other t found
  · intro other t found
    simp only [Table.get_upsert] at found
    split at found
    · cases found
      rw [same.devices]
      exact owner
    · exact same.owned other t found

/-- A token that is marked keeps its hash, its device and its id. -/
theorem SameAuth.mark {id : Str} {t : RefreshToken} (held : m.tokens.get id = some t) (now : Nat) :
    SameAuth {m with tokens := m.tokens.upsert id {t with revokedAt := some now}}
      {d with tokens := d.tokens.upsert id {t with revokedAt := some now}} := by
  refine {same with tokens := ?_,hashes := ?_,ids := ?_,owned := ?_}
  · intro other
    simp only [Table.get_upsert,same.tokens other]
  · exact same.hashes.keep id _ (by rw [held]; rfl)
  · intro other row found
    simp only [Table.get_upsert] at found
    split at found
    · next here =>
      cases found
      exact (same.ids id t held).trans here.symm
    · exact same.ids other row found
  · intro other row found
    simp only [Table.get_upsert] at found
    split at found
    · cases found
      exact same.owned id t held
    · exact same.owned other row found

theorem rotateRefreshToken_both (oldID hash : Str) (expiresAt : Nat) (id : Str) (now : Nat) (fresh : d.tokens.get id = none)
    (within : ∀ t ∈ d.tokens.get oldID, (t.revokedAt = none ∧ now < t.expiresAt) ∧ d.tokenByHash hash = none) :
    Both Eq (m.rotateRefreshToken oldID hash expiresAt id now) (d.rotateRefreshToken oldID hash expiresAt id now) := by
  unfold AuthMem.rotateRefreshToken AuthDb.rotateRefreshToken
  cases held : m.tokens.get oldID with
  | none =>
    rw [(same.tokens oldID).symm.trans held]
    exact ⟨.error _,same⟩
  | some old =>
    have stored : d.tokens.get oldID = some old := (same.tokens oldID).symm.trans held
    obtain ⟨active,free⟩ := within old stored
    have marked := same.mark held now
    have other : id ≠ oldID := by
      rintro rfl
      rw [fresh] at stored
      contradiction
    have issued := createRefreshToken_both marked old.deviceID hash expiresAt id
      (by rw [Table.get_upsert_other _ _ _ _ other]; exact fresh)
      (by
        show (d.devices.get old.deviceID).isSome = true
        rw [← same.devices]
        exact same.owned oldID old held)
      (by
        rw [marked.tokenByHash hash]
        show (m.tokensByH.get hash).bind _ = none
        rw [same.unused free]
        rfl)
    simp only [stored,Option.filter_some,active,and_self,decide_true,if_true]
    cases given : (AuthDb.createRefreshToken {d with tokens := d.tokens.upsert oldID {old with revokedAt := some now}}
        old.deviceID hash expiresAt id).1 with
    | ok row =>
      have answer := issued.answer
      rw [given] at answer
      exact ⟨answer,issued.store⟩
    | error err =>
      have answer := issued.answer
      rw [given] at answer
      cases answer

theorem revokeRefreshToken_same (id : Str) (now : Nat) : SameAuth (m.revokeRefreshToken id now) (d.revokeRefreshToken id now) := by
  have others : ∀ other t, d.tokens.get other = some t → t.id = other :=
    fun other t stored => same.ids other t ((same.tokens other).trans stored)
  unfold AuthMem.revokeRefreshToken AuthDb.revokeRefreshToken AuthDb.revokeTokens
  cases held : m.tokens.get id with
  | none =>
    refine {same with tokens := ?_}
    intro other
    simp only [Table.get_mapValues]
    rw [same.tokens other]
    cases stored : d.tokens.get other with
    | none => rfl
    | some t =>
      have apart : t.id ≠ id := by
        rintro rfl
        rw [others other t stored,same.tokens other,stored] at held
        contradiction
      simp [apart]
  | some t =>
    refine {same.mark held now with tokens := ?_}
    intro other
    simp only [Table.get_upsert,Table.get_mapValues]
    rw [same.tokens other]
    split
    · next here =>
      subst here
      have stored : d.tokens.get other = some t := (same.tokens other).symm.trans held
      simp [stored,others other t stored]
    · next apart =>
      cases stored : d.tokens.get other with
      | none => rfl
      | some row => simp [others other row stored,apart]

end

/-! ### Pairing codes -/

section
variable {m : AuthMem} {d : AuthDb} (same : SameAuth m d)
include same

theorem createPairingCode_both (pc : PairingCode) (unused : d.pairing.get pc.code = none)
    (known : (d.accounts.get pc.accountID).isSome = true)
    (unapproved : pc.wrappedMasterKey = [] ∧ pc.approvingDevice = none ∧ pc.consumedAt = none) :
    Both Eq (.ok (),m.createPairingCode pc) (d.createPairingCode pc) := by
  have row : {pc with wrappedMasterKey := [],approvingDevice := none,consumedAt := none} = pc := by
    obtain ⟨code,account,device,wrapped,approving,expires,consumed⟩ := pc
    obtain ⟨rfl,rfl,rfl⟩ := unapproved
    rfl
  obtain ⟨account,held⟩ := Option.isSome_iff_exists.mp known
  unfold AuthMem.createPairingCode AuthDb.createPairingCode
  simp only [unused,held,Option.isSome_none,Option.isNone_some,Bool.or_self,Bool.false_eq_true,if_false,row,same.pairing]
  exact ⟨Alike.rfl _,{same with pairing := rfl}⟩

theorem pairingCodeByCode_alike (code : Str) : m.pairingCodeByCode code = d.pairingCodeByCode code := by
  unfold AuthMem.pairingCodeByCode AuthDb.pairingCodeByCode
  rw [same.pairing]
  cases d.pairing.get code <;> rfl

theorem approvePairingCode_both (code approvingDevice : Str) (wrappedKey : Bytes) (now : Nat)
    (apart : ∀ pc ∈ d.pairing.get code, pc.consumedAt = none → pc.expiresAt ≠ now) :
    Both Eq (m.approvePairingCode code approvingDevice wrappedKey now) (d.approvePairingCode code approvingDevice wrappedKey now) := by
  unfold AuthMem.approvePairingCode AuthDb.approvePairingCode
  rw [same.pairing]
  cases stored : d.pairing.get code with
  | none => exact ⟨.error _,same⟩
  | some pc =>
    rw [Option.filter_some]
    by_cases unused : pc.consumedAt = none
    · have other := apart pc stored unused
      by_cases late : pc.expiresAt < now
      · have passed : ¬now < pc.expiresAt := by omega
        simp only [unused,ne_eq,not_true_eq_false,late,or_true,if_true,true_and,passed,decide_false,Bool.false_eq_true,if_false]
        exact ⟨.error _,same⟩
      · have early : now < pc.expiresAt := by omega
        simp only [unused,ne_eq,not_true_eq_false,late,or_self,if_false,true_and,early,decide_true,if_true]
        exact ⟨Alike.rfl _,{same with pairing := rfl}⟩
    · simp only [unused,ne_eq,not_false_eq_true,true_or,if_true,false_and,decide_false,Bool.false_eq_true,if_false]
      exact ⟨.error _,same⟩

theorem consumePairingCode_both (code : Str) (now : Nat) (present : (d.pairing.get code).isSome = true) :
    Both Eq (m.consumePairingCode code now) (.ok (),d.consumePairingCode code now) := by
  obtain ⟨pc,stored⟩ := Option.isSome_iff_exists.mp present
  unfold AuthMem.consumePairingCode AuthDb.consumePairingCode
  rw [same.pairing,stored]
  exact ⟨Alike.rfl _,{same with pairing := rfl}⟩

end

/-! ### Every call -/

/-- `uuidFn` returns a value that it has not returned before. -/
structure Unissued (uuid : Str) (d : AuthDb) : Prop where
  account : d.accounts.get uuid = none
  device : d.devices.get uuid = none
  token : d.tokens.get uuid = none

instance (uuid : Str) (d : AuthDb) : Decidable (Unissued uuid d) :=
  decidable_of_iff (d.accounts.get uuid = none ∧ d.devices.get uuid = none ∧ d.tokens.get uuid = none)
    ⟨fun ⟨account,device,token⟩ => ⟨account,device,token⟩,fun fresh => ⟨fresh.account,fresh.device,fresh.token⟩⟩

/-- Where both stores do the same, read off the tables before the call. -/
def AuthCall.Within (env : StoreEnv) (d : AuthDb) : AuthCall → Prop
  | .createGoogleAccount email sub => ¬((d.accountRowBy (fun row => row.email = email)).isSome = true ∧
      (d.accountRowBy (fun row => row.googleSub = some sub)).isSome = true)
  | .linkGoogleSubject accountID sub => sub = [] → ∀ row ∈ d.accounts.get accountID, row.googleSub ≠ none
  | .createOAuthLogin login => login.accountID = [] ∧ login.errorCode = [] ∧ login.errorMessage = []
  | .markOAuthReady state accountID =>
    ∀ login ∈ d.oauth.get state, login.status = .exchanging → (d.accounts.get accountID).isSome = true
  | .createDevice accountID _ => (d.accounts.get accountID).isSome = true
  | .revokeDevice accountID deviceID => ∀ row ∈ d.devices.get deviceID, row.accountID = accountID → row.revokedAt = none
  | .createRefreshToken deviceID tokenHash _ => (d.devices.get deviceID).isSome = true ∧ d.tokenByHash tokenHash = none
  | .rotateRefreshToken oldID newTokenHash _ =>
    ∀ t ∈ d.tokens.get oldID, (t.revokedAt = none ∧ env.now < t.expiresAt) ∧ d.tokenByHash newTokenHash = none
  | .createPairingCode pc => d.pairing.get pc.code = none ∧ (d.accounts.get pc.accountID).isSome = true ∧
      pc.wrappedMasterKey = [] ∧ pc.approvingDevice = none ∧ pc.consumedAt = none
  | .approvePairingCode code _ _ => ∀ pc ∈ d.pairing.get code, pc.consumedAt = none → pc.expiresAt ≠ env.now
  | .consumePairingCode code => (d.pairing.get code).isSome = true
  | _ => True

instance (env : StoreEnv) (d : AuthDb) : (call : AuthCall) → Decidable (call.Within env d)
  | .createGoogleAccount .. => inferInstanceAs (Decidable (¬_))
  | .linkGoogleSubject .. => inferInstanceAs (Decidable (_ → _))
  | .createOAuthLogin _ => inferInstanceAs (Decidable (_ ∧ _))
  | .markOAuthReady state _ => inferInstanceAs (Decidable (∀ login ∈ d.oauth.get state,_))
  | .createDevice .. => inferInstanceAs (Decidable (_ = _))
  | .revokeDevice _ deviceID => inferInstanceAs (Decidable (∀ row ∈ d.devices.get deviceID,_))
  | .createRefreshToken .. => inferInstanceAs (Decidable (_ ∧ _))
  | .rotateRefreshToken oldID _ _ => inferInstanceAs (Decidable (∀ t ∈ d.tokens.get oldID,_))
  | .createPairingCode _ => inferInstanceAs (Decidable (_ ∧ _))
  | .approvePairingCode code _ _ => inferInstanceAs (Decidable (∀ pc ∈ d.pairing.get code,_))
  | .consumePairingCode _ => inferInstanceAs (Decidable (_ = _))
  | .createAccount .. | .accountByEmail _ | .accountByGoogleSub _ | .accountByID _ | .recordFailedLogin ..
  | .resetFailedLogins _ | .oauthLoginByState _ | .claimOAuthLogin .. | .markOAuthError .. | .consumeOAuthLogin _
  | .reopenOAuthLogin _ | .countActiveDevices _ | .deviceByID .. | .deviceByIDGlobal _ | .renameDevice ..
  | .touchDevice _ | .refreshTokenByHash _ | .pairingCodeByCode _ | .now | .exchangeGoogleCode ..
  | .verifyRS256IDToken .. => .isTrue trivial

theorem execAuth_both {env : StoreEnv} {m : AuthMem} {d : AuthDb} (same : SameAuth m d) (indexed : Indexed m)
    (fresh : Unissued env.uuid d) (call : AuthCall) (within : call.Within env d) :
    call.Agrees (execAuth env.auth ⟨m,env.now⟩ call).1 (Postgres.execAuth env.auth ⟨d,env.now⟩ call).1 ∧
      SameAuth (execAuth env.auth ⟨m,env.now⟩ call).2.mem (Postgres.execAuth env.auth ⟨d,env.now⟩ call).2.db := by
  have unheld := same.unheld fresh.account
  have both : ∀ {X : Type} {related : X → X → Prop} {out : Except AuthError X × AuthMem} {out' : Except AuthError X × AuthDb},
      Both related out out' → Alike related out.1 out'.1 ∧ SameAuth out.2 out'.2 := fun pair => ⟨pair.answer,pair.store⟩
  cases call with
  | now => exact ⟨rfl,same⟩
  | createAccount email hash => exact both (insertAccount_both same indexed email hash [] env.uuid unheld (fun _ full => absurd rfl full))
  | createGoogleAccount email sub => exact both (createGoogleAccount_both same indexed email sub env.uuid unheld within)
  | accountByEmail email => exact ⟨indexed_alike indexed.emails (same.byEmail indexed email),same⟩
  | accountByGoogleSub sub => exact ⟨indexed_alike indexed.subjects (same.bySubject indexed sub),same⟩
  | accountByID id => exact both (accountByID_both same id)
  | linkGoogleSubject id sub => exact both (linkGoogleSubject_both same indexed id sub within)
  | recordFailedLogin id lockAfter lockFor => exact both (recordFailedLogin_both same id lockAfter lockFor _)
  | resetFailedLogins id => exact both (resetFailedLogins_both same id)
  | createOAuthLogin login => exact both (createOAuthLogin_both same login _ within)
  | oauthLoginByState state => exact both (oauthLoginByState_both same state)
  | claimOAuthLogin state now => exact both (changeLogin_both same state _ _)
  | markOAuthReady state accountID => exact both (markOAuthReady_both same state accountID within)
  | markOAuthError state code message => exact both (changeLogin_both same state _ _)
  | consumeOAuthLogin state => exact both (changeLogin_both same state _ _)
  | reopenOAuthLogin state => exact both (changeLogin_both same state _ _)
  | createDevice accountID name => exact both (createDevice_both same accountID name env.uuid _ fresh.device within)
  | countActiveDevices accountID =>
    refine ⟨?_,same⟩
    show Alike Eq (.ok (m.countActiveDevices accountID)) (.ok (d.countActiveDevices accountID))
    unfold AuthMem.countActiveDevices AuthDb.countActiveDevices
    rw [same.devices]
    exact Alike.rfl _
  | deviceByID accountID deviceID =>
    refine ⟨?_,same⟩
    show Alike Eq (m.deviceByID accountID deviceID) (d.deviceByID accountID deviceID)
    rw [deviceByID_alike same]
    exact Alike.rfl _
  | deviceByIDGlobal deviceID =>
    refine ⟨?_,same⟩
    show Alike Eq (m.deviceByIDGlobal deviceID) (d.deviceByIDGlobal deviceID)
    rw [deviceByIDGlobal_alike same]
    exact Alike.rfl _
  | renameDevice accountID deviceID name => exact both (renameDevice_both same accountID deviceID name)
  | revokeDevice accountID deviceID => exact both (revokeDevice_both same accountID deviceID _ within)
  | touchDevice deviceID => exact both (touchDevice_both same deviceID _)
  | createRefreshToken deviceID hash expiresAt =>
    exact both (createRefreshToken_both same deviceID hash expiresAt env.uuid fresh.token within.1 within.2)
  | refreshTokenByHash hash =>
    refine ⟨?_,same⟩
    show Alike Eq (m.refreshTokenByHash hash) (d.refreshTokenByHash hash)
    rw [refreshTokenByHash_alike same]
    exact Alike.rfl _
  | rotateRefreshToken oldID hash expiresAt =>
    exact both (rotateRefreshToken_both same oldID hash expiresAt env.uuid _ fresh.token within)
  | createPairingCode pc => exact both (createPairingCode_both same pc within.1 within.2.1 within.2.2)
  | pairingCodeByCode code =>
    refine ⟨?_,same⟩
    show Alike Eq (m.pairingCodeByCode code) (d.pairingCodeByCode code)
    rw [pairingCodeByCode_alike same]
    exact Alike.rfl _
  | approvePairingCode code device wrapped => exact both (approvePairingCode_both same code device wrapped _ within)
  | consumePairingCode code => exact both (consumePairingCode_both same code _ within)
  | exchangeGoogleCode code verifier => exact ⟨rfl,same⟩
  | verifyRS256IDToken idToken nonce => exact ⟨rfl,same⟩

theorem execAuth_indexed {env : StoreEnv} {m : AuthMem} {d : AuthDb} (same : SameAuth m d) (indexed : Indexed m)
    (fresh : Unissued env.uuid d) (call : AuthCall) : Indexed (execAuth env.auth ⟨m,env.now⟩ call).2.mem :=
  (execAuth_accounts env.auth ⟨m,env.now⟩ call).indexed (same.unheld fresh.account) indexed

theorem sameAuth_empty : SameAuth .newMem .empty := by
  refine ⟨fun _ => .none,rfl,rfl,fun _ => rfl,Table.empty_isIndex _,?_,?_,rfl⟩
  · intro id t held
    contradiction
  · intro id t held
    contradiction

end NPSync.Server
