import NPSync.Server.FileAgreement

/-! `Mem` and Postgres under one sequence of calls: where both define the same, they
answer alike, up to one renaming of the feed numbers. -/
namespace NPSync.Server
open Library
open Postgres (Store PgLibrary)

/-! ### What a column takes -/

/-- The text form of a `UUID` column. -/
def IsUuid (id : Str) : Bool :=
  id.length = 36 && id.zipIdx.all fun c =>
    if c.2 ∈ [8,13,18,23] then c.1 = 45 else (48 ≤ c.1 && c.1 ≤ 57) || (97 ≤ c.1 && c.1 ≤ 102)

/-- What a `TEXT` column takes. -/
def IsText (text : Str) : Bool := !text.contains 0 && Json.validUtf8 text

def AuthCall.uuids : AuthCall → List Str
  | .accountByID id | .resetFailedLogins id | .countActiveDevices id | .deviceByIDGlobal id | .touchDevice id
  | .linkGoogleSubject id _ | .recordFailedLogin id _ _ | .markOAuthReady _ id | .createDevice id _
  | .createRefreshToken id _ _ | .rotateRefreshToken id _ _ | .approvePairingCode _ id _ => [id]
  | .deviceByID accountID deviceID | .renameDevice accountID deviceID _ | .revokeDevice accountID deviceID => [accountID,deviceID]
  | .createPairingCode pc => [pc.accountID,pc.requestingDevice]
  | _ => []

def AuthCall.texts : AuthCall → List Str
  | .createAccount email passwordHash => [email,passwordHash]
  | .createGoogleAccount email googleSub => [email,googleSub]
  | .accountByEmail text | .accountByGoogleSub text | .linkGoogleSubject _ text | .oauthLoginByState text
  | .claimOAuthLogin text _ | .markOAuthReady text _ | .consumeOAuthLogin text | .reopenOAuthLogin text
  | .createDevice _ text | .renameDevice _ _ text | .createRefreshToken _ text _ | .refreshTokenByHash text
  | .rotateRefreshToken _ text _ | .pairingCodeByCode text | .approvePairingCode text _ _ | .consumePairingCode text => [text]
  | .createOAuthLogin login => [login.state,login.codeVerifier,login.nonce,login.deviceName,login.pollSecretHash]
  | .markOAuthError state code message => [state,code,message]
  | .createPairingCode pc => [pc.code]
  | _ => []

def FileRecord.uuids (rec : FileRecord) : List Str := [rec.accountID,rec.fileID,rec.originDeviceID]

def FileRecord.texts (rec : FileRecord) : List Str := rec.contentHash::rec.blobKey::rec.versionVector.keys

def StoreCall.uuids : StoreCall → List Str
  | .auth call => call.uuids
  | .listDevices id | .revokeRefreshToken id | .listFiles id | .listChangesSince id _ _ | .getIdempotentResponse id _
  | .saveIdempotentResponse id _ _ | .getSession id => [id]
  | .getFile accountID fileID | .listVersions accountID fileID _ | .getVersion accountID fileID _
  | .pruneVersions accountID fileID _ => [accountID,fileID]
  | .createFile rec | .updateFile rec _ => rec.uuids
  | .putSession s => [s.accountID,s.originDeviceID]

def StoreCall.texts : StoreCall → List Str
  | .auth call => call.texts
  | .createFile rec | .updateFile rec _ => rec.texts
  | .getIdempotentResponse _ key | .saveIdempotentResponse _ key _ => [key]
  | _ => []

/-- Where both stores do the same, read off the tables before the call. -/
def StoreCall.Within (lib : PgLibrary) (env : StoreEnv) (p : Store) : StoreCall → Prop
  | .auth call => call.Within env p.auth
  | .listDevices accountID => ((p.auth.devicesOf accountID).map DeviceRecord.createdAt).Nodup
  | .createFile rec => p.known rec.accountID = true
  | .listVersions _ _ limit => 0 ≤ limit
  | .listChangesSince _ _ limit => 0 < limit
  | .saveIdempotentResponse accountID key response => p.known accountID = true ∧ lib.jsonb response = some response ∧
      ∀ stored ∈ p.idempotent.get (accountID,key), stored = response
  | .putSession s => p.known s.accountID = true
  | _ => True

structure Meets (lib : PgLibrary) (p : Store) (call : StoreEnv × StoreCall) : Prop where
  fresh : Unissued call.1.uuid p.auth
  uuids : ∀ id ∈ call.1.uuid::call.2.uuids, IsUuid id = true
  texts : ∀ text ∈ call.2.texts, IsText text = true
  within : call.2.Within lib call.1 p

instance (lib : PgLibrary) (env : StoreEnv) (p : Store) : (call : StoreCall) → Decidable (call.Within lib env p)
  | .auth call => inferInstanceAs (Decidable (call.Within env p.auth))
  | .listDevices accountID =>
    inferInstanceAs (Decidable (((p.auth.devicesOf accountID).map DeviceRecord.createdAt).Nodup))
  | .createFile _ | .putSession _ => inferInstanceAs (Decidable (_ = _))
  | .listVersions _ _ limit => inferInstanceAs (Decidable (0 ≤ limit))
  | .listChangesSince _ _ limit => inferInstanceAs (Decidable (0 < limit))
  | .saveIdempotentResponse accountID key _ =>
    inferInstanceAs (Decidable (_ ∧ _ ∧ ∀ stored ∈ p.idempotent.get (accountID,key),_))
  | .revokeRefreshToken _ | .listFiles _ | .getFile .. | .updateFile .. | .getVersion ..
  | .pruneVersions .. | .getIdempotentResponse .. | .getSession _ => .isTrue trivial

instance (lib : PgLibrary) (p : Store) (call : StoreEnv × StoreCall) : Decidable (Meets lib p call) :=
  decidable_of_iff (Unissued call.1.uuid p.auth ∧ (∀ id ∈ call.1.uuid::call.2.uuids, IsUuid id = true) ∧
      (∀ text ∈ call.2.texts, IsText text = true) ∧ call.2.Within lib call.1 p)
    ⟨fun ⟨fresh,uuids,texts,within⟩ => ⟨fresh,uuids,texts,within⟩,fun meets => ⟨meets.fresh,meets.uuids,meets.texts,meets.within⟩⟩

/-- The tables after a call, whatever numbers are passed. -/
def next (lib : PgLibrary) (p : Store) (call : StoreEnv × StoreCall) : Store := (p.exec lib id call.1 call.2).2

structure StoresAgree (numbers : Nat → Nat) (m : MemStore) (p : Store) : Prop where
  auth : SameAuth m.auth p.auth
  indexed : Indexed m.auth
  files : FilesAgree numbers m.files p
  sessions : ∀ accountID, m.sessions.get accountID = p.sessions.get accountID

theorem uuid_long {id : Str} (uuid : IsUuid id = true) : id.length = 36 := by
  unfold IsUuid at uuid
  rw [Bool.and_eq_true] at uuid
  exact of_decide_eq_true uuid.1

theorem exec_next (lib : PgLibrary) (numbers : Nat → Nat) (env : StoreEnv) (p : Store) (call : StoreCall) :
    (p.exec lib numbers env call).2 = next lib p (env,call) := by
  cases call <;> rfl

/-! ### What the file methods leave alone -/

structure FileFrame (before after : Store) : Prop where
  auth : after.auth = before.auth
  sessions : after.sessions = before.sessions

theorem write_frame (p : Store) (rec : FileRecord) (version : Nat) : FileFrame p (p.write rec version).2 := by
  unfold Store.write
  dsimp only
  split
  · exact ⟨rfl,rfl⟩
  · exact ⟨rfl,rfl⟩

theorem createFile_frame (p : Store) (rec : FileRecord) : FileFrame p (p.createFile rec).2 := by
  unfold Store.createFile
  split
  · exact ⟨rfl,rfl⟩
  · split
    · exact write_frame p rec 1
    · exact ⟨rfl,rfl⟩

theorem updateFile_frame (p : Store) (rec : FileRecord) (base : Int) : FileFrame p (p.updateFile rec base).2 := by
  unfold Store.updateFile
  split
  · exact ⟨rfl,rfl⟩
  · split
    · exact write_frame p rec _
    · exact ⟨rfl,rfl⟩

theorem pruneVersions_fileFrame (lib : PgLibrary) (p : Store) (accountID fileID : Str) (keep : Int) :
    FileFrame p (p.pruneVersions lib accountID fileID keep).2 := by
  unfold Store.pruneVersions
  split
  · exact ⟨rfl,rfl⟩
  · exact ⟨rfl,rfl⟩

theorem saveIdempotentResponse_frame (lib : PgLibrary) (p : Store) (accountID key : Str) (response : Bytes) :
    FileFrame p (p.saveIdempotentResponse lib accountID key response).2 := by
  unfold Store.saveIdempotentResponse
  split
  · exact ⟨rfl,rfl⟩
  · split
    · exact ⟨rfl,rfl⟩
    · split
      · exact ⟨rfl,rfl⟩
      · exact ⟨rfl,rfl⟩

theorem StoresAgree.filed {numbers : Nat → Nat} {m : MemStore} {p after : Store} (same : StoresAgree numbers m p)
    (frame : FileFrame p after) {files : Mem Bytes} (agree : FilesAgree numbers files after) :
    StoresAgree numbers {m with files := files} after :=
  ⟨frame.auth ▸ same.auth,same.indexed,agree,fun accountID => frame.sessions ▸ same.sessions accountID⟩

/-- The same file tables beside other accounts, devices or sessions. -/
theorem FilesAgree.beside {numbers : Nat → Nat} {m : Mem Bytes} {p after : Store} (same : FilesAgree numbers m p)
    (tables : after = {p with auth := after.auth,sessions := after.sessions}) : FilesAgree numbers m after := by
  rw [tables]
  exact {same with}

/-! ### One call -/

section
variable {lib : PgLibrary} {numbers : Nat → Nat} {env : StoreEnv} {m : MemStore} {p : Store}

theorem exec_agree (returned : ∀ keys, (lib.returning keys).Perm keys) (rows : ∀ devices, (lib.scanned devices).Perm devices)
    (mono : StrictMono numbers) (same : StoresAgree numbers m p)
    (call : StoreCall) (meets : Meets lib p (env,call)) (numbered : FeedNumbers numbers (p.exec lib numbers env call).2) :
    call.Agrees numbers (m.exec env call).1 (p.exec lib numbers env call).1 ∧
      StoresAgree numbers (m.exec env call).2 (p.exec lib numbers env call).2 := by
  have long : ∀ id ∈ call.uuids, id.length = 36 := fun id member => uuid_long (meets.uuids id (List.mem_cons_of_mem _ member))
  have within := meets.within
  cases call with
  | auth call =>
    have both := execAuth_both same.auth same.indexed meets.fresh call within
    exact ⟨both.1,both.2,execAuth_indexed same.auth same.indexed meets.fresh call,same.files.beside rfl,same.sessions⟩
  | listDevices accountID =>
    exact ⟨listDevices_same same.auth rows accountID within,same⟩
  | revokeRefreshToken id =>
    refine ⟨.ok rfl,revokeRefreshToken_same same.auth id env.now,?_,same.files.beside rfl,same.sessions⟩
    show Indexed (m.auth.revokeRefreshToken id env.now)
    unfold AuthMem.revokeRefreshToken
    split
    · exact same.indexed
    · exact ⟨same.indexed.ids,same.indexed.emails,same.indexed.subjects⟩
  | listFiles accountID => exact ⟨listFiles_alike same.files accountID,same⟩
  | getFile accountID fileID => exact ⟨getFile_alike same.files (long _ List.mem_cons_self) fileID,same⟩
  | createFile rec =>
    have both := createFile_both same.files (long _ List.mem_cons_self) within numbered
    exact ⟨both.1,same.filed (createFile_frame p rec) both.2⟩
  | updateFile rec base =>
    have both := updateFile_both same.files (long _ List.mem_cons_self) base numbered
    exact ⟨both.1,same.filed (updateFile_frame p rec base) both.2⟩
  | listVersions accountID fileID limit => exact ⟨listVersions_alike same.files (long _ List.mem_cons_self) fileID within,same⟩
  | getVersion accountID fileID version => exact ⟨getVersion_alike same.files (long _ List.mem_cons_self) fileID version,same⟩
  | pruneVersions accountID fileID keep =>
    by_cases negative : keep < 0
    · have map : m.exec env (.pruneVersions accountID fileID keep) = (.error .internal,m) := if_pos negative
      have table : p.exec lib numbers env (.pruneVersions accountID fileID keep) = (.error .internal,p) := if_pos negative
      rw [map,table]
      exact ⟨.error .internal,same⟩
    · have map : m.exec env (.pruneVersions accountID fileID keep) =
          (.ok (m.files.pruneVersions accountID fileID keep.toNat).1,
            {m with files := (m.files.pruneVersions accountID fileID keep.toNat).2}) := if_neg negative
      have both := pruneVersions_both same.files (long _ List.mem_cons_self) fileID keep lib returned negative
      rw [map]
      exact ⟨both.1,same.filed (pruneVersions_fileFrame lib p accountID fileID keep) both.2⟩
  | listChangesSince accountID since limit => exact ⟨listChangesSince_alike same.files mono accountID since within,same⟩
  | getIdempotentResponse accountID key =>
    exact ⟨getIdempotentResponse_alike same.files (long _ List.mem_cons_self) key,same⟩
  | saveIdempotentResponse accountID key response =>
    have both := saveIdempotentResponse_both same.files (long _ List.mem_cons_self) key response lib within.1 within.2.1 within.2.2
    refine ⟨?_,same.filed (saveIdempotentResponse_frame lib p accountID key response) both.2⟩
    show Alike Eq (.ok ()) (p.saveIdempotentResponse lib accountID key response).1
    rw [both.1]
    exact Alike.rfl _
  | getSession accountID =>
    refine ⟨?_,same⟩
    show Alike Eq (m.getSession accountID) (p.getSession accountID)
    unfold MemStore.getSession Store.getSession
    rw [same.sessions accountID]
    cases p.sessions.get accountID with
    | none => exact .error .notFound
    | some s => exact .ok rfl
  | putSession s =>
    have table : p.exec lib numbers env (.putSession s) = (.ok (),{p with sessions := p.sessions.upsert s.accountID s}) := if_pos within
    rw [table]
    refine ⟨.ok rfl,same.auth,same.indexed,same.files.beside rfl,?_⟩
    intro accountID
    show (m.sessions.upsert s.accountID s).get accountID = (p.sessions.upsert s.accountID s).get accountID
    rw [Table.get_upsert,Table.get_upsert,same.sessions accountID]

end

/-! ### The feed numbers of a run -/

/-- The feed rows have rising numbers that were drawn. -/
structure Sequenced (p : Store) : Prop where
  rising : p.changes.Pairwise (fun a b => a.changeSeq < b.changeSeq)
  drawn : ∀ c ∈ p.changes, 0 < c.changeSeq ∧ c.changeSeq < p.nextval
  started : 0 < p.nextval

theorem Sequenced.draw {p : Store} (seq : Sequenced p) : Sequenced p.draw :=
  ⟨seq.rising,fun c member => ⟨(seq.drawn c member).1,Nat.lt_succ_of_lt (seq.drawn c member).2⟩,Nat.succ_pos _⟩

theorem Sequenced.write {p : Store} (seq : Sequenced p) (rec : FileRecord) (version : Nat) :
    Sequenced (p.write rec version).2 ∧ p.changes <+: (p.write rec version).2.changes := by
  unfold Store.write
  dsimp only
  split
  · exact ⟨seq.draw,List.prefix_rfl⟩
  · refine ⟨⟨?_,?_,Nat.succ_pos _⟩,List.prefix_append _ _⟩
    · refine List.pairwise_append.mpr ⟨seq.rising,List.pairwise_singleton _ _,?_⟩
      intro a old b new
      rw [List.mem_singleton.mp new]
      exact Nat.lt_succ_of_lt (seq.drawn a old).2
    · intro c member
      rcases List.mem_append.mp member with old | new
      · have bounds := seq.drawn c old
        exact ⟨bounds.1,Nat.lt_succ_of_lt (Nat.lt_succ_of_lt bounds.2)⟩
      · rw [List.mem_singleton.mp new]
        exact ⟨Nat.succ_pos _,Nat.lt_succ_self _⟩

/-- A call keeps the numbers in order and only adds to the feed. -/
theorem Sequenced.next {p : Store} (seq : Sequenced p) (lib : PgLibrary) (call : StoreEnv × StoreCall) :
    Sequenced (next lib p call) ∧ p.changes <+: (Server.next lib p call).changes := by
  obtain ⟨env,call⟩ := call
  have still : Sequenced p ∧ p.changes <+: p.changes := ⟨seq,List.prefix_rfl⟩
  cases call with
  | createFile rec =>
    show Sequenced (p.createFile rec).2 ∧ p.changes <+: (p.createFile rec).2.changes
    unfold Store.createFile
    split
    · exact ⟨seq.draw,List.prefix_rfl⟩
    · split
      · exact seq.write rec 1
      · exact ⟨seq.draw,List.prefix_rfl⟩
  | updateFile rec base =>
    show Sequenced (p.updateFile rec base).2 ∧ p.changes <+: (p.updateFile rec base).2.changes
    unfold Store.updateFile
    split
    · exact still
    · split
      · exact seq.write rec _
      · exact still
  | pruneVersions accountID fileID keep =>
    show Sequenced (p.pruneVersions lib accountID fileID keep).2 ∧ p.changes <+: (p.pruneVersions lib accountID fileID keep).2.changes
    unfold Store.pruneVersions
    split
    · exact still
    · exact ⟨⟨seq.rising,seq.drawn,seq.started⟩,List.prefix_rfl⟩
  | saveIdempotentResponse accountID key response =>
    show Sequenced (p.saveIdempotentResponse lib accountID key response).2 ∧ p.changes <+: (p.saveIdempotentResponse lib accountID key response).2.changes
    unfold Store.saveIdempotentResponse
    split
    · exact still
    · split
      · exact still
      · split
        · exact still
        · exact ⟨⟨seq.rising,seq.drawn,seq.started⟩,List.prefix_rfl⟩
  | putSession s =>
    show Sequenced (p.putSession s).2 ∧ p.changes <+: (p.putSession s).2.changes
    unfold Store.putSession
    split
    · exact ⟨⟨seq.rising,seq.drawn,seq.started⟩,List.prefix_rfl⟩
    · exact still
  | _ => exact ⟨⟨seq.rising,seq.drawn,seq.started⟩,List.prefix_rfl⟩

/-- The feed number of each write, and larger numbers after the last one. -/
def feedNumbers (p : Store) : Nat → Nat
  | 0 => 0
  | k + 1 => match p.changes[k]? with
    | some c => c.changeSeq
    | none => p.nextval + k

theorem feedNumbers_some {p : Store} {k : Nat} {c : Change} (found : p.changes[k]? = some c) :
    feedNumbers p (k + 1) = c.changeSeq := by
  simp only [feedNumbers,found]

theorem feedNumbers_none {p : Store} {k : Nat} (found : p.changes[k]? = none) : feedNumbers p (k + 1) = p.nextval + k := by
  simp only [feedNumbers,found]

theorem feedNumbers_fit (p : Store) : FeedNumbers (feedNumbers p) p := by
  intro i c found
  exact feedNumbers_some found

theorem Sequenced.strictMono {p : Store} (seq : Sequenced p) : StrictMono (feedNumbers p) := by
  apply strictMono_nat_of_lt_succ
  intro k
  cases k with
  | zero =>
    show 0 < feedNumbers p 1
    cases found : p.changes[0]? with
    | some c =>
      rw [feedNumbers_some found]
      exact (seq.drawn c (List.mem_of_getElem? found)).1
    | none =>
      rw [feedNumbers_none found]
      exact seq.started
  | succ k =>
    cases later : p.changes[k + 1]? with
    | some b =>
      obtain ⟨inside,rfl⟩ := List.getElem?_eq_some_iff.mp later
      have before : k < p.changes.length := Nat.lt_of_succ_lt inside
      rw [feedNumbers_some later,feedNumbers_some (List.getElem?_eq_getElem before)]
      exact List.pairwise_iff_getElem.mp seq.rising k (k + 1) before inside (Nat.lt_succ_self k)
    | none =>
      rw [feedNumbers_none later]
      cases earlier : p.changes[k]? with
      | some a =>
        rw [feedNumbers_some earlier]
        have bounds := seq.drawn a (List.mem_of_getElem? earlier)
        exact Nat.lt_add_right (k + 1) bounds.2
      | none =>
        rw [feedNumbers_none earlier]
        exact Nat.lt_succ_self _

theorem FeedNumbers.earlier {numbers : Nat → Nat} {p after : Store} (fit : FeedNumbers numbers after)
    (grown : p.changes <+: after.changes) : FeedNumbers numbers p := by
  intro i c found
  obtain ⟨added,equal⟩ := grown
  apply fit i c
  obtain ⟨inside,_⟩ := List.getElem?_eq_some_iff.mp found
  rw [← equal,List.getElem?_append_left inside]
  exact found

/-- A run keeps the numbers in order and only adds to the feed. -/
theorem Sequenced.run {p : Store} (seq : Sequenced p) (lib : PgLibrary) (calls : List (StoreEnv × StoreCall)) :
    Sequenced (Library.run (Server.next lib) p calls) ∧ p.changes <+: (Library.run (Server.next lib) p calls).changes := by
  induction calls generalizing p with
  | nil => exact ⟨seq,List.prefix_rfl⟩
  | cons call rest ih =>
    have step := seq.next lib call
    have later := ih step.1
    exact ⟨later.1,step.2.trans later.2⟩

theorem run_agree {lib : PgLibrary} {numbers : Nat → Nat} (returned : ∀ keys, (lib.returning keys).Perm keys)
    (rows : ∀ devices, (lib.scanned devices).Perm devices)
    (mono : StrictMono numbers) (calls : List (StoreEnv × StoreCall)) (m : MemStore) (p : Store) (seq : Sequenced p)
    (same : StoresAgree numbers m p) (fit : FeedNumbers numbers (run (next lib) p calls))
    (within : Guarded (next lib) (Meets lib) p calls) : AnswerAlike lib numbers m p calls := by
  induction calls generalizing m p with
  | nil => trivial
  | cons call rest ih =>
    obtain ⟨env,call⟩ := call
    have step := seq.next lib (env,call)
    have later := step.1.run lib rest
    have now : FeedNumbers numbers (next lib p (env,call)) := fit.earlier later.2
    have agree := exec_agree returned rows mono same call within.1 (by rw [exec_next]; exact now)
    refine ⟨agree.1,?_⟩
    have after := agree.2
    rw [exec_next] at after ⊢
    exact ih _ _ step.1 after fit within.2

theorem storesAgree_empty (numbers : Nat → Nat) (zero : numbers 0 = 0) : StoresAgree numbers .empty .empty := by
  refine ⟨sameAuth_empty,⟨nofun,Table.empty_isIndex _,Table.empty_isIndex _⟩,filesAgree_empty numbers zero,fun _ => rfl⟩

/-- `newUUID` at its `n`-th call. -/
def issued (n : Nat) : Str := lit "00000000-0000-4000-8000-00000000000" ++ decimalNat n

def laptopNote : FileRecord := ⟨issued 1,issued 7,lit "name",lit "abc",0,.empty,false,3,issued 8,0,issued 2,0⟩

/-- An account with one device that writes a note twice and reads the feed. -/
def written : List (StoreEnv × StoreCall) :=
  [(⟨issued 1,0⟩,.auth (.createAccount (lit "a@b.c") (lit "hash"))),(⟨issued 2,1⟩,.auth (.createDevice (issued 1) (lit "laptop"))),
    (⟨issued 3,2⟩,.createFile laptopNote),(⟨issued 3,3⟩,.updateFile laptopNote 1),(⟨issued 3,4⟩,.listChangesSince (issued 1) 0 10)]

/-- The device is revoked twice. -/
def revokedTwice : List (StoreEnv × StoreCall) :=
  [(⟨issued 1,0⟩,.auth (.createAccount (lit "a@b.c") (lit "hash"))),(⟨issued 2,1⟩,.auth (.createDevice (issued 1) (lit "laptop"))),
    (⟨issued 3,2⟩,.auth (.revokeDevice (issued 1) (issued 2))),(⟨issued 3,3⟩,.auth (.revokeDevice (issued 1) (issued 2)))]

end NPSync.Server
