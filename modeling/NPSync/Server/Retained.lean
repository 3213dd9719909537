import Mathlib
import NPSync.Server.Uploads

/-! What one client's uploads leave on the server: every blob stands under its
hash, and every response kept for retries describes a version that was accepted
with the content the key was made for. -/
namespace NPSync.Server
open Library

section
variable (fault : Bool) (s : State)

/-! ### The effects of single steps -/

@[simp] theorem published_mem (ctx : Context) (rec : FileRecord) : (published fault s ctx rec).mem = s.mem := rfl

@[simp] theorem published_blobs (ctx : Context) (rec : FileRecord) : (published fault s ctx rec).blobs = s.blobs := rfl

@[simp] theorem answered_blobs (ctx : Context) (key : Str) (response : FileJSON) :
    (answered s ctx key response).blobs = s.blobs := by
  unfold answered
  split <;> rfl

@[simp] theorem answered_files (ctx : Context) (key : Str) (response : FileJSON) :
    (answered s ctx key response).mem.files = s.mem.files := by
  unfold answered
  split <;> rfl

@[simp] theorem answered_history (ctx : Context) (key file : Str) (response : FileJSON) :
    (answered s ctx key response).mem.history file = s.mem.history file := by
  unfold answered
  split <;> rfl

theorem deleting_mem (keys : List Str) : (deleting fault s keys).mem = s.mem := by
  induction keys generalizing s with
  | nil => rfl
  | cons key rest ih =>
    refine (ih _).trans ?_
    cases fault <;> rfl

/-- Deleting blobs leaves those under other keys and adds none. -/
theorem deleting_blobs (keys : List Str) (key : Str) :
    (key ∉ keys → (deleting fault s keys).blobs.get key = s.blobs.get key) ∧
      ∀ env, (deleting fault s keys).blobs.get key = some env → s.blobs.get key = some env := by
  induction keys generalizing s with
  | nil => exact ⟨fun _ => rfl,fun _ found => found⟩
  | cons first rest ih =>
    obtain ⟨other,fewer⟩ := ih (exec fault s (.deleteBlob first)).2
    have here : (key ≠ first → (exec fault s (.deleteBlob first)).2.blobs.get key = s.blobs.get key) ∧
        ∀ env, (exec fault s (.deleteBlob first)).2.blobs.get key = some env → s.blobs.get key = some env := by
      cases fault with
      | true => exact ⟨fun _ => rfl,fun _ found => found⟩
      | false =>
        simp only [exec,Bool.false_eq_true,if_false]
        refine ⟨Table.get_remove_other _ _ _,?_⟩
        intro env found
        rw [Table.get_remove] at found
        split at found
        · contradiction
        · exact found
    constructor
    · intro absent
      rw [List.mem_cons,not_or] at absent
      exact (other absent.2).trans (here.1 absent.1)
    · intro env found
      exact here.2 env (fewer env found)

/-- Pruning drops old entries of one file and blobs other than the head's. -/
structure Pruned (before after : State) (file : Str) : Prop where
  files : after.mem.files = before.mem.files
  idempotent : after.mem.idempotent = before.mem.idempotent
  fewer : ∀ key, (after.mem.history key).Sublist (before.mem.history key)
  last : (after.mem.history file).getLast? = (before.mem.history file).getLast?
  blobs : ∀ key env, after.blobs.get key = some env → before.blobs.get key = some env
  head : ∀ f, before.mem.files.get file = some f → after.blobs.get f.blobKey = before.blobs.get f.blobKey

theorem Pruned.refl (s : State) (file : Str) : Pruned s s file :=
  ⟨rfl,rfl,fun _ => List.Sublist.refl _,rfl,fun _ _ found => found,fun _ _ => rfl⟩

theorem pruning_pruned (cfg : Config) (ctx : Context) (fileID : Str) :
    Pruned s (pruning fault s cfg ctx fileID) (Mem.fileKey ctx.accountID fileID) := by
  unfold pruning
  split
  · exact .refl s _
  rename_i positive
  have keep : 0 < cfg.versionRetention.toNat := by omega
  simp only [exec,Mem.pruneVersions]
  generalize keepN : cfg.versionRetention.toNat = n at keep
  generalize fileN : Mem.fileKey ctx.accountID fileID = file
  split
  · exact .refl s _
  · rename_i long
    refine ⟨?_,?_,?_,?_,?_,?_⟩
    · rw [deleting_mem]
    · rw [deleting_mem]
    · intro key
      rw [deleting_mem]
      by_cases here : key = file
      · subst here
        simp only [Mem.history,Table.get_upsert_same,Option.getD_some]
        exact List.drop_sublist _ _
      · simp [Mem.history,Table.get_upsert_other _ _ _ _ here]
    · rw [deleting_mem]
      simp only [Mem.history,Table.get_upsert_same,Option.getD_some] at long ⊢
      rw [List.getLast?_drop,if_neg (by omega)]
    · intro key env found
      have before := (deleting_blobs fault _ _ key).2 env found
      exact before
    · intro f found
      refine (deleting_blobs fault _ _ f.blobKey).1 ?_
      simp [Mem.prunedKeys,found]

/-- Storing a validated content puts it under its hash, unless a blob is there already. -/
theorem storing_cases (req : FileJSON) (live : req.deleted = false) :
    (storing fault s req).2.mem = s.mem ∧
      ((storing fault s req).2.blobs = s.blobs ∨
        (storing fault s req).2.blobs = s.blobs.upsert req.contentHash (mustDecode req.encryptedContent)) ∧
      ((storing fault s req).1 = true → ((storing fault s req).2.blobs.get req.contentHash).isSome = true) := by
  simp only [storing,live,Bool.false_eq_true,if_false,exec,blobKey]
  by_cases failing : fault = true
  · simp [failing]
  by_cases present : (s.blobs.get req.contentHash).isSome = true
  · simp [failing,present]
  · simp [failing,present]

end

section
variable (prim : Primitives) (key : Bytes) (accountID : Str) (hashed : List Bytes)

/-- The key is the cut hash of a text that ends in the hash of the plaintext, the
envelope holds the plaintext, and the three strings are on the list. -/
structure MadeFor (idempotencyKey : Str) (env plaintext : Bytes) : Prop where
  text : ∃ text ∈ hashed, idempotencyKey = (Crypto.sha256Hex prim text).take 36 ∧
    Crypto.sha256Hex prim plaintext <:+ text
  plain : plaintext ∈ hashed
  envelope : env ∈ hashed
  opens : Crypto.decrypt prim key env (lit "file") = .plain plaintext

theorem bytes_lawful : LawfulBEq Bytes := inferInstance

instance (idempotencyKey : Str) (env plaintext : Bytes) :
    Decidable (MadeFor prim key hashed idempotencyKey env plaintext) :=
  haveI := bytes_lawful
  decidable_of_iff ((∃ text ∈ hashed, idempotencyKey = (Crypto.sha256Hex prim text).take 36 ∧
      Crypto.sha256Hex prim plaintext <:+ text) ∧ plaintext ∈ hashed ∧ env ∈ hashed ∧
      Crypto.decrypt prim key env (lit "file") = .plain plaintext)
    ⟨fun h => ⟨h.1,h.2.1,h.2.2.1,h.2.2.2⟩,fun h => ⟨h.text,h.plain,h.envelope,h.opens⟩⟩

/-- SHA-256, also cut to the length of an idempotency key, has no collision on the list. -/
def NoCollision : Prop :=
  ∀ a ∈ hashed, ∀ b ∈ hashed, (Crypto.sha256Hex prim a).take 36 = (Crypto.sha256Hex prim b).take 36 → a = b

instance : Decidable (NoCollision prim hashed) :=
  inferInstanceAs (Decidable (∀ a ∈ hashed, ∀ b ∈ hashed, _))

/-- A stored response was given for an accepted version with the content of its key. -/
structure Genuine (m : Mem FileJSON) (idempotencyKey : Str) (response : FileJSON) : Prop where
  made : ∃ env plaintext, MadeFor prim key hashed idempotencyKey env plaintext ∧
    response.contentHash = Crypto.sha256Hex prim env
  accepted : ∃ n : Nat, response.version = n ∧
    (∃ head, m.files.get (Mem.fileKey accountID response.fileID) = some head ∧ n ≤ head.version) ∧
    ∀ v ∈ m.history (Mem.fileKey accountID response.fileID), v.version = n → v.blobKey = response.contentHash

structure Retained (s : State) : Prop where
  blobs : ∀ name env, s.blobs.get name = some env → Crypto.sha256Hex prim env = name ∧ env ∈ hashed
  heads : ∀ file, ∀ v ∈ s.mem.history file, ∃ head, s.mem.files.get file = some head ∧ v.version ≤ head.version
  responses : ∀ name response, s.mem.idempotent.get (Mem.idemKey accountID name) = some response →
    Genuine prim key accountID hashed s.mem name response

theorem empty_retained : Retained prim key accountID hashed State.empty :=
  ⟨by simp [State.empty],by simp [State.empty,Mem.newMem,Mem.history],by simp [State.empty,Mem.newMem]⟩

/-- The same plaintext stands behind equal keys. -/
theorem MadeFor.same_plaintext {prim : Primitives} {key : Bytes} {hashed : List Bytes}
    (injective : NoCollision prim hashed) {name : Str} {env other plaintext text : Bytes}
    (first : MadeFor prim key hashed name env plaintext) (second : MadeFor prim key hashed name other text) :
    plaintext = text := by
  obtain ⟨_,member,made,⟨before,rfl⟩⟩ := first.text
  obtain ⟨_,member',made',⟨before',rfl⟩⟩ := second.text
  have equal := injective _ member _ member' (made.symm.trans made')
  -- both texts end in a hash of 64 characters
  have hashes : Crypto.sha256Hex prim plaintext = Crypto.sha256Hex prim text := by
    refine (List.append_inj' equal ?_).2
    rw [Crypto.sha256Hex_length,Crypto.sha256Hex_length]
  exact injective _ first.plain _ second.plain (by rw [hashes])

/-! ### The invariant along one request -/

variable {prim key accountID hashed} {s : State}

theorem Genuine.mono {m after : Mem FileJSON} {name : Str} {response : FileJSON}
    (genuine : Genuine prim key accountID hashed m name response) (files : after.files = m.files)
    (fewer : ∀ file, (after.history file).Sublist (m.history file)) :
    Genuine prim key accountID hashed after name response := by
  obtain ⟨n,version,⟨head,found,bound⟩,same⟩ := genuine.accepted
  exact ⟨genuine.made,n,version,⟨head,files ▸ found,bound⟩,fun v member => same v ((fewer _).subset member)⟩

/-- Fewer blobs and fewer old versions. -/
theorem Retained.fewer (retained : Retained prim key accountID hashed s) {after : State}
    (files : after.mem.files = s.mem.files) (idempotent : after.mem.idempotent = s.mem.idempotent)
    (fewer : ∀ file, (after.mem.history file).Sublist (s.mem.history file))
    (blobs : ∀ name env, after.blobs.get name = some env → s.blobs.get name = some env) :
    Retained prim key accountID hashed after where
  blobs name env found := retained.blobs name env (blobs name env found)
  heads file v member := files ▸ retained.heads file v ((fewer file).subset member)
  responses name response found := (retained.responses name response (idempotent ▸ found)).mono files fewer

theorem Retained.storing (retained : Retained prim key accountID hashed s) (fault : Bool) (req : FileJSON)
    (live : req.deleted = false) (hash : Crypto.sha256Hex prim (mustDecode req.encryptedContent) = req.contentHash)
    (known : mustDecode req.encryptedContent ∈ hashed) :
    Retained prim key accountID hashed (Server.storing fault s req).2 := by
  obtain ⟨mem,blobs,-⟩ := storing_cases fault s req live
  refine ⟨?_,mem ▸ retained.heads,mem ▸ retained.responses⟩
  intro name env found
  rcases blobs with same | added
  · exact retained.blobs name env (same ▸ found)
  · rw [added,Table.get_upsert] at found
    split at found
    · rename_i here
      cases found
      exact ⟨hash.trans here.symm,known⟩
    · exact retained.blobs name env found

/-- A commit adds a version above the head of its file. -/
theorem Retained.commit (retained : Retained prim key accountID hashed s) (file : Str) (cp : FileRecord)
    (above : ∀ head, s.mem.files.get file = some head → head.version < cp.version) :
    Retained prim key accountID hashed {s with mem := s.mem.commit file cp} := by
  have history : ∀ other, other ≠ file → (s.mem.commit file cp).history other = s.mem.history other := by
    intro other different
    simp [Mem.commit,Mem.history,Table.get_upsert_other _ _ _ _ different]
  have here : (s.mem.commit file cp).history file = s.mem.history file ++ [Mem.versionFromRecord cp] := by
    simp [Mem.commit,Mem.history]
  have files : ∀ other, other ≠ file → (s.mem.commit file cp).files.get other = s.mem.files.get other :=
    fun other different => Table.get_upsert_other _ _ _ _ different
  have head : (s.mem.commit file cp).files.get file = some cp := Table.get_upsert_same _ _ _
  refine ⟨retained.blobs,?_,?_⟩
  · intro other v member
    by_cases same : other = file
    · subst same
      refine ⟨cp,head,?_⟩
      rw [here] at member
      rcases List.mem_append.mp member with old | new
      · obtain ⟨before,found,bound⟩ := retained.heads other v old
        exact Nat.le_of_lt (Nat.lt_of_le_of_lt bound (above before found))
      · rw [List.mem_singleton.mp new]
        exact Nat.le_refl _
    · rw [history other same] at member
      rw [files other same]
      exact retained.heads other v member
  · intro name response found
    obtain ⟨made,n,version,⟨before,old,bound⟩,same⟩ := retained.responses name response found
    refine ⟨made,n,version,?_⟩
    by_cases target : Mem.fileKey accountID response.fileID = file
    · rw [target] at old same ⊢
      have lower := above before old
      refine ⟨⟨cp,head,by omega⟩,?_⟩
      intro v member numbered
      rw [here] at member
      rcases List.mem_append.mp member with inside | new
      · exact same v inside numbered
      · rw [List.mem_singleton.mp new] at numbered
        have newest : cp.version = n := numbered
        omega
    · rw [files _ target,history _ target]
      exact ⟨⟨before,old,bound⟩,same⟩

theorem Retained.answered (retained : Retained prim key accountID hashed s) (ctx : Context) (name : Str)
    (response : FileJSON) (account : ctx.accountID = accountID)
    (genuine : Genuine prim key accountID hashed s.mem (idempotencyKeyOf ctx name) response) :
    Retained prim key accountID hashed (Server.answered s ctx name response) := by
  subst account
  unfold Server.answered
  split
  · exact retained
  refine ⟨retained.blobs,retained.heads,?_⟩
  intro other stored found
  simp only [Mem.saveIdempotentResponse,Table.get_upsert] at found
  split at found
  · rename_i same
    cases found
    obtain rfl : other = idempotencyKeyOf ctx name := List.append_cancel_left same
    exact genuine.mono rfl (fun _ => List.Sublist.refl _)
  · exact (retained.responses other stored found).mono rfl (fun _ => List.Sublist.refl _)

variable (prim key accountID) in
/-- The server has this version of the file, live, with a content that opens to the plaintext. -/
def HoldsVersion (s : State) (fileID : Str) (version : Int) (plaintext : Bytes) : Prop :=
  ∃ v ∈ s.mem.history (Mem.fileKey accountID fileID), (v.version : Int) = version ∧ v.deleted = false ∧
    ∃ env, s.blobs.get v.blobKey = some env ∧ Crypto.decrypt prim key env (lit "file") = .plain plaintext

/-- A request whose content was accepted: what it commits, and what its key was made for. -/
structure Commits (prim : Primitives) (key : Bytes) (hashed : List Bytes) (s : State) (ctx : Context) (req : FileJSON)
    (rec : FileRecord) (plaintext : Bytes) : Prop where
  live : rec.deleted = false
  names : rec.fileID = req.fileID ∧ rec.contentHash = req.contentHash ∧ rec.blobKey = req.contentHash
  hash : Crypto.sha256Hex prim (mustDecode req.encryptedContent) = req.contentHash
  made : MadeFor prim key hashed (idempotencyKeyOf ctx req.idempotencyKey) (mustDecode req.encryptedContent) plaintext
  stored : (s.blobs.get req.contentHash).isSome = true
  above : ∀ head, s.mem.files.get (Mem.fileKey ctx.accountID req.fileID) = some head → head.version < rec.version

section
variable {ctx : Context} {req : FileJSON} {rec : FileRecord} {plaintext : Bytes} {after : State}

/-- The response to an accepted upload is genuine. -/
theorem Commits.genuine (commits : Commits prim key hashed s ctx req rec plaintext)
    (retained : Retained prim key ctx.accountID hashed s)
    (pruned : Pruned (committed ctx req s rec) after (Mem.fileKey ctx.accountID req.fileID)) :
    Genuine prim key ctx.accountID hashed after.mem (idempotencyKeyOf ctx req.idempotencyKey) (toFileJSON rec []) := by
  refine ⟨⟨_,plaintext,commits.made,commits.names.2.1.trans commits.hash.symm⟩,rec.version,rfl,?_⟩
  have file : (toFileJSON rec []).fileID = req.fileID := commits.names.1
  rw [file,pruned.files]
  refine ⟨⟨rec,Table.get_upsert_same _ _ _,Nat.le_refl _⟩,?_⟩
  intro v member numbered
  have inside := (pruned.fewer _).subset member
  simp only [committed,Mem.commit,Mem.history,Table.get_upsert_same,Option.getD_some] at inside
  rcases List.mem_append.mp inside with old | new
  · obtain ⟨head,found,bound⟩ := retained.heads _ v old
    have lower := commits.above head found
    omega
  · rw [List.mem_singleton.mp new]
    exact commits.names.2.2.trans commits.names.2.1.symm

theorem Commits.retained (commits : Commits prim key hashed s ctx req rec plaintext)
    (retained : Retained prim key ctx.accountID hashed s)
    (pruned : Pruned (committed ctx req s rec) after (Mem.fileKey ctx.accountID req.fileID)) (fault : Bool) :
    Retained prim key ctx.accountID hashed
      (Server.answered (published fault after ctx rec) ctx req.idempotencyKey (toFileJSON rec [])) := by
  have committed := retained.commit (Mem.fileKey ctx.accountID req.fileID) rec commits.above
  have shrunk : Retained prim key ctx.accountID hashed after :=
    committed.fewer pruned.files pruned.idempotent pruned.fewer pruned.blobs
  have told : Retained prim key ctx.accountID hashed (published fault after ctx rec) :=
    shrunk.fewer rfl rfl (fun _ => List.Sublist.refl _) (fun _ _ found => found)
  have genuine := commits.genuine retained pruned
  exact told.answered ctx req.idempotencyKey _ rfl genuine

/-- The server holds the version that it answered with. -/
theorem Commits.holds (commits : Commits prim key hashed s ctx req rec plaintext)
    (injective : NoCollision prim hashed) (retained : Retained prim key ctx.accountID hashed s)
    (pruned : Pruned (committed ctx req s rec) after (Mem.fileKey ctx.accountID req.fileID)) (fault : Bool) :
    HoldsVersion prim key ctx.accountID
      (Server.answered (published fault after ctx rec) ctx req.idempotencyKey (toFileJSON rec [])) req.fileID
      rec.version plaintext := by
  have head : (committed ctx req s rec).mem.files.get (Mem.fileKey ctx.accountID req.fileID) = some rec :=
    Table.get_upsert_same _ _ _
  have last : Mem.versionFromRecord rec ∈ after.mem.history (Mem.fileKey ctx.accountID req.fileID) := by
    refine List.mem_of_getLast? (pruned.last.trans ?_)
    simp [committed,Mem.commit,Mem.history]
  obtain ⟨env,stored⟩ := Option.isSome_iff_exists.mp commits.stored
  obtain ⟨hash,known⟩ := retained.blobs _ env stored
  have same : env = mustDecode req.encryptedContent :=
    injective _ known _ commits.made.envelope (by rw [hash,commits.hash])
  refine ⟨_,by simpa using last,rfl,commits.live,env,?_,same ▸ commits.made.opens⟩
  have kept := pruned.head rec head
  rw [answered_blobs,published_blobs]
  exact kept.trans (commits.names.2.2 ▸ stored)

end

/-- A replayed response that names a version still held was given for the same plaintext. -/
theorem Retained.replay (retained : Retained prim key accountID hashed s) (injective : NoCollision prim hashed)
    {name : Str} {response : FileJSON} {env plaintext : Bytes} (fileID : Str) (names : response.fileID = fileID)
    (stored : s.mem.idempotent.get (Mem.idemKey accountID name) = some response)
    (made : MadeFor prim key hashed name env plaintext)
    (held : ∃ v ∈ s.mem.history (Mem.fileKey accountID fileID), (v.version : Int) = response.version ∧
      v.deleted = false ∧ (s.blobs.get v.blobKey).isSome = true) :
    HoldsVersion prim key accountID s fileID response.version plaintext := by
  subst names
  obtain ⟨⟨sealed,text,original,hash⟩,n,version,-,same⟩ := retained.responses name response stored
  obtain ⟨v,member,numbered,live,present⟩ := held
  obtain ⟨blob,found⟩ := Option.isSome_iff_exists.mp present
  obtain ⟨blobHash,known⟩ := retained.blobs _ blob found
  have content : v.blobKey = response.contentHash := same v member (by omega)
  have equal : blob = sealed := injective _ known _ original.envelope (by rw [blobHash,content,hash])
  have plain : plaintext = text := made.same_plaintext injective original
  exact ⟨v,member,numbered,live,blob,found,by rw [equal,plain]; exact original.opens⟩

end
end NPSync.Server
