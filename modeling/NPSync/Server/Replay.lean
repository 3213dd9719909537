import NPSync.KnownAnswers
import NPSync.Server.Heads
import NPSync.Server.Uploads

/-! Replays of a mutating request. The first execution and every repetition run
undisturbed, each with its own clock and its own blob storage faults. -/
namespace NPSync.Server
open Library

/-- A mutating file request without its context; the body of a restore has a key of its own. -/
inductive Mutation where
  | post (req : FileJSON)
  | put (fileID : Str) (req : FileJSON)
  | delete (fileID : Str)
  | restore (fileID : Str) (version : Int) (idempotencyKey : Str)
  | batch (uploads : List FileJSON) (downloads : List Str)

def Mutation.request (ctx : Context) : Mutation → Request
  | .post req => .post ctx req
  | .put fileID req => .put ctx fileID req
  | .delete fileID => .delete ctx fileID
  | .restore fileID version _ => .restore ctx fileID version
  | .batch uploads downloads => .batch ctx uploads downloads

/-- The request has an idempotency key in its header or body. -/
def Mutation.Carries (ctx : Context) : Mutation → Prop
  | .post req | .put _ req => ctx.idempotencyHeader ≠ [] ∨ req.idempotencyKey ≠ []
  | .delete _ => ctx.idempotencyHeader ≠ []
  | .restore _ _ key => ctx.idempotencyHeader ≠ [] ∨ key ≠ []
  | .batch uploads _ => ctx.idempotencyHeader ≠ [] ∨ ∃ u ∈ uploads, u.idempotencyKey ≠ []

/-- The clock of one execution, and whether its blob calls fail. -/
structure Occasion where
  now : Nat
  fault : Bool

/-- The records an answer carries. -/
def Response.records : Response → List FileJSON
  | .record _ body => [body]
  | .batch results => results.filterMap (fun item => item.record)
  | .error _ | .changes _ _ => []

/-- An answer of success; a batch has one unless an item failed on the server's side. -/
def Response.Succeeded : Response → Prop
  | .record _ _ => True
  | .batch results => ∀ item ∈ results, item.error ≠ lit "internal"
  | .error _ | .changes _ _ => False

/-- The same heads, histories, change feed and blobs. -/
structure SameFiles (a b : State) : Prop where
  files : a.mem.files = b.mem.files
  versions : a.mem.versions = b.mem.versions
  changes : a.mem.changes = b.mem.changes
  blobs : a.blobs = b.blobs

theorem SameFiles.refl (s : State) : SameFiles s s := ⟨rfl,rfl,rfl,rfl⟩

section
variable (prim : Primitives) (cfg : Config) (ctx : Context) (m : Mutation)

def Mutation.served (s : State) (o : Occasion) : Response × State :=
  (handle prim cfg (m.request {ctx with now := o.now})).run (exec o.fault) s

/-- The state after some repetitions. -/
def Mutation.repeated (s : State) (occasions : List Occasion) : State :=
  occasions.foldl (fun s o => (m.served prim cfg ctx s o).2) s

/-- After a success any number of repetitions leaves the files alone, and each answers the first record. -/
def ReplaySafe (s : State) : Prop :=
  ∀ first : Occasion, (m.served prim cfg ctx s first).1.Succeeded → ∀ (between : List Occasion) (last : Occasion),
    let after := (m.served prim cfg ctx s first).2
    let out := m.served prim cfg ctx (m.repeated prim cfg ctx after between) last
    out.1.records = (m.served prim cfg ctx s first).1.records ∧ SameFiles out.2 after

/-- The store refuses the upload of a batch. -/
def Refused (s : State) (u : FileJSON) : Prop :=
  validateIncomingFile prim cfg u ≠ none ∨
    ∃ head, s.mem.files.get (Mem.fileKey ctx.accountID u.fileID) = some head ∧ (head.version : Int) ≠ u.baseVersion

/-- The condition for a safe replay: the endpoint checks its key, or the request cannot write. -/
def Replayable (s : State) : Mutation → Prop
  | .post _ | .put _ _ => True
  | .delete fileID => s.mem.files.get (Mem.fileKey ctx.accountID fileID) = none
  | .restore fileID version _ =>
    (∀ v ∈ s.mem.history (Mem.fileKey ctx.accountID fileID), (v.version : Int) ≠ version) ∨
      s.mem.files.get (Mem.fileKey ctx.accountID fileID) = none
  | .batch uploads _ => cfg.maxBatchBytes < batchTotal uploads ∨ ∀ u ∈ uploads, Refused prim cfg ctx s u

end

/-! ### Creates and updates -/

section
variable (fault : Bool) (s : State) (ctx : Context)

theorem storedResponse_answered (key : Str) (response : FileJSON) (carried : idempotencyKeyOf ctx key ≠ []) :
    storedResponse (answered s ctx key response) ctx key = some response := by
  simp [storedResponse,answered,carried,Mem.getIdempotentResponse,Mem.saveIdempotentResponse]

theorem idempotencyKeyOf_ne (key : Str) (carries : ctx.idempotencyHeader ≠ [] ∨ key ≠ []) :
    idempotencyKeyOf ctx key ≠ [] := by
  unfold idempotencyKeyOf
  split
  · rename_i empty
    exact carries.resolve_right (fun filled => filled empty)
  · rename_i filled
    exact filled

variable (prim : Primitives) (cfg : Config) (req : FileJSON)

/-- A record that was answered to a keyed create is stored under its key. -/
theorem handleCreateFile_stores (carried : idempotencyKeyOf ctx req.idempotencyKey ≠ [])
    (success : ((handleCreateFile prim cfg ctx req).run (exec fault) s).1.Succeeded) :
    validateIncomingFile prim cfg req = none ∧
    ∃ status response, ((handleCreateFile prim cfg ctx req).run (exec fault) s).1 = .record status response ∧
      storedResponse ((handleCreateFile prim cfg ctx req).run (exec fault) s).2 ctx req.idempotencyKey =
        some response := by
  constructor
  · cases checked : validateIncomingFile prim cfg req with
    | none => rfl
    | some err =>
      simp only [handleCreateFile,checked] at success
      exact success.elim
  rcases handleCreateFile_run fault s prim cfg ctx req _ rfl with
    ⟨err,-,out⟩ | ⟨response,stored,out⟩ | ⟨-,⟨err,-,out⟩ | ⟨rec,-,-,-,out⟩⟩
  · rw [out] at success
    exact success.elim
  · rw [out]
    exact ⟨200,response,rfl,stored⟩
  · rw [out] at success
    exact success.elim
  · rw [out]
    exact ⟨201,_,rfl,storedResponse_answered _ ctx req.idempotencyKey _ carried⟩

theorem replaceFile_stores (carried : idempotencyKeyOf ctx req.idempotencyKey ≠ [])
    (success : ((replaceFile prim cfg ctx req).run (exec fault) s).1.Succeeded) :
    validateIncomingFile prim cfg req = none ∧
    ∃ status response, ((replaceFile prim cfg ctx req).run (exec fault) s).1 = .record status response ∧
      storedResponse ((replaceFile prim cfg ctx req).run (exec fault) s).2 ctx req.idempotencyKey =
        some response := by
  constructor
  · cases checked : validateIncomingFile prim cfg req with
    | none => rfl
    | some err =>
      simp only [replaceFile,checked] at success
      exact success.elim
  rcases replaceFile_run fault s prim cfg ctx req _ rfl with
    ⟨err,-,out⟩ | ⟨response,stored,out⟩ | ⟨-,⟨err,-,out⟩ | ⟨cur,rec,-,-,-,-,out⟩⟩
  · rw [out] at success
    exact success.elim
  · rw [out]
    exact ⟨200,response,rfl,stored⟩
  · rw [out] at success
    exact success.elim
  · rw [out]
    exact ⟨200,_,rfl,storedResponse_answered _ ctx req.idempotencyKey _ carried⟩

theorem handleCreateFile_replays (valid : validateIncomingFile prim cfg req = none) (response : FileJSON)
    (stored : storedResponse s ctx req.idempotencyKey = some response) :
    (handleCreateFile prim cfg ctx req).run (exec fault) s = (.record 200 response,s) := by
  simp only [handleCreateFile,valid,run_checkIdempotency,stored,Program.run_done]

theorem replaceFile_replays (valid : validateIncomingFile prim cfg req = none) (response : FileJSON)
    (stored : storedResponse s ctx req.idempotencyKey = some response) :
    (replaceFile prim cfg ctx req).run (exec fault) s = (.record 200 response,s) := by
  simp only [replaceFile,valid,run_checkIdempotency,stored,Program.run_done]

end

section
variable {prim : Primitives} {cfg : Config} {ctx : Context} {m : Mutation}

theorem repeated_fixed {s : State} (fixed : ∀ o, (m.served prim cfg ctx s o).2 = s) (between : List Occasion) :
    m.repeated prim cfg ctx s between = s := by
  induction between with
  | nil => rfl
  | cons o rest ih =>
    simp only [Mutation.repeated,List.foldl_cons] at ih ⊢
    rw [fixed o]
    exact ih

/-- A success after which every repetition answers from the store is safe. -/
theorem replaySafe_of_stored {s : State}
    (stores : ∀ first, (m.served prim cfg ctx s first).1.Succeeded → ∃ status response,
      (m.served prim cfg ctx s first).1 = .record status response ∧
        ∀ o, m.served prim cfg ctx (m.served prim cfg ctx s first).2 o =
          (.record 200 response,(m.served prim cfg ctx s first).2)) :
    ReplaySafe prim cfg ctx m s := by
  intro first success between last
  obtain ⟨status,response,answer,again⟩ := stores first success
  have fixed := repeated_fixed (s := (m.served prim cfg ctx s first).2) (fun o => by rw [again o]) between
  dsimp only
  rw [fixed,again last,answer]
  exact ⟨rfl,.refl _⟩

theorem post_replaySafe (req : FileJSON) (carries : (Mutation.post req).Carries ctx) (s : State) :
    ReplaySafe prim cfg ctx (.post req) s := by
  have carried := idempotencyKeyOf_ne ctx req.idempotencyKey carries
  refine replaySafe_of_stored fun first success => ?_
  obtain ⟨valid,status,response,answer,stored⟩ :=
    handleCreateFile_stores first.fault s {ctx with now := first.now} prim cfg req carried success
  exact ⟨status,response,answer,fun o =>
    handleCreateFile_replays o.fault _ {ctx with now := o.now} prim cfg req valid response stored⟩

theorem put_replaySafe (fileID : Str) (req : FileJSON) (carries : (Mutation.put fileID req).Carries ctx) (s : State) :
    ReplaySafe prim cfg ctx (.put fileID req) s := by
  have carried := idempotencyKeyOf_ne ctx req.idempotencyKey carries
  refine replaySafe_of_stored fun first success => ?_
  simp only [Mutation.served,Mutation.request,handle,handleUpdateFile] at success ⊢
  split
  · rename_i malformed
    rw [if_pos malformed] at success
    exact success.elim
  rename_i formed
  rw [if_neg formed] at success
  obtain ⟨valid,status,response,answer,stored⟩ :=
    replaceFile_stores first.fault s {ctx with now := first.now} prim cfg {req with fileID := fileID} carried success
  exact ⟨status,response,answer,fun o =>
    replaceFile_replays o.fault _ {ctx with now := o.now} prim cfg {req with fileID := fileID} valid response stored⟩

end

/-! ### Deletes and restores -/

section
variable (fault : Bool) (s : State) (ctx : Context) (fileID : Str)

/-- A delete of a file that has a head writes. -/
theorem handleDeleteFile_writes (keyed : Keyed s.mem) (cur : FileRecord)
    (head : s.mem.files.get (Mem.fileKey ctx.accountID fileID) = some cur) :
    ∃ rec, Mem.fileKey rec.accountID rec.fileID = Mem.fileKey ctx.accountID fileID ∧
      (handleDeleteFile ctx fileID).run (exec fault) s = (.record 200 (toFileJSON rec []),
        published fault {s with mem := s.mem.commit (Mem.fileKey ctx.accountID fileID) rec} ctx rec) := by
  have names : Mem.fileKey (tombstone ctx cur).accountID (tombstone ctx cur).fileID =
      Mem.fileKey ctx.accountID fileID := keyed _ cur head
  refine ⟨{tombstone ctx cur with version := cur.version + 1,changeSeq := s.mem.nextSeq},names,?_⟩
  simp only [handleDeleteFile,Program.run_call,exec,Mem.getFile,head,Mem.updateFile,names,ne_eq,not_true_eq_false,
    if_false]
  rfl

theorem handleRestoreVersion_writes (version : Int) (v : VersionRecord) (cur : FileRecord)
    (found : (s.mem.history (Mem.fileKey ctx.accountID fileID)).find? (fun v => (v.version : Int) = version) = some v)
    (head : s.mem.files.get (Mem.fileKey ctx.accountID fileID) = some cur) :
    ∃ rec, (handleRestoreVersion ctx fileID version).run (exec fault) s = (.record 200 (toFileJSON rec []),
      published fault {s with mem := s.mem.commit (Mem.fileKey ctx.accountID fileID) rec} ctx rec) := by
  have names : Mem.fileKey (restored ctx fileID v cur).accountID (restored ctx fileID v cur).fileID =
      Mem.fileKey ctx.accountID fileID := rfl
  refine ⟨{restored ctx fileID v cur with version := cur.version + 1,changeSeq := s.mem.nextSeq},?_⟩
  simp only [handleRestoreVersion,Program.run_call,exec,Mem.getVersion,found,Mem.getFile,head,Mem.updateFile,names,
    ne_eq,not_true_eq_false,if_false]
  rfl

theorem Keyed.commit {m : Mem FileJSON} (keyed : Keyed m) (key : Str) (cp : FileRecord)
    (names : Mem.fileKey cp.accountID cp.fileID = key) : Keyed (m.commit key cp) := by
  intro other f found
  rw [Mem.commit_files] at found
  split at found
  · rename_i same
    rw [← Option.some.inj found,names,same]
  · exact keyed other f found

/-- A write shows in the feed. -/
theorem commit_not_sameFiles {before : State} (key : Str) (cp : FileRecord) :
    ¬SameFiles (published fault {before with mem := before.mem.commit key cp} ctx cp) before := by
  intro same
  have lengths : (before.mem.changes ++ [Mem.changeOf cp]).length = before.mem.changes.length :=
    congrArg List.length same.changes
  simp at lengths

variable {prim : Primitives} {cfg : Config}

/-- Where one execution leaves the state such that the next one writes, replays are unsafe. -/
theorem unsafe_of_writes {m : Mutation} {s : State} (first last : Occasion)
    (success : (m.served prim cfg ctx s first).1.Succeeded)
    (writes : ∃ key cp, (m.served prim cfg ctx (m.served prim cfg ctx s first).2 last).2 =
      published last.fault {(m.served prim cfg ctx s first).2 with
        mem := (m.served prim cfg ctx s first).2.mem.commit key cp} {ctx with now := last.now} cp) :
    ¬ReplaySafe prim cfg ctx m s := by
  intro safe
  obtain ⟨key,cp,written⟩ := writes
  have same := (safe first success [] last).2
  simp only [Mutation.repeated,List.foldl_nil] at same
  rw [written] at same
  exact commit_not_sameFiles _ _ key cp same

theorem delete_replaySafe_iff (keyed : Keyed s.mem) :
    ReplaySafe prim cfg ctx (.delete fileID) s ↔ s.mem.files.get (Mem.fileKey ctx.accountID fileID) = none := by
  constructor
  · intro safe
    cases head : s.mem.files.get (Mem.fileKey ctx.accountID fileID) with
    | none => rfl
    | some cur =>
      obtain ⟨rec,names,first⟩ := handleDeleteFile_writes false s {ctx with now := 0} fileID keyed cur head
      have served : (Mutation.delete fileID).served prim cfg ctx s ⟨0,false⟩ =
          (handleDeleteFile {ctx with now := 0} fileID).run (exec false) s := rfl
      refine absurd safe (unsafe_of_writes ctx ⟨0,false⟩ ⟨0,false⟩ ?_ ?_)
      · rw [served,first]
        trivial
      · rw [served,first]
        obtain ⟨again,-,second⟩ := handleDeleteFile_writes false
          (published false {s with mem := s.mem.commit (Mem.fileKey ctx.accountID fileID) rec} {ctx with now := 0} rec)
          {ctx with now := 0} fileID (keyed.commit _ rec names) rec (Table.get_upsert_same _ _ _)
        exact ⟨_,again,congrArg Prod.snd second⟩
  · intro absent first success
    have refusal : (Mutation.delete fileID).served prim cfg ctx s first = (.error errNotFound,s) := by
      simp only [Mutation.served,Mutation.request,handle,handleDeleteFile,Program.run_call,exec,Mem.getFile,absent]
      rfl
    rw [refusal] at success
    exact success.elim

theorem restore_replaySafe_iff (version : Int) (idempotencyKey : Str) :
    ReplaySafe prim cfg ctx (.restore fileID version idempotencyKey) s ↔
      (∀ v ∈ s.mem.history (Mem.fileKey ctx.accountID fileID), (v.version : Int) ≠ version) ∨
        s.mem.files.get (Mem.fileKey ctx.accountID fileID) = none := by
  have served : ∀ s o, (Mutation.restore fileID version idempotencyKey).served prim cfg ctx s o =
      (handleRestoreVersion {ctx with now := o.now} fileID version).run (exec o.fault) s := fun _ _ => rfl
  constructor
  · intro safe
    cases found : (s.mem.history (Mem.fileKey ctx.accountID fileID)).find?
        (fun v => (v.version : Int) = version) with
    | none => exact .inl (fun v member same => by simpa [same] using List.find?_eq_none.mp found v member)
    | some v =>
      cases head : s.mem.files.get (Mem.fileKey ctx.accountID fileID) with
      | none => exact .inr rfl
      | some cur =>
        obtain ⟨rec,first⟩ := handleRestoreVersion_writes false s {ctx with now := 0} fileID version v cur found head
        refine absurd safe (unsafe_of_writes ctx ⟨0,false⟩ ⟨0,false⟩ ?_ ?_)
        · rw [served,first]
          trivial
        · rw [served s,first]
          have still : ((s.mem.commit (Mem.fileKey ctx.accountID fileID) rec).history
              (Mem.fileKey ctx.accountID fileID)).find? (fun v => (v.version : Int) = version) = some v := by
            rw [Mem.commit_history,if_pos rfl,List.find?_append,found]
            rfl
          obtain ⟨again,second⟩ := handleRestoreVersion_writes false
            (published false {s with mem := s.mem.commit (Mem.fileKey ctx.accountID fileID) rec} {ctx with now := 0} rec)
            {ctx with now := 0} fileID version v rec still (Table.get_upsert_same _ _ _)
          exact ⟨_,again,congrArg Prod.snd second⟩
  · intro unwritable first success
    have refusal : ∃ err, (Mutation.restore fileID version idempotencyKey).served prim cfg ctx s first =
        (.error err,s) := by
      rw [served]
      rcases unwritable with gone | absent
      · have missing : (s.mem.history (Mem.fileKey ctx.accountID fileID)).find?
            (fun v => (v.version : Int) = version) = none :=
          List.find?_eq_none.mpr (fun v member => by simpa using gone v member)
        refine ⟨mapStoreErr .notFound,?_⟩
        simp only [handleRestoreVersion,Program.run_call,exec,Mem.getVersion,missing]
        rfl
      · refine ⟨mapStoreErr .notFound,?_⟩
        cases found : s.mem.getVersion ctx.accountID fileID version with
        | error err =>
          have kind : err = .notFound := by
            unfold Mem.getVersion at found
            split at found
            · contradiction
            · exact (Except.error.inj found).symm
          simp only [handleRestoreVersion,Program.run_call,exec,found,kind]
          rfl
        | ok v =>
          simp only [handleRestoreVersion,Program.run_call,exec,found,Mem.getFile,absent]
          rfl
    obtain ⟨err,refused⟩ := refusal
    rw [refused] at success
    exact success.elim

end

/-! ### Batches -/

section
variable (prim : Primitives) (cfg : Config) (ctx : Context) (fault : Bool) (s : State)

/-- Blobs are only added, and not under a key that has one or while storage fails. -/
theorem storing_blobs (u : FileJSON) :
    (storing fault s u).2.mem = s.mem ∧
      (∀ key, (s.blobs.get key).isSome = true → ((storing fault s u).2.blobs.get key).isSome = true) ∧
      ((storing fault s u).1 = true → u.deleted = false →
        ((storing fault s u).2.blobs.get (blobKey u.contentHash)).isSome = true) ∧
      ((u.deleted = false → (s.blobs.get (blobKey u.contentHash)).isSome = true) → (storing fault s u).2 = s) ∧
      (fault = false → (storing fault s u).1 = true) := by
  unfold storing
  by_cases gone : u.deleted = true
  · simp [gone]
  by_cases failing : fault = true
  · simp [gone,failing,exec]
  by_cases present : (s.blobs.get (blobKey u.contentHash)).isSome = true
  · simp [gone,failing,present,exec]
  · simp only [gone,failing,present,exec,Bool.false_eq_true,if_false]
    refine ⟨trivial,?_,fun _ _ => by simp,fun stored => absurd (stored trivial) (by simp),fun _ => trivial⟩
    intro key there
    rw [Table.get_upsert]
    split
    · rfl
    · exact there

/-- What one upload of a batch does: it is refused, fails in storage, or commits one record. -/
inductive Uploaded (u : FileJSON) (item : BatchResultItem) (after : State) : Prop
  | invalid (refused : validateIncomingFile prim cfg u ≠ none) (none : item.record = none)
      (error : item.error = lit "invalid_request") (same : after = s)
  | unstored (valid : validateIncomingFile prim cfg u = none) (fails : (storing fault s u).1 = false)
      (none : item.record = none) (error : item.error = lit "internal") (same : after = (storing fault s u).2)
  | conflicting (valid : validateIncomingFile prim cfg u = none) (stored : (storing fault s u).1 = true)
      (stale : ∃ head, s.mem.files.get (Mem.fileKey ctx.accountID u.fileID) = some head ∧
        (head.version : Int) ≠ u.baseVersion)
      (none : item.record = none) (error : item.error = lit "conflict") (same : after = (storing fault s u).2)
  | written (accepted : ¬Refused prim cfg ctx s u) (some : item.record.isSome = true) (error : item.error = [])
      (feed : ∃ c, after.mem.changes = s.mem.changes ++ [c])

theorem run_batchUpload (u : FileJSON) (next : BatchResultItem → Handler) :
    ∃ item after, (batchUpload prim cfg ctx u next).run (exec fault) s = (next item).run (exec fault) after ∧
      Uploaded prim cfg ctx fault s u item after := by
  unfold batchUpload
  cases checked : validateIncomingFile prim cfg u with
  | some err => exact ⟨_,s,rfl,.invalid (by simp [checked]) rfl rfl rfl⟩
  | none =>
    dsimp only
    rw [run_storeBlob]
    obtain ⟨mem,-⟩ := storing_blobs fault s u
    cases put : (storing fault s u).1 with
    | false => exact ⟨_,_,rfl,.unstored checked put rfl rfl rfl⟩
    | true =>
      simp only [Bool.not_true,Bool.false_eq_true,if_false,Program.run_call,exec,Mem.getFile,mem]
      cases head : s.mem.files.get (Mem.fileKey ctx.accountID u.fileID) with
      | none =>
        have names : Mem.fileKey (recordFromRequest ctx u).accountID (recordFromRequest ctx u).fileID =
            Mem.fileKey ctx.accountID u.fileID := rfl
        have accepted : ¬Refused prim cfg ctx s u := by simp [Refused,checked,head]
        simp only [Program.run_call,exec,Mem.createFile,mem,names,head,finishUpload,run_publish]
        exact ⟨_,_,rfl,.written accepted rfl rfl ⟨_,rfl⟩⟩
      | some cur =>
        have names : Mem.fileKey (recordFromRequest ctx u).accountID (recordFromRequest ctx u).fileID =
            Mem.fileKey ctx.accountID u.fileID := rfl
        by_cases current : (cur.version : Int) = u.baseVersion
        · have accepted : ¬Refused prim cfg ctx s u := by simp [Refused,checked,head,current]
          simp only [Program.run_call,exec,Mem.updateFile,mem,names,head,current,ne_eq,not_true_eq_false,if_false,
            finishUpload,run_publish]
          exact ⟨_,_,rfl,.written accepted rfl rfl ⟨_,rfl⟩⟩
        · simp only [Program.run_call,exec,Mem.updateFile,mem,names,head,current,ne_eq,not_false_eq_true,if_true,
            Mem.getFile]
          exact ⟨_,_,rfl,.conflicting checked put ⟨cur,head,current⟩ rfl rfl (by rw [← mem])⟩

/-- Refusal depends on the heads only. -/
theorem Refused.of_mem {prim : Primitives} {cfg : Config} {ctx : Context} {s after : State} {u : FileJSON}
    (mem : after.mem = s.mem) (refused : Refused prim cfg ctx s u) : Refused prim cfg ctx after u := by
  simpa only [Refused,mem] using refused

/-- The blobs of the valid live uploads are stored. -/
def BlobsStored (uploads : List FileJSON) : Prop :=
  ∀ u ∈ uploads, validateIncomingFile prim cfg u = none → u.deleted = false →
    (s.blobs.get (blobKey u.contentHash)).isSome = true

variable {prim cfg ctx fault s}

/-- A refused upload leaves the store; it leaves the blobs too when its own is there. -/
theorem Uploaded.refused {u : FileJSON} {item : BatchResultItem} {after : State}
    (uploaded : Uploaded prim cfg ctx fault s u item after) (refused : Refused prim cfg ctx s u) :
    item.record = none ∧ after.mem = s.mem ∧
      (∀ key, (s.blobs.get key).isSome = true → (after.blobs.get key).isSome = true) ∧
      (item.error ≠ lit "internal" → validateIncomingFile prim cfg u = none → u.deleted = false →
        (after.blobs.get (blobKey u.contentHash)).isSome = true) ∧
      (BlobsStored prim cfg s [u] → after = s) := by
  obtain ⟨mem,more,there,same,-⟩ := storing_blobs fault s u
  cases uploaded with
  | invalid bad none error unchanged =>
    subst unchanged
    exact ⟨none,rfl,fun _ there => there,fun _ valid => absurd valid bad,fun _ => rfl⟩
  | unstored valid fails none error unchanged =>
    subst unchanged
    exact ⟨none,mem,more,fun fine => absurd error fine,fun stored => same (stored u (List.mem_singleton_self u) valid)⟩
  | conflicting valid stored stale none error unchanged =>
    subst unchanged
    exact ⟨none,mem,more,fun _ _ => there stored,fun stored => same (stored u (List.mem_singleton_self u) valid)⟩
  | written accepted some error feed => exact absurd refused accepted

variable (prim cfg ctx fault) in
/-- A batch whose uploads are all refused. -/
theorem run_batchUploads_refused (uploads : List FileJSON) (results : List BatchResultItem)
    (next : List BatchResultItem → Handler) (s : State) (refused : ∀ u ∈ uploads, Refused prim cfg ctx s u) :
    ∃ items after, (batchUploads prim cfg ctx uploads results next).run (exec fault) s =
        (next (results ++ items)).run (exec fault) after ∧
      items.filterMap (fun item => item.record) = [] ∧ after.mem = s.mem ∧
      (∀ key, (s.blobs.get key).isSome = true → (after.blobs.get key).isSome = true) ∧
      ((∀ item ∈ items, item.error ≠ lit "internal") → BlobsStored prim cfg after uploads) ∧
      (BlobsStored prim cfg s uploads → after = s) := by
  induction uploads generalizing results s with
  | nil => exact ⟨[],s,by simp [batchUploads],rfl,rfl,fun _ there => there,by simp [BlobsStored],fun _ => rfl⟩
  | cons u rest ih =>
    obtain ⟨item,between,first,uploaded⟩ := run_batchUpload prim cfg ctx fault s u
      (fun item => batchUploads prim cfg ctx rest (results ++ [item]) next)
    obtain ⟨none,mem,more,there,same⟩ := uploaded.refused (refused u List.mem_cons_self)
    obtain ⟨items,after,second,nones,mems,mores,theres,sames⟩ := ih (results ++ [item]) between
      (fun v member => (refused v (List.mem_cons_of_mem u member)).of_mem mem)
    refine ⟨item::items,after,?_,?_,mems.trans mem,fun key found => mores key (more key found),?_,?_⟩
    · rw [batchUploads,first,second,List.append_assoc]
      rfl
    · rw [List.filterMap_cons,none]
      exact nones
    · intro fine v member valid live
      rcases List.mem_cons.mp member with rfl | inside
      · exact mores _ (there (fine item List.mem_cons_self) valid live)
      · exact theres (fun other inside => fine other (List.mem_cons_of_mem item inside)) v inside valid live
    · intro stored
      have unchanged : between = s := same (fun v member =>
        stored v (List.mem_singleton.mp member ▸ List.mem_cons_self))
      rw [unchanged] at sames
      exact sames (fun v member => stored v (List.mem_cons_of_mem u member))

variable (prim cfg ctx) in
/-- With working storage every accepted upload is one record in the answer and one row in the feed. -/
theorem run_batchUploads_stored (uploads : List FileJSON) (results : List BatchResultItem)
    (next : List BatchResultItem → Handler) (s : State) :
    ∃ items after, (batchUploads prim cfg ctx uploads results next).run (exec false) s =
        (next (results ++ items)).run (exec false) after ∧
      after.mem.changes.length = s.mem.changes.length + (items.filterMap (fun item => item.record)).length ∧
      (∀ item ∈ items, item.error ≠ lit "internal") ∧
      ((∃ u ∈ uploads, ¬Refused prim cfg ctx s u) → items.filterMap (fun item => item.record) ≠ []) := by
  induction uploads generalizing results s with
  | nil => exact ⟨[],s,by simp [batchUploads],rfl,by simp,by simp⟩
  | cons u rest ih =>
    obtain ⟨item,between,first,uploaded⟩ := run_batchUpload prim cfg ctx false s u
      (fun item => batchUploads prim cfg ctx rest (results ++ [item]) next)
    obtain ⟨items,after,second,count,fine,some⟩ := ih (results ++ [item]) between
    obtain ⟨mem,-,-,-,works⟩ := storing_blobs false s u
    have step : (batchUploads prim cfg ctx (u::rest) results next).run (exec false) s =
        (next (results ++ item::items)).run (exec false) after := by
      rw [batchUploads,first,second,List.append_assoc]
      rfl
    have later : ∀ refused : Refused prim cfg ctx s u, between.mem = s.mem → item.record = none →
        item.error ≠ lit "internal" →
        after.mem.changes.length = s.mem.changes.length +
          ((item::items).filterMap (fun item => item.record)).length ∧
        (∀ other ∈ item::items, other.error ≠ lit "internal") ∧
        ((∃ v ∈ u::rest, ¬Refused prim cfg ctx s v) → (item::items).filterMap (fun item => item.record) ≠ []) := by
      intro refused same none error
      rw [List.filterMap_cons,none]
      refine ⟨same ▸ count,List.forall_mem_cons.mpr ⟨error,fine⟩,?_⟩
      rintro ⟨v,member,accepted⟩
      rcases List.mem_cons.mp member with rfl | inside
      · exact absurd refused accepted
      · exact some ⟨v,inside,fun there => accepted (there.of_mem same.symm)⟩
    cases uploaded with
    | invalid bad none error unchanged =>
      exact ⟨_,after,step,later (.inl bad) (by rw [unchanged]) none (by rw [error]; decide)⟩
    | unstored valid fails none error unchanged => exact absurd (works rfl) (by simp [fails])
    | conflicting valid stored stale none error unchanged =>
      exact ⟨_,after,step,later (.inr stale) (by rw [unchanged,mem]) none (by rw [error]; decide)⟩
    | written accepted written error feed =>
      obtain ⟨record,there⟩ := Option.isSome_iff_exists.mp written
      obtain ⟨c,longer⟩ := feed
      refine ⟨_,after,step,?_,List.forall_mem_cons.mpr ⟨by rw [error]; decide,fine⟩,fun _ => ?_⟩
      · rw [List.filterMap_cons,there,count,longer]
        simp only [List.length_append,List.length_cons,List.length_nil]
        omega
      · rw [List.filterMap_cons,there]
        exact List.cons_ne_nil _ _

theorem run_readBlob (key : Str) (next : BlobRead → Handler) (fault : Bool) (s : State) :
    (readBlob key next).run (exec fault) s = (next (exec fault s (.getBlob key)).1).run (exec fault) s := by
  simp only [readBlob,Program.run_call]
  have same : (exec fault s (.getBlob key)).2 = s := by
    simp only [exec]
    split
    · rfl
    · split <;> rfl
  rw [same]

/-- The records of the downloads of a batch. -/
def downloaded (ctx : Context) (m : Mem FileJSON) (ids : List Str) : List FileJSON :=
  ids.filterMap (fun id => (m.files.get (Mem.fileKey ctx.accountID id)).map (fun f => toFileJSON f []))

variable (ctx fault s) in
theorem run_batchDownloads (ids : List Str) (results : List BatchResultItem) (next : List BatchResultItem → Handler) :
    ∃ items, (batchDownloads ctx ids results next).run (exec fault) s = (next (results ++ items)).run (exec fault) s ∧
      items.filterMap (fun item => item.record) = downloaded ctx s.mem ids ∧
      ∀ item ∈ items, item.error ≠ lit "internal" := by
  induction ids generalizing results with
  | nil => exact ⟨[],by simp [batchDownloads],rfl,by simp⟩
  | cons id rest ih =>
    have extend : ∀ (item : BatchResultItem) (record : Option FileJSON), item.record = record →
        (s.mem.files.get (Mem.fileKey ctx.accountID id)).map (fun f => toFileJSON f []) = record →
        item.error ≠ lit "internal" →
        (batchDownloads ctx (id::rest) results next).run (exec fault) s =
          (batchDownloads ctx rest (results ++ [item]) next).run (exec fault) s →
        ∃ items, (batchDownloads ctx (id::rest) results next).run (exec fault) s =
            (next (results ++ items)).run (exec fault) s ∧
          items.filterMap (fun item => item.record) = downloaded ctx s.mem (id::rest) ∧
          ∀ item ∈ items, item.error ≠ lit "internal" := by
      intro item record here there error step
      obtain ⟨items,second,records,fine⟩ := ih (results ++ [item])
      refine ⟨item::items,?_,?_,List.forall_mem_cons.mpr ⟨error,fine⟩⟩
      · rw [step,second,List.append_assoc]
        rfl
      · rw [List.filterMap_cons,downloaded,List.filterMap_cons,here,there,records]
        rfl
    cases head : s.mem.files.get (Mem.fileKey ctx.accountID id) with
    | none =>
      refine extend (failedItem id "not_found" none) none rfl (by rw [head]; rfl)
        (show lit "not_found" ≠ lit "internal" by decide) ?_
      simp only [batchDownloads,Program.run_call,exec,Mem.getFile,head]
    | some f =>
      have read : ∀ content, (⟨id,true,[],none,some (toFileJSON f []),content⟩ : BatchResultItem).error ≠
          lit "internal" := fun _ => by show ([] : Str) ≠ lit "internal"; decide
      cases gone : f.deleted with
      | true =>
        refine extend ⟨id,true,[],none,some (toFileJSON f []),[]⟩ (some (toFileJSON f [])) rfl (by rw [head]; rfl)
          (read _) ?_
        simp only [batchDownloads,Program.run_call,exec,Mem.getFile,head,gone,if_true]
      | false =>
        obtain ⟨content,step⟩ : ∃ content, (batchDownloads ctx (id::rest) results next).run (exec fault) s =
            (batchDownloads ctx rest (results ++ [⟨id,true,[],none,some (toFileJSON f []),content⟩]) next).run (exec fault) s := by
          simp only [batchDownloads,Program.run_call,exec,Mem.getFile,head,gone,Bool.false_eq_true,if_false]
          rw [run_readBlob]
          cases (exec fault s (.getBlob f.blobKey)).1 <;> exact ⟨_,rfl⟩
        exact extend _ (some (toFileJSON f [])) rfl (by rw [head]; rfl) (read _) step

end

/-! ### Exactly which requests are safe -/

section
variable (prim : Primitives) (cfg : Config) (ctx : Context) (s : State)

/-- One execution of a batch with working storage. -/
theorem batch_served_stored (uploads : List FileJSON) (downloads : List Str)
    (small : ¬batchTotal uploads > cfg.maxBatchBytes) (now : Nat) :
    ∃ written, ((Mutation.batch uploads downloads).served prim cfg ctx s ⟨now,false⟩).1.Succeeded ∧
      ((Mutation.batch uploads downloads).served prim cfg ctx s ⟨now,false⟩).1.records =
        written ++ downloaded ctx ((Mutation.batch uploads downloads).served prim cfg ctx s ⟨now,false⟩).2.mem downloads ∧
      ((Mutation.batch uploads downloads).served prim cfg ctx s ⟨now,false⟩).2.mem.changes.length =
        s.mem.changes.length + written.length ∧
      ((∃ u ∈ uploads, ¬Refused prim cfg ctx s u) → written ≠ []) := by
  obtain ⟨items,after,run,count,fine,written⟩ := run_batchUploads_stored prim cfg {ctx with now := now} uploads []
    (fun results => batchDownloads {ctx with now := now} downloads results fun results => .done (.batch results)) s
  obtain ⟨reads,rest,records,readable⟩ := run_batchDownloads {ctx with now := now} false after downloads ([] ++ items)
    (fun results => .done (.batch results))
  have out : (Mutation.batch uploads downloads).served prim cfg ctx s ⟨now,false⟩ = (.batch (items ++ reads),after) := by
    show (handleBatch prim cfg {ctx with now := now} uploads downloads).run (exec false) s = _
    rw [handleBatch,if_neg small,run,rest]
    rfl
  rw [out]
  refine ⟨items.filterMap (fun item => item.record),?_,?_,count,fun some => written some⟩
  · intro item member
    rcases List.mem_append.mp member with inside | inside
    · exact fine item inside
    · exact readable item inside
  · show (items ++ reads).filterMap (fun item => item.record) = _
    rw [List.filterMap_append,records]
    rfl

/-- One execution of a batch whose uploads are all refused. -/
theorem batch_served_refused (uploads : List FileJSON) (downloads : List Str)
    (small : ¬batchTotal uploads > cfg.maxBatchBytes) (refused : ∀ u ∈ uploads, Refused prim cfg ctx s u) (o : Occasion) :
    ((Mutation.batch uploads downloads).served prim cfg ctx s o).1.records = downloaded ctx s.mem downloads ∧
      ((Mutation.batch uploads downloads).served prim cfg ctx s o).2.mem = s.mem ∧
      (((Mutation.batch uploads downloads).served prim cfg ctx s o).1.Succeeded →
        BlobsStored prim cfg ((Mutation.batch uploads downloads).served prim cfg ctx s o).2 uploads) ∧
      (BlobsStored prim cfg s uploads → ((Mutation.batch uploads downloads).served prim cfg ctx s o).2 = s) := by
  obtain ⟨items,after,run,nones,mem,-,there,same⟩ :=
    run_batchUploads_refused prim cfg {ctx with now := o.now} o.fault uploads [] (fun results =>
      batchDownloads {ctx with now := o.now} downloads results fun results => .done (.batch results)) s refused
  obtain ⟨reads,rest,records,-⟩ := run_batchDownloads {ctx with now := o.now} o.fault after downloads ([] ++ items)
    (fun results => .done (.batch results))
  have out : (Mutation.batch uploads downloads).served prim cfg ctx s o = (.batch (items ++ reads),after) := by
    show (handleBatch prim cfg {ctx with now := o.now} uploads downloads).run (exec o.fault) s = _
    rw [handleBatch,if_neg small,run,rest]
    rfl
  rw [out]
  refine ⟨?_,mem,fun success => there (fun item member => success item (List.mem_append_left _ member)),same⟩
  show (items ++ reads).filterMap (fun item => item.record) = _
  rw [List.filterMap_append,nones,records,mem]
  rfl

theorem batch_replaySafe_iff (uploads : List FileJSON) (downloads : List Str) :
    ReplaySafe prim cfg ctx (.batch uploads downloads) s ↔
      cfg.maxBatchBytes < batchTotal uploads ∨ ∀ u ∈ uploads, Refused prim cfg ctx s u := by
  by_cases large : batchTotal uploads > cfg.maxBatchBytes
  · refine ⟨fun _ => .inl large,fun _ first success => ?_⟩
    simp only [Mutation.served,Mutation.request,handle,handleBatch,if_pos large] at success
    exact success.elim
  have small : ¬cfg.maxBatchBytes < batchTotal uploads := large
  simp only [small,false_or]
  constructor
  · intro safe
    by_contra some
    have accepted : ∃ u ∈ uploads, ¬Refused prim cfg ctx s u := by simpa using some
    obtain ⟨written,success,records,-,nonempty⟩ := batch_served_stored prim cfg ctx s uploads downloads large 0
    obtain ⟨again,-,repeats,count,-⟩ := batch_served_stored prim cfg ctx
      ((Mutation.batch uploads downloads).served prim cfg ctx s ⟨0,false⟩).2 uploads downloads large 0
    obtain ⟨same,files⟩ := safe ⟨0,false⟩ success [] ⟨0,false⟩
    simp only [Mutation.repeated,List.foldl_nil] at same files
    -- an equal feed leaves no record for the second execution to return
    have none : again = [] := by
      rw [files.changes] at count
      exact List.eq_nil_of_length_eq_zero (by omega)
    rw [repeats,records,none,downloaded,downloaded,files.files] at same
    exact nonempty accepted (List.append_cancel_right same.symm)
  · intro refused first success between last
    obtain ⟨records,mem,there,-⟩ := batch_served_refused prim cfg ctx s uploads downloads large refused first
    generalize after : (Mutation.batch uploads downloads).served prim cfg ctx s first = out at *
    have still : ∀ u ∈ uploads, Refused prim cfg ctx out.2 u := fun u member => (refused u member).of_mem mem
    have stays : ∀ o, ((Mutation.batch uploads downloads).served prim cfg ctx out.2 o).2 = out.2 := fun o =>
      (batch_served_refused prim cfg ctx out.2 uploads downloads large still o).2.2.2 (there success)
    dsimp only
    rw [repeated_fixed stays between,stays last,records]
    refine ⟨?_,.refl _⟩
    rw [(batch_served_refused prim cfg ctx out.2 uploads downloads large still last).1,mem]

end

theorem serverRun_keyed (prim : Primitives) (cfg : Config) (moves : List (Move Request Bool)) :
    Keyed (serverRun prim cfg moves).shared.mem := by
  refine System.calls_invariant (handle prim cfg) exec Allowed (fun _ _ => True)
    (fun system => Keyed system.shared.mem) (handle_keeps prim cfg) (fun _ _ keyed => keyed)
    (fun system index env op next log keyed _ _ _ _ => (exec_head env system.shared op).keyed keyed)
    (System.initial State.empty) moves ?_ (System.initial_disciplined Allowed State.empty) (guarded_trivial _ _ moves)
  intro key f found
  simp [System.initial,State.empty,Mem.newMem] at found

/-- In every reachable state a keyed request is safe to replay exactly when it is
a create or an update, or cannot write at all. -/
theorem replay_safe_iff (prim : Primitives) (cfg : Config) (ctx : Context) (moves : List (Move Request Bool))
    (m : Mutation) (carries : m.Carries ctx) :
    ReplaySafe prim cfg ctx m (serverRun prim cfg moves).shared ↔
      Replayable prim cfg ctx (serverRun prim cfg moves).shared m := by
  cases m with
  | post req => exact ⟨fun _ => trivial,fun _ => post_replaySafe req carries _⟩
  | put fileID req => exact ⟨fun _ => trivial,fun _ => put_replaySafe fileID req carries _⟩
  | delete fileID => exact delete_replaySafe_iff _ ctx fileID (serverRun_keyed prim cfg moves)
  | restore fileID version key => exact restore_replaySafe_iff _ ctx fileID version key
  | batch uploads downloads => exact batch_replaySafe_iff prim cfg ctx _ uploads downloads

section
open KnownAnswers (sample)

private def limits : Config := ⟨1000000,1000000,10⟩

/-- A request context with an `Idempotency-Key` header. -/
private def keyedContext : Context := ⟨lit "alice",lit "laptop",lit "retry-1",1⟩

private def helloFile : FileJSON :=
  ⟨lit "11111111-1111-4111-8111-111111111111",lit "bWV0YQ",lit "aGVsbG8",
    lit "2cf24dba5fb0a30e26e83b2ac5b9e29e1b161e5c1fa7425e73043362938b9824",0,0,.empty,false,5,0,[],0,[]⟩

theorem keyed_create_replays :
    (Mutation.post helloFile).Carries keyedContext ∧
      ReplaySafe sample limits keyedContext (.post helloFile) (serverRun sample limits []).shared := by
  have carries : (Mutation.post helloFile).Carries keyedContext := .inl (by decide)
  exact ⟨carries,(replay_safe_iff sample limits keyedContext [] (.post helloFile) carries).mpr trivial⟩

/-- The file is created by a request without a key. -/
private def helloCreated : List (Move Request Bool) :=
  .spawn (.post {keyedContext with idempotencyHeader := []} helloFile)::List.replicate 3 (.step 0 false)

/-- A repeated delete with the same key writes a second tombstone. -/
theorem keyed_delete_repeats :
    (Mutation.delete helloFile.fileID).Carries keyedContext ∧
      ¬ReplaySafe sample limits keyedContext (.delete helloFile.fileID)
        (serverRun sample limits helloCreated).shared := by
  refine ⟨by show lit "retry-1" ≠ []; decide,fun safe => ?_⟩
  have absent := (delete_replaySafe_iff _ keyedContext helloFile.fileID
    (serverRun_keyed sample limits helloCreated)).mp safe
  have present : ((serverRun sample limits helloCreated).shared.mem.files.get
      (Mem.fileKey keyedContext.accountID helloFile.fileID)).isSome = true := by decide
  rw [absent] at present
  contradiction

end
end NPSync.Server
