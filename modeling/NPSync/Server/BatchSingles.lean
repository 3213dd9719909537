import NPSync.KnownAnswers
import NPSync.Server.Replay
import NPSync.Server.Retained

/-! A batch beside the same uploads sent one by one. The two differ in the pruning
that only `handleUpdateFile` does. -/
namespace NPSync.Server
open Library

section
variable (prim : Primitives) (cfg : Config) (ctx : Context) (fault : Bool)

/-- What one upload does to the server when `prune` follows a replaced head. -/
def applied (prune : State → State) (s : State) (u : FileJSON) : State :=
  if validateIncomingFile prim cfg u ≠ none then s
  else
    let put := storing fault s u
    if !put.1 then put.2
    else match put.2.mem.files.get (Mem.fileKey ctx.accountID u.fileID) with
      | none =>
        let head := created ctx u put.2.mem
        published fault (committed ctx u put.2 head) ctx head
      | some cur =>
        if (cur.version : Int) = u.baseVersion then
          let head := updated ctx u put.2.mem cur
          published fault (prune (committed ctx u put.2 head)) ctx head
        else put.2

/-- A valid upload sent on its own and without an idempotency key in the header, as
`POST` if its file is absent and as `PUT` if not. -/
def single (s : State) (u : FileJSON) : State :=
  if validateIncomingFile prim cfg u ≠ none then s
  else match s.mem.files.get (Mem.fileKey ctx.accountID u.fileID) with
    | none => ((handle prim cfg (.post {ctx with idempotencyHeader := []} u)).run (exec fault) s).2
    | some _ => ((handle prim cfg (.put {ctx with idempotencyHeader := []} u.fileID u)).run (exec fault) s).2

/-- The upload replaces a head, and its file has then more versions than are kept. -/
def Prunes (s : State) (u : FileJSON) : Prop :=
  validateIncomingFile prim cfg u = none ∧ (storing fault s u).1 = true ∧
    (∃ cur ∈ s.mem.files.get (Mem.fileKey ctx.accountID u.fileID), (cur.version : Int) = u.baseVersion) ∧
    0 < cfg.versionRetention ∧ cfg.versionRetention < (s.mem.history (Mem.fileKey ctx.accountID u.fileID)).length + 1

instance (s : State) (u : FileJSON) : Decidable (Prunes prim cfg ctx fault s u) :=
  inferInstanceAs (Decidable (_ ∧ _ ∧ _ ∧ _ ∧ _))

/-- No upload of the list prunes when the list is sent one by one. -/
def WithinRetention : State → List FileJSON → Prop
  | _,[] => True
  | s,u::rest => ¬Prunes prim cfg ctx fault s u ∧ WithinRetention (single prim cfg ctx fault s u) rest

instance decidableWithinRetention : (s : State) → (uploads : List FileJSON) →
    Decidable (WithinRetention prim cfg ctx fault s uploads)
  | _,[] => .isTrue trivial
  | s,u::rest =>
    have := decidableWithinRetention (single prim cfg ctx fault s u) rest
    inferInstanceAs (Decidable (_ ∧ _))

end

/-- The same heads, histories, feed, blobs and events. -/
structure SameServer (a b : State) : Prop where
  heads : ∀ key, a.mem.files.get key = b.mem.files.get key
  histories : ∀ key, a.mem.history key = b.mem.history key
  feed : a.mem.changes = b.mem.changes
  blobs : ∀ key, a.blobs.get key = b.blobs.get key
  events : a.events = b.events

section
variable (prim : Primitives) (cfg : Config) (ctx : Context) (fault : Bool) (s : State)

theorem run_batchUpload_applied (u : FileJSON) (next : BatchResultItem → Handler) :
    ∃ item, (batchUpload prim cfg ctx u next).run (exec fault) s =
      (next item).run (exec fault) (applied prim cfg ctx fault id s u) := by
  unfold batchUpload applied
  cases checked : validateIncomingFile prim cfg u with
  | some err => exact ⟨failedItem u.fileID "invalid_request" none,by simp⟩
  | none =>
    dsimp only
    rw [run_storeBlob]
    cases put : (storing fault s u).1 with
    | false => exact ⟨failedItem u.fileID "internal" none,by simp⟩
    | true =>
      have names : Mem.fileKey (recordFromRequest ctx u).accountID (recordFromRequest ctx u).fileID =
          Mem.fileKey ctx.accountID u.fileID := rfl
      simp only [ne_eq,not_true_eq_false,Bool.not_true,Bool.false_eq_true,if_false,Program.run_call,exec,Mem.getFile]
      cases head : (storing fault s u).2.mem.files.get (Mem.fileKey ctx.accountID u.fileID) with
      | none =>
        simp only [Program.run_call,exec,Mem.createFile,names,head,finishUpload,run_publish]
        exact ⟨_,rfl⟩
      | some cur =>
        by_cases current : (cur.version : Int) = u.baseVersion
        · simp only [Program.run_call,exec,Mem.updateFile,names,head,current,ne_eq,not_true_eq_false,if_false,
            finishUpload,run_publish]
          exact ⟨_,rfl⟩
        · simp only [Program.run_call,exec,Mem.updateFile,names,head,current,ne_eq,not_false_eq_true,if_true,
            Mem.getFile,if_false]
          exact ⟨_,rfl⟩

theorem run_batchUploads_applied (uploads : List FileJSON) (results : List BatchResultItem)
    (next : List BatchResultItem → Handler) :
    ∃ items, (batchUploads prim cfg ctx uploads results next).run (exec fault) s =
      (next items).run (exec fault) (uploads.foldl (applied prim cfg ctx fault id) s) := by
  induction uploads generalizing results s with
  | nil => exact ⟨results,rfl⟩
  | cons u rest ih =>
    obtain ⟨item,first⟩ := run_batchUpload_applied prim cfg ctx fault s u
      (fun item => batchUploads prim cfg ctx rest (results ++ [item]) next)
    obtain ⟨items,second⟩ := ih (applied prim cfg ctx fault id s u) (results ++ [item])
    exact ⟨items,by rw [batchUploads,first,second]; rfl⟩

theorem handleBatch_applied (uploads : List FileJSON) (downloads : List Str) (fits : batchTotal uploads ≤ cfg.maxBatchBytes) :
    ((handleBatch prim cfg ctx uploads downloads).run (exec fault) s).2 =
      uploads.foldl (applied prim cfg ctx fault id) s := by
  unfold handleBatch
  rw [if_neg (by omega)]
  obtain ⟨items,same⟩ := run_batchUploads_applied prim cfg ctx fault s uploads [] (fun results =>
    batchDownloads ctx downloads results fun results => .done (.batch results))
  obtain ⟨more,tail,-⟩ := run_batchDownloads ctx fault (uploads.foldl (applied prim cfg ctx fault id) s) downloads items
    (fun results => .done (.batch results))
  rw [same,tail]
  rfl

/-- The same for a single request, which prunes. -/
theorem single_applied (u : FileJSON) (keyless : u.idempotencyKey = []) :
    single prim cfg ctx fault s u = applied prim cfg ctx fault (fun s => pruning fault s cfg ctx u.fileID) s u := by
  have absent : ∀ state, storedResponse state {ctx with idempotencyHeader := []} u.idempotencyKey = none := by
    intro state
    rw [keyless]
    rfl
  have unsaved : ∀ state response, answered state {ctx with idempotencyHeader := []} u.idempotencyKey response = state := by
    intro state response
    rw [keyless]
    rfl
  have names : Mem.fileKey (recordFromRequest {ctx with idempotencyHeader := []} u).accountID
      (recordFromRequest {ctx with idempotencyHeader := []} u).fileID = Mem.fileKey ctx.accountID u.fileID := rfl
  obtain ⟨mem,-⟩ := storing_blobs fault s u
  unfold single applied
  cases checked : validateIncomingFile prim cfg u with
  | some err => rfl
  | none =>
    have replaced : handle prim cfg (.put {ctx with idempotencyHeader := []} u.fileID u) =
        replaceFile prim cfg {ctx with idempotencyHeader := []} u := by
      have named := (validateIncomingFile_valid prim cfg checked).named
      simp only [handle,handleUpdateFile,named,Bool.not_true,Bool.false_eq_true,if_false]
    rw [replaced]
    simp only [ne_eq,not_true_eq_false,if_false,handle,handleCreateFile,replaceFile,checked,run_checkIdempotency,
      run_storeBlob,absent]
    generalize storing fault s u = out at mem ⊢
    rcases out with ⟨ok,⟨after,blobs,events⟩⟩
    obtain rfl : after = s.mem := mem
    cases ok with
    | false => cases s.mem.files.get (Mem.fileKey ctx.accountID u.fileID) <;> rfl
    | true =>
      simp only [Bool.not_true,Bool.false_eq_true,if_false]
      cases head : s.mem.files.get (Mem.fileKey ctx.accountID u.fileID) with
      | none =>
        simp only [Program.run_call,exec,Mem.createFile,names,head,run_publish,run_saveIdempotency,unsaved,Program.run_done]
        rfl
      | some cur =>
        by_cases current : (cur.version : Int) = u.baseVersion
        · simp only [Program.run_call,exec,Mem.updateFile,names,head,current,ne_eq,not_true_eq_false,if_false,if_true,
            run_pruneVersions,run_publish,run_saveIdempotency,unsaved,Program.run_done]
          rfl
        · simp only [Program.run_call,exec,Mem.updateFile,names,head,current,ne_eq,not_false_eq_true,if_true,if_false,
            Mem.getFile,Program.run_done]

/-! ### Where the two part -/

theorem deleting_events (keys : List Str) : (deleting fault s keys).events = s.events := by
  induction keys generalizing s with
  | nil => rfl
  | cons key rest ih =>
    refine (ih _).trans ?_
    cases fault <;> rfl

/-- Pruning changes histories and blobs only. -/
theorem pruning_frame (fileID : Str) :
    (pruning fault s cfg ctx fileID).mem.changes = s.mem.changes ∧ (pruning fault s cfg ctx fileID).mem.nextSeq = s.mem.nextSeq ∧
      (pruning fault s cfg ctx fileID).events = s.events := by
  unfold pruning
  split
  · exact ⟨rfl,rfl,rfl⟩
  · dsimp only
    rw [deleting_mem,deleting_events]
    simp only [exec,Mem.pruneVersions]
    split <;> simp

/-- Pruning does nothing as long as the history fits. -/
theorem pruning_fits (fileID : Str) (fits : 0 < cfg.versionRetention →
    ((s.mem.history (Mem.fileKey ctx.accountID fileID)).length : Int) ≤ cfg.versionRetention) :
    pruning fault s cfg ctx fileID = s := by
  unfold pruning
  split
  · rfl
  · rename_i positive
    have room : (s.mem.history (Mem.fileKey ctx.accountID fileID)).length ≤ cfg.versionRetention.toNat := by
      have bound := fits (by omega)
      omega
    simp only [exec,Mem.pruneVersions,if_pos room]
    rfl

/-- A history that does not fit is cut to the retention. -/
theorem pruning_cuts (fileID : Str) (positive : 0 < cfg.versionRetention)
    (long : cfg.versionRetention < (s.mem.history (Mem.fileKey ctx.accountID fileID)).length) :
    ((pruning fault s cfg ctx fileID).mem.history (Mem.fileKey ctx.accountID fileID)).length = cfg.versionRetention.toNat := by
  unfold pruning
  rw [if_neg (by omega)]
  dsimp only
  rw [deleting_mem]
  have exceeds : ¬(s.mem.history (Mem.fileKey ctx.accountID fileID)).length ≤ cfg.versionRetention.toNat := by omega
  simp only [exec,Mem.pruneVersions,if_neg exceeds]
  simp only [Mem.history,Table.get_upsert_same,Option.getD_some,List.length_drop] at exceeds ⊢
  omega

theorem storing_frame (u : FileJSON) : (storing fault s u).1 = (u.deleted || !fault) ∧ (storing fault s u).2.mem = s.mem ∧
    (storing fault s u).2.events = s.events := by
  unfold storing
  by_cases gone : u.deleted = true
  · simp [gone]
  by_cases failing : fault = true
  · simp [gone,failing,exec]
  · simp only [gone,failing,exec,Bool.false_eq_true,if_false]
    split <;> simp

/-- The single uploads have left the same heads, feed and events, and histories that are no longer. -/
structure Trails (batched singly : State) : Prop where
  files : singly.mem.files = batched.mem.files
  changes : singly.mem.changes = batched.mem.changes
  nextSeq : singly.mem.nextSeq = batched.mem.nextSeq
  events : singly.events = batched.events
  shorter : ∀ key, (singly.mem.history key).length ≤ (batched.mem.history key).length

def Shortened (batched singly : State) : Prop := ∃ key, (singly.mem.history key).length < (batched.mem.history key).length

variable {fault s} {batched singly : State}

omit prim cfg ctx in
theorem Trails.refl (s : State) : Trails s s := ⟨rfl,rfl,rfl,rfl,fun _ => Nat.le_refl _⟩

omit prim cfg in
/-- Both sides commit a record; the single side may then have lost old versions. -/
theorem Trails.commit (trails : Trails batched singly) (u : FileJSON) (head : FileRecord) {after : State}
    (pruned : Pruned (committed ctx u singly head) after (Mem.fileKey ctx.accountID u.fileID))
    (frame : after.mem.changes = (committed ctx u singly head).mem.changes ∧
      after.mem.nextSeq = (committed ctx u singly head).mem.nextSeq ∧ after.events = singly.events) :
    Trails (published fault (committed ctx u batched head) ctx head) (published fault after ctx head) ∧
      (Shortened batched singly → Shortened (published fault (committed ctx u batched head) ctx head) (published fault after ctx head)) := by
  have longer : ∀ key, (after.mem.history key).length ≤ ((singly.mem.commit (Mem.fileKey ctx.accountID u.fileID) head).history key).length :=
    fun key => (pruned.fewer key).length_le
  have grown : ∀ (m : Mem FileJSON) key, ((m.commit (Mem.fileKey ctx.accountID u.fileID) head).history key).length =
      (m.history key).length + if key = Mem.fileKey ctx.accountID u.fileID then 1 else 0 := by
    intro m key
    rw [Mem.commit_history]
    split
    · rename_i here
      rw [here,List.length_append,List.length_singleton]
    · rfl
  refine ⟨⟨?_,?_,?_,?_,?_⟩,?_⟩
  · rw [published_mem,published_mem,pruned.files]
    simp only [committed,Mem.commit,trails.files]
  · rw [published_mem,published_mem,frame.1]
    simp only [committed,Mem.commit,trails.changes]
  · rw [published_mem,published_mem,frame.2.1]
    simp only [committed,Mem.commit,trails.nextSeq]
  · simp only [published,exec,frame.2.2,trails.events,committed]
  · intro key
    have before := trails.shorter key
    have bound := longer key
    rw [grown] at bound
    rw [published_mem,published_mem,committed,grown]
    omega
  · rintro ⟨key,less⟩
    refine ⟨key,?_⟩
    have bound := longer key
    rw [grown] at bound
    rw [published_mem,published_mem,committed,grown]
    omega

omit prim cfg ctx in
/-- Neither side has written a record. -/
theorem Trails.same (trails : Trails batched singly) {after other : State} (here : after.mem = batched.mem)
    (there : other.mem = singly.mem) (events : other.events = after.events) :
    Trails after other ∧ (Shortened batched singly → Shortened after other) := by
  refine ⟨⟨?_,?_,?_,events,?_⟩,?_⟩
  · rw [here,there,trails.files]
  · rw [here,there,trails.changes]
  · rw [here,there,trails.nextSeq]
  · intro key
    rw [here,there]
    exact trails.shorter key
  · rintro ⟨key,less⟩
    exact ⟨key,by rw [here,there]; exact less⟩

variable (fault)

/-- One upload, in the batch and on its own. -/
theorem Trails.upload (trails : Trails batched singly) (u : FileJSON) :
    Trails (applied prim cfg ctx fault id batched u) (applied prim cfg ctx fault (fun s => pruning fault s cfg ctx u.fileID) singly u) ∧
      (Shortened batched singly ∨ Prunes prim cfg ctx fault singly u →
        Shortened (applied prim cfg ctx fault id batched u)
          (applied prim cfg ctx fault (fun s => pruning fault s cfg ctx u.fileID) singly u)) := by
  obtain ⟨okB,memB,eventsB⟩ := storing_frame fault batched u
  obtain ⟨okS,memS,eventsS⟩ := storing_frame fault singly u
  have still : ∀ {after other : State}, after.mem = batched.mem → other.mem = singly.mem → other.events = after.events →
      ¬Prunes prim cfg ctx fault singly u → Trails after other ∧
        (Shortened batched singly ∨ Prunes prim cfg ctx fault singly u → Shortened after other) := by
    intro after other here there events fits
    obtain ⟨same,kept⟩ := trails.same here there events
    exact ⟨same,fun either => kept (either.resolve_right fits)⟩
  unfold applied
  by_cases valid : validateIncomingFile prim cfg u = none
  case neg =>
    rw [if_pos valid,if_pos valid]
    exact still rfl rfl trails.events fun prunes => valid prunes.1
  rw [if_neg (not_not.mpr valid),if_neg (not_not.mpr valid)]
  dsimp only
  by_cases stored : (storing fault singly u).1 = true
  case neg =>
    have failed : (!(storing fault singly u).1) = true := by simpa using stored
    have also_ : (!(storing fault batched u).1) = true := by rw [okB,← okS]; exact failed
    rw [if_pos failed,if_pos also_]
    exact still memB memS (by rw [eventsS,eventsB,trails.events]) fun prunes => stored prunes.2.1
  have also_ : (storing fault batched u).1 = true := by rw [okB,← okS]; exact stored
  have between : Trails (storing fault batched u).2 (storing fault singly u).2 :=
    (trails.same memB memS (by rw [eventsS,eventsB,trails.events])).1
  have shortened : Shortened batched singly → Shortened (storing fault batched u).2 (storing fault singly u).2 :=
    (trails.same memB memS (by rw [eventsS,eventsB,trails.events])).2
  simp only [stored,also_,Bool.not_true,Bool.false_eq_true,if_false,memB,memS,trails.files]
  cases head : batched.mem.files.get (Mem.fileKey ctx.accountID u.fileID) with
  | none =>
    have single : created ctx u singly.mem = created ctx u batched.mem := by rw [created,created,trails.nextSeq]
    dsimp only
    rw [single]
    obtain ⟨after,longer⟩ := between.commit ctx u (created ctx u batched.mem) (Pruned.refl _ _) ⟨rfl,rfl,rfl⟩
    refine ⟨after,fun either => longer (shortened (either.resolve_right fun prunes => ?_))⟩
    obtain ⟨cur,there,-⟩ := prunes.2.2.1
    rw [trails.files,head] at there
    contradiction
  | some cur =>
    dsimp only
    by_cases current : (cur.version : Int) = u.baseVersion
    case neg =>
      rw [if_neg current,if_neg current]
      refine still memB memS (by rw [eventsS,eventsB,trails.events]) fun prunes => ?_
      obtain ⟨other,there,based⟩ := prunes.2.2.1
      rw [trails.files,head] at there
      cases there
      exact current based
    rw [if_pos current,if_pos current]
    have single : updated ctx u singly.mem cur = updated ctx u batched.mem cur := by rw [updated,updated,trails.nextSeq]
    rw [single]
    obtain ⟨changes,nextSeq,events⟩ := pruning_frame cfg ctx fault
      (committed ctx u (storing fault singly u).2 (updated ctx u batched.mem cur)) u.fileID
    obtain ⟨after,longer⟩ := between.commit ctx u (updated ctx u batched.mem cur)
      (pruning_pruned fault _ cfg ctx u.fileID) ⟨changes,nextSeq,events⟩
    refine ⟨after,fun either => ?_⟩
    rcases either with before | prunes
    · exact longer (shortened before)
    · obtain ⟨positive,long⟩ := prunes.2.2.2
      have grown : ∀ s : State, (storing fault s u).2.mem = s.mem →
          ((committed ctx u (storing fault s u).2 (updated ctx u batched.mem cur)).mem.history
            (Mem.fileKey ctx.accountID u.fileID)).length = (s.mem.history (Mem.fileKey ctx.accountID u.fileID)).length + 1 := by
        intro s mem
        simp only [committed,Mem.commit_history,if_pos,List.length_append,List.length_singleton,mem]
      have cut := pruning_cuts cfg ctx fault (committed ctx u (storing fault singly u).2 (updated ctx u batched.mem cur))
        u.fileID positive (by rw [grown singly memS]; push_cast; omega)
      refine ⟨Mem.fileKey ctx.accountID u.fileID,?_⟩
      rw [published_mem,published_mem,cut]
      change _ < ((committed ctx u (storing fault batched u).2 (updated ctx u batched.mem cur)).mem.history _).length
      rw [grown batched memB]
      have bound := trails.shorter (Mem.fileKey ctx.accountID u.fileID)
      omega

/-- Without pruning a single upload is one of a batch. -/
theorem applied_fits (s : State) (u : FileJSON) (fits : ¬Prunes prim cfg ctx fault s u) :
    applied prim cfg ctx fault (fun s => pruning fault s cfg ctx u.fileID) s u = applied prim cfg ctx fault id s u := by
  obtain ⟨-,mem,-⟩ := storing_frame fault s u
  unfold applied
  by_cases valid : validateIncomingFile prim cfg u = none
  case neg => rw [if_pos valid,if_pos valid]
  rw [if_neg (not_not.mpr valid),if_neg (not_not.mpr valid)]
  dsimp only
  by_cases stored : (storing fault s u).1 = true
  case neg =>
    have failed : (!(storing fault s u).1) = true := by simpa using stored
    rw [if_pos failed,if_pos failed]
  simp only [stored,Bool.not_true,Bool.false_eq_true,if_false]
  split
  · rfl
  · rename_i cur head
    split
    · rename_i current
      rw [pruning_fits cfg ctx fault _ u.fileID ?_]
      · rfl
      · intro positive
        rw [mem] at head
        have small : ¬cfg.versionRetention < (s.mem.history (Mem.fileKey ctx.accountID u.fileID)).length + 1 :=
          fun long => fits ⟨valid,stored,⟨cur,head,current⟩,positive,long⟩
        simp only [committed,Mem.commit_history,if_pos,List.length_append,List.length_singleton,mem]
        push_cast
        omega
    · rfl

theorem singles_trail (uploads : List FileJSON) (keyless : ∀ u ∈ uploads, u.idempotencyKey = []) (trails : Trails batched singly)
    (parted : Shortened batched singly) :
    Shortened (uploads.foldl (applied prim cfg ctx fault id) batched) (uploads.foldl (single prim cfg ctx fault) singly) := by
  induction uploads generalizing batched singly with
  | nil => exact parted
  | cons u rest ih =>
    obtain ⟨after,longer⟩ := trails.upload prim cfg ctx fault u
    simp only [List.foldl_cons]
    rw [single_applied prim cfg ctx fault singly u (keyless u List.mem_cons_self)]
    exact ih (fun v member => keyless v (List.mem_cons_of_mem u member)) after (longer (.inl parted))

theorem singles_fold (uploads : List FileJSON) (keyless : ∀ u ∈ uploads, u.idempotencyKey = []) (s : State) :
    (WithinRetention prim cfg ctx fault s uploads →
      uploads.foldl (single prim cfg ctx fault) s = uploads.foldl (applied prim cfg ctx fault id) s) ∧
    (¬WithinRetention prim cfg ctx fault s uploads →
      Shortened (uploads.foldl (applied prim cfg ctx fault id) s) (uploads.foldl (single prim cfg ctx fault) s)) := by
  induction uploads generalizing s with
  | nil => exact ⟨fun _ => rfl,fun out => absurd trivial out⟩
  | cons u rest ih =>
    have alone := single_applied prim cfg ctx fault s u (keyless u List.mem_cons_self)
    have others : ∀ v ∈ rest, v.idempotencyKey = [] := fun v member => keyless v (List.mem_cons_of_mem u member)
    simp only [List.foldl_cons,WithinRetention]
    by_cases prunes : Prunes prim cfg ctx fault s u
    · obtain ⟨after,longer⟩ := (Trails.refl s).upload prim cfg ctx fault u
      refine ⟨fun within => absurd prunes within.1,fun _ => ?_⟩
      rw [alone]
      exact singles_trail prim cfg ctx fault rest others after (longer (.inr prunes))
    · have same := alone.trans (applied_fits prim cfg ctx fault s u prunes)
      obtain ⟨equal,parted⟩ := ih others (single prim cfg ctx fault s u)
      rw [same] at equal parted ⊢
      exact ⟨fun within => equal within.2,fun out => parted fun within => out ⟨prunes,within⟩⟩

end

/-- A batch leaves what its valid uploads leave one by one exactly if none of them
prunes: if the retention is off, or no replaced file gets more versions than it allows. -/
theorem batch_matches_singles_iff (prim : Primitives) (cfg : Config) (ctx : Context) (fault : Bool) (s : State)
    (uploads : List FileJSON) (downloads : List Str) (keyless : ∀ u ∈ uploads, u.idempotencyKey = [])
    (fits : batchTotal uploads ≤ cfg.maxBatchBytes) :
    SameServer ((handle prim cfg (.batch ctx uploads downloads)).run (exec fault) s).2
        (uploads.foldl (single prim cfg ctx fault) s) ↔ WithinRetention prim cfg ctx fault s uploads := by
  obtain ⟨equal,parted⟩ := singles_fold prim cfg ctx fault uploads keyless s
  have batched : ((handle prim cfg (.batch ctx uploads downloads)).run (exec fault) s).2 =
      uploads.foldl (applied prim cfg ctx fault id) s := handleBatch_applied prim cfg ctx fault s uploads downloads fits
  rw [batched]
  constructor
  · intro same
    by_contra out
    obtain ⟨key,less⟩ := parted out
    rw [same.histories key] at less
    exact Nat.lt_irrefl _ less
  · intro within
    rw [equal within]
    exact ⟨fun _ => rfl,fun _ => rfl,rfl,fun _ => rfl,rfl⟩

section
open KnownAnswers (sample)

private def keeps (versions : Int) : Config := ⟨1000000,1000000,versions⟩

private def erik : Context := ⟨lit "erik",lit "laptop",[],1⟩

private def note (text hash : String) (baseVersion : Int) : FileJSON :=
  ⟨lit "55555555-5555-4555-8555-555555555555",lit "bWV0YQ",lit text,lit hash,0,baseVersion,.empty,false,5,0,[],0,[]⟩

/-- A new file and its second version. -/
private def twoVersions : List FileJSON :=
  [note "aGVsbG8" "2cf24dba5fb0a30e26e83b2ac5b9e29e1b161e5c1fa7425e73043362938b9824" 0,
    note "d29ybGQ" "486ea46224d1bb4fb680f34f7c9ad96a8f24ec88be73ea8e5a6c65260e9cb8a7" 1]

theorem two_versions_kept :
    SameServer ((handle sample (keeps 2) (.batch erik twoVersions [])).run (exec false) State.empty).2
      (twoVersions.foldl (single sample (keeps 2) erik false) State.empty) :=
  (batch_matches_singles_iff sample (keeps 2) erik false State.empty twoVersions [] (by decide) (by decide)).mpr
    (by decide)

/-- With one version kept, the batch leaves two. -/
theorem second_version_unpruned : ¬∀ (prim : Primitives) (cfg : Config) (ctx : Context) (fault : Bool) (s : State)
    (uploads : List FileJSON) (downloads : List Str), (∀ u ∈ uploads, u.idempotencyKey = []) →
    batchTotal uploads ≤ cfg.maxBatchBytes →
    SameServer ((handle prim cfg (.batch ctx uploads downloads)).run (exec fault) s).2
      (uploads.foldl (single prim cfg ctx fault) s) := by
  intro claim
  have same := (claim sample (keeps 1) erik false State.empty twoVersions [] (by decide) (by decide)).histories
    (Mem.fileKey (lit "erik") (lit "55555555-5555-4555-8555-555555555555"))
  have lengths : ((((handle sample (keeps 1) (.batch erik twoVersions [])).run (exec false) State.empty).2.mem.history
      (Mem.fileKey (lit "erik") (lit "55555555-5555-4555-8555-555555555555"))).length,
    ((twoVersions.foldl (single sample (keeps 1) erik false) State.empty).mem.history
      (Mem.fileKey (lit "erik") (lit "55555555-5555-4555-8555-555555555555"))).length) = (2,1) := by decide
  rw [same] at lengths
  obtain ⟨two,one⟩ := Prod.mk.inj lengths
  omega

end
end NPSync.Server
