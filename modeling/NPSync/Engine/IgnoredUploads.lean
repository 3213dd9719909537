import NPSync.Engine.Events
import NPSync.KnownAnswers
import NPSync.Library.Run

/-! Uploads of ignored files. A run saves files, handles file-system events, scans
roots, works off the queue and reloads the ignore rules in any order. -/
namespace NPSync.Engine
open Library

/-- The requests of one exchange, answered from a list; after it there is no network. -/
structure Line where
  answers : List ApiResponse
  calls : List ApiCall

def Line.request (line : Line) (call : ApiCall) : ApiResponse × Line :=
  (line.answers.headD ⟨false,0,.null⟩,⟨line.answers.tail,line.calls ++ [call]⟩)

def isUpload : ApiCall → Bool
  | .createFile _ | .updateFile .. => true
  | .deleteFile _ | .getFile _ => false

/-- The engine with the rules it holds. `queued` lists the queued operations with
what the rules said of their path at that time, `sent` has for every upload
request whether its operation was queued for an ignored path. -/
structure Watch where
  rules : List (Str × IgnoreRules)
  here : Local
  batch : List PendingOp
  queued : List (Nat × Bool)
  sent : List Bool

/-- A step of a run. `refresh` reloads the rules, `pass` starts a round of the
worker, `work` processes the next operation of the round, and `other` is any
change of the device's files, rows and roots. -/
inductive Doing where
  | saved (active : Bool) (absPath : WStr) (now : Int)
  | fsEvent (active : Bool) (ev : FsEvent) (isDirectory : Bool) (now : Int)
  | scan (active : Bool) (full : WStr) (now : Int)
  | refresh (rules : List (Str × IgnoreRules))
  | pass
  | work (io : UploadIo) (answers : List ApiResponse)
  | other (next : Local)

/-- The path of a key relative to its root. -/
def rootRelative (key : Str) : Str := (key.dropWhile (· ≠ 58)).tail

section
variable (plat : Platform) (dev : Device)

def Watch.device (w : Watch) : Device := {dev with rootRules := w.rules}

def Watch.ignores (w : Watch) (key : Str) : Bool := ignored (w.device dev) (rootRelative key) false

/-- The state with a new queue; new operations are entered into `queued`. -/
def Watch.queue (w : Watch) (db : LocalDb) : Watch :=
  {w with
    here := {w.here with db := db}
    queued := w.queued ++ (db.pendingOps.filter (fun op => w.here.db.nextOpId ≤ op.id)).map
      (fun op => (op.id,w.ignores dev op.relPath))}

/-- The operation was queued for a path that the rules ignored then. -/
def Watch.queuedIgnored (w : Watch) (op : PendingOp) : Bool :=
  match w.queued.find? (fun entry => entry.1 = op.id) with
  | some entry => entry.2
  | none => true

/-- The run of one operation over a list of answers. -/
def Watch.worked (w : Watch) (op : PendingOp) (io : UploadIo) (answers : List ApiResponse) : (Outcome × Local) × Line :=
  (processPendingOp plat (w.device dev) w.here op io).run Line.request ⟨answers,[]⟩

def Watch.step (w : Watch) : Doing → Watch
  | .saved active absPath now => w.queue dev (onFileSaved plat.win w.here.db active absPath now)
  | .fsEvent active ev isDirectory now => w.queue dev (onFsEvent plat.win w.here.db active ev isDirectory now)
  | .scan active full now =>
    if active then w.queue dev (scanFile plat.win (w.device dev) w.here.db full now) else w
  | .refresh rules => {w with rules := rules}
  | .pass => {w with batch := w.here.db.pendingOps}
  | .work io answers =>
    match w.batch with
    | [] => w
    | op::rest =>
      let out := w.worked plat dev op io answers
      {w with
        here := out.1.2
        batch := rest
        sent := w.sent ++ (out.2.calls.filter isUpload).map (fun _ => w.queuedIgnored op)}
  | .other next =>
    {w with here := {next with db := {next.db with pendingOps := w.here.db.pendingOps,nextOpId := w.here.db.nextOpId}}}

def Watch.initial (rules : List (Str × IgnoreRules)) (l : Local) : Watch :=
  ⟨rules,{l with db := {l.db with pendingOps := []}},[],[],[]⟩

/-- No upload request was sent for a file that was ignored when it was queued. -/
def Watch.IgnoredKept (w : Watch) : Prop := ∀ ignored ∈ w.sent, ignored = false

theorem Watch.not_kept {w : Watch} (sent : w.sent = [true]) : ¬w.IgnoredKept := by
  intro kept
  have wrong := kept true (by rw [sent]; exact List.mem_singleton_self true)
  contradiction

/-- The condition on a step: a save, or an event that queues an upload, is not for an ignored path. -/
def QueueGuard (w : Watch) : Doing → Prop
  | .saved active absPath _ => active = true → ∀ key ∈ keyOf plat.win w.here.db absPath, w.ignores dev key = false
  | .fsEvent active ev isDirectory _ => active = true → ∀ key ∈ keyOf plat.win w.here.db ev.absPath,
    ev.kind = .renamedTo ∨ ((ev.kind = .created ∨ ev.kind = .modified) ∧ isDirectory = false) →
      w.ignores dev key = false
  | _ => True

/-- What holds along a run: operations are numbered below the counter, and the
uploads among them were queued for paths that were not ignored. -/
structure Watch.Clean (w : Watch) : Prop where
  below : ∀ op ∈ w.here.db.pendingOps ++ w.batch, op.id < w.here.db.nextOpId
  entered : ∀ entry ∈ w.queued, entry.1 < w.here.db.nextOpId
  uploads : ∀ op ∈ w.here.db.pendingOps ++ w.batch, op.kind = .upload → w.queuedIgnored op = false
  sent : w.IgnoredKept

/-- One operation of the given kind is queued. -/
theorem Watch.Clean.enqueue {w : Watch} (clean : w.Clean) (kind : OpKind) (relPath newRelPath : Str) (now : Int)
    (allowed : kind = .upload → w.ignores dev relPath = false) :
    (w.queue dev (w.here.db.enqueueOp kind relPath newRelPath now)).Clean := by
  have entries : (w.queue dev (w.here.db.enqueueOp kind relPath newRelPath now)).queued =
      w.queued ++ [(w.here.db.nextOpId,w.ignores dev relPath)] := by
    have old : ∀ op ∈ w.here.db.pendingOps.filter (fun op => !decide (op.relPath = relPath ∧ op.kind = kind)),
        ¬(w.here.db.nextOpId ≤ op.id) := by
      intro op member
      have bound := clean.below op (List.mem_append_left _ (List.mem_of_mem_filter member))
      omega
    simp only [Watch.queue,LocalDb.enqueueOp,List.filter_append]
    rw [List.filter_eq_nil_iff.mpr (fun op member => by simpa using old op member)]
    simp
  have lookup : ∀ op : PendingOp, op.id < w.here.db.nextOpId →
      (w.queue dev (w.here.db.enqueueOp kind relPath newRelPath now)).queuedIgnored op = w.queuedIgnored op := by
    intro op bound
    have other : ¬w.here.db.nextOpId = op.id := by omega
    simp only [Watch.queuedIgnored,entries,List.find?_append]
    cases w.queued.find? (fun entry => decide (entry.1 = op.id)) <;> simp [other]
  have cases_ : ∀ op ∈ (w.queue dev (w.here.db.enqueueOp kind relPath newRelPath now)).here.db.pendingOps ++ w.batch,
      op ∈ w.here.db.pendingOps ++ w.batch ∨
        op = ⟨w.here.db.nextOpId,kind,relPath,newRelPath,now,0,[]⟩ := by
    intro op member
    rcases List.mem_append.mp member with inside | worked
    · rcases List.mem_append.mp inside with kept | new
      · exact .inl (List.mem_append_left _ (List.mem_of_mem_filter kept))
      · exact .inr (List.mem_singleton.mp new)
    · exact .inl (List.mem_append_right _ worked)
  refine ⟨?_,?_,?_,clean.sent⟩
  · intro op member
    rcases cases_ op member with old | rfl
    · exact Nat.lt_succ_of_lt (clean.below op old)
    · exact Nat.lt_succ_self _
  · rw [entries]
    intro entry member
    rcases List.mem_append.mp member with old | new
    · exact Nat.lt_succ_of_lt (clean.entered entry old)
    · rw [List.mem_singleton.mp new]
      exact Nat.lt_succ_self _
  · intro op member upload
    rcases cases_ op member with old | rfl
    · rw [lookup op (clean.below op old)]
      exact clean.uploads op old upload
    · have fresh : w.queued.find? (fun entry => decide (entry.1 = w.here.db.nextOpId)) = none := by
        refine List.find?_eq_none.mpr (fun entry member => ?_)
        have bound := clean.entered entry member
        simp only [decide_eq_true_eq]
        omega
      simp only [Watch.queuedIgnored,entries,List.find?_append,fresh]
      simpa using allowed upload

theorem Watch.Clean.unqueued {w : Watch} (clean : w.Clean) : (w.queue dev w.here.db).Clean := by
  have none : w.here.db.pendingOps.filter (fun op => decide (w.here.db.nextOpId ≤ op.id)) = [] := by
    refine List.filter_eq_nil_iff.mpr (fun op member => ?_)
    have bound := clean.below op (List.mem_append_left _ member)
    simp only [decide_eq_true_eq]
    omega
  have same : w.queue dev w.here.db = w := by
    simp [Watch.queue,none]
  rw [same]
  exact clean

/-- What a file-system event can do to the queue. -/
theorem onFsEvent_cases (db : LocalDb) (active : Bool) (ev : FsEvent) (isDirectory : Bool) (now : Int) :
    onFsEvent plat.win db active ev isDirectory now = db ∨
    (∃ key, onFsEvent plat.win db active ev isDirectory now = db.enqueueOp .delete key [] now) ∨
    ∃ key, active = true ∧ keyOf plat.win db ev.absPath = some key ∧
      (ev.kind = .renamedTo ∨ ((ev.kind = .created ∨ ev.kind = .modified) ∧ isDirectory = false)) ∧
      onFsEvent plat.win db active ev isDirectory now = db.enqueueOp .upload key [] now := by
  unfold onFsEvent
  cases active with
  | false => exact .inl rfl
  | true =>
    simp only [Bool.not_true,Bool.false_eq_true,if_false]
    cases located : keyOf plat.win db ev.absPath with
    | none =>
      dsimp only
      split
      · split
        · exact .inr (.inl ⟨_,rfl⟩)
        · exact .inl rfl
      · exact .inl rfl
    | some key =>
      dsimp only
      cases kind : ev.kind with
      | created =>
        cases isDirectory with
        | true => exact .inl rfl
        | false => exact .inr (.inr ⟨key,trivial,rfl,by simp,rfl⟩)
      | modified =>
        cases isDirectory with
        | true => exact .inl rfl
        | false => exact .inr (.inr ⟨key,trivial,rfl,by simp,rfl⟩)
      | deleted => exact .inr (.inl ⟨key,rfl⟩)
      | renamedFrom => exact .inl rfl
      | renamedTo => exact .inr (.inr ⟨key,trivial,rfl,by simp,rfl⟩)

/-- Only the processing of an upload sends upload requests. -/
theorem processPendingOp_only (l : Local) (op : PendingOp) (io : UploadIo) (other : op.kind ≠ .upload) :
    (processPendingOp plat dev l op io).Only (fun call => isUpload call = false) := by
  have refusal : ∀ (r : ApiResponse) (l : Local),
      (refused r "delete failed" l).Only (fun call => isUpload call = false) := by
    intro r l
    unfold refused
    split <;> trivial
  unfold processPendingOp
  split
  · rename_i upload
    exact absurd upload other
  · refine Program.Only.bind ?_ (fun out => trivial)
    unfold deleteRemote
    dsimp only
    split
    · trivial
    split
    · trivial
    refine ⟨rfl,fun r => ?_⟩
    dsimp only
    split
    · trivial
    split
    · trivial
    · exact refusal r _
  · trivial

theorem line_calls {A : Type} (kind : ApiCall → Prop) (program : Program ApiCall (fun _ => ApiResponse) A)
    (only : program.Only kind) (line : Line) :
    ∀ call ∈ (program.run Line.request line).2.calls, call ∈ line.calls ∨ kind call := by
  induction program generalizing line with
  | done value => exact fun call member => .inl member
  | call op next ih =>
    intro call member
    rcases ih _ (only.2 _) _ call member with logged | fine
    · rcases List.mem_append.mp logged with old | new
      · exact .inl old
      · exact .inr (List.mem_singleton.mp new ▸ only.1)
    · exact .inr fine

theorem Watch.Clean.work {w : Watch} (clean : w.Clean) (io : UploadIo) (answers : List ApiResponse) :
    (w.step plat dev (.work io answers)).Clean := by
  unfold Watch.step
  cases ops : w.batch with
  | nil => exact clean
  | cons op rest =>
    dsimp only
    obtain ⟨-,next,left⟩ := (processPendingOp_queue plat (w.device dev) w.here op io).run Line.request ⟨answers,[]⟩
    have member : ∀ other ∈ (w.worked plat dev op io answers).1.2.db.pendingOps ++ rest,
        ∃ old ∈ w.here.db.pendingOps ++ w.batch, old.id = other.id ∧ old.kind = other.kind := by
      intro other inside
      rcases List.mem_append.mp inside with queued | worked
      · obtain ⟨old,found,id,kind,-⟩ := left other queued
        exact ⟨old,List.mem_append_left _ found,id,kind⟩
      · exact ⟨other,List.mem_append_right _ (ops ▸ List.mem_cons_of_mem _ worked),rfl,rfl⟩
    refine ⟨?_,?_,?_,?_⟩
    · intro other inside
      obtain ⟨old,found,id,-⟩ := member other inside
      have bound := clean.below old found
      show other.id < (w.worked plat dev op io answers).1.2.db.nextOpId
      have same : (w.worked plat dev op io answers).1.2.db.nextOpId = w.here.db.nextOpId := next
      omega
    · intro entry inside
      have bound := clean.entered entry inside
      have same : (w.worked plat dev op io answers).1.2.db.nextOpId = w.here.db.nextOpId := next
      show entry.1 < (w.worked plat dev op io answers).1.2.db.nextOpId
      omega
    · intro other inside upload
      obtain ⟨old,found,id,kind⟩ := member other inside
      have before := clean.uploads old found (kind.trans upload)
      simpa only [Watch.queuedIgnored,id] using before
    · intro ignored inside
      rcases List.mem_append.mp inside with old | new
      · exact clean.sent ignored old
      obtain ⟨call,request,same⟩ := List.mem_map.mp new
      obtain ⟨logged,isUp⟩ := List.mem_filter.mp request
      by_cases upload : op.kind = .upload
      · rw [← same]
        exact clean.uploads op (List.mem_append_right _ (ops ▸ List.mem_cons_self)) upload
      · rcases line_calls _ _ (processPendingOp_only plat (w.device dev) w.here op io upload) ⟨answers,[]⟩ call logged with
          none | other
        · exact absurd none List.not_mem_nil
        · exact Bool.noConfusion (isUp.symm.trans other)

theorem step_clean (w : Watch) (doing : Doing) (clean : w.Clean) (guard : QueueGuard plat dev w doing) :
    (w.step plat dev doing).Clean := by
  cases doing with
  | saved active absPath now =>
    simp only [Watch.step,onFileSaved]
    cases active with
    | false => exact clean.unqueued dev
    | true =>
      simp only [Bool.not_true,Bool.false_eq_true,if_false]
      split
      · exact clean.unqueued dev
      · rename_i key located
        exact clean.enqueue dev .upload key [] now (fun _ => guard rfl key located)
  | fsEvent active ev isDirectory now =>
    simp only [Watch.step]
    rcases onFsEvent_cases plat w.here.db active ev isDirectory now with
      same | ⟨key,same⟩ | ⟨key,signed,located,kind,same⟩
    · rw [same]
      exact clean.unqueued dev
    · rw [same]
      exact clean.enqueue dev .delete key [] now (fun upload => OpKind.noConfusion upload)
    · rw [same]
      exact clean.enqueue dev .upload key [] now (fun _ => guard signed key located kind)
  | scan active full now =>
    simp only [Watch.step,scanFile]
    split
    · split
      · exact clean.unqueued dev
      rename_i key located
      split
      · exact clean.unqueued dev
      rename_i seen
      split
      · exact clean.unqueued dev
      · exact clean.enqueue dev .upload key [] now (fun _ => Bool.eq_false_iff.mpr seen)
    · exact clean
  | refresh rules => exact ⟨clean.below,clean.entered,clean.uploads,clean.sent⟩
  | pass =>
    have twice : ∀ op ∈ w.here.db.pendingOps ++ w.here.db.pendingOps, op ∈ w.here.db.pendingOps ++ w.batch := by
      intro op member
      rcases List.mem_append.mp member with inside | inside <;> exact List.mem_append_left _ inside
    exact ⟨fun op member => clean.below op (twice op member),clean.entered,
      fun op member => clean.uploads op (twice op member),clean.sent⟩
  | work io answers => exact clean.work plat dev io answers
  | other next => exact ⟨clean.below,clean.entered,clean.uploads,clean.sent⟩

/-- In every run whose saves and events are not for ignored paths, no upload
request is sent for a file that was ignored when it was queued. -/
theorem ignored_never_uploaded (rules : List (Str × IgnoreRules)) (l : Local) (doings : List Doing)
    (guarded : Guarded (Watch.step plat dev) (QueueGuard plat dev) (Watch.initial rules l) doings) :
    (run (Watch.step plat dev) (Watch.initial rules l) doings).IgnoredKept := by
  have start : (Watch.initial rules l).Clean :=
    ⟨by simp [Watch.initial],by simp [Watch.initial],by simp [Watch.initial],by simp [Watch.initial,Watch.IgnoredKept]⟩
  exact (run_invariant (Watch.step plat dev) (QueueGuard plat dev) Watch.Clean (step_clean plat dev)
    (Watch.initial rules l) doings start guarded).sent

instance (w : Watch) (doing : Doing) : Decidable (QueueGuard plat dev w doing) :=
  match doing with
  | .saved _ _ _ => inferInstanceAs (Decidable (_ → ∀ key ∈ keyOf plat.win w.here.db _,_))
  | .fsEvent _ _ _ _ => inferInstanceAs (Decidable (_ → ∀ key ∈ keyOf plat.win w.here.db _,_))
  | .scan _ _ _ | .refresh _ | .pass | .work _ _ | .other _ => .isTrue trivial

end

section
open KnownAnswers

/-- The root `C:\\notes` holds the one file `notes.txt`. -/
private def notesHere : Local :=
  ⟨LocalDb.empty.addSyncRoot ascii (lit "root") (wlit "C:\\notes") true,
    ⟨Table.empty.upsert (wlit "c:\\notes\\notes.txt") (lit "hello"),[]⟩,.empty,[],true⟩

private def notesDraws : Random := ⟨nonceOf 1,nonceOf 2,uuidOf 17⟩

private def notesIo : UploadIo :=
  ⟨true,.replaced,notesDraws,notesDraws,true,true,.replaced,⟨0,true⟩,.replaced,.replaced,0⟩

/-- The file is saved, and the worker uploads it. -/
private def saveAndWork : List Doing := [
  .saved true (wlit "C:\\notes\\notes.txt") 0,.pass,
  .work notesIo [⟨true,201,.obj [(lit "version",.num 1)]⟩]]

private def rulesOf (text : String) : List (Str × IgnoreRules) := [(lit "root",IgnoreRules.parse (lit text))]

theorem unignored_save_uploaded :
    Guarded (Watch.step platform laptop) (QueueGuard platform laptop)
        (Watch.initial (rulesOf "*.tmp\n") notesHere) saveAndWork ∧
      (run (Watch.step platform laptop) (Watch.initial (rulesOf "*.tmp\n") notesHere) saveAndWork).sent = [false] ∧
      (run (Watch.step platform laptop) (Watch.initial (rulesOf "*.tmp\n") notesHere) saveAndWork).IgnoredKept := by
  have facts : Guarded (Watch.step platform laptop) (QueueGuard platform laptop)
        (Watch.initial (rulesOf "*.tmp\n") notesHere) saveAndWork ∧
      (run (Watch.step platform laptop) (Watch.initial (rulesOf "*.tmp\n") notesHere) saveAndWork).sent =
        [false] := by
    decide +kernel
  exact ⟨facts.1,facts.2,ignored_never_uploaded platform laptop _ _ _ facts.1⟩

/-- `onFileSaved` queues a file that the rules ignore, and it is uploaded. -/
theorem ignored_save_uploaded :
    ¬(run (Watch.step platform laptop) (Watch.initial (rulesOf "*.txt\n") notesHere) saveAndWork).IgnoredKept := by
  have sent : (run (Watch.step platform laptop) (Watch.initial (rulesOf "*.txt\n") notesHere) saveAndWork).sent =
      [true] := by
    decide +kernel
  exact Watch.not_kept sent

end
end NPSync.Engine
