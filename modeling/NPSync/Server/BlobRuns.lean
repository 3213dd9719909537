import Mathlib
import NPSync.Server.BlobFiles

/-! Runs of the blob store on files: every request takes effect at one of its own system
calls, in the order in which `exec` takes the calls, whatever fails or dies. -/
namespace NPSync.Server
open Library

section
variable {dir : Str} {text : Str → Bytes} {v after : BlobVolume} {s : State} {request other : BlobRequest} {stage : Stage} {event : FsEvent}

/-! ### Temporary files under other requests' calls -/

theorem Owns.keep (owns : Owns v request stage)
    (same : ∀ name handle, stage.name = some name → v.names.get name = some (.file handle) →
      after.names.get name = some (.file handle) ∧ after.contents.get handle = v.contents.get handle) : Owns after request stage := by
  cases request with
  | put key content =>
    cases stage with
    | opened handle name =>
      obtain ⟨named,kept⟩ := same name handle rfl owns.1
      exact ⟨named,kept.trans owns.2⟩
    | full handle name =>
      obtain ⟨named,kept⟩ := same name handle rfl owns.1
      exact ⟨named,kept.trans owns.2⟩
    | _ => trivial
  | get key =>
    cases stage with
    | opened handle name => exact owns.elim
    | _ => trivial
  | delete key =>
    cases stage with
    | opened handle name => exact owns.elim
    | _ => trivial

theorem owns_cleared (v : BlobVolume) (request : BlobRequest) : Owns v request .cleared := by
  cases request with
  | put key content => trivial
  | get key => trivial
  | delete key => trivial

/-- A file that is new, or whose name is new, is no other request's. -/
theorem BlobStep.owns_other (step : BlobStep dir v request stage event after) (tidy : Tidy dir text v s)
    (asked : BlobAsked text request) (owns : Owns v request stage) {second : Stage} (theirs : Owns v other second)
    (temps : ∀ name, second.name = some name → IsTemp name)
    (apart : ∀ name, stage.name = some name → second.name ≠ some name) : Owns after other second := by
  have placedApart : ∀ {name key path : Str}, second.name = some name → isHex64 key = true → blobPath dir key = some path →
      name ≠ path := by
    intro name key path named hex placed
    obtain ⟨inside,random,rfl⟩ := temps name named
    exact tempName_apart hex placed inside random
  refine theirs.keep fun name handle named held => ?_
  cases step with
  | quiet stays harmless => exact ⟨held,rfl⟩
  | directories stays pointless dirs added outside => exact ⟨(added.file_iff name handle).mpr held,by rw [added.contents]⟩
  | drafted drafted temp new opens pointless =>
    have different : name ≠ drafted := by
      rintro rfl
      rw [new] at held
      contradiction
    exact ⟨(Table.get_upsert_other _ _ _ _ different).trans held,
      Table.get_upsert_other _ _ _ _ (Nat.ne_of_lt (tidy.files name handle held))⟩
  | @written key content data mine own event fills pointless =>
    have different : handle ≠ mine := by
      rintro rfl
      exact apart own rfl (tidy.single name own handle held owns.1 ▸ named)
    rw [Volume.append_names,Volume.append_contents,if_neg different]
    exact ⟨held,rfl⟩
  | @published key path content mine own event placed moves point =>
    have different : name ≠ own := by
      rintro rfl
      exact apart name rfl named
    refine ⟨?_,rfl⟩
    dsimp only
    rw [Table.get_upsert_other _ _ _ _ (placedApart named asked.1 placed),Table.get_remove_other _ _ _ different]
    exact held
  | @discarded request stage event after own gone mine clears pointless removed =>
    have different : name ≠ own := by
      rintro rfl
      exact apart name mine named
    rw [removed.others name different,removed.contents]
    exact ⟨held,rfl⟩
  | deleted placed stays point removed =>
    rw [removed.others name (placedApart named asked placed),removed.contents]
    exact ⟨held,rfl⟩

theorem BlobStep.owns_mine (step : BlobStep dir v request stage event after) (owns : Owns v request stage) :
    Owns after request (stage.step event) := by
  cases step with
  | quiet stays harmless =>
    rcases stays with same | cleared
    · rw [same]
      exact owns
    · rw [cleared]
      exact owns_cleared v request
  | directories stays pointless dirs added outside =>
    rw [stays]
    exact owns.keep fun name handle named held => ⟨(added.file_iff name handle).mpr held,by rw [added.contents]⟩
  | drafted name temp new opens pointless =>
    rw [opens]
    exact ⟨Table.get_upsert_same _ _ _,Table.get_upsert_same _ _ _⟩
  | written fills pointless =>
    rcases fills with ⟨full,rfl⟩ | broken
    · rw [full]
      refine ⟨by rw [Volume.append_names]; exact owns.1,?_⟩
      rw [Volume.append_contents,if_pos rfl,owns.2]
      rfl
    · rw [broken]
      trivial
  | published placed moves point =>
    rw [moves]
    trivial
  | discarded mine clears pointless removed =>
    rw [clears]
    exact owns_cleared after request
  | deleted placed stays point removed =>
    rw [stays]
    trivial

/-! ### Open files under other requests' calls -/

theorem BlobStep.next_le (step : BlobStep dir v request stage event after) : v.next ≤ after.next := by
  cases step with
  | quiet stays harmless => exact Nat.le_refl _
  | directories stays pointless dirs added outside => exact Nat.le_of_eq added.next.symm
  | drafted name temp new opens pointless => exact Nat.le_succ _
  | written fills pointless => exact Nat.le_of_eq (Volume.append_next _ _ _).symm
  | published placed moves point => exact Nat.le_refl _
  | discarded mine clears pointless removed => exact Nat.le_of_eq removed.next.symm
  | deleted placed stays point removed => exact Nat.le_of_eq removed.next.symm

/-- A file that nobody is writing stays as it is, whatever becomes of its name. -/
theorem BlobStep.contents_kept (step : BlobStep dir v request stage event after) {handle : Nat} (old : handle < v.next)
    (closed : ∀ name, stage ≠ .opened handle name) : after.contents.get handle = v.contents.get handle := by
  cases step with
  | quiet stays harmless => rfl
  | directories stays pointless dirs added outside => rw [added.contents]
  | drafted name temp new opens pointless => exact Table.get_upsert_other _ _ _ _ (Nat.ne_of_lt old)
  | @written key content data mine name event fills pointless =>
    rw [Volume.append_contents,if_neg]
    rintro rfl
    exact closed name rfl
  | published placed moves point => rfl
  | discarded mine clears pointless removed => rw [removed.contents]
  | deleted placed stays point removed => rw [removed.contents]

/-- No request comes to write a file that is there. -/
theorem BlobStep.opened_new (step : BlobStep dir v request stage event after) {handle : Nat} {name : Str}
    (opens : stage.step event = .opened handle name) : stage = .opened handle name ∨ handle = v.next := by
  cases step with
  | quiet stays harmless =>
    rcases stays with same | cleared
    · exact .inl (same.symm.trans opens)
    · rw [cleared] at opens
      contradiction
  | directories stays pointless dirs added outside => exact .inl (stays.symm.trans opens)
  | drafted drafted temp new made pointless =>
    rw [made] at opens
    exact .inr (Stage.opened.inj opens).1.symm
  | written fills pointless =>
    rcases fills with ⟨full,-⟩ | broken
    · rw [full] at opens
      contradiction
    · rw [broken] at opens
      contradiction
  | published placed moves point =>
    rw [moves] at opens
    contradiction
  | discarded mine clears pointless removed =>
    rw [clears] at opens
    contradiction
  | deleted placed stays point removed => exact .inl (stays.symm.trans opens)

/-- A new temporary name is one that the call was given. -/
theorem BlobStep.temp_new (step : BlobStep dir v request stage event after) (temps : ∀ name, stage.name = some name → IsTemp name)
    {name : Str} (named : (stage.step event).name = some name) : IsTemp name := by
  cases step with
  | quiet stays harmless =>
    rcases stays with same | cleared
    · exact temps name (same ▸ named)
    · rw [cleared] at named
      contradiction
  | directories stays pointless dirs added outside => exact temps name (stays ▸ named)
  | drafted drafted temp new opens pointless =>
    rw [opens] at named
    exact Option.some.inj named ▸ temp
  | written fills pointless =>
    rcases fills with ⟨full,-⟩ | broken
    · exact temps name (by rw [full] at named; exact named)
    · exact temps name (by rw [broken] at named; exact named)
  | published placed moves point => exact temps name (by rw [moves] at named; exact named)
  | discarded mine clears pointless removed =>
    rw [clears] at named
    contradiction
  | deleted placed stays point removed => exact temps name (stays ▸ named)

end

/-! ### Reads -/

/-- A request to read is answered as the blobs stand at its point. -/
def Agrees (text : Str → Bytes) (s : State) : BlobRequest → FsEvent → Prop
  | .get key,⟨.openFile _,.found _⟩ => s.blobs.get key = some (text key)
  | .get key,⟨.openFile _,.missing⟩ => s.blobs.get key = none
  | _,_ => True

/-- The files that a request to read has open, and what it has read of them. -/
structure Reading (text : Str → Bytes) (v : BlobVolume) (key : Str) (log : List FsEvent) : Prop where
  holds : ∀ path handle, ⟨.openFile path,.found handle⟩ ∈ log → handle < v.next ∧ v.contents.get handle = some (text key)
  reads : ∀ handle content, ⟨.read handle,some content⟩ ∈ log → content = text key

section
variable {dir : Str} {text : Str → Bytes} {v : BlobVolume} {s : State} {request : BlobRequest} {log : List FsEvent}

/-- A file that opens under the name of a blob is that blob, and no temporary file. -/
theorem opened_blob (tidy : Tidy dir text v s) (env : SysEnv) {key path : Str} {op : FsCall} (asked : BlobAsked text (.get key))
    (allowed : BlobAllowed dir (.get key) log op) {handle : Nat}
    (opened : (⟨op,(Volume.exec insideDir env v op).1⟩ : FsEvent) = ⟨.openFile path,.found handle⟩) :
    log = [] ∧ blobPath dir key = some path ∧ v.names.get path = some (.file handle) ∧ v.contents.get handle = some (text key) ∧
      s.blobs.get key = some (text key) := by
  obtain rfl : op = .openFile path := congrArg Event.op opened
  obtain ⟨empty,placed⟩ := allowed
  have found : v.openFile env path = .found handle := eq_of_heq (Event.mk.inj opened).2
  have named := Volume.openFile_found found
  have whole := tidy.whole key path asked placed (by rw [named]; simp)
  exact ⟨empty,placed,named,Volume.fileAt_eq named ▸ whole,(tidy.blobs key path asked placed).symm.trans whole⟩

theorem open_agrees (tidy : Tidy dir text v s) (env : SysEnv) {op : FsCall} (asked : BlobAsked text request)
    (allowed : BlobAllowed dir request log op) : Agrees text s request ⟨op,(Volume.exec insideDir env v op).1⟩ := by
  cases request with
  | put key content => trivial
  | delete key => trivial
  | get key =>
    cases op with
    | openFile path =>
      cases result : v.openFile env path with
      | failed => 
        change Agrees text s (.get key) ⟨.openFile path,v.openFile env path⟩
        rw [result]
        trivial
      | found handle =>
        change Agrees text s (.get key) ⟨.openFile path,v.openFile env path⟩
        rw [result]
        exact (opened_blob tidy env asked allowed (congrArg (Event.mk (SysCall.openFile path)) result)).2.2.2.2
      | missing =>
        change Agrees text s (.get key) ⟨.openFile path,v.openFile env path⟩
        rw [result]
        change s.blobs.get key = none
        rw [← tidy.blobs key path asked allowed.2,Volume.fileAt,Volume.openFile_missing result]
    | _ => trivial

/-- A read gets the blob that was opened. -/
theorem Reading.snoc {key : Str} (reading : Reading text v key log) (tidy : Tidy dir text v s) (env : SysEnv) {op : FsCall}
    (asked : BlobAsked text (.get key)) (allowed : BlobAllowed dir (.get key) log op) :
    Reading text v key (log ++ [⟨op,(Volume.exec insideDir env v op).1⟩]) := by
  refine ⟨?_,?_⟩
  · intro path handle member
    rcases List.mem_append.mp member with old | new
    · exact reading.holds path handle old
    · obtain ⟨-,-,named,content,-⟩ := opened_blob tidy env asked allowed (List.mem_singleton.mp new).symm
      exact ⟨tidy.files path handle named,content⟩
  · intro handle content member
    rcases List.mem_append.mp member with old | new
    · exact reading.reads handle content old
    · have same := (List.mem_singleton.mp new).symm
      obtain rfl : op = .read handle := congrArg Event.op same
      have result : (if env.fails then none else v.contents.get handle) = some content := eq_of_heq (Event.mk.inj same).2
      split at result
      · contradiction
      obtain ⟨path,size,rfl⟩ := allowed
      have held := (reading.holds path handle List.mem_cons_self).2
      exact Option.some.inj (result.symm.trans held)

theorem Reading.keep {key : Str} (reading : Reading text v key log) {after : BlobVolume} (grows : v.next ≤ after.next)
    (kept : ∀ path handle, ⟨.openFile path,.found handle⟩ ∈ log → after.contents.get handle = v.contents.get handle) :
    Reading text after key log := by
  refine ⟨?_,reading.reads⟩
  intro path handle member
  have held := reading.holds path handle member
  exact ⟨Nat.lt_of_lt_of_le held.1 grows,(kept path handle member).trans held.2⟩

end

/-! ### Runs -/

/-- The temporary name that the next call of a program would be given. -/
def nextTemp (env : SysEnv) : FsProgram → Option Str
  | .call (.createTemp _ names) _ => some (names env.random)
  | _ => none

/-- A temporary name is not that of a request still running. -/
def FreshTemp (l : BlobLedger) : BlobMove → Prop
  | .spawn _ => True
  | .step index env => ∀ name ∈ (l.threads[index]?).bind (fun thread => nextTemp env thread.program),
      ∀ thread ∈ l.threads, (stageOf thread.log).name ≠ some name

instance decidableFreshTemp (l : BlobLedger) : (first : BlobMove) → Decidable (FreshTemp l first)
  | .spawn _ => .isTrue trivial
  | .step _ _ => inferInstanceAs (Decidable (∀ _ ∈ _,_))

structure BlobInv (dir : Str) (text : Str → Bytes) (start : State) (l : BlobLedger) : Prop where
  tidy : Tidy dir text l.shared (replayBlobs start l.history)
  owns : ∀ index request program log, l.Serves index request program log → Owns l.shared request (stageOf log)
  temps : ∀ index request program log, l.Serves index request program log → ∀ name, (stageOf log).name = some name → IsTemp name
  apart : ∀ first second request other program rest log calls, first ≠ second → l.Serves first request program log →
    l.Serves second other rest calls → ∀ name, (stageOf log).name = some name → (stageOf calls).name ≠ some name
  reading : ∀ index key program log, l.Serves index (.get key) program log → Reading text l.shared key log
  closed : ∀ index key program log path handle, l.Serves index (.get key) program log → ⟨.openFile path,.found handle⟩ ∈ log →
    ∀ second other rest calls name, l.Serves second other rest calls → stageOf calls ≠ .opened handle name
  agrees : Ledger.Earlier (fun entry past => Agrees text (replayBlobs start past) entry.request entry.event) l.history

theorem replayBlobs_snoc (start : State) (history : List BlobEntry) (entry : BlobEntry) :
    replayBlobs start (history ++ [entry]) = replayPoint (replayBlobs start history) (pointOf entry.request entry.event) := by
  rw [replayBlobs,List.foldl_append]
  rfl

/-- A temporary name that a call gave is made of its number. -/
theorem tempOf_exec {env : SysEnv} {v : BlobVolume} {op : FsCall} {name : Str}
    (given : tempOf ⟨op,(Volume.exec insideDir env v op).1⟩ = some name) :
    ∃ inside names, op = .createTemp inside names ∧ name = names env.random := by
  cases op with
  | createTemp inside names =>
    change tempOf ⟨.createTemp inside names,(v.createTemp env inside (names env.random)).1⟩ = some name at given
    cases created : (v.createTemp env inside (names env.random)).1 with
    | none =>
      rw [created] at given
      contradiction
    | some file =>
      obtain ⟨handle,made⟩ := file
      rw [created] at given
      exact ⟨inside,names,rfl,(Option.some.inj given).symm.trans (Volume.createTemp_made created).2.1⟩
  | _ => contradiction

theorem Owns.named {v : BlobVolume} {request : BlobRequest} {handle : Nat} {name : Str} (owns : Owns v request (.opened handle name)) :
    v.names.get name = some (.file handle) := by
  cases request with
  | put key content => exact owns.1
  | get key => exact owns.elim
  | delete key => exact owns.elim

theorem owns_idle (v : BlobVolume) (request : BlobRequest) : Owns v request .idle := by
  cases request with
  | put key content => trivial
  | get key => trivial
  | delete key => trivial

section
variable {dir : Str} {text : Str → Bytes} {start : State} {l : BlobLedger}

theorem BlobInv.spawned (inv : BlobInv dir text start l) (logged : l.Logged) (request : BlobRequest) :
    BlobInv dir text start (Ledger.spawned (serveBlob dir) l request) := by
  refine ⟨inv.tidy,?_,?_,?_,?_,?_,inv.agrees⟩
  · intro index asked program log serves
    rcases Ledger.serves_spawned logged.sized serves with old | ⟨-,-,-,rfl⟩
    · exact inv.owns index asked program log old
    · exact owns_idle _ _
  · intro index asked program log serves name named
    rcases Ledger.serves_spawned logged.sized serves with old | ⟨-,-,-,rfl⟩
    · exact inv.temps index asked program log old name named
    · contradiction
  · intro first second asked other program rest log calls different serves theirs name named
    rcases Ledger.serves_spawned logged.sized serves with old | ⟨-,-,-,rfl⟩
    · rcases Ledger.serves_spawned logged.sized theirs with older | ⟨-,-,-,rfl⟩
      · exact inv.apart first second asked other program rest log calls different old older name named
      · rw [stageOf_nil]
        simp [Stage.name]
    · contradiction
  · intro index key program log serves
    rcases Ledger.serves_spawned logged.sized serves with old | ⟨-,-,-,rfl⟩
    · exact inv.reading index key program log old
    · exact ⟨fun _ _ member => absurd member List.not_mem_nil,fun _ _ member => absurd member List.not_mem_nil⟩
  · intro index key program log path handle serves member second other rest calls name theirs
    rcases Ledger.serves_spawned logged.sized serves with old | ⟨-,-,-,rfl⟩
    · rcases Ledger.serves_spawned logged.sized theirs with older | ⟨-,-,-,rfl⟩
      · exact inv.closed index key program log path handle old member second other rest calls name older
      · rw [stageOf_nil]
        simp
    · exact absurd member List.not_mem_nil

theorem BlobInv.called (inv : BlobInv dir text start l) {index : Nat} {env : SysEnv} {request : BlobRequest} {op : FsCall}
    {next : op.Result → FsProgram} {log : List FsEvent} (asked : BlobAsked text request)
    (fresh : FreshTemp l (.step index env)) (allowed : BlobAllowed dir request log op)
    (serves : l.Serves index request (.call op next) log) :
    BlobInv dir text start (Ledger.called (Volume.exec insideDir) l index env request op next log) := by
  have owns := inv.owns index request _ log serves
  have temps := inv.temps index request _ log serves
  have step := blob_step env asked owns allowed
  have stage : stageOf (log ++ [⟨op,(Volume.exec insideDir env l.shared op).1⟩]) =
      (stageOf log).step ⟨op,(Volume.exec insideDir env l.shared op).1⟩ := stageOf_append _ _
  -- a name that the call gives is no other request's
  have given : ∀ name, ((stageOf log).step ⟨op,(Volume.exec insideDir env l.shared op).1⟩).name = some name →
      ∀ second other rest calls, second ≠ index → l.Serves second other rest calls → (stageOf calls).name ≠ some name := by
    intro name named second other rest calls different theirs
    rcases step_name named with before | now
    · exact inv.apart index second request other _ rest log calls (Ne.symm different) serves theirs name before
    · obtain ⟨inside,names,rfl,rfl⟩ := tempOf_exec now
      have next_ : (l.threads[index]?).bind (fun thread => nextTemp env thread.program) = some (names env.random) := by
        rw [serves.thread]
        rfl
      exact fresh _ next_ _ (List.mem_of_getElem? theirs.thread)
  refine ⟨?_,?_,?_,?_,?_,?_,?_⟩
  · simp only [Ledger.called]
    rw [replayBlobs_snoc]
    exact inv.tidy.step asked owns temps step
  · intro other second program calls there
    rcases Ledger.serves_called serves there with ⟨different,old⟩ | ⟨-,rfl,-,rfl⟩
    · exact step.owns_other inv.tidy asked owns (inv.owns other second program calls old) (inv.temps other second program calls old)
        (inv.apart index other request second _ program log calls (Ne.symm different) serves old)
    · rw [stage]
      exact step.owns_mine owns
  · intro other second program calls there name named
    rcases Ledger.serves_called serves there with ⟨-,old⟩ | ⟨-,rfl,-,rfl⟩
    · exact inv.temps other second program calls old name named
    · rw [stage] at named
      exact step.temp_new temps named
  · intro first second asking other program rest log' calls different here there name named
    rcases Ledger.serves_called serves here with ⟨away,old⟩ | ⟨rfl,rfl,-,rfl⟩
    · rcases Ledger.serves_called serves there with ⟨-,older⟩ | ⟨rfl,rfl,-,rfl⟩
      · exact inv.apart first second asking other program rest log' calls different old older name named
      · rw [stage]
        intro mine
        exact given name mine first asking program log' away old named
    · rcases Ledger.serves_called serves there with ⟨away,old⟩ | ⟨same,-,-,-⟩
      · rw [stage] at named
        exact given name named second other rest calls away old
      · exact absurd same.symm different
  · intro other key program calls there
    rcases Ledger.serves_called serves there with ⟨-,old⟩ | ⟨-,rfl,-,rfl⟩
    · have reading := inv.reading other key program calls old
      refine reading.keep step.next_le ?_
      intro path handle member
      exact step.contents_kept (reading.holds path handle member).1
        fun name => inv.closed other key program calls path handle old member index request _ log name serves
    · have reading := (inv.reading index key _ log serves).snoc inv.tidy env asked allowed
      refine reading.keep step.next_le ?_
      intro path handle member
      refine step.contents_kept (reading.holds path handle member).1 ?_
      intro name opened
      rw [opened] at owns
      exact owns
  · intro other key program calls path handle there member second asking rest log' name theirs opened
    rcases Ledger.serves_called serves there with ⟨-,old⟩ | ⟨-,rfl,-,rfl⟩
    · rcases Ledger.serves_called serves theirs with ⟨-,older⟩ | ⟨-,-,-,rfl⟩
      · exact inv.closed other key program calls path handle old member second asking rest log' name older opened
      · rw [stage] at opened
        rcases step.opened_new opened with before | new
        · exact inv.closed other key program calls path handle old member index request _ log name serves before
        · exact absurd ((inv.reading other key program calls old).holds path handle member).1 (by omega)
    · rcases Ledger.serves_called serves theirs with ⟨-,older⟩ | ⟨-,rfl,-,rfl⟩
      · rcases List.mem_append.mp member with before | new
        · exact inv.closed index key _ log path handle serves before second asking rest log' name older opened
        · obtain ⟨-,placed,named,-,-⟩ := opened_blob inv.tidy env asked allowed (List.mem_singleton.mp new).symm
          have theirOwn := inv.owns second asking rest log' older
          rw [opened] at theirOwn
          have same := inv.tidy.single path name handle named theirOwn.named
          obtain ⟨inside,random,rfl⟩ := inv.temps second asking rest log' older name (by rw [opened]; rfl)
          exact tempName_apart asked placed inside random same.symm
      · have mine := step.owns_mine owns
        rw [stage] at opened
        rw [opened] at mine
        exact mine
  · simp only [Ledger.called]
    exact inv.agrees.snoc _ (open_agrees inv.tidy env asked allowed)

end

section
variable {dir : Str} {text : Str → Bytes} {v : BlobVolume} {s : State} {moves : List BlobMove}

theorem blob_invariant (tidy : Tidy dir text v s) (asked : ∀ request ∈ moves.filterMap Ledger.asked, BlobAsked text request)
    (fresh : Guarded (Ledger.move (serveBlob dir) (Volume.exec insideDir)) FreshTemp (Ledger.initial v) moves) :
    BlobInv dir text s (blobRun dir v moves) ∧ (blobRun dir v moves).Logged ∧
      ∀ index request answer log, (blobRun dir v moves).Serves index request (.done answer) log → BlobAnswered request log answer := by
  have all : ∀ request ∈ (blobRun dir v moves).requests, BlobAsked text request := by
    intro request member
    rw [blobRun,Ledger.life,Ledger.run_requests] at member
    exact asked request member
  have first : (∀ request ∈ (Ledger.initial v : BlobLedger).requests, BlobAsked text request) →
      BlobInv dir text s (Ledger.initial v) := by
    intro _
    have idle : ∀ {index request program log}, ¬(Ledger.initial v : BlobLedger).Serves index request program log := by
      intro index request program log serves
      have there := serves.request
      simp [Ledger.initial] at there
    exact ⟨tidy,fun _ _ _ _ serves => (idle serves).elim,fun _ _ _ _ serves => (idle serves).elim,
      fun _ _ _ _ _ _ _ _ _ serves => (idle serves).elim,fun _ _ _ _ serves => (idle serves).elim,
      fun _ _ _ _ _ _ serves => (idle serves).elim,Ledger.earlier_nil _⟩
  obtain ⟨inv,served,logged⟩ := Ledger.ledger_invariant
    (fun request program log => program.Keeps (BlobAllowed dir request) log ∧ program.Answers (BlobAnswered request) log) FreshTemp
    (fun l => (∀ request ∈ l.requests, BlobAsked text request) → BlobInv dir text s l)
    (fun request => ⟨serveBlob_keeps dir request,serveBlob_answers dir request⟩)
    (fun _ _ _ _ both result => ⟨both.1.2 result,both.2 result⟩)
    (fun l request logged holds good => (holds fun one member => good one (List.mem_append_left _ member)).spawned logged request)
    (fun l index env request op next log holds served logged fresh serves good =>
      (holds good).called (good request (List.mem_of_getElem? serves.request)) fresh (served index request _ log serves).1.1 serves)
    v moves first fresh
  exact ⟨inv all,logged,fun index request answer log serves => (served index request _ log serves).2⟩

end

/-! ### Lives -/

/-- The state as `exec` has it after some lives. -/
def replayLives (s : State) (lives : List BlobLedger) : State := lives.foldl (fun s one => replayBlobs s one.history) s

/-- A read has told what `exec` tells at a point of the request. -/
def Told (s : State) (l : BlobLedger) (index : Nat) : BlobRequest → BlobAnswer → Prop
  | .get key,.read found => found = .failed ∨ ∃ past entry future, l.history = past ++ entry::future ∧ entry.index = index ∧
      pointOf entry.request entry.event = some (.getBlob key) ∧ found = (exec false (replayBlobs s past) (.getBlob key)).1
  | _,_ => True

abbrev blobLives (dir : Str) (v : BlobVolume) (lives : List (List BlobMove)) : List BlobLedger :=
  Ledger.lifetimes (serveBlob dir) (Volume.exec insideDir) v lives

abbrev blobRemains (dir : Str) (v : BlobVolume) (lives : List (List BlobMove)) : BlobVolume :=
  Ledger.remains (serveBlob dir) (Volume.exec insideDir) v lives

/-- In every life the requests are for blobs and the temporary names are fresh. -/
def GoodLives (dir : Str) (text : Str → Bytes) : BlobVolume → List (List BlobMove) → Prop
  | _,[] => True
  | v,moves::rest => (∀ request ∈ moves.filterMap Ledger.asked, BlobAsked text request) ∧
      Guarded (Ledger.move (serveBlob dir) (Volume.exec insideDir)) FreshTemp (Ledger.initial v) moves ∧
      GoodLives dir text (blobRun dir v moves).shared rest

instance decidableBlobAsked (text : Str → Bytes) : (request : BlobRequest) → Decidable (BlobAsked text request)
  | .put _ _ => inferInstanceAs (Decidable (_ ∧ _))
  | .get _ | .delete _ => inferInstanceAs (Decidable (_ = _))

instance decidableGoodLives (dir : Str) (text : Str → Bytes) :
    (v : BlobVolume) → (lives : List (List BlobMove)) → Decidable (GoodLives dir text v lives)
  | _,[] => .isTrue trivial
  | v,moves::rest =>
    have := decidableGoodLives dir text (blobRun dir v moves).shared rest
    inferInstanceAs (Decidable (_ ∧ _ ∧ _))

section
variable {dir : Str} {text : Str → Bytes} {v : BlobVolume} {s : State}

theorem BlobInv.told {l : BlobLedger} (inv : BlobInv dir text s l) (logged : l.Logged) {index : Nat} {request : BlobRequest}
    {answer : BlobAnswer} {log : List FsEvent} (serves : l.Serves index request (.done answer) log)
    (answered : BlobAnswered request log answer) : Told s l index request answer := by
  cases request with
  | put key content => cases answer <;> trivial
  | delete key => cases answer <;> trivial
  | get key =>
    have logs := logged.logs index (.get key) _ log serves
    have point : ∀ event, event ∈ log → ∃ past entry future, l.history = past ++ entry::future ∧ entry.index = index ∧
        entry.request = .get key ∧ entry.event = event ∧ Agrees text (replayBlobs s past) (.get key) event := by
      intro event member
      obtain ⟨before,rest,split⟩ := List.append_of_mem member
      obtain ⟨past,entry,future,shape,rfl,rfl,-,-⟩ := Ledger.callsOf_split (logs.symm.trans split)
      have asked : entry.request = .get key := by
        have asked := logged.asked entry (by rw [shape]; simp)
        exact Option.some.inj (asked.symm.trans serves.request)
      have agrees : Agrees text (replayBlobs s past) entry.request entry.event := inv.agrees past entry future shape
      rw [asked] at agrees
      exact ⟨past,entry,future,shape,rfl,asked,rfl,agrees⟩
    cases answer with
    | stored ok => trivial
    | deleted ok => trivial
    | read found =>
      cases found with
      | failed => exact .inl rfl
      | missing =>
        obtain ⟨path,opened⟩ := answered.2
        obtain ⟨past,entry,future,shape,here,asked,event,agrees⟩ := point _ opened
        refine .inr ⟨past,entry,future,shape,here,by rw [asked,event]; rfl,?_⟩
        rw [getBlob_read,show (replayBlobs s past).blobs.get key = none from agrees]
        rfl
      | found content =>
        obtain ⟨handle,path,opened,read⟩ := answered.2
        obtain ⟨past,entry,future,shape,here,asked,event,agrees⟩ := point _ opened
        refine .inr ⟨past,entry,future,shape,here,by rw [asked,event]; rfl,?_⟩
        rw [getBlob_read,show (replayBlobs s past).blobs.get key = some (text key) from agrees,
          (inv.reading index key _ log serves).reads handle content read]
        rfl

theorem lives_tidy (tidy : Tidy dir text v s) {lives : List (List BlobMove)} (good : GoodLives dir text v lives) :
    Tidy dir text (blobRemains dir v lives) (replayLives s (blobLives dir v lives)) := by
  induction lives generalizing v s with
  | nil => exact tidy
  | cons moves rest ih => exact ih (blob_invariant tidy good.1 good.2.1).1.tidy good.2.2

theorem goodLives_split {front rest : List (List BlobMove)} (good : GoodLives dir text v (front ++ rest)) :
    GoodLives dir text v front ∧ GoodLives dir text (blobRemains dir v front) rest := by
  induction front generalizing v with
  | nil => exact ⟨trivial,good⟩
  | cons moves front ih =>
    obtain ⟨before,after⟩ := ih good.2.2
    exact ⟨⟨good.1,good.2.1,before⟩,after⟩

/-- Whatever runs at the same time, whichever calls fail and whenever the process dies, the
files are those of `exec` making one blob call for each request, at a system call of that
request. -/
theorem blobs_linearize (tidy : Tidy dir text v s) (lives : List (List BlobMove)) (good : GoodLives dir text v lives) :
    Tidy dir text (blobRemains dir v lives) (replayLives s (blobLives dir v lives)) ∧
    ∀ front life back, lives = front ++ life::back → ∀ index request answer log,
      (blobRun dir (blobRemains dir v front) life).Serves index request (.done answer) log →
        Effects request answer (log.filterMap (pointOf request)) ∧
        Told (replayLives s (blobLives dir v front)) (blobRun dir (blobRemains dir v front) life) index request answer := by
  refine ⟨lives_tidy tidy good,?_⟩
  rintro front life back rfl index request answer log serves
  obtain ⟨before,here,fresh,-⟩ := goodLives_split good
  obtain ⟨inv,logged,answers⟩ := blob_invariant (lives_tidy tidy before) here fresh
  have answered := answers index request answer log serves
  exact ⟨answered.1,inv.told logged serves answered⟩

end

theorem tidy_empty (dir : Str) (text : Str → Bytes) : Tidy dir text ⟨.empty,.empty,0⟩ .empty := by
  refine ⟨?_,?_,?_,?_,?_⟩
  · intro path number named
    contradiction
  · intro path other number named
    contradiction
  · intro key path hex placed named
    contradiction
  · intro key path hex placed
    rfl
  · intro key path hex placed there
    exact absurd rfl there

/-- A life that dies over half a copy, and one that stores the blob and reads it. -/
def twoLives (key : Str) (content : Bytes) : List (List BlobMove) :=
  let works : SysEnv := ⟨false,0,7⟩
  [[.spawn (.put key content),.step 0 works,.step 0 works,.step 0 works,.step 0 ⟨true,1,7⟩],
    .spawn (.put key content)::.spawn (.get key)::((List.replicate 3 (.step 0 ⟨false,0,8⟩)) ++
      List.replicate 5 (.step 0 works) ++ List.replicate 4 (.step 1 works))]

set_option maxRecDepth 8000 in
theorem blobs_linearize_two :
    let key := List.replicate 64 97
    let lives := twoLives key [104,105]
    Tidy (lit "/srv") (fun _ => [104,105]) (blobRemains (lit "/srv") ⟨.empty,.empty,0⟩ lives)
      (replayLives .empty (blobLives (lit "/srv") ⟨.empty,.empty,0⟩ lives)) := by
  exact (blobs_linearize (tidy_empty _ _) _ (by decide)).1

end NPSync.Server
