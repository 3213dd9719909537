import NPSync.Engine.Upload
import NPSync.Engine.Apply

/-! What puts operations into the queue (`onFileSaved`, `onFsEvent`, the scanner)
and what takes them out (`processPendingOp`). -/
namespace NPSync.Engine
open Library

inductive FsEventKind where
  | created
  | modified
  | deleted
  | renamedFrom
  | renamedTo
  deriving DecidableEq

/-- `FsEvent`; `oldAbsPath` is empty unless the watcher paired a rename. -/
structure FsEvent where
  kind : FsEventKind
  absPath : WStr
  oldAbsPath : WStr
  deriving DecidableEq

section
variable (win : Windows)

/-- The key of a located path. -/
def keyOf (db : LocalDb) (absPath : WStr) : Option Str := (locateInRoots win db absPath).map Prod.fst

def queueUpload (db : LocalDb) (relPath : Str) (now : Int) : LocalDb := db.enqueueOp .upload relPath [] now

/-- `onFileSaved`. -/
def onFileSaved (db : LocalDb) (active : Bool) (absPath : WStr) (now : Int) : LocalDb :=
  if !active then db
  else match keyOf win db absPath with
    | none => db
    | some key => queueUpload db key now

/-- `onFileOpened`. -/
def onFileOpened (db : LocalDb) (signedIn : Bool) (absPath : WStr) : LocalDb :=
  if !signedIn then db
  else match keyOf win db absPath with
    | none => db
    | some key =>
      match db.getFile key with
      | some _ => db
      | none => db.upsertFile {LocalFileState.fresh with relPath := key,syncRoot := key.takeWhile (· ≠ 58)}

/-- `onFsEvent`; `active` is signed in and not paused, `isDirectory` what
`GetFileAttributesW` says of the path when the event is handled. -/
def onFsEvent (db : LocalDb) (active : Bool) (ev : FsEvent) (isDirectory : Bool) (now : Int) : LocalDb :=
  if !active then db
  else match keyOf win db ev.absPath with
    | none =>
      if ev.kind = .renamedTo ∧ ev.oldAbsPath ≠ [] then
        match keyOf win db ev.oldAbsPath with
        | some old => db.enqueueOp .delete old [] now
        | none => db
      else db
    | some key =>
      match ev.kind with
      | .created | .modified => if isDirectory then db else queueUpload db key now
      | .deleted => db.enqueueOp .delete key [] now
      | .renamedFrom => db
      | .renamedTo => queueUpload db key now

/-- What the scanner does with a regular file it finds. -/
def scanFile (dev : Device) (db : LocalDb) (full : WStr) (now : Int) : LocalDb :=
  match keyOf win db full with
  | none => db
  | some key =>
    if ignored dev ((key.dropWhile (· ≠ 58)).tail) false then db
    else match db.getFile key with
      | some _ => db
      | none => queueUpload db key now

end

section
variable (plat : Platform) (dev : Device)

/-- The end of `processPendingOp`: a success removes the operation, a failure
other than being offline counts as a retry, and the 27th failure drops it. -/
def settleOp (op : PendingOp) (out : Outcome × Local) : Outcome × Local :=
  match out.1 with
  | .threw => out
  | .failed err =>
    if err = lit "offline" then (out.1,{out.2 with online := false})
    else
      let db := out.2.db.markOpFailed op.id err
      (out.1,{out.2 with db := if 25 < op.retryCount then db.removeOp op.id else db})
  | _ => (out.1,{out.2 with db := out.2.db.removeOp op.id})

def processPendingOp (l : Local) (op : PendingOp) (io : UploadIo) : Exchange :=
  match op.kind with
  | .upload =>
    match absPathForRel plat.win l.db op.relPath with
    | none => .done (.skipped,{l with db := l.db.removeOp op.id})
    | some abs => (uploadFile plat dev l op.relPath abs io).bind fun out => .done (settleOp op out)
  | .delete => (deleteRemote l op.relPath).bind fun out => .done (settleOp op out)
  | .rename => .done (.skipped,{l with db := l.db.removeOp op.id})

end
/-! ### What the engine leaves of its queue -/

section
variable (plat : Platform) (dev : Device)

theorem keepBoth_setup (l : Local) (relPath : Str) (absPath : WStr) (serverCurrent : Json) (fileId : Str)
    (localText : Bytes) (io : MergeIo) :
    (keepBoth plat dev l relPath absPath serverCurrent fileId localText io).Ends (fun out => SameSetup l.db out.2.db) := by
  unfold keepBoth
  dsimp only
  split
  · exact ⟨rfl,rfl,rfl,rfl⟩
  · exact ⟨rfl,rfl,rfl,rfl⟩

theorem uploadMerged_setup (l : Local) (relPath : Str) (absPath : WStr) (serverCurrent : Json) (fileId : Str)
    (localText merged : Bytes) (rnd : Random) (io : MergeIo) :
    (uploadMerged plat dev l relPath absPath serverCurrent fileId localText merged rnd io).Ends
      (fun out => SameSetup l.db out.2.db) := by
  unfold uploadMerged
  dsimp only
  split
  · exact ⟨rfl,rfl,rfl,rfl⟩
  split
  · split
    · exact ⟨rfl,rfl,rfl,rfl⟩
    · intro r
      dsimp only
      split
      · split
        · show SameSetup l.db (writeShadow plat _ relPath merged io.shadow).db
          rw [writeShadow_db]
          exact ⟨rfl,rfl,rfl,rfl⟩
        · exact ⟨rfl,rfl,rfl,rfl⟩
      · exact (keepBoth_setup plat dev _ relPath absPath serverCurrent fileId localText io).mono fun _ same => same
  · exact ⟨rfl,rfl,rfl,rfl⟩

theorem handleConflict_setup (l : Local) (relPath : Str) (absPath : WStr) (serverCurrent : Json) (rnd : Random)
    (io : MergeIo) :
    (handleConflict plat dev l relPath absPath serverCurrent rnd io).Ends (fun out => SameSetup l.db out.2.db) := by
  unfold handleConflict
  split
  · exact ⟨rfl,rfl,rfl,rfl⟩
  split
  · exact ⟨rfl,rfl,rfl,rfl⟩
  intro full
  dsimp only
  split
  · exact ⟨rfl,rfl,rfl,rfl⟩
  split
  · exact ⟨rfl,rfl,rfl,rfl⟩
  split
  · exact ⟨rfl,rfl,rfl,rfl⟩
  split
  · exact ⟨rfl,rfl,rfl,rfl⟩
  · exact ⟨rfl,rfl,rfl,rfl⟩
  split
  · exact uploadMerged_setup plat dev l relPath absPath serverCurrent _ _ _ rnd io
  · exact keepBoth_setup plat dev l relPath absPath serverCurrent _ _ io

theorem refused_setup (r : ApiResponse) (fallback : String) (l : Local) :
    (refused r fallback l).Ends (fun out => SameSetup l.db out.2.db) := by
  unfold refused
  split
  · exact ⟨rfl,rfl,rfl,rfl⟩
  · exact ⟨rfl,rfl,rfl,rfl⟩

/-- An upload leaves the roots, the queue and the cursor alone. -/
theorem uploadFile_setup (l : Local) (relPath : Str) (absPath : WStr) (io : UploadIo) :
    (uploadFile plat dev l relPath absPath io).Ends (fun out => SameSetup l.db out.2.db) := by
  unfold uploadFile
  split
  · exact ⟨rfl,rfl,rfl,rfl⟩
  split
  · exact ⟨rfl,rfl,rfl,rfl⟩
  split
  · exact ⟨rfl,rfl,rfl,rfl⟩
  dsimp only
  split
  · exact ⟨rfl,rfl,rfl,rfl⟩
  split
  · exact ⟨rfl,rfl,rfl,rfl⟩
  intro r
  unfold finishUpload
  dsimp only
  split
  · exact ⟨rfl,rfl,rfl,rfl⟩
  split
  · split
    · show SameSetup l.db (writeShadow plat _ relPath _ io.shadow).db
      rw [writeShadow_db]
      exact ⟨rfl,rfl,rfl,rfl⟩
    · exact ⟨rfl,rfl,rfl,rfl⟩
  split
  · split
    · exact ⟨rfl,rfl,rfl,rfl⟩
    · exact (handleConflict_setup plat dev _ relPath absPath _ io.mergeRnd io.merge).mono fun _ same => same
  · exact (refused_setup r "upload failed" _).mono fun _ same => same

theorem deleteRemote_setup (l : Local) (relPath : Str) :
    (deleteRemote l relPath).Ends (fun out => SameSetup l.db out.2.db) := by
  unfold deleteRemote
  dsimp only
  split
  · exact ⟨rfl,rfl,rfl,rfl⟩
  split
  · exact ⟨rfl,rfl,rfl,rfl⟩
  intro r
  dsimp only
  split
  · exact ⟨rfl,rfl,rfl,rfl⟩
  split
  · exact ⟨rfl,rfl,rfl,rfl⟩
  · exact (refused_setup r "delete failed" _).mono fun _ same => same

/-- Every operation left in the queue was there before. -/
def FromQueue (before after : List PendingOp) : Prop :=
  ∀ op ∈ after, ∃ old ∈ before, old.id = op.id ∧ old.kind = op.kind ∧ old.relPath = op.relPath

theorem FromQueue.refl (ops : List PendingOp) : FromQueue ops ops := fun op member => ⟨op,member,rfl,rfl,rfl⟩

theorem removeOp_fromQueue (db : LocalDb) (id : Nat) : FromQueue db.pendingOps (db.removeOp id).pendingOps :=
  fun op member => ⟨op,List.mem_of_mem_filter member,rfl,rfl,rfl⟩

theorem markOpFailed_fromQueue (db : LocalDb) (id : Nat) (err : Str) :
    FromQueue db.pendingOps (db.markOpFailed id err).pendingOps := by
  intro op member
  obtain ⟨old,inside,same⟩ := List.mem_map.mp member
  refine ⟨old,inside,?_⟩
  rw [← same]
  split <;> exact ⟨rfl,rfl,rfl⟩

theorem settleOp_outcome (op : PendingOp) (out : Outcome × Local) : (settleOp op out).1 = out.1 := by
  obtain ⟨outcome,l⟩ := out
  unfold settleOp
  cases outcome with
  | failed err =>
    dsimp only
    split <;> rfl
  | _ => rfl

theorem settleOp_queue (db : LocalDb) (op : PendingOp) (out : Outcome × Local) (same : SameSetup db out.2.db) :
    (settleOp op out).2.db.syncRoots = db.syncRoots ∧ (settleOp op out).2.db.nextOpId = db.nextOpId ∧
      FromQueue db.pendingOps (settleOp op out).2.db.pendingOps := by
  obtain ⟨outcome,l⟩ := out
  have removed := removeOp_fromQueue l.db op.id
  rw [same.pendingOps] at removed
  unfold settleOp
  cases outcome with
  | threw => exact ⟨same.syncRoots,same.nextOpId,same.pendingOps ▸ FromQueue.refl _⟩
  | failed err =>
    dsimp only
    split
    · exact ⟨same.syncRoots,same.nextOpId,same.pendingOps ▸ FromQueue.refl _⟩
    have marked := markOpFailed_fromQueue l.db op.id err
    rw [same.pendingOps] at marked
    dsimp only
    split
    · refine ⟨same.syncRoots,same.nextOpId,?_⟩
      intro left member
      exact marked left (List.mem_of_mem_filter member)
    · exact ⟨same.syncRoots,same.nextOpId,marked⟩
  | skipped | stored | merged | conflictRecorded | applied => exact ⟨same.syncRoots,same.nextOpId,removed⟩

/-- Working on an operation adds none. -/
theorem processPendingOp_queue (l : Local) (op : PendingOp) (io : UploadIo) :
    (processPendingOp plat dev l op io).Ends (fun out => out.2.db.syncRoots = l.db.syncRoots ∧
      out.2.db.nextOpId = l.db.nextOpId ∧ FromQueue l.db.pendingOps out.2.db.pendingOps) := by
  unfold processPendingOp
  split
  · split
    · exact ⟨rfl,rfl,removeOp_fromQueue l.db op.id⟩
    · exact (uploadFile_setup plat dev l op.relPath _ io).bind fun out same => settleOp_queue l.db op out same
  · exact (deleteRemote_setup l op.relPath).bind fun out same => settleOp_queue l.db op out same
  · exact ⟨rfl,rfl,removeOp_fromQueue l.db op.id⟩

end
end NPSync.Engine
