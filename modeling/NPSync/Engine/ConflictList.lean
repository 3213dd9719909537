import NPSync.Engine.IgnoredUploads
import NPSync.Engine.LocalEdits
import NPSync.Engine.ResolutionEnds

/-! The table `conflicts` over runs of `uploadFile`, `handleConflict`,
`applyRemoteFile` and `resolveConflict`. Two of them record a conflict of a file;
what becomes of it when the file is synchronised is the question. -/
namespace NPSync.Engine
open Library

inductive ConflictOp where
  | upload (relPath : Str) (absPath : WStr) (io : UploadIo)
  | conflict (relPath : Str) (absPath : WStr) (serverCurrent : Json) (rnd : Random) (io : MergeIo)
  | apply (fileId : Str) (io : ApplyIo) (now : Int)
  | resolve (fileId strategy : Str) (io : ResolveIo)

/-- An operation with the answers to its requests, or any change of the device's files, rows and roots. -/
inductive ConflictDoing where
  | operate (op : ConflictOp) (answers : List ApiResponse)
  | other (next : Local)

/-- An operation that has ended. -/
structure EndedOp where
  op : ConflictOp
  before : Local
  outcome : Outcome
  after : Local

section
variable (plat : Platform) (dev : Device)

def ConflictOp.exchange (l : Local) : ConflictOp → Exchange
  | .upload relPath absPath io => uploadFile plat dev l relPath absPath io
  | .conflict relPath absPath serverCurrent rnd io => handleConflict plat dev l relPath absPath serverCurrent rnd io
  | .apply fileId io now => .call (.getFile fileId) fun r => .done (applyRemoteFile plat dev l fileId r io now)
  | .resolve fileId strategy io => resolveConflict plat dev l fileId strategy io

def ConflictOp.ended (l : Local) (op : ConflictOp) (answers : List ApiResponse) : EndedOp :=
  let out := ((op.exchange plat dev l).run Line.request ⟨answers,[]⟩).1
  ⟨op,l,out.1,out.2⟩

/-- The operations of a run, in order. -/
def endedOps : Local → List ConflictDoing → List EndedOp
  | _,[] => []
  | l,.operate op answers::rest => op.ended plat dev l answers::endedOps (op.ended plat dev l answers).after rest
  | l,.other next::rest => endedOps {next with db := {next.db with conflicts := l.db.conflicts}} rest

/-- The file that the operation has just synchronised: an accepted upload or merge,
an applied remote version, or a resolution. -/
def EndedOp.synchronised (e : EndedOp) : Option Str :=
  match e.op,e.outcome with
  | .upload relPath _ _,.stored | .upload relPath _ _,.merged | .conflict relPath _ _ _ _,.merged =>
    (e.after.db.getFile relPath).map (·.fileId)
  | .apply fileId _ _,.applied | .resolve fileId _ _,.applied => some fileId
  | _,_ => none

def EndedOp.resolves (e : EndedOp) : Bool :=
  match e.op with
  | .resolve .. => true
  | _ => false

/-- The conflict list is exact for the file that was synchronised. -/
def EndedOp.Exact (e : EndedOp) : Prop := ∀ fileId ∈ e.synchronised, e.after.db.conflicts.get fileId = none

/-- The operation is a resolution, or it found no conflict recorded for its file. -/
def EndedOp.Unopposed (e : EndedOp) : Prop :=
  ∀ fileId ∈ e.synchronised, e.resolves = true ∨ e.before.db.conflicts.get fileId = none

/-! ### What the operations make of the table -/

/-- The conflicts are those of before, unless one was recorded. -/
def KeepsConflicts (db : LocalDb) (out : Outcome × Local) : Prop :=
  out.1 = .conflictRecorded ∨ out.2.db.conflicts = db.conflicts

theorem keepBoth_conflicts (l : Local) (relPath : Str) (absPath : WStr) (serverCurrent : Json) (fileId : Str)
    (localText : Bytes) (io : MergeIo) :
    (keepBoth plat dev l relPath absPath serverCurrent fileId localText io).Ends (KeepsConflicts l.db) := by
  unfold keepBoth
  dsimp only
  split
  · exact .inl rfl
  · exact .inr rfl

theorem uploadMerged_conflicts (l : Local) (relPath : Str) (absPath : WStr) (serverCurrent : Json) (fileId : Str)
    (localText merged : Bytes) (rnd : Random) (io : MergeIo) :
    (uploadMerged plat dev l relPath absPath serverCurrent fileId localText merged rnd io).Ends (KeepsConflicts l.db) := by
  unfold uploadMerged
  dsimp only
  split
  · exact .inr rfl
  split
  · split
    · exact .inr rfl
    · intro r
      dsimp only
      split
      · split
        · right
          show (writeShadow plat _ relPath merged io.shadow).db.conflicts = _
          rw [writeShadow_db]
          rfl
        · exact .inr rfl
      · exact (keepBoth_conflicts plat dev _ relPath absPath serverCurrent fileId localText io).mono fun _ kept => kept
  · exact .inr rfl

theorem handleConflict_conflicts (l : Local) (relPath : Str) (absPath : WStr) (serverCurrent : Json) (rnd : Random)
    (io : MergeIo) : (handleConflict plat dev l relPath absPath serverCurrent rnd io).Ends (KeepsConflicts l.db) := by
  unfold handleConflict
  split
  · exact .inr rfl
  split
  · exact .inr rfl
  intro full
  dsimp only
  split
  · exact .inr rfl
  split
  · exact .inr rfl
  split
  · exact .inr rfl
  split
  · exact .inr rfl
  · exact .inr rfl
  split
  · exact uploadMerged_conflicts plat dev l relPath absPath serverCurrent _ _ _ rnd io
  · exact keepBoth_conflicts plat dev l relPath absPath serverCurrent _ _ io

theorem refused_conflicts (r : ApiResponse) (fallback : String) (l : Local) :
    (refused r fallback l).Ends fun out => out.2.db.conflicts = l.db.conflicts ∧ out.1.succeeded = false := by
  unfold refused
  split
  · exact ⟨rfl,rfl⟩
  · exact ⟨rfl,rfl⟩

theorem uploadFile_conflicts (l : Local) (relPath : Str) (absPath : WStr) (io : UploadIo) :
    (uploadFile plat dev l relPath absPath io).Ends (KeepsConflicts l.db) := by
  unfold uploadFile
  split
  · exact .inr rfl
  split
  · exact .inr rfl
  dsimp only
  split
  · exact .inr rfl
  split
  · exact .inr rfl
  split
  · exact .inr rfl
  intro r
  unfold finishUpload
  dsimp only
  split
  · exact .inr rfl
  split
  · split
    · right
      show (writeShadow plat _ relPath _ io.shadow).db.conflicts = _
      rw [writeShadow_db]
      rfl
    · exact .inr rfl
  split
  · split
    · exact .inr rfl
    · exact (handleConflict_conflicts plat dev _ relPath absPath _ io.mergeRnd io.merge).mono fun _ kept => kept
  · exact (refused_conflicts r "upload failed" _).mono fun out same => .inr same.1

theorem applyRemoteFile_conflicts (l : Local) (fileId : Str) (r : ApiResponse) (io : ApplyIo) (now : Int) :
    KeepsConflicts l.db (applyRemoteFile plat dev l fileId r io now) := by
  rw [applyRemoteFile,planRemote_online]
  cases plan : planRemote plat dev l r io.opens with
  | conflict t currentLocal contentHash => exact .inl rfl
  | stop outcome => exact .inr rfl
  | remove t | replace t plain =>
    refine .inr (perform_conflicts plat _ fileId r io now _ ?_)
    intro other currentLocal hash same
    contradiction

/-- A resolution takes the conflict of its file out, and nothing else does. -/
def Resolves (db : LocalDb) (fileId : Str) (out : Outcome × Local) : Prop :=
  (out.1 = .applied ∧ out.2.db.conflicts = db.conflicts.remove fileId) ∨
    (out.1.succeeded = false ∧ out.2.db.conflicts = db.conflicts)

theorem settle_resolves (l : Local) (fileId : Str) (f : LocalFileState) (text : Bytes) (version : Int) (vv : VersionVector)
    (shadow : WriteFate) : (settle plat l fileId f text version vv shadow).Ends (Resolves l.db fileId) := by
  left
  refine ⟨rfl,?_⟩
  show ((writeShadow plat _ f.relPath text shadow).db.conflicts).remove fileId = _
  rw [writeShadow_db]
  rfl

theorem RowEnd.resolves {plat : Platform} {l : Local} {fileId : Str} {target : ConflictState} {text : Bytes} {version : Option Int}
    {vector : LocalFileState → Option VersionVector} {shadow : WriteFate} {out : Outcome × Local}
    (ends : RowEnd plat l fileId target text version vector shadow out) : Resolves l.db fileId out := by
  cases ends with
  | stopped outcome unsuccessful => exact .inr ⟨unsuccessful,rfl⟩
  | untracked missing => exact .inl ⟨rfl,rfl⟩
  | settled f tracked number reads vv takes out yields =>
    exact (settle_resolves plat l fileId f text number vv shadow).yields yields

theorem FetchedEnd.resolves {plat : Platform} {dev : Device} {l : Local} {disk : Disk} {fileId : Str} {target : ConflictState}
    {abs : WStr} {full : ApiResponse} {takesVector : Bool} {io : ResolveIo} {out : Outcome × Local}
    (ends : FetchedEnd plat dev l disk fileId target abs full takesVector io out) : Resolves l.db fileId out := by
  cases ends with
  | refused outcome unsuccessful reason => exact .inr ⟨unsuccessful,rfl⟩
  | installed text answered opens out ends => exact ends.resolves

theorem resolveConflict_resolves (l : Local) (fileId strategy : Str) (io : ResolveIo) :
    (resolveConflict plat dev l fileId strategy io).Ends (Resolves l.db fileId) := by
  unfold resolveConflict
  split
  · exact .inr ⟨rfl,rfl⟩
  split
  · exact .inr ⟨rfl,rfl⟩
  split
  · apply Program.ends_of_yields
    intro _ out yields
    cases keepLocal_ends yields with
    | missing outcome unsuccessful absent => exact .inr ⟨unsuccessful,rfl⟩
    | unsealed data copy unsealed => exact .inr ⟨rfl,rfl⟩
    | sent data copy payload built r out ends => exact ends.resolves
  split
  · intro full
    exact Program.ends_of_yields fun _ out yields => (fetched_ends yields).2.resolves
  split
  · intro full
    exact Program.ends_of_yields fun _ out yields => (fetched_ends yields).2.resolves
  · exact .inr ⟨rfl,rfl⟩

/-! ### Runs -/

theorem synchronised_recorded {e : EndedOp} (recorded : e.outcome = .conflictRecorded) : e.synchronised = none := by
  obtain ⟨op,before,outcome,after⟩ := e
  cases recorded
  cases op <;> rfl

theorem exact_iff_of_kept {e : EndedOp} (kept : KeepsConflicts e.before.db (e.outcome,e.after)) (other : e.resolves = false) :
    e.Exact ↔ e.Unopposed := by
  unfold EndedOp.Exact EndedOp.Unopposed
  rcases kept with recorded | same
  · rw [synchronised_recorded recorded]
    exact ⟨fun _ => nofun,fun _ => nofun⟩
  · have table : e.after.db.conflicts = e.before.db.conflicts := same
    rw [table,other]
    simp

theorem resolved_exact {e : EndedOp} {fileId strategy : Str} {io : ResolveIo} (resolve : e.op = .resolve fileId strategy io)
    (resolves : Resolves e.before.db fileId (e.outcome,e.after)) : e.Exact ∧ e.Unopposed := by
  obtain ⟨op,before,outcome,after⟩ := e
  cases resolve
  constructor
  · intro other synchronised
    rcases resolves with ⟨applied,gone⟩ | ⟨failed,-⟩
    · cases applied
      cases synchronised
      have table : after.db.conflicts = before.db.conflicts.remove fileId := gone
      rw [table]
      exact Table.get_remove_same _ _
    · cases outcome <;> contradiction
  · intro other _
    exact .inl rfl

/-- One operation: the list is exact exactly when the operation is a resolution or found no conflict. -/
theorem ended_exact_iff (l : Local) (op : ConflictOp) (answers : List ApiResponse) :
    (op.ended plat dev l answers).Exact ↔ (op.ended plat dev l answers).Unopposed := by
  have ends : ∀ good, (op.exchange plat dev l).Ends good → good ((op.exchange plat dev l).run Line.request ⟨answers,[]⟩).1 :=
    fun good ends => ends.run Line.request ⟨answers,[]⟩
  unfold ConflictOp.ended
  generalize ((op.exchange plat dev l).run Line.request ⟨answers,[]⟩).1 = out at ends ⊢
  cases op with
  | upload relPath absPath io => exact exact_iff_of_kept (ends _ (uploadFile_conflicts plat dev l relPath absPath io)) rfl
  | conflict relPath absPath serverCurrent rnd io =>
    exact exact_iff_of_kept (ends _ (handleConflict_conflicts plat dev l relPath absPath serverCurrent rnd io)) rfl
  | apply fileId io now =>
    exact exact_iff_of_kept (ends _ fun r => applyRemoteFile_conflicts plat dev l fileId r io now) rfl
  | resolve fileId strategy io =>
    have both := resolved_exact (e := ⟨.resolve fileId strategy io,l,out.1,out.2⟩) rfl (ends _ (resolveConflict_resolves plat dev l fileId strategy io))
    exact ⟨fun _ => both.2,fun _ => both.1⟩

/-- In every run the conflict list is exact after every synchronisation if and only if every
file that is synchronised other than by its resolution has no conflict recorded then. -/
theorem conflict_list_exact_iff (l : Local) (doings : List ConflictDoing) :
    (∀ e ∈ endedOps plat dev l doings, e.Exact) ↔ ∀ e ∈ endedOps plat dev l doings, e.Unopposed := by
  induction doings generalizing l with
  | nil => simp only [endedOps,List.not_mem_nil,false_implies,implies_true]
  | cons first rest ih =>
    cases first with
    | operate op answers =>
      simp only [endedOps,List.forall_mem_cons]
      rw [ended_exact_iff plat dev l op answers,ih]
    | other next => exact ih _

end
/-! ### A conflict that outlives its file's merge -/

section
open KnownAnswers

private def editedLaptop : Local :=
  ⟨rooted.upsertFile (notesRow 1),⟨Table.empty.upsert (wlit "c:\\notes\\notes.txt") localEdit,[]⟩,
    Table.empty.upsert (lit "d4c17acf05803eba06a649370f82265b102cae36d8cce5582d006805540ee495") baseText,[],true⟩

private def drawsOf (content : UInt8) : Random := ⟨nonceOf content,nonceOf 2,uuidOf 0⟩

/-- The upload of the edit; the shadow copy can be opened or not. -/
private def uploadEdit (shadowOpens : Bool) : ConflictOp :=
  .upload (lit "root:notes.txt") (wlit "C:\\notes\\notes.txt")
    ⟨true,.replaced,drawsOf 8,drawsOf 9,⟨true,shadowOpens,.replaced,⟨0,true⟩,.replaced,.replaced,0⟩⟩

/-- The server has version 2, and accepts what replaces it. -/
private def versionTwo : List ApiResponse :=
  let hash := lit "7addf682dd29a91008ef1073f7386fc88060a62515419ec88407ad4a5ebb9d5f"
  [⟨true,409,.obj [(lit "current",.obj [(lit "content_hash",.str hash),(lit "file_id",.str notesId),(lit "version",.num 2),
      (lit "version_vector",.obj [])])]⟩,
    ⟨true,200,.obj [(lit "encrypted_content",.str (lit "TlBTMQEHBwcHBwcHBwcHBweuyv6ZOTEUOiYg1UuGhDf-YATDVht4uP6S1UHFxVs"))]⟩,
    ⟨true,200,.obj [(lit "version",.num 3)]⟩]

/-- The first upload finds no shadow copy and records a conflict, the second merges. -/
private def uploadTwice : List ConflictDoing := [.operate (uploadEdit false) versionTwo,.operate (uploadEdit true) versionTwo]

theorem merged_conflict_stays : ¬∀ (plat : Platform) (dev : Device) (l : Local) (doings : List ConflictDoing),
    ∀ e ∈ endedOps plat dev l doings, e.Exact := by
  intro always
  have facts : ((endedOps editPlatform laptop editedLaptop uploadTwice)[1]?).map (fun e =>
      (e.outcome,e.synchronised,(e.after.db.conflicts.get notesId).isSome)) = some (.merged,some notesId,true) := by
    rw [editPlatform_numerals]
    decide +kernel
  obtain ⟨e,found,same⟩ := Option.map_eq_some_iff.mp facts
  obtain ⟨-,same⟩ := Prod.mk.inj same
  obtain ⟨file,listed⟩ := Prod.mk.inj same
  rw [always editPlatform laptop editedLaptop uploadTwice e (List.mem_of_getElem? found) notesId file] at listed
  exact Bool.noConfusion listed

end

end NPSync.Engine
