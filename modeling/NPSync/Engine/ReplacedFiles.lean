import NPSync.Engine.BackupHistory
import NPSync.Engine.ResolvedRows
import NPSync.Engine.SkippedUploads
import NPSync.Library.Overwrite

/-! What becomes of the files that `resolveConflict` replaces. -/
namespace NPSync.Engine
open Library

section
variable (plat : Platform) (dev : Device) (l : Local)

/-- The text of a fetched head. -/
def installedText (r : ApiResponse) : Option Bytes :=
  if r.status ≠ 200 then none
  else match conflictText plat dev r with
    | .ok plain => some plain
    | .error _ => none

/-- The text is kept as a backup, in a file, or as the head that was accepted. -/
inductive Available (conversation : List ApiEvent) (after : Local) (text : Bytes) : Prop
  | backup (name : WStr) (kept : (name,text) ∈ after.backups)
  | file (path : WStr) (holds : after.disk.files.get path = some text)
  | head (fileId : Str) (payload : Payload) (r : ApiResponse) (sent : ⟨.updateFile fileId payload,r⟩ ∈ conversation)
      (accepted : r.status = 200) (sealed : sentText plat dev payload = some text)

/-- The content of every file that was replaced is still available. -/
def DestroysNothing (conversation : List ApiEvent) (after : Local) : Prop :=
  ∀ path text, l.disk.files.get path = some text → after.disk.files.get path ≠ some text →
    Available plat dev conversation after text

end

section
variable (win : Windows) (l : Local) (abs : WStr)

/-! ### Backups -/

/-- The file is there and can be copied, and no backup has the new name in any letter case. -/
structure Copyable (io : BackupIo) (held : Option Bytes) : Prop where
  there : held.isSome = true
  readable : io.copies = true
  free : ∀ old ∈ l.backups, PathUtil.wlower win old.1 ≠ PathUtil.wlower win (backupName abs io.time)

instance (io : BackupIo) (held : Option Bytes) : Decidable (Copyable win l abs io held) :=
  decidable_of_iff (held.isSome = true ∧ io.copies = true ∧
      ∀ old ∈ l.backups, PathUtil.wlower win old.1 ≠ PathUtil.wlower win (backupName abs io.time))
    ⟨fun parts => ⟨parts.1,parts.2.1,parts.2.2⟩,fun can => ⟨can.there,can.readable,can.free⟩⟩

/-- The names of the backups, with that of a new one. -/
def backupNames (io : BackupIo) (held : Option Bytes) : List WStr :=
  l.backups.map Prod.fst ++ if Copyable win l abs io held then [backupName abs io.time] else []

/-- A backup that the wildcard finds is among the last five by name. -/
def Unpruned (names : List WStr) (name : WStr) : Prop :=
  isBackupOf win (PathUtil.fileNameOf abs) name = true →
    ((names.filter (isBackupOf win (PathUtil.fileNameOf abs))).filter fun other => ¬other < name).length ≤ kMaxBackupsPerFile

/-- The text is in an old backup or is that of the file, which can be copied; and its
backup is not pruned. -/
def BackedUp (io : BackupIo) (held : Option Bytes) (text : Bytes) : Prop :=
  (∃ name, (name,text) ∈ l.backups ∧ Unpruned win abs (backupNames win l abs io held) name) ∨
    (Copyable win l abs io held ∧ held = some text ∧ Unpruned win abs (backupNames win l abs io held) (backupName abs io.time))

/-! ### Paths -/

/-- The text is put in place, or left in the temporary file. -/
def Installed (fate : WriteFate) (data text : Bytes) : Prop :=
  (fate = .replaced ∧ data = text) ∨ fate = .abandoned (some text)

def Elsewhere (paths : List WStr) (text : Bytes) : Prop := ∃ path, path ∉ paths ∧ l.disk.files.get path = some text

/-- The conflict copy is there and is moved. -/
def Moves (copy : WStr) (io : ResolveIo) : Prop := io.moves = true ∧ (l.disk.read win copy).isSome = true

instance (copy : WStr) (io : ResolveIo) : Decidable (Moves win l copy io) := inferInstanceAs (Decidable (_ ∧ _))

def movedPaths (copy both : WStr) (io : ResolveIo) : List WStr :=
  if Moves win l copy io then [PathUtil.wlower win copy,PathUtil.wlower win both] else []

/-- What the file holds once the copy is moved. -/
def heldThen (copy both : WStr) (io : ResolveIo) : Option Bytes :=
  if Moves win l copy io then
    if PathUtil.wlower win abs = PathUtil.wlower win both then l.disk.read win copy
    else if PathUtil.wlower win abs = PathUtil.wlower win copy then none
    else l.disk.read win abs
  else l.disk.read win abs

end

section
variable (plat : Platform) (dev : Device) (l : Local) (target : ConflictState) (abs : WStr) (io : ResolveIo) (r : ApiResponse)

/-- The upload of the text is built and accepted. -/
def Uploads (data : Bytes) : Prop :=
  r.status = 200 ∧ (buildFilePayload plat dev l.db target.relPath data target.remoteVersion
    (((l.db.getFile target.relPath).map (·.versionVector)).getD .empty) io.rnd).isSome = true

/-- Once the copy is read each text that is written over is that of the copy, put in place
or uploaded, in a file that is left alone, or in a backup that is there. -/
def LocalSpares : Prop :=
  ∀ data, readFileBytes plat.win l.disk (PathUtil.utf8ToWide plat.win target.localCopyPath) io.opens = some data →
    ∀ path ∈ writtenPaths plat.win abs io.write, ∀ text, l.disk.files.get path = some text →
      Installed io.write data text ∨ (Uploads plat dev l target io r data ∧ data = text) ∨
        Elsewhere l (writtenPaths plat.win abs io.write) text ∨ ∃ name, (name,text) ∈ l.backups

/-- Once the head is fetched each text that is written over is that of the head, in a file
that is left alone, or backed up. -/
def RemoteSpares : Prop :=
  ∀ plain, installedText plat dev r = some plain →
    ∀ path ∈ writtenPaths plat.win abs io.write, ∀ text, l.disk.files.get path = some text →
      Installed io.write plain text ∨ Elsewhere l (writtenPaths plat.win abs io.write) text ∨
        BackedUp plat.win l abs io.backup (l.disk.read plat.win abs) text

/-- The same of the paths of the move as well; what is moved stays where it is put. -/
def BothSpares : Prop :=
  let copy := PathUtil.utf8ToWide plat.win target.localCopyPath
  let both := bothName plat dev abs io.date
  ∀ plain, installedText plat dev r = some plain →
    ∀ path ∈ movedPaths plat.win l copy both io ++ writtenPaths plat.win abs io.write, ∀ text, l.disk.files.get path = some text →
      Installed io.write plain text ∨
      (Moves plat.win l copy io ∧ l.disk.read plat.win copy = some text ∧
        PathUtil.wlower plat.win both ∉ writtenPaths plat.win abs io.write) ∨
      Elsewhere l (movedPaths plat.win l copy both io ++ writtenPaths plat.win abs io.write) text ∨
      BackedUp plat.win l abs io.backup (heldThen plat.win l abs copy both io) text

/-- What the strategy asks of the disk, the backups and the answer. -/
structure SparesReplaced (strategy : Str) : Prop where
  keepLocal : strategy = lit "keepLocal" → LocalSpares plat dev l target abs io r
  keepRemote : strategy = lit "keepRemote" → RemoteSpares plat dev l abs io r
  keepBoth : strategy = lit "keepBoth" → BothSpares plat dev l target abs io r

end

/-! ### The writes of a resolution -/

/-- The writes of one `writeFileAtomic`. -/
def atomicWrites (win : Windows) (abs : WStr) (data : Bytes) : WriteFate → List (WStr × Option Bytes)
  | .notOpened => []
  | .abandoned leftover => [(PathUtil.wlower win (tmpPath abs),leftover)]
  | .replaced => [(PathUtil.wlower win (tmpPath abs),none),(PathUtil.wlower win abs,some data)]

def moveWrites (win : Windows) (disk : Disk) (source target : WStr) : List (WStr × Option Bytes) :=
  match disk.read win source with
  | some data => [(PathUtil.wlower win source,none),(PathUtil.wlower win target,some data)]
  | none => []

/-- What a resolution writes, the backups it leaves, and the text of an accepted upload. -/
structure Effect where
  writes : List (WStr × Option Bytes)
  backups : List (WStr × Bytes)
  accepted : Option Bytes

section
variable (plat : Platform) (dev : Device) (l : Local)

def localEffect (target : ConflictState) (abs : WStr) (io : ResolveIo) (r : ApiResponse) : Effect :=
  match readFileBytes plat.win l.disk (PathUtil.utf8ToWide plat.win target.localCopyPath) io.opens with
  | none => ⟨[],l.backups,none⟩
  | some data =>
    let vv := ((l.db.getFile target.relPath).map (·.versionVector)).getD .empty
    let sent := (buildFilePayload plat dev l.db target.relPath data target.remoteVersion vv io.rnd).isSome
    ⟨atomicWrites plat.win abs data io.write,l.backups,if sent && r.status = 200 then some data else none⟩

def remoteEffect (abs : WStr) (io : ResolveIo) (r : ApiResponse) : Effect :=
  match installedText plat dev r with
  | none => ⟨[],l.backups,none⟩
  | some plain => ⟨atomicWrites plat.win abs plain io.write,(backupReplaced plat.win l abs io.backup).backups,none⟩

def bothEffect (target : ConflictState) (abs : WStr) (io : ResolveIo) (r : ApiResponse) : Effect :=
  match installedText plat dev r with
  | none => ⟨[],l.backups,none⟩
  | some plain =>
    let copy := PathUtil.utf8ToWide plat.win target.localCopyPath
    let both := bothName plat dev abs io.date
    let moved := if io.moves then l.disk.move plat.win copy both else l.disk
    ⟨(if io.moves then moveWrites plat.win l.disk copy both else []) ++ atomicWrites plat.win abs plain io.write,
      (backupReplaced plat.win {l with disk := moved} abs io.backup).backups,none⟩

/-- What `resolveConflict` does to the disk when its request is answered with `r`. -/
def resolutionEffect (fileId strategy : Str) (io : ResolveIo) (r : ApiResponse) : Effect :=
  match l.db.conflicts.get fileId with
  | none => ⟨[],l.backups,none⟩
  | some target =>
    match absPathForRel plat.win l.db target.relPath with
    | none => ⟨[],l.backups,none⟩
    | some abs =>
      if strategy = lit "keepLocal" then localEffect plat dev l target abs io r
      else if strategy = lit "keepRemote" then remoteEffect plat dev l abs io r
      else if strategy = lit "keepBoth" then bothEffect plat dev l target abs io r
      else ⟨[],l.backups,none⟩

/-- The content of every file that is written over is also written last
somewhere, in a file that is left alone, in a backup, or accepted. -/
def Effect.Spares (effect : Effect) : Prop :=
  ∀ path ∈ effect.writes.map Prod.fst, ∀ text, l.disk.files.get path = some text →
    ((∃ name, (name,text) ∈ effect.backups) ∨ effect.accepted = some text) ∨
      (∃ other, Table.lastWrite other effect.writes = some (some text)) ∨
        ∃ other, other ∉ effect.writes.map Prod.fst ∧ l.disk.files.get other = some text

end

/-- The exchange has had the effect. -/
structure HasEffect (plat : Platform) (dev : Device) (l : Local) (effect : Effect) (conversation : List ApiEvent) (after : Local) :
    Prop where
  files : after.disk.files = l.disk.files.writes effect.writes
  backups : after.backups = effect.backups
  accepted : ∀ text, effect.accepted = some text ↔ ∃ fileId payload r, ⟨.updateFile fileId payload,r⟩ ∈ conversation ∧
    r.status = 200 ∧ sentText plat dev payload = some text

section
variable {plat : Platform} {dev : Device} {l : Local} {conversation : List ApiEvent} {after : Local}

theorem HasEffect.destroys_iff {effect : Effect} (has : HasEffect plat dev l effect conversation after) :
    DestroysNothing plat dev l conversation after ↔ effect.Spares l := by
  have replaced := Table.replaced_elsewhere_iff l.disk.files effect.writes
    fun text => (∃ name, (name,text) ∈ effect.backups) ∨ effect.accepted = some text
  rw [Effect.Spares,← replaced,DestroysNothing,has.files]
  refine forall₂_congr fun path text => imp_congr_right fun held => imp_congr_right fun gone => ?_
  rw [has.accepted,← has.backups,← has.files]
  constructor
  · rintro (⟨name,kept⟩ | ⟨other,holds⟩ | ⟨fileId,payload,r,sent,accepted,sealed⟩)
    · exact .inl (.inl ⟨name,kept⟩)
    · exact .inr ⟨other,holds⟩
    · exact .inl (.inr ⟨fileId,payload,r,sent,accepted,sealed⟩)
  · rintro ((⟨name,kept⟩ | ⟨fileId,payload,r,sent,accepted,sealed⟩) | ⟨other,holds⟩)
    · exact .backup name kept
    · exact .head fileId payload r sent accepted sealed
    · exact .file other holds

theorem writeFileAtomic_writes (win : Windows) (disk : Disk) (abs : WStr) (data : Bytes) (fate : WriteFate) :
    (writeFileAtomic win disk abs data fate).2.files = disk.files.writes (atomicWrites win abs data fate) := by
  cases fate with
  | notOpened => rfl
  | abandoned leftover => cases leftover <;> rfl
  | replaced => rfl

theorem move_writes (win : Windows) (disk : Disk) (source target : WStr) :
    (disk.move win source target).files = disk.files.writes (moveWrites win disk source target) := by
  unfold Disk.move moveWrites
  cases disk.read win source with
  | none => rfl
  | some data => rfl

@[simp] theorem writeShadow_backups (key : Str) (content : Bytes) (fate : WriteFate) :
    (writeShadow plat l key content fate).backups = l.backups := by
  cases fate <;> rfl

/-- An exchange that never sends an upload and leaves disk and backups alone. -/
theorem HasEffect.none {after : Local} (files : after.disk.files = l.disk.files) (backups : after.backups = l.backups)
    (silent : ∀ fileId payload r, ⟨.updateFile fileId payload,r⟩ ∉ conversation) :
    HasEffect plat dev l ⟨[],l.backups,.none⟩ conversation after where
  files := files
  backups := backups
  accepted _ := ⟨nofun,fun ⟨_,_,_,sent,_⟩ => absurd sent (silent _ _ _)⟩

variable {fileId : Str} {target : ConflictState} {abs : WStr} {io : ResolveIo} {r : ApiResponse} {out : Outcome × Local}

/-- After the last write of the disk a resolution leaves disk and backups alone. -/
structure Undisturbed (before after : Local) : Prop where
  disk : after.disk = before.disk
  backups : after.backups = before.backups

theorem settle_undisturbed {f : LocalFileState} {text : Bytes} {version : Int} {vv : VersionVector} {shadow : WriteFate}
    (yields : (settle plat l fileId f text version vv shadow).Yields conversation out) :
    conversation = [] ∧ Undisturbed l out.2 := by
  obtain ⟨empty,rfl⟩ := yields
  refine ⟨empty,?_,?_⟩
  · change (writeShadow plat _ f.relPath text shadow).disk = l.disk
    rw [writeShadow_disk]
  · change (writeShadow plat _ f.relPath text shadow).backups = l.backups
    rw [writeShadow_backups]

theorem RowEnd.undisturbed {text : Bytes} {version : Option Int} {vector : LocalFileState → Option VersionVector} {shadow : WriteFate}
    (ends : RowEnd plat l fileId target text version vector shadow out) : Undisturbed l out.2 := by
  cases ends with
  | stopped outcome unsuccessful => exact ⟨rfl,rfl⟩
  | untracked missing => exact ⟨rfl,rfl⟩
  | settled f tracked number reads vv takes out yields => exact (settle_undisturbed yields).2

theorem keepLocal_effect (yields : (keepLocal plat dev l fileId target abs io).Yields conversation out)
    (answered : ∀ event ∈ conversation, event.result = r) :
    HasEffect plat dev l (localEffect plat dev l target abs io r) conversation out.2 := by
  unfold localEffect
  cases keepLocal_ends yields with
  | missing outcome unsuccessful absent =>
    rw [absent]
    exact .none rfl rfl nofun
  | unsealed data copy unsealed =>
    rw [copy]
    refine ⟨writeFileAtomic_writes plat.win l.disk abs data io.write,rfl,fun text => ?_⟩
    unfold localPayload at unsealed
    dsimp only at unsealed ⊢
    rw [unsealed]
    exact ⟨nofun,nofun⟩
  | sent data copy payload built answer out ends =>
    obtain rfl : answer = r := answered _ List.mem_cons_self
    rw [copy]
    have same := ends.undisturbed
    refine ⟨?_,same.backups,fun text => ?_⟩
    · exact (congrArg Disk.files same.disk).trans (writeFileAtomic_writes plat.win l.disk abs data io.write)
    have sealed := built
    unfold localPayload at built
    dsimp only at built ⊢
    rw [built]
    simp only [Option.isSome_some,Bool.true_and,decide_eq_true_eq]
    constructor
    · intro accepted
      split at accepted
      · rename_i status
        refine ⟨fileId,payload,answer,List.mem_cons_self,status,?_⟩
        rw [sentText_built sealed,accepted]
      · contradiction
    · rintro ⟨other,sent,response,member,status,holds⟩
      obtain ⟨⟨rfl,rfl⟩,rfl⟩ : (other = fileId ∧ sent = payload) ∧ response = answer := by simpa using member
      rw [if_pos status,← holds,sentText_built sealed]

/-- `keepRemote` and `keepBoth` from their answer on. -/
theorem fetched_effect {takesVector : Bool} {moved : Disk} {moving : List (WStr × Option Bytes)}
    (moves : moved.files = l.disk.files.writes moving) {rest : List ApiEvent}
    (yields : (if r.status ≠ 200 then fails "cannot fetch remote" l
      else match conflictText plat dev r with
        | .error outcome => .done (outcome,l)
        | .ok plain => installRemote plat {l with disk := moved} fileId target abs r plain takesVector io).Yields rest out) :
    HasEffect plat dev l (match installedText plat dev r with
      | none => ⟨[],l.backups,none⟩
      | some plain => ⟨moving ++ atomicWrites plat.win abs plain io.write,
        (backupReplaced plat.win {l with disk := moved} abs io.backup).backups,none⟩) (⟨.getFile fileId,r⟩::rest) out.2 := by
  have silent : ∀ id payload answer, (⟨.updateFile id payload,answer⟩ : ApiEvent) ∉ [⟨.getFile fileId,r⟩] := by simp
  obtain ⟨rfl,ends⟩ := fetched_ends yields
  unfold installedText
  cases ends with
  | refused outcome unsuccessful reason =>
    by_cases bad : r.status ≠ 200
    · rw [if_pos bad]
      exact .none rfl rfl silent
    · rw [if_neg bad,reason.resolve_left bad]
      exact .none rfl rfl silent
  | installed plain answered opens out ends =>
    rw [if_neg (not_not.mpr answered),opens]
    have same := ends.undisturbed
    have written := writeFileAtomic_writes plat.win moved abs plain io.write
    refine ⟨?_,same.backups,fun text => ⟨nofun,fun ⟨_,_,_,sent,_⟩ => absurd sent (silent _ _ _)⟩⟩
    rw [Table.writes_append,← moves]
    exact (congrArg Disk.files same.disk).trans written

theorem resolveConflict_effect {strategy : Str} (yields : (resolveConflict plat dev l fileId strategy io).Yields conversation out)
    (answered : ∀ event ∈ conversation, event.result = r) :
    HasEffect plat dev l (resolutionEffect plat dev l fileId strategy io r) conversation out.2 := by
  unfold resolveConflict at yields
  unfold resolutionEffect
  cases found : l.db.conflicts.get fileId with
  | none =>
    rw [found] at yields
    obtain ⟨rfl,rfl⟩ := yields
    exact .none rfl rfl nofun
  | some target =>
  rw [found] at yields
  dsimp only at yields ⊢
  cases mapped : absPathForRel plat.win l.db target.relPath with
  | none =>
    rw [mapped] at yields
    obtain ⟨rfl,rfl⟩ := yields
    exact .none rfl rfl nofun
  | some abs =>
  rw [mapped] at yields
  dsimp only at yields ⊢
  split at yields
  · rename_i first
    rw [if_pos first]
    exact keepLocal_effect yields answered
  rename_i first
  rw [if_neg first]
  split at yields
  · rename_i second
    rw [if_pos second]
    obtain ⟨answer,rest,rfl,after⟩ := yields
    obtain rfl : answer = r := answered _ List.mem_cons_self
    have still : l.disk.files = l.disk.files.writes [] := rfl
    exact fetched_effect still after
  rename_i second
  rw [if_neg second]
  split at yields
  · rename_i third
    rw [if_pos third]
    obtain ⟨answer,rest,rfl,after⟩ := yields
    obtain rfl : answer = r := answered _ List.mem_cons_self
    refine fetched_effect ?_ after
    split
    · exact move_writes _ _ _ _
    · rfl
  · rename_i third
    rw [if_neg third]
    obtain ⟨rfl,rfl⟩ := yields
    exact .none rfl rfl nofun

/-- Every request of the exchange gets an answer of the list. -/
theorem run_answering_results (answers : Nat → ApiResponse) (exchange : Exchange) (sent : List ApiEvent) :
    ∀ event ∈ (exchange.run (answering answers) sent).2, event ∈ sent ∨ ∃ n, event.result = answers n := by
  induction exchange generalizing sent with
  | done out => exact fun event member => .inl member
  | call call next ih =>
    intro event member
    rcases ih _ _ event member with before | later
    · rcases List.mem_append.mp before with old | new
      · exact .inl old
      · rw [List.mem_singleton.mp new]
        exact .inr ⟨sent.length,rfl⟩
    · exact .inr later

end

theorem resolution_effect (plat : Platform) (dev : Device) (l : Local) (fileId strategy : Str) (io : ResolveIo) (r : ApiResponse) :
    HasEffect plat dev l (resolutionEffect plat dev l fileId strategy io r)
      ((resolveConflict plat dev l fileId strategy io).run (answering fun _ => r) []).2
      ((resolveConflict plat dev l fileId strategy io).run (answering fun _ => r) []).1.2 := by
  obtain ⟨conversation,log,yields⟩ := run_answering (fun _ => r) (resolveConflict plat dev l fileId strategy io) []
  have results := run_answering_results (fun _ => r) (resolveConflict plat dev l fileId strategy io) []
  rw [List.nil_append] at log
  rw [log] at results ⊢
  apply resolveConflict_effect yields
  intro event member
  rcases results event member with none_ | ⟨n,same⟩
  · contradiction
  · exact same

/-! ### What is spared -/

section
variable (win : Windows) (l : Local) (abs : WStr) (io : BackupIo)

/-- The new backup. -/
def newBackup (held : Option Bytes) : List (WStr × Bytes) :=
  if Copyable win l abs io held then (held.map fun data => (backupName abs io.time,data)).toList else []

/-- The names that pruning deletes: the first, beyond the number, of those that the wildcard finds. -/
def oldNames (names : List WStr) : List WStr :=
  let found := (names.filter (isBackupOf win (PathUtil.fileNameOf abs))).insertionSort fun a b => ¬b < a
  found.take (found.length - kMaxBackupsPerFile)

theorem copied_backups (disk : Disk) :
    (match readFileBytes win disk abs io.copies with
      | some data => if l.backups.any (fun old => PathUtil.wlower win old.1 = PathUtil.wlower win (backupName abs io.time)) then
          l.backups else l.backups ++ [(backupName abs io.time,data)]
      | none => l.backups) = l.backups ++ newBackup win l abs io (disk.read win abs) := by
  unfold newBackup
  by_cases can : Copyable win l abs io (disk.read win abs)
  · obtain ⟨data,held⟩ := Option.isSome_iff_exists.mp can.there
    have opened_ : readFileBytes win disk abs io.copies = some data := (if_pos can.readable).trans held
    have free : ¬(l.backups.any fun old => PathUtil.wlower win old.1 = PathUtil.wlower win (backupName abs io.time)) = true := by
      simpa using fun name content member => can.free (name,content) member
    rw [if_pos can,held,opened_]
    exact if_neg free
  · rw [if_neg can,List.append_nil]
    cases read : readFileBytes win disk abs io.copies with
    | none => rfl
    | some data =>
      unfold readFileBytes at read
      split at read
      · next readable =>
        refine if_pos (List.any_eq_true.mpr ?_)
        by_contra free
        exact can ⟨by rw [read]; rfl,readable,fun old member same => free ⟨old,member,decide_eq_true same⟩⟩
      · contradiction

theorem newBackup_names (held : Option Bytes) :
    (l.backups ++ newBackup win l abs io held).map Prod.fst = backupNames win l abs io held := by
  rw [List.map_append,backupNames,newBackup]
  split
  · next can =>
    obtain ⟨data,there⟩ := Option.isSome_iff_exists.mp can.there
    rw [there]
    rfl
  · rfl

theorem backupReplaced_backups (disk : Disk) : (backupReplaced win {l with disk := disk} abs io).backups =
    (l.backups ++ newBackup win l abs io (disk.read win abs)).filter fun backup =>
      !(oldNames win abs (backupNames win l abs io (disk.read win abs))).contains backup.1 := by
  rw [← newBackup_names,← copied_backups]
  rfl

theorem mem_oldNames_iff (names : List WStr) (name : WStr) :
    name ∈ oldNames win abs names ↔ name ∈ names ∧ ¬Unpruned win abs names name := by
  unfold oldNames Unpruned
  rw [Library.Retention.mem_oldest_iff,List.mem_filter,and_assoc,Classical.not_imp,Nat.not_le]

/-- A text is in a backup afterwards exactly when it is backed up by the state before. -/
theorem mem_backupReplaced_iff (disk : Disk) (text : Bytes) :
    (∃ name, (name,text) ∈ (backupReplaced win {l with disk := disk} abs io).backups) ↔
      BackedUp win l abs io (disk.read win abs) text := by
  rw [backupReplaced_backups]
  generalize disk.read win abs = held
  have stays : ∀ name, (name,text) ∈ l.backups ++ newBackup win l abs io held →
      ((!(oldNames win abs (backupNames win l abs io held)).contains name) = true ↔
        Unpruned win abs (backupNames win l abs io held) name) := by
    intro name member
    have listed : name ∈ backupNames win l abs io held := newBackup_names win l abs io held ▸ List.mem_map_of_mem member
    rw [Bool.not_eq_true',← Bool.not_eq_true,List.contains_iff_mem,mem_oldNames_iff,not_and,not_not]
    exact ⟨fun kept => kept listed,fun kept _ => kept⟩
  have made : ∀ name, (name,text) ∈ newBackup win l abs io held ↔
      name = backupName abs io.time ∧ Copyable win l abs io held ∧ held = some text := by
    intro name
    unfold newBackup
    split
    · next can =>
      cases held with
      | none => simp
      | some data => simp [can,eq_comm (a := text)]
    · next cannot => simp [cannot]
  constructor
  · rintro ⟨name,member⟩
    obtain ⟨stored,kept⟩ := List.mem_filter.mp member
    have unpruned := (stays name stored).mp kept
    rcases List.mem_append.mp stored with old | new
    · exact .inl ⟨name,old,unpruned⟩
    · obtain ⟨rfl,can,same⟩ := (made name).mp new
      exact .inr ⟨can,same,unpruned⟩
  · rintro (⟨name,old,unpruned⟩ | ⟨can,same,unpruned⟩)
    · have stored := List.mem_append_left (newBackup win l abs io held) old
      exact ⟨name,List.mem_filter.mpr ⟨stored,(stays name stored).mpr unpruned⟩⟩
    · have stored := List.mem_append_right l.backups ((made _).mpr ⟨rfl,can,same⟩)
      exact ⟨_,List.mem_filter.mpr ⟨stored,(stays _ stored).mpr unpruned⟩⟩

end

/-! ### The paths -/

section
variable {win : Windows} {l : Local} {abs : WStr}

theorem atomicWrites_paths (data : Bytes) (fate : WriteFate) :
    (atomicWrites win abs data fate).map Prod.fst = writtenPaths win abs fate := by
  cases fate <;> rfl

theorem atomicWrites_last (data : Bytes) (fate : WriteFate) (text : Bytes) :
    (∃ other, Table.lastWrite other (atomicWrites win abs data fate) = some (some text)) ↔ Installed fate data text := by
  cases fate with
  | notOpened => simp [atomicWrites,Table.lastWrite,Installed]
  | abandoned leftover => simp [atomicWrites,Table.lastWrite,Installed]
  | replaced =>
    simp only [atomicWrites,Table.lastWrite,Installed,true_and,reduceCtorEq,or_false]
    constructor
    · rintro ⟨other,last⟩
      by_cases here : PathUtil.wlower win abs = other
      · simpa [here] using last
      · by_cases temporary : PathUtil.wlower win (tmpPath abs) = other
        · simp [here,temporary] at last
        · simp [here,temporary] at last
    · rintro rfl
      exact ⟨PathUtil.wlower win abs,by simp⟩

variable (win l abs) (copy both : WStr) (io : ResolveIo)

/-- What a move writes, if there is one. -/
theorem moves_cases : (¬Moves win l copy io ∧ (if io.moves then moveWrites win l.disk copy both else []) = []) ∨
    ∃ data, Moves win l copy io ∧ l.disk.read win copy = some data ∧ (if io.moves then moveWrites win l.disk copy both else []) =
      [(PathUtil.wlower win copy,none),(PathUtil.wlower win both,some data)] := by
  unfold Moves moveWrites
  cases io.moves with
  | false => exact .inl ⟨fun moves => Bool.noConfusion moves.1,rfl⟩
  | true =>
    cases l.disk.read win copy with
    | none => exact .inl ⟨fun moves => Bool.noConfusion moves.2,rfl⟩
    | some data => exact .inr ⟨data,⟨rfl,rfl⟩,rfl,rfl⟩

theorem moveWrites_paths : (if io.moves then moveWrites win l.disk copy both else []).map Prod.fst = movedPaths win l copy both io := by
  unfold movedPaths
  rcases moves_cases win l copy both io with ⟨stays,writes⟩ | ⟨data,moves,-,writes⟩
  · rw [writes,if_neg stays]
    rfl
  · rw [writes,if_pos moves]
    rfl

theorem moveWrites_last (paths : List WStr) (text : Bytes) :
    (∃ other, other ∉ paths ∧ Table.lastWrite other (if io.moves then moveWrites win l.disk copy both else []) = some (some text)) ↔
      Moves win l copy io ∧ l.disk.read win copy = some text ∧ PathUtil.wlower win both ∉ paths := by
  rcases moves_cases win l copy both io with ⟨stays,writes⟩ | ⟨data,moves,held,writes⟩
  · rw [writes]
    simp [Table.lastWrite,stays]
  · rw [writes,held]
    simp only [Table.lastWrite,moves,true_and,Option.some.injEq]
    constructor
    · rintro ⟨other,outside,last⟩
      by_cases here : PathUtil.wlower win both = other
      · subst here
        exact ⟨by simpa using last,outside⟩
      · by_cases gone : PathUtil.wlower win copy = other
        · simp [here,gone] at last
        · simp [here,gone] at last
    · rintro ⟨rfl,outside⟩
      exact ⟨_,outside,by simp⟩

theorem read_moved : (if io.moves then l.disk.move win copy both else l.disk).read win abs = heldThen win l abs copy both io := by
  unfold heldThen
  have unmoved : (if io.moves then l.disk.move win copy both else l.disk).files =
      l.disk.files.writes (if io.moves then moveWrites win l.disk copy both else []) := by
    split
    · exact move_writes win l.disk copy both
    · rfl
  unfold Disk.read
  rw [unmoved,Table.get_writes]
  rcases moves_cases win l copy both io with ⟨stays,writes⟩ | ⟨data,moves,held,writes⟩
  · rw [writes,if_neg stays]
    rfl
  · rw [writes,if_pos moves]
    unfold Disk.read at held
    by_cases here : PathUtil.wlower win abs = PathUtil.wlower win both
    · rw [if_pos here,held,here]
      simp [Table.lastWrite]
    · rw [if_neg here]
      by_cases gone : PathUtil.wlower win abs = PathUtil.wlower win copy
      · have other : PathUtil.wlower win both ≠ PathUtil.wlower win copy := fun same => here (gone.trans same.symm)
        rw [if_pos gone,gone]
        simp [Table.lastWrite,other]
      · rw [if_neg gone]
        simp [Table.lastWrite,Ne.symm here,Ne.symm gone]

end

/-! ### The strategies -/

section
variable (plat : Platform) (dev : Device) (l : Local) (target : ConflictState) (abs : WStr) (io : ResolveIo) (r : ApiResponse)

/-- An effect that writes nothing. -/
theorem spares_nothing (backups : List (WStr × Bytes)) (accepted : Option Bytes) : (⟨[],backups,accepted⟩ : Effect).Spares l :=
  fun _ member => absurd member List.not_mem_nil

theorem localEffect_spares_iff : (localEffect plat dev l target abs io r).Spares l ↔ LocalSpares plat dev l target abs io r := by
  unfold localEffect LocalSpares
  cases copy : readFileBytes plat.win l.disk (PathUtil.utf8ToWide plat.win target.localCopyPath) io.opens with
  | none => exact ⟨fun _ data read => absurd read.symm (Option.some_ne_none data),fun _ => spares_nothing l _ _⟩
  | some data =>
    have accepted : ∀ text, (if ((buildFilePayload plat dev l.db target.relPath data target.remoteVersion
        (((l.db.getFile target.relPath).map (·.versionVector)).getD .empty) io.rnd).isSome && decide (r.status = 200)) = true
        then some data else none) = some text ↔ Uploads plat dev l target io r data ∧ data = text := by
      intro text
      rw [Option.ite_none_right_eq_some,Bool.and_eq_true,decide_eq_true_eq,and_comm (a := _ = true),Option.some.injEq]
      rfl
    simp only [Option.some.injEq,forall_eq']
    unfold Effect.Spares
    simp only [atomicWrites_paths,atomicWrites_last,accepted]
    refine forall₄_congr fun path _ text _ => ?_
    simp only [Elsewhere,or_comm,or_left_comm,or_assoc]

theorem remoteEffect_spares_iff : (remoteEffect plat dev l abs io r).Spares l ↔ RemoteSpares plat dev l abs io r := by
  unfold remoteEffect RemoteSpares
  cases fetched : installedText plat dev r with
  | none => exact ⟨fun _ plain read => absurd read.symm (Option.some_ne_none plain),fun _ => spares_nothing l _ _⟩
  | some plain =>
    have backedUp := mem_backupReplaced_iff plat.win l abs io.backup l.disk
    simp only [Option.some.injEq,forall_eq']
    unfold Effect.Spares
    simp only [atomicWrites_paths,atomicWrites_last,backedUp,reduceCtorEq,or_false]
    refine forall₄_congr fun path _ text _ => ?_
    simp only [Elsewhere,or_comm,or_left_comm]

theorem bothEffect_spares_iff : (bothEffect plat dev l target abs io r).Spares l ↔ BothSpares plat dev l target abs io r := by
  unfold bothEffect BothSpares
  dsimp only
  generalize PathUtil.utf8ToWide plat.win target.localCopyPath = copy
  generalize bothName plat dev abs io.date = both
  cases fetched : installedText plat dev r with
  | none => exact ⟨fun _ plain read => absurd read.symm (Option.some_ne_none plain),fun _ => spares_nothing l _ _⟩
  | some plain =>
    have backedUp := mem_backupReplaced_iff plat.win l abs io.backup (if io.moves then l.disk.move plat.win copy both else l.disk)
    rw [read_moved] at backedUp
    simp only [Option.some.injEq,forall_eq']
    unfold Effect.Spares
    simp only [List.map_append,moveWrites_paths,atomicWrites_paths,Table.exists_lastWrite_append_iff,atomicWrites_last,
      moveWrites_last,backedUp,reduceCtorEq,or_false]
    refine forall₄_congr fun path _ text _ => ?_
    simp only [Elsewhere,or_comm,or_left_comm,or_assoc]

/-- A resolution whose request is answered with `r` destroys nothing exactly when its
strategy spares each text that it writes over. -/
theorem resolution_destroys_nothing_iff (fileId strategy : Str) :
    DestroysNothing plat dev l ((resolveConflict plat dev l fileId strategy io).run (answering fun _ => r) []).2
        ((resolveConflict plat dev l fileId strategy io).run (answering fun _ => r) []).1.2 ↔
      ∀ target abs, l.db.conflicts.get fileId = some target → absPathForRel plat.win l.db target.relPath = some abs →
        SparesReplaced plat dev l target abs io r strategy := by
  rw [(resolution_effect plat dev l fileId strategy io r).destroys_iff]
  unfold resolutionEffect
  cases found : l.db.conflicts.get fileId with
  | none => exact ⟨fun _ target abs known => absurd known.symm (Option.some_ne_none target),fun _ => spares_nothing l _ _⟩
  | some target =>
    dsimp only
    cases mapped : absPathForRel plat.win l.db target.relPath with
    | none =>
      refine ⟨fun _ other abs known maps => ?_,fun _ => spares_nothing l _ _⟩
      rw [← Option.some.inj known,mapped] at maps
      contradiction
    | some abs =>
      dsimp only
      have chosen : SparesReplaced plat dev l target abs io r strategy ↔ ∀ other path, some target = some other →
          absPathForRel plat.win l.db other.relPath = some path → SparesReplaced plat dev l other path io r strategy := by
        constructor
        · intro spares other path same maps
          obtain rfl := Option.some.inj same
          obtain rfl := Option.some.inj (mapped.symm.trans maps)
          exact spares
        · exact fun each => each target abs rfl mapped
      rw [← chosen]
      have apart : lit "keepLocal" ≠ lit "keepRemote" ∧ lit "keepLocal" ≠ lit "keepBoth" ∧ lit "keepRemote" ≠ lit "keepBoth" := by
        decide
      split
      · next first =>
        subst first
        rw [localEffect_spares_iff]
        exact ⟨fun spares => ⟨fun _ => spares,fun same => absurd same apart.1,fun same => absurd same apart.2.1⟩,
          fun all => all.keepLocal rfl⟩
      next notLocal =>
      split
      · next second =>
        subst second
        rw [remoteEffect_spares_iff]
        exact ⟨fun spares => ⟨fun same => absurd same notLocal,fun _ => spares,fun same => absurd same apart.2.2⟩,
          fun all => all.keepRemote rfl⟩
      next notRemote =>
      split
      · next third =>
        subst third
        rw [bothEffect_spares_iff]
        exact ⟨fun spares => ⟨fun same => absurd same notLocal,fun same => absurd same notRemote,fun _ => spares⟩,
          fun all => all.keepBoth rfl⟩
      · next notBoth =>
        exact ⟨fun _ => ⟨fun same => absurd same notLocal,fun same => absurd same notRemote,fun same => absurd same notBoth⟩,
          fun _ => spares_nothing l _ _⟩

end

/-- With fewer than five backups nothing is pruned. -/
theorem unpruned_few {win : Windows} {l : Local} {abs : WStr} {io : BackupIo} {held : Option Bytes}
    (few : ((l.backups.map Prod.fst).filter (isBackupOf win (PathUtil.fileNameOf abs))).length < kMaxBackupsPerFile) (name : WStr) :
    Unpruned win abs (backupNames win l abs io held) name := by
  intro _
  refine Nat.le_trans (List.length_filter_le _ _) ?_
  have one : ((if Copyable win l abs io held then [backupName abs io.time] else []).filter
      (isBackupOf win (PathUtil.fileNameOf abs))).length ≤ 1 := by
    refine Nat.le_trans (List.length_filter_le _ _) ?_
    split
    · exact Nat.le_refl 1
    · exact Nat.zero_le 1
  rw [backupNames,List.filter_append,List.length_append]
  omega

/-- `keepRemote` destroys nothing when the file can be copied to a name that is free, there
are fewer than five backups and nothing has the temporary name. -/
theorem remote_spares (plat : Platform) (dev : Device) (l : Local) (abs : WStr) (io : ResolveIo) (r : ApiResponse)
    (readable : io.backup.copies = true)
    (free : ∀ old ∈ l.backups, PathUtil.wlower plat.win old.1 ≠ PathUtil.wlower plat.win (backupName abs io.backup.time))
    (few : ((l.backups.map Prod.fst).filter (isBackupOf plat.win (PathUtil.fileNameOf abs))).length < kMaxBackupsPerFile)
    (unused : l.disk.read plat.win (tmpPath abs) = none) : RemoteSpares plat dev l abs io r := by
  intro plain _ path written text held
  have own : path = PathUtil.wlower plat.win abs := by
    have temporary : path ≠ PathUtil.wlower plat.win (tmpPath abs) := by
      rintro rfl
      exact absurd (held.symm.trans unused) (Option.some_ne_none text)
    unfold writtenPaths at written
    split at written
    · contradiction
    · exact absurd (List.mem_singleton.mp written) temporary
    · exact List.mem_singleton.mp ((List.mem_cons.mp written).resolve_left temporary)
  subst own
  exact .inr (.inr (.inr ⟨⟨Option.isSome_iff_exists.mpr ⟨text,held⟩,readable,free⟩,held,unpruned_few few _⟩))

/-! ### A file that was edited after its conflict -/

section
open KnownAnswers

/-- `notes.txt` was saved again after the conflict. -/
private def editedSince : Local := {inConflict with disk := inConflict.disk.write ascii (wlit "C:\\notes\\notes.txt") (lit "newer")}

private def copyInstalled : Effect := resolutionEffect platform laptop editedSince notesId (lit "keepLocal") resolveWorks phoneAnswer

/-- `keepLocal` installs the copy over the newer text without a backup. -/
theorem newer_text_destroyed : ¬∀ (plat : Platform) (dev : Device) (l : Local) (fileId strategy : Str) (io : ResolveIo)
    (r : ApiResponse), DestroysNothing plat dev l
      ((resolveConflict plat dev l fileId strategy io).run (answering fun _ => r) []).2
      ((resolveConflict plat dev l fileId strategy io).run (answering fun _ => r) []).1.2 := by
  intro destroys
  have spares : copyInstalled.Spares editedSince :=
    (resolution_effect platform laptop editedSince notesId (lit "keepLocal") resolveWorks phoneAnswer).destroys_iff.mp
      (destroys platform laptop editedSince notesId (lit "keepLocal") resolveWorks phoneAnswer)
  have facts : editedSince.disk.files.get (wlit "c:\\notes\\notes.txt") = some (lit "newer") ∧
      wlit "c:\\notes\\notes.txt" ∈ copyInstalled.writes.map Prod.fst ∧ copyInstalled.backups = [] ∧
      copyInstalled.accepted ≠ some (lit "newer") ∧ copyInstalled.writes.all (fun w => w.2 ≠ some (lit "newer")) = true ∧
      editedSince.disk.files.rows.all (fun row => row.2 ≠ lit "newer" ∨ row.1 ∈ copyInstalled.writes.map Prod.fst) = true := by
    decide +kernel
  obtain ⟨held,member,backups,accepted,written,left⟩ := facts
  rcases spares _ member _ held with (⟨name,kept⟩ | head) | ⟨other,last⟩ | ⟨other,absent,there⟩
  · rw [backups] at kept
    exact List.not_mem_nil kept
  · exact accepted head
  · have differs := of_decide_eq_true (List.all_eq_true.mp written _ (Table.mem_of_lastWrite last))
    exact differs rfl
  · have row := of_decide_eq_true (List.all_eq_true.mp left _ ((Table.mem_rows_iff _ _ _).mpr there))
    exact row.elim (fun differs => differs rfl) absent

end
end NPSync.Engine
