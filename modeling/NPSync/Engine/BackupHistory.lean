import NPSync.Engine.Device
import NPSync.Library.Retention
import NPSync.Library.Run

/-! The backups of replaced files over runs of `backupReplaced`. The directory knows
names only; the file that a backup is of and the contents that were replaced stand
beside it. -/
namespace NPSync.Engine
open Library Library.Retention

/-- A file: its folder and its name, in any letter case. -/
structure FileId where
  folder : WStr
  name : WStr
  deriving DecidableEq

/-- A call, with the disk that it finds. -/
structure BackupCall where
  absPath : WStr
  disk : Disk
  io : BackupIo

/-- The directory lists its backups in the order in which they were made. -/
structure BackupState where
  engine : Local
  owner : WStr → Option FileId
  replaced : FileId → List Bytes

section
variable (win : Windows)

def fileId (absPath : WStr) : FileId :=
  ⟨PathUtil.wlower win (PathUtil.dirOf absPath),PathUtil.wlower win (PathUtil.fileNameOf absPath)⟩

def backupName (absPath : WStr) (time : Nat) : WStr :=
  PathUtil.fileNameOf absPath ++ wlit "." ++ wdecimal time ++ wlit ".bak"

namespace BackupCall
variable (c : BackupCall)

def file : FileId := fileId win c.absPath

def dst : WStr := backupName c.absPath c.io.time

/-- The content that is about to be replaced. -/
def content : Option Bytes := c.disk.read win c.absPath

end BackupCall

namespace BackupState
variable (s : BackupState)

def taken (name : WStr) : Bool := s.engine.backups.any fun old => PathUtil.wlower win old.1 = PathUtil.wlower win name

/-- The contents that the directory holds of a file. -/
def held (file : FileId) : List Bytes := (s.engine.backups.filter fun b => s.owner b.1 = some file).map Prod.snd

/-- The backups that the wildcard finds. -/
def found (c : BackupCall) : List WStr :=
  (s.engine.backups.map Prod.fst).filter (isBackupOf win (PathUtil.fileNameOf c.absPath))

/-- Those, and the new one. -/
def names (c : BackupCall) : List WStr := s.found win c ++ if (c.content win).isSome then [c.dst] else []

def step (s : BackupState) (c : BackupCall) : BackupState where
  engine := backupReplaced win {s.engine with disk := c.disk} c.absPath c.io
  owner := if (readFileBytes win c.disk c.absPath c.io.copies).isSome && !s.taken win c.dst then
      Function.update s.owner c.dst (some (c.file win))
    else s.owner
  replaced := match c.content win with
    | some data => Function.update s.replaced (c.file win) (s.replaced (c.file win) ++ [data])
    | none => s.replaced

/-- A directory as it is found, with an attribution of its backups. -/
def start (engine : Local) (owner : WStr → Option FileId) : BackupState :=
  ⟨engine,owner,(⟨engine,owner,fun _ => []⟩ : BackupState).held⟩

end BackupState

/-- A backup that is of a file has a name that `backupReplaced` gives to that file. -/
def Attributed (owner : WStr → Option FileId) : Prop :=
  ∀ name file, owner name = some file → ∃ absPath time, fileId win absPath = file ∧ name = backupName absPath time

/-- After a call the directory has the newest contents of its file, and what it had of
other files. -/
structure KeptPerFile (s : BackupState) (c : BackupCall) : Prop where
  newest : (s.step win c).held (c.file win) = ((s.step win c).replaced (c.file win)).rtake kMaxBackupsPerFile
  others : ∀ b ∈ s.engine.backups, ∀ file, s.owner b.1 = some file → file ≠ c.file win →
    b ∈ (s.step win c).engine.backups

/-- The new name is free and the file can be copied; and there is room, or the
backups that the wildcard finds are all of this file and the names of the oldest,
beyond the number kept, come before those of the newest. -/
structure Apart (s : BackupState) (c : BackupCall) : Prop where
  copied : (c.content win).isSome = true → c.io.copies = true ∧ s.taken win c.dst = false
  room : (s.names win c).length ≤ kMaxBackupsPerFile ∨
    (∀ name ∈ s.found win c, s.owner name = some (c.file win)) ∧
      ∀ old ∈ (s.names win c).rdrop kMaxBackupsPerFile, ∀ new ∈ (s.names win c).rtake kMaxBackupsPerFile, old < new

/-! ### Names -/

variable {win}

theorem wlower_plain {text : WStr} (plain : ∀ c ∈ text, win.towlower c = c) (slashless : (47 : UInt16) ∉ text) :
    PathUtil.wlower win text = text := by
  unfold PathUtil.wlower PathUtil.backslashed
  rw [List.map_map]
  refine (List.map_congr_left ?_).trans (List.map_id text)
  intro c member
  have other : c ≠ 47 := fun same => slashless (same ▸ member)
  simp [plain c member,other]

/-- A wildcard finds what `backupReplaced` names after the same file name. -/
theorem isBackupOf_backupName (plain : ∀ c ∈ wlit ".bak", win.towlower c = c) {name absPath : WStr} {time : Nat}
    (same : PathUtil.wlower win (PathUtil.fileNameOf absPath) = PathUtil.wlower win name) :
    isBackupOf win name (backupName absPath time) = true := by
  have slashless : (47 : UInt16) ∉ wlit ".bak" := by decide
  have dotted : ∀ c ∈ wlit ".", c ∈ wlit ".bak" := fun c member => List.mem_append_left (wlit "bak") member
  have suffix : PathUtil.wlower win (wlit ".bak") = wlit ".bak" := wlower_plain plain slashless
  have dot : PathUtil.wlower win (wlit ".") = wlit "." :=
    wlower_plain (fun c member => plain c (dotted c member)) (fun member => slashless (dotted 47 member))
  unfold isBackupOf backupName
  rw [wlower_append,wlower_append,wlower_append,same,suffix,dot,List.append_assoc _ _ (wlit ".bak")]
  dsimp only
  rw [List.drop_left,Bool.and_eq_true]
  constructor
  · exact List.isPrefixOf_iff_prefix.mpr (List.prefix_append _ _)
  · exact List.isSuffixOf_iff_suffix.mpr (List.suffix_append _ _)

/-! ### Times -/

/-- A digit of a file name. -/
def wdigit (d : Nat) : UInt16 := UInt16.ofNat (UInt8.ofNat (48 + d)).toNat

theorem wdigit_lt : ∀ x < 10, ∀ y < 10, x < y → wdigit x < wdigit y := by decide

theorem digits_lt {xs ys : List Nat} (lengths : xs.length = ys.length) (small : ∀ d ∈ xs ++ ys, d < 10)
    (less : Nat.ofDigits 10 xs.reverse < Nat.ofDigits 10 ys.reverse) (back : WStr) :
    xs.map wdigit ++ back < ys.map wdigit ++ back := by
  induction xs generalizing ys with
  | nil =>
    cases ys with
    | nil => exact absurd less (Nat.lt_irrefl _)
    | cons y ys => contradiction
  | cons x xs ih =>
    cases ys with
    | nil => contradiction
    | cons y ys =>
      have same : xs.length = ys.length := Nat.succ.inj lengths
      have first := small x (by simp)
      have second := small y (by simp)
      have rest : ∀ d ∈ xs ++ ys, d < 10 := by
        intro d member
        apply small
        rcases List.mem_append.mp member with left | right
        · simp [left]
        · simp [right]
      rw [List.map_cons,List.map_cons,List.cons_append,List.cons_append,List.cons_lt_cons_iff]
      rw [List.reverse_cons,List.reverse_cons,Nat.ofDigits_append,Nat.ofDigits_append,List.length_reverse,List.length_reverse,
        Nat.ofDigits_singleton,Nat.ofDigits_singleton,same] at less
      have bound := Nat.ofDigits_lt_base_pow_length (b := 10) (l := xs.reverse) (by decide) (by
        intro d member
        exact rest d (List.mem_append_left _ (List.mem_reverse.mp member)))
      have bound' := Nat.ofDigits_lt_base_pow_length (b := 10) (l := ys.reverse) (by decide) (by
        intro d member
        exact rest d (List.mem_append_right _ (List.mem_reverse.mp member)))
      rw [List.length_reverse] at bound bound'
      rw [same] at bound
      rcases Nat.lt_trichotomy x y with below | equal | above
      · exact .inl (wdigit_lt x first y second below)
      · subst equal
        exact .inr ⟨rfl,ih same rest (by omega)⟩
      · exfalso
        have step : 10 ^ ys.length * (y + 1) ≤ 10 ^ ys.length * x := Nat.mul_le_mul_left _ above
        rw [Nat.mul_succ] at step
        omega

theorem wdecimal_digits {n : Nat} (positive : 0 < n) : wdecimal n = (Nat.digits 10 n).reverse.map wdigit := by
  unfold wdecimal decimalNat
  rw [if_neg (Nat.ne_of_gt positive),List.map_map]
  rfl

/-- A later time with as many digits makes a greater name, if the file's is spelled
the same. -/
theorem backupName_lt {a b : WStr} (same : PathUtil.fileNameOf a = PathUtil.fileNameOf b) {t u : Nat} (positive : 0 < t)
    (later : t < u) (digits : (Nat.digits 10 t).length = (Nat.digits 10 u).length) : backupName a t < backupName b u := by
  have parts : ∀ absPath time, backupName absPath time =
      (PathUtil.fileNameOf absPath ++ wlit ".") ++ (wdecimal time ++ wlit ".bak") :=
    fun absPath time => List.append_assoc _ (wdecimal time) _
  rw [parts,parts,same,wdecimal_digits positive,wdecimal_digits (Nat.lt_trans positive later)]
  apply List.append_left_lt
  apply digits_lt
  · simpa using digits
  · intro d member
    rcases List.mem_append.mp member with first | second
    · exact Nat.digits_lt_base (by decide) (List.mem_reverse.mp first)
    · exact Nat.digits_lt_base (by decide) (List.mem_reverse.mp second)
  · rwa [List.reverse_reverse,List.reverse_reverse,Nat.ofDigits_digits,Nat.ofDigits_digits]

/-! The order in which `std::sort` puts names. -/

instance : Std.Total (fun a b : WStr => ¬b < a) := ⟨List.le_total⟩
instance : IsTrans WStr (fun a b => ¬b < a) := ⟨fun _ _ _ first second => List.le_trans first second⟩
instance : Std.Antisymm (fun a b : WStr => ¬b < a) := ⟨fun _ _ first second => List.le_antisymm first second⟩

/-! ### One call -/

section
variable (win) (s : BackupState) (c : BackupCall)

/-- The directory before the old backups are deleted. -/
def stored : List (WStr × Bytes) := s.engine.backups ++ ((c.content win).map fun data => (c.dst,data)).toList

end

variable {s : BackupState} {c : BackupCall}

theorem Apart.dst_new (apart : Apart win s c) (exists_ : (c.content win).isSome = true) :
    ∀ b ∈ s.engine.backups, b.1 ≠ c.dst := by
  intro b member same
  have taken : s.taken win c.dst = true := List.any_eq_true.mpr ⟨b,member,by simp [same]⟩
  rw [(apart.copied exists_).2] at taken
  contradiction

theorem Apart.owner_step (apart : Apart win s c) : (s.step win c).owner =
    if (c.content win).isSome then Function.update s.owner c.dst (some (c.file win)) else s.owner := by
  cases present : c.content win with
  | none =>
    have absent : readFileBytes win c.disk c.absPath c.io.copies = none := by
      unfold readFileBytes
      split
      · exact present
      · rfl
    simp [BackupState.step,absent]
  | some data =>
    obtain ⟨copies,free⟩ := apart.copied (by rw [present]; rfl)
    have read : readFileBytes win c.disk c.absPath c.io.copies = some data := (if_pos copies).trans present
    simp [BackupState.step,read,free]

theorem stored_names (plain : ∀ c ∈ wlit ".bak", win.towlower c = c) :
    ((stored win s c).map Prod.fst).filter (isBackupOf win (PathUtil.fileNameOf c.absPath)) = s.names win c := by
  have own : isBackupOf win (PathUtil.fileNameOf c.absPath) c.dst = true := isBackupOf_backupName plain rfl
  unfold stored BackupState.names BackupState.found
  rw [List.map_append,List.filter_append]
  cases c.content win with
  | none => rfl
  | some data => simp [own]

/-- A call that is kept apart stores the content and deletes the first names beyond
the number. -/
theorem Apart.step_backups (plain : ∀ c ∈ wlit ".bak", win.towlower c = c) (apart : Apart win s c) :
    (s.step win c).engine.backups = (stored win s c).filter fun b =>
      !(((s.names win c).insertionSort fun a b => ¬b < a).take
        (((s.names win c).insertionSort fun a b => ¬b < a).length - kMaxBackupsPerFile)).contains b.1 := by
  have copied : (match readFileBytes win c.disk c.absPath c.io.copies with
      | some data => if s.taken win c.dst then s.engine.backups else s.engine.backups ++ [(c.dst,data)]
      | none => s.engine.backups) = stored win s c := by
    unfold stored
    cases present : c.content win with
    | none =>
      have absent : readFileBytes win c.disk c.absPath c.io.copies = none := by
        unfold readFileBytes
        split
        · exact present
        · rfl
      simp [absent]
    | some data =>
      obtain ⟨copies,free⟩ := apart.copied (by rw [present]; rfl)
      have read : readFileBytes win c.disk c.absPath c.io.copies = some data := (if_pos copies).trans present
      simp [read,free]
  rw [← stored_names plain,← copied]
  rfl

/-- The new backup is attributed to the file of the call. -/
theorem Apart.held_stored (apart : Apart win s c) (file : FileId) :
    ((stored win s c).filter fun b => (s.step win c).owner b.1 = some file).map Prod.snd =
      s.held file ++ if file = c.file win then (c.content win).toList else [] := by
  rw [apart.owner_step,stored,List.filter_append,List.map_append]
  cases present : c.content win with
  | none => simp [BackupState.held]
  | some data =>
    have old : (s.engine.backups.filter fun b => Function.update s.owner c.dst (some (c.file win)) b.1 = some file) =
        s.engine.backups.filter fun b => s.owner b.1 = some file := by
      apply List.filter_congr
      intro b member
      rw [Function.update_of_ne (apart.dst_new (by rw [present]; rfl) b member)]
    by_cases same : file = c.file win
    · subst same
      simp [old,BackupState.held]
    · simp [old,same,Ne.symm same,BackupState.held]

/-- What stands beside the directory is true of it. -/
structure BackupInv (win : Windows) (s : BackupState) : Prop where
  attributed : Attributed win s.owner
  retained : ∀ file, Retains kMaxBackupsPerFile (s.held file) (s.replaced file)

theorem Attributed.step (attributed : Attributed win s.owner) (apart : Apart win s c) :
    Attributed win (s.step win c).owner := by
  rw [apart.owner_step]
  split
  · intro name file owned
    by_cases new : name = c.dst
    · rw [new,Function.update_self] at owned
      exact ⟨c.absPath,c.io.time,Option.some.inj owned,new⟩
    · rw [Function.update_of_ne new] at owned
      exact attributed name file owned
  · exact attributed

/-- What was replaced after the call. -/
theorem replaced_step (file : FileId) : (s.step win c).replaced file =
    s.replaced file ++ if file = c.file win then (c.content win).toList else [] := by
  have defined : (s.step win c).replaced = match c.content win with
      | some data => Function.update s.replaced (c.file win) (s.replaced (c.file win) ++ [data])
      | none => s.replaced := rfl
  rw [defined]
  cases c.content win with
  | none => simp
  | some data =>
    by_cases same : file = c.file win
    · simp [same]
    · simp [same]

/-- Before anything is deleted the directory has enough of every file. -/
theorem BackupInv.stored_retains (inv : BackupInv win s) (apart : Apart win s c) (file : FileId) :
    Retains kMaxBackupsPerFile (((stored win s c).filter fun b => (s.step win c).owner b.1 = some file).map Prod.snd)
      ((s.step win c).replaced file) := by
  rw [apart.held_stored,replaced_step]
  split
  · cases c.content win with
    | none => simpa using inv.retained file
    | some data => exact (inv.retained file).snoc data
  · simpa using inv.retained file

/-- The backups of the file are found by the wildcard. -/
theorem BackupInv.own_found (plain : ∀ c ∈ wlit ".bak", win.towlower c = c) (inv : BackupInv win s)
    (apart : Apart win s c) {name : WStr} (own : (s.step win c).owner name = some (c.file win)) :
    isBackupOf win (PathUtil.fileNameOf c.absPath) name = true := by
  obtain ⟨absPath,time,same,rfl⟩ := inv.attributed.step apart name _ own
  exact isBackupOf_backupName plain (congrArg FileId.name same)

theorem held_eq (file : FileId) : s.held file = (s.engine.backups.filter fun b => s.owner b.1 = some file).map Prod.snd := rfl

/-- With room nothing is deleted. -/
theorem Apart.step_room (plain : ∀ c ∈ wlit ".bak", win.towlower c = c) (apart : Apart win s c)
    (room : (s.names win c).length ≤ kMaxBackupsPerFile) : (s.step win c).engine.backups = stored win s c := by
  rw [apart.step_backups plain,List.length_insertionSort,Nat.sub_eq_zero_of_le room]
  simp

/-- Otherwise the oldest backups of the file are. -/
theorem Apart.step_full (plain : ∀ c ∈ wlit ".bak", win.towlower c = c) (apart : Apart win s c)
    (oldest : ∀ old ∈ (s.names win c).rdrop kMaxBackupsPerFile, ∀ new ∈ (s.names win c).rtake kMaxBackupsPerFile, old < new)
    (many : kMaxBackupsPerFile ≤ (s.names win c).length) : (s.step win c).engine.backups = (stored win s c).filter fun b =>
      !((s.names win c).take ((s.names win c).length - kMaxBackupsPerFile)).contains b.1 := by
  have halves : (s.names win c).rdrop kMaxBackupsPerFile ++ (s.names win c).rtake kMaxBackupsPerFile = s.names win c :=
    List.take_append_drop _ _
  have last : ((s.names win c).rtake kMaxBackupsPerFile).length = kMaxBackupsPerFile := by
    rw [List.rtake,List.length_drop]
    omega
  have before : ∀ old ∈ (s.names win c).rdrop kMaxBackupsPerFile, ∀ new ∈ (s.names win c).rtake kMaxBackupsPerFile,
      ¬new < old ∧ ¬¬old < new := fun old early new late =>
    ⟨List.lt_asymm (oldest old early new late),not_not.mpr (oldest old early new late)⟩
  have first := mem_front_iff (fun a b : WStr => ¬b < a) before
  rw [halves,last] at first
  rw [apart.step_backups plain]
  apply List.filter_congr
  intro b _
  apply congrArg
  rw [Bool.eq_iff_iff,List.contains_iff_mem,List.contains_iff_mem]
  exact first b.1

theorem stored_old {b : WStr × Bytes} (member : b ∈ s.engine.backups) : b ∈ stored win s c := List.mem_append_left _ member

/-- All that the wildcard finds after the copy is of the file. -/
theorem Apart.names_own (apart : Apart win s c) (own : ∀ name ∈ s.found win c, s.owner name = some (c.file win)) :
    ∀ name ∈ s.names win c, (s.step win c).owner name = some (c.file win) := by
  intro name member
  rw [apart.owner_step]
  unfold BackupState.names at member
  cases present : (c.content win).isSome with
  | false =>
    rw [present,if_neg Bool.false_ne_true,List.append_nil] at member
    exact own name member
  | true =>
    rw [present,if_pos rfl] at member
    rw [if_pos rfl]
    by_cases new : name = c.dst
    · rw [new,Function.update_self]
    · rw [Function.update_of_ne new]
      rcases List.mem_append.mp member with old | copy
      · exact own name old
      · exact absurd (List.mem_singleton.mp copy) new

/-- An old backup of another file keeps its attribution. -/
theorem Apart.owner_old (apart : Apart win s c) {b : WStr × Bytes} (member : b ∈ s.engine.backups) :
    (s.step win c).owner b.1 = s.owner b.1 := by
  rw [apart.owner_step]
  split
  · rename_i present
    exact Function.update_of_ne (apart.dst_new present b member) _ _
  · rfl

/-- The stored backups of the file are among those that the wildcard finds. -/
theorem BackupInv.own_le_names (plain : ∀ c ∈ wlit ".bak", win.towlower c = c) (inv : BackupInv win s)
    (apart : Apart win s c) :
    ((stored win s c).filter fun b => (s.step win c).owner b.1 = some (c.file win)).length ≤ (s.names win c).length := by
  rw [← stored_names plain,List.filter_map,List.length_map,← List.countP_eq_length_filter,← List.countP_eq_length_filter]
  apply List.countP_mono_left
  intro b member own
  exact inv.own_found plain apart (of_decide_eq_true own)

/-- With room everything that is stored stays. -/
theorem BackupInv.step_room (plain : ∀ c ∈ wlit ".bak", win.towlower c = c) (inv : BackupInv win s)
    (apart : Apart win s c) (room : (s.names win c).length ≤ kMaxBackupsPerFile) :
    BackupInv win (s.step win c) ∧ KeptPerFile win s c := by
  have backups := apart.step_room plain room
  have enough := inv.stored_retains apart
  have few := Nat.le_trans (inv.own_le_names plain apart) room
  constructor
  · refine ⟨inv.attributed.step apart,?_⟩
    intro file
    rw [held_eq,backups]
    exact enough file
  · constructor
    case newest =>
      rw [held_eq,backups]
      apply (enough (c.file win)).exact
      rwa [List.length_map]
    case others =>
      intro b member file owner other
      rw [backups]
      exact stored_old member

section
variable (plain : ∀ c ∈ wlit ".bak", win.towlower c = c) (inv : BackupInv win s) (apart : Apart win s c)
  (own : ∀ name ∈ s.found win c, s.owner name = some (c.file win))
  (oldest : ∀ old ∈ (s.names win c).rdrop kMaxBackupsPerFile, ∀ new ∈ (s.names win c).rtake kMaxBackupsPerFile, old < new)
  (many : kMaxBackupsPerFile ≤ (s.names win c).length)
include plain inv apart own oldest many

omit oldest many in
/-- Then they are what the wildcard finds. -/
theorem BackupInv.own_names : ((stored win s c).filter fun b => (s.step win c).owner b.1 = some (c.file win)).map Prod.fst =
    s.names win c := by
  have owned : ((stored win s c).filter fun b => (s.step win c).owner b.1 = some (c.file win)) =
      (stored win s c).filter fun b => isBackupOf win (PathUtil.fileNameOf c.absPath) b.1 := by
    apply List.filter_congr
    intro b member
    cases finds : isBackupOf win (PathUtil.fileNameOf c.absPath) b.1 with
    | false =>
      apply decide_eq_false
      intro same
      rw [inv.own_found plain apart same] at finds
      contradiction
    | true =>
      apply decide_eq_true
      apply apart.names_own own
      rw [← stored_names plain]
      exact List.mem_filter.mpr ⟨List.mem_map_of_mem member,finds⟩
  rw [owned,← stored_names plain,List.filter_map]
  rfl

omit oldest many in
theorem BackupInv.own_length :
    ((stored win s c).filter fun b => (s.step win c).owner b.1 = some (c.file win)).length = (s.names win c).length := by
  rw [← inv.own_names plain apart own,List.length_map]

/-- The backups of the file that are left are the last ones. -/
theorem BackupInv.held_own : (s.step win c).held (c.file win) =
    (((stored win s c).filter fun b => (s.step win c).owner b.1 = some (c.file win)).map Prod.snd).rtake kMaxBackupsPerFile := by
  have keys := inv.own_names plain apart own
  have distinct : ∀ name ∈ (s.names win c).take ((s.names win c).length - kMaxBackupsPerFile),
      name ∉ (s.names win c).drop ((s.names win c).length - kMaxBackupsPerFile) :=
    fun name early late => List.lt_irrefl name (oldest name early name late)
  rw [← keys] at distinct
  rw [held_eq,apart.step_full plain oldest many,List.filter_comm,← keys,filter_rest distinct,List.map_drop,List.rtake,
    List.length_map,List.length_map]

omit inv in
/-- The backups of another file are left. -/
theorem Apart.kept_other {b : WStr × Bytes} {file : FileId} (member : b ∈ stored win s c)
    (owner : (s.step win c).owner b.1 = some file) (other : file ≠ c.file win) :
    b ∈ (s.step win c).engine.backups := by
  rw [apart.step_full plain oldest many,List.mem_filter]
  refine ⟨member,?_⟩
  have outside : b.1 ∉ (s.names win c).take ((s.names win c).length - kMaxBackupsPerFile) := by
    intro early
    have mine := apart.names_own own b.1 (List.mem_of_mem_take early)
    rw [owner] at mine
    exact other (Option.some.inj mine)
  simp [outside]

theorem BackupInv.step_full :
    BackupInv win (s.step win c) ∧ KeptPerFile win s c := by
  have enough := inv.stored_retains apart
  have mine := inv.held_own plain apart own oldest many
  have size := inv.own_length plain apart own
  have retained : Retains kMaxBackupsPerFile ((s.step win c).held (c.file win)) ((s.step win c).replaced (c.file win)) := by
    rw [mine]
    apply (enough (c.file win)).cut
    rwa [List.length_map,size]
  constructor
  · refine ⟨inv.attributed.step apart,?_⟩
    intro file
    by_cases same : file = c.file win
    · rw [same]
      exact retained
    · have others : (s.step win c).held file =
          ((stored win s c).filter fun b => (s.step win c).owner b.1 = some file).map Prod.snd := by
        rw [held_eq,apart.step_full plain oldest many,List.filter_filter]
        apply congrArg
        apply List.filter_congr
        intro b member
        cases owner : decide ((s.step win c).owner b.1 = some file) with
        | false => rfl
        | true =>
          have left := apart.kept_other plain own oldest many member (of_decide_eq_true owner) same
          rw [apart.step_full plain oldest many] at left
          exact (List.mem_filter.mp left).2
      rw [others]
      exact enough file
  · constructor
    case newest =>
      apply retained.exact
      rw [mine,List.rtake,List.length_drop,List.length_map]
      omega
    case others =>
      intro b member file owner other
      rw [← apart.owner_old member] at owner
      exact apart.kept_other plain own oldest many (stored_old member) owner other

end

/-- One call that is kept apart. -/
theorem BackupInv.step (plain : ∀ c ∈ wlit ".bak", win.towlower c = c) (inv : BackupInv win s) (apart : Apart win s c) :
    BackupInv win (s.step win c) ∧ KeptPerFile win s c := by
  by_cases few : (s.names win c).length ≤ kMaxBackupsPerFile
  · exact inv.step_room plain apart few
  · obtain ⟨own,oldest⟩ := apart.room.resolve_left few
    exact inv.step_full plain apart own oldest (Nat.le_of_not_le few)

/-! ### Runs -/

theorem start_inv {owner : WStr → Option FileId} (attributed : Attributed win owner) (engine : Local) :
    BackupInv win (BackupState.start engine owner) :=
  ⟨attributed,fun _ => .refl _ _⟩

/-- In a run of calls that are kept apart every call leaves the newest contents of its
file and the backups of all others. -/
theorem backups_kept_per_file (plain : ∀ c ∈ wlit ".bak", win.towlower c = c) {owner : WStr → Option FileId}
    (attributed : Attributed win owner) (engine : Local) (calls : List BackupCall)
    (apart : Guarded (BackupState.step win) (Apart win) (BackupState.start engine owner) calls) :
    ∀ before c after, calls = before ++ c::after →
      KeptPerFile win (run (BackupState.step win) (BackupState.start engine owner) before) c := by
  intro before c after split
  rw [split] at apart
  obtain ⟨first,rest⟩ := (guarded_append _ _ _ _ _).mp apart
  have inv := run_invariant (BackupState.step win) (Apart win) (BackupInv win)
    (fun s c inv apart => (inv.step plain apart).1) _ before (start_inv attributed engine) first
  exact (inv.step plain rest.1).2

end

instance (win : Windows) (s : BackupState) (c : BackupCall) : Decidable (Apart win s c) :=
  decidable_of_iff _ ⟨fun parts => Apart.mk parts.1 parts.2,fun apart => And.intro apart.copied apart.room⟩

/-- ASCII names in lower case. -/
private def lowerNames : Windows := ⟨fun _ => none,fun _ => none,id⟩

private def noBackups : Local := ⟨⟨.empty,.empty,[],0,.empty,0⟩,⟨.empty,[]⟩,.empty,[],true⟩

/-- A file with its content, replaced at a time. -/
private def replacedAt (absPath content : String) (time : Nat) : BackupCall :=
  ⟨wlit absPath,⟨Table.empty.upsert (wlit absPath) (lit content),[]⟩,⟨time,true⟩⟩

/-- Five replacements of one note. -/
private def fiveOfOne : List BackupCall := (List.range 5).map fun n => replacedAt "d:\\x\\a" "x" (n + 1)

/-- A note of the same name in another folder is replaced. -/
theorem other_folder_deleted : ¬KeptPerFile lowerNames
    (run (BackupState.step lowerNames) (BackupState.start noBackups fun _ => none) fiveOfOne) (replacedAt "d:\\y\\a" "y" 6) := by
  intro kept
  have facts : ((wlit "a.1.bak",lit "x") ∈
        (run (BackupState.step lowerNames) (BackupState.start noBackups fun _ => none) fiveOfOne).engine.backups ∧
      (run (BackupState.step lowerNames) (BackupState.start noBackups fun _ => none) fiveOfOne).owner (wlit "a.1.bak") =
        some (fileId lowerNames (wlit "d:\\x\\a"))) ∧
      fileId lowerNames (wlit "d:\\x\\a") ≠ (replacedAt "d:\\y\\a" "y" 6).file lowerNames ∧
      (wlit "a.1.bak",lit "x") ∉ (BackupState.step lowerNames (run (BackupState.step lowerNames)
        (BackupState.start noBackups fun _ => none) fiveOfOne) (replacedAt "d:\\y\\a" "y" 6)).engine.backups := by
    decide
  obtain ⟨⟨held,owned⟩,different,deleted⟩ := facts
  exact deleted (kept.others _ held _ owned different)

/-- Seven replacements of a note, and one of another name in between. -/
private def twoNames : List BackupCall :=
  fiveOfOne ++ [replacedAt "d:\\x\\a" "6" 6,replacedAt "d:\\y\\b" "y" 6]

theorem two_notes_kept : KeptPerFile lowerNames
    (run (BackupState.step lowerNames) (BackupState.start noBackups fun _ => none) twoNames) (replacedAt "d:\\x\\a" "7" 7) := by
  have plain : ∀ c ∈ wlit ".bak", lowerNames.towlower c = c := fun c _ => rfl
  have apart : Guarded (BackupState.step lowerNames) (Apart lowerNames) (BackupState.start noBackups fun _ => none)
      (twoNames ++ [replacedAt "d:\\x\\a" "7" 7]) := by
    decide
  have attributed : Attributed lowerNames fun _ => none := by
    intro name file owned
    exact absurd owned.symm (Option.some_ne_none file)
  exact backups_kept_per_file plain attributed noBackups _ apart twoNames _ [] rfl

end NPSync.Engine
