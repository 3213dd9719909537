import NPSync.Engine.Events
import NPSync.KnownAnswers

/-! `SyncEngine::scannerLoop`: one pass over the folder roots, with the directories
that are still to be listed on a stack. -/
namespace NPSync.Engine
open Library

/-- What `FindFirstFileW` lists of a directory. One that cannot be listed has no entries. -/
inductive DirEntry where
  | file (name : WStr) (content : Bytes)
  | directory (name : WStr) (entries : List DirEntry)

/-- The directories still to be listed, the last one pushed first. -/
abbrev DirStack := List (WStr × List DirEntry)

def DirEntry.name : DirEntry → WStr
  | .file name _ | .directory name _ => name

/-- The entries of a directory for itself and its parent. -/
def selfEntry (name : WStr) : Bool := name = wlit "." || name = wlit ".."

def childPath (dir name : WStr) : WStr := dir ++ wlit "\\" ++ name

section
variable (win : Windows) (dev : Device) (now : Int)

def scanEntry (dir : WStr) (s : LocalDb × DirStack) (entry : DirEntry) : LocalDb × DirStack :=
  if selfEntry entry.name then s
  else match entry with
    | .directory name entries => (s.1,(childPath dir name,entries)::s.2)
    | .file name _ => (scanFile win dev s.1 (childPath dir name) now,s.2)

def scanFiles (db : LocalDb) (visited : List WStr) : LocalDb := visited.foldl (fun db full => scanFile win dev db full now) db

/-- The loop over the stack; every round takes one directory. -/
def scanStack : (fuel : Nat) → LocalDb → DirStack → LocalDb
  | 0,db,_ => db
  | _ + 1,db,[] => db
  | fuel + 1,db,(dir,entries)::rest =>
    let out := entries.foldl (scanEntry win dev now dir) (db,rest)
    scanStack fuel out.1 out.2

end

mutual
def DirEntry.directories : DirEntry → Nat
  | .file _ _ => 0
  | .directory _ entries => 1 + directories entries

def directories : List DirEntry → Nat
  | [] => 0
  | entry::rest => entry.directories + directories rest
end

/-- One pass over all roots; `tree` lists what is below each. -/
def scanPass (win : Windows) (dev : Device) (now : Int) (db : LocalDb) (tree : WStr → List DirEntry) : LocalDb :=
  (db.listSyncRoots win).foldl
    (fun db root => scanStack win dev now (1 + directories (tree root.2)) db [(root.2,tree root.2)]) db

/-! ### The regular files of a tree -/

mutual
def DirEntry.filesIn (dir : WStr) : DirEntry → List (WStr × Bytes)
  | .file name content => if selfEntry name then [] else [(childPath dir name,content)]
  | .directory name entries => if selfEntry name then [] else filesBelow (childPath dir name) entries

/-- The regular files below a directory, with their contents. -/
def filesBelow (dir : WStr) : List DirEntry → List (WStr × Bytes)
  | [] => []
  | entry::rest => entry.filesIn dir ++ filesBelow dir rest
end

def stackFiles (stack : DirStack) : List (WStr × Bytes) := stack.flatMap fun d => filesBelow d.1 d.2

def stackWeight (stack : DirStack) : Nat := (stack.map fun d => 1 + directories d.2).sum

@[simp] theorem stackFiles_nil : stackFiles [] = [] := rfl

@[simp] theorem stackFiles_append (first second : DirStack) : stackFiles (first ++ second) = stackFiles first ++ stackFiles second :=
  List.flatMap_append

theorem stackWeight_append (first second : DirStack) : stackWeight (first ++ second) = stackWeight first + stackWeight second := by
  unfold stackWeight
  rw [List.map_append,List.sum_append]

section
variable (win : Windows) (dev : Device) (now : Int)

theorem scanFiles_append (db : LocalDb) (first second : List WStr) :
    scanFiles win dev now db (first ++ second) = scanFiles win dev now (scanFiles win dev now db first) second :=
  List.foldl_append

/-- Every listed file is visited: at once, or from what is put on the stack. -/
theorem scanEntries_visits (dir : WStr) (entries : List DirEntry) (db : LocalDb) (stack : DirStack) :
    ∃ visited pushed, entries.foldl (scanEntry win dev now dir) (db,stack) = (scanFiles win dev now db visited,pushed ++ stack) ∧
      (∀ full, full ∈ (filesBelow dir entries).map Prod.fst ↔ full ∈ visited ∨ full ∈ (stackFiles pushed).map Prod.fst) ∧
      stackWeight pushed ≤ directories entries := by
  induction entries generalizing db stack with
  | nil => exact ⟨[],[],rfl,fun _ => by simp [filesBelow],Nat.le_refl _⟩
  | cons entry rest ih =>
    rw [List.foldl_cons]
    by_cases own : selfEntry entry.name = true
    · have skipped : scanEntry win dev now dir (db,stack) entry = (db,stack) := if_pos own
      have empty : entry.filesIn dir = [] := by
        cases entry with
        | file name content => exact if_pos own
        | directory name entries =>
          rw [DirEntry.filesIn]
          exact if_pos own
      obtain ⟨visited,pushed,out,listed,light⟩ := ih db stack
      rw [skipped,filesBelow,empty,List.nil_append]
      exact ⟨visited,pushed,out,listed,light.trans (Nat.le_add_left _ _)⟩
    · cases entry with
      | file name content =>
        have found : scanEntry win dev now dir (db,stack) (.file name content) =
            (scanFile win dev db (childPath dir name) now,stack) := if_neg own
        have one : (DirEntry.file name content).filesIn dir = [(childPath dir name,content)] := if_neg own
        obtain ⟨visited,pushed,out,listed,light⟩ := ih (scanFile win dev db (childPath dir name) now) stack
        refine ⟨childPath dir name::visited,pushed,?_,?_,light.trans (Nat.le_add_left _ _)⟩
        · rw [found]
          exact out
        · intro full
          rw [filesBelow,one,List.map_append,List.mem_append,listed full]
          simp [or_assoc]
      | directory name entries =>
        have found : scanEntry win dev now dir (db,stack) (.directory name entries) =
            (db,(childPath dir name,entries)::stack) := if_neg own
        have inside : (DirEntry.directory name entries).filesIn dir = filesBelow (childPath dir name) entries := by
          rw [DirEntry.filesIn]
          exact if_neg own
        obtain ⟨visited,pushed,out,listed,light⟩ := ih db ((childPath dir name,entries)::stack)
        refine ⟨visited,pushed ++ [(childPath dir name,entries)],?_,?_,?_⟩
        · rw [found,out,List.append_assoc]
          rfl
        · intro full
          have one : stackFiles [(childPath dir name,entries)] = filesBelow (childPath dir name) entries := List.flatMap_singleton _ _
          rw [filesBelow,inside,List.map_append,List.mem_append,listed full,stackFiles_append,one,List.map_append,List.mem_append]
          tauto
        · have one : stackWeight [(childPath dir name,entries)] = 1 + directories entries := rfl
          have counted : (DirEntry.directory name entries).directories = 1 + directories entries := by rw [DirEntry.directories]
          rw [stackWeight_append,one,directories,counted]
          omega

/-- With a round for every directory the loop visits the files of the whole stack. -/
theorem scanStack_visits (fuel : Nat) (db : LocalDb) (stack : DirStack) (enough : stackWeight stack ≤ fuel) :
    ∃ visited, scanStack win dev now fuel db stack = scanFiles win dev now db visited ∧
      ∀ full, full ∈ (stackFiles stack).map Prod.fst ↔ full ∈ visited := by
  induction fuel generalizing db stack with
  | zero =>
    cases stack with
    | nil => exact ⟨[],rfl,fun _ => Iff.rfl⟩
    | cons d rest =>
      have heavy : stackWeight (d::rest) = 1 + directories d.2 + stackWeight rest := rfl
      omega
  | succ fuel ih =>
    cases stack with
    | nil => exact ⟨[],rfl,fun _ => Iff.rfl⟩
    | cons d rest =>
      obtain ⟨dir,entries⟩ := d
      obtain ⟨visited,pushed,out,listed,light⟩ := scanEntries_visits win dev now dir entries db rest
      have heavy : stackWeight ((dir,entries)::rest) = 1 + directories entries + stackWeight rest := rfl
      obtain ⟨later,after,others⟩ := ih (scanFiles win dev now db visited) (pushed ++ rest) (by
        rw [stackWeight_append]
        omega)
      refine ⟨visited ++ later,?_,?_⟩
      · rw [scanFiles_append,← after,scanStack]
        simp only [out]
      · intro full
        have split : stackFiles ((dir,entries)::rest) = filesBelow dir entries ++ stackFiles rest := List.flatMap_cons
        have more := others full
        rw [stackFiles_append,List.map_append,List.mem_append] at more
        rw [split,List.map_append,List.mem_append,listed full,List.mem_append,← more]
        tauto

/-- A pass visits the regular files below all roots. -/
theorem scanPass_visits (db : LocalDb) (tree : WStr → List DirEntry) :
    ∃ visited, scanPass win dev now db tree = scanFiles win dev now db visited ∧
      ∀ full, full ∈ visited ↔ ∃ root ∈ db.listSyncRoots win, full ∈ (filesBelow root.2 (tree root.2)).map Prod.fst := by
  have roots : ∀ (roots : List (Str × WStr)) (db : LocalDb), ∃ visited,
      roots.foldl (fun db root => scanStack win dev now (1 + directories (tree root.2)) db [(root.2,tree root.2)]) db =
        scanFiles win dev now db visited ∧
      ∀ full, full ∈ visited ↔ ∃ root ∈ roots, full ∈ (filesBelow root.2 (tree root.2)).map Prod.fst := by
    intro roots
    induction roots with
    | nil => exact fun db => ⟨[],rfl,fun full => by simp⟩
    | cons root rest ih =>
      intro db
      obtain ⟨visited,out,listed⟩ := scanStack_visits win dev now (1 + directories (tree root.2)) db [(root.2,tree root.2)]
        (Nat.le_refl _)
      obtain ⟨later,after,others⟩ := ih (scanFiles win dev now db visited)
      refine ⟨visited ++ later,?_,?_⟩
      · rw [List.foldl_cons,out,after,scanFiles_append]
      · intro full
        have one : stackFiles [(root.2,tree root.2)] = filesBelow root.2 (tree root.2) := List.flatMap_singleton _ _
        rw [List.mem_append,← listed full,others full,one,List.exists_mem_cons_iff]
  exact roots (db.listSyncRoots win) db

/-! ### What a pass queues -/

def UploadPending (db : LocalDb) (key : Str) : Prop := ∃ op ∈ db.pendingOps, op.kind = .upload ∧ op.relPath = key

/-- The file maps to the key and is not ignored. -/
structure Finds (db : LocalDb) (full : WStr) (key : Str) : Prop where
  mapped : keyOf win db full = some key
  shown : ignored dev ((key.dropWhile (· ≠ 58)).tail) false = false

/-- There is no row for the file, one that was never uploaded, or one of another content. -/
def Unsynced (prim : Primitives) (db : LocalDb) (key : Str) (content : Bytes) : Prop :=
  ∀ st ∈ db.getFile key, st.remoteVersion = 0 ∨ Crypto.sha256Hex prim content ≠ st.localHash

instance (prim : Primitives) (db : LocalDb) (key : Str) (content : Bytes) : Decidable (Unsynced prim db key content) :=
  inferInstanceAs (Decidable (∀ st ∈ db.getFile key,_))

theorem uploadPending_queueUpload (db : LocalDb) (key other : Str) :
    UploadPending (queueUpload db key now) other ↔ other = key ∨ UploadPending db other := by
  constructor
  · rintro ⟨op,member,kind,rfl⟩
    rcases List.mem_append.mp member with old | new
    · exact .inr ⟨op,(List.mem_filter.mp old).1,kind,rfl⟩
    · rw [List.mem_singleton.mp new]
      exact .inl rfl
  · rintro (rfl | ⟨op,member,kind,rfl⟩)
    · exact ⟨_,List.mem_append_right _ List.mem_cons_self,rfl,rfl⟩
    · by_cases same : op.relPath = key
      · exact ⟨_,List.mem_append_right _ List.mem_cons_self,rfl,same.symm⟩
      · refine ⟨op,List.mem_append_left _ (List.mem_filter.mpr ⟨member,?_⟩),kind,rfl⟩
        simp [same]

/-- A pass changes the queue only. -/
structure QueueOnly (before after : LocalDb) : Prop where
  syncRoots : after.syncRoots = before.syncRoots
  files : after.files = before.files

theorem QueueOnly.finds {before after : LocalDb} (same : QueueOnly before after) (full : WStr) (key : Str) :
    Finds win dev after full key ↔ Finds win dev before full key := by
  have mapped : keyOf win after full = keyOf win before full := by
    unfold keyOf locateInRoots LocalDb.listSyncRoots LocalDb.listSyncFiles LocalDb.rootsWhere
    rw [same.syncRoots]
  constructor
  · exact fun found => ⟨mapped ▸ found.mapped,found.shown⟩
  · exact fun found => ⟨mapped ▸ found.mapped,found.shown⟩

theorem QueueOnly.getFile {before after : LocalDb} (same : QueueOnly before after) (key : Str) :
    after.getFile key = before.getFile key := by
  unfold LocalDb.getFile
  rw [same.files]

theorem scanFile_queues (db : LocalDb) (full : WStr) : QueueOnly db (scanFile win dev db full now) ∧
    ∀ key, UploadPending (scanFile win dev db full now) key ↔
      UploadPending db key ∨ (Finds win dev db full key ∧ db.getFile key = none) := by
  have none_ : (∀ key, ¬(Finds win dev db full key ∧ db.getFile key = none)) → scanFile win dev db full now = db →
      QueueOnly db (scanFile win dev db full now) ∧ ∀ key, UploadPending (scanFile win dev db full now) key ↔
        UploadPending db key ∨ (Finds win dev db full key ∧ db.getFile key = none) := by
    intro absent same
    rw [same]
    exact ⟨⟨rfl,rfl⟩,fun key => (or_iff_left (absent key)).symm⟩
  cases mapped : keyOf win db full with
  | none =>
    apply none_
    · rintro key ⟨found,-⟩
      exact nomatch mapped.symm.trans found.mapped
    · simp only [scanFile,mapped]
  | some own =>
    have one : ∀ key, Finds win dev db full key → key = own := fun key found => Option.some.inj (found.mapped.symm.trans mapped)
    by_cases hidden : ignored dev ((own.dropWhile (· ≠ 58)).tail) false = true
    · apply none_
      · rintro key ⟨found,-⟩
        have shown := found.shown
        rw [one key found,hidden] at shown
        contradiction
      · simp only [scanFile,mapped,hidden,if_true]
    · cases held : db.getFile own with
      | some st =>
        apply none_
        · rintro key ⟨found,missing⟩
          rw [one key found,held] at missing
          contradiction
        · simp only [scanFile,mapped,hidden,held]
          rfl
      | none =>
        have queued : scanFile win dev db full now = queueUpload db own now := by
          simp only [scanFile,mapped,hidden,held]
          rfl
        rw [queued]
        refine ⟨⟨rfl,rfl⟩,fun key => ?_⟩
        rw [uploadPending_queueUpload,or_comm]
        refine or_congr_right ⟨?_,fun found => one key found.1⟩
        rintro rfl
        exact ⟨⟨mapped,Bool.eq_false_iff.mpr hidden⟩,held⟩

/-- A run of visits queues the files without a row. -/
theorem scanFiles_queues (visited : List WStr) (db : LocalDb) : QueueOnly db (scanFiles win dev now db visited) ∧
    ∀ key, UploadPending (scanFiles win dev now db visited) key ↔
      UploadPending db key ∨ ∃ full ∈ visited, Finds win dev db full key ∧ db.getFile key = none := by
  induction visited generalizing db with
  | nil => exact ⟨⟨rfl,rfl⟩,fun key => by simp [scanFiles]⟩
  | cons full rest ih =>
    obtain ⟨same,first⟩ := scanFile_queues win dev now db full
    obtain ⟨after,others⟩ := ih (scanFile win dev db full now)
    refine ⟨⟨after.syncRoots.trans same.syncRoots,after.files.trans same.files⟩,fun key => ?_⟩
    have later := others key
    simp only [same.finds,same.getFile] at later
    rw [List.exists_mem_cons_iff,← or_assoc,← first key]
    exact later

end

/-- After a pass every file that is not synchronised has an upload pending, exactly
when this was so before for those that have a row. -/
theorem scan_queues_unsynced_iff (plat : Platform) (dev : Device) (now : Int) (db : LocalDb) (tree : WStr → List DirEntry) :
    (∀ root ∈ db.listSyncRoots plat.win, ∀ file ∈ filesBelow root.2 (tree root.2), ∀ key, Finds plat.win dev db file.1 key →
      Unsynced plat.prim db key file.2 → UploadPending (scanPass plat.win dev now db tree) key) ↔
    ∀ root ∈ db.listSyncRoots plat.win, ∀ file ∈ filesBelow root.2 (tree root.2), ∀ key, Finds plat.win dev db file.1 key →
      Unsynced plat.prim db key file.2 → db.getFile key ≠ none → UploadPending db key := by
  obtain ⟨visited,out,listed⟩ := scanPass_visits plat.win dev now db tree
  have queued := (scanFiles_queues plat.win dev now visited db).2
  rw [out]
  constructor
  · intro complete root member file below key found unsynced row
    rcases (queued key).mp (complete root member file below key found unsynced) with before | ⟨_,_,_,missing⟩
    · exact before
    · exact absurd missing row
  · intro before root member file below key found unsynced
    apply (queued key).mpr
    by_cases row : db.getFile key = none
    · refine .inr ⟨file.1,?_,found,row⟩
      exact (listed file.1).mpr ⟨root,member,List.mem_map_of_mem below⟩
    · exact .inl (before root member file below key found unsynced row)

/-! ### An edit that was missed -/

section
open KnownAnswers

/-- `notes.txt` as it was uploaded last. -/
def uploaded : LocalDb := rooted.upsertFile {LocalFileState.fresh with
  fileId := notesId,relPath := lit "home:notes.txt",localHash := Crypto.sha256Hex editPlatform.prim baseText,
  remoteHash := Crypto.sha256Hex editPlatform.prim baseText,remoteVersion := 1}

theorem edit_not_queued : ¬∀ dev now db tree, ∀ root ∈ LocalDb.listSyncRoots ascii db,
    ∀ file ∈ filesBelow root.2 (tree root.2), ∀ key, Finds ascii dev db file.1 key →
      Unsynced editPlatform.prim db key file.2 → UploadPending (scanPass ascii dev now db tree) key := by
  intro complete
  have pending := complete laptop 0 uploaded (fun _ => [.file (wlit "notes.txt") localEdit]) (lit "home",wlit "C:\\notes")
    (by decide) (wlit "C:\\notes\\notes.txt",localEdit) (by decide) (lit "home:notes.txt")
    ⟨by decide,by decide⟩ (by decide)
  obtain ⟨op,member,_⟩ := pending
  have empty : (scanPass ascii laptop 0 uploaded fun _ => [.file (wlit "notes.txt") localEdit]).pendingOps = [] := by
    decide
  rw [empty] at member
  contradiction

end
end NPSync.Engine
