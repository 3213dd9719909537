import NPSync.Server.Discipline

/-! The version chain of the in-memory store. The trace of a run lists every
single call with its answer; an accepted write is a `CreateFile` or `UpdateFile`
answered without an error. -/
namespace NPSync.Server
open Library

abbrev ServerSystem := System State Call Call.Result Response

/-- The account, file, version, kind and origin device of an accepted write, as
its arguments give them. -/
def acceptedWrite : CallEvent → Option (Str × Str × Int × ChangeKind × Str)
  | ⟨.createFile rec,.ok _⟩ =>
    some (rec.accountID,rec.fileID,1,Mem.kindOf rec.deleted,rec.originDeviceID)
  | ⟨.updateFile rec baseVersion,.ok _⟩ =>
    some (rec.accountID,rec.fileID,baseVersion + 1,Mem.kindOf rec.deleted,rec.originDeviceID)
  | _ => none

/-- The file and the base version of an accepted write; a create has base 0. -/
def acceptedBase : CallEvent → Option (Str × Int)
  | ⟨.createFile rec,.ok _⟩ => some (Mem.fileKey rec.accountID rec.fileID,0)
  | ⟨.updateFile rec baseVersion,.ok _⟩ => some (Mem.fileKey rec.accountID rec.fileID,baseVersion)
  | _ => none

def feedRow (c : Change) : Str × Str × Int × ChangeKind × Str :=
  (c.accountID,c.fileID,c.version,c.kind,c.originDeviceID)

structure Chain (m : Mem FileJSON) (trace : List CallEvent) : Prop where
  head : ∀ key f, m.files.get key = some f →
    (m.history key).getLast? = some (Mem.versionFromRecord f)
  consecutive : ∀ key f, m.files.get key = some f → ∃ first,
    (m.history key).map (·.version) = List.range' first (m.history key).length ∧
      first + (m.history key).length = f.version + 1
  unwritten : ∀ key, m.files.get key = none → m.history key = []
  feed : m.changes.map feedRow = trace.filterMap acceptedWrite
  increasing : (m.changes.map (·.changeSeq)).Pairwise (· < ·)
  below : ∀ c ∈ m.changes, c.changeSeq < m.nextSeq
  once : (trace.filterMap acceptedBase).Nodup

/-- Bases of accepted writes lie below the head. -/
def BasesBelow (m : Mem FileJSON) (trace : List CallEvent) : Prop :=
  ∀ key base, (key,base) ∈ trace.filterMap acceptedBase →
    ∃ f, m.files.get key = some f ∧ base < f.version

def refused : (call : Call) → call.Result → Bool
  | .getFile ..,.error _ => true
  | .createFile _,.error _ => true
  | .updateFile ..,.error _ => true
  | .getVersion ..,.error _ => true
  | _,_ => false

namespace Mem
variable {R : Type} (m : Mem R)

theorem createFile_cases (rec : FileRecord) :
    (m.createFile rec = (.error .duplicate,m)) ∨
    (m.files.get (fileKey rec.accountID rec.fileID) = none ∧
      m.createFile rec = (.ok {rec with version := 1,changeSeq := m.nextSeq},
        m.commit (fileKey rec.accountID rec.fileID) {rec with version := 1,changeSeq := m.nextSeq})) := by
  cases found : m.files.get (fileKey rec.accountID rec.fileID) with
  | some f => exact Or.inl (by simp [createFile,found])
  | none => exact Or.inr ⟨rfl,by simp [createFile,found]⟩

theorem updateFile_cases (rec : FileRecord) (baseVersion : Int) :
    (∃ err, m.updateFile rec baseVersion = (.error err,m)) ∨
    (∃ cur, m.files.get (fileKey rec.accountID rec.fileID) = some cur ∧
      (cur.version : Int) = baseVersion ∧
      m.updateFile rec baseVersion = (.ok {rec with version := cur.version + 1,changeSeq := m.nextSeq},
        m.commit (fileKey rec.accountID rec.fileID)
          {rec with version := cur.version + 1,changeSeq := m.nextSeq})) := by
  cases found : m.files.get (fileKey rec.accountID rec.fileID) with
  | none => exact Or.inl ⟨.notFound,by simp [updateFile,found]⟩
  | some cur =>
    by_cases current : (cur.version : Int) = baseVersion
    · exact Or.inr ⟨cur,rfl,current,by simp [updateFile,found,current]⟩
    · exact Or.inl ⟨.conflict,by simp [updateFile,found,current]⟩

/-- The store with only the last `keep` entries of one history. -/
def keepLast (key : Str) (keep : Nat) : Mem R :=
  {m with versions := m.versions.upsert key ((m.history key).drop ((m.history key).length - keep))}

theorem pruneVersions_cases (accountID fileID : Str) (keep : Nat) :
    (m.pruneVersions accountID fileID keep = ([],m)) ∨
    (keep < (m.history (fileKey accountID fileID)).length ∧
      (m.pruneVersions accountID fileID keep).2 = m.keepLast (fileKey accountID fileID) keep) := by
  by_cases short : (m.history (fileKey accountID fileID)).length ≤ keep
  · exact Or.inl (by simp [pruneVersions,short])
  · exact Or.inr ⟨by omega,by simp [pruneVersions,short,keepLast]⟩

theorem history_upsert (versions : Table Str (List VersionRecord)) (key other : Str)
    (entries : List VersionRecord) (same : m.versions = versions.upsert key entries) :
    m.history other = if other = key then entries else (versions.get other).getD [] := by
  rw [history,same,Table.get_upsert]
  split <;> rfl

theorem commit_history (key other : Str) (cp : FileRecord) :
    (m.commit key cp).history other =
      if other = key then m.history key ++ [versionFromRecord cp] else m.history other :=
  history_upsert _ _ _ _ _ rfl

theorem keepLast_history (key other : Str) (keep : Nat) :
    (m.keepLast key keep).history other =
      if other = key then (m.history key).drop ((m.history key).length - keep) else m.history other :=
  history_upsert _ _ _ _ _ rfl

theorem commit_files (key other : Str) (cp : FileRecord) :
    (m.commit key cp).files.get other = if other = key then some cp else m.files.get other :=
  Table.get_upsert _ _ _ _

end Mem

theorem mem_prunedKeys {headBlob key : Str} {drop kept : List VersionRecord} :
    key ∈ Mem.prunedKeys headBlob drop kept ↔
      (∃ v ∈ drop, v.blobKey = key) ∧ headBlob ≠ key ∧ ∀ v ∈ kept, v.blobKey ≠ key := by
  simp only [Mem.prunedKeys,List.mem_filter,List.mem_map,Bool.not_eq_true',decide_eq_false_iff_not,not_or,not_exists,
    not_and,ne_eq,eq_comm (a := key)]

theorem newMem_chain : Chain Mem.newMem [] where
  head := by simp [Mem.newMem]
  consecutive := by simp [Mem.newMem]
  unwritten := by simp [Mem.newMem,Mem.history]
  feed := rfl
  increasing := List.Pairwise.nil
  below := by simp [Mem.newMem]
  once := List.nodup_nil

section
variable {m : Mem FileJSON} {trace : List CallEvent}

/-- The chain reads only the files, the history, the feed and the counter. -/
theorem Chain.unchanged (chain : Chain m trace) (after : Mem FileJSON) (e : CallEvent)
    (files : after.files = m.files) (versions : after.versions = m.versions)
    (changes : after.changes = m.changes) (nextSeq : after.nextSeq = m.nextSeq)
    (write : acceptedWrite e = none) (base : acceptedBase e = none) : Chain after (trace ++ [e]) := by
  have history : ∀ key, after.history key = m.history key := fun key => by
    rw [Mem.history,Mem.history,versions]
  constructor
  · intro key f found
    rw [history]
    exact chain.head key f (files ▸ found)
  · intro key f found
    rw [history]
    exact chain.consecutive key f (files ▸ found)
  · intro key absent
    rw [history]
    exact chain.unwritten key (files ▸ absent)
  · simpa [changes,write] using chain.feed
  · rw [changes]
    exact chain.increasing
  · rw [changes,nextSeq]
    exact chain.below
  · simpa [base] using chain.once

/-- The head version a write on top of `base` has to find; base 0 is a create. -/
def Writable (m : Mem FileJSON) (key : Str) (base : Nat) : Prop :=
  (m.files.get key = none ∧ base = 0) ∨ ∃ cur, m.files.get key = some cur ∧ cur.version = base

private theorem base_fresh (bases : BasesBelow m trace) (key : Str) (base : Nat)
    (writable : Writable m key base) : (key,(base : Int)) ∉ trace.filterMap acceptedBase := by
  intro member
  obtain ⟨f,found,under⟩ := bases key base member
  rcases writable with ⟨absent,-⟩ | ⟨cur,current,same⟩
  · rw [absent] at found
    contradiction
  · rw [current] at found
    rw [← Option.some.inj found,same] at under
    omega

/-- An accepted write on top of the head extends the chain by one. -/
theorem Chain.commit (chain : Chain m trace) (bases : BasesBelow m trace) (key : Str) (base : Nat)
    (cp : FileRecord) (e : CallEvent) (writable : Writable m key base)
    (version : cp.version = base + 1) (seq : cp.changeSeq = m.nextSeq)
    (write : acceptedWrite e = some (feedRow (Mem.changeOf cp)))
    (accepted : acceptedBase e = some (key,(base : Int))) :
    Chain (m.commit key cp) (trace ++ [e]) := by
  constructor
  · intro other f found
    rw [Mem.commit_files] at found
    rw [Mem.commit_history]
    split at found
    · rename_i same
      rw [if_pos same,← Option.some.inj found,List.getLast?_concat]
    · rename_i different
      rw [if_neg different]
      exact chain.head other f found
  · intro other f found
    rw [Mem.commit_files] at found
    rw [Mem.commit_history]
    split at found
    · rename_i same
      rw [if_pos same,← Option.some.inj found]
      rcases writable with ⟨absent,zero⟩ | ⟨cur,current,same⟩
      · refine ⟨1,?_,?_⟩
        · simp [chain.unwritten key absent,Mem.versionFromRecord,version,zero]
        · simp [chain.unwritten key absent,version,zero]
      · obtain ⟨first,numbers,last⟩ := chain.consecutive key cur current
        refine ⟨first,?_,?_⟩
        · rw [List.map_append,numbers,List.length_append,List.length_singleton,List.range'_concat]
          simp [Mem.versionFromRecord,version]
          omega
        · rw [List.length_append,List.length_singleton,version]
          omega
    · rename_i different
      rw [if_neg different]
      exact chain.consecutive other f found
  · intro other absent
    rw [Mem.commit_files] at absent
    rw [Mem.commit_history]
    split at absent
    · contradiction
    · rename_i different
      rw [if_neg different]
      exact chain.unwritten other absent
  · simpa [Mem.commit,write] using chain.feed
  · simp only [Mem.commit,List.map_append,List.map_cons,List.map_nil,List.pairwise_append]
    refine ⟨chain.increasing,List.pairwise_singleton _ _,?_⟩
    intro a member b last
    obtain ⟨c,inside,rfl⟩ := List.mem_map.mp member
    rw [List.mem_singleton.mp last]
    have bound := chain.below c inside
    simp only [Mem.changeOf,seq]
    exact bound
  · intro c member
    change c ∈ m.changes ++ [Mem.changeOf cp] at member
    change c.changeSeq < m.nextSeq + 1
    rcases List.mem_append.mp member with old | new
    · have bound := chain.below c old
      omega
    · rw [List.mem_singleton.mp new]
      simp only [Mem.changeOf,seq]
      omega
  · rw [List.filterMap_append]
    simp only [List.filterMap_cons,accepted,List.filterMap_nil]
    refine chain.once.append (List.nodup_singleton _) ?_
    simpa using base_fresh bases key base writable

theorem BasesBelow.commit (bases : BasesBelow m trace) (key : Str) (base : Nat) (cp : FileRecord)
    (e : CallEvent) (writable : Writable m key base) (version : cp.version = base + 1)
    (accepted : acceptedBase e = some (key,(base : Int))) :
    BasesBelow (m.commit key cp) (trace ++ [e]) := by
  intro other b member
  rw [Mem.commit_files]
  rw [List.filterMap_append] at member
  simp only [List.filterMap_cons,accepted,List.filterMap_nil] at member
  rcases List.mem_append.mp member with old | new
  · obtain ⟨f,found,under⟩ := bases other b old
    by_cases same : other = key
    · refine ⟨cp,if_pos same,?_⟩
      rcases writable with ⟨absent,-⟩ | ⟨cur,current,equal⟩
      · rw [same,absent] at found
        contradiction
      · rw [same,current] at found
        rw [← Option.some.inj found,equal] at under
        omega
    · exact ⟨f,by rw [if_neg same,found],under⟩
  · obtain ⟨rfl,rfl⟩ := Prod.mk.inj (List.mem_singleton.mp new)
    exact ⟨cp,if_pos rfl,by omega⟩

/-- Pruning with a positive bound keeps a non-empty end of the history. -/
theorem Chain.prune (chain : Chain m trace) (key : Str) (keep : Nat) (positive : 0 < keep)
    (e : CallEvent) (longer : keep < (m.history key).length)
    (write : acceptedWrite e = none) (base : acceptedBase e = none) :
    Chain (m.keepLast key keep) (trace ++ [e]) := by
  constructor
  · intro other f found
    rw [Mem.keepLast_history]
    split
    · rename_i same
      rw [List.getLast?_drop,if_neg (by omega),← same]
      exact chain.head other f found
    · exact chain.head other f found
  · intro other f found
    rw [Mem.keepLast_history]
    split
    · rename_i same
      obtain ⟨first,numbers,last⟩ := chain.consecutive other f found
      rw [same] at numbers last
      refine ⟨first + ((m.history key).length - keep),?_,?_⟩
      · rw [List.map_drop,numbers,List.drop_range',List.length_drop]
        simp
      · rw [List.length_drop]
        omega
    · exact chain.consecutive other f found
  · intro other absent
    rw [Mem.keepLast_history]
    split
    · rename_i same
      have none : m.history key = [] := chain.unwritten key (same ▸ absent)
      simp [none]
    · exact chain.unwritten other absent
  · simpa [write,Mem.keepLast] using chain.feed
  · exact chain.increasing
  · exact chain.below
  · simpa [base] using chain.once

end

theorem BasesBelow.unchanged {m : Mem FileJSON} {trace : List CallEvent} (bases : BasesBelow m trace)
    (after : Mem FileJSON) (e : CallEvent) (files : after.files = m.files)
    (base : acceptedBase e = none) : BasesBelow after (trace ++ [e]) := by
  intro key b member
  rw [files]
  exact bases key b (by simpa [base] using member)

section
variable (fault : Bool) (s : State) (trace : List CallEvent)

/-- One store or blob call keeps the chain of the trace that it extends. -/
theorem exec_chain (call : Call) (log : List CallEvent) (allowed : Allowed log call)
    (chain : Chain s.mem trace) (bases : BasesBelow s.mem trace) :
    Chain (exec fault s call).2.mem (trace ++ [⟨call,(exec fault s call).1⟩]) ∧
      BasesBelow (exec fault s call).2.mem (trace ++ [⟨call,(exec fault s call).1⟩]) := by
  have quiet : ∀ (after : Mem FileJSON) (e : CallEvent), after.files = s.mem.files →
      after.versions = s.mem.versions → after.changes = s.mem.changes → after.nextSeq = s.mem.nextSeq →
      acceptedWrite e = none → acceptedBase e = none →
      Chain after (trace ++ [e]) ∧ BasesBelow after (trace ++ [e]) :=
    fun after e files versions changes nextSeq write base =>
      ⟨chain.unchanged after e files versions changes nextSeq write base,
        bases.unchanged after e files base⟩
  cases call with
  | createFile rec =>
    simp only [exec]
    rcases s.mem.createFile_cases rec with same | ⟨absent,same⟩
    · rw [same]
      exact quiet _ _ rfl rfl rfl rfl rfl rfl
    · rw [same]
      have writable : Writable s.mem (Mem.fileKey rec.accountID rec.fileID) 0 := Or.inl ⟨absent,rfl⟩
      exact ⟨chain.commit bases _ 0 _ _ writable rfl rfl rfl rfl,bases.commit _ 0 _ _ writable rfl rfl⟩
  | updateFile rec baseVersion =>
    simp only [exec]
    rcases s.mem.updateFile_cases rec baseVersion with ⟨err,same⟩ | ⟨cur,current,base,same⟩
    · rw [same]
      exact quiet _ _ rfl rfl rfl rfl rfl rfl
    · rw [same]
      subst base
      have writable : Writable s.mem (Mem.fileKey rec.accountID rec.fileID) cur.version :=
        Or.inr ⟨cur,current,rfl⟩
      exact ⟨chain.commit bases _ cur.version _ _ writable rfl rfl rfl rfl,
        bases.commit _ cur.version _ _ writable rfl rfl⟩
  | pruneVersions accountID fileID keep =>
    simp only [exec]
    rcases s.mem.pruneVersions_cases accountID fileID keep with same | ⟨longer,same⟩
    · rw [same]
      exact quiet _ _ rfl rfl rfl rfl rfl rfl
    · rw [same]
      exact ⟨chain.prune _ keep allowed _ longer rfl rfl,bases.unchanged _ _ rfl rfl⟩
  | getFile accountID fileID => exact quiet _ _ rfl rfl rfl rfl rfl rfl
  | getVersion accountID fileID version => exact quiet _ _ rfl rfl rfl rfl rfl rfl
  | listChangesSince accountID since limit => exact quiet _ _ rfl rfl rfl rfl rfl rfl
  | getIdempotentResponse accountID key => exact quiet _ _ rfl rfl rfl rfl rfl rfl
  | saveIdempotentResponse accountID key response => exact quiet _ _ rfl rfl rfl rfl rfl rfl
  | publish accountID origin rec => exact quiet _ _ rfl rfl rfl rfl rfl rfl
  | putBlob key content =>
    simp only [exec]
    split
    · exact quiet _ _ rfl rfl rfl rfl rfl rfl
    split
    · exact quiet _ _ rfl rfl rfl rfl rfl rfl
    · exact quiet _ _ rfl rfl rfl rfl rfl rfl
  | getBlob key =>
    simp only [exec]
    split
    · exact quiet _ _ rfl rfl rfl rfl rfl rfl
    split
    · exact quiet _ _ rfl rfl rfl rfl rfl rfl
    · exact quiet _ _ rfl rfl rfl rfl rfl rfl
  | deleteBlob key =>
    simp only [exec]
    split
    · exact quiet _ _ rfl rfl rfl rfl rfl rfl
    · exact quiet _ _ rfl rfl rfl rfl rfl rfl

/-- A call answered with an error has no effect at all. -/
theorem exec_refused (call : Call) (error : refused call (exec fault s call).1 = true) :
    (exec fault s call).2 = s := by
  cases call with
  | createFile rec =>
    simp only [exec] at error ⊢
    rcases s.mem.createFile_cases rec with same | ⟨-,same⟩
    · rw [same]
    · rw [same] at error
      contradiction
  | updateFile rec baseVersion =>
    simp only [exec] at error ⊢
    rcases s.mem.updateFile_cases rec baseVersion with ⟨err,same⟩ | ⟨cur,-,-,same⟩
    · rw [same]
    · rw [same] at error
      contradiction
  | getFile accountID fileID => rfl
  | getVersion accountID fileID version => rfl
  | pruneVersions accountID fileID keep => contradiction
  | listChangesSince accountID since limit => contradiction
  | getIdempotentResponse accountID key => contradiction
  | saveIdempotentResponse accountID key response => contradiction
  | publish accountID origin rec => contradiction
  | putBlob key content => contradiction
  | getBlob key => contradiction
  | deleteBlob key => contradiction

end

/-- The server started empty, after any schedule of any requests. -/
def serverRun (prim : Primitives) (cfg : Config) (moves : List (Move Request Bool)) : ServerSystem :=
  run (System.move (handle prim cfg) exec) (System.initial State.empty) moves

/-- Every reachable state of every interleaving keeps the version chain. -/
theorem serverRun_chain (prim : Primitives) (cfg : Config) (moves : List (Move Request Bool)) :
    Chain (serverRun prim cfg moves).shared.mem (serverRun prim cfg moves).trace := by
  have both := System.calls_invariant (handle prim cfg) exec Allowed (fun _ _ => True)
    (fun system => Chain system.shared.mem system.trace ∧ BasesBelow system.shared.mem system.trace)
    (handle_keeps prim cfg) (fun _ _ before => before)
    (fun system index env op next log before _ _ _ allowed =>
      exec_chain env system.shared system.trace op log allowed before.1 before.2)
    (System.initial State.empty) moves ⟨newMem_chain,by simp [BasesBelow,System.initial]⟩
    (System.initial_disciplined Allowed State.empty) (guarded_trivial _ _ moves)
  exact both.1

end NPSync.Server
