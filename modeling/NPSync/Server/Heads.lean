import NPSync.Library.Ledger
import NPSync.Server.VersionChain

/-! The head of a file and the copies of it that requests have read. Versions only
grow and each is one record, so a copy with the version of the head is the head. -/
namespace NPSync.Server
open Library

/-- What one call can do to the heads. -/
inductive HeadStep (m after : Mem FileJSON) (event : CallEvent) : Prop
  | quiet (files : after.files = m.files) (refused : acceptedBase event = none)
  | created (rec head : FileRecord) (absent : m.files.get (Mem.fileKey rec.accountID rec.fileID) = none)
      (same : head = {rec with version := 1,changeSeq := m.nextSeq}) (called : event = ⟨.createFile rec,.ok head⟩)
      (files : after.files = m.files.upsert (Mem.fileKey rec.accountID rec.fileID) head)
  | replaced (rec cur head : FileRecord) (found : m.files.get (Mem.fileKey rec.accountID rec.fileID) = some cur)
      (same : head = {rec with version := cur.version + 1,changeSeq := m.nextSeq})
      (called : event = ⟨.updateFile rec cur.version,.ok head⟩)
      (files : after.files = m.files.upsert (Mem.fileKey rec.accountID rec.fileID) head)

theorem exec_head (fault : Bool) (s : State) (call : Call) :
    HeadStep s.mem (exec fault s call).2.mem ⟨call,(exec fault s call).1⟩ := by
  cases call with
  | createFile rec =>
    simp only [exec]
    rcases s.mem.createFile_cases rec with same | ⟨absent,same⟩
    · rw [same]
      exact .quiet rfl rfl
    · rw [same]
      exact .created rec _ absent rfl rfl rfl
  | updateFile rec base =>
    simp only [exec]
    rcases s.mem.updateFile_cases rec base with ⟨err,same⟩ | ⟨cur,found,current,same⟩
    · rw [same]
      exact .quiet rfl rfl
    · subst current
      rw [same]
      exact .replaced rec cur _ found rfl rfl rfl
  | pruneVersions accountID fileID keep =>
    simp only [exec]
    rcases s.mem.pruneVersions_cases accountID fileID keep with same | ⟨-,same⟩
    · rw [same]
      exact .quiet rfl rfl
    · rw [same]
      exact .quiet rfl rfl
  | putBlob key content =>
    simp only [exec]
    split
    · exact .quiet rfl rfl
    split
    · exact .quiet rfl rfl
    · exact .quiet rfl rfl
  | getBlob key =>
    simp only [exec]
    split
    · exact .quiet rfl rfl
    split
    · exact .quiet rfl rfl
    · exact .quiet rfl rfl
  | deleteBlob key =>
    simp only [exec]
    split
    · exact .quiet rfl rfl
    · exact .quiet rfl rfl
  | _ => exact .quiet rfl rfl

/-- The record was once the head of the key. -/
def ReadOf (m : Mem FileJSON) (key : Str) (read : FileRecord) : Prop :=
  ∃ head, m.files.get key = some head ∧ read.version ≤ head.version ∧ (read.version = head.version → read = head)

/-- Every record stands under the key of its account and file. -/
def Keyed (m : Mem FileJSON) : Prop :=
  ∀ key f, m.files.get key = some f → Mem.fileKey f.accountID f.fileID = key

section
variable {m after : Mem FileJSON} {event : CallEvent}

theorem HeadStep.keyed (step : HeadStep m after event) (keyed : Keyed m) : Keyed after := by
  have put : ∀ head : FileRecord, after.files = m.files.upsert (Mem.fileKey head.accountID head.fileID) head →
      Keyed after := by
    intro head files key f found
    rw [files,Table.get_upsert] at found
    split at found
    · rename_i here
      rw [here,← Option.some.inj found]
    · exact keyed key f found
  cases step with
  | quiet files refused =>
    intro key f found
    exact keyed key f (files ▸ found)
  | created rec head absent same called files => exact put head (by rw [files,same])
  | replaced rec cur head found same called files => exact put head (by rw [files,same])

theorem HeadStep.read (step : HeadStep m after event) {key : Str} {read : FileRecord} (old : ReadOf m key read) :
    ReadOf after key read := by
  obtain ⟨was,found,older,same⟩ := old
  cases step with
  | quiet files refused => exact ⟨was,files ▸ found,older,same⟩
  | created rec head absent made called files =>
    have other : key ≠ Mem.fileKey rec.accountID rec.fileID := by
      rintro rfl
      rw [absent] at found
      contradiction
    exact ⟨was,by rw [files,Table.get_upsert_other _ _ _ _ other,found],older,same⟩
  | replaced rec cur head there made called files =>
    by_cases here : key = Mem.fileKey rec.accountID rec.fileID
    · subst here
      have equal : cur = was := Option.some.inj (there.symm.trans found)
      subst equal
      have newer : head.version = cur.version + 1 := by rw [made]
      refine ⟨head,by rw [files,Table.get_upsert_same],by omega,fun wrong => ?_⟩
      omega
    · exact ⟨was,by rw [files,Table.get_upsert_other _ _ _ _ here,found],older,same⟩

end

/-- The key and the record that a call read. -/
def readHead : CallEvent → Option (Str × FileRecord)
  | ⟨.getFile accountID fileID,.ok f⟩ => some (Mem.fileKey accountID fileID,f)
  | _ => none

theorem exec_readHead (fault : Bool) (s : State) (call : Call) (key : Str) (f : FileRecord)
    (read : readHead ⟨call,(exec fault s call).1⟩ = some (key,f)) :
    s.mem.files.get key = some f ∧ (exec fault s call).2 = s := by
  cases call with
  | getFile accountID fileID =>
    simp only [exec,Mem.getFile] at read ⊢
    cases found : s.mem.files.get (Mem.fileKey accountID fileID) with
    | none =>
      rw [found] at read
      contradiction
    | some head =>
      rw [found] at read
      cases read
      exact ⟨found,trivial⟩
  | _ => contradiction

section
variable {A Req : Type}

abbrev ServerEntry (Req : Type) := Entry State Call Call.Result Req

structure HeadInv (l : Ledger State Call Call.Result A Req) : Prop where
  keyed : Keyed l.shared.mem
  reads : ∀ entry ∈ l.history, ∀ key f, readHead entry.event = some (key,f) →
    ReadOf l.shared.mem key f ∧ Mem.fileKey f.accountID f.fileID = key
  ordered : Ledger.Earlier (fun entry past => ∀ key f, readHead entry.event = some (key,f) →
    ∀ earlier ∈ past, ∀ old, readHead earlier.event = some (key,old) → old.version ≤ f.version) l.history

variable {l : Ledger State Call Call.Result A Req}

theorem HeadInv.called (inv : HeadInv l) (index : Nat) (fault : Bool) (request : Req) (op : Call)
    (next : op.Result → Program Call Call.Result A) (log : List CallEvent) :
    HeadInv (Ledger.called exec l index fault request op next log) := by
  have step := exec_head fault l.shared op
  refine ⟨step.keyed inv.keyed,?_,?_⟩
  · intro entry member key f read
    rcases List.mem_append.mp member with before | now
    · obtain ⟨old,named⟩ := inv.reads entry before key f read
      exact ⟨step.read old,named⟩
    · rw [List.mem_singleton.mp now] at read
      obtain ⟨found,unchanged⟩ := exec_readHead fault l.shared op key f read
      refine ⟨⟨f,?_,le_refl _,fun _ => rfl⟩,inv.keyed key f found⟩
      simp only [Ledger.called,unchanged]
      exact found
  · apply inv.ordered.snoc
    intro key f read earlier member old before
    obtain ⟨found,-⟩ := exec_readHead fault l.shared op key f read
    obtain ⟨head,there,older,-⟩ := (inv.reads earlier member key old before).1
    rw [Option.some.inj (found.symm.trans there)]
    exact older

theorem headInv_run {start : Req → Program Call Call.Result A}
    (allowed : Req → List CallEvent → Call → Prop) (starts : ∀ request, (start request).Keeps (allowed request) [])
    (moves : List (Move Req Bool)) :
    HeadInv (run (Ledger.move start exec) (Ledger.initial State.empty) moves) ∧
      Ledger.Served (fun request program log => program.Keeps (allowed request) log)
        (run (Ledger.move start exec) (Ledger.initial State.empty) moves) ∧
      (run (Ledger.move start exec) (Ledger.initial State.empty) moves).Logged := by
  apply Ledger.ledger_invariant (fun request program log => program.Keeps (allowed request) log) (fun _ _ => True) HeadInv
    starts
  · intro request op next log keeps result
    exact keeps.2 result
  · intro l request _ inv
    exact ⟨inv.keyed,inv.reads,inv.ordered⟩
  · intro l index fault request op next log inv _ _ _ _
    exact inv.called index fault request op next log
  · refine ⟨?_,by simp [Ledger.initial],Ledger.earlier_nil _⟩
    intro key f found
    simp [Ledger.initial,State.empty,Mem.newMem] at found
  · exact guarded_trivial (Ledger.move start exec) _ moves

/-- An accepted update replaces the head that has its base version. -/
theorem exec_updateFile_ok {fault : Bool} {s : State} {rec head : FileRecord} {base : Int}
    (accepted : (exec fault s (.updateFile rec base)).1 = .ok head) :
    ∃ cur, s.mem.files.get (Mem.fileKey rec.accountID rec.fileID) = some cur ∧ (cur.version : Int) = base ∧
      head = {rec with version := cur.version + 1,changeSeq := s.mem.nextSeq} := by
  rcases s.mem.updateFile_cases rec base with ⟨err,same⟩ | ⟨cur,found,current,same⟩
  · simp only [exec,same] at accepted
    contradiction
  · simp only [exec,same] at accepted
    exact ⟨cur,found,current,(Except.ok.inj accepted).symm⟩

/-- A write that was accepted on top of the version of a copy replaced that copy. -/
theorem HeadInv.replaces (inv : HeadInv l) {entry : ServerEntry Req} (member : entry ∈ l.history) {key : Str}
    {read cur : FileRecord} (before : readHead entry.event = some (key,read))
    (found : l.shared.mem.files.get key = some cur) (same : read.version = cur.version) : read = cur := by
  obtain ⟨⟨head,there,-,equal⟩,-⟩ := inv.reads entry member key read before
  have current : head = cur := Option.some.inj (there.symm.trans found)
  subst current
  exact equal same

end
end NPSync.Server
