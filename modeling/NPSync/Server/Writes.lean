import NPSync.Server.Heads

/-! The accepted writes of a run. Every head was written, every head that was read
was written, and a file has no two writes with one version. -/
namespace NPSync.Server
open Library

/-- The key and the record of an accepted write. -/
def wrote : CallEvent → Option (Str × FileRecord)
  | ⟨.createFile rec,.ok head⟩ => some (Mem.fileKey rec.accountID rec.fileID,head)
  | ⟨.updateFile rec _,.ok head⟩ => some (Mem.fileKey rec.accountID rec.fileID,head)
  | _ => none

theorem wrote_quiet {event : CallEvent} (refused : acceptedBase event = none) : wrote event = none := by
  unfold acceptedBase at refused
  split at refused
  · contradiction
  · contradiction
  · rename_i notCreate notUpdate
    unfold wrote
    split
    · exact (notCreate _ _ rfl).elim
    · exact (notUpdate _ _ _ rfl).elim
    · rfl

section
variable {A Req : Type}

def WrittenIn (history : List (ServerEntry Req)) (key : Str) (f : FileRecord) : Prop :=
  ∃ entry ∈ history, wrote entry.event = some (key,f)

theorem WrittenIn.later {history : List (ServerEntry Req)} {key : Str} {f : FileRecord} (written : WrittenIn history key f)
    (more : List (ServerEntry Req)) : WrittenIn (history ++ more) key f := by
  obtain ⟨entry,member,same⟩ := written
  exact ⟨entry,List.mem_append_left more member,same⟩

structure WriteInv (l : Ledger State Call Call.Result A Req) : Prop where
  heads : ∀ key f, l.shared.mem.files.get key = some f → WrittenIn l.history key f
  reads : ∀ entry ∈ l.history, ∀ key f, readHead entry.event = some (key,f) → WrittenIn l.history key f
  copies : ∀ key f, WrittenIn l.history key f → ReadOf l.shared.mem key f
  single : ∀ key f g, WrittenIn l.history key f → WrittenIn l.history key g → f.version = g.version → f = g
  content : ∀ entry ∈ l.history, ∀ rec head, (entry.event = ⟨.createFile rec,.ok head⟩ ∨
    ∃ base, entry.event = ⟨.updateFile rec base,.ok head⟩) →
      head.contentHash = rec.contentHash ∧ head.deleted = rec.deleted

theorem writeInv_initial : WriteInv (Ledger.initial State.empty : Ledger State Call Call.Result A Req) := by
  constructor <;> simp [Ledger.initial,State.empty,Mem.newMem,WrittenIn]

variable {l : Ledger State Call Call.Result A Req}

theorem writtenIn_snoc {history : List (ServerEntry Req)} {entry : ServerEntry Req} {key : Str} {f : FileRecord} :
    WrittenIn (history ++ [entry]) key f ↔ WrittenIn history key f ∨ wrote entry.event = some (key,f) := by
  simp [WrittenIn,or_and_right,exists_or]

/-- What a call puts in the place of the head is written, and newer than every write before. -/
theorem WriteInv.put (inv : WriteInv l) (entry : ServerEntry Req) {after : State} {place : Str} {head : FileRecord}
    (files : after.mem.files = l.shared.mem.files.upsert place head) (wrote_ : wrote entry.event = some (place,head))
    (newer : ∀ f, WrittenIn l.history place f → f.version < head.version) :
    (∀ key f, after.mem.files.get key = some f → WrittenIn (l.history ++ [entry]) key f) ∧
      (∀ key f, WrittenIn (l.history ++ [entry]) key f → ReadOf after.mem key f) ∧
      ∀ key f g, WrittenIn (l.history ++ [entry]) key f → WrittenIn (l.history ++ [entry]) key g →
        f.version = g.version → f = g := by
  refine ⟨?_,?_,?_⟩
  · intro key f found
    rw [files,Table.get_upsert] at found
    split at found
    · rename_i here
      rw [here,← Option.some.inj found]
      exact writtenIn_snoc.mpr (.inr wrote_)
    · exact (inv.heads key f found).later [entry]
  · intro key f written
    rcases writtenIn_snoc.mp written with old | now
    · by_cases here : key = place
      · subst here
        have older := newer f old
        exact ⟨head,by rw [files,Table.get_upsert_same],by omega,fun same => by omega⟩
      · obtain ⟨was,found,older,same⟩ := inv.copies key f old
        exact ⟨was,by rw [files,Table.get_upsert_other _ _ _ _ here,found],older,same⟩
    · obtain ⟨rfl,rfl⟩ := Prod.mk.inj (Option.some.inj (wrote_.symm.trans now))
      exact ⟨head,by rw [files,Table.get_upsert_same],le_refl _,fun _ => rfl⟩
  · intro key f g first second same
    rcases writtenIn_snoc.mp first with old | now
    · rcases writtenIn_snoc.mp second with before | here
      · exact inv.single key f g old before same
      · obtain ⟨rfl,rfl⟩ := Prod.mk.inj (Option.some.inj (wrote_.symm.trans here))
        have older := newer f old
        omega
    · obtain ⟨rfl,rfl⟩ := Prod.mk.inj (Option.some.inj (wrote_.symm.trans now))
      rcases writtenIn_snoc.mp second with before | here
      · have older := newer g before
        omega
      · exact (Prod.mk.inj (Option.some.inj (now.symm.trans here))).2

theorem exec_content {fault : Bool} {s : State} {call : Call} {rec head : FileRecord}
    (event : (⟨call,(exec fault s call).1⟩ : CallEvent) = ⟨.createFile rec,.ok head⟩ ∨
      ∃ base, (⟨call,(exec fault s call).1⟩ : CallEvent) = ⟨.updateFile rec base,.ok head⟩) :
    head.contentHash = rec.contentHash ∧ head.deleted = rec.deleted := by
  rcases event with same | ⟨base,same⟩
  · have served := answer_of_event (fun op => (exec fault s op).1) same.symm
    rcases s.mem.createFile_cases rec with refused | ⟨-,accepted⟩
    · simp only [exec,refused] at served
      contradiction
    · simp only [exec,accepted] at served
      rw [← Except.ok.inj served]
      exact ⟨rfl,rfl⟩
  · obtain ⟨cur,-,-,made⟩ := exec_updateFile_ok (answer_of_event (fun op => (exec fault s op).1) same.symm)
    rw [made]
    exact ⟨rfl,rfl⟩

theorem WriteInv.called (inv : WriteInv l) (index : Nat) (fault : Bool) (request : Req) (op : Call)
    (next : op.Result → Program Call Call.Result A) (log : List CallEvent) :
    WriteInv (Ledger.called exec l index fault request op next log) := by
  have reads : ∀ entry ∈ (Ledger.called exec l index fault request op next log).history, ∀ key f,
      readHead entry.event = some (key,f) →
        WrittenIn (Ledger.called exec l index fault request op next log).history key f := by
    intro entry member key f read
    rcases List.mem_append.mp member with before | now
    · exact (inv.reads entry before key f read).later _
    · rw [List.mem_singleton.mp now] at read
      exact (inv.heads key f (exec_readHead fault l.shared op key f read).1).later _
  have content : ∀ entry ∈ (Ledger.called exec l index fault request op next log).history, ∀ rec head,
      (entry.event = ⟨.createFile rec,.ok head⟩ ∨ ∃ base, entry.event = ⟨.updateFile rec base,.ok head⟩) →
        head.contentHash = rec.contentHash ∧ head.deleted = rec.deleted := by
    intro entry member rec head event
    rcases List.mem_append.mp member with before | now
    · exact inv.content entry before rec head event
    · rw [List.mem_singleton.mp now] at event
      exact exec_content event
  cases exec_head fault l.shared op with
  | quiet files refused =>
    have silent := wrote_quiet refused
    refine ⟨?_,reads,?_,?_,content⟩
    · intro key f found
      simp only [Ledger.called] at found
      rw [files] at found
      exact (inv.heads key f found).later _
    · intro key f written
      rcases writtenIn_snoc.mp written with old | now
      · obtain ⟨was,found,older,same⟩ := inv.copies key f old
        exact ⟨was,files ▸ found,older,same⟩
      · rw [silent] at now
        contradiction
    · intro key f g first second same
      rcases writtenIn_snoc.mp first with old | now
      · rcases writtenIn_snoc.mp second with before | here
        · exact inv.single key f g old before same
        · rw [silent] at here
          contradiction
      · rw [silent] at now
        contradiction
  | created rec head absent made event files =>
    have wrote_ : wrote ⟨op,(exec fault l.shared op).1⟩ = some (Mem.fileKey rec.accountID rec.fileID,head) := by
      rw [event]
      rfl
    have newer : ∀ f, WrittenIn l.history (Mem.fileKey rec.accountID rec.fileID) f → f.version < head.version := by
      intro f written
      obtain ⟨was,found,-⟩ := inv.copies _ f written
      rw [absent] at found
      contradiction
    obtain ⟨heads,copies,single⟩ := inv.put ⟨index,request,l.shared,_,_⟩ files wrote_ newer
    exact ⟨heads,reads,copies,single,content⟩
  | replaced rec cur head found made event files =>
    have wrote_ : wrote ⟨op,(exec fault l.shared op).1⟩ = some (Mem.fileKey rec.accountID rec.fileID,head) := by
      rw [event]
      rfl
    have newer : ∀ f, WrittenIn l.history (Mem.fileKey rec.accountID rec.fileID) f → f.version < head.version := by
      intro f written
      obtain ⟨was,there,older,-⟩ := inv.copies _ f written
      have same : was = cur := Option.some.inj (there.symm.trans found)
      rw [made,← same]
      exact Nat.lt_succ_of_le older
    obtain ⟨heads,copies,single⟩ := inv.put ⟨index,request,l.shared,_,_⟩ files wrote_ newer
    exact ⟨heads,reads,copies,single,content⟩

end
end NPSync.Server
