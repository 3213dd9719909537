import NPSync.Engine.Apply
import NPSync.KnownAnswers

/-! What `applyRemoteFile` does to bytes on disk that were never synchronised. -/
namespace NPSync.Engine
open Library

section
variable (plat : Platform) (dev : Device) (l : Local) (fileId : Str) (r : ApiResponse) (io : ApplyIo) (now : Int)

/-- The call overwrote or deleted the file at the path. -/
def Destroyed (before after : Local) (abs : WStr) : Prop :=
  PathUtil.wlower plat.win abs ∈ after.disk.journal.drop before.disk.journal.length

/-- The bytes are those of the tracked row. -/
def Synchronised (st : Option LocalFileState) (bytes : Bytes) : Prop :=
  ∃ row, st = some row ∧
    (Crypto.sha256Hex plat.prim bytes = row.localHash ∨ Crypto.sha256Hex plat.prim bytes = row.remoteHash)

/-- A conflict was added whose local copy holds the bytes. -/
def Preserved (before after : Local) (bytes : Bytes) : Prop :=
  ∃ c copy, before.db.conflicts.get fileId ≠ some c ∧ after.db.conflicts.get fileId = some c ∧
    c.localCopyPath = PathUtil.wideToUtf8 plat.win copy ∧ after.disk.read plat.win copy = some bytes

/-- Whenever the call overwrites or deletes the file at the mapped path, its
bytes were synchronised or are kept in a conflict. -/
def KeepsUnsynced : Prop :=
  ∀ record key abs bytes, remoteRecord plat dev r = .ok record →
    localKeyFor plat.win l.db record.norm = some key → absPathForRel plat.win l.db key = some abs →
    l.disk.read plat.win abs = some bytes →
    Destroyed plat l (applyRemoteFile plat dev l fileId r io now).2 abs →
    Synchronised plat (l.db.getFile key) bytes ∨
      Preserved plat fileId l (applyRemoteFile plat dev l fileId r io now).2 bytes

/-- The record is accepted and newer, the bytes at its path are not those of the
row, and no check stands before the delete or the replacement that succeeds: a
tombstone, or valid content while the path is untracked, the row has no local
hash, or the file does not open. -/
def Unguarded : Prop :=
  ∃ record t bytes, remoteRecord plat dev r = .ok record ∧ remoteTarget plat dev l record = .ok t ∧
    l.disk.read plat.win t.abs = some bytes ∧ ¬Synchronised plat t.st bytes ∧
    ((record.deleted = true ∧ io.deletes = true) ∨
      (record.deleted = false ∧ (∃ content, remoteContent plat dev r = .ok content) ∧ io.write = .replaced ∧
        (t.st = none ∨ (∃ row, t.st = some row ∧ row.localHash = []) ∨ io.opens = false)))

theorem remoteTarget_parts (record : RemoteRecord) (t : Target) (found : remoteTarget plat dev l record = .ok t) :
    localKeyFor plat.win l.db record.norm = some t.key ∧ absPathForRel plat.win l.db t.key = some t.abs ∧
      t.st = l.db.getFile t.key ∧ t.version = record.version ∧ ignored dev record.norm false = false ∧
      ∀ row, t.st = some row → row.remoteVersion < record.version := by
  unfold remoteTarget at found
  cases key : localKeyFor plat.win l.db record.norm with
  | none => simp [key,orFail,bind,Except.bind] at found
  | some k =>
    cases abs : absPathForRel plat.win l.db k with
    | none => simp [key,abs,orFail,bind,Except.bind] at found
    | some a =>
      simp only [key,abs,orFail,bind,Except.bind] at found
      split at found
      · contradiction
      rename_i kept
      split at found
      · rename_i st row
        split at found
        · contradiction
        · rename_i newer
          have same := Except.ok.inj found
          subst same
          refine ⟨rfl,abs,row.symm,rfl,Bool.eq_false_iff.mpr kept,?_⟩
          intro other equal
          rw [← Option.some.inj equal]
          omega
      · rename_i row
        have same := Except.ok.inj found
        subst same
        exact ⟨rfl,abs,row.symm,rfl,Bool.eq_false_iff.mpr kept,by simp⟩

/-- The record's path names one target. -/
theorem remoteTarget_unique (record : RemoteRecord) (t : Target) (key : Str) (abs : WStr)
    (found : remoteTarget plat dev l record = .ok t) (named : localKeyFor plat.win l.db record.norm = some key)
    (mapped : absPathForRel plat.win l.db key = some abs) : key = t.key ∧ abs = t.abs := by
  obtain ⟨keys,paths,-⟩ := remoteTarget_parts plat dev l record t found
  rw [keys,Option.some.injEq] at named
  subst named
  rw [paths,Option.some.injEq] at mapped
  exact ⟨rfl,mapped.symm⟩

/-- The copy of a conflict is another file than the one it copies. -/
theorem conflictCopyPath_longer (abs : WStr) : abs.length < (conflictCopyPath abs).length := by
  have parts := congrArg List.length (List.rdropWhile_append_rtakeWhile : _ ++ abs.rtakeWhile (fun c => !PathUtil.separator c) = abs)
  simp only [List.length_append] at parts
  have suffix : 0 < (wlit " (conflict - local unsaved).bak").length := by decide +kernel
  have slash : (wlit "\\").length = 1 := by decide
  simp only [conflictCopyPath,PathUtil.dirOf,PathUtil.fileNameOf,List.length_append]
  split
  · rw [List.length_dropLast]
    omega
  · omega

theorem conflictCopy_ne (abs : WStr) (fate : WriteFate) :
    PathUtil.wlower plat.win abs ∉ writtenPaths plat.win (conflictCopyPath abs) fate := by
  have longer := conflictCopyPath_longer abs
  have copy := wlower_ne_of_length plat.win abs (conflictCopyPath abs) longer
  have tmp := wlower_ne_of_length plat.win abs (tmpPath (conflictCopyPath abs))
    (by simp only [tmpPath,List.length_append]; omega)
  cases fate <;> simp [writtenPaths,copy.symm,tmp.symm]

theorem mem_writtenPaths_self (abs : WStr) (fate : WriteFate) :
    PathUtil.wlower plat.win abs ∈ writtenPaths plat.win abs fate ↔ fate = .replaced := by
  cases fate <;> simp [writtenPaths,(tmpPath_ne plat.win abs).symm]

theorem destroyed_iff (abs : WStr) :
    Destroyed plat l (applyRemoteFile plat dev l fileId r io now).2 abs ↔
      PathUtil.wlower plat.win abs ∈ touchedPaths plat io (planRemote plat dev l r io.opens) := by
  simp [Destroyed,applyRemoteFile,perform_journal]

/-- Only a planned conflict adds a conflict. -/
theorem perform_conflicts (plan : Plan) (other : ∀ t currentLocal hash, plan ≠ .conflict t currentLocal hash) :
    (perform plat l fileId r io now plan).2.db.conflicts = l.db.conflicts := by
  cases plan with
  | stop outcome => rfl
  | remove t =>
    simp only [perform,performRemove_db]
    cases t.st <;> rfl
  | conflict t currentLocal hash => exact absurd rfl (other t currentLocal hash)
  | replace t plain =>
    rcases performReplace_cases plat l fileId r t plain io with ⟨same,-⟩ | ⟨vector,-,-,-,row⟩
    · exact congrArg LocalDb.conflicts same
    · have conflicts := congrArg LocalDb.conflicts row
      exact conflicts

/-- A file that opens, is tracked with a local hash and was changed is seen as edited. -/
theorem edited_none (t : Target) (bytes : Bytes) (present : l.disk.read plat.win t.abs = some bytes)
    (unsynced : ¬Synchronised plat t.st bytes) (unseen : edited plat l t io.opens = none) :
    t.st = none ∨ (∃ row, t.st = some row ∧ row.localHash = []) ∨ io.opens = false := by
  cases opens : io.opens with
  | false => exact .inr (.inr rfl)
  | true =>
    cases st : t.st with
    | none => exact .inl rfl
    | some row =>
      refine .inr (.inl ⟨row,rfl,?_⟩)
      by_contra hashed
      have differs : Crypto.sha256Hex plat.prim bytes ≠ row.localHash ∧
          Crypto.sha256Hex plat.prim bytes ≠ row.remoteHash := by
        refine ⟨fun same => unsynced ⟨row,st,.inl same⟩,fun same => unsynced ⟨row,st,.inr same⟩⟩
      simp [edited,readFileBytes,opens,present,st,hashed,differs] at unseen

theorem edited_none_of_unchecked (t : Target)
    (unchecked : t.st = none ∨ (∃ row, t.st = some row ∧ row.localHash = []) ∨ io.opens = false) :
    edited plat l t io.opens = none := by
  rcases unchecked with untracked | ⟨row,tracked,unhashed⟩ | closed
  · cases read : readFileBytes plat.win l.disk t.abs io.opens <;> simp [edited,untracked,read]
  · cases read : readFileBytes plat.win l.disk t.abs io.opens <;> simp [edited,tracked,unhashed,read]
  · simp [edited,readFileBytes,closed]

/-- The call that destroys unsynchronised bytes took the branch that no check guards. -/
theorem unguarded_of_destroyed (record : RemoteRecord) (key : Str) (abs : WStr) (bytes : Bytes)
    (accepted : remoteRecord plat dev r = .ok record) (named : localKeyFor plat.win l.db record.norm = some key)
    (mapped : absPathForRel plat.win l.db key = some abs) (present : l.disk.read plat.win abs = some bytes)
    (touched : PathUtil.wlower plat.win abs ∈ touchedPaths plat io (planRemote plat dev l r io.opens))
    (unsynced : ¬Synchronised plat (l.db.getFile key) bytes) : Unguarded plat dev l r io := by
  obtain ⟨outcome,stops⟩ | ⟨record',t,accepted',found,branch⟩ := planRemote_cases plat dev l r io.opens
  · simp [stops,touchedPaths] at touched
  rw [accepted] at accepted'
  cases accepted'
  obtain ⟨rfl,rfl⟩ := remoteTarget_unique plat dev l record t key abs found named mapped
  obtain ⟨-,-,row,-⟩ := remoteTarget_parts plat dev l record t found
  rw [← row] at unsynced
  refine ⟨record,t,bytes,accepted,found,present,unsynced,?_⟩
  obtain ⟨dead,plan⟩ | ⟨plain,hash,live,content,⟨currentLocal,-,plan⟩ | ⟨unseen,plan⟩⟩ := branch
  · rw [plan] at touched
    by_cases deletes : io.deletes
    · exact .inl ⟨dead,deletes⟩
    · simp [touchedPaths,deletes] at touched
  · rw [plan] at touched
    exact absurd touched (conflictCopy_ne plat t.abs io.copyWrite)
  · rw [plan,touchedPaths,mem_writtenPaths_self] at touched
    exact .inr ⟨live,⟨_,content⟩,touched,edited_none plat l io t bytes present unsynced unseen⟩

/-- An unguarded call destroys the file and adds no conflict. -/
theorem unguarded_destroys (record : RemoteRecord) (t : Target) (accepted : remoteRecord plat dev r = .ok record)
    (found : remoteTarget plat dev l record = .ok t)
    (branch : (record.deleted = true ∧ io.deletes = true) ∨
      (record.deleted = false ∧ (∃ content, remoteContent plat dev r = .ok content) ∧ io.write = .replaced ∧
        (t.st = none ∨ (∃ row, t.st = some row ∧ row.localHash = []) ∨ io.opens = false))) :
    PathUtil.wlower plat.win t.abs ∈ touchedPaths plat io (planRemote plat dev l r io.opens) ∧
      ∀ t' currentLocal hash, planRemote plat dev l r io.opens ≠ .conflict t' currentLocal hash := by
  rcases branch with ⟨dead,deletes⟩ | ⟨live,⟨content,valid⟩,written,unchecked⟩
  · simp [planRemote,accepted,found,dead,touchedPaths,deletes]
  · have unseen := edited_none_of_unchecked plat l io t unchecked
    simp [planRemote,accepted,found,live,valid,unseen,touchedPaths,mem_writtenPaths_self,written]

/-- Applying a remote change keeps unsynchronised local content exactly when the
call does not reach an unguarded delete or replacement. -/
theorem keeps_unsynced_iff : KeepsUnsynced plat dev l fileId r io now ↔ ¬Unguarded plat dev l r io := by
  constructor
  · rintro keeps ⟨record,t,bytes,accepted,found,present,unsynced,branch⟩
    obtain ⟨named,mapped,row,-⟩ := remoteTarget_parts plat dev l record t found
    obtain ⟨touched,plain⟩ := unguarded_destroys plat dev l r io record t accepted found branch
    rcases keeps record t.key t.abs bytes accepted named mapped present
        ((destroyed_iff plat dev l fileId r io now t.abs).mpr touched) with synced | ⟨c,copy,before,after,-⟩
    · exact unsynced (row ▸ synced)
    · rw [applyRemoteFile,planRemote_online,perform_conflicts plat _ fileId r io now _ plain] at after
      exact before after
  · intro guarded record key abs bytes accepted named mapped present destroyed
    refine .inl (by_contra fun unsynced => guarded ?_)
    exact unguarded_of_destroyed plat dev l r io record key abs bytes accepted named mapped present
      ((destroyed_iff plat dev l fileId r io now abs).mp destroyed) unsynced

end

section
open KnownAnswers

/-- `notes.txt` was synchronised as `hello` and has since been edited to `world`. -/
private def editedNotes : Local where
  db := rooted.upsertFile ⟨lit "f",lit "home",lit "home:notes.txt",Crypto.sha256Hex sample (lit "hello"),
    Crypto.sha256Hex sample (lit "hello"),1,.empty,false,0⟩
  disk := ⟨Table.empty.upsert (wlit "c:\\notes\\notes.txt") (lit "world"),[]⟩
  shadows := .empty
  backups := []
  online := true

/-- A tombstone of another device deletes the edited file without a conflict. -/
theorem tombstone_destroys_edit :
    ¬KeepsUnsynced platform laptop editedNotes (lit "f") notesTombstone workingIo 0 := by
  intro keeps
  have destroyed : PathUtil.wlower ascii (wlit "C:\\notes\\notes.txt") ∈
      (applyRemoteFile platform laptop editedNotes (lit "f") notesTombstone workingIo 0).2.disk.journal.drop 0 := by
    rw [editedNotes,sample_numerals,platform_numerals,notesTombstone,notesMetadata_numerals]
    decide
  have hashes : (editedNotes.db.getFile (lit "home:notes.txt")).all (fun row =>
      Crypto.sha256Hex sample (lit "world") ≠ row.localHash ∧
        Crypto.sha256Hex sample (lit "world") ≠ row.remoteHash) = true := by
    rw [editedNotes,sample_numerals]
    decide
  have unrecorded : (applyRemoteFile platform laptop editedNotes (lit "f") notesTombstone workingIo 0).2.db.conflicts.get
      (lit "f") = none := by
    rw [editedNotes,sample_numerals,platform_numerals,notesTombstone,notesMetadata_numerals]
    decide
  rcases keeps ⟨2,true,lit "notes.txt"⟩ (lit "home:notes.txt") (wlit "C:\\notes\\notes.txt") (lit "world")
    (by decide +kernel) (by decide) (by decide) (by decide) destroyed with
    ⟨row,tracked,synced⟩ | ⟨c,copy,-,recorded,-⟩
  · rw [tracked] at hashes
    have differ := of_decide_eq_true hashes
    rcases synced with same | same
    · exact differ.1 same
    · exact differ.2 same
  · exact Option.some_ne_none c (recorded.symm.trans unrecorded)

end
end NPSync.Engine
