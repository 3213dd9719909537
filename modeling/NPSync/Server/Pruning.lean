import NPSync.Server.Contents
import NPSync.Server.StoreAgreement

/-! What `PruneVersions` keeps and what it frees. Restores and deletes let several
versions of a file share one blob: a key is freed when the last entry that used it
is dropped and the head does not use it either. -/
namespace NPSync.Server
open Library

section
variable {R : Type}

/-- A file without a head has no history. -/
def Headed (m : Mem R) : Prop := ∀ key, m.files.get key = none → m.history key = []

theorem commit_headed {m : Mem R} (headed : Headed m) (key : Str) (head : FileRecord) : Headed (m.commit key head) := by
  intro other missing
  rw [Mem.commit_files] at missing
  rw [Mem.commit_history]
  split at missing
  · contradiction
  · rename_i different
    rw [if_neg different,headed other missing]

theorem keepLast_headed {m : Mem R} (headed : Headed m) (key : Str) (keep : Nat) : Headed (m.keepLast key keep) := by
  intro other missing
  rw [Mem.keepLast_history]
  split
  · rename_i here
    rw [← here,headed other missing,List.drop_nil]
  · exact headed other missing

theorem createFile_headed {m : Mem R} (headed : Headed m) (rec : FileRecord) : Headed (m.createFile rec).2 := by
  rcases m.createFile_cases rec with same | ⟨-,same⟩
  · rw [same]
    exact headed
  · rw [same]
    exact commit_headed headed _ _

theorem updateFile_headed {m : Mem R} (headed : Headed m) (rec : FileRecord) (base : Int) : Headed (m.updateFile rec base).2 := by
  rcases m.updateFile_cases rec base with ⟨err,same⟩ | ⟨cur,-,-,same⟩
  · rw [same]
    exact headed
  · rw [same]
    exact commit_headed headed _ _

theorem pruneVersions_headed {m : Mem R} (headed : Headed m) (accountID fileID : Str) (keep : Nat) :
    Headed (m.pruneVersions accountID fileID keep).2 := by
  rcases m.pruneVersions_cases accountID fileID keep with same | ⟨-,same⟩
  · rw [same]
    exact headed
  · rw [same]
    exact keepLast_headed headed _ _

end

theorem exec_headed (env : StoreEnv) (m : MemStore) (call : StoreCall) (headed : Headed m.files) :
    Headed (m.exec env call).2.files := by
  cases call with
  | createFile rec => exact createFile_headed headed rec
  | updateFile rec base => exact updateFile_headed headed rec base
  | pruneVersions accountID fileID keep =>
    unfold MemStore.exec
    dsimp only
    split
    · exact headed
    · exact pruneVersions_headed headed accountID fileID _
  | _ => exact headed

/-- The maps of `Mem` after any calls of the `Store` interface. -/
def memAfter (calls : List (StoreEnv × StoreCall)) : MemStore :=
  run (fun m (call : StoreEnv × StoreCall) => (m.exec call.1 call.2).2) .empty calls

theorem memAfter_headed (calls : List (StoreEnv × StoreCall)) : Headed (memAfter calls).files :=
  run_invariant _ (fun _ _ => True) (fun m => Headed m.files) (fun m call headed _ => exec_headed call.1 m call.2 headed) _
    calls (fun _ _ => rfl) (guarded_trivial _ _ calls)

/-! ### One pruning -/

section
variable {R : Type} (m : Mem R) (accountID fileID : Str) (keep : Nat)

/-- The entries that pruning drops, and those it keeps. -/
def droppedVersions : List VersionRecord :=
  (m.history (Mem.fileKey accountID fileID)).take ((m.history (Mem.fileKey accountID fileID)).length - keep)

def keptVersions : List VersionRecord :=
  (m.history (Mem.fileKey accountID fileID)).drop ((m.history (Mem.fileKey accountID fileID)).length - keep)

/-- `PruneVersions` keeps the newest entries, changes nothing else, and returns the
keys that only dropped entries used. -/
structure PrunesExactly : Prop where
  newest : (m.pruneVersions accountID fileID keep).2.history (Mem.fileKey accountID fileID) =
    keptVersions m accountID fileID keep
  size : (keptVersions m accountID fileID keep).length = min keep (m.history (Mem.fileKey accountID fileID)).length
  heads : (m.pruneVersions accountID fileID keep).2.files = m.files
  others : ∀ key, key ≠ Mem.fileKey accountID fileID → (m.pruneVersions accountID fileID keep).2.history key = m.history key
  otherFiles : PlainAccount accountID → ∀ account file, PlainAccount account → (account,file) ≠ (accountID,fileID) →
    (m.pruneVersions accountID fileID keep).2.history (Mem.fileKey account file) = m.history (Mem.fileKey account file)
  freed : ∀ blob, blob ∈ (m.pruneVersions accountID fileID keep).1 ↔
    (∃ v ∈ droppedVersions m accountID fileID keep, v.blobKey = blob) ∧
      (∀ f, m.files.get (Mem.fileKey accountID fileID) = some f → f.blobKey ≠ blob) ∧
      ∀ v ∈ keptVersions m accountID fileID keep, v.blobKey ≠ blob
  again : (m.pruneVersions accountID fileID keep).2.pruneVersions accountID fileID keep =
    ([],(m.pruneVersions accountID fileID keep).2)

variable {m accountID fileID keep}

theorem keptVersions_length :
    (keptVersions m accountID fileID keep).length = min keep (m.history (Mem.fileKey accountID fileID)).length := by
  rw [keptVersions,List.length_drop]
  omega

theorem pruneVersions_files : (m.pruneVersions accountID fileID keep).2.files = m.files := by
  rcases m.pruneVersions_cases accountID fileID keep with same | ⟨-,same⟩
  · rw [same]
  · rw [same]
    rfl

theorem pruneVersions_freed (headed : Headed m) (blob : Str) : blob ∈ (m.pruneVersions accountID fileID keep).1 ↔
    (∃ v ∈ droppedVersions m accountID fileID keep, v.blobKey = blob) ∧
      (∀ f, m.files.get (Mem.fileKey accountID fileID) = some f → f.blobKey ≠ blob) ∧
      ∀ v ∈ keptVersions m accountID fileID keep, v.blobKey ≠ blob := by
  by_cases short : (m.history (Mem.fileKey accountID fileID)).length ≤ keep
  · have none : droppedVersions m accountID fileID keep = [] := by
      rw [droppedVersions,Nat.sub_eq_zero_of_le short,List.take_zero]
    rw [none]
    simp [Mem.pruneVersions,short]
  · simp only [Mem.pruneVersions,short,if_false,mem_prunedKeys]
    -- a history to drop from has a head, so the empty key of a missing head never counts
    cases head : m.files.get (Mem.fileKey accountID fileID) with
    | none =>
      rw [headed _ head] at short
      exact absurd (Nat.zero_le keep) short
    | some f =>
      simp only [Option.some.injEq,forall_eq']
      rfl

/-- Pruning of any file in any state that calls lead to. -/
theorem pruneVersions_exact (calls : List (StoreEnv × StoreCall)) (accountID fileID : Str) (keep : Nat) :
    PrunesExactly (memAfter calls).files accountID fileID keep := by
  have headed := memAfter_headed calls
  generalize (memAfter calls).files = m at headed ⊢
  constructor
  case newest =>
    rw [pruneVersions_history,if_pos rfl]
    rfl
  case size => exact keptVersions_length
  case heads => exact pruneVersions_files
  case others =>
    intro key different
    rw [pruneVersions_history,if_neg different]
  case otherFiles =>
    intro plain account file also different
    rw [pruneVersions_history,if_neg]
    intro same
    obtain ⟨rfl,rfl⟩ := fileKey_inj also plain same
    exact different rfl
  case freed => exact pruneVersions_freed headed
  case again =>
    have short : ((m.pruneVersions accountID fileID keep).2.history (Mem.fileKey accountID fileID)).length ≤ keep := by
      rw [pruneVersions_history,if_pos rfl,List.length_drop]
      omega
    rw [Mem.pruneVersions,if_pos short]

end
end NPSync.Server
