import NPSync.KnownAnswers
import NPSync.Server.BlobStores
import NPSync.Server.Discipline

/-! Blob references. Blob keys are content hashes and shared by all files of
all accounts, while `PruneVersions` looks only at the file it prunes. A run
keeps every referenced blob as long as no pruning reaches an entry whose key is
used elsewhere and no blob is stored under a key whose deletion is still under way. -/
namespace NPSync.Server
open Library

abbrev BlobSystem (S : Type) := System S Call Call.Result Response

/-- The server over the store after a schedule of requests; `fault` makes a blob call fail. -/
def BlobStore.run {S : Type} (store : BlobStore S) (prim : Primitives) (cfg : Config) (accounts : store.Accounts)
    (moves : List (Move Request Bool)) : BlobSystem S :=
  Library.run (System.move (handle prim cfg) store.exec) (System.initial (store.opened accounts)) moves

/-- What a request has on its account, by the calls it made; nothing once it is answered. -/
def onAccount (account : List CallEvent → List Str) : Thread Call Call.Result Response → List Str
  | ⟨.call _ _,log⟩ => account log
  | ⟨.done _,_⟩ => []

section
variable {S : Type} (store : BlobStore S) (system : BlobSystem S)

/-- A request in flight holds the key. -/
def Holds (key : Str) : Prop := ∃ t ∈ system.threads, key ∈ onAccount held t

/-- A request in flight still has to delete the key. -/
def Owes (key : Str) : Prop := ∃ t ∈ system.threads, key ∈ onAccount owed t

/-- The entries of the file that are too old to keep are named by the file itself, or
by no other file and no request in flight. -/
def PruneGuard (file : store.view.File) (keep : Nat) : Prop :=
  ∀ v ∈ (store.view.newest system.shared file).drop keep, store.view.Unnamed system.shared file keep v.blobKey →
    (∀ other, other ≠ file → ¬store.view.ReferencedBy system.shared other v.blobKey) ∧ ¬Holds system v.blobKey

def CallGuard (fault : Bool) : Call → Prop
  | .pruneVersions accountID fileID keep => PruneGuard store system (store.view.file accountID fileID) keep
  | .putBlob key _ => fault = false → ¬Owes system key
  | _ => True

/-- The condition on one move of a run, in the state before it. -/
def BlobGuard : Move Request Bool → Prop
  | .spawn _ => True
  | .step index fault => ∀ op ∈ system.pending index, CallGuard store system fault op

instance (key : Str) : Decidable (Holds system key) :=
  inferInstanceAs (Decidable (∃ t ∈ system.threads, key ∈ onAccount held t))

instance (key : Str) : Decidable (Owes system key) :=
  inferInstanceAs (Decidable (∃ t ∈ system.threads, key ∈ onAccount owed t))

instance (file : store.view.File) (keep : Nat) : Decidable (PruneGuard store system file keep) :=
  inferInstanceAs (Decidable (∀ v ∈ _,_ → _ ∧ _))

instance (fault : Bool) : (op : Call) → Decidable (CallGuard store system fault op)
  | .pruneVersions _ _ _ => inferInstanceAs (Decidable (PruneGuard ..))
  | .putBlob _ _ => inferInstanceAs (Decidable (_ → _))
  | .getFile .. | .createFile .. | .updateFile .. | .getVersion .. | .listChangesSince ..
  | .getIdempotentResponse .. | .saveIdempotentResponse .. | .getBlob .. | .deleteBlob ..
  | .publish .. => .isTrue trivial

instance : (first : Move Request Bool) → Decidable (BlobGuard store system first)
  | .spawn _ => .isTrue trivial
  | .step index fault => inferInstanceAs (Decidable (∀ op ∈ system.pending index,CallGuard store system fault op))

end

/-- The invariant, for any account of who holds and who owes what. -/
structure Kept {S : Type} (view : FileView S) (s : S) (holds owes : Str → Prop) : Prop where
  referenced : view.NoDangling s
  held : ∀ key, holds key → view.Stored s key
  owed : ∀ key, owes key → ¬view.Referenced s key ∧ ¬holds key

theorem Kept.mono {S : Type} {view : FileView S} {s : S} {holds owes fewer less : Str → Prop} (kept : Kept view s holds owes)
    (h : ∀ key, fewer key → holds key) (o : ∀ key, less key → owes key) : Kept view s fewer less where
  referenced := kept.referenced
  held key inside := kept.held key (h key inside)
  owed key inside := ⟨(kept.owed key (o key inside)).1,
    fun holding => (kept.owed key (o key inside)).2 (h key holding)⟩

theorem holdStep_mem (before : List Str) (e : CallEvent) (key : Str) (member : key ∈ holdStep before e) :
    key ∈ before ∨ key ∈ holdStep [] e := by
  unfold holdStep at member ⊢
  split at member
  · simpa [or_comm] using member
  · split at member
    · exact Or.inl member
    · rename_i live
      simpa [or_comm,live] using member
  · contradiction
  · contradiction
  · exact Or.inl member

theorem oweStep_mem (before : List Str) (e : CallEvent) (key : Str) (member : key ∈ oweStep before e) :
    key ∈ before ∨ key ∈ oweStep [] e := by
  unfold oweStep at member ⊢
  split at member
  · exact List.mem_append.mp member
  · exact Or.inl (List.mem_of_mem_erase member)
  · exact Or.inl member

/-- A key is taken hold of by storing its blob or by reading a live version. -/
theorem holdStep_cases {e : CallEvent} {key : Str} (member : key ∈ holdStep [] e) :
    (∃ content, e = ⟨.putBlob key content,true⟩) ∨
      ∃ accountID fileID version v, e = ⟨.getVersion accountID fileID version,.ok v⟩ ∧ v.deleted = false ∧ v.blobKey = key := by
  unfold holdStep at member
  split at member
  · rw [List.mem_singleton.mp member]
    exact .inl ⟨_,rfl⟩
  · split at member
    · contradiction
    · next live =>
      exact .inr ⟨_,_,_,_,rfl,by simpa using live,(List.mem_singleton.mp member).symm⟩
  · contradiction
  · contradiction
  · contradiction

theorem oweStep_cases {e : CallEvent} {key : Str} (member : key ∈ oweStep [] e) :
    ∃ accountID fileID keep keys, e = ⟨.pruneVersions accountID fileID keep,keys⟩ ∧ key ∈ keys := by
  unfold oweStep at member
  split at member
  · exact ⟨_,_,_,_,rfl,by simpa using member⟩
  · simp at member
  · contradiction

variable {S : Type}

/-- After a call a request has on its account only what it had and what the call added. -/
private theorem onAccount_advance (account : List CallEvent → List Str)
    (step : List Str → CallEvent → List Str)
    (extends_by : ∀ log e, account (log ++ [e]) = step (account log) e)
    (adds : ∀ before e key, key ∈ step before e → key ∈ before ∨ key ∈ step [] e)
    (exec : Bool → S → (call : Call) → call.Result × S) (system : BlobSystem S) (index : Nat) (fault : Bool) (op : Call)
    (next : op.Result → Handler) (log : List CallEvent) (found : system.threads[index]? = some ⟨.call op next,log⟩) (key : Str)
    (after : ∃ t ∈ (System.advance exec system index fault op next log).threads, key ∈ onAccount account t) :
    (∃ t ∈ system.threads, key ∈ onAccount account t) ∨
      key ∈ step [] ⟨op,(exec fault system.shared op).1⟩ := by
  obtain ⟨t,member,inside⟩ := after
  rcases List.mem_or_eq_of_mem_set member with old | new
  · exact Or.inl ⟨t,old,inside⟩
  · have had : key ∈ account (log ++ [⟨op,(exec fault system.shared op).1⟩]) := by
      subst new
      unfold onAccount at inside
      split at inside
      · rename_i same
        rw [(Thread.mk.inj same).2]
        exact inside
      · contradiction
    rw [extends_by] at had
    rcases adds _ _ _ had with before | added
    · exact Or.inl ⟨_,List.mem_of_getElem? found,before⟩
    · exact Or.inr added

private theorem onAccount_spawn (account : List CallEvent → List Str) (nothing : account [] = [])
    (prim : Primitives) (cfg : Config) (system : BlobSystem S) (request : Request) (key : Str)
    (after : ∃ t ∈ system.threads ++ [⟨handle prim cfg request,[]⟩], key ∈ onAccount account t) :
    ∃ t ∈ system.threads, key ∈ onAccount account t := by
  obtain ⟨t,member,inside⟩ := after
  rcases List.mem_append.mp member with old | new
  · exact ⟨t,old,inside⟩
  · rw [List.mem_singleton.mp new] at inside
    unfold onAccount at inside
    split at inside
    · rename_i same
      rw [← (Thread.mk.inj same).2,nothing] at inside
      contradiction
    · contradiction

/-- A live record is only written under a key that its request holds. -/
theorem Call.Commits.held {key : Str} {op : Call} (commits : op.Commits key) {log : List CallEvent} (allowed : Allowed log op) :
    key ∈ held log := by
  cases op with
  | createFile rec => exact commits.2 ▸ allowed commits.1
  | updateFile rec base => exact commits.2 ▸ allowed commits.1
  | _ => exact False.elim commits

/-- One call keeps the invariant, with what it adds to the held and owed keys. -/
theorem exec_kept (store : BlobStore S) (system : BlobSystem S) (index : Nat) (fault : Bool) (op : Call)
    (next : op.Result → Handler) (log : List CallEvent) (sound : store.Sound system.shared)
    (found : system.threads[index]? = some ⟨.call op next,log⟩) (allowed : Allowed log op)
    (guard : BlobGuard store system (.step index fault))
    (kept : Kept store.view system.shared (Holds system) (Owes system)) :
    Kept store.view (store.exec fault system.shared op).2
      (fun key => Holds system key ∨ key ∈ holdStep [] ⟨op,(store.exec fault system.shared op).1⟩)
      (fun key => Owes system key ∨ key ∈ oweStep [] ⟨op,(store.exec fault system.shared op).1⟩) := by
  have thread := List.mem_of_getElem? found
  have guard : CallGuard store system fault op := guard op (System.pending_call found)
  have step := store.steps fault system.shared op sound
  generalize (store.exec fault system.shared op).2 = after at step ⊢
  generalize (store.exec fault system.shared op).1 = result at step ⊢
  have holding : ∀ key, op.Commits key → Holds system key := fun key commits => ⟨_,thread,commits.held allowed⟩
  -- the deleted key is owed, so it is neither referenced nor held
  have spared : ∀ key, store.view.Stored system.shared key → ¬Owes system key → store.view.Stored after key := by
    intro key stored free
    refine step.stays key stored fun deleted => free ?_
    replace deleted : op = .deleteBlob key := deleted
    subst deleted
    exact ⟨_,thread,allowed⟩
  have referencedStays : ∀ key, store.view.Referenced system.shared key → store.view.Stored after key := fun key referenced =>
    spared key (kept.referenced key referenced) fun owing => (kept.owed key owing).1 referenced
  have heldStays : ∀ key, Holds system key → store.view.Stored after key := fun key holds =>
    spared key (kept.held key holds) fun owing => (kept.owed key owing).2 holds
  have read : ∀ key, (∃ accountID fileID version v, (⟨op,result⟩ : CallEvent) = ⟨.getVersion accountID fileID version,.ok v⟩ ∧
      v.deleted = false ∧ v.blobKey = key) → store.view.Referenced system.shared key := by
    rintro key ⟨accountID,fileID,version,v,event,live,names⟩
    exact ⟨_,.inr ⟨v,step.read _ _ _ v event,live,names⟩⟩
  constructor
  case referenced =>
    rintro key ⟨file,named⟩
    rcases step.names file key named with before | commits
    · exact referencedStays key ⟨file,before⟩
    · exact heldStays key (holding key commits)
  case held =>
    rintro key (before | new)
    · exact heldStays key before
    rcases holdStep_cases new with ⟨content,event⟩ | version
    · exact (step.put key content event).2
    · exact referencedStays key (read key version)
  case owed =>
    rintro key (before | new)
    · obtain ⟨unreferenced,unheld⟩ := kept.owed key before
      refine ⟨?_,?_⟩
      · rintro ⟨file,named⟩
        rcases step.names file key named with old | commits
        · exact unreferenced ⟨file,old⟩
        · exact unheld (holding key commits)
      · rintro (holds | taken)
        · exact unheld holds
        rcases holdStep_cases taken with ⟨content,event⟩ | version
        · have faultless := (step.put key content event).1
          cases event
          exact guard faultless before
        · exact unreferenced (read key version)
    · obtain ⟨accountID,fileID,keep,keys,event,member⟩ := oweStep_cases new
      obtain ⟨⟨v,old,names⟩,unnamed,own⟩ := step.freed accountID fileID keep keys event key member
      cases event
      subst names
      obtain ⟨elsewhere,unheld⟩ := guard v old unnamed
      refine ⟨?_,?_⟩
      · rintro ⟨file,named⟩
        by_cases same : file = store.view.file accountID fileID
        · exact own (same ▸ named)
        rcases step.names file v.blobKey named with before | commits
        · exact elsewhere file same before
        · exact commits
      · rintro (holds | taken)
        · exact unheld holds
        · contradiction

theorem opened_kept (store : BlobStore S) (accounts : store.Accounts) :
    Kept store.view (store.opened accounts) (Holds (System.initial (store.opened accounts)))
      (Owes (System.initial (store.opened accounts))) := by
  constructor
  · intro key referenced
    exact absurd referenced (store.nothing accounts key)
  · rintro key ⟨t,member,-⟩
    contradiction
  · rintro key ⟨t,member,-⟩
    contradiction

/-- In every run whose prunings reach no entry whose key is used elsewhere and whose
blob writes meet no pending deletion, every referenced blob is stored. -/
theorem no_dangling_blobs (store : BlobStore S) (prim : Primitives) (cfg : Config) (accounts : store.Accounts)
    (moves : List (Move Request Bool))
    (guarded : Guarded (System.move (handle prim cfg) store.exec) (BlobGuard store) (System.initial (store.opened accounts)) moves) :
    store.view.NoDangling (store.run prim cfg accounts moves).shared := by
  have kept := System.calls_invariant (handle prim cfg) store.exec Allowed (BlobGuard store)
    (fun system => store.Sound system.shared ∧ Kept store.view system.shared (Holds system) (Owes system)) (handle_keeps prim cfg)
    (fun system request before => ⟨before.1,before.2.mono
      (onAccount_spawn held rfl prim cfg system request) (onAccount_spawn owed rfl prim cfg system request)⟩)
    (fun system index fault op next log before _ guard found allowed =>
      ⟨store.keeps fault system.shared op before.1,
        (exec_kept store system index fault op next log before.1 found allowed guard before.2).mono
          (onAccount_advance held holdStep held_append holdStep_mem store.exec system index fault op next log found)
          (onAccount_advance owed oweStep owed_append oweStep_mem store.exec system index fault op next log found)⟩)
    (System.initial (store.opened accounts)) moves ⟨store.opens accounts,opened_kept store accounts⟩
    (System.initial_disciplined Allowed (store.opened accounts)) guarded
  exact kept.2.referenced

section
open KnownAnswers (sample)

private def retention : Config := ⟨1000000,1000000,1⟩

private def alice : Context := ⟨lit "alice",lit "laptop",[],1⟩
private def mallory : Context := ⟨lit "mallory",lit "phone",[],1⟩

private def helloHash : Str := lit "2cf24dba5fb0a30e26e83b2ac5b9e29e1b161e5c1fa7425e73043362938b9824"
private def worldHash : Str := lit "486ea46224d1bb4fb680f34f7c9ad96a8f24ec88be73ea8e5a6c65260e9cb8a7"
private def otherHash : Str := lit "0000000000000000000000000000000000000000000000000000000000000000"

private def live : FileJSON :=
  ⟨lit "11111111-1111-4111-8111-111111111111",lit "bWV0YQ",lit "aGVsbG8",helloHash,0,0,.empty,false,5,0,[],0,[]⟩

private def gone (contentHash : Str) (baseVersion : Int) : FileJSON :=
  ⟨lit "22222222-2222-4222-8222-222222222222",lit "bWV0YQ",[],contentHash,0,baseVersion,.empty,true,0,0,[],0,[]⟩

private def steps (index count : Nat) : List (Move Request Bool) := List.replicate count (.step index false)

/-- A file is created and replaced while another account creates a tombstone; the
replaced version is pruned with its blob. -/
private def ownHash : List (Move Request Bool) :=
  [.spawn (.post alice live)] ++ steps 0 3 ++
  [.spawn (.put alice live.fileID {live with
    encryptedContent := lit "d29ybGQ",contentHash := worldHash,baseVersion := 1})] ++ steps 1 2 ++
  [.spawn (.post mallory (gone otherHash 0))] ++ steps 2 2 ++ steps 1 3

/-- A database that returns the deleted rows in their order, with two accounts. -/
private def plainly : Postgres.PgLibrary := ⟨some,id,id⟩

private theorem plainly_returned (keys : List Str) : (plainly.returning keys).Perm keys := .refl keys

private def member (id : Str) : Postgres.AccountRow := ⟨id,id,none,none,0,none⟩

private def members : Postgres.AuthDb :=
  {Postgres.AuthDb.empty with accounts := (Table.empty.upsert (lit "alice") (member (lit "alice"))).upsert (lit "mallory") (member (lit "mallory"))}

/-- No request of the runs below has an idempotency key. -/
private def unsaved : ResponseJSON := ⟨fun _ => [],fun _ => none⟩

private def database : BlobStore PostgresState := postgresBlobs plainly_returned unsaved

theorem own_hash_kept :
    (Guarded (System.move (handle sample retention) memBlobs.exec) (BlobGuard memBlobs)
        (System.initial (memBlobs.opened ())) ownHash ∧
      memBlobs.view.NoDangling (memBlobs.run sample retention () ownHash).shared) ∧
    Guarded (System.move (handle sample retention) database.exec) (BlobGuard database)
        (System.initial (database.opened members)) ownHash ∧
      database.view.NoDangling (database.run sample retention members ownHash).shared :=
  ⟨⟨by decide +kernel,no_dangling_blobs memBlobs sample retention () ownHash (by decide +kernel)⟩,
    by decide +kernel,no_dangling_blobs database sample retention members ownHash (by decide +kernel)⟩

/-- One account stores a file; another creates a tombstone that names the same
hash, then replaces it. Pruning the tombstone deletes the first account's blob. -/
private def sharedHash : List (Move Request Bool) :=
  [.spawn (.post alice live)] ++ steps 0 3 ++
  [.spawn (.post mallory (gone helloHash 0))] ++ steps 1 2 ++
  [.spawn (.put mallory (gone helloHash 0).fileID (gone otherHash 1))] ++ steps 2 4

private theorem dangling {S : Type} {view : FileView S} {s : S} {file : view.File} {key : Str}
    (missing : (view.blobs s).get key = none) (referenced : view.ReferencedBy s file key) : ¬view.NoDangling s := by
  intro safe
  have stored := safe key ⟨file,referenced⟩
  rw [FileView.Stored,missing] at stored
  contradiction

theorem shared_hash_dangles :
    ¬memBlobs.view.NoDangling (memBlobs.run sample retention () sharedHash).shared ∧
      ¬database.view.NoDangling (database.run sample retention members sharedHash).shared := by
  have map : memBlobs.view.ReferencedBy (memBlobs.run sample retention () sharedHash).shared
      (memBlobs.view.file alice.accountID live.fileID) helloHash := by decide +kernel
  have table : database.view.ReferencedBy (database.run sample retention members sharedHash).shared
      (database.view.file alice.accountID live.fileID) helloHash := by decide +kernel
  exact ⟨dangling (by decide +kernel) map,dangling (by decide +kernel) table⟩

end

end NPSync.Server
