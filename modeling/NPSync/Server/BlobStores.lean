import NPSync.Server.PostgresFiles
import NPSync.Server.VersionChain

/-! The two stores with the blobs beside them, as references see them: what one call
leaves of the keys that heads and retained versions name, and of the blobs. -/
namespace NPSync.Server
open Library

/-- The heads, the histories with the newest entry first, and the blobs. -/
structure FileView (S : Type) where
  File : Type
  decides : DecidableEq File
  file : Str → Str → File
  head : S → File → Option FileRecord
  newest : S → File → List VersionRecord
  blobs : S → Table Str Bytes
  tracked : S → List File
  covers : ∀ s file, file ∉ tracked s → head s file = none ∧ newest s file = []

namespace FileView
variable {S : Type} (view : FileView S)

/-- The key is the blob of a live head or of a retained live version. -/
def ReferencedBy (s : S) (file : view.File) (key : Str) : Prop :=
  (∃ f ∈ view.head s file, f.deleted = false ∧ f.blobKey = key) ∨
    ∃ v ∈ view.newest s file, v.deleted = false ∧ v.blobKey = key

def Referenced (s : S) (key : Str) : Prop := ∃ file, view.ReferencedBy s file key

def Stored (s : S) (key : Str) : Prop := ((view.blobs s).get key).isSome = true

def NoDangling (s : S) : Prop := ∀ key, view.Referenced s key → view.Stored s key

/-- Neither the head nor one of the newest `keep` entries names the key. -/
def Unnamed (s : S) (file : view.File) (keep : Nat) (key : Str) : Prop :=
  (∀ f ∈ view.head s file, f.blobKey ≠ key) ∧ ∀ v ∈ (view.newest s file).take keep, v.blobKey ≠ key

instance (s : S) (file : view.File) (key : Str) : Decidable (view.ReferencedBy s file key) :=
  inferInstanceAs (Decidable (_ ∨ _))

instance (s : S) (file : view.File) (keep : Nat) (key : Str) : Decidable (view.Unnamed s file keep key) :=
  inferInstanceAs (Decidable (_ ∧ _))

/-- Finitely many files decide. -/
instance (s : S) (file : view.File) (key : Str) : Decidable (∀ other, other ≠ file → ¬view.ReferencedBy s other key) :=
  have := view.decides
  decidable_of_iff (∀ other ∈ view.tracked s, other ≠ file → ¬view.ReferencedBy s other key) <| by
    refine ⟨fun each other different referenced => ?_,fun each other _ => each other⟩
    by_cases known : other ∈ view.tracked s
    · exact each other known different referenced
    · obtain ⟨missing,nothing⟩ := view.covers s other known
      simp [ReferencedBy,missing,nothing] at referenced

end FileView

/-- The call writes a live record under the key. -/
def Call.Commits (key : Str) : Call → Prop
  | .createFile rec => rec.deleted = false ∧ rec.blobKey = key
  | .updateFile rec _ => rec.deleted = false ∧ rec.blobKey = key
  | _ => False

/-- What a call with its answer leaves. A pruning frees keys of the entries that are too old
to keep, those that the file itself no longer names. -/
structure FileStep {S : Type} (view : FileView S) (fault : Bool) (s : S) (e : CallEvent) (after : S) : Prop where
  names : ∀ file key, view.ReferencedBy after file key → view.ReferencedBy s file key ∨ e.op.Commits key
  read : ∀ accountID fileID version v, e = ⟨.getVersion accountID fileID version,.ok v⟩ →
    v ∈ view.newest s (view.file accountID fileID)
  freed : ∀ accountID fileID keep keys, e = ⟨.pruneVersions accountID fileID keep,keys⟩ → ∀ key ∈ keys,
    (∃ v ∈ (view.newest s (view.file accountID fileID)).drop keep, v.blobKey = key) ∧
      view.Unnamed s (view.file accountID fileID) keep key ∧ ¬view.ReferencedBy after (view.file accountID fileID) key
  stays : ∀ key, view.Stored s key → e.op ≠ .deleteBlob key → view.Stored after key
  put : ∀ key content, e = ⟨.putBlob key content,true⟩ → fault = false ∧ view.Stored after key

structure BlobStore (S : Type) where
  view : FileView S
  exec : Bool → S → (call : Call) → call.Result × S
  Accounts : Type
  opened : Accounts → S
  Sound : S → Prop
  nothing : ∀ accounts key, ¬view.Referenced (opened accounts) key
  opens : ∀ accounts, Sound (opened accounts)
  keeps : ∀ fault s call, Sound s → Sound (exec fault s call).2
  steps : ∀ fault s call, Sound s → FileStep view fault s ⟨call,(exec fault s call).1⟩ (exec fault s call).2

/-- A call that reads no version, prunes nothing and leaves the blobs alone. -/
def Call.silent : Call → Bool
  | .getVersion .. | .pruneVersions .. | .putBlob .. | .deleteBlob _ => false
  | _ => true

section
variable {S : Type} {view : FileView S} {fault : Bool} {s after : S}

/-- Heads and histories stay as they are. -/
structure SameNames (view : FileView S) (s after : S) : Prop where
  head : view.head after = view.head s
  newest : view.newest after = view.newest s

theorem SameNames.referenced (same : SameNames view s after) {file : view.File} {key : Str}
    (named : view.ReferencedBy after file key) : view.ReferencedBy s file key := by
  unfold FileView.ReferencedBy at named ⊢
  rw [same.head,same.newest] at named
  exact named

theorem FileStep.silent (e : CallEvent) (quiet : e.op.silent = true) (blobs : view.blobs after = view.blobs s)
    (names : ∀ file key, view.ReferencedBy after file key → view.ReferencedBy s file key ∨ e.op.Commits key) :
    FileStep view fault s e after := by
  refine ⟨names,?_,?_,?_,?_⟩
  · rintro accountID fileID version v rfl
    contradiction
  · rintro accountID fileID keep keys rfl
    contradiction
  · intro key stored _
    rw [FileView.Stored,blobs]
    exact stored
  · rintro key content rfl
    contradiction

theorem FileStep.versionRead (accountID fileID : Str) (version : Int) (answer : Except StoreError VersionRecord)
    (found : ∀ v, answer = .ok v → v ∈ view.newest s (view.file accountID fileID)) :
    FileStep view fault s ⟨.getVersion accountID fileID version,answer⟩ s := by
  refine ⟨fun _ _ named => .inl named,?_,?_,fun _ stored _ => stored,?_⟩
  · intro account id number v same
    injection same with op result
    injection op with sameAccount sameFile sameVersion
    subst sameAccount sameFile sameVersion
    exact found v result
  · intro account id keep keys same
    injection same with op
    contradiction
  · intro key content same
    injection same with op
    contradiction

/-- A blob is stored, was there already or, with a fault, is not stored. -/
theorem FileStep.blobPut (same : SameNames view s after) (key : Str) (content : Bytes) (stored : Bool)
    (outcome : (stored = false ∧ view.blobs after = view.blobs s) ∨
      (fault = false ∧ view.Stored s key ∧ view.blobs after = view.blobs s) ∨
      (fault = false ∧ view.blobs after = (view.blobs s).upsert key content)) :
    FileStep view fault s ⟨.putBlob key content,stored⟩ after := by
  have kept : ∀ k, view.Stored s k → view.Stored after k := by
    intro k before
    unfold FileView.Stored at before ⊢
    rcases outcome with ⟨-,blobs⟩ | ⟨-,-,blobs⟩ | ⟨-,blobs⟩
    · rwa [blobs]
    · rwa [blobs]
    · rw [blobs,Table.get_upsert]
      split
      · rfl
      · exact before
  refine ⟨fun _ _ named => .inl (same.referenced named),?_,?_,fun k before _ => kept k before,?_⟩
  · intro account id version v equal
    injection equal with op
    contradiction
  · intro account id keep keys equal
    injection equal with op
    contradiction
  · intro k bytes equal
    injection equal with op result
    injection op with sameKey
    subst sameKey
    rcases outcome with ⟨failed,-⟩ | ⟨sound,there,-⟩ | ⟨sound,blobs⟩
    · rw [failed] at result
      contradiction
    · exact ⟨sound,kept key there⟩
    · refine ⟨sound,?_⟩
      rw [FileView.Stored,blobs,Table.get_upsert_same]
      rfl

theorem FileStep.blobDeleted (same : SameNames view s after) (key : Str)
    (outcome : view.blobs after = view.blobs s ∨ view.blobs after = (view.blobs s).remove key) :
    FileStep view fault s ⟨.deleteBlob key,()⟩ after := by
  refine ⟨fun _ _ named => .inl (same.referenced named),?_,?_,?_,?_⟩
  · intro account id version v equal
    injection equal with op
    contradiction
  · intro account id keep keys equal
    injection equal with op
    contradiction
  · intro k stored other
    have different : k ≠ key := by
      rintro rfl
      exact other rfl
    unfold FileView.Stored at stored ⊢
    rcases outcome with blobs | blobs
    · rwa [blobs]
    · rwa [blobs,Table.get_remove_other _ _ _ different]
  · intro k bytes equal
    injection equal with op
    contradiction

end

/-! ### The maps -/

def memView : FileView State where
  File := Str
  decides := inferInstance
  file := Mem.fileKey
  head s file := s.mem.files.get file
  newest s file := (s.mem.history file).reverse
  blobs s := s.blobs
  tracked s := s.mem.files.keys ++ s.mem.versions.keys
  covers s file unknown := by
    obtain ⟨missing,nothing⟩ := not_or.mp (mt List.mem_append.mpr unknown)
    refine ⟨(Table.get_none_iff _ _).mpr missing,?_⟩
    rw [Mem.history,(Table.get_none_iff _ _).mpr nothing]
    rfl

theorem commit_names (s : State) (written file key : Str) (cp : FileRecord)
    (after : memView.ReferencedBy {s with mem := s.mem.commit written cp} file key) :
    memView.ReferencedBy s file key ∨ (cp.deleted = false ∧ cp.blobKey = key) := by
  rcases after with ⟨f,found,live,names⟩ | ⟨v,member,live,names⟩
  · replace found : (s.mem.commit written cp).files.get file = some f := found
    rw [Mem.commit_files] at found
    split at found
    · cases found
      exact .inr ⟨live,names⟩
    · exact .inl (.inl ⟨f,found,live,names⟩)
  · replace member : v ∈ (s.mem.commit written cp).history file := List.mem_reverse.mp member
    rw [Mem.commit_history] at member
    split at member
    · next here =>
      rcases List.mem_append.mp member with old | new
      · exact .inl (.inr ⟨v,List.mem_reverse.mpr (here ▸ old),live,names⟩)
      · rw [List.mem_singleton.mp new] at live names
        exact .inr ⟨live,names⟩
    · exact .inl (.inr ⟨v,List.mem_reverse.mpr member,live,names⟩)

theorem keepLast_names (s : State) (pruned file key : Str) (keep : Nat)
    (after : memView.ReferencedBy {s with mem := s.mem.keepLast pruned keep} file key) : memView.ReferencedBy s file key := by
  rcases after with head | ⟨v,member,live,names⟩
  · exact .inl head
  · replace member : v ∈ (s.mem.keepLast pruned keep).history file := List.mem_reverse.mp member
    rw [Mem.keepLast_history] at member
    split at member
    · next here => exact .inr ⟨v,List.mem_reverse.mpr (here ▸ List.mem_of_mem_drop member),live,names⟩
    · exact .inr ⟨v,List.mem_reverse.mpr member,live,names⟩

theorem pruneVersions_step (fault : Bool) (s : State) (accountID fileID : Str) (keep : Nat) :
    FileStep memView fault s ⟨.pruneVersions accountID fileID keep,(s.mem.pruneVersions accountID fileID keep).1⟩
      {s with mem := (s.mem.pruneVersions accountID fileID keep).2} where
  names file key after := by
    rcases s.mem.pruneVersions_cases accountID fileID keep with same | ⟨-,same⟩
    · rw [same] at after
      exact .inl after
    · rw [same] at after
      exact .inl (keepLast_names s _ file key keep after)
  read _ _ _ _ same := nomatch congrArg Event.op same
  freed account id bound keys same key freed := by
    cases same
    by_cases short : (s.mem.history (Mem.fileKey accountID fileID)).length ≤ keep
    · simp [Mem.pruneVersions,short] at freed
    have pruned : (s.mem.pruneVersions accountID fileID keep).2 = s.mem.keepLast (Mem.fileKey accountID fileID) keep := by
      simp [Mem.pruneVersions,short,Mem.keepLast]
    simp only [Mem.pruneVersions,short,if_false] at freed
    obtain ⟨⟨v,old,names⟩,notHead,notKept⟩ := mem_prunedKeys.mp freed
    have head : ∀ f ∈ s.mem.files.get (Mem.fileKey accountID fileID), f.blobKey ≠ key := by
      intro f found
      rw [Option.mem_def.mp found] at notHead
      exact notHead
    refine ⟨⟨v,?_,names⟩,⟨head,fun w kept => notKept w ?_⟩,?_⟩
    · show v ∈ (s.mem.history (Mem.fileKey accountID fileID)).reverse.drop keep
      rw [List.drop_reverse,List.mem_reverse]
      exact old
    · replace kept : w ∈ (s.mem.history (Mem.fileKey accountID fileID)).reverse.take keep := kept
      rw [List.take_reverse,List.mem_reverse] at kept
      exact kept
    · rw [pruned]
      rintro (⟨f,found,-,names⟩ | ⟨w,member,-,names⟩)
      · exact head f found names
      · replace member : w ∈ (s.mem.keepLast (Mem.fileKey accountID fileID) keep).history (Mem.fileKey accountID fileID) :=
          List.mem_reverse.mp member
        rw [Mem.keepLast_history,if_pos rfl] at member
        exact notKept w member names
  stays key stored _ := stored
  put _ _ same := nomatch congrArg Event.op same

theorem exec_step (fault : Bool) (s : State) (call : Call) :
    FileStep memView fault s ⟨call,(exec fault s call).1⟩ (exec fault s call).2 := by
  have quiet : ∀ (e : CallEvent), e.op.silent = true → FileStep memView fault s e s :=
    fun e silent => .silent e silent rfl (fun _ _ named => .inl named)
  have unnamed : ∀ after : State, after.mem = s.mem → SameNames memView s after := by
    intro after mem
    constructor
    · show (fun file => after.mem.files.get file) = _
      rw [mem]
      rfl
    · show (fun file => (after.mem.history file).reverse) = _
      rw [mem]
      rfl
  cases call with
  | createFile rec =>
    simp only [exec]
    rcases s.mem.createFile_cases rec with same | ⟨-,same⟩
    · simp only [same]
      exact quiet _ rfl
    · simp only [same]
      exact .silent _ rfl rfl (fun file key named => (commit_names s _ file key _ named).imp_right fun live => live)
  | updateFile rec base =>
    simp only [exec]
    rcases s.mem.updateFile_cases rec base with ⟨err,same⟩ | ⟨cur,-,-,same⟩
    · simp only [same]
      exact quiet _ rfl
    · simp only [same]
      exact .silent _ rfl rfl (fun file key named => (commit_names s _ file key _ named).imp_right fun live => live)
  | getVersion accountID fileID version =>
    refine .versionRead accountID fileID version _ fun v answer => ?_
    replace answer : s.mem.getVersion accountID fileID version = .ok v := answer
    unfold Mem.getVersion at answer
    split at answer
    · next found => exact List.mem_reverse.mpr (Except.ok.inj answer ▸ List.mem_of_find?_eq_some found)
    · contradiction
  | pruneVersions accountID fileID keep => exact pruneVersions_step fault s accountID fileID keep
  | putBlob key content =>
    refine .blobPut (unnamed _ ?_) key content _ ?_
    · simp only [exec]
      split
      · rfl
      split <;> rfl
    · simp only [exec]
      split
      · exact .inl ⟨rfl,rfl⟩
      next sound =>
        split
        · next there => exact .inr (.inl ⟨by simpa using sound,there,rfl⟩)
        · exact .inr (.inr ⟨by simpa using sound,rfl⟩)
  | deleteBlob key =>
    refine .blobDeleted (unnamed _ ?_) key ?_
    · simp only [exec]
      split <;> rfl
    · simp only [exec]
      split
      · exact .inl rfl
      · exact .inr rfl
  | getBlob key =>
    simp only [exec]
    split
    · exact quiet _ rfl
    split
    · exact quiet _ rfl
    · exact quiet _ rfl
  | saveIdempotentResponse accountID key response => exact .silent _ rfl rfl (fun _ _ named => .inl named)
  | publish accountID origin rec => exact .silent _ rfl rfl (fun _ _ named => .inl named)
  | getFile accountID fileID => exact quiet _ rfl
  | listChangesSince accountID since limit => exact quiet _ rfl
  | getIdempotentResponse accountID key => exact quiet _ rfl

def memBlobs : BlobStore State where
  view := memView
  exec := exec
  Accounts := Unit
  opened _ := .empty
  Sound _ := True
  nothing _ key := by
    rintro ⟨file,⟨f,found,-⟩ | ⟨v,member,-⟩⟩
    · contradiction
    · contradiction
  opens _ := trivial
  keeps _ _ _ _ := trivial
  steps fault s call _ := exec_step fault s call

/-! ### The tables -/

/-- How a response is printed for the database and read back. -/
structure ResponseJSON where
  marshal : FileJSON → Bytes
  unmarshal : Bytes → Option FileJSON

structure PostgresState where
  db : Postgres.Store
  blobs : Table Str Bytes
  events : List WsEvent

namespace Postgres
variable (lib : PgLibrary) (json : ResponseJSON)

/-- The handlers tell the sentinel errors apart; any other takes the branch that is left. -/
def sentinel : AuthError → StoreError
  | .conflict => .conflict
  | .duplicate => .duplicate
  | _ => .notFound

def answer {X : Type} : Except AuthError X → Except StoreError X
  | .ok value => .ok value
  | .error err => .error (sentinel err)

/-- One call, over the database. -/
def exec (fault : Bool) (s : PostgresState) : (call : Call) → call.Result × PostgresState
  | .getFile accountID fileID => (answer (s.db.getFile accountID fileID),s)
  | .createFile rec => (answer (s.db.createFile rec).1,{s with db := (s.db.createFile rec).2})
  | .updateFile rec base => (answer (s.db.updateFile rec base).1,{s with db := (s.db.updateFile rec base).2})
  | .getVersion accountID fileID version => (answer (s.db.getVersion accountID fileID version),s)
  | .pruneVersions accountID fileID keep =>
    (((s.db.pruneVersions lib accountID fileID keep).1.toOption).getD [],
      {s with db := (s.db.pruneVersions lib accountID fileID keep).2})
  | .listChangesSince accountID since limit => (((s.db.feed accountID since limit).toOption).getD [],s)
  | .getIdempotentResponse accountID key => ((s.db.getIdempotentResponse accountID key).bind json.unmarshal,s)
  | .saveIdempotentResponse accountID key response =>
    ((),{s with db := (s.db.saveIdempotentResponse lib accountID key (json.marshal response)).2})
  | .putBlob key content =>
    if fault then (false,s)
    else if (s.blobs.get key).isSome then (true,s)
    else (true,{s with blobs := s.blobs.upsert key content})
  | .getBlob key =>
    if fault then (.failed,s)
    else match s.blobs.get key with
      | some content => (.found content,s)
      | none => (.missing,s)
  | .deleteBlob key => ((),if fault then s else {s with blobs := s.blobs.remove key})
  | .publish accountID origin rec =>
    ((),{s with events := s.events ++
      [⟨accountID,rec.deleted,rec.fileID,rec.version,rec.changeSeq,origin⟩]})

end Postgres

def postgresView : FileView PostgresState where
  File := Str × Str
  decides := inferInstance
  file accountID fileID := (accountID,fileID)
  head s file := s.db.files.get file
  newest s file := s.db.newestFirst file.1 file.2
  blobs s := s.blobs
  tracked s := s.db.files.keys ++ s.db.versions.map fun v => (v.accountID,v.fileID)
  covers s file unknown := by
    obtain ⟨missing,nothing⟩ := not_or.mp (mt List.mem_append.mpr unknown)
    refine ⟨(Table.get_none_iff _ _).mpr missing,?_⟩
    rw [List.eq_nil_iff_forall_not_mem]
    intro v member
    have row := (List.mem_insertionSort _).mp member
    obtain ⟨inside,own⟩ := List.mem_filter.mp row
    obtain ⟨account,id⟩ := of_decide_eq_true own
    exact nothing (List.mem_map.mpr ⟨v,inside,Prod.ext account id⟩)

/-- The primary key of `file_versions`. -/
def RowsApart (p : Postgres.Store) : Prop := (p.versions.map fun v => (v.accountID,v.fileID,v.version)).Nodup

theorem mem_newestFirst {p : Postgres.Store} {accountID fileID : Str} {v : VersionRecord} :
    v ∈ p.newestFirst accountID fileID ↔ v ∈ p.versionRows accountID fileID := List.mem_insertionSort _

theorem RowsApart.newest {p : Postgres.Store} (apart : RowsApart p) (accountID fileID : Str) :
    ((p.newestFirst accountID fileID).map (·.version)).Nodup := by
  have sorted : ((p.newestFirst accountID fileID).map (·.version)).Perm ((p.versionRows accountID fileID).map (·.version)) :=
    (List.perm_insertionSort _ _).map _
  refine sorted.nodup_iff.mpr (List.Nodup.of_map (fun version => (accountID,fileID,version)) ?_)
  refine List.Nodup.sublist ?_ apart
  rw [List.map_map]
  have rows : (p.versionRows accountID fileID).map ((fun version => (accountID,fileID,version)) ∘ fun v => v.version) =
      (p.versionRows accountID fileID).map fun v => (v.accountID,v.fileID,v.version) := by
    apply List.map_congr_left
    intro v member
    obtain ⟨account,id⟩ := of_decide_eq_true (List.mem_filter.mp member).2
    simp only [Function.comp,account,id]
  rw [rows]
  exact List.filter_sublist.map _

/-- Files and versions stay, or one row is written under a free key. -/
inductive RowStep (p : Postgres.Store) (rec : FileRecord) (after : Postgres.Store) : Prop
  | none (files : after.files = p.files) (versions : after.versions = p.versions)
  | one (head : FileRecord) (live : head.deleted = rec.deleted) (names : head.blobKey = rec.blobKey)
      (account : head.accountID = rec.accountID) (id : head.fileID = rec.fileID)
      (free : ∀ v ∈ p.versionRows rec.accountID rec.fileID, v.version ≠ head.version)
      (files : after.files = p.files.upsert (rec.accountID,rec.fileID) head)
      (versions : after.versions = p.versions ++ [Mem.versionFromRecord head])

theorem write_row (p : Postgres.Store) (rec : FileRecord) (version : Nat) : RowStep p rec (p.write rec version).2 := by
  unfold Postgres.Store.write
  dsimp only
  split
  · exact .none rfl rfl
  · next free =>
    refine .one {rec with version := version,changeSeq := p.nextval} rfl rfl rfl rfl (fun v member same => free ?_) rfl rfl
    rw [List.any_eq_true]
    exact ⟨v,member,decide_eq_true same⟩

theorem createFile_row (p : Postgres.Store) (rec : FileRecord) : RowStep p rec (p.createFile rec).2 := by
  unfold Postgres.Store.createFile
  split
  · exact .none rfl rfl
  split
  · exact write_row p rec 1
  · exact .none rfl rfl

theorem updateFile_row (p : Postgres.Store) (rec : FileRecord) (base : Int) : RowStep p rec (p.updateFile rec base).2 := by
  unfold Postgres.Store.updateFile
  split
  · exact .none rfl rfl
  split
  · exact write_row p rec _
  · exact .none rfl rfl

namespace RowStep
variable {p after : Postgres.Store} {rec : FileRecord} (step : RowStep p rec after)
include step

theorem apart (apart : RowsApart p) : RowsApart after := by
  cases step with
  | none files versions =>
    rw [RowsApart,versions]
    exact apart
  | one head live names account id free files versions =>
    rw [RowsApart,versions,List.map_append]
    refine List.Nodup.append apart (List.nodup_singleton _) (List.disjoint_singleton.mpr fun member => ?_)
    obtain ⟨v,inside,same⟩ := List.mem_map.mp member
    obtain ⟨account',rest⟩ := Prod.mk.inj same
    obtain ⟨id',version⟩ := Prod.mk.inj rest
    exact free v (List.mem_filter.mpr ⟨inside,decide_eq_true ⟨account'.trans account,id'.trans id⟩⟩) version

theorem names {blobs blobs' : Table Str Bytes} {events events' : List WsEvent} (file : Str × Str) (key : Str)
    (named : postgresView.ReferencedBy ⟨after,blobs',events'⟩ file key) :
    postgresView.ReferencedBy ⟨p,blobs,events⟩ file key ∨ (rec.deleted = false ∧ rec.blobKey = key) := by
  rcases named with ⟨f,found,live,names⟩ | ⟨v,member,live,names⟩
  · replace found : after.files.get file = some f := found
    cases step with
    | none files versions =>
      rw [files] at found
      exact .inl (.inl ⟨f,found,live,names⟩)
    | one head sameLive sameNames account id free files versions =>
      rw [files,Table.get_upsert] at found
      split at found
      · cases found
        exact .inr ⟨sameLive ▸ live,sameNames ▸ names⟩
      · exact .inl (.inl ⟨f,found,live,names⟩)
  · obtain ⟨inside,own⟩ := List.mem_filter.mp (mem_newestFirst.mp member)
    have old : v ∈ p.versions → postgresView.ReferencedBy ⟨p,blobs,events⟩ file key := fun before =>
      .inr ⟨v,mem_newestFirst.mpr (List.mem_filter.mpr ⟨before,own⟩),live,names⟩
    cases step with
    | none files versions => exact .inl (old (versions ▸ inside))
    | one head sameLive sameNames account id free files versions =>
      rw [versions] at inside
      rcases List.mem_append.mp inside with before | new
      · exact .inl (old before)
      · rw [List.mem_singleton.mp new] at live names
        exact .inr ⟨sameLive ▸ live,sameNames ▸ names⟩

end RowStep

/-- What a pruning leaves of the rows, and the keys it returns. -/
structure PrunedRows (p : Postgres.Store) (accountID fileID : Str) (keep : Nat) (keys : List Str) (after : Postgres.Store) : Prop where
  files : after.files = p.files
  versions : after.versions = p.versions.filter fun v => !decide (v.accountID = accountID ∧ v.fileID = fileID ∧
    v.version ∈ ((p.newestFirst accountID fileID).drop keep).map fun old => old.version)
  keys : ∀ key ∈ keys, (∃ v ∈ (p.newestFirst accountID fileID).drop keep, v.blobKey = key) ∧
    after.unreferenced accountID fileID key = true

theorem pruneVersions_rows (lib : Postgres.PgLibrary) (returned : ∀ keys, (lib.returning keys).Perm keys) (p : Postgres.Store)
    (accountID fileID : Str) (keep : Nat) :
    PrunedRows p accountID fileID keep (((p.pruneVersions lib accountID fileID keep).1.toOption).getD [])
      (p.pruneVersions lib accountID fileID keep).2 := by
  have natural : ¬((keep : Int) < 0) := by omega
  unfold Postgres.Store.pruneVersions
  rw [if_neg natural]
  refine ⟨rfl,rfl,fun key freed => ?_⟩
  obtain ⟨candidate,unreferenced⟩ := List.mem_filter.mp freed
  exact ⟨List.mem_map.mp ((returned _).mem_iff.mp candidate),unreferenced⟩

namespace PrunedRows
variable {p after : Postgres.Store} {accountID fileID : Str} {keep : Nat} {keys : List Str}
  (pruned : PrunedRows p accountID fileID keep keys after)
include pruned

theorem apart (apart : RowsApart p) : RowsApart after := by
  rw [RowsApart,pruned.versions]
  exact apart.sublist (List.filter_sublist.map _)

theorem mem_newest {account file : Str} {v : VersionRecord} (member : v ∈ after.newestFirst account file) :
    v ∈ p.newestFirst account file := by
  obtain ⟨inside,own⟩ := List.mem_filter.mp (mem_newestFirst.mp member)
  rw [pruned.versions] at inside
  exact mem_newestFirst.mpr (List.mem_filter.mpr ⟨(List.mem_filter.mp inside).1,own⟩)

/-- The newest entries stay: their numbers differ from those of the rows deleted. -/
theorem kept (apart : RowsApart p) {v : VersionRecord} (newest : v ∈ (p.newestFirst accountID fileID).take keep) :
    v ∈ after.versionRows accountID fileID := by
  have distinct := apart.newest accountID fileID
  rw [← List.take_append_drop keep (p.newestFirst accountID fileID),List.map_append] at distinct
  have spared : v.version ∉ ((p.newestFirst accountID fileID).drop keep).map fun old => old.version :=
    List.disjoint_of_nodup_append distinct (List.mem_map.mpr ⟨v,newest,rfl⟩)
  obtain ⟨inside,own⟩ := List.mem_filter.mp (mem_newestFirst.mp (List.mem_of_mem_take newest))
  refine List.mem_filter.mpr ⟨?_,own⟩
  rw [pruned.versions]
  refine List.mem_filter.mpr ⟨inside,?_⟩
  simp only [Bool.not_eq_true',decide_eq_false_iff_not]
  exact fun all => spared all.2.2

end PrunedRows

theorem unreferenced_iff (p : Postgres.Store) (accountID fileID key : Str) : p.unreferenced accountID fileID key = true ↔
    (∀ f ∈ p.files.get (accountID,fileID), f.blobKey ≠ key) ∧ ∀ v ∈ p.versionRows accountID fileID, v.blobKey ≠ key := by
  unfold Postgres.Store.unreferenced
  cases p.files.get (accountID,fileID) with
  | none => simp
  | some f => simp

theorem postgresPrune_step (lib : Postgres.PgLibrary) (returned : ∀ keys, (lib.returning keys).Perm keys) (fault : Bool)
    (s : PostgresState) (apart : RowsApart s.db) (accountID fileID : Str) (keep : Nat) :
    FileStep postgresView fault s
      ⟨.pruneVersions accountID fileID keep,((s.db.pruneVersions lib accountID fileID keep).1.toOption).getD []⟩
      {s with db := (s.db.pruneVersions lib accountID fileID keep).2} := by
  have pruned := pruneVersions_rows lib returned s.db accountID fileID keep
  generalize (s.db.pruneVersions lib accountID fileID keep).2 = after at pruned ⊢
  generalize ((s.db.pruneVersions lib accountID fileID keep).1.toOption).getD [] = freed at pruned ⊢
  refine ⟨?_,?_,?_,fun _ stored _ => stored,?_⟩
  · rintro file key (⟨f,found,live,names⟩ | ⟨v,member,live,names⟩)
    · replace found : after.files.get file = some f := found
      rw [pruned.files] at found
      exact .inl (.inl ⟨f,found,live,names⟩)
    · exact .inl (.inr ⟨v,pruned.mem_newest member,live,names⟩)
  · intro account id number v same
    injection same with op
    contradiction
  · intro account id bound keys same key member
    injection same with op result
    injection op with sameAccount sameFile sameKeep
    subst sameAccount sameFile sameKeep result
    obtain ⟨dropped,unreferenced⟩ := pruned.keys key member
    obtain ⟨head,rows⟩ := (unreferenced_iff after accountID fileID key).mp unreferenced
    refine ⟨dropped,⟨?_,fun v newest => rows v (pruned.kept apart newest)⟩,?_⟩
    · rw [pruned.files] at head
      exact head
    · rintro (⟨f,found,-,names⟩ | ⟨v,inside,-,names⟩)
      · exact head f found names
      · exact rows v (mem_newestFirst.mp inside) names
  · intro key content same
    injection same with op
    contradiction

namespace Postgres
variable {lib : PgLibrary} (returned : ∀ keys, (lib.returning keys).Perm keys) (json : ResponseJSON)
include returned

theorem exec_step (fault : Bool) (s : PostgresState) (apart : RowsApart s.db) (call : Call) :
    FileStep postgresView fault s ⟨call,(exec lib json fault s call).1⟩ (exec lib json fault s call).2 := by
  have quiet : ∀ (e : CallEvent), e.op.silent = true → FileStep postgresView fault s e s :=
    fun e silent => .silent e silent rfl (fun _ _ named => .inl named)
  have unnamed : ∀ after : PostgresState, after.db.files = s.db.files → after.db.versions = s.db.versions →
      SameNames postgresView s after := by
    intro after files versions
    constructor
    · show (fun file => after.db.files.get file) = _
      rw [files]
      rfl
    · show (fun file : Str × Str => after.db.newestFirst file.1 file.2) = _
      unfold Store.newestFirst Store.versionRows
      rw [versions]
      rfl
  cases call with
  | createFile rec => exact .silent _ rfl rfl (fun file key named => (createFile_row s.db rec).names file key named)
  | updateFile rec base => exact .silent _ rfl rfl (fun file key named => (updateFile_row s.db rec base).names file key named)
  | getVersion accountID fileID version =>
    refine .versionRead accountID fileID version _ fun v read => mem_newestFirst.mpr ?_
    replace read : answer (s.db.getVersion accountID fileID version) = .ok v := read
    unfold Store.getVersion AuthDb.selected at read
    split at read
    · next found => exact Except.ok.inj read ▸ List.mem_of_find?_eq_some found
    · contradiction
  | pruneVersions accountID fileID keep => exact postgresPrune_step lib returned fault s apart accountID fileID keep
  | putBlob key content =>
    refine .blobPut (unnamed _ ?_ ?_) key content _ ?_
    · simp only [exec]
      split
      · rfl
      split <;> rfl
    · simp only [exec]
      split
      · rfl
      split <;> rfl
    · simp only [exec]
      split
      · exact .inl ⟨rfl,rfl⟩
      next sound =>
        split
        · next there => exact .inr (.inl ⟨by simpa using sound,there,rfl⟩)
        · exact .inr (.inr ⟨by simpa using sound,rfl⟩)
  | deleteBlob key =>
    refine .blobDeleted (unnamed _ ?_ ?_) key ?_
    · simp only [exec]
      split <;> rfl
    · simp only [exec]
      split <;> rfl
    · simp only [exec]
      split
      · exact .inl rfl
      · exact .inr rfl
  | getBlob key =>
    simp only [exec]
    split
    · exact quiet _ rfl
    split
    · exact quiet _ rfl
    · exact quiet _ rfl
  | saveIdempotentResponse accountID key response =>
    have rows : ((s.db.saveIdempotentResponse lib accountID key (json.marshal response)).2.files = s.db.files) ∧
        ((s.db.saveIdempotentResponse lib accountID key (json.marshal response)).2.versions = s.db.versions) := by
      unfold Store.saveIdempotentResponse
      split
      · exact ⟨rfl,rfl⟩
      split
      · exact ⟨rfl,rfl⟩
      split <;> exact ⟨rfl,rfl⟩
    exact .silent _ rfl rfl (fun _ _ named => .inl ((unnamed _ rows.1 rows.2).referenced named))
  | publish accountID origin rec => exact .silent _ rfl rfl (fun _ _ named => .inl named)
  | getFile accountID fileID => exact quiet _ rfl
  | listChangesSince accountID since limit => exact quiet _ rfl
  | getIdempotentResponse accountID key => exact quiet _ rfl

theorem exec_apart (fault : Bool) (s : PostgresState) (apart : RowsApart s.db) (call : Call) :
    RowsApart (exec lib json fault s call).2.db := by
  cases call with
  | createFile rec => exact (createFile_row s.db rec).apart apart
  | updateFile rec base => exact (updateFile_row s.db rec base).apart apart
  | pruneVersions accountID fileID keep => exact (pruneVersions_rows lib returned s.db accountID fileID keep).apart apart
  | saveIdempotentResponse accountID key response =>
    show RowsApart (s.db.saveIdempotentResponse lib accountID key (json.marshal response)).2
    unfold Store.saveIdempotentResponse
    split
    · exact apart
    split
    · exact apart
    split <;> exact apart
  | putBlob key content =>
    simp only [exec]
    split
    · exact apart
    split <;> exact apart
  | deleteBlob key =>
    simp only [exec]
    split <;> exact apart
  | getBlob key =>
    simp only [exec]
    split
    · exact apart
    split <;> exact apart
  | getFile accountID fileID => exact apart
  | getVersion accountID fileID version => exact apart
  | listChangesSince accountID since limit => exact apart
  | getIdempotentResponse accountID key => exact apart
  | publish accountID origin rec => exact apart

end Postgres

/-- The accounts are there before the first file. -/
def postgresBlobs {lib : Postgres.PgLibrary} (returned : ∀ keys, (lib.returning keys).Perm keys) (json : ResponseJSON) :
    BlobStore PostgresState where
  view := postgresView
  exec := Postgres.exec lib json
  Accounts := Postgres.AuthDb
  opened accounts := ⟨{Postgres.Store.empty with auth := accounts},.empty,[]⟩
  Sound s := RowsApart s.db
  nothing _ key := by
    rintro ⟨file,⟨f,found,-⟩ | ⟨v,member,-⟩⟩
    · contradiction
    · contradiction
  opens _ := List.nodup_nil
  keeps fault s call apart := Postgres.exec_apart returned json fault s apart call
  steps fault s call apart := Postgres.exec_step returned json fault s apart call

end NPSync.Server
