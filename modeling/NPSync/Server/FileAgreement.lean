import NPSync.Library.Related
import NPSync.Server.AuthAgreement
import NPSync.Server.VersionChain

/-! The two stores on files, versions, the feed and idempotent responses. A write
draws two numbers in Postgres and one in the map; a renaming that fits the feed
numbers of Postgres relates all the others. -/
namespace NPSync.Server
open Library
open Postgres (Store PgLibrary)

/-- A row of `files` and the head in the map. -/
structure SameHead (numbers : Nat → Nat) (key : Str × Str) (a b : FileRecord) : Prop where
  uuid : key.1.length = 36
  file : SameFile numbers a b
  account : b.accountID = key.1
  id : b.fileID = key.2

def renumber (numbers : Nat → Nat) (c : Change) : Change := {c with changeSeq := numbers c.changeSeq}

structure FilesAgree (numbers : Nat → Nat) (m : Mem Bytes) (p : Store) : Prop where
  heads : Table.Related (fun key => Mem.fileKey key.1 key.2) (SameHead numbers) m.files p.files
  histories : ∀ accountID fileID, accountID.length = 36 → m.history (Mem.fileKey accountID fileID) = p.versionRows accountID fileID
  ascending : ∀ accountID fileID, (p.versionRows accountID fileID).Pairwise (fun a b => a.version < b.version)
  bounded : ∀ accountID fileID, ∀ v ∈ p.versionRows accountID fileID,
    ∃ cur, p.files.get (accountID,fileID) = some cur ∧ v.version ≤ cur.version
  numbered : m.changes.map (·.changeSeq) = List.range' 1 m.changes.length
  next : m.nextSeq = m.changes.length + 1
  changes : p.changes = m.changes.map (renumber numbers)
  behind : numbers m.changes.length < p.nextval
  idempotent : ∀ accountID key, accountID.length = 36 →
    m.idempotent.get (Mem.idemKey accountID key) = p.idempotent.get (accountID,key)

/-- The renaming gives the feed numbers of the store. -/
def FeedNumbers (numbers : Nat → Nat) (p : Store) : Prop := ∀ i c, p.changes[i]? = some c → numbers (i + 1) = c.changeSeq

theorem uuidKey_inj {a a' f f' : Str} (long : a.length = a'.length) (equal : Mem.fileKey a f = Mem.fileKey a' f') : a = a' ∧ f = f' := by
  unfold Mem.fileKey at equal
  have outer : (a ++ lit "/").length = (a' ++ lit "/").length := by
    rw [List.length_append,List.length_append,long]
  obtain ⟨front,rest⟩ := List.append_inj equal outer
  exact ⟨(List.append_inj front long).1,rest⟩

theorem idemKey_inj {a a' k k' : Str} (long : a.length = a'.length) (equal : Mem.idemKey a k = Mem.idemKey a' k') : a = a' ∧ k = k' :=
  uuidKey_inj long equal

theorem head_apart {numbers : Nat → Nat} {key other : Str × Str} {a b : FileRecord} (uuid : key.1.length = 36)
    (head : SameHead numbers other a b) (equal : Mem.fileKey other.1 other.2 = Mem.fileKey key.1 key.2) : other = key := by
  obtain ⟨account,file⟩ := uuidKey_inj (head.uuid.trans uuid.symm) equal
  exact Prod.ext account file

namespace SameFile
variable {numbers : Nat → Nat} {a b : FileRecord} (same : SameFile numbers a b)
include same

theorem accountID : a.accountID = b.accountID := (congrArg FileRecord.accountID same.record).trans rfl

theorem fileID : a.fileID = b.fileID := (congrArg FileRecord.fileID same.record).trans rfl

theorem version : a.version = b.version := (congrArg FileRecord.version same.record).trans rfl

theorem blobKey : a.blobKey = b.blobKey := (congrArg FileRecord.blobKey same.record).trans rfl

end SameFile

instance : Std.Total Store.Newer := ⟨fun a b => Nat.le_total b.version a.version⟩
instance : IsTrans VersionRecord Store.Newer := ⟨fun _ _ _ first second => Nat.le_trans second first⟩

theorem versions_distinct {vs : List VersionRecord} (ascending : vs.Pairwise (fun a b => a.version < b.version)) :
    (vs.map (·.version)).Nodup :=
  List.pairwise_map.mpr (ascending.imp fun less => Nat.ne_of_lt less)

theorem versionRows_snoc (p : Store) (v : VersionRecord) (accountID fileID : Str) :
    Store.versionRows {p with versions := p.versions ++ [v]} accountID fileID =
      if v.accountID = accountID ∧ v.fileID = fileID then p.versionRows accountID fileID ++ [v] else p.versionRows accountID fileID := by
  unfold Store.versionRows
  rw [List.filter_append]
  by_cases here : v.accountID = accountID ∧ v.fileID = fileID
  · simp [here]
  · rw [if_neg here]
    simp [here]

/-- The order of the versions turns the history around. -/
theorem newestFirst_reverse (p : Store) {accountID fileID : Str}
    (ascending : (p.versionRows accountID fileID).Pairwise (fun a b => a.version < b.version)) :
    p.newestFirst accountID fileID = (p.versionRows accountID fileID).reverse := by
  have sorted : (p.versionRows accountID fileID).reverse.Pairwise Store.Newer :=
    List.pairwise_reverse.mpr (ascending.imp fun less => Nat.le_of_lt less)
  have perm : (p.newestFirst accountID fileID).Perm (p.versionRows accountID fileID).reverse :=
    (List.perm_insertionSort Store.Newer _).trans (List.reverse_perm _).symm
  apply perm.eq_of_pairwise _ (List.pairwise_insertionSort Store.Newer _) sorted
  intro a b left right first second
  have equal : a.version = b.version := Nat.le_antisymm second first
  apply List.inj_on_of_nodup_map (versions_distinct ascending) _ _ equal
  · exact (List.mem_insertionSort Store.Newer).mp left
  · exact List.mem_reverse.mp right

section
variable {numbers : Nat → Nat} {m : Mem Bytes} {p : Store} (same : FilesAgree numbers m p)
include same

theorem FilesAgree.head {accountID : Str} (uuid : accountID.length = 36) (fileID : Str) :
    Option.Rel (SameHead numbers (accountID,fileID)) (m.files.get (Mem.fileKey accountID fileID)) (p.files.get (accountID,fileID)) :=
  Table.Related.get (accountID,fileID) (fun _ _ _ head equal => head_apart uuid head equal) same.heads

theorem getFile_alike {accountID : Str} (uuid : accountID.length = 36) (fileID : Str) :
    Alike (SameFile numbers) (MemStore.answer (m.getFile accountID fileID)) (p.getFile accountID fileID) := by
  have rel := same.head uuid fileID
  unfold Mem.getFile Store.getFile
  cases held : m.files.get (Mem.fileKey accountID fileID) with
  | none =>
    rw [held] at rel
    rw [rel_none rel]
    exact .error .notFound
  | some a =>
    rw [held] at rel
    obtain ⟨b,stored,head⟩ := rel_some rel
    rw [stored]
    exact .ok head.file

theorem listFiles_alike (accountID : Str) : List.Forall₂ (SameFile numbers) (m.listFiles accountID) (p.listFiles accountID) := by
  have values : List.Forall₂ (SameFile numbers) (m.files.rows.map Prod.snd) (p.files.rows.map Prod.snd) :=
    same.heads.values.imp fun a b head => head.choose_spec.file
  apply forall₂_insertionSort
  · intro a b c d first second
    unfold Mem.FileOrder
    rw [first.fileID,second.fileID]
  · refine List.rel_filter ?_ values
    intro a b one
    simp only [decide_eq_true_eq,one.accountID]

/-! ### Versions -/

theorem listVersions_alike {accountID : Str} (uuid : accountID.length = 36) (fileID : Str) {limit : Int} (bounded : 0 ≤ limit) :
    Alike Eq (.ok (m.listVersions accountID fileID limit)) (p.listVersions accountID fileID limit) := by
  unfold Mem.listVersions Store.listVersions
  rw [if_neg (by omega),same.histories accountID fileID uuid,newestFirst_reverse p (same.ascending accountID fileID)]
  exact Alike.rfl _

theorem getVersion_alike {accountID : Str} (uuid : accountID.length = 36) (fileID : Str) (version : Int) :
    Alike Eq (MemStore.answer (m.getVersion accountID fileID version)) (p.getVersion accountID fileID version) := by
  unfold Mem.getVersion Store.getVersion
  rw [same.histories accountID fileID uuid]
  cases (p.versionRows accountID fileID).find? (fun v => decide ((v.version : Int) = version)) with
  | none => exact .error .notFound
  | some v => exact .ok rfl

/-! ### Writes -/

theorem FilesAgree.length : p.changes.length = m.changes.length := by
  rw [same.changes,List.length_map]

theorem FilesAgree.commit {rec : FileRecord} {version : Nat} (uuid : rec.accountID.length = 36)
    (later : ∀ v ∈ p.versionRows rec.accountID rec.fileID, v.version < version)
    (numbered : FeedNumbers numbers (p.write rec version).2) :
    Alike (SameFile numbers) (.ok {rec with version := version,changeSeq := m.nextSeq}) (p.write rec version).1 ∧
      FilesAgree numbers (m.commit (Mem.fileKey rec.accountID rec.fileID) {rec with version := version,changeSeq := m.nextSeq})
        (p.write rec version).2 := by
  have free : (p.versionRows rec.accountID rec.fileID).any (fun v => decide (v.version = version)) = false := by
    rw [List.any_eq_false]
    intro v member
    simpa using Nat.ne_of_lt (later v member)
  unfold Store.write at numbered ⊢
  simp only [free,Bool.false_eq_true,if_false] at numbered ⊢
  have own : numbers m.nextSeq = p.nextval + 1 := by
    have last := numbered p.changes.length {Mem.changeOf {rec with version := version,changeSeq := p.nextval} with changeSeq := p.nextval + 1}
      (by simp)
    rw [same.length,← same.next] at last
    exact last
  have file : SameFile numbers {rec with version := version,changeSeq := m.nextSeq} {rec with version := version,changeSeq := p.nextval} := by
    refine ⟨rfl,?_,?_⟩
    · show numbers (m.nextSeq - 1) < p.nextval
      rw [same.next,Nat.add_sub_cancel]
      exact same.behind
    · show p.nextval ≤ numbers m.nextSeq
      omega
  refine ⟨.ok file,?_⟩
  let entry := Mem.versionFromRecord {rec with version := version,changeSeq := p.nextval}
  have rows : ∀ accountID fileID, Store.versionRows {p with versions := p.versions ++ [entry]} accountID fileID =
      if rec.accountID = accountID ∧ rec.fileID = fileID then p.versionRows accountID fileID ++ [entry]
      else p.versionRows accountID fileID := versionRows_snoc p entry
  constructor
  · exact Table.Related.upsert (rec.accountID,rec.fileID) (fun _ _ _ head equal => head_apart uuid head equal) same.heads
      ⟨uuid,file,rfl,rfl⟩
  · intro accountID fileID long
    refine Eq.trans ?_ (rows accountID fileID).symm
    rw [Mem.commit_history,same.histories accountID fileID long]
    by_cases here : rec.accountID = accountID ∧ rec.fileID = fileID
    · obtain ⟨rfl,rfl⟩ := here
      rw [if_pos rfl,if_pos ⟨rfl,rfl⟩,same.histories _ _ uuid]
      rfl
    · rw [if_neg here,if_neg]
      intro equal
      obtain ⟨account,file⟩ := uuidKey_inj (long.trans uuid.symm) equal
      exact here ⟨account.symm,file.symm⟩
  · intro accountID fileID
    refine (rows accountID fileID).symm ▸ ?_
    split
    · next here =>
      obtain ⟨rfl,rfl⟩ := here
      refine List.pairwise_append.mpr ⟨same.ascending _ _,List.pairwise_singleton _ _,?_⟩
      intro v member w new
      rw [List.mem_singleton.mp new]
      exact later v member
    · exact same.ascending accountID fileID
  · intro accountID fileID v member
    have member := (rows accountID fileID) ▸ member
    have kept : ∀ cur, p.files.get (accountID,fileID) = some cur → v.version ≤ cur.version → ¬(rec.accountID = accountID ∧ rec.fileID = fileID) →
        ∃ cur, (p.files.upsert (rec.accountID,rec.fileID) {rec with version := version,changeSeq := p.nextval}).get (accountID,fileID) =
          some cur ∧ v.version ≤ cur.version := by
      intro cur stored bound elsewhere
      refine ⟨cur,?_,bound⟩
      rw [Table.get_upsert_other]
      · exact stored
      · intro equal
        exact elsewhere ⟨(Prod.mk.inj equal).1.symm,(Prod.mk.inj equal).2.symm⟩
    split at member
    · next here =>
      obtain ⟨rfl,rfl⟩ := here
      refine ⟨_,Table.get_upsert_same _ _ _,?_⟩
      rcases List.mem_append.mp member with old | new
      · exact Nat.le_of_lt (later v old)
      · rw [List.mem_singleton.mp new]
        exact le_rfl
    · next elsewhere =>
      obtain ⟨cur,stored,bound⟩ := same.bounded accountID fileID v member
      exact kept cur stored bound elsewhere
  · show (m.changes ++ [_]).map (fun c : Change => c.changeSeq) = List.range' 1 (m.changes ++ [_]).length
    rw [List.map_append,List.length_append,same.numbered,List.length_singleton,List.range'_1_concat]
    show _ ++ [m.nextSeq] = _
    rw [same.next,Nat.add_comm]
  · show m.nextSeq + 1 = (m.changes ++ [_]).length + 1
    rw [List.length_append,List.length_singleton,same.next]
  · show p.changes ++ [_] = (m.changes ++ [_]).map (renumber numbers)
    rw [List.map_append,same.changes]
    show _ ++ [_] = _ ++ [renumber numbers _]
    unfold renumber
    simp only [Mem.changeOf,own]
  · show numbers (m.changes ++ [_]).length < p.nextval + 2
    rw [List.length_append,List.length_singleton,← same.next,own]
    exact Nat.lt_succ_self _
  · exact same.idempotent

theorem FilesAgree.draw : FilesAgree numbers m p.draw :=
  {same with behind := Nat.lt_succ_of_lt same.behind}

theorem createFile_both {rec : FileRecord} (uuid : rec.accountID.length = 36) (known : p.known rec.accountID = true)
    (numbered : FeedNumbers numbers (p.createFile rec).2) :
    Alike (SameFile numbers) (MemStore.answer (m.createFile rec).1) (p.createFile rec).1 ∧
      FilesAgree numbers (m.createFile rec).2 (p.createFile rec).2 := by
  have rel := same.head uuid rec.fileID
  unfold Store.createFile at numbered ⊢
  unfold Mem.createFile
  cases held : m.files.get (Mem.fileKey rec.accountID rec.fileID) with
  | some a =>
    rw [held] at rel
    obtain ⟨b,stored,_⟩ := rel_some rel
    simp only [held,stored]
    exact ⟨.error .duplicate,same.draw⟩
  | none =>
    rw [held] at rel
    have absent := rel_none rel
    simp only [absent,known,if_true] at numbered
    simp only [held,absent,known,if_true]
    refine same.commit uuid ?_ numbered
    intro v member
    obtain ⟨cur,stored,_⟩ := same.bounded _ _ v member
    rw [absent] at stored
    contradiction

theorem updateFile_both {rec : FileRecord} (uuid : rec.accountID.length = 36) (base : Int)
    (numbered : FeedNumbers numbers (p.updateFile rec base).2) :
    Alike (SameFile numbers) (MemStore.answer (m.updateFile rec base).1) (p.updateFile rec base).1 ∧
      FilesAgree numbers (m.updateFile rec base).2 (p.updateFile rec base).2 := by
  have rel := same.head uuid rec.fileID
  unfold Store.updateFile at numbered ⊢
  unfold Mem.updateFile
  cases held : m.files.get (Mem.fileKey rec.accountID rec.fileID) with
  | none =>
    rw [held] at rel
    simp only [held,rel_none rel]
    exact ⟨.error .notFound,same⟩
  | some a =>
    rw [held] at rel
    obtain ⟨b,stored,head⟩ := rel_some rel
    simp only [stored] at numbered
    simp only [held,stored,head.file.version]
    by_cases current : (b.version : Int) = base
    · simp only [current,if_true] at numbered
      simp only [current,ne_eq,not_true_eq_false,if_true,if_false]
      refine same.commit uuid ?_ numbered
      intro v member
      obtain ⟨cur,found,bound⟩ := same.bounded _ _ v member
      rw [stored] at found
      cases found
      exact Nat.lt_succ_of_le bound
    · simp only [current,ne_eq,not_false_eq_true,if_true,if_false]
      exact ⟨.error .conflict,same⟩

/-! ### The feed -/

theorem FilesAgree.feed_ascending (mono : StrictMono numbers) : p.changes.Pairwise Postgres.Earlier := by
  have rising : m.changes.Pairwise (fun a b => a.changeSeq < b.changeSeq) := by
    rw [← List.pairwise_map (f := fun c : Change => c.changeSeq) (R := (· < ·)),same.numbered]
    exact List.pairwise_lt_range'
  rw [same.changes]
  exact List.pairwise_map.mpr (rising.imp fun less => Nat.le_of_lt (mono less))

theorem listChangesSince_alike (mono : StrictMono numbers) (accountID : Str) (since : Nat) {limit : Int} (positive : 0 < limit) :
    Alike (fun a b => b = a.map fun c => {c with changeSeq := numbers c.changeSeq})
      (.ok (m.listChangesSince accountID since limit.toNat)) (p.feed accountID (numbers since) limit) := by
  unfold Store.feed Mem.listChangesSince Postgres.listChangesSince
  rw [if_neg (by omega : ¬limit < 0),if_pos (by omega : 0 < limit.toNat)]
  have sorted : (p.changes.filter (fun c => decide (c.accountID = accountID ∧ numbers since < c.changeSeq))).Pairwise Postgres.Earlier :=
    (same.feed_ascending mono).sublist List.filter_sublist
  rw [sorted.insertionSort_eq,same.changes,List.filter_map,← List.map_take]
  have test : ((fun c : Change => decide (c.accountID = accountID ∧ numbers since < c.changeSeq)) ∘ renumber numbers) =
      fun c => decide (c.accountID = accountID ∧ since < c.changeSeq) := by
    funext c
    simp only [Function.comp,renumber,mono.lt_iff_lt]
  rw [test]
  exact .ok rfl

/-! ### Retention -/

omit same in
/-- Without the oldest versions the newest are left. -/
theorem keep_newest (front back : List VersionRecord) (ascending : (front ++ back).Pairwise (fun a b => a.version < b.version)) :
    (front ++ back).filter (fun v => !decide (v.version ∈ front.map (·.version))) = back := by
  have distinct := versions_distinct ascending
  rw [List.map_append] at distinct
  have apart := List.disjoint_of_nodup_append distinct
  rw [List.filter_append]
  have none : front.filter (fun v => !decide (v.version ∈ front.map (·.version))) = [] := by
    rw [List.filter_eq_nil_iff]
    intro v member
    simpa using ⟨v,member,rfl⟩
  have all : back.filter (fun v => !decide (v.version ∈ front.map (·.version))) = back := by
    rw [List.filter_eq_self]
    intro v member
    have later : v.version ∉ front.map (·.version) := fun old => apart old (List.mem_map.mpr ⟨v,member,rfl⟩)
    simp only [later,decide_false,Bool.not_false]
  rw [none,all,List.nil_append]

omit same in
theorem versionRows_pruned (p : Store) (accountID fileID : Str) (gone : List Nat) (account file : Str) :
    Store.versionRows {p with versions := p.versions.filter (fun v =>
        !decide (v.accountID = accountID ∧ v.fileID = fileID ∧ v.version ∈ gone))} account file =
      if account = accountID ∧ file = fileID then (p.versionRows accountID fileID).filter (fun v => !decide (v.version ∈ gone))
      else p.versionRows account file := by
  unfold Store.versionRows
  dsimp only
  by_cases here : account = accountID ∧ file = fileID
  · obtain ⟨rfl,rfl⟩ := here
    rw [if_pos ⟨rfl,rfl⟩,List.filter_filter,List.filter_filter]
    apply List.filter_congr
    intro v _
    by_cases own : v.accountID = account ∧ v.fileID = file
    · simp [own]
    · simp [own]
  · rw [if_neg here,List.filter_filter]
    apply List.filter_congr
    intro v _
    by_cases own : v.accountID = account ∧ v.fileID = file
    · obtain ⟨rfl,rfl⟩ := own
      have other : ¬(v.accountID = accountID ∧ v.fileID = fileID ∧ v.version ∈ gone) := fun all => here ⟨all.1,all.2.1⟩
      simp [other]
    · simp [own]

omit same in
theorem pruneVersions_history (m : Mem Bytes) (accountID fileID : Str) (keep : Nat) (other : Str) :
    (m.pruneVersions accountID fileID keep).2.history other =
      if other = Mem.fileKey accountID fileID then
        (m.history (Mem.fileKey accountID fileID)).drop ((m.history (Mem.fileKey accountID fileID)).length - keep)
      else m.history other := by
  by_cases short : (m.history (Mem.fileKey accountID fileID)).length ≤ keep
  · rw [Nat.sub_eq_zero_of_le short,List.drop_zero]
    unfold Mem.pruneVersions
    simp only [short,if_true]
    split
    · next here => rw [here]
    · rfl
  · unfold Mem.pruneVersions
    simp only [short,if_false]
    exact m.keepLast_history (Mem.fileKey accountID fileID) other keep

omit same in
theorem pruneVersions_keys (m : Mem Bytes) (accountID fileID : Str) (keep : Nat) :
    (m.pruneVersions accountID fileID keep).1 =
      Mem.prunedKeys (match m.files.get (Mem.fileKey accountID fileID) with
        | some f => f.blobKey
        | none => [])
        ((m.history (Mem.fileKey accountID fileID)).take ((m.history (Mem.fileKey accountID fileID)).length - keep))
        ((m.history (Mem.fileKey accountID fileID)).drop ((m.history (Mem.fileKey accountID fileID)).length - keep)) := by
  unfold Mem.pruneVersions
  by_cases short : (m.history (Mem.fileKey accountID fileID)).length ≤ keep
  · rw [if_pos short,Nat.sub_eq_zero_of_le short,List.take_zero]
    rfl
  · exact congrArg Prod.fst (if_neg short)

omit same in
/-- What a pruning leaves alone. -/
theorem pruneVersions_frame (m : Mem Bytes) (accountID fileID : Str) (keep : Nat) :
    (m.pruneVersions accountID fileID keep).2 = {m with versions := (m.pruneVersions accountID fileID keep).2.versions} := by
  unfold Mem.pruneVersions
  dsimp only
  split <;> rfl

theorem pruneVersions_both {accountID : Str} (uuid : accountID.length = 36) (fileID : Str) (keep : Int)
    (lib : PgLibrary) (returned : ∀ keys, (lib.returning keys).Perm keys) (natural : ¬keep < 0) :
    Alike List.Perm (.ok (m.pruneVersions accountID fileID keep.toNat).1) (p.pruneVersions lib accountID fileID keep).1 ∧
      FilesAgree numbers (m.pruneVersions accountID fileID keep.toNat).2 (p.pruneVersions lib accountID fileID keep).2 := by
  let vs := p.versionRows accountID fileID
  let cut := vs.length - keep.toNat
  have ascending : vs.Pairwise (fun a b => a.version < b.version) := same.ascending accountID fileID
  have history : m.history (Mem.fileKey accountID fileID) = vs := same.histories accountID fileID uuid
  have doomed : (p.newestFirst accountID fileID).drop keep.toNat = (vs.take cut).reverse := by
    rw [newestFirst_reverse p ascending,List.drop_reverse]
  have gone : ∀ n, n ∈ (vs.take cut).reverse.map (·.version) ↔ n ∈ (vs.take cut).map (·.version) := by
    intro n
    rw [List.map_reverse,List.mem_reverse]
  have left : vs.filter (fun v => !decide (v.version ∈ (vs.take cut).reverse.map (·.version))) = vs.drop cut := by
    have kept := keep_newest (vs.take cut) (vs.drop cut) (by rwa [List.take_append_drop])
    rw [List.take_append_drop] at kept
    rw [← kept]
    apply List.filter_congr
    intro v _
    simp only [gone]
  have rows : ∀ account file, Store.versionRows {p with versions := p.versions.filter (fun v =>
        !decide (v.accountID = accountID ∧ v.fileID = fileID ∧ v.version ∈ (vs.take cut).reverse.map (·.version)))} account file =
      if account = accountID ∧ file = fileID then vs.drop cut else p.versionRows account file := by
    intro account file
    rw [versionRows_pruned,left]
  unfold Store.pruneVersions
  rw [if_neg natural,doomed]
  dsimp only
  constructor
  · refine .ok ?_
    rw [pruneVersions_keys,history]
    unfold Mem.prunedKeys
    have order : (lib.returning ((vs.take cut).reverse.map (·.blobKey))).Perm ((vs.take cut).map (·.blobKey)) :=
      (returned _).trans ((List.reverse_perm _).map _)
    have rel := same.head uuid fileID
    cases held : m.files.get (Mem.fileKey accountID fileID) with
    | none =>
      rw [held] at rel
      have absent := rel_none rel
      have empty : vs = [] := by
        rw [List.eq_nil_iff_forall_not_mem]
        intro v member
        obtain ⟨cur,stored,_⟩ := same.bounded accountID fileID v member
        rw [absent] at stored
        contradiction
      have nothing : vs.take cut = [] := by rw [empty,List.take_nil]
      rw [nothing] at order ⊢
      have blank : lib.returning (([] : List VersionRecord).reverse.map (·.blobKey)) = [] := order.eq_nil
      rw [blank]
      exact .nil
    | some a =>
      rw [held] at rel
      obtain ⟨b,stored,head⟩ := rel_some rel
      have agree : Store.unreferenced {p with versions := p.versions.filter (fun v => !decide (v.accountID = accountID ∧
            v.fileID = fileID ∧ v.version ∈ (vs.take cut).reverse.map (·.version)))} accountID fileID =
          fun key => !decide (key = a.blobKey ∨ key ∈ (vs.drop cut).map (·.blobKey)) := by
        funext key
        unfold Store.unreferenced
        rw [rows accountID fileID,if_pos ⟨rfl,rfl⟩]
        simp only [stored,Option.any_some,head.file.blobKey,Bool.decide_or,List.mem_map,eq_comm (a := key)]
        congr 2
        rw [Bool.eq_iff_iff]
        simp
      rw [agree]
      exact (order.filter _).symm
  · rw [pruneVersions_frame]
    refine {same with histories := ?_,ascending := ?_,bounded := ?_}
    · intro account file long
      refine Eq.trans ?_ (rows account file).symm
      rw [← pruneVersions_frame,pruneVersions_history,history]
      by_cases here : account = accountID ∧ file = fileID
      · obtain ⟨rfl,rfl⟩ := here
        rw [if_pos rfl,if_pos ⟨rfl,rfl⟩]
      · rw [if_neg here,if_neg]
        · exact same.histories account file long
        · exact fun equal => here (uuidKey_inj (long.trans uuid.symm) equal)
    · intro account file
      refine (rows account file).symm ▸ ?_
      split
      · exact ascending.sublist (List.drop_sublist _ _)
      · exact same.ascending account file
    · intro account file v member
      have member := (rows account file) ▸ member
      split at member
      · next here =>
        obtain ⟨rfl,rfl⟩ := here
        exact same.bounded account file v (List.mem_of_mem_drop member)
      · exact same.bounded account file v member

/-! ### Idempotent responses -/

theorem getIdempotentResponse_alike {accountID : Str} (uuid : accountID.length = 36) (key : Str) :
    m.getIdempotentResponse accountID key = p.getIdempotentResponse accountID key :=
  same.idempotent accountID key uuid

theorem saveIdempotentResponse_both {accountID : Str} (uuid : accountID.length = 36) (key : Str) (response : Bytes)
    (lib : PgLibrary) (known : p.known accountID = true) (printed : lib.jsonb response = some response)
    (repeated : ∀ stored ∈ p.idempotent.get (accountID,key), stored = response) :
    (p.saveIdempotentResponse lib accountID key response).1 = .ok () ∧
      FilesAgree numbers (m.saveIdempotentResponse accountID key response) (p.saveIdempotentResponse lib accountID key response).2 := by
  have written : ∀ account other, account.length = 36 →
      (m.idempotent.upsert (Mem.idemKey accountID key) response).get (Mem.idemKey account other) =
        (p.idempotent.upsert (accountID,key) response).get (account,other) := by
    intro account other long
    rw [Table.get_upsert,Table.get_upsert]
    by_cases here : (account,other) = (accountID,key)
    · cases here
      rw [if_pos rfl,if_pos rfl]
    · rw [if_neg here,if_neg]
      · exact same.idempotent account other long
      · intro equal
        obtain ⟨owner,name⟩ := idemKey_inj (long.trans uuid.symm) equal
        exact here (Prod.ext owner name)
  unfold Store.saveIdempotentResponse
  simp only [printed,known,Bool.not_true,Bool.false_eq_true,if_false]
  cases stored : p.idempotent.get (accountID,key) with
  | none =>
    rw [if_neg (by simp)]
    exact ⟨rfl,{same with idempotent := written}⟩
  | some old =>
    rw [if_pos Option.isSome_some]
    refine ⟨rfl,{same with idempotent := ?_}⟩
    intro account other long
    refine (written account other long).trans ?_
    rw [Table.get_upsert]
    split
    · next here =>
      rw [here,stored,repeated old stored]
    · rfl

end

theorem filesAgree_empty (numbers : Nat → Nat) (zero : numbers 0 = 0) : FilesAgree numbers .newMem .empty := by
  refine ⟨.nil,fun _ _ _ => rfl,fun _ _ => .nil,nofun,rfl,rfl,rfl,?_,fun _ _ _ => rfl⟩
  show numbers 0 < 1
  omega

end NPSync.Server
