import Mathlib.Data.List.Perm.Basic
import Mathlib.Data.List.Sort
import NPSync.Library.Run
import NPSync.Server.Handlers

/-! The change feed of `store/postgres.go`. A write is a transaction of three
statements; both `nextval` calls are drawn when their statement runs and are
never given back, rows become visible at commit. Readers poll the feed and
continue from the `latest_seq` of their last answer. -/
namespace NPSync.Server.Postgres
open Library

/-- An open `CreateFile` (`base = none`) or `UpdateFile` transaction with the
rows its statements have written so far. -/
structure Tx where
  record : FileRecord
  base : Option Int
  head : Option FileRecord
  version : Option VersionRecord
  change : Option Change

structure Reader where
  accountID : Str
  cursor : Nat
  received : List Change

/-- One answer of `GET /sync/changes`, with the number of changes committed
before it. -/
structure Answer where
  accountID : Str
  latestSeq : Nat
  committed : Nat

/-- `changes` lists the committed feed rows in commit order. -/
structure Db where
  nextval : Nat
  files : Table (Str × Str) FileRecord
  versions : List VersionRecord
  changes : List Change
  transactions : List Tx
  readers : List Reader
  answers : List Answer

def Db.empty : Db := ⟨1,.empty,[],[],[],[],[]⟩

def Earlier (a b : Change) : Prop := a.changeSeq ≤ b.changeSeq

instance : DecidableRel Earlier := fun a b => inferInstanceAs (Decidable (a.changeSeq ≤ b.changeSeq))
instance : Std.Total Earlier := ⟨fun a b => Nat.le_total a.changeSeq b.changeSeq⟩
instance : IsTrans Change Earlier := ⟨fun _ _ _ first second => Nat.le_trans first second⟩

def listChangesSince (changes : List Change) (accountID : Str) (since limit : Nat) : List Change :=
  ((changes.filter (fun c => decide (c.accountID = accountID ∧ since < c.changeSeq))).insertionSort
    Earlier).take limit

namespace Db
variable (d : Db)

/-- Another transaction has written the row and not ended, so the statement waits. -/
def locked (index : Nat) (key : Str × Str) : Bool :=
  (d.transactions.eraseIdx index).any
    (fun t => t.head.isSome && decide ((t.record.accountID,t.record.fileID) = key))

def replaceTx (index : Nat) (t : Tx) : Db := {d with transactions := d.transactions.set index t}

def endTx (index : Nat) : Db := {d with transactions := d.transactions.eraseIdx index}

def draw : Db := {d with nextval := d.nextval + 1}

/-- The `INSERT INTO files` or `UPDATE files` statement; a unique violation or
no matching row ends the transaction. -/
def writeHead (index : Nat) (t : Tx) : Db :=
  let key := (t.record.accountID,t.record.fileID)
  if t.head.isSome || d.locked index key then d
  else match t.base,d.files.get key with
    | none,some _ => d.draw.endTx index
    | none,none => d.draw.replaceTx index {t with head := some {t.record with version := 1,changeSeq := d.nextval}}
    | some _,none => d.endTx index
    | some base,some cur =>
      if (cur.version : Int) = base then
        d.draw.replaceTx index
          {t with head := some {t.record with version := cur.version + 1,changeSeq := d.nextval}}
      else d.endTx index

/-- `insertVersionRow`. -/
def writeVersion (index : Nat) (t : Tx) : Db :=
  match t.head,t.version with
  | some head,none =>
    d.replaceTx index {t with version := some (Mem.versionFromRecord {t.record with version := head.version})}
  | _,_ => d

def changeRow (t : Tx) (head : FileRecord) : Change :=
  ⟨d.nextval,t.record.accountID,t.record.fileID,head.version,Mem.kindOf t.record.deleted,
    t.record.originDeviceID⟩

/-- `insertChangeRow`: `change_seq` is the default of the serial column. -/
def writeChange (index : Nat) (t : Tx) : Db :=
  match t.head,t.version,t.change with
  | some head,some _,none =>
    d.draw.replaceTx index {t with change := some (d.changeRow t head)}
  | _,_,_ => d

def commit (index : Nat) (t : Tx) : Db :=
  match t.head,t.version,t.change with
  | some head,some version,some change =>
    {d.endTx index with
      files := d.files.upsert (t.record.accountID,t.record.fileID) head
      versions := d.versions ++ [version]
      changes := d.changes ++ [change]}
  | _,_,_ => d

def page (r : Reader) : List Change := listChangesSince d.changes r.accountID r.cursor 1000

/-- `handleChanges` for a reader that continues from its cursor. -/
def poll (index : Nat) (r : Reader) : Db :=
  let latest := latestSeq r.cursor (d.page r)
  {d with
    readers := d.readers.set index ⟨r.accountID,latest,r.received ++ d.page r⟩
    answers := d.answers ++ [⟨r.accountID,latest,d.changes.length⟩]}

end Db

inductive Action where
  | begin (rec : FileRecord) (base : Option Int)
  | writeHead (index : Nat)
  | writeVersion (index : Nat)
  | writeChange (index : Nat)
  | commit (index : Nat)
  | rollback (index : Nat)
  | connect (accountID : Str)
  | poll (index : Nat)

def onTx (d : Db) (index : Nat) (statement : Tx → Db) : Db :=
  match d.transactions[index]? with
  | some t => statement t
  | none => d

def step (d : Db) : Action → Db
  | .begin rec base => {d with transactions := d.transactions ++ [⟨rec,base,none,none,none⟩]}
  | .writeHead index => onTx d index (d.writeHead index)
  | .writeVersion index => onTx d index (d.writeVersion index)
  | .writeChange index => onTx d index (d.writeChange index)
  | .commit index => onTx d index (d.commit index)
  | .rollback index => onTx d index (fun _ => d.endTx index)
  | .connect accountID => {d with readers := d.readers ++ [⟨accountID,0,[]⟩]}
  | .poll index =>
    match d.readers[index]? with
    | some r => d.poll index r
    | none => d

/-- After an answer with `latest_seq = s` every change of the account that
commits has a larger number, and a reader has every change up to its cursor. -/
structure NoGap (d : Db) : Prop where
  later : ∀ a ∈ d.answers, ∀ c ∈ d.changes.drop a.committed, c.accountID = a.accountID →
    a.latestSeq < c.changeSeq
  received : ∀ r ∈ d.readers, ∀ c ∈ d.changes, c.accountID = r.accountID →
    c.changeSeq ≤ r.cursor → c ∈ r.received

instance (d : Db) : Decidable (NoGap d) :=
  decidable_of_iff ((∀ a ∈ d.answers, ∀ c ∈ d.changes.drop a.committed, c.accountID = a.accountID →
      a.latestSeq < c.changeSeq) ∧
    ∀ r ∈ d.readers, ∀ c ∈ d.changes, c.accountID = r.accountID → c.changeSeq ≤ r.cursor → c ∈ r.received)
    ⟨fun both => ⟨both.1,both.2⟩,fun noGap => ⟨noGap.later,noGap.received⟩⟩

/-- The feed rows that open transactions have written. -/
def drawn (transactions : List Tx) : List Change := transactions.filterMap (·.change)

/-- The condition on a poll: every open transaction of the account that has
drawn its feed number drew one above all rows the poll reads. -/
def PollGuard (d : Db) : Action → Prop
  | .poll index => ∀ r ∈ d.readers[index]?, ∀ c ∈ drawn d.transactions, c.accountID = r.accountID →
    ∀ row ∈ d.page r, row.changeSeq < c.changeSeq
  | _ => True

instance (d : Db) : (action : Action) → Decidable (PollGuard d action)
  | .poll index => inferInstanceAs (Decidable (∀ r ∈ d.readers[index]?,_))
  | .begin .. | .writeHead _ | .writeVersion _ | .writeChange _ | .commit _ | .rollback _
  | .connect _ => .isTrue trivial

/-- The numbers in use: committed, or drawn by an open transaction. -/
def numbers (changes inFlight : List Change) : List Nat :=
  changes.map (·.changeSeq) ++ inFlight.map (·.changeSeq)

/-- A number `s` that the account's later rows all exceed. -/
def Passed (d : Db) (inFlight : List Change) (accountID : Str) (s : Nat) : Prop :=
  s < d.nextval ∧ ∀ c ∈ inFlight, c.accountID = accountID → s < c.changeSeq

/-- The invariant, for any list of the feed rows in flight. -/
structure Ordered (d : Db) (inFlight : List Change) : Prop where
  below : ∀ n ∈ numbers d.changes inFlight, 0 < n ∧ n < d.nextval
  distinct : (numbers d.changes inFlight).Nodup
  started : 0 < d.nextval
  answered : ∀ a ∈ d.answers, Passed d inFlight a.accountID a.latestSeq ∧ a.committed ≤ d.changes.length
  reading : ∀ r ∈ d.readers, Passed d inFlight r.accountID r.cursor
  noGap : NoGap d

theorem Ordered.perm {d : Db} {before after : List Change} (ordered : Ordered d before)
    (same : after.Perm before) : Ordered d after := by
  have all : (numbers d.changes after).Perm (numbers d.changes before) :=
    List.Perm.append_left _ (same.map _)
  have passed : ∀ account s, Passed d before account s → Passed d after account s :=
    fun account s before => ⟨before.1,fun c member => before.2 c (same.subset member)⟩
  exact ⟨fun n member => ordered.below n (all.subset member),all.nodup_iff.mpr ordered.distinct,
    ordered.started,fun a member => ⟨passed _ _ (ordered.answered a member).1,(ordered.answered a member).2⟩,
    fun r member => passed _ _ (ordered.reading r member),ordered.noGap⟩

/-- Ending transactions and raising the sequence keep the invariant. -/
theorem Ordered.quiet {d after : Db} {before fewer : List Change} (ordered : Ordered d before)
    (sub : fewer.Sublist before) (later : d.nextval ≤ after.nextval) (changes : after.changes = d.changes)
    (readers : after.readers = d.readers) (answers : after.answers = d.answers) : Ordered after fewer := by
  have all : (numbers after.changes fewer).Sublist (numbers d.changes before) := by
    rw [changes]
    exact List.Sublist.append_left (sub.map _) _
  have passed : ∀ account s, Passed d before account s → Passed after fewer account s :=
    fun account s before => ⟨by have := before.1; omega,fun c member => before.2 c (sub.subset member)⟩
  constructor
  · intro n member
    have bounds := ordered.below n (all.subset member)
    omega
  · exact ordered.distinct.sublist all
  · have := ordered.started
    omega
  · rw [answers,changes]
    exact fun a member => ⟨passed _ _ (ordered.answered a member).1,(ordered.answered a member).2⟩
  · rw [readers]
    exact fun r member => passed _ _ (ordered.reading r member)
  · constructor
    · rw [answers,changes]
      exact ordered.noGap.later
    · rw [readers,changes]
      exact ordered.noGap.received

/-- A row written with the next number is above everything that was answered. -/
theorem Ordered.draw {d after : Db} {inFlight : List Change} (ordered : Ordered d inFlight) (c : Change)
    (number : c.changeSeq = d.nextval) (next : after.nextval = d.nextval + 1)
    (changes : after.changes = d.changes) (readers : after.readers = d.readers)
    (answers : after.answers = d.answers) : Ordered after (inFlight ++ [c]) := by
  have all : numbers after.changes (inFlight ++ [c]) = numbers d.changes inFlight ++ [d.nextval] := by
    simp [numbers,changes,number]
  have passed : ∀ account s, Passed d inFlight account s → Passed after (inFlight ++ [c]) account s := by
    intro account s before
    refine ⟨by have := before.1; omega,?_⟩
    intro row member same
    rcases List.mem_append.mp member with old | new
    · exact before.2 row old same
    · rw [List.mem_singleton.mp new,number]
      exact before.1
  constructor
  · intro n member
    rw [all] at member
    have := ordered.started
    rcases List.mem_append.mp member with old | new
    · have bounds := ordered.below n old
      omega
    · rw [List.mem_singleton.mp new]
      omega
  · rw [all]
    refine ordered.distinct.append (List.nodup_singleton _) ?_
    rw [List.disjoint_singleton]
    intro member
    have bounds := ordered.below _ member
    omega
  · omega
  · rw [answers,changes]
    exact fun a member => ⟨passed _ _ (ordered.answered a member).1,(ordered.answered a member).2⟩
  · rw [readers]
    exact fun r member => passed _ _ (ordered.reading r member)
  · constructor
    · rw [answers,changes]
      exact ordered.noGap.later
    · rw [readers,changes]
      exact ordered.noGap.received

/-- A row in flight that commits is above everything that was answered. -/
theorem Ordered.publish {d after : Db} {inFlight : List Change} (c : Change)
    (ordered : Ordered d (c::inFlight)) (next : after.nextval = d.nextval)
    (changes : after.changes = d.changes ++ [c]) (readers : after.readers = d.readers)
    (answers : after.answers = d.answers) : Ordered after inFlight := by
  have all : (numbers after.changes inFlight) = numbers d.changes (c::inFlight) := by
    simp [numbers,changes]
  have passed : ∀ account s, Passed d (c::inFlight) account s → Passed after inFlight account s :=
    fun account s before => ⟨by have := before.1; omega,
      fun row member => before.2 row (List.mem_cons_of_mem _ member)⟩
  constructor
  · rw [all,next]
    exact ordered.below
  · rw [all]
    exact ordered.distinct
  · rw [next]
    exact ordered.started
  · rw [answers,changes,List.length_append]
    intro a member
    have old := ordered.answered a member
    exact ⟨passed _ _ old.1,by omega⟩
  · rw [readers]
    exact fun r member => passed _ _ (ordered.reading r member)
  · constructor
    · rw [answers,changes]
      intro a member row inside same
      have old := ordered.answered a member
      rw [List.drop_append_of_le_length old.2] at inside
      rcases List.mem_append.mp inside with before | new
      · exact ordered.noGap.later a member row before same
      · rw [List.mem_singleton.mp new] at same ⊢
        exact old.1.2 c List.mem_cons_self same
    · rw [readers,changes]
      intro r member row inside same bound
      rcases List.mem_append.mp inside with before | new
      · exact ordered.noGap.received r member row before same bound
      · rw [List.mem_singleton.mp new] at same bound
        have above := (ordered.reading r member).2 c List.mem_cons_self same
        omega

theorem Ordered.connect {d : Db} {inFlight : List Change} (ordered : Ordered d inFlight) (accountID : Str) :
    Ordered {d with readers := d.readers ++ [⟨accountID,0,[]⟩]} inFlight := by
  have positive : ∀ c ∈ inFlight, 0 < c.changeSeq := fun c member =>
    (ordered.below _ (List.mem_append_right _ (List.mem_map.mpr ⟨c,member,rfl⟩))).1
  refine ⟨ordered.below,ordered.distinct,ordered.started,ordered.answered,?_,ordered.noGap.later,?_⟩
  · intro r member
    rcases List.mem_append.mp member with old | new
    · exact ordered.reading r old
    · rw [List.mem_singleton.mp new]
      exact ⟨ordered.started,fun c inside _ => positive c inside⟩
  · intro r member c inside same bound
    rcases List.mem_append.mp member with old | new
    · exact ordered.noGap.received r old c inside same bound
    · rw [List.mem_singleton.mp new] at bound
      have above := (ordered.below _ (List.mem_append_left _ (List.mem_map.mpr ⟨c,inside,rfl⟩))).1
      dsimp only at bound
      omega

/-- A committed row above `since` that the page leaves out lies above the whole page. -/
theorem listChangesSince_complete (changes : List Change) (distinct : (changes.map (·.changeSeq)).Nodup)
    (accountID : Str) (since limit : Nat) (c : Change) (member : c ∈ changes)
    (same : c.accountID = accountID) (above : since < c.changeSeq) :
    c ∈ listChangesSince changes accountID since limit ∨
      ∀ row ∈ listChangesSince changes accountID since limit, row.changeSeq < c.changeSeq := by
  let wanted := changes.filter (fun c => decide (c.accountID = accountID ∧ since < c.changeSeq))
  let sorted := wanted.insertionSort Earlier
  have inside : c ∈ sorted :=
    (List.mem_insertionSort Earlier).mpr (List.mem_filter.mpr ⟨member,by simp [same,above]⟩)
  have unequal : (sorted.map (·.changeSeq)).Nodup :=
    ((List.perm_insertionSort Earlier wanted).map _).nodup_iff.mpr
      (distinct.sublist (List.filter_sublist.map _))
  have ascending : sorted.Pairwise (fun a b => a.changeSeq < b.changeSeq) :=
    (List.pairwise_insertionSort Earlier wanted).imp₂ (fun a b le ne => Nat.lt_of_le_of_ne le ne)
      (List.pairwise_map.mp unequal)
  rw [← List.take_append_drop limit sorted] at inside ascending
  rcases List.mem_append.mp inside with page | rest
  · exact Or.inl page
  · exact Or.inr fun row shown => (List.pairwise_append.mp ascending).2.2 row shown c rest

theorem listChangesSince_subset (changes : List Change) (accountID : Str) (since limit : Nat) (c : Change)
    (member : c ∈ listChangesSince changes accountID since limit) : c ∈ changes :=
  (List.mem_filter.mp ((List.mem_insertionSort Earlier).mp (List.mem_of_mem_take member))).1

/-- A guarded poll answers below everything still in flight and leaves nothing out. -/
theorem Ordered.poll {d : Db} {inFlight : List Change} (ordered : Ordered d inFlight) (index : Nat)
    (r : Reader) (found : d.readers[index]? = some r)
    (guard : ∀ c ∈ inFlight, c.accountID = r.accountID → ∀ row ∈ d.page r, row.changeSeq < c.changeSeq) :
    Ordered (d.poll index r) inFlight := by
  have reader := List.mem_of_getElem? found
  have old := ordered.reading r reader
  have passed : Passed d inFlight r.accountID (latestSeq r.cursor (d.page r)) := by
    rcases latestSeq_cases r.cursor (d.page r) with same | ⟨row,member,same⟩
    · rw [same]
      exact old
    · rw [same]
      have committed := listChangesSince_subset _ _ _ _ row member
      exact ⟨(ordered.below _ (List.mem_append_left _ (List.mem_map.mpr ⟨row,committed,rfl⟩))).2,
        fun c inside account => guard c inside account row member⟩
  refine ⟨ordered.below,ordered.distinct,ordered.started,?_,?_,?_,?_⟩
  · intro a member
    rcases List.mem_append.mp member with before | new
    · exact ordered.answered a before
    · rw [List.mem_singleton.mp new]
      exact ⟨passed,Nat.le_refl _⟩
  · intro other member
    rcases List.mem_or_eq_of_mem_set member with before | new
    · exact ordered.reading other before
    · rw [new]
      exact passed
  · intro a member c inside same
    rcases List.mem_append.mp member with before | new
    · exact ordered.noGap.later a before c inside same
    · rw [List.mem_singleton.mp new] at inside
      change c ∈ d.changes.drop d.changes.length at inside
      simp at inside
  · intro other member c inside same bound
    rcases List.mem_or_eq_of_mem_set member with before | new
    · exact ordered.noGap.received other before c inside same bound
    · rw [new] at same bound ⊢
      change c.changeSeq ≤ latestSeq r.cursor (d.page r) at bound
      by_cases known : c.changeSeq ≤ r.cursor
      · exact List.mem_append_left _ (ordered.noGap.received r reader c inside same known)
      · have distinct := (List.nodup_append.mp ordered.distinct).1
        rcases listChangesSince_complete d.changes distinct r.accountID r.cursor 1000 c inside same
          (by omega) with shown | beyond
        · exact List.mem_append_right _ shown
        · rcases latestSeq_cases r.cursor (d.page r) with equal | ⟨row,shown,equal⟩
          · omega
          · have := beyond row shown
            omega

section
variable {d : Db} {index : Nat} {t : Tx} (found : d.transactions[index]? = some t)
include found

private theorem drawn_split :
    (drawn d.transactions).Perm (t.change.toList ++ drawn (d.transactions.eraseIdx index)) := by
  obtain ⟨bound,rfl⟩ := List.getElem?_eq_some_iff.mp found
  have split := (List.getElem_cons_eraseIdx_perm bound).symm.filterMap (·.change)
  refine split.trans (List.Perm.of_eq ?_)
  rw [List.filterMap_cons]
  cases d.transactions[index].change <;> rfl

private theorem drawn_set (after : Tx) :
    (drawn (d.transactions.set index after)).Perm
      (after.change.toList ++ drawn (d.transactions.eraseIdx index)) := by
  obtain ⟨bound,-⟩ := List.getElem?_eq_some_iff.mp found
  have split := (List.set_perm_cons_eraseIdx bound after).filterMap (·.change)
  refine split.trans (List.Perm.of_eq ?_)
  rw [List.filterMap_cons]
  cases after.change <;> rfl

private theorem drawn_set_same (after : Tx) (same : after.change = t.change) :
    (drawn (d.transactions.set index after)).Perm (drawn d.transactions) :=
  (drawn_set found after).trans (same ▸ (drawn_split found).symm)

theorem Ordered.statement (ordered : Ordered d (drawn d.transactions)) (state : Db) (after : Tx)
    (later : d.nextval ≤ state.nextval) (changes : state.changes = d.changes)
    (readers : state.readers = d.readers) (answers : state.answers = d.answers)
    (transactions : state.transactions = d.transactions) (same : after.change = t.change) :
    Ordered (state.replaceTx index after) (drawn (state.replaceTx index after).transactions) := by
  simp only [Db.replaceTx,transactions]
  exact (ordered.perm (drawn_set_same found after same)).quiet (List.Sublist.refl _) later changes readers answers

omit found in
theorem Ordered.ended (ordered : Ordered d (drawn d.transactions)) (state : Db)
    (later : d.nextval ≤ state.nextval) (changes : state.changes = d.changes)
    (readers : state.readers = d.readers) (answers : state.answers = d.answers)
    (transactions : state.transactions = d.transactions) :
    Ordered (state.endTx index) (drawn (state.endTx index).transactions) := by
  have fewer : (drawn (d.transactions.eraseIdx index)).Sublist (drawn d.transactions) :=
    (List.eraseIdx_sublist _ _).filterMap _
  simp only [Db.endTx,transactions]
  exact ordered.quiet fewer later changes readers answers

theorem writeHead_ordered (ordered : Ordered d (drawn d.transactions)) :
    Ordered (d.writeHead index t) (drawn (d.writeHead index t).transactions) := by
  have next : d.nextval ≤ d.draw.nextval := Nat.le_succ _
  unfold Db.writeHead
  dsimp only
  split
  · exact ordered
  split
  · exact ordered.ended _ next rfl rfl rfl rfl
  · exact ordered.statement found _ _ next rfl rfl rfl rfl rfl
  · exact ordered.ended _ (Nat.le_refl _) rfl rfl rfl rfl
  · split
    · exact ordered.statement found _ _ next rfl rfl rfl rfl rfl
    · exact ordered.ended _ (Nat.le_refl _) rfl rfl rfl rfl

theorem writeVersion_ordered (ordered : Ordered d (drawn d.transactions)) :
    Ordered (d.writeVersion index t) (drawn (d.writeVersion index t).transactions) := by
  unfold Db.writeVersion
  split
  · exact ordered.statement found _ _ (Nat.le_refl _) rfl rfl rfl rfl rfl
  · exact ordered

theorem writeChange_ordered (ordered : Ordered d (drawn d.transactions)) :
    Ordered (d.writeChange index t) (drawn (d.writeChange index t).transactions) := by
  unfold Db.writeChange
  split
  · rename_i head _ _ _ none
    have added := drawn_set found {t with change := some (d.changeRow t head)}
    have before := drawn_split found
    rw [none] at before
    refine Ordered.perm (ordered.draw (d.changeRow t head) rfl rfl rfl rfl rfl) ?_
    exact added.trans ((List.perm_append_comm).trans (List.Perm.append_right _ before.symm))
  · exact ordered

theorem commit_ordered (ordered : Ordered d (drawn d.transactions)) :
    Ordered (d.commit index t) (drawn (d.commit index t).transactions) := by
  unfold Db.commit
  split
  · rename_i head version change _ _ written
    have before := drawn_split found
    rw [written] at before
    exact Ordered.publish change (ordered.perm before.symm) rfl rfl rfl rfl
  · exact ordered

end

theorem step_ordered (d : Db) (action : Action) (ordered : Ordered d (drawn d.transactions))
    (guard : PollGuard d action) : Ordered (step d action) (drawn (step d action).transactions) := by
  have statement : ∀ (index : Nat) (run : Tx → Db),
      (∀ t, d.transactions[index]? = some t → Ordered (run t) (drawn (run t).transactions)) →
      Ordered (onTx d index run) (drawn (onTx d index run).transactions) := by
    intro index run each
    unfold onTx
    split
    · exact each _ ‹_›
    · exact ordered
  cases action with
  | begin record base =>
    have sub : (drawn (step d (.begin record base)).transactions).Sublist (drawn d.transactions) := by
      simp [step,drawn]
    exact ordered.quiet sub (Nat.le_refl _) rfl rfl rfl
  | writeHead index => exact statement index _ fun t found => writeHead_ordered found ordered
  | writeVersion index => exact statement index _ fun t found => writeVersion_ordered found ordered
  | writeChange index => exact statement index _ fun t found => writeChange_ordered found ordered
  | commit index => exact statement index _ fun t found => commit_ordered found ordered
  | rollback index =>
    exact statement index _ fun _ _ => ordered.ended _ (Nat.le_refl _) rfl rfl rfl rfl
  | connect accountID => exact ordered.connect accountID
  | poll index =>
    cases found : d.readers[index]? with
    | none => simpa [step,found] using ordered
    | some r =>
      simp only [step,found]
      exact ordered.poll index r found (guard r found)

theorem empty_ordered : Ordered Db.empty (drawn Db.empty.transactions) :=
  ⟨by simp [numbers,drawn,Db.empty],by simp [numbers,drawn,Db.empty],Nat.one_pos,by simp [Db.empty],
    by simp [Db.empty],⟨by simp [Db.empty],by simp [Db.empty]⟩⟩

/-- In every run whose polls meet no smaller number in flight the feed has no gap. -/
theorem feed_no_gap (actions : List Action) (guarded : Guarded step PollGuard Db.empty actions) :
    NoGap (run step Db.empty actions) :=
  (run_invariant step PollGuard (fun d => Ordered d (drawn d.transactions)) step_ordered Db.empty actions
    empty_ordered guarded).noGap

private def note (fileID : String) : FileRecord :=
  ⟨lit "account",lit fileID,[],[],0,.empty,false,0,[],1,lit "laptop",0⟩

/-- Two creates run their statements in turn, so the first has the smaller number. -/
private def twoCreates : List Action := [.connect (lit "account"),.begin (note "f") none,.begin (note "g") none,
  .writeHead 0,.writeHead 1,.writeVersion 0,.writeVersion 1,.writeChange 0,.writeChange 1]

theorem commits_in_order_no_gap :
    Guarded step PollGuard Db.empty (twoCreates ++ [.commit 0,.poll 0,.commit 0,.poll 0]) ∧
      NoGap (run step Db.empty (twoCreates ++ [.commit 0,.poll 0,.commit 0,.poll 0])) :=
  ⟨by decide,feed_no_gap _ (by decide)⟩

/-- The second commits and is read before the first commits. -/
theorem commits_out_of_order_gap :
    ¬NoGap (run step Db.empty (twoCreates ++ [.commit 1,.poll 0,.commit 0])) := by
  decide

end NPSync.Server.Postgres
