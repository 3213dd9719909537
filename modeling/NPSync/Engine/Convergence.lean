import Mathlib.Data.List.Pairwise
import NPSync.Library.Pending
import NPSync.Engine.Events
import NPSync.KnownAnswers

/-! From a change on disk to the server: the watcher reports events, `onFsEvent`
queues operations, and the worker processes them in the order of the queue. The
server accepts every request and is a map from keys to live or deleted. The file
system is case-insensitive and keeps the spelling of names. -/
namespace NPSync.Engine
open Library

abbrev AbsPath := {path : WStr // path ≠ []}

structure Entry where
  path : AbsPath
  isDir : Bool
  deriving DecidableEq

/-- The device with what is on disk, and the events that `onFsEvent` has not seen yet. -/
structure Desk where
  here : Local
  entries : List Entry
  events : List FsEvent
  live : Str → Bool

/-- Changes on disk, the delivery of the next event, and the processing of the
first operation, with the bytes on disk at that time. A rename is `paired` when
one watcher sees both names. -/
inductive Happening where
  | create (path : AbsPath)
  | touch (path : AbsPath)
  | remove (path : AbsPath)
  | makeDir (path : AbsPath)
  | removeDir (path : AbsPath)
  | move (old new : AbsPath) (paired : Bool)
  | moveDir (old new : AbsPath) (paired : Bool)
  | deliver (now : Int)
  | work (disk : Disk) (io : UploadIo) (version : Int)

/-- A server that accepts; the state is whether the file is live. -/
def accepts (version : Int) (live : Bool) : ApiCall → ApiResponse × Bool
  | .createFile _ => (⟨true,201,.obj [(lit "version",.num version)]⟩,true)
  | .updateFile _ _ => (⟨true,200,.obj [(lit "version",.num version)]⟩,true)
  | .deleteFile _ => (⟨true,200,.obj [(lit "version",.num version)]⟩,false)
  | .getFile _ => (⟨true,404,.null⟩,live)

section
variable (plat : Platform) (dev : Device)

namespace Desk
variable (d : Desk)

def samePath (a b : WStr) : Bool := PathUtil.wlower plat.win a = PathUtil.wlower plat.win b

def find (path : WStr) : Option Entry := d.entries.find? (fun e => samePath plat e.path.1 path)

def without (path : WStr) : List Entry := d.entries.filter (fun e => !samePath plat e.path.1 path)

def isDirectory (path : WStr) : Bool := d.entries.any (fun e => e.isDir && samePath plat e.path.1 path)

def isBelow (dir path : WStr) : Bool := (PathUtil.wlower plat.win dir ++ wlit "\\").isPrefixOf (PathUtil.wlower plat.win path)

/-- An entry below a directory that has moved. -/
def rerooted (old new : AbsPath) (e : Entry) : Entry :=
  if isBelow plat old.1 e.path.1 then {e with path := ⟨new.1 ++ e.path.1.drop old.1.length,by simp [new.2]⟩} else e

/-- A regular file with this key is on disk. -/
def onDisk (key : Str) : Bool := d.entries.any (fun e => !e.isDir && keyOf plat.win d.here.db e.path.1 = some key)

def worked (op : PendingOp) (disk : Disk) (io : UploadIo) (version : Int) : (Outcome × Local) × Bool :=
  (processPendingOp plat dev {d.here with disk := disk} op io).run (accepts version) (d.live op.relPath)

end Desk

def renameEvents (old new : AbsPath) (paired : Bool) : List FsEvent :=
  if paired then [⟨.renamedFrom,old.1,[]⟩,⟨.renamedTo,new.1,old.1⟩] else [⟨.deleted,old.1,[]⟩,⟨.created,new.1,[]⟩]

/-- What is not possible on the disk as it is changes nothing. -/
def Desk.step (d : Desk) : Happening → Desk
  | .create path =>
    match d.find plat path.1 with
    | none => {d with entries := d.entries ++ [⟨path,false⟩],events := d.events ++ [⟨.created,path.1,[]⟩]}
    | some _ => d
  | .touch path =>
    match d.find plat path.1 with
    | none => d
    | some e => {d with events := d.events ++ [⟨.modified,e.path.1,[]⟩]}
  | .remove path =>
    match d.find plat path.1 with
    | some ⟨path,false⟩ => {d with entries := d.without plat path.1,events := d.events ++ [⟨.deleted,path.1,[]⟩]}
    | _ => d
  | .makeDir path =>
    match d.find plat path.1 with
    | none => {d with entries := d.entries ++ [⟨path,true⟩],events := d.events ++ [⟨.created,path.1,[]⟩]}
    | some _ => d
  | .removeDir path =>
    match d.find plat path.1 with
    | some ⟨path,true⟩ =>
      if d.entries.any (fun e => Desk.isBelow plat path.1 e.path.1) then d
      else {d with entries := d.without plat path.1,events := d.events ++ [⟨.deleted,path.1,[]⟩]}
    | _ => d
  | .move old new paired =>
    match d.find plat old.1 with
    | some ⟨old,false⟩ =>
      if (d.without plat old.1).any (fun e => Desk.samePath plat e.path.1 new.1) then d
      else {d with entries := d.without plat old.1 ++ [⟨new,false⟩],events := d.events ++ renameEvents old new paired}
    | _ => d
  | .moveDir old new paired =>
    match d.find plat old.1,d.find plat new.1 with
    | some ⟨old,true⟩,none =>
      {d with
        entries := (d.without plat old.1).map (Desk.rerooted plat old new) ++ [⟨new,true⟩]
        events := d.events ++ renameEvents old new paired}
    | _,_ => d
  | .deliver now =>
    match d.events with
    | [] => d
    | ev::rest =>
      {d with
        here := {d.here with db := onFsEvent plat.win d.here.db true ev (d.isDirectory plat ev.absPath) now}
        events := rest}
  | .work disk io version =>
    match d.here.db.pendingOps with
    | [] => d
    | op::_ =>
      let out := d.worked plat dev op disk io version
      {d with here := out.1.2,live := Function.update d.live op.relPath out.2}

/-- No file or reported path has the key of the new name. -/
def KeyFree (d : Desk) (path : WStr) : Prop :=
  ∀ other ∈ d.entries.map (·.path.1) ++ d.events.map (·.absPath), ∀ key ∈ keyOf plat.win d.here.db path,
    keyOf plat.win d.here.db other = some key → Desk.samePath plat other path = true

/-- A rename within the roots changes the key, and nothing deletes the old one. -/
def KeepsKey (d : Desk) (old new : WStr) : Prop :=
  keyOf plat.win d.here.db old = none ∨ keyOf plat.win d.here.db new = none ∨
    keyOf plat.win d.here.db old = keyOf plat.win d.here.db new

/-- The operation is processed successfully; an upload without a path is none. -/
def Processed (d : Desk) (op : PendingOp) (disk : Disk) (io : UploadIo) (version : Int) : Prop :=
  (d.worked plat dev op disk io version).1.1.succeeded = true ∧
    (op.kind = .upload → absPathForRel plat.win d.here.db op.relPath ≠ none)

/-- The condition: operations are processed successfully, names that exist at the
same time differ in their keys, no paired rename leads from one key to another,
and no directory is renamed. -/
def Traceable (d : Desk) : Happening → Prop
  | .create path | .makeDir path => KeyFree plat d path.1
  | .move old new paired => KeyFree plat d new.1 ∧ (paired = true → ∀ e ∈ d.find plat old.1, KeepsKey plat d e.path.1 new.1)
  | .moveDir .. => False
  | .work disk io version => ∀ op ∈ d.here.db.pendingOps.head?, Processed plat dev d op disk io version
  | _ => True

/-! ### What is outstanding -/

/-- What an event queues: the key, and whether it is an upload. -/
def effectOf (win : Windows) (db : LocalDb) (isDirectory : Bool) (ev : FsEvent) : Option (Str × Bool) :=
  match keyOf win db ev.absPath with
  | none =>
    if ev.kind = .renamedTo ∧ ev.oldAbsPath ≠ [] then (keyOf win db ev.oldAbsPath).map fun old => (old,false) else none
  | some key =>
    match ev.kind with
    | .created | .modified => if isDirectory then none else some (key,true)
    | .deleted => some (key,false)
    | .renamedFrom => none
    | .renamedTo => some (key,true)

def kindOf (upload : Bool) : OpKind := if upload then .upload else .delete

theorem onFsEvent_effect (win : Windows) (db : LocalDb) (ev : FsEvent) (isDirectory : Bool) (now : Int) :
    onFsEvent win db true ev isDirectory now = match effectOf win db isDirectory ev with
      | none => db
      | some write => db.enqueueOp (kindOf write.2) write.1 [] now := by
  unfold onFsEvent effectOf
  cases keyOf win db ev.absPath with
  | none =>
    dsimp only
    rw [if_neg (by simp)]
    split
    · cases keyOf win db ev.oldAbsPath <;> rfl
    · rfl
  | some key => cases ev.kind <;> cases isDirectory <;> rfl

/-- A directory hides nothing but the upload of an added or changed file. -/
theorem effectOf_directory (win : Windows) (db : LocalDb) (ev : FsEvent) :
    effectOf win db true ev = effectOf win db false ev ∨ (effectOf win db true ev = none ∧
      ∃ key, keyOf win db ev.absPath = some key ∧ effectOf win db false ev = some (key,true)) := by
  unfold effectOf
  cases keyOf win db ev.absPath with
  | none => exact .inl rfl
  | some key =>
    cases ev.kind with
    | created => exact .inr ⟨rfl,key,rfl,rfl⟩
    | modified => exact .inr ⟨rfl,key,rfl,rfl⟩
    | _ => exact .inl rfl

def opWrite (op : PendingOp) : Option (Str × Bool) :=
  match op.kind with
  | .upload => some (op.relPath,true)
  | .delete => some (op.relPath,false)
  | .rename => none

theorem opWrite_key {op : PendingOp} {write : Str × Bool} (read : opWrite op = some write) : op.relPath = write.1 := by
  unfold opWrite at read
  split at read
  · exact congrArg Prod.fst (Option.some.inj read)
  · exact congrArg Prod.fst (Option.some.inj read)
  · contradiction

namespace Desk

/-- A directory is spelled like this. -/
def dirAt (d : Desk) (path : WStr) : Bool := d.entries.any (fun e => e.isDir && e.path.1 = path)

def effect (d : Desk) (ev : FsEvent) : Option (Str × Bool) := effectOf plat.win d.here.db (d.dirAt ev.absPath) ev

/-- The server once everything outstanding is delivered and processed. -/
def outcome (d : Desk) : Str → Bool :=
  Library.settle (Library.settle d.live (d.here.db.pendingOps.filterMap opWrite)) (d.events.filterMap (d.effect plat))

/-- The server, the queue and the events together lead to what is on disk. -/
structure InStep (d : Desk) : Prop where
  outcome : ∀ key, d.outcome plat key = d.onDisk plat key
  distinct : d.entries.Pairwise (fun a b => samePath plat a.path.1 b.path.1 = false)
  apart : ∀ e ∈ d.entries, ∀ other ∈ d.entries.map (·.path.1) ++ d.events.map (·.absPath), ∀ key,
    keyOf plat.win d.here.db e.path.1 = some key → keyOf plat.win d.here.db other = some key →
      samePath plat other e.path.1 = true
  rows : ∀ key, (d.here.db.getFile key).isSome = d.live key
  known : ∀ key, ∀ st ∈ d.here.db.getFile key, st.fileId ≠ []
  ordered : d.here.db.pendingOps.Pairwise (fun a b => a.id < b.id)
  below : ∀ op ∈ d.here.db.pendingOps, op.id < d.here.db.nextOpId

end Desk

/-- Queueing an operation decides its key and no other. -/
theorem settle_enqueueOp (live : Str → Bool) (db : LocalDb) (key : Str) (upload : Bool) (now : Int) :
    Library.settle live ((db.enqueueOp (kindOf upload) key [] now).pendingOps.filterMap opWrite) =
      Function.update (Library.settle live (db.pendingOps.filterMap opWrite)) key upload := by
  have write : opWrite ⟨db.nextOpId,kindOf upload,key,[],now,0,[]⟩ = some (key,upload) := by
    cases upload <;> rfl
  funext other
  rw [LocalDb.enqueueOp,List.filterMap_append,List.filterMap_cons_some write,List.filterMap_nil]
  by_cases here : other = key
  · rw [here,settle_snoc_same,Function.update_self]
  · rw [settle_snoc_other _ _ _ _ here,Function.update_of_ne here,List.filterMap_filter]
    apply settle_filterMap_congr
    intro op member w same
    have elsewhere : opWrite op = some w → op.relPath ≠ key := by
      intro read
      rw [opWrite_key read,same]
      exact here
    constructor
    · intro read
      split at read
      · exact read
      · contradiction
    · intro read
      rw [if_pos (by simp [elsewhere read]),read]

/-! ### Changes on disk -/

namespace Desk
variable {d : Desk}

theorem samePath_symm (a b : WStr) : samePath plat a b = samePath plat b a := by
  simp only [samePath,eq_comm]

@[simp] theorem samePath_self (a : WStr) : samePath plat a a = true := by simp [samePath]

theorem samePath_trans {a b c : WStr} (first : samePath plat a b = true) (second : samePath plat b c = true) :
    samePath plat a c = true := by
  simp only [samePath,decide_eq_true_eq] at first second ⊢
  exact first.trans second

theorem onDisk_iff (key : Str) :
    d.onDisk plat key = true ↔ ∃ e ∈ d.entries, e.isDir = false ∧ keyOf plat.win d.here.db e.path.1 = some key := by
  simp [onDisk]

theorem find_none {path : WStr} (free : d.find plat path = none) : ∀ e ∈ d.entries, samePath plat e.path.1 path = false := by
  intro e member
  simpa using List.find?_eq_none.mp free e member

theorem find_some {path : WStr} {e : Entry} (found : d.find plat path = some e) :
    e ∈ d.entries ∧ samePath plat e.path.1 path = true :=
  ⟨List.mem_of_find?_eq_some found,by simpa using List.find?_some found⟩

theorem mem_without {path : WStr} {e : Entry} :
    e ∈ d.without plat path ↔ e ∈ d.entries ∧ samePath plat e.path.1 path = false := by
  simp [without]

/-- Two entries with one path are the same. -/
theorem InStep.unique (inStep : d.InStep plat) {a b : Entry} (first : a ∈ d.entries) (second : b ∈ d.entries)
    (same : samePath plat a.path.1 b.path.1 = true) : a = b := by
  by_contra different
  have symmetric : Std.Symm (fun a b : Entry => samePath plat a.path.1 b.path.1 = false) :=
    ⟨fun a b apart => by rw [samePath_symm]; exact apart⟩
  have apart := inStep.distinct.forall first second different
  rw [same] at apart
  contradiction

/-- A change of the disk with the events that report it. -/
def changed (d : Desk) (entries : List Entry) (events : List FsEvent) : Desk :=
  {d with entries := entries,events := d.events ++ events}

@[simp] theorem changed_here (entries : List Entry) (events : List FsEvent) : (d.changed entries events).here = d.here := rfl

/-- A change that moves no directory leads to what is on disk when its own events do. -/
theorem outcome_changed {entries : List Entry} {events : List FsEvent}
    (dirs : ∀ path, (d.changed entries events).dirAt path = d.dirAt path) :
    (d.changed entries events).outcome plat = Library.settle (d.outcome plat) (events.filterMap ((d.changed entries events).effect plat)) := by
  have same : (d.changed entries events).effect plat = d.effect plat := by
    funext ev
    rw [effect,effect,dirs]
    rfl
  rw [outcome,outcome,same]
  show Library.settle _ ((d.events ++ events).filterMap _) = _
  rw [List.filterMap_append,settle_append]
  rfl

/-- What a change of the disk leaves as it was. -/
theorem InStep.changed (inStep : d.InStep plat) {entries : List Entry} {events : List FsEvent}
    (outcome : ∀ key, (d.changed entries events).outcome plat key = (d.changed entries events).onDisk plat key)
    (distinct : entries.Pairwise (fun a b => samePath plat a.path.1 b.path.1 = false))
    (apart : ∀ e ∈ entries, ∀ other ∈ entries.map (·.path.1) ++ (d.events ++ events).map (·.absPath), ∀ key,
      keyOf plat.win d.here.db e.path.1 = some key → keyOf plat.win d.here.db other = some key →
        samePath plat other e.path.1 = true) : (d.changed entries events).InStep plat :=
  ⟨outcome,distinct,apart,inStep.rows,inStep.known,inStep.ordered,inStep.below⟩

/-- Nothing new has been named. -/
theorem InStep.apart_old (inStep : d.InStep plat) {entries : List Entry} {paths : List WStr}
    (kept : ∀ e ∈ entries, e ∈ d.entries)
    (old : ∀ path ∈ paths, path ∈ d.entries.map (·.path.1) ++ d.events.map (·.absPath)) :
    ∀ e ∈ entries, ∀ other ∈ entries.map (·.path.1) ++ paths, ∀ key, keyOf plat.win d.here.db e.path.1 = some key →
      keyOf plat.win d.here.db other = some key → samePath plat other e.path.1 = true := by
  intro e member other named
  refine inStep.apart e (kept e member) other ?_
  rcases List.mem_append.mp named with entry | path
  · obtain ⟨x,inside,rfl⟩ := List.mem_map.mp entry
    exact List.mem_append_left _ (List.mem_map_of_mem (kept x inside))
  · exact old other path

/-- One new name, which shares its key with nothing. -/
theorem InStep.apart_new (inStep : d.InStep plat) {entries : List Entry} {paths : List WStr} {new : AbsPath}
    (free : KeyFree plat d new.1) (kept : ∀ e ∈ entries, e ∈ d.entries ∨ e.path = new)
    (old : ∀ path ∈ paths, path ∈ d.entries.map (·.path.1) ++ d.events.map (·.absPath) ∨ path = new.1) :
    ∀ e ∈ entries, ∀ other ∈ entries.map (·.path.1) ++ paths, ∀ key, keyOf plat.win d.here.db e.path.1 = some key →
      keyOf plat.win d.here.db other = some key → samePath plat other e.path.1 = true := by
  intro e member other named key mine its
  have known : other ∈ d.entries.map (·.path.1) ++ d.events.map (·.absPath) ∨ other = new.1 := by
    rcases List.mem_append.mp named with entry | path
    · obtain ⟨x,inside,rfl⟩ := List.mem_map.mp entry
      rcases kept x inside with there | here
      · exact .inl (List.mem_append_left _ (List.mem_map_of_mem there))
      · exact .inr (congrArg Subtype.val here)
    · exact old other path
  rcases kept e member with there | here
  · rcases known with before | rfl
    · exact inStep.apart e there other before key mine its
    · rw [samePath_symm]
      exact free e.path.1 (List.mem_append_left _ (List.mem_map_of_mem there)) key its mine
  · rw [here] at mine ⊢
    rcases known with before | rfl
    · exact free other before key mine its
    · exact samePath_self plat _

/-- A file that a new name would share its key with is that name's own. -/
theorem keyFree_absent {path : WStr} (free : KeyFree plat d path) (unused : d.find plat path = none) {key : Str}
    (mine : keyOf plat.win d.here.db path = some key) : d.onDisk plat key = false := by
  rw [← Bool.not_eq_true,onDisk_iff]
  rintro ⟨e,member,-,its⟩
  have same := free e.path.1 (List.mem_append_left _ (List.mem_map_of_mem member)) key mine its
  rw [find_none plat unused e member] at same
  contradiction

/-- Nothing but a directory hides an upload. -/
theorem dirAt_eq_false {path : WStr} (files : ∀ e ∈ d.entries, e.path.1 = path → e.isDir = false) : d.dirAt path = false := by
  rw [dirAt,List.any_eq_false]
  intro e member dir
  simp only [Bool.and_eq_true,decide_eq_true_eq] at dir
  rw [files e member dir.2] at dir
  exact absurd dir.1 (by decide)

theorem dirAt_unused {path : WStr} (unused : d.find plat path = none) : d.dirAt path = false := by
  apply dirAt_eq_false
  intro e member same
  have apart := find_none plat unused e member
  rw [same,samePath_self] at apart
  contradiction

/-- The effects of the events that have only one. -/
theorem effect_added {kind : FsEventKind} (added : kind = .created ∨ kind = .modified) (path : WStr) (file : d.dirAt path = false) :
    d.effect plat ⟨kind,path,[]⟩ = (keyOf plat.win d.here.db path).map fun key => (key,true) := by
  rw [effect,file]
  unfold effectOf
  rcases added with rfl | rfl
  · cases keyOf plat.win d.here.db path <;> rfl
  · cases keyOf plat.win d.here.db path <;> rfl

theorem effect_deleted (path : WStr) :
    d.effect plat ⟨.deleted,path,[]⟩ = (keyOf plat.win d.here.db path).map fun key => (key,false) := by
  unfold effect effectOf
  cases keyOf plat.win d.here.db path <;> rfl

theorem effect_directory {kind : FsEventKind} (added : kind = .created ∨ kind = .modified) (path : WStr) (dir : d.dirAt path = true) :
    d.effect plat ⟨kind,path,[]⟩ = none := by
  rw [effect,dir]
  unfold effectOf
  rcases added with rfl | rfl
  · cases keyOf plat.win d.here.db path <;> rfl
  · cases keyOf plat.win d.here.db path <;> rfl

/-- One write to the key of a path. -/
theorem settle_keyed (live : Str → Bool) (key : Option Str) (value : Bool) (other : Str) :
    Library.settle live ((key.map fun k => (k,value)).toList) other = if key = some other then value else live other := by
  cases key with
  | none => rfl
  | some k =>
    show Function.update live k value other = _
    by_cases same : k = other
    · rw [if_pos (congrArg some same),same,Function.update_self]
    · rw [if_neg (by simp [same]),Function.update_of_ne (Ne.symm same)]

theorem filterMap_one {E W : Type} (f : E → Option W) (event : E) : [event].filterMap f = (f event).toList := by
  cases read : f event <;> simp [read]

theorem without_dirAt (inStep : d.InStep plat) {path : AbsPath} (file : (⟨path,false⟩ : Entry) ∈ d.entries) (other : WStr) :
    (d.without plat path.1).any (fun e => e.isDir && e.path.1 = other) = d.dirAt other := by
  rw [Bool.eq_iff_iff,dirAt,List.any_eq_true,List.any_eq_true]
  constructor
  · rintro ⟨e,member,dir⟩
    exact ⟨e,((mem_without plat).mp member).1,dir⟩
  · rintro ⟨e,member,dir⟩
    refine ⟨e,(mem_without plat).mpr ⟨member,?_⟩,dir⟩
    rw [← Bool.not_eq_true]
    intro same
    rw [inStep.unique plat member file same] at dir
    exact absurd dir (by simp)

/-- Removing a file takes its key off the disk. -/
theorem without_onDisk (inStep : d.InStep plat) {path : AbsPath} (file : (⟨path,false⟩ : Entry) ∈ d.entries) (key : Str) :
    (d.without plat path.1).any (fun e => !e.isDir && keyOf plat.win d.here.db e.path.1 = some key) =
      if keyOf plat.win d.here.db path.1 = some key then false else d.onDisk plat key := by
  split
  · rename_i mine
    rw [List.any_eq_false]
    intro e member its
    obtain ⟨inside,apart⟩ := (mem_without plat).mp member
    simp only [Bool.and_eq_true,decide_eq_true_eq] at its
    have same := inStep.apart e inside path.1 (List.mem_append_left _ (List.mem_map_of_mem file)) key its.2 mine
    rw [samePath_symm,apart] at same
    contradiction
  · rename_i another
    rw [Bool.eq_iff_iff,onDisk,List.any_eq_true,List.any_eq_true]
    constructor
    · rintro ⟨e,member,its⟩
      exact ⟨e,((mem_without plat).mp member).1,its⟩
    · rintro ⟨e,member,its⟩
      refine ⟨e,(mem_without plat).mpr ⟨member,?_⟩,its⟩
      rw [← Bool.not_eq_true]
      intro same
      rw [inStep.unique plat member file same] at its
      simp only [Bool.and_eq_true,decide_eq_true_eq] at its
      exact another its.2

theorem distinct_snoc {entries : List Entry} (distinct : entries.Pairwise (fun a b => samePath plat a.path.1 b.path.1 = false))
    (new : Entry) (unused : ∀ e ∈ entries, samePath plat e.path.1 new.path.1 = false) :
    (entries ++ [new]).Pairwise (fun a b => samePath plat a.path.1 b.path.1 = false) := by
  rw [List.pairwise_append]
  refine ⟨distinct,List.pairwise_singleton _ _,?_⟩
  intro a member b last
  rw [List.mem_singleton.mp last]
  exact unused a member

/-- The outcome after a change that reports one event. -/
theorem outcome_reported {entries : List Entry} {ev : FsEvent} {key : Option Str} {value : Bool}
    (dirs : ∀ path, (d.changed entries [ev]).dirAt path = d.dirAt path)
    (effect : (d.changed entries [ev]).effect plat ev = key.map fun k => (k,value)) (other : Str) :
    (d.changed entries [ev]).outcome plat other = if key = some other then value else d.outcome plat other := by
  rw [outcome_changed plat dirs,filterMap_one,effect,settle_keyed]

/-- Everything named before is still named. -/
theorem named_or_new {events : List FsEvent} {new : WStr} (reported : ∀ ev ∈ events, ev.absPath = new) :
    ∀ path ∈ (d.events ++ events).map (·.absPath), path ∈ d.entries.map (·.path.1) ++ d.events.map (·.absPath) ∨ path = new := by
  intro path member
  rw [List.map_append,List.mem_append] at member
  rcases member with old | last
  · exact .inl (List.mem_append_right _ old)
  · obtain ⟨ev,inside,rfl⟩ := List.mem_map.mp last
    exact .inr (reported ev inside)

theorem named_old {events : List FsEvent} {path : WStr} (there : path ∈ d.entries.map (·.path.1))
    (reported : ∀ ev ∈ events, ev.absPath = path) :
    ∀ other ∈ (d.events ++ events).map (·.absPath), other ∈ d.entries.map (·.path.1) ++ d.events.map (·.absPath) := by
  intro other member
  rcases named_or_new reported other member with old | rfl
  · exact old
  · exact List.mem_append_left _ there

theorem onDisk_snoc (entries : List Entry) (e : Entry) (events : List FsEvent) (key : Str) :
    (d.changed (entries ++ [e]) events).onDisk plat key = ((d.changed entries events).onDisk plat key ||
      (!e.isDir && decide (keyOf plat.win d.here.db e.path.1 = some key))) :=
  List.any_append.trans (congrArg _ (Bool.or_false _))

theorem effect_renamedFrom (path : WStr) : d.effect plat ⟨.renamedFrom,path,[]⟩ = none := by
  unfold effect effectOf
  cases keyOf plat.win d.here.db path <;> rfl

theorem effect_renamedTo (old : AbsPath) (new : WStr) :
    d.effect plat ⟨.renamedTo,new,old.1⟩ = match keyOf plat.win d.here.db new with
      | some key => some (key,true)
      | none => (keyOf plat.win d.here.db old.1).map fun key => (key,false) := by
  unfold effect effectOf
  cases keyOf plat.win d.here.db new with
  | none => exact if_pos ⟨rfl,old.2⟩
  | some key => rfl

theorem InStep.create (inStep : d.InStep plat) (path : AbsPath) (unused : d.find plat path.1 = none)
    (free : KeyFree plat d path.1) : (d.changed (d.entries ++ [⟨path,false⟩]) [⟨.created,path.1,[]⟩]).InStep plat := by
  have dirs : ∀ other, (d.changed (d.entries ++ [⟨path,false⟩]) [⟨.created,path.1,[]⟩]).dirAt other = d.dirAt other := by
    intro other
    simp [dirAt,Desk.changed]
  have file := (dirs path.1).trans (dirAt_unused plat unused)
  apply inStep.changed
  · intro key
    rw [outcome_reported plat dirs (effect_added plat (.inl rfl) path.1 file),inStep.outcome,onDisk_snoc]
    show (if keyOf plat.win d.here.db path.1 = some key then _ else _) = (d.onDisk plat key || _)
    split
    · rename_i mine
      simp [mine]
    · rename_i another
      simp [another]
  · exact distinct_snoc plat inStep.distinct ⟨path,false⟩ (find_none plat unused)
  · apply inStep.apart_new plat free
    · intro e member
      rcases List.mem_append.mp member with old | last
      · exact .inl old
      · exact .inr (congrArg Entry.path (List.mem_singleton.mp last))
    · apply named_or_new
      intro ev last
      rw [List.mem_singleton.mp last]

theorem InStep.touch (inStep : d.InStep plat) (e : Entry) (there : e ∈ d.entries) :
    (d.changed d.entries [⟨.modified,e.path.1,[]⟩]).InStep plat := by
  have dirs : ∀ other, (d.changed d.entries [⟨.modified,e.path.1,[]⟩]).dirAt other = d.dirAt other := fun _ => rfl
  refine inStep.changed plat ?_ inStep.distinct ?_
  · intro key
    show _ = d.onDisk plat key
    cases dir : d.dirAt e.path.1 with
    | true =>
      rw [outcome_changed plat dirs,filterMap_one,effect_directory plat (.inr rfl) e.path.1 ((dirs _).trans dir)]
      exact inStep.outcome key
    | false =>
      rw [outcome_reported plat dirs (effect_added plat (.inr rfl) e.path.1 dir),inStep.outcome]
      split
      · rename_i mine
        symm
        rw [onDisk_iff]
        refine ⟨e,there,?_,mine⟩
        rw [← Bool.not_eq_true]
        intro isDir
        have here : d.dirAt e.path.1 = true := List.any_eq_true.mpr ⟨e,there,by simp [isDir]⟩
        rw [dir] at here
        contradiction
      · rfl
  · apply inStep.apart_old plat fun _ member => member
    apply named_old (List.mem_map_of_mem there)
    intro ev last
    rw [List.mem_singleton.mp last]

theorem InStep.remove (inStep : d.InStep plat) (path : AbsPath) (file : (⟨path,false⟩ : Entry) ∈ d.entries) :
    (d.changed (d.without plat path.1) [⟨.deleted,path.1,[]⟩]).InStep plat := by
  have dirs : ∀ other, (d.changed (d.without plat path.1) [⟨.deleted,path.1,[]⟩]).dirAt other = d.dirAt other :=
    without_dirAt plat inStep file
  refine inStep.changed plat ?_ (inStep.distinct.filter _) ?_
  · intro key
    rw [outcome_reported plat dirs (effect_deleted plat path.1),inStep.outcome]
    exact (without_onDisk plat inStep file key).symm
  · apply inStep.apart_old plat
    · intro e member
      exact ((mem_without plat).mp member).1
    · apply named_old (List.mem_map_of_mem file)
      intro ev last
      rw [List.mem_singleton.mp last]

/-- A new directory hides reports of a file that is not there any more. -/
theorem InStep.makeDir (inStep : d.InStep plat) (path : AbsPath) (unused : d.find plat path.1 = none)
    (free : KeyFree plat d path.1) : (d.changed (d.entries ++ [⟨path,true⟩]) [⟨.created,path.1,[]⟩]).InStep plat := by
  have dirs : ∀ other, (d.changed (d.entries ++ [⟨path,true⟩]) [⟨.created,path.1,[]⟩]).dirAt other =
      (d.dirAt other || decide (path.1 = other)) := by
    intro other
    simp [dirAt,Desk.changed]
  apply inStep.changed
  · intro key
    have stays : (d.changed (d.entries ++ [⟨path,true⟩]) [⟨.created,path.1,[]⟩]).onDisk plat key = d.onDisk plat key := by
      rw [onDisk_snoc]
      exact Bool.or_false _
    rw [stays,← inStep.outcome key,Desk.outcome]
    show Library.settle _ ((d.events ++ [(⟨.created,path.1,[]⟩ : FsEvent)]).filterMap _) key = _
    rw [List.filterMap_append,filterMap_one,effect_directory plat (.inl rfl) path.1 (by simp [dirs]),Option.toList_none,
      List.append_nil]
    apply settle_filterMap_fewer
    intro ev member
    rw [effect,effect,dirs]
    by_cases here : path.1 = ev.absPath
    · have before : d.dirAt ev.absPath = false := here ▸ dirAt_unused plat unused
      rw [before,decide_eq_true here,Bool.or_true]
      rcases effectOf_directory plat.win d.here.db ev with same | ⟨hidden,k,named,uploads⟩
      · exact .inl same
      · refine .inr ⟨hidden,?_⟩
        intro write reads same
        rw [uploads] at reads
        cases Option.some.inj reads
        have absent := keyFree_absent plat free unused (here ▸ named)
        rw [← inStep.outcome,Desk.outcome] at absent
        cases same
        intro decided
        exact Bool.noConfusion (decided.trans absent)
    · left
      rw [decide_eq_false here,Bool.or_false]
      rfl
  · exact distinct_snoc plat inStep.distinct ⟨path,true⟩ (find_none plat unused)
  · apply inStep.apart_new plat free
    · intro e member
      rcases List.mem_append.mp member with old | last
      · exact .inl old
      · exact .inr (congrArg Entry.path (List.mem_singleton.mp last))
    · apply named_or_new
      intro ev last
      rw [List.mem_singleton.mp last]

/-- With a directory gone, reports of it count as files until they are followed by its deletion. -/
theorem InStep.removeDir (inStep : d.InStep plat) (path : AbsPath) (dir : (⟨path,true⟩ : Entry) ∈ d.entries) :
    (d.changed (d.without plat path.1) [⟨.deleted,path.1,[]⟩]).InStep plat := by
  have stays : ∀ e ∈ d.entries, e.path ≠ path → e ∈ d.without plat path.1 := by
    intro e member another
    refine (mem_without plat).mpr ⟨member,?_⟩
    rw [← Bool.not_eq_true]
    intro same
    exact another (congrArg Entry.path (inStep.unique plat member dir same))
  have dirs : ∀ other, other ≠ path.1 → (d.changed (d.without plat path.1) [⟨.deleted,path.1,[]⟩]).dirAt other = d.dirAt other := by
    intro other another
    rw [Bool.eq_iff_iff,dirAt,dirAt,List.any_eq_true,List.any_eq_true]
    constructor
    · rintro ⟨e,member,its⟩
      exact ⟨e,((mem_without plat).mp member).1,its⟩
    · rintro ⟨e,member,its⟩
      refine ⟨e,stays e member ?_,its⟩
      rintro rfl
      simp only [Bool.and_eq_true,decide_eq_true_eq] at its
      exact another its.2.symm
  have nothing : ∀ key, keyOf plat.win d.here.db path.1 = some key → d.onDisk plat key = false := by
    intro key mine
    rw [← Bool.not_eq_true,onDisk_iff]
    rintro ⟨e,member,file,its⟩
    have same := inStep.apart e member path.1 (List.mem_append_left _ (List.mem_map_of_mem dir)) key its mine
    rw [← inStep.unique plat dir member same] at file
    contradiction
  have disk : ∀ key, (d.changed (d.without plat path.1) [⟨.deleted,path.1,[]⟩]).onDisk plat key = d.onDisk plat key := by
    intro key
    rw [Bool.eq_iff_iff,onDisk_iff,onDisk_iff]
    constructor
    · rintro ⟨e,member,its⟩
      exact ⟨e,((mem_without plat).mp member).1,its⟩
    · rintro ⟨e,member,file,its⟩
      refine ⟨e,stays e member ?_,file,its⟩
      rintro rfl
      have same := inStep.unique plat member dir (samePath_self plat _)
      rw [same] at file
      contradiction
  refine inStep.changed plat ?_ (inStep.distinct.filter _) ?_
  · intro key
    rw [disk,Desk.outcome]
    show Library.settle _ ((d.events ++ [(⟨.deleted,path.1,[]⟩ : FsEvent)]).filterMap _) key = _
    rw [List.filterMap_append,filterMap_one,effect_deleted,settle_append,settle_keyed]
    show (if keyOf plat.win d.here.db path.1 = some key then _ else _) = _
    split
    · rename_i mine
      exact (nothing key mine).symm
    · rename_i another
      rw [← inStep.outcome,Desk.outcome]
      apply settle_filterMap_congr
      rintro ev - write rfl
      rw [effect,effect]
      by_cases here : ev.absPath = path.1
      · have before : d.dirAt ev.absPath = true := List.any_eq_true.mpr ⟨_,dir,by simp [here]⟩
        have after : (d.changed (d.without plat path.1) [⟨.deleted,path.1,[]⟩]).dirAt ev.absPath = false := by
          apply dirAt_eq_false
          intro e member same
          have apart := ((mem_without plat).mp member).2
          rw [same,here,samePath_self] at apart
          contradiction
        rw [before,after]
        show effectOf plat.win d.here.db false ev = _ ↔ _
        rcases effectOf_directory plat.win d.here.db ev with same | ⟨hidden,k,named,uploads⟩
        · rw [same]
        · rw [hidden,uploads]
          constructor
          · intro reads
            cases Option.some.inj reads
            rw [here] at named
            exact absurd named another
          · intro same
            contradiction
      · rw [dirs _ here]
        rfl
  · apply inStep.apart_old plat
    · intro e member
      exact ((mem_without plat).mp member).1
    · apply named_old (List.mem_map_of_mem dir)
      intro ev last
      rw [List.mem_singleton.mp last]

/-- The new name of a file, with the events of the rename. -/
theorem InStep.move (inStep : d.InStep plat) (old new : AbsPath) (paired : Bool) (file : (⟨old,false⟩ : Entry) ∈ d.entries)
    (unused : ∀ e ∈ d.without plat old.1, samePath plat e.path.1 new.1 = false) (free : KeyFree plat d new.1)
    (keeps : paired = true → KeepsKey plat d old.1 new.1) :
    (d.changed (d.without plat old.1 ++ [⟨new,false⟩]) (renameEvents old new paired)).InStep plat := by
  have dirs : ∀ other, (d.changed (d.without plat old.1 ++ [⟨new,false⟩]) (renameEvents old new paired)).dirAt other = d.dirAt other := by
    intro other
    rw [← without_dirAt plat inStep file other]
    exact List.any_append.trans (Bool.or_false _)
  have newFile : (d.changed (d.without plat old.1 ++ [⟨new,false⟩]) (renameEvents old new paired)).dirAt new.1 = false := by
    apply dirAt_eq_false
    intro e member same
    rcases List.mem_append.mp member with stayed | last
    · have apart := unused e stayed
      rw [same,samePath_self] at apart
      contradiction
    · rw [List.mem_singleton.mp last]
  refine inStep.changed plat ?_ (distinct_snoc plat (inStep.distinct.filter _) ⟨new,false⟩ unused) ?_
  · intro key
    have kept : (d.changed (d.without plat old.1) (renameEvents old new paired)).onDisk plat key =
        if keyOf plat.win d.here.db old.1 = some key then false else d.onDisk plat key := without_onDisk plat inStep file key
    have disk : (d.changed (d.without plat old.1 ++ [⟨new,false⟩]) (renameEvents old new paired)).onDisk plat key =
        if keyOf plat.win d.here.db new.1 = some key then true
        else if keyOf plat.win d.here.db old.1 = some key then false else d.onDisk plat key := by
      rw [onDisk_snoc,kept]
      by_cases mine : keyOf plat.win d.here.db new.1 = some key <;> simp [mine]
    rw [disk,outcome_changed plat dirs,← inStep.outcome key]
    cases paired with
    | false =>
      show Library.settle _ (([(⟨.deleted,old.1,[]⟩ : FsEvent)] ++ [(⟨.created,new.1,[]⟩ : FsEvent)]).filterMap _) key = _
      rw [List.filterMap_append,settle_append,filterMap_one,filterMap_one,effect_deleted,effect_added plat (.inl rfl) _ newFile,
        settle_keyed,settle_keyed]
      rfl
    | true =>
      show Library.settle _ (([(⟨.renamedFrom,old.1,[]⟩ : FsEvent)] ++ [(⟨.renamedTo,new.1,old.1⟩ : FsEvent)]).filterMap _) key = _
      rw [List.filterMap_append,settle_append,filterMap_one,filterMap_one,effect_renamedFrom,effect_renamedTo,changed_here]
      show Library.settle (d.outcome plat) _ key = _
      have same := keeps rfl
      cases named : keyOf plat.win d.here.db new.1 with
      | none => exact settle_keyed (d.outcome plat) (keyOf plat.win d.here.db old.1) false key
      | some k =>
        refine (settle_keyed (d.outcome plat) (some k) true key).trans ?_
        rw [KeepsKey,named] at same
        split
        · rfl
        · rename_i another
          -- the old key is none, or it is the new one
          rcases same with gone | gone | stayed
          · rw [gone]
            rfl
          · contradiction
          · rw [stayed,if_neg another]
  · apply inStep.apart_new plat free
    · intro e member
      rcases List.mem_append.mp member with stayed | last
      · exact .inl ((mem_without plat).mp stayed).1
      · exact .inr (congrArg Entry.path (List.mem_singleton.mp last))
    · intro path member
      rw [List.map_append,List.mem_append] at member
      have its : path ∈ (renameEvents old new paired).map (·.absPath) → path = old.1 ∨ path = new.1 := by
        cases paired <;> simp [renameEvents]
      rcases member with before | last
      · exact .inl (List.mem_append_right _ before)
      rcases its last with rfl | rfl
      · exact .inl (List.mem_append_left _ (List.mem_map_of_mem file))
      · exact .inr rfl

end Desk

/-! ### Delivery -/

theorem keyOf_congr (win : Windows) {a b : LocalDb} (roots : a.syncRoots = b.syncRoots) : keyOf win a = keyOf win b := by
  funext path
  simp only [keyOf,locateInRoots,LocalDb.listSyncRoots,LocalDb.listSyncFiles,LocalDb.rootsWhere,roots]

theorem effect_congr {d after : Desk} (roots : after.here.db.syncRoots = d.here.db.syncRoots) (entries : after.entries = d.entries) :
    after.effect plat = d.effect plat := by
  funext ev
  have dirs : after.dirAt ev.absPath = d.dirAt ev.absPath := by rw [Desk.dirAt,Desk.dirAt,entries]
  rw [Desk.effect,Desk.effect,dirs,effectOf,effectOf,keyOf_congr plat.win roots]

theorem onDisk_congr {d after : Desk} (roots : after.here.db.syncRoots = d.here.db.syncRoots) (entries : after.entries = d.entries)
    (key : Str) : after.onDisk plat key = d.onDisk plat key := by
  simp only [Desk.onDisk,entries,keyOf_congr plat.win roots]

/-- What an event leaves of the database, and what it adds to the outstanding operations. -/
theorem onFsEvent_frame (win : Windows) (db : LocalDb) (ev : FsEvent) (isDirectory : Bool) (now : Int) (live : Str → Bool) :
    (onFsEvent win db true ev isDirectory now).syncRoots = db.syncRoots ∧
      (onFsEvent win db true ev isDirectory now).getFile = db.getFile ∧
      Library.settle live ((onFsEvent win db true ev isDirectory now).pendingOps.filterMap opWrite) =
        Library.settle (Library.settle live (db.pendingOps.filterMap opWrite)) (effectOf win db isDirectory ev).toList := by
  rw [onFsEvent_effect]
  cases effectOf win db isDirectory ev with
  | none => exact ⟨rfl,rfl,rfl⟩
  | some write => exact ⟨rfl,rfl,settle_enqueueOp live db write.1 write.2 now⟩

/-- The ids stay in order. -/
theorem onFsEvent_ordered (win : Windows) (db : LocalDb) (ev : FsEvent) (isDirectory : Bool) (now : Int)
    (ordered : db.pendingOps.Pairwise (fun a b => a.id < b.id)) (below : ∀ op ∈ db.pendingOps, op.id < db.nextOpId) :
    (onFsEvent win db true ev isDirectory now).pendingOps.Pairwise (fun a b => a.id < b.id) ∧
      ∀ op ∈ (onFsEvent win db true ev isDirectory now).pendingOps, op.id < (onFsEvent win db true ev isDirectory now).nextOpId := by
  rw [onFsEvent_effect]
  cases effectOf win db isDirectory ev with
  | none => exact ⟨ordered,below⟩
  | some write =>
    constructor
    · apply List.pairwise_append.mpr
      refine ⟨ordered.filter _,List.pairwise_singleton _ _,?_⟩
      intro op member last inside
      rw [List.mem_singleton.mp inside]
      exact below op (List.mem_of_mem_filter member)
    · intro op member
      show op.id < db.nextOpId + 1
      rcases List.mem_append.mp member with old | new
      · exact Nat.lt_succ_of_lt (below op (List.mem_of_mem_filter old))
      · rw [List.mem_singleton.mp new]
        exact Nat.lt_succ_self _

/-- The events that are left, with the database after the first. -/
def Desk.seen (d : Desk) (db : LocalDb) (rest : List FsEvent) : Desk := {d with here := {d.here with db := db},events := rest}

/-- The directory that `onFsEvent` asks for may be spelled in another way; the file is not there then. -/
theorem Desk.InStep.deliver {d : Desk} (inStep : d.InStep plat) (ev : FsEvent) (rest : List FsEvent)
    (queued : d.events = ev::rest) (now : Int) :
    (d.seen (onFsEvent plat.win d.here.db true ev (d.isDirectory plat ev.absPath) now) rest).InStep plat := by
  obtain ⟨roots,files,pending⟩ := onFsEvent_frame plat.win d.here.db ev (d.isDirectory plat ev.absPath) now d.live
  obtain ⟨ordered,below⟩ := onFsEvent_ordered plat.win d.here.db ev (d.isDirectory plat ev.absPath) now inStep.ordered inStep.below
  have before : ∀ key, Library.settle (Library.settle (Library.settle d.live (d.here.db.pendingOps.filterMap opWrite)) (d.effect plat ev).toList)
      (rest.filterMap (d.effect plat)) key = d.onDisk plat key := by
    intro key
    rw [← inStep.outcome key,Desk.outcome,queued,← List.singleton_append,List.filterMap_append,settle_append,Desk.filterMap_one]
  have effects : (d.seen (onFsEvent plat.win d.here.db true ev (d.isDirectory plat ev.absPath) now) rest).effect plat =
      d.effect plat := effect_congr plat roots rfl
  have disk : ∀ key, (d.seen (onFsEvent plat.win d.here.db true ev (d.isDirectory plat ev.absPath) now) rest).onDisk plat key =
      d.onDisk plat key := onDisk_congr plat roots rfl
  constructor
  · intro key
    rw [disk,Desk.outcome,effects,← before key]
    show Library.settle (Library.settle d.live ((onFsEvent plat.win d.here.db true ev (d.isDirectory plat ev.absPath) now).pendingOps.filterMap
      opWrite)) (rest.filterMap (d.effect plat)) key = _
    rw [pending]
    have reads : d.effect plat ev = effectOf plat.win d.here.db (d.dirAt ev.absPath) ev := rfl
    have spelled : d.dirAt ev.absPath = true → d.isDirectory plat ev.absPath = true := by
      intro dir
      obtain ⟨e,member,its⟩ := List.any_eq_true.mp dir
      simp only [Bool.and_eq_true,decide_eq_true_eq] at its
      exact List.any_eq_true.mpr ⟨e,member,by simp [its.1,its.2]⟩
    cases asked : d.isDirectory plat ev.absPath with
    | false =>
      have exact : d.dirAt ev.absPath = false := by
        rw [← Bool.not_eq_true]
        intro dir
        rw [spelled dir] at asked
        contradiction
      rw [reads,exact]
    | true =>
      cases exact : d.dirAt ev.absPath with
      | true => rw [reads,exact]
      | false =>
        rw [exact] at reads
        rcases effectOf_directory plat.win d.here.db ev with same | ⟨hidden,k,named,uploads⟩
        · rw [same,reads]
        · have absent : d.onDisk plat k = false := by
            rw [← Bool.not_eq_true,Desk.onDisk_iff]
            rintro ⟨file,member,regular,its⟩
            obtain ⟨e,inside,dir⟩ := List.any_eq_true.mp asked
            simp only [Bool.and_eq_true] at dir
            have reported : ev.absPath ∈ d.entries.map (·.path.1) ++ d.events.map (·.absPath) := by
              rw [queued]
              exact List.mem_append_right _ (List.mem_map_of_mem List.mem_cons_self)
            have same := inStep.apart file member ev.absPath reported k its named
            rw [inStep.unique plat inside member (Desk.samePath_trans plat dir.2 same),regular] at dir
            exact Bool.noConfusion dir.1
          rw [hidden,reads,uploads]
          symm
          apply settle_skip
          rintro rfl decided
          have its := before key
          rw [reads,uploads,absent] at its
          exact Bool.noConfusion (decided.trans its)
  · exact inStep.distinct
  · intro e member other named
    have keys : keyOf plat.win (d.seen (onFsEvent plat.win d.here.db true ev (d.isDirectory plat ev.absPath) now) rest).here.db =
        keyOf plat.win d.here.db := keyOf_congr plat.win roots
    rw [keys]
    apply inStep.apart e member other
    rcases List.mem_append.mp named with entry | reported
    · exact List.mem_append_left _ entry
    · rw [queued]
      exact List.mem_append_right _ (List.mem_cons_of_mem _ reported)
  · show ∀ key, ((onFsEvent plat.win d.here.db true ev _ now).getFile key).isSome = _
    rw [files]
    exact inStep.rows
  · show ∀ key, ∀ st ∈ (onFsEvent plat.win d.here.db true ev _ now).getFile key, _
    rw [files]
    exact inStep.known
  · exact ordered
  · exact below

/-! ### Processing -/

/-- What an operation leaves of the rows: its own is there when the server keeps the file live. -/
structure Rows (db after : LocalDb) (relPath : Str) (live : Bool) : Prop where
  others : ∀ key, key ≠ relPath → after.getFile key = db.getFile key
  row : (after.getFile relPath).isSome = live
  known : ∀ st ∈ after.getFile relPath, st.fileId ≠ []

theorem fileIdFor_ne (st : Option LocalFileState) (rnd : Random) : fileIdFor st rnd ≠ [] := by
  have drawn : uuidText rnd.uuid.1 ≠ [] := by simp [uuidText,lit]
  unfold fileIdFor
  cases st with
  | none => exact drawn
  | some st =>
    dsimp only
    split
    · exact drawn
    · assumption

theorem rows_upsertFile (db : LocalDb) (st : LocalFileState) (known : st.fileId ≠ []) : Rows db (db.upsertFile st) st.relPath true := by
  refine ⟨fun key other => LocalDb.getFile_upsertFile_other db st key other,?_,?_⟩
  · rw [LocalDb.getFile_upsertFile_same]
    rfl
  · rw [LocalDb.getFile_upsertFile_same]
    rintro _ ⟨⟩
    exact known

theorem rows_removeFile (db : LocalDb) (relPath : Str) : Rows db (db.removeFile relPath) relPath false := by
  have gone : (db.removeFile relPath).getFile relPath = none := by simp [LocalDb.getFile,LocalDb.removeFile]
  refine ⟨?_,by rw [gone]; rfl,by rw [gone]; intro st there; contradiction⟩
  intro key other
  simp [LocalDb.getFile,LocalDb.removeFile,Table.get_remove_other _ _ _ other]

theorem rows_same (db : LocalDb) (relPath : Str) (live : Bool) (row : (db.getFile relPath).isSome = live)
    (known : ∀ st ∈ db.getFile relPath, st.fileId ≠ []) : Rows db db relPath live :=
  ⟨fun _ _ => rfl,row,known⟩

/-- What holds when a program succeeds with the server that accepts. -/
def WhenAccepted (version : Int) (live : Bool) (good : Local → Bool → Prop) (program : Exchange) : Prop :=
  (program.run (accepts version) live).1.1.succeeded = true →
    good (program.run (accepts version) live).1.2 (program.run (accepts version) live).2

/-- An accepted answer ends an upload with its row, unless the payload cannot be written. -/
theorem finishUpload_accepted (l : Local) (relPath : Str) (absPath : WStr) (plaintext : Bytes) (payload : Payload) (io : UploadIo)
    (known : payload.fileId ≠ []) (version status : Int) (accepted : status = 200 ∨ status = 201) :
    WhenAccepted version true (fun after live => live = true ∧ Rows l.db after.db relPath true)
      (finishUpload plat dev l relPath absPath plaintext payload io ⟨true,status,.obj [(lit "version",.num version)]⟩) := by
  unfold finishUpload
  dsimp only
  rw [if_neg (by decide),if_pos accepted,show Json.valueInt (.obj [(lit "version",.num version)]) (lit "version") 1 = some version
    from rfl]
  cases sentVector payload with
  | none => exact nofun
  | some vv =>
    intro _
    refine ⟨rfl,?_⟩
    show Rows l.db (writeShadow plat _ relPath plaintext io.shadow).db relPath true
    rw [writeShadow_db]
    exact rows_upsertFile l.db (storedRow relPath _ payload _ version vv) known

theorem uploadFile_accepted (l : Local) (relPath : Str) (absPath : WStr) (io : UploadIo) (version : Int) (live : Bool)
    (row : (l.db.getFile relPath).isSome = live) (known : ∀ st ∈ l.db.getFile relPath, st.fileId ≠ []) :
    WhenAccepted version live (fun after live => live = true ∧ Rows l.db after.db relPath true) (uploadFile plat dev l relPath absPath io) := by
  unfold uploadFile
  split
  · exact nofun
  split
  · exact nofun
  dsimp only
  split
  · exact nofun
  split
  · rename_i same
    have there : live = true := by
      rw [← row]
      cases found : l.db.getFile relPath with
      | none =>
        rw [found] at same
        exact Bool.noConfusion same
      | some st => rfl
    exact fun _ => ⟨there,rows_same l.db relPath true (row.trans there) known⟩
  split
  · exact nofun
  rename_i payload built
  have named : payload.fileId ≠ [] := by
    obtain ⟨_,_,_,_,-,-,-,-,same⟩ := buildFilePayload_parts plat dev _ _ _ _ _ _ _ built
    rw [same]
    exact fileIdFor_ne _ _
  unfold uploadCall
  split
  · exact finishUpload_accepted plat dev l relPath absPath _ payload io named version 201 (.inr rfl)
  · exact finishUpload_accepted plat dev l relPath absPath _ payload io named version 200 (.inl rfl)

theorem deleteRemote_accepted (l : Local) (relPath : Str) (version : Int) (live : Bool)
    (row : (l.db.getFile relPath).isSome = live) (known : ∀ st ∈ l.db.getFile relPath, st.fileId ≠ []) :
    WhenAccepted version live (fun after live => live = false ∧ Rows l.db after.db relPath false) (deleteRemote l relPath) := by
  unfold deleteRemote
  dsimp only
  cases found : l.db.getFile relPath with
  | none =>
    rw [found] at row
    exact fun _ => ⟨row.symm,rows_removeFile l.db relPath⟩
  | some st =>
    dsimp only
    rw [if_neg (known st found)]
    exact fun _ => ⟨rfl,rows_removeFile l.db relPath⟩

theorem settleOp_succeeded (op : PendingOp) (out : Outcome × Local) (succeeded : out.1.succeeded = true) :
    (settleOp op out).2 = {out.2 with db := out.2.db.removeOp op.id} := by
  unfold settleOp
  split
  · rename_i threw
    rw [threw] at succeeded
    contradiction
  · rename_i err failed
    rw [failed] at succeeded
    contradiction
  · rfl

/-- What a processed operation leaves: the queue without it, and the rows of the others. -/
structure Worked (db after : LocalDb) (op : PendingOp) (before live : Bool) : Prop where
  setup : after.syncRoots = db.syncRoots ∧ after.nextOpId = db.nextOpId
  queue : after.pendingOps = db.pendingOps.filter (fun other => !decide (other.id = op.id))
  rows : Rows db after op.relPath live
  written : live = match opWrite op with
    | some write => write.2
    | none => before

theorem WhenAccepted.settled {l : Local} {op : PendingOp} {version : Int} {before value : Bool} {program : Exchange}
    (accepted : WhenAccepted version before (fun after live => live = value ∧ Rows l.db after.db op.relPath value) program)
    (setup : program.Ends fun out => SameSetup l.db out.2.db) (write : opWrite op = some (op.relPath,value)) :
    WhenAccepted version before (fun after live => Worked l.db after.db op before live) (program.bind fun out => .done (settleOp op out)) := by
  have same := setup.run (accepts version) before
  unfold WhenAccepted at accepted ⊢
  rw [Program.run_bind]
  generalize program.run (accepts version) before = out at accepted same ⊢
  intro succeeded
  change (settleOp op out.1).1.succeeded = true at succeeded
  rw [settleOp_outcome] at succeeded
  obtain ⟨kept,rows⟩ := accepted succeeded
  show Worked l.db (settleOp op out.1).2.db op before out.2
  rw [settleOp_succeeded op out.1 succeeded,kept]
  refine ⟨⟨same.syncRoots,same.nextOpId⟩,?_,⟨rows.others,rows.row,rows.known⟩,by rw [write]⟩
  show out.1.2.db.pendingOps.filter _ = _
  rw [same.pendingOps]

theorem processPendingOp_accepted (l : Local) (op : PendingOp) (io : UploadIo) (version : Int) (live : Bool)
    (row : (l.db.getFile op.relPath).isSome = live) (known : ∀ st ∈ l.db.getFile op.relPath, st.fileId ≠ [])
    (mapped : op.kind = .upload → absPathForRel plat.win l.db op.relPath ≠ none) :
    WhenAccepted version live (fun after now => Worked l.db after.db op live now) (processPendingOp plat dev l op io) := by
  unfold processPendingOp
  split
  · rename_i kind
    split
    · rename_i unmapped
      exact absurd unmapped (mapped kind)
    · rename_i abs _
      apply WhenAccepted.settled (uploadFile_accepted plat dev l op.relPath abs io version live row known)
        (uploadFile_setup plat dev l op.relPath abs io)
      rw [opWrite,kind]
  · rename_i kind
    apply WhenAccepted.settled (deleteRemote_accepted l op.relPath version live row known) (deleteRemote_setup l op.relPath)
    rw [opWrite,kind]
  · rename_i kind
    intro _
    have same := rows_same l.db op.relPath live row known
    refine ⟨⟨rfl,rfl⟩,rfl,⟨same.others,same.row,same.known⟩,?_⟩
    rw [opWrite,kind]
    rfl

/-- The first operation alone has its id. -/
theorem head_removed {op : PendingOp} {rest : List PendingOp} (ordered : (op::rest).Pairwise (fun a b => a.id < b.id)) :
    (op::rest).filter (fun other => !decide (other.id = op.id)) = rest := by
  rw [List.filter_cons_of_neg (by simp),List.filter_eq_self]
  intro other member
  have later := (List.pairwise_cons.mp ordered).1 other member
  simpa using Nat.ne_of_gt later

/-- The server and the queue after the first operation. -/
def Desk.processed (d : Desk) (here : Local) (key : Str) (live : Bool) : Desk :=
  {d with here := here,live := Function.update d.live key live}

theorem Desk.InStep.work {d : Desk} (inStep : d.InStep plat) (op : PendingOp) (rest : List PendingOp)
    (queued : d.here.db.pendingOps = op::rest) {after : Local} {live : Bool}
    (worked : Worked d.here.db after.db op (d.live op.relPath) live) : (d.processed after op.relPath live).InStep plat := by
  have roots : after.db.syncRoots = d.here.db.syncRoots := worked.setup.1
  have left : after.db.pendingOps = rest := by
    rw [worked.queue]
    show d.here.db.pendingOps.filter _ = rest
    rw [queued]
    exact head_removed (queued ▸ inStep.ordered)
  have member : ∀ other ∈ after.db.pendingOps, other ∈ d.here.db.pendingOps := by
    intro other inside
    rw [queued]
    exact List.mem_cons_of_mem _ (left ▸ inside)
  have effects : (d.processed after op.relPath live).effect plat = d.effect plat := effect_congr plat roots rfl
  have disk : ∀ key, (d.processed after op.relPath live).onDisk plat key = d.onDisk plat key := onDisk_congr plat roots rfl
  have keys : keyOf plat.win (d.processed after op.relPath live).here.db = keyOf plat.win d.here.db := keyOf_congr plat.win roots
  have decided : Library.settle (Function.update d.live op.relPath live) (after.db.pendingOps.filterMap opWrite) =
      Library.settle d.live (d.here.db.pendingOps.filterMap opWrite) := by
    rw [left,queued]
    cases write : opWrite op with
    | none =>
      have unchanged := worked.written
      rw [write] at unchanged
      rw [List.filterMap_cons_none write,unchanged,Function.update_eq_self]
    | some w =>
      have written := worked.written
      rw [write] at written
      rw [List.filterMap_cons_some write,settle_cons,written,opWrite_key write]
  constructor
  · intro key
    rw [disk,Desk.outcome,effects,← inStep.outcome key,Desk.outcome]
    show Library.settle (Library.settle (Function.update d.live op.relPath live) (after.db.pendingOps.filterMap opWrite)) _ key = _
    rw [decided]
    rfl
  · exact inStep.distinct
  · rw [keys]
    exact inStep.apart
  · intro key
    by_cases here : key = op.relPath
    · show _ = Function.update d.live op.relPath live key
      rw [here,Function.update_self]
      exact worked.rows.row
    · show _ = Function.update d.live op.relPath live key
      rw [Function.update_of_ne here,← inStep.rows key]
      exact congrArg Option.isSome (worked.rows.others key here)
  · intro key st found
    by_cases here : key = op.relPath
    · rw [here] at found
      exact worked.rows.known st found
    · exact inStep.known key st ((worked.rows.others key here) ▸ found)
  · show after.db.pendingOps.Pairwise _
    rw [left]
    exact (List.pairwise_cons.mp (queued ▸ inStep.ordered)).2
  · intro other inside
    show other.id < after.db.nextOpId
    rw [worked.setup.2]
    exact inStep.below other (member other inside)

/-! ### Runs -/

/-- Every change, delivery and processed operation that meets the condition keeps the way to what is on disk. -/
theorem Desk.InStep.step {d : Desk} (inStep : d.InStep plat) (next : Happening) (traceable : Traceable plat dev d next) :
    (d.step plat dev next).InStep plat := by
  cases next with
  | create path =>
    unfold Desk.step
    dsimp only
    split
    · rename_i unused
      exact inStep.create plat path unused traceable
    · exact inStep
  | touch path =>
    unfold Desk.step
    dsimp only
    split
    · exact inStep
    · rename_i e found
      exact inStep.touch plat e (Desk.find_some plat found).1
  | remove path =>
    unfold Desk.step
    dsimp only
    split
    · rename_i path found
      exact inStep.remove plat path (Desk.find_some plat found).1
    · exact inStep
  | makeDir path =>
    unfold Desk.step
    dsimp only
    split
    · rename_i unused
      exact inStep.makeDir plat path unused traceable
    · exact inStep
  | removeDir path =>
    unfold Desk.step
    dsimp only
    split
    · rename_i path found
      split
      · exact inStep
      · exact inStep.removeDir plat path (Desk.find_some plat found).1
    · exact inStep
  | move old new paired =>
    unfold Desk.step
    dsimp only
    split
    · rename_i spelled found
      split
      · exact inStep
      · rename_i unused
        apply inStep.move plat spelled new paired (Desk.find_some plat found).1 _ traceable.1
        · intro pairs
          exact traceable.2 pairs _ found
        · intro e member
          rw [← Bool.not_eq_true]
          intro same
          exact unused (List.any_eq_true.mpr ⟨e,member,same⟩)
    · exact inStep
  | moveDir old new paired => exact traceable.elim
  | deliver now =>
    unfold Desk.step
    dsimp only
    split
    · exact inStep
    · rename_i ev rest queued
      exact inStep.deliver plat ev rest queued now
  | work disk io version =>
    unfold Desk.step
    dsimp only
    split
    · exact inStep
    · rename_i op rest queued
      obtain ⟨succeeded,mapped⟩ := traceable op (by rw [queued]; rfl)
      apply inStep.work plat op rest queued
      exact processPendingOp_accepted plat dev {d.here with disk := disk} op io version (d.live op.relPath)
        (inStep.rows op.relPath) (inStep.known op.relPath) mapped succeeded

/-- Nothing is outstanding, and the server keeps the files on disk live. -/
structure Desk.Synced (d : Desk) : Prop where
  quiet : d.events = [] ∧ d.here.db.pendingOps = []
  agree : ∀ key, d.live key = d.onDisk plat key
  distinct : d.entries.Pairwise (fun a b => Desk.samePath plat a.path.1 b.path.1 = false)
  apart : ∀ e ∈ d.entries, ∀ other ∈ d.entries, ∀ key, keyOf plat.win d.here.db e.path.1 = some key →
    keyOf plat.win d.here.db other.path.1 = some key → other = e
  rows : ∀ key, (d.here.db.getFile key).isSome = d.live key
  known : ∀ key, ∀ st ∈ d.here.db.getFile key, st.fileId ≠ []

theorem Desk.Synced.inStep {d : Desk} (synced : d.Synced plat) : d.InStep plat where
  outcome := by
    intro key
    rw [Desk.outcome,synced.quiet.1,synced.quiet.2]
    exact synced.agree key
  distinct := synced.distinct
  apart := by
    intro e member other named key mine its
    rw [synced.quiet.1,List.map_nil,List.append_nil] at named
    obtain ⟨x,inside,rfl⟩ := List.mem_map.mp named
    rw [synced.apart e member x inside key mine its]
    exact Desk.samePath_self plat _
  rows := synced.rows
  known := synced.known
  ordered := by
    rw [synced.quiet.2]
    exact List.Pairwise.nil
  below := by
    rw [synced.quiet.2]
    exact fun ev member => absurd member List.not_mem_nil

/-- A device with one file, which is on the server. -/
def Desk.single (l : Local) (path : AbsPath) (st : LocalFileState) : Desk :=
  ⟨{l with db := l.db.upsertFile st},[⟨path,false⟩],[],fun key => decide (key = st.relPath)⟩

theorem Desk.single_synced (l : Local) (path : AbsPath) (st : LocalFileState) (unknown : ∀ key, l.db.getFile key = none)
    (idle : l.db.pendingOps = []) (known : st.fileId ≠ []) (named : keyOf plat.win l.db path.1 = some st.relPath) :
    (Desk.single l path st).Synced plat := by
  have rows := rows_upsertFile l.db st known
  constructor
  · exact ⟨rfl,idle⟩
  · intro key
    rw [Bool.eq_iff_iff,Desk.onDisk_iff]
    constructor
    · intro live
      refine ⟨⟨path,false⟩,List.mem_singleton_self _,rfl,named.trans ?_⟩
      rw [of_decide_eq_true live]
    · rintro ⟨e,member,-,its⟩
      rw [List.mem_singleton.mp member] at its
      exact decide_eq_true (Option.some.inj (its.symm.trans named))
  · exact List.pairwise_singleton _ _
  · intro e member other inside _ _ _
    rw [List.mem_singleton.mp member,List.mem_singleton.mp inside]
  · intro key
    by_cases here : key = st.relPath
    · rw [here]
      exact rows.row.trans (decide_eq_true rfl).symm
    · refine (congrArg Option.isSome (rows.others key here)).trans ?_
      rw [unknown]
      exact (decide_eq_false here).symm
  · intro key row found
    by_cases here : key = st.relPath
    · exact rows.known row (here ▸ found)
    · have same := (rows.others key here).trans (unknown key)
      exact nomatch same ▸ found

/-- In every run whose steps all meet the condition, the server ends with the files
on disk once all events are delivered and all operations processed. -/
theorem converges (d : Desk) (start : d.Synced plat) (happenings : List Happening)
    (guarded : Guarded (Desk.step plat dev) (Traceable plat dev) d happenings)
    (delivered : (run (Desk.step plat dev) d happenings).events = [])
    (processed : (run (Desk.step plat dev) d happenings).here.db.pendingOps = []) (key : Str) :
    (run (Desk.step plat dev) d happenings).live key = (run (Desk.step plat dev) d happenings).onDisk plat key := by
  have inStep := run_invariant (Desk.step plat dev) (Traceable plat dev) (fun d => d.InStep plat)
    (fun d next before traceable => before.step plat dev next traceable) d happenings start.inStep guarded
  have outcome := inStep.outcome key
  rw [Desk.outcome,delivered,processed] at outcome
  exact outcome

/-- The operations are processed successfully; nothing is said of the changes. -/
def Processes (d : Desk) : Happening → Prop
  | .work disk io version => ∀ op ∈ d.here.db.pendingOps.head?, Processed plat dev d op disk io version
  | _ => True

instance (d : Desk) (op : PendingOp) (disk : Disk) (io : UploadIo) (version : Int) : Decidable (Processed plat dev d op disk io version) :=
  inferInstanceAs (Decidable (_ ∧ (_ → ¬_ = none)))

instance (d : Desk) (path : WStr) : Decidable (KeyFree plat d path) :=
  inferInstanceAs (Decidable (∀ other ∈ _,∀ key ∈ keyOf plat.win d.here.db path,_ → _))

instance (d : Desk) (old new : WStr) : Decidable (KeepsKey plat d old new) := inferInstanceAs (Decidable (_ ∨ _))

instance (d : Desk) (next : Happening) : Decidable (Traceable plat dev d next) :=
  match next with
  | .create path | .makeDir path => inferInstanceAs (Decidable (KeyFree plat d path.1))
  | .move old new _ =>
    inferInstanceAs (Decidable (KeyFree plat d new.1 ∧ (_ → ∀ e ∈ d.find plat old.1,KeepsKey plat d e.path.1 new.1)))
  | .moveDir _ _ _ => .isFalse id
  | .work _ _ _ => inferInstanceAs (Decidable (∀ op ∈ d.here.db.pendingOps.head?,_))
  | .touch _ | .remove _ | .removeDir _ | .deliver _ => .isTrue trivial

instance (d : Desk) (next : Happening) : Decidable (Processes plat dev d next) :=
  match next with
  | .work _ _ _ => inferInstanceAs (Decidable (∀ op ∈ d.here.db.pendingOps.head?,_))
  | .create _ | .makeDir _ | .move _ _ _ | .moveDir _ _ _ | .touch _ | .remove _ | .removeDir _ | .deliver _ => .isTrue trivial

end
section
open KnownAnswers

private def notesPath : AbsPath := ⟨wlit "C:\\notes\\notes.txt",by decide⟩
private def oldPath : AbsPath := ⟨wlit "C:\\notes\\old.txt",by decide⟩

private def helloOnDisk : Disk := ⟨Table.empty.upsert (wlit "c:\\notes\\notes.txt") (lit "hello"),[]⟩

private def fileDraws : Random := ⟨nonceOf 1,nonceOf 2,uuidOf 17⟩

private def fileIo : UploadIo := ⟨true,.replaced,fileDraws,fileDraws,true,true,.replaced,⟨0,true⟩,.replaced,.replaced,0⟩

/-- The folder `C:\\notes` without files. -/
private def emptyDesk : Desk :=
  ⟨⟨LocalDb.empty.addSyncRoot ascii (lit "root") (wlit "C:\\notes") true,⟨.empty,[]⟩,.empty,[],true⟩,[],[],fun _ => false⟩

private theorem emptyDesk_synced : emptyDesk.Synced platform :=
  ⟨⟨rfl,rfl⟩,fun _ => rfl,List.Pairwise.nil,nofun,fun _ => rfl,nofun⟩

/-- A file is created and uploaded. -/
private def createAndWork : List Happening := [.create notesPath,.deliver 0,.work helloOnDisk fileIo 1]

theorem created_file_converges : (run (Desk.step platform laptop) emptyDesk createAndWork).live (lit "root:notes.txt") = true ∧
    ∀ key, (run (Desk.step platform laptop) emptyDesk createAndWork).live key =
      (run (Desk.step platform laptop) emptyDesk createAndWork).onDisk platform key := by
  have facts : Guarded (Desk.step platform laptop) (Traceable platform laptop) emptyDesk createAndWork ∧
      (run (Desk.step platform laptop) emptyDesk createAndWork).events = [] ∧
      (run (Desk.step platform laptop) emptyDesk createAndWork).here.db.pendingOps = [] ∧
      (run (Desk.step platform laptop) emptyDesk createAndWork).live (lit "root:notes.txt") = true := by
    decide +kernel
  exact ⟨facts.2.2.2,converges platform laptop emptyDesk emptyDesk_synced createAndWork facts.1 facts.2.1 facts.2.2.1⟩

private def oldRow : LocalFileState := {notesRow 1 with relPath := lit "root:old.txt"}

/-- A file is renamed within the folder, and the worker processes all that the watcher's events queue. -/
private def renameAndWork : List Happening := [.move oldPath notesPath true,.deliver 0,.deliver 0,.work helloOnDisk fileIo 1]

/-- The old name survives the rename on the server. -/
theorem renamed_file_stays_live : ∃ start : Desk, start.Synced platform ∧ ∃ happenings,
    Guarded (Desk.step platform laptop) (Processes platform laptop) start happenings ∧
      (run (Desk.step platform laptop) start happenings).events = [] ∧
      (run (Desk.step platform laptop) start happenings).here.db.pendingOps = [] ∧
      ¬∀ key, (run (Desk.step platform laptop) start happenings).live key =
        (run (Desk.step platform laptop) start happenings).onDisk platform key := by
  have facts : Guarded (Desk.step platform laptop) (Processes platform laptop) (Desk.single emptyDesk.here oldPath oldRow) renameAndWork ∧
      (run (Desk.step platform laptop) (Desk.single emptyDesk.here oldPath oldRow) renameAndWork).events = [] ∧
      (run (Desk.step platform laptop) (Desk.single emptyDesk.here oldPath oldRow) renameAndWork).here.db.pendingOps = [] ∧
      (run (Desk.step platform laptop) (Desk.single emptyDesk.here oldPath oldRow) renameAndWork).live (lit "root:old.txt") = true ∧
      (run (Desk.step platform laptop) (Desk.single emptyDesk.here oldPath oldRow) renameAndWork).onDisk platform (lit "root:old.txt") = false := by
    decide +kernel
  have synced : (Desk.single emptyDesk.here oldPath oldRow).Synced platform :=
    Desk.single_synced platform emptyDesk.here oldPath oldRow (fun _ => rfl) rfl (by decide) (by decide)
  refine ⟨_,synced,renameAndWork,facts.1,facts.2.1,facts.2.2.1,?_⟩
  exact fun same => Bool.noConfusion (facts.2.2.2.1.symm.trans ((same _).trans facts.2.2.2.2))

end

end NPSync.Engine
