import Mathlib.Data.List.Basic
import NPSync.Library.Table

/-! Names over numbered files, and the system calls that change them. A handle is the
number of a file: it stays good when the name goes to another file or away. -/
namespace NPSync.Library

inductive Node where
  | directory
  | file (number : Nat)
  deriving DecidableEq

structure Volume (P B : Type) where
  names : Table P Node
  contents : Table Nat (List B)
  next : Nat

inductive SysCall (P B : Type) where
  | stat (path : P)
  | mkdirAll (parents : List P)
  | createTemp (dir : P) (name : Nat → P)
  | copy (handle : Nat) (data : List B)
  | sync (handle : Nat)
  | close (handle : Nat)
  | rename (old new : P)
  | remove (path : P)
  | openFile (path : P)
  | size (handle : Nat)
  | read (handle : Nat)

/-- What a call on a name finds. -/
inductive Found (X : Type) where
  | found (value : X)
  | missing
  | failed
  deriving DecidableEq

/-- What one call meets: whether it fails, how far it gets before that, and the number
that a temporary name is made of. -/
structure SysEnv where
  fails : Bool
  reached : Nat
  random : Nat

namespace SysCall

@[reducible] def Result {P B : Type} : SysCall P B → Type
  | .stat _ | .mkdirAll _ | .copy .. | .sync _ | .close _ | .rename .. => Bool
  | .createTemp .. => Option (Nat × P)
  | .remove _ => Found Unit
  | .openFile _ => Found Nat
  | .size _ => Option Nat
  | .read _ => Option (List B)

end SysCall

namespace Volume
variable {P B : Type} [DecidableEq P]

/-- The content of the file of this name. -/
def fileAt (v : Volume P B) (path : P) : Option (List B) :=
  match v.names.get path with
  | some (.file number) => v.contents.get number
  | some .directory | none => none

/-- `MkdirAll`, outermost directory first; it ends at a file. -/
def makeDirs (v : Volume P B) : List P → Bool × Volume P B
  | [] => (true,v)
  | path::rest =>
    match v.names.get path with
    | some .directory => v.makeDirs rest
    | some (.file _) => (false,v)
    | none => {v with names := v.names.upsert path .directory}.makeDirs rest

def append (v : Volume P B) (number : Nat) (data : List B) : Volume P B :=
  match v.contents.get number with
  | some old => {v with contents := v.contents.upsert number (old ++ data)}
  | none => v

def mkdirAll (v : Volume P B) (env : SysEnv) (parents : List P) : Bool × Volume P B :=
  if env.fails then (false,(v.makeDirs (parents.take env.reached)).2) else v.makeDirs parents

def createTemp (v : Volume P B) (env : SysEnv) (dir path : P) : Option (Nat × P) × Volume P B :=
  if env.fails ∨ v.names.get dir ≠ some .directory ∨ (v.names.get path).isSome then (none,v)
  else (some (v.next,path),⟨v.names.upsert path (.file v.next),v.contents.upsert v.next [],v.next + 1⟩)

def rename (v : Volume P B) (env : SysEnv) (old new : P) : Bool × Volume P B :=
  if env.fails ∨ v.names.get new = some .directory then (false,v)
  else match v.names.get old with
    | some (.file number) => (true,{v with names := (v.names.remove old).upsert new (.file number)})
    | some .directory | none => (false,v)

/-- A directory can be removed when nothing is inside. -/
def remove (inside : P → P → Bool) (v : Volume P B) (env : SysEnv) (path : P) : Found Unit × Volume P B :=
  if env.fails then (.failed,v)
  else match v.names.get path with
    | none => (.missing,v)
    | some (.file _) => (.found (),{v with names := v.names.remove path})
    | some .directory =>
      if v.names.rows.any (fun row => inside path row.1) then (.failed,v)
      else (.found (),{v with names := v.names.remove path})

/-- A directory opens and then it cannot be read, which here is a failure to open. -/
def openFile (v : Volume P B) (env : SysEnv) (path : P) : Found Nat :=
  if env.fails then .failed
  else match v.names.get path with
    | none => .missing
    | some (.file number) => .found number
    | some .directory => .failed

/-- One call. -/
def exec (inside : P → P → Bool) (env : SysEnv) (v : Volume P B) : (call : SysCall P B) → call.Result × Volume P B
  | .stat path => (!env.fails && (v.names.get path).isSome,v)
  | .mkdirAll parents => v.mkdirAll env parents
  | .createTemp dir name => v.createTemp env dir (name env.random)
  | .copy handle data => if env.fails then (false,v.append handle (data.take env.reached)) else (true,v.append handle data)
  | .sync _ | .close _ => (!env.fails,v)
  | .rename old new => v.rename env old new
  | .remove path => remove inside v env path
  | .openFile path => (v.openFile env path,v)
  | .size handle => (if env.fails then none else (v.contents.get handle).map List.length,v)
  | .read handle => (if env.fails then none else v.contents.get handle,v)

theorem fileAt_eq {v : Volume P B} {path : P} {number : Nat} (named : v.names.get path = some (.file number)) :
    v.fileAt path = v.contents.get number := by
  rw [fileAt,named]

/-! ### What a call leaves -/

/-- Directories are only added, and only where there was nothing. -/
structure DirsAdded (before after : Volume P B) (parents : List P) : Prop where
  contents : after.contents = before.contents
  next : after.next = before.next
  names : ∀ path, after.names.get path = before.names.get path ∨
    (path ∈ parents ∧ before.names.get path = none ∧ after.names.get path = some .directory)

theorem makeDirs_adds (v : Volume P B) (parents : List P) : DirsAdded v (v.makeDirs parents).2 parents := by
  induction parents generalizing v with
  | nil => exact ⟨rfl,rfl,fun _ => .inl rfl⟩
  | cons first rest ih =>
    rw [makeDirs]
    split
    · exact ⟨(ih v).contents,(ih v).next,fun path => (ih v).names path |>.imp_right fun new => ⟨List.mem_cons_of_mem _ new.1,new.2⟩⟩
    · exact ⟨rfl,rfl,fun _ => .inl rfl⟩
    · rename_i free
      have more := ih {v with names := v.names.upsert first .directory}
      refine ⟨more.contents,more.next,fun path => ?_⟩
      rcases more.names path with same | ⟨member,absent,added⟩
      · rw [same,Table.get_upsert]
        split
        · rename_i here
          rw [here]
          exact .inr ⟨List.mem_cons_self,free,rfl⟩
        · exact .inl rfl
      · rw [Table.get_upsert] at absent
        split at absent
        · contradiction
        · exact .inr ⟨List.mem_cons_of_mem _ member,absent,added⟩

theorem DirsAdded.file_iff {before after : Volume P B} {parents : List P} (added : DirsAdded before after parents) (path : P)
    (number : Nat) : after.names.get path = some (.file number) ↔ before.names.get path = some (.file number) := by
  rcases added.names path with same | ⟨-,absent,new⟩
  · rw [same]
  · rw [absent,new]
    simp

theorem DirsAdded.fileAt {before after : Volume P B} {parents : List P} (added : DirsAdded before after parents) (path : P) :
    after.fileAt path = before.fileAt path := by
  unfold Volume.fileAt
  rcases added.names path with same | ⟨-,absent,new⟩
  · rw [same,added.contents]
  · rw [absent,new]

theorem mkdirAll_adds (v : Volume P B) (env : SysEnv) (parents : List P) : DirsAdded v (v.mkdirAll env parents).2 parents := by
  unfold mkdirAll
  split
  · have added := v.makeDirs_adds (parents.take env.reached)
    exact ⟨added.contents,added.next,fun path => (added.names path).imp_right fun new => ⟨List.mem_of_mem_take new.1,new.2⟩⟩
  · exact v.makeDirs_adds parents

omit [DecidableEq P] in
theorem append_contents (v : Volume P B) (number other : Nat) (data : List B) :
    (v.append number data).contents.get other =
      if other = number then (v.contents.get number).map (· ++ data) else v.contents.get other := by
  unfold append
  split
  · rename_i old held
    rw [Table.get_upsert,held]
    rfl
  · rename_i missing
    split
    · rename_i here
      rw [here,missing]
      rfl
    · rfl

omit [DecidableEq P] in
@[simp] theorem append_names (v : Volume P B) (number : Nat) (data : List B) : (v.append number data).names = v.names := by
  unfold append
  split
  · rfl
  · rfl

omit [DecidableEq P] in
@[simp] theorem append_next (v : Volume P B) (number : Nat) (data : List B) : (v.append number data).next = v.next := by
  unfold append
  split
  · rfl
  · rfl

/-- A temporary file that was made is new and empty. -/
theorem createTemp_made {env : SysEnv} {v : Volume P B} {dir path made : P} {handle : Nat}
    (created : (v.createTemp env dir path).1 = some (handle,made)) : handle = v.next ∧ made = path ∧ v.names.get path = none ∧
      (v.createTemp env dir path).2 = ⟨v.names.upsert path (.file v.next),v.contents.upsert v.next [],v.next + 1⟩ := by
  unfold createTemp at created ⊢
  split at created
  · contradiction
  · rename_i free
    obtain ⟨rfl,rfl⟩ := Prod.mk.inj (Option.some.inj created)
    rw [if_neg free]
    have absent := (not_or.mp (not_or.mp free).2).2
    exact ⟨rfl,rfl,by simpa using absent,rfl⟩

theorem createTemp_failed {env : SysEnv} {v : Volume P B} {dir path : P} (refused : (v.createTemp env dir path).1 = none) :
    (v.createTemp env dir path).2 = v := by
  unfold createTemp at refused ⊢
  split
  · rfl
  · rename_i free
    rw [if_neg free] at refused
    contradiction

/-- A rename moves the file of the old name to the new one. -/
theorem rename_moved {env : SysEnv} {v : Volume P B} {old new : P} (moved : (v.rename env old new).1 = true) :
    ∃ number, v.names.get old = some (.file number) ∧ v.names.get new ≠ some .directory ∧
      (v.rename env old new).2 = {v with names := (v.names.remove old).upsert new (.file number)} := by
  unfold rename at moved ⊢
  split at moved
  · contradiction
  rename_i free
  rw [if_neg free]
  split at moved
  · rename_i number named
    rw [named]
    exact ⟨number,rfl,(not_or.mp free).2,rfl⟩
  · contradiction
  · contradiction

theorem rename_failed {env : SysEnv} {v : Volume P B} {old new : P} (failed : (v.rename env old new).1 = false) :
    (v.rename env old new).2 = v := by
  unfold rename at failed ⊢
  split at failed
  · rename_i refused
    rw [if_pos refused]
  rename_i free
  rw [if_neg free]
  split at failed
  · contradiction
  · rfl
  · rfl

/-- Only names change, and of these the removed one alone. -/
structure NameGone (before after : Volume P B) (path : P) (gone : Prop) : Prop where
  contents : after.contents = before.contents
  next : after.next = before.next
  others : ∀ other, other ≠ path → after.names.get other = before.names.get other
  removed : gone → after.names.get path = none
  kept : ¬gone → after.names.get path = before.names.get path

theorem NameGone.file {before after : Volume P B} {path other : P} {gone : Prop} {number : Nat} (removed : NameGone before after path gone)
    (named : after.names.get other = some (.file number)) : before.names.get other = some (.file number) := by
  by_cases here : other = path
  · subst here
    by_cases away : gone
    · rw [removed.removed away] at named
      contradiction
    · rwa [removed.kept away] at named
  · rwa [removed.others other here] at named

theorem remove_gone (inside : P → P → Bool) (env : SysEnv) (v : Volume P B) (path : P) :
    NameGone v (remove inside v env path).2 path ((remove inside v env path).1 = .found ()) := by
  have took : NameGone v {v with names := v.names.remove path} path (Found.found () = Found.found ()) :=
    ⟨rfl,rfl,fun other different => Table.get_remove_other v.names path other different,
      fun _ => Table.get_remove_same v.names path,fun kept => absurd rfl kept⟩
  have stays : ∀ out : Found Unit, out ≠ .found () → NameGone v v path (out = .found ()) := fun out other =>
    ⟨rfl,rfl,fun _ _ => rfl,fun gone => absurd gone other,fun _ => rfl⟩
  unfold remove
  split
  · exact stays _ (by simp)
  split
  · exact stays _ (by simp)
  · exact took
  · split
    · exact stays _ (by simp)
    · exact took

theorem remove_kept {inside : P → P → Bool} {env : SysEnv} {v : Volume P B} {path : P}
    (kept : (remove inside v env path).1 ≠ .found ()) : (remove inside v env path).2 = v := by
  unfold remove at kept ⊢
  split
  · rfl
  rename_i works
  rw [if_neg works] at kept
  split
  · rfl
  · rename_i named
    rw [named] at kept
    exact absurd rfl kept
  · rename_i named
    rw [named] at kept
    split
    · rfl
    · rename_i empty
      dsimp only at kept
      rw [if_neg empty] at kept
      exact absurd rfl kept

/-- A name that is missing was not there. -/
theorem remove_missing {inside : P → P → Bool} {env : SysEnv} {v : Volume P B} {path : P}
    (missing : (remove inside v env path).1 = .missing) : v.names.get path = none := by
  unfold remove at missing
  split at missing
  · contradiction
  split at missing
  · rename_i absent
    exact absent
  · contradiction
  · split at missing
    · contradiction
    · contradiction

theorem openFile_found {env : SysEnv} {v : Volume P B} {path : P} {handle : Nat} (opened : v.openFile env path = .found handle) :
    v.names.get path = some (.file handle) := by
  unfold openFile at opened
  split at opened
  · contradiction
  split at opened
  · contradiction
  · rename_i number named
    rw [named,Found.found.inj opened]
  · contradiction

theorem openFile_missing {env : SysEnv} {v : Volume P B} {path : P} (missing : v.openFile env path = .missing) :
    v.names.get path = none := by
  unfold openFile at missing
  split at missing
  · contradiction
  split at missing
  · rename_i absent
    exact absent
  · contradiction
  · contradiction

end Volume
end NPSync.Library
