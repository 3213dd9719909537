import Mathlib
import NPSync.Library.FileSystem
import NPSync.Library.Lifetimes
import NPSync.Server.BlobPaths

/-! `FS.Put`, `FS.Get` and `FS.Delete` of `blob/fs.go` as programs of system calls, beside
the blob calls of `exec`: whatever runs at the same time, fails or dies, a blob is there
whole or not at all. -/
namespace NPSync.Server
open Library

abbrev FsCall := SysCall Str UInt8
abbrev FsEvent := Event FsCall SysCall.Result

inductive BlobRequest where
  | put (key : Str) (content : Bytes)
  | get (key : Str)
  | delete (key : Str)

inductive BlobAnswer where
  | stored (ok : Bool)
  | read (found : BlobRead)
  | deleted (ok : Bool)

abbrev FsProgram := Program FsCall SysCall.Result BlobAnswer

namespace FS

/-- The deferred `os.Remove`. -/
def cleanUp (tmpName : Str) (ok : Bool) : FsProgram := .call (.remove tmpName) fun _ => .done (.stored ok)

/-- `Put` from the new temporary file on. -/
def publish (path : Str) (content : Bytes) (tmp : Nat) (tmpName : Str) : FsProgram :=
  .call (.copy tmp content) fun copied =>
    if !copied then .call (.close tmp) fun _ => cleanUp tmpName false
    else .call (.sync tmp) fun synced =>
      if !synced then .call (.close tmp) fun _ => cleanUp tmpName false
      else .call (.close tmp) fun closed =>
        if !closed then cleanUp tmpName false
        else .call (.rename tmpName path) fun renamed => cleanUp tmpName renamed

def put (dir key : Str) (content : Bytes) : FsProgram :=
  match blobPath dir key with
  | none => .done (.stored false)
  | some path => .call (.stat path) fun present =>
    if present then .done (.stored true)
    else .call (.mkdirAll (parents (filepathDir path))) fun made =>
      if !made then .done (.stored false)
      else .call (.createTemp (filepathDir path) (tempName (filepathDir path))) fun
        | none => .done (.stored false)
        | some (tmp,tmpName) => publish path content tmp tmpName

/-- `Get`, and what `readBlob` reads. -/
def get (dir key : Str) : FsProgram :=
  match blobPath dir key with
  | none => .done (.read .failed)
  | some path => .call (.openFile path) fun
    | .missing => .done (.read .missing)
    | .failed => .done (.read .failed)
    | .found file => .call (.size file) fun
      | none => .call (.close file) fun _ => .done (.read .failed)
      | some _ => .call (.read file) fun
        | none => .call (.close file) fun _ => .done (.read .failed)
        | some content => .call (.close file) fun _ => .done (.read (.found content))

def delete (dir key : Str) : FsProgram :=
  match blobPath dir key with
  | none => .done (.deleted false)
  | some path => .call (.remove path) fun
    | .found _ | .missing => .done (.deleted true)
    | .failed => .done (.deleted false)

end FS

def serveBlob (dir : Str) : BlobRequest → FsProgram
  | .put key content => FS.put dir key content
  | .get key => FS.get dir key
  | .delete key => FS.delete dir key

/-- A name is inside a directory. -/
def insideDir (dir path : Str) : Bool := (dir ++ lit "/").isPrefixOf path

abbrev BlobVolume := Volume Str UInt8
abbrev BlobLedger := Ledger BlobVolume FsCall SysCall.Result BlobAnswer BlobRequest
abbrev BlobEntry := Entry BlobVolume FsCall SysCall.Result BlobRequest
abbrev BlobMove := Move BlobRequest SysEnv

def blobRun (dir : Str) (v : BlobVolume) (moves : List BlobMove) : BlobLedger :=
  Ledger.life (serveBlob dir) (Volume.exec insideDir) v moves

/-! ### The call of `exec` that a system call stands for -/

/-- Where a request takes effect. -/
def pointOf : BlobRequest → FsEvent → Option Call
  | .put key content,⟨.stat _,true⟩ => some (.putBlob key content)
  | .put key content,⟨.rename ..,true⟩ => some (.putBlob key content)
  | .get key,⟨.openFile _,.found _⟩ => some (.getBlob key)
  | .get key,⟨.openFile _,.missing⟩ => some (.getBlob key)
  | .delete key,⟨.remove _,.found _⟩ => some (.deleteBlob key)
  | .delete key,⟨.remove _,.missing⟩ => some (.deleteBlob key)
  | _,_ => none

def replayPoint (s : State) : Option Call → State
  | some call => (exec false s call).2
  | none => s

/-- The state as `exec` has it after the system calls of a history. -/
def replayBlobs (s : State) (history : List BlobEntry) : State :=
  history.foldl (fun s entry => replayPoint s (pointOf entry.request entry.event)) s

/-- What a request that ended so has done; a read that failed may have come that far. -/
def Effects : BlobRequest → BlobAnswer → List Call → Prop
  | .put key content,.stored true,calls => calls = [.putBlob key content]
  | .put ..,.stored false,calls => calls = []
  | .get key,.read .failed,calls => calls = [] ∨ calls = [.getBlob key]
  | .get key,.read _,calls => calls = [.getBlob key]
  | .delete key,.deleted true,calls => calls = [.deleteBlob key]
  | .delete _,.deleted false,calls => calls = []
  | _,_,_ => False

/-! ### The temporary file of a request -/

/-- How far a request has come with its temporary file. -/
inductive Stage where
  | idle
  | opened (handle : Nat) (name : Str)
  | full (handle : Nat) (name : Str)
  | broken (name : Str)
  | moved (name : Str)
  | cleared

def Stage.name : Stage → Option Str
  | .idle | .cleared => none
  | .opened _ name | .full _ name | .broken name | .moved name => some name

def Stage.step : Stage → FsEvent → Stage
  | _,⟨.createTemp ..,some (handle,name)⟩ => .opened handle name
  | .opened handle name,⟨.copy ..,true⟩ => .full handle name
  | .opened _ name,⟨.copy ..,false⟩ => .broken name
  | .full _ name,⟨.rename ..,true⟩ => .moved name
  | .idle,_ => .idle
  | _,⟨.remove _,_⟩ => .cleared
  | stage,_ => stage

def stageOf (log : List FsEvent) : Stage := log.foldl Stage.step .idle

@[simp] theorem stageOf_nil : stageOf [] = .idle := rfl

@[simp] theorem stageOf_append (log more : List FsEvent) : stageOf (log ++ more) = more.foldl Stage.step (stageOf log) :=
  List.foldl_append

/-- The calls a request makes, by the calls it has made. -/
def BlobAllowed (dir : Str) : BlobRequest → List FsEvent → FsCall → Prop
  | .put key _,log,.stat path => log = [] ∧ blobPath dir key = some path
  | .put key _,log,.mkdirAll dirs => stageOf log = .idle ∧ ∃ path, blobPath dir key = some path ∧ dirs = parents (filepathDir path)
  | .put key _,log,.createTemp inside name => stageOf log = .idle ∧
    ∃ path, blobPath dir key = some path ∧ inside = filepathDir path ∧ name = tempName inside
  | .put _ content,log,.copy handle data => (∃ name, stageOf log = .opened handle name) ∧ data = content
  | .put key _,log,.rename old new => (∃ handle, stageOf log = .full handle old) ∧ blobPath dir key = some new
  | .put ..,log,.remove name => (stageOf log).name = some name
  | .put ..,_,.sync _ | .put ..,_,.close _ => True
  | .get key,log,.openFile path => log = [] ∧ blobPath dir key = some path
  | .get _,log,.size handle => ∃ path, log = [⟨.openFile path,.found handle⟩]
  | .get _,log,.read handle => ∃ path size, log = [⟨.openFile path,.found handle⟩,⟨.size handle,some size⟩]
  | .get _,_,.close _ => True
  | .delete key,log,.remove path => log = [] ∧ blobPath dir key = some path
  | _,_,_ => False

/-- What an answered request has logged. -/
def BlobAnswered (request : BlobRequest) (log : List FsEvent) (answer : BlobAnswer) : Prop :=
  Effects request answer (log.filterMap (pointOf request)) ∧
    match answer with
    | .read (.found content) => ∃ handle path, ⟨.openFile path,.found handle⟩ ∈ log ∧ ⟨.read handle,some content⟩ ∈ log
    | .read .missing => ∃ path, ⟨.openFile path,.missing⟩ ∈ log
    | _ => True

/-! ### What the programs keep to -/

section
variable {dir key path : Str} {content : Bytes}

theorem cleanUp_keeps {log : List FsEvent} {name : Str} (named : (stageOf log).name = some name) (ok : Bool) :
    (FS.cleanUp name ok).Keeps (BlobAllowed dir (.put key content)) log := ⟨named,fun _ => trivial⟩

theorem publish_keeps (placed : blobPath dir key = some path) {log : List FsEvent} {tmp : Nat} {name : Str}
    (stage : stageOf log = .opened tmp name) :
    (FS.publish path content tmp name).Keeps (BlobAllowed dir (.put key content)) log := by
  refine ⟨⟨⟨name,stage⟩,rfl⟩,fun copied => ?_⟩
  cases copied with
  | false => exact ⟨trivial,fun _ => cleanUp_keeps (by simp [stage,Stage.step,Stage.name]) false⟩
  | true =>
    refine ⟨trivial,fun synced => ?_⟩
    cases synced with
    | false => exact ⟨trivial,fun _ => cleanUp_keeps (by simp [stage,Stage.step,Stage.name]) false⟩
    | true =>
      refine ⟨trivial,fun closed => ?_⟩
      cases closed with
      | false => exact cleanUp_keeps (by simp [stage,Stage.step,Stage.name]) false
      | true =>
        refine ⟨⟨⟨tmp,by simp [stage,Stage.step]⟩,placed⟩,fun renamed => ?_⟩
        cases renamed with
        | false => exact cleanUp_keeps (by simp [stage,Stage.step,Stage.name]) false
        | true => exact cleanUp_keeps (by simp [stage,Stage.step,Stage.name]) true

theorem serveBlob_keeps (dir : Str) (request : BlobRequest) : (serveBlob dir request).Keeps (BlobAllowed dir request) [] := by
  cases request with
  | put key content =>
    rw [serveBlob,FS.put]
    cases placed : blobPath dir key with
    | none => trivial
    | some path =>
      refine ⟨⟨rfl,placed⟩,fun present => ?_⟩
      cases present with
      | true => trivial
      | false =>
        refine ⟨⟨rfl,path,placed,rfl⟩,fun made => ?_⟩
        cases made with
        | false => trivial
        | true =>
          refine ⟨⟨rfl,path,placed,rfl,rfl⟩,fun created => ?_⟩
          cases created with
          | none => trivial
          | some file => exact publish_keeps placed rfl
  | get key =>
    rw [serveBlob,FS.get]
    cases placed : blobPath dir key with
    | none => trivial
    | some path =>
      refine ⟨⟨rfl,placed⟩,fun opened => ?_⟩
      cases opened with
      | missing => trivial
      | failed => trivial
      | found file =>
        refine ⟨⟨path,rfl⟩,fun size => ?_⟩
        cases size with
        | none => exact ⟨trivial,fun _ => trivial⟩
        | some size =>
          refine ⟨⟨path,size,rfl⟩,fun content => ?_⟩
          cases content with
          | none => exact ⟨trivial,fun _ => trivial⟩
          | some content => exact ⟨trivial,fun _ => trivial⟩
  | delete key =>
    rw [serveBlob,FS.delete]
    cases placed : blobPath dir key with
    | none => trivial
    | some path =>
      refine ⟨⟨rfl,placed⟩,fun removed => ?_⟩
      cases removed with
      | found gone => trivial
      | missing => trivial
      | failed => trivial

theorem cleanUp_answers {log : List FsEvent} {name : Str} (ok : Bool)
    (points : log.filterMap (pointOf (.put key content)) = if ok then [.putBlob key content] else []) :
    (FS.cleanUp name ok).Answers (BlobAnswered (.put key content)) log := by
  intro gone
  refine ⟨?_,trivial⟩
  have none_ : pointOf (.put key content) ⟨.remove name,gone⟩ = none := rfl
  rw [List.filterMap_append,List.filterMap_cons_none none_,List.filterMap_nil,List.append_nil]
  cases ok with
  | false => exact points
  | true => exact points

theorem publish_answers {log : List FsEvent} {tmp : Nat} {name : Str} (points : log.filterMap (pointOf (.put key content)) = []) :
    (FS.publish path content tmp name).Answers (BlobAnswered (.put key content)) log := by
  intro copied
  cases copied with
  | false => exact fun _ => cleanUp_answers false (by simp [points,pointOf])
  | true =>
    intro synced
    cases synced with
    | false => exact fun _ => cleanUp_answers false (by simp [points,pointOf])
    | true =>
      intro closed
      cases closed with
      | false => exact cleanUp_answers false (by simp [points,pointOf])
      | true =>
        intro renamed
        cases renamed with
        | false => exact cleanUp_answers false (by simp [points,pointOf])
        | true =>
          apply cleanUp_answers true
          simp only [List.filterMap_append,points]
          rfl

theorem serveBlob_answers (dir : Str) (request : BlobRequest) : (serveBlob dir request).Answers (BlobAnswered request) [] := by
  cases request with
  | put key content =>
    rw [serveBlob,FS.put]
    cases blobPath dir key with
    | none => exact ⟨rfl,trivial⟩
    | some path =>
      intro present
      cases present with
      | true => exact ⟨rfl,trivial⟩
      | false =>
        intro made
        cases made with
        | false => exact ⟨rfl,trivial⟩
        | true =>
          intro created
          cases created with
          | none => exact ⟨rfl,trivial⟩
          | some file => exact publish_answers rfl
  | get key =>
    rw [serveBlob,FS.get]
    cases blobPath dir key with
    | none => exact ⟨.inl rfl,trivial⟩
    | some path =>
      intro opened
      cases opened with
      | missing => exact ⟨rfl,path,List.mem_singleton.mpr rfl⟩
      | failed => exact ⟨.inl rfl,trivial⟩
      | found file =>
        intro size
        cases size with
        | none => exact fun _ => ⟨.inr rfl,trivial⟩
        | some size =>
          intro content
          cases content with
          | none => exact fun _ => ⟨.inr rfl,trivial⟩
          | some content => exact fun _ => ⟨rfl,file,path,by simp,by simp⟩
  | delete key =>
    rw [serveBlob,FS.delete]
    cases blobPath dir key with
    | none => exact ⟨rfl,trivial⟩
    | some path =>
      intro removed
      cases removed with
      | found gone => exact ⟨rfl,trivial⟩
      | missing => exact ⟨rfl,trivial⟩
      | failed => exact ⟨rfl,trivial⟩

end

/-! ### What one system call does -/

def tempOf : FsEvent → Option Str
  | ⟨.createTemp ..,some (_,name)⟩ => some name
  | _ => none

def IsTemp (name : Str) : Prop := ∃ inside random, name = tempName inside random

/-- A key of the server, and the content that belongs to it. -/
def BlobAsked (text : Str → Bytes) : BlobRequest → Prop
  | .put key content => isHex64 key = true ∧ content = text key
  | .get key | .delete key => isHex64 key = true

/-- The volume holds the blobs of `s`, each whole in a file of its own. -/
structure Tidy (dir : Str) (text : Str → Bytes) (v : BlobVolume) (s : State) : Prop where
  files : ∀ path number, v.names.get path = some (.file number) → number < v.next
  single : ∀ path other number, v.names.get path = some (.file number) → v.names.get other = some (.file number) → path = other
  free : ∀ key path, isHex64 key = true → blobPath dir key = some path → v.names.get path ≠ some .directory
  blobs : ∀ key path, isHex64 key = true → blobPath dir key = some path → v.fileAt path = s.blobs.get key
  whole : ∀ key path, isHex64 key = true → blobPath dir key = some path → v.names.get path ≠ none → v.fileAt path = some (text key)

/-- The temporary file of a request is its own, and holds what was written. -/
def Owns (v : BlobVolume) : BlobRequest → Stage → Prop
  | .put _ _,.opened handle name => v.names.get name = some (.file handle) ∧ v.contents.get handle = some []
  | .put _ content,.full handle name => v.names.get name = some (.file handle) ∧ v.contents.get handle = some content
  | .get _,.opened .. | .delete _,.opened .. => False
  | _,_ => True

/-- A point that changes no blob. -/
def Harmless (dir : Str) (v : BlobVolume) (request : BlobRequest) (event : FsEvent) : Prop :=
  match pointOf request event with
  | none | some (.getBlob _) => True
  | some (.putBlob key _) => ∃ path, blobPath dir key = some path ∧ v.names.get path ≠ none
  | some (.deleteBlob key) => ∃ path, blobPath dir key = some path ∧ v.names.get path = none
  | some _ => False

/-- What a request does to the volume with one system call. -/
inductive BlobStep (dir : Str) (v : BlobVolume) : BlobRequest → Stage → FsEvent → BlobVolume → Prop
  | quiet {request : BlobRequest} {stage : Stage} {event : FsEvent}
      (stays : stage.step event = stage ∨ stage.step event = .cleared) (harmless : Harmless dir v request event) :
      BlobStep dir v request stage event v
  | directories {request : BlobRequest} {stage : Stage} {event : FsEvent} {after : BlobVolume} (stays : stage.step event = stage)
      (pointless : pointOf request event = none) (dirs : List Str) (added : v.DirsAdded after dirs)
      (apart : ∀ key path, isHex64 key = true → blobPath dir key = some path → path ∉ dirs) : BlobStep dir v request stage event after
  | drafted {key : Str} {content : Bytes} {event : FsEvent} (name : Str) (temp : IsTemp name) (new : v.names.get name = none)
      (opens : Stage.idle.step event = .opened v.next name) (pointless : pointOf (.put key content) event = none) :
      BlobStep dir v (.put key content) .idle event ⟨v.names.upsert name (.file v.next),v.contents.upsert v.next [],v.next + 1⟩
  | written {key : Str} {content data : Bytes} {handle : Nat} {name : Str} {event : FsEvent}
      (fills : (Stage.opened handle name).step event = .full handle name ∧ data = content ∨
        (Stage.opened handle name).step event = .broken name)
      (pointless : pointOf (.put key content) event = none) :
      BlobStep dir v (.put key content) (.opened handle name) event (v.append handle data)
  | published {key path : Str} {content : Bytes} {handle : Nat} {name : Str} {event : FsEvent} (placed : blobPath dir key = some path)
      (moves : (Stage.full handle name).step event = .moved name) (point : pointOf (.put key content) event = some (.putBlob key content)) :
      BlobStep dir v (.put key content) (.full handle name) event {v with names := (v.names.remove name).upsert path (.file handle)}
  | discarded {request : BlobRequest} {stage : Stage} {event : FsEvent} {after : BlobVolume} {name : Str} {gone : Prop}
      (own : stage.name = some name) (clears : stage.step event = .cleared) (pointless : pointOf request event = none)
      (removed : v.NameGone after name gone) : BlobStep dir v request stage event after
  | deleted {key path : Str} {event : FsEvent} {after : BlobVolume} (placed : blobPath dir key = some path)
      (stays : Stage.idle.step event = .idle) (point : pointOf (.delete key) event = some (.deleteBlob key)) (removed : v.NameGone after path True) :
      BlobStep dir v (.delete key) .idle event after

theorem step_name {stage : Stage} {event : FsEvent} {name : Str} (named : (stage.step event).name = some name) :
    stage.name = some name ∨ tempOf event = some name := by
  unfold Stage.step at named
  split at named
  · exact .inr named
  · exact .inl named
  · exact .inl named
  · exact .inl named
  · contradiction
  · contradiction
  · exact .inl named

section
variable {dir : Str} {text : Str → Bytes} {v : BlobVolume} {s : State}

/-- A call that is allowed to a request is one of these steps. -/
theorem blob_step (env : SysEnv) {request : BlobRequest} {log : List FsEvent} {op : FsCall} (asked : BlobAsked text request)
    (owns : Owns v request (stageOf log)) (allowed : BlobAllowed dir request log op) :
    BlobStep dir v request (stageOf log) ⟨op,(Volume.exec insideDir env v op).1⟩ (Volume.exec insideDir env v op).2 := by
  cases request with
  | put key content =>
    cases op with
    | stat path =>
      obtain ⟨rfl,placed⟩ := allowed
      refine .quiet (.inl rfl) ?_
      change Harmless dir v (.put key content) ⟨.stat path,!env.fails && (v.names.get path).isSome⟩
      cases there : v.names.get path with
      | none => cases env.fails <;> exact trivial
      | some node =>
        cases env.fails with
        | true => exact trivial
        | false => exact ⟨path,placed,by rw [there]; simp⟩
    | mkdirAll dirs =>
      obtain ⟨idle,path,placed,rfl⟩ := allowed
      rw [idle]
      refine .directories rfl rfl _ (v.mkdirAll_adds env _) ?_
      intro other there hex present above
      exact parents_apart asked.1 hex placed present above rfl
    | createTemp inside name =>
      obtain ⟨idle,path,placed,rfl,rfl⟩ := allowed
      rw [idle]
      change BlobStep dir v (.put key content) .idle
        ⟨.createTemp _ _,(v.createTemp env (filepathDir path) (tempName (filepathDir path) env.random)).1⟩
        (v.createTemp env (filepathDir path) (tempName (filepathDir path) env.random)).2
      cases created : (v.createTemp env (filepathDir path) (tempName (filepathDir path) env.random)).1 with
      | none =>
        rw [Volume.createTemp_failed created]
        exact .quiet (.inl rfl) trivial
      | some file =>
        obtain ⟨handle,made⟩ := file
        obtain ⟨rfl,rfl,new,after⟩ := Volume.createTemp_made created
        rw [after]
        exact .drafted _ ⟨_,_,rfl⟩ new rfl rfl
    | copy handle data =>
      obtain ⟨⟨name,stage⟩,rfl⟩ := allowed
      rw [stage]
      unfold Volume.exec
      split
      · exact .written (.inr rfl) rfl
      · exact .written (.inl ⟨rfl,rfl⟩) rfl
    | sync handle => exact .quiet (.inl (by cases stageOf log <;> rfl)) trivial
    | close handle => exact .quiet (.inl (by cases stageOf log <;> rfl)) trivial
    | rename old new =>
      obtain ⟨⟨handle,stage⟩,placed⟩ := allowed
      rw [stage] at owns ⊢
      change BlobStep dir v (.put key content) (.full handle old) ⟨.rename old new,(v.rename env old new).1⟩ (v.rename env old new).2
      cases moved : (v.rename env old new).1 with
      | false =>
        rw [Volume.rename_failed moved]
        exact .quiet (.inl rfl) trivial
      | true =>
        obtain ⟨number,named,-,after⟩ := Volume.rename_moved moved
        have same : number = handle := Node.file.inj (Option.some.inj (named.symm.trans owns.1))
        rw [after,same]
        exact .published placed rfl rfl
    | remove name =>
      refine .discarded allowed ?_ rfl (Volume.remove_gone insideDir env v name)
      cases stage : stageOf log with
      | idle =>
        rw [BlobAllowed,stage] at allowed
        contradiction
      | cleared =>
        rw [BlobAllowed,stage] at allowed
        contradiction
      | _ => rfl
    | openFile path => exact allowed.elim
    | size handle => exact allowed.elim
    | read handle => exact allowed.elim
  | get key =>
    cases op with
    | openFile path =>
      obtain ⟨rfl,placed⟩ := allowed
      refine .quiet (.inl rfl) ?_
      change Harmless dir v (.get key) ⟨.openFile path,v.openFile env path⟩
      cases v.openFile env path with
      | found handle => trivial
      | missing => trivial
      | failed => trivial
    | size handle => exact .quiet (.inl (by cases stageOf log <;> rfl)) trivial
    | read handle => exact .quiet (.inl (by cases stageOf log <;> rfl)) trivial
    | close handle => exact .quiet (.inl (by cases stageOf log <;> rfl)) trivial
    | stat path => exact allowed.elim
    | mkdirAll dirs => exact allowed.elim
    | createTemp inside name => exact allowed.elim
    | copy handle data => exact allowed.elim
    | sync handle => exact allowed.elim
    | rename old new => exact allowed.elim
    | remove path => exact allowed.elim
  | delete key =>
    cases op with
    | remove path =>
      obtain ⟨rfl,placed⟩ := allowed
      change BlobStep dir v (.delete key) .idle ⟨.remove path,(Volume.remove insideDir v env path).1⟩ (Volume.remove insideDir v env path).2
      have removed := Volume.remove_gone insideDir env v path
      cases result : (Volume.remove insideDir v env path).1 with
      | found gone =>
        rw [result] at removed
        exact .deleted placed rfl rfl ⟨removed.contents,removed.next,removed.others,fun _ => removed.removed rfl,fun kept => absurd trivial kept⟩
      | missing =>
        rw [Volume.remove_kept (by rw [result]; simp)]
        exact .quiet (.inl rfl) ⟨path,placed,Volume.remove_missing result⟩
      | failed =>
        rw [Volume.remove_kept (by rw [result]; simp)]
        exact .quiet (.inl rfl) trivial
    | stat path => exact allowed.elim
    | mkdirAll dirs => exact allowed.elim
    | createTemp inside name => exact allowed.elim
    | copy handle data => exact allowed.elim
    | sync handle => exact allowed.elim
    | close handle => exact allowed.elim
    | rename old new => exact allowed.elim
    | openFile path => exact allowed.elim
    | size handle => exact allowed.elim
    | read handle => exact allowed.elim

/-! ### The blobs after one step -/

theorem putBlob_get (s : State) (key other : Str) (content : Bytes) : (exec false s (.putBlob key content)).2.blobs.get other =
    if other = key ∧ s.blobs.get key = none then some content else s.blobs.get other := by
  cases held : s.blobs.get key with
  | some old => simp [exec,held]
  | none => simp [exec,held,Table.get_upsert]

theorem deleteBlob_get (s : State) (key other : Str) : (exec false s (.deleteBlob key)).2.blobs.get other =
    if other = key then none else s.blobs.get other := Table.get_remove s.blobs key other

theorem getBlob_read (s : State) (key : Str) :
    (exec false s (.getBlob key)).1 = ((s.blobs.get key).map .found).getD .missing := by
  cases held : s.blobs.get key with
  | some content => simp [exec,held]
  | none => simp [exec,held]

theorem getBlob_state (s : State) (key : Str) : (exec false s (.getBlob key)).2 = s := by
  cases held : s.blobs.get key with
  | some content => simp [exec,held]
  | none => simp [exec,held]

/-- Other blobs and other files are as they were. -/
theorem Tidy.frame (tidy : Tidy dir text v s) {after : BlobVolume} {next : State}
    (files : ∀ path number, after.names.get path = some (.file number) → number < after.next)
    (single : ∀ path other number, after.names.get path = some (.file number) → after.names.get other = some (.file number) → path = other)
    (names : ∀ key path, isHex64 key = true → blobPath dir key = some path → after.names.get path = v.names.get path)
    (contents : ∀ key path, isHex64 key = true → blobPath dir key = some path → after.fileAt path = v.fileAt path)
    (same : ∀ key, next.blobs.get key = s.blobs.get key) : Tidy dir text after next := by
  refine ⟨files,single,?_,?_,?_⟩
  · intro key path hex placed
    rw [names key path hex placed]
    exact tidy.free key path hex placed
  · intro key path hex placed
    rw [contents key path hex placed,same key]
    exact tidy.blobs key path hex placed
  · intro key path hex placed there
    rw [names key path hex placed] at there
    rw [contents key path hex placed]
    exact tidy.whole key path hex placed there

/-- A point that is harmless changes no blob. -/
theorem Tidy.harmless (tidy : Tidy dir text v s) {request : BlobRequest} {event : FsEvent} (asked : BlobAsked text request)
    (harmless : Harmless dir v request event) (key : Str) :
    (replayPoint s (pointOf request event)).blobs.get key = s.blobs.get key := by
  unfold Harmless at harmless
  cases point : pointOf request event with
  | none => rfl
  | some call =>
    rw [point] at harmless
    cases call with
    | getBlob asked => rw [replayPoint,getBlob_state]
    | putBlob stored content =>
      obtain ⟨path,placed,there⟩ := harmless
      have hex : isHex64 stored = true := by
        unfold pointOf at point
        split at point <;> simp_all [BlobAsked]
      have held : s.blobs.get stored ≠ none := by
        rw [← tidy.blobs stored path hex placed,tidy.whole stored path hex placed there]
        simp
      rw [replayPoint,putBlob_get,if_neg fun both => held both.2]
    | deleteBlob removed =>
      obtain ⟨path,placed,absent⟩ := harmless
      have hex : isHex64 removed = true := by
        unfold pointOf at point
        split at point <;> simp_all [BlobAsked]
      have missing : s.blobs.get removed = none := by
        rw [← tidy.blobs removed path hex placed,Volume.fileAt,absent]
      rw [replayPoint,deleteBlob_get]
      split
      · rename_i here
        rw [here,missing]
      · rfl
    | _ => exact harmless.elim

/-- Every step leaves the volume with the blobs that its point leaves. -/
theorem Tidy.step (tidy : Tidy dir text v s) {request : BlobRequest} {stage : Stage} {event : FsEvent} {after : BlobVolume}
    (asked : BlobAsked text request) (owns : Owns v request stage) (temps : ∀ name, stage.name = some name → IsTemp name)
    (step : BlobStep dir v request stage event after) : Tidy dir text after (replayPoint s (pointOf request event)) := by
  have apart : ∀ {name key path : Str}, IsTemp name → isHex64 key = true → blobPath dir key = some path → path ≠ name := by
    rintro name key path ⟨inside,random,rfl⟩ hex placed
    exact (tempName_apart hex placed inside random).symm
  cases step with
  | quiet stays harmless =>
    exact tidy.frame tidy.files tidy.single (fun _ _ _ _ => rfl) (fun _ _ _ _ => rfl) (tidy.harmless asked harmless)
  | directories stays pointless dirs added outside =>
    rw [pointless]
    refine tidy.frame ?_ ?_ ?_ (fun _ path _ _ => added.fileAt path) (fun _ => rfl)
    · intro path number named
      rw [added.next]
      exact tidy.files path number ((added.file_iff path number).mp named)
    · intro path other number here there
      exact tidy.single path other number ((added.file_iff path number).mp here) ((added.file_iff other number).mp there)
    · intro key path hex placed
      rcases added.names path with same | new
      · exact same
      · exact absurd new.1 (outside key path hex placed)
  | drafted name temp new opens pointless =>
    rw [pointless]
    have others : ∀ path number, (v.names.upsert name (.file v.next)).get path = some (.file number) →
        (path = name ∧ number = v.next) ∨ (path ≠ name ∧ v.names.get path = some (.file number)) := by
      intro path number named
      rw [Table.get_upsert] at named
      split at named
      · rename_i here
        exact .inl ⟨here,(Node.file.inj (Option.some.inj named)).symm⟩
      · rename_i different
        exact .inr ⟨different,named⟩
    refine tidy.frame ?_ ?_ ?_ ?_ (fun _ => rfl)
    · intro path number named
      rcases others path number named with ⟨-,rfl⟩ | ⟨-,old⟩
      · exact Nat.lt_succ_self _
      · exact Nat.lt_succ_of_lt (tidy.files path number old)
    · intro path other number here there
      rcases others path number here with ⟨rfl,fresh⟩ | ⟨-,old⟩
      · rcases others other number there with ⟨rfl,-⟩ | ⟨-,older⟩
        · rfl
        · exact absurd (tidy.files other number older) (by omega)
      · rcases others other number there with ⟨rfl,fresh⟩ | ⟨-,older⟩
        · exact absurd (tidy.files path number old) (by omega)
        · exact tidy.single path other number old older
    · intro key path hex placed
      exact Table.get_upsert_other _ _ _ _ (apart temp hex placed)
    · intro key path hex placed
      unfold Volume.fileAt
      dsimp only
      rw [Table.get_upsert_other _ _ _ _ (apart temp hex placed)]
      cases named : v.names.get path with
      | none => rfl
      | some node =>
        cases node with
        | directory => rfl
        | file number => exact Table.get_upsert_other _ _ _ _ (Nat.ne_of_lt (tidy.files path number named))
  | @written key content data handle name event fills pointless =>
    rw [pointless]
    have files : ∀ path number, (v.append handle data).names.get path = some (.file number) → v.names.get path = some (.file number) := by
      intro path number named
      rwa [Volume.append_names] at named
    refine tidy.frame ?_ ?_ ?_ ?_ (fun _ => rfl)
    · intro path number named
      rw [Volume.append_next]
      exact tidy.files path number (files path number named)
    · intro path other number here there
      exact tidy.single path other number (files path number here) (files other number there)
    · intro key path hex placed
      rw [Volume.append_names]
    · intro stored path hex placed
      unfold Volume.fileAt
      rw [Volume.append_names]
      cases named : v.names.get path with
      | none => rfl
      | some node =>
        cases node with
        | directory => rfl
        | file number =>
          dsimp only
          rw [Volume.append_contents,if_neg]
          rintro rfl
          exact apart (temps name rfl) hex placed (tidy.single path name number named owns.1)
  | @published key path content handle name event placed moves point =>
    rw [point,replayPoint]
    obtain ⟨hex,rfl⟩ := asked
    have different : path ≠ name := apart (temps name rfl) hex placed
    have get : ∀ other, ((v.names.remove name).upsert path (.file handle)).get other =
        if other = path then some (.file handle) else if other = name then none else v.names.get other := by
      intro other
      rw [Table.get_upsert,Table.get_remove]
    have held : (s.blobs.get key).getD (text key) = text key := by
      rw [← tidy.blobs key path hex placed]
      by_cases there : v.names.get path = none
      · rw [Volume.fileAt,there]
        rfl
      · rw [tidy.whole key path hex placed there]
        rfl
    have written : (Volume.mk ((v.names.remove name).upsert path (.file handle)) v.contents v.next).fileAt path = some (text key) := by
      unfold Volume.fileAt
      dsimp only
      rw [get,if_pos rfl]
      exact owns.2
    have elsewhere : ∀ stored other, isHex64 stored = true → blobPath dir stored = some other → other ≠ path →
        ((v.names.remove name).upsert path (.file handle)).get other = v.names.get other := by
      intro stored other good there apartFrom
      rw [get,if_neg apartFrom,if_neg (apart (temps name rfl) good there)]
    have kept : ∀ stored other, isHex64 stored = true → blobPath dir stored = some other → other ≠ path →
        (Volume.mk ((v.names.remove name).upsert path (.file handle)) v.contents v.next).fileAt other = v.fileAt other := by
      intro stored other good there apartFrom
      unfold Volume.fileAt
      dsimp only
      rw [elsewhere stored other good there apartFrom]
    have names : ∀ other number, ((v.names.remove name).upsert path (.file handle)).get other = some (.file number) →
        (other = path ∧ number = handle) ∨ (other ≠ path ∧ other ≠ name ∧ v.names.get other = some (.file number)) := by
      intro other number named
      rw [get] at named
      split at named
      · rename_i here
        exact .inl ⟨here,(Node.file.inj (Option.some.inj named)).symm⟩
      · rename_i away
        split at named
        · contradiction
        · rename_i also
          exact .inr ⟨away,also,named⟩
    refine ⟨?_,?_,?_,?_,?_⟩
    · intro other number named
      rcases names other number named with ⟨-,rfl⟩ | ⟨-,-,old⟩
      · exact tidy.files name number owns.1
      · exact tidy.files other number old
    · intro first second number here there
      rcases names first number here with ⟨rfl,rfl⟩ | ⟨-,away,old⟩
      · rcases names second number there with ⟨rfl,-⟩ | ⟨-,away,old⟩
        · rfl
        · exact absurd (tidy.single second name number old owns.1) away
      · rcases names second number there with ⟨rfl,rfl⟩ | ⟨-,-,older⟩
        · exact absurd (tidy.single first name number old owns.1) away
        · exact tidy.single first second number old older
    · intro stored other good there
      by_cases here : other = path
      · dsimp only
        rw [here,get,if_pos rfl]
        simp
      · dsimp only
        rw [elsewhere stored other good there here]
        exact tidy.free stored other good there
    · intro stored other good there
      rw [putBlob_get]
      by_cases here : other = path
      · have same : stored = key := blobPath_injective good hex (here ▸ there) placed
        rw [here,written,same]
        cases before : s.blobs.get key with
        | none => rw [if_pos ⟨rfl,rfl⟩]
        | some old =>
          rw [before] at held
          rw [if_neg (by simp)]
          exact congrArg some held.symm
      · have distinct : stored ≠ key := by
          rintro rfl
          exact here (Option.some.inj (there.symm.trans placed))
        rw [kept stored other good there here,if_neg fun both => distinct both.1]
        exact tidy.blobs stored other good there
    · intro stored other good there present
      by_cases here : other = path
      · have same : stored = key := blobPath_injective good hex (here ▸ there) placed
        rw [here,written,same]
      · dsimp only at present
        rw [elsewhere stored other good there here] at present
        rw [kept stored other good there here]
        exact tidy.whole stored other good there present
  | @discarded request stage event after name gone own clears pointless removed =>
    rw [pointless]
    have temp := temps name own
    have back : ∀ path number, after.names.get path = some (.file number) → v.names.get path = some (.file number) := by
      intro path number
      exact removed.file
    have names : ∀ key path, isHex64 key = true → blobPath dir key = some path → after.names.get path = v.names.get path :=
      fun key path hex placed => removed.others path (apart temp hex placed)
    refine tidy.frame ?_ ?_ names ?_ (fun _ => rfl)
    · intro path number named
      rw [removed.next]
      exact tidy.files path number (back path number named)
    · intro path other number here there
      exact tidy.single path other number (back path number here) (back other number there)
    · intro key path hex placed
      unfold Volume.fileAt
      rw [names key path hex placed,removed.contents]
  | @deleted key path event after placed stays point removed =>
    rw [point,replayPoint]
    have back : ∀ path number, after.names.get path = some (.file number) → v.names.get path = some (.file number) := by
      intro path number
      exact removed.file
    have gone := removed.removed trivial
    have elsewhere : ∀ other, other ≠ path → after.fileAt other = v.fileAt other := by
      intro other away
      unfold Volume.fileAt
      rw [removed.others other away,removed.contents]
    refine ⟨?_,?_,?_,?_,?_⟩
    · intro other number named
      rw [removed.next]
      exact tidy.files other number (back other number named)
    · intro first second number here there
      exact tidy.single first second number (back first number here) (back second number there)
    · intro stored other good there
      by_cases here : other = path
      · rw [here,gone]
        simp
      · rw [removed.others other here]
        exact tidy.free stored other good there
    · intro stored other good there
      rw [deleteBlob_get]
      by_cases here : other = path
      · rw [if_pos (blobPath_injective good asked (here ▸ there) placed),here,Volume.fileAt,gone]
      · have distinct : stored ≠ key := by
          rintro rfl
          exact here (Option.some.inj (there.symm.trans placed))
        rw [elsewhere other here,if_neg distinct]
        exact tidy.blobs stored other good there
    · intro stored other good there present
      have here : other ≠ path := by
        rintro rfl
        exact present gone
      rw [elsewhere other here]
      rw [removed.others other here] at present
      exact tidy.whole stored other good there present

end

end NPSync.Server
