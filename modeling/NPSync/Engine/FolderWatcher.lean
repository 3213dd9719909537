import Mathlib
import NPSync.Engine.Convergence
import NPSync.Library.LittleEndian

/-! `FolderWatcher::pump`: the loop around `ReadDirectoryChangesW` and the walk over the
records in its buffer, from the bytes that Windows writes to the events that `onFsEvent` gets. -/
namespace NPSync.Engine
open Library LittleEndian

/-- A `FILE_NOTIFY_INFORMATION` without the offset of the next. -/
structure NotifyRecord where
  action : Nat
  name : WStr
  deriving DecidableEq

/-- The kind of an action; the others are not reported. -/
def actionKind : Nat → Option FsEventKind
  | 1 => some .created
  | 2 => some .deleted
  | 3 => some .modified
  | 4 => some .renamedFrom
  | 5 => some .renamedTo
  | _ => none

def readDword (buf : Bytes) (offset : Nat) : Option Nat := (readAt buf offset 4).map readLE

/-- The record at an offset and its `NextEntryOffset`; `none` reads outside the buffer. -/
def readRecord (buf : Bytes) (offset : Nat) : Option (Nat × NotifyRecord) := do
  let next ← readDword buf offset
  let action ← readDword buf (offset + 4)
  let length ← readDword buf (offset + 8)
  let name ← readAt buf (offset + 12) (2 * (length / 2))
  return (next,⟨action,units name⟩)

/-- The inner loop; it makes `fuel` rounds at most. -/
def walkRecords (buf : Bytes) : (fuel offset : Nat) → Option (List NotifyRecord)
  | 0,_ => none
  | fuel + 1,offset => do
    let (next,record) ← readRecord buf offset
    if next = 0 then return [record]
    let rest ← walkRecords buf fuel (offset + next)
    return record::rest

/-- The old name that waits for its new one, and the events of the callback. -/
structure Reporting where
  pendingOldName : WStr
  events : List FsEvent
  deriving DecidableEq

def reportRecord (dir : WStr) (r : Reporting) (record : NotifyRecord) : Reporting :=
  let full := dir ++ wlit "\\" ++ record.name
  match actionKind record.action with
  | none => r
  | some kind =>
    if kind = .renamedFrom then ⟨full,r.events ++ [⟨kind,full,[]⟩]⟩
    else if kind = .renamedTo ∧ r.pendingOldName ≠ [] then ⟨[],r.events ++ [⟨kind,full,r.pendingOldName⟩]⟩
    else {r with events := r.events ++ [⟨kind,full,[]⟩]}

/-- How one round of the outer loop ends. -/
inductive ReadOutcome where
  | refused
  | timedOut
  | failed
  | completed (transferred : Bytes)

structure Pump where
  buf : Bytes
  reported : Reporting
  ended : Bool

/-- One round, while `running_`; `none` reads outside the buffer. -/
def pumpRound (dir : WStr) (p : Pump) : ReadOutcome → Option Pump
  | .refused => some {p with ended := true}
  | .timedOut | .failed => some p
  | .completed transferred =>
    let buf := transferred ++ p.buf.drop transferred.length
    if transferred.length = 0 then some {p with buf := buf}
    else (walkRecords buf buf.length 0).map fun records => {p with buf := buf,reported := records.foldl (reportRecord dir) p.reported}

def pump (dir : WStr) (p : Pump) : List ReadOutcome → Option Pump
  | [] => some p
  | outcome::rest => if p.ended then some p else (pumpRound dir p outcome).bind fun p => pump dir p rest

def Pump.start : Pump := ⟨List.replicate (64 * 1024) 0,⟨[],[]⟩,false⟩

/-! ### Records in a buffer -/

/-- A record as Windows writes it, with the bytes that fill it up. -/
structure Written where
  record : NotifyRecord
  filler : Bytes
  action : record.action < 256^4
  short : 2 * record.name.length < 256^4

def Written.size (w : Written) : Nat := 12 + 2 * w.record.name.length + w.filler.length

def Written.bytes (w : Written) (next : Nat) : Bytes :=
  leBytes 4 next ++ (leBytes 4 w.record.action ++ (leBytes 4 (2 * w.record.name.length) ++ (unitBytes w.record.name ++ w.filler)))

/-- The records one behind the other; the last has no next. -/
def recordBytes : List Written → Bytes
  | [] => []
  | [w] => w.bytes 0
  | w::rest => w.bytes w.size ++ recordBytes rest

theorem Written.bytes_length (w : Written) {next : Nat} (fits : next < 256^4) : (w.bytes next).length = w.size := by
  simp only [Written.bytes,List.length_append,leBytes_length fits,leBytes_length w.action,leBytes_length w.short,unitBytes_length,
    Written.size]
  omega

theorem readDword_at {front back : Bytes} {value : Nat} (fits : value < 256^4) :
    readDword (front ++ (leBytes 4 value ++ back)) front.length = some value := by
  have read := readAt_append front (leBytes 4 value) back
  rw [leBytes_length fits] at read
  rw [readDword,read,Option.map_some,readLE_leBytes]

/-- The record behind some bytes is read whole. -/
theorem readRecord_written (front back : Bytes) (w : Written) {next : Nat} (fits : next < 256^4) :
    readRecord (front ++ (w.bytes next ++ back)) front.length = some (next,w.record) := by
  have first : readDword (front ++ (w.bytes next ++ back)) front.length = some next := by
    rw [Written.bytes,List.append_assoc]
    exact readDword_at fits
  have second : readDword (front ++ (w.bytes next ++ back)) (front.length + 4) = some w.record.action := by
    have start : front.length + 4 = (front ++ leBytes 4 next).length := by rw [List.length_append,leBytes_length fits]
    rw [start,Written.bytes,List.append_assoc,← List.append_assoc front,List.append_assoc (leBytes 4 w.record.action)]
    exact readDword_at w.action
  have third : readDword (front ++ (w.bytes next ++ back)) (front.length + 8) = some (2 * w.record.name.length) := by
    have start : front.length + 8 = (front ++ (leBytes 4 next ++ leBytes 4 w.record.action)).length := by
      simp only [List.length_append,leBytes_length fits,leBytes_length w.action]
    rw [start,show front ++ (w.bytes next ++ back) = (front ++ (leBytes 4 next ++ leBytes 4 w.record.action)) ++
      (leBytes 4 (2 * w.record.name.length) ++ (unitBytes w.record.name ++ w.filler ++ back)) by simp [Written.bytes]]
    exact readDword_at w.short
  have fourth : readAt (front ++ (w.bytes next ++ back)) (front.length + 12) (2 * (2 * w.record.name.length / 2)) =
      some (unitBytes w.record.name) := by
    have start : front.length + 12 = (front ++ (leBytes 4 next ++ leBytes 4 w.record.action ++
        leBytes 4 (2 * w.record.name.length))).length := by
      simp only [List.length_append,leBytes_length fits,leBytes_length w.action,leBytes_length w.short]
    have width : 2 * (2 * w.record.name.length / 2) = (unitBytes w.record.name).length := by
      rw [unitBytes_length]
      omega
    rw [start,width,show front ++ (w.bytes next ++ back) = (front ++ (leBytes 4 next ++ leBytes 4 w.record.action ++
      leBytes 4 (2 * w.record.name.length))) ++ (unitBytes w.record.name ++ (w.filler ++ back)) by simp [Written.bytes]]
    exact readAt_append _ _ _
  simp only [readRecord,first,second,third,fourth,units_unitBytes,Option.bind_eq_bind,Option.bind_some,Option.pure_def]

theorem recordBytes_cons (w : Written) (rest : List Written) :
    recordBytes (w::rest) = w.bytes (if rest = [] then 0 else w.size) ++ recordBytes rest := by
  cases rest with
  | nil => simp [recordBytes]
  | cons next more => simp [recordBytes]

/-- The walk finds the records, whatever stands behind them in the buffer. -/
theorem walkRecords_written {ws : List Written} (filled : ws ≠ []) (front back : Bytes) {fuel : Nat} (enough : ws.length ≤ fuel)
    (fits : (ws.map Written.size).sum < 256^4) :
    walkRecords (front ++ (recordBytes ws ++ back)) fuel front.length = some (ws.map (·.record)) := by
  induction ws generalizing front fuel with
  | nil => exact absurd rfl filled
  | cons w rest ih =>
    cases fuel with
    | zero => simp at enough
    | succ fuel =>
      rw [recordBytes_cons,walkRecords]
      cases rest with
      | nil =>
        have read := readRecord_written front ([] ++ back) w (show 0 < 256^4 by decide)
        rw [if_pos rfl,recordBytes,List.append_assoc,read]
        rfl
      | cons next more =>
        have small : w.size < 256^4 := by
          rw [List.map_cons,List.sum_cons] at fits
          omega
        have positive : w.size ≠ 0 := by simp [Written.size]
        have read := readRecord_written front (recordBytes (next::more) ++ back) w small
        have step : front.length + w.size = (front ++ w.bytes w.size).length := by
          rw [List.length_append,w.bytes_length small]
        have shorter : ((next::more).map Written.size).sum < 256^4 := by
          rw [List.map_cons,List.sum_cons] at fits
          omega
        have later := ih (by simp) (front ++ w.bytes w.size) (Nat.le_of_succ_le_succ enough) shorter
        rw [if_neg (by simp),List.append_assoc,read]
        simp only [Option.bind_eq_bind,Option.bind_some]
        rw [if_neg positive,step]
        rw [List.append_assoc] at later
        rw [later]
        rfl

theorem recordBytes_length {ws : List Written} (fits : (ws.map Written.size).sum < 256^4) :
    (recordBytes ws).length = (ws.map Written.size).sum := by
  induction ws with
  | nil => rfl
  | cons w rest ih =>
    rw [List.map_cons,List.sum_cons] at fits ⊢
    rw [recordBytes_cons,List.length_append,ih (by omega),w.bytes_length]
    split
    · decide
    · omega

theorem length_le_sizes (ws : List Written) : ws.length ≤ (ws.map Written.size).sum := by
  induction ws with
  | nil => exact Nat.le_refl 0
  | cons w rest ih =>
    rw [List.map_cons,List.sum_cons,List.length_cons,Written.size]
    omega

/-! ### Events -/

/-- What a round brings: nothing, or a buffer of records. -/
def Conveys : ReadOutcome → List NotifyRecord → Prop
  | .refused,_ => False
  | .timedOut,records | .failed,records => records = []
  | .completed transferred,records => (transferred = [] ∧ records = []) ∨
    ∃ ws : List Written, ws ≠ [] ∧ (ws.map Written.size).sum ≤ 64 * 1024 ∧ transferred = recordBytes ws ∧ records = ws.map (·.record)

theorem pumpRound_conveys (dir : WStr) (p : Pump) {outcome : ReadOutcome} {records : List NotifyRecord} (carries : Conveys outcome records) :
    ∃ buf, pumpRound dir p outcome = some ⟨buf,records.foldl (reportRecord dir) p.reported,p.ended⟩ := by
  cases outcome with
  | refused => exact carries.elim
  | timedOut =>
    obtain rfl := carries
    exact ⟨p.buf,rfl⟩
  | failed =>
    obtain rfl := carries
    exact ⟨p.buf,rfl⟩
  | completed transferred =>
    rcases carries with ⟨rfl,rfl⟩ | ⟨ws,filled,fits,rfl,rfl⟩
    · exact ⟨_,rfl⟩
    · have small : (ws.map Written.size).sum < 256^4 := Nat.lt_of_le_of_lt fits (by decide)
      have size := recordBytes_length small
      have long := length_le_sizes ws
      have some_ : ws.length ≠ 0 := by simpa using filled
      let buf := recordBytes ws ++ p.buf.drop (recordBytes ws).length
      have enough : ws.length ≤ buf.length := by
        rw [List.length_append]
        omega
      have walked : walkRecords buf buf.length 0 = some (ws.map (·.record)) := walkRecords_written filled [] _ enough small
      refine ⟨buf,?_⟩
      rw [pumpRound,if_neg (by omega),walked]
      rfl

/-- However the records come in buffers, they are reported one by one. -/
theorem pump_conveys (dir : WStr) (p : Pump) (running : p.ended = false) {outcomes : List ReadOutcome}
    {parts : List (List NotifyRecord)} (carries : List.Forall₂ Conveys outcomes parts) :
    ∃ buf, pump dir p outcomes = some ⟨buf,parts.flatten.foldl (reportRecord dir) p.reported,false⟩ := by
  induction carries generalizing p with
  | nil => exact ⟨p.buf,by rw [pump,← running]; rfl⟩
  | cons first rest ih =>
    obtain ⟨buf,round⟩ := pumpRound_conveys dir p first
    obtain ⟨last,more⟩ := ih ⟨buf,_,p.ended⟩ running
    refine ⟨last,?_⟩
    rw [pump,if_neg (by simp [running]),round,Option.bind_some,more,List.flatten_cons,List.foldl_append]

/-- The old name that is still without its new one. -/
def openRename (dir : WStr) (past : List NotifyRecord) : WStr :=
  match past.reverse.find? (fun r => r.action = 4 ∨ r.action = 5) with
  | some r => if r.action = 4 then dir ++ wlit "\\" ++ r.name else []
  | none => []

/-- The event of a record, after the records before it. -/
def eventOf (dir : WStr) (past : List NotifyRecord) (r : NotifyRecord) : Option FsEvent :=
  (actionKind r.action).map fun kind =>
    ⟨kind,dir ++ wlit "\\" ++ r.name,if kind = .renamedTo then openRename dir past else []⟩

/-- The events of all records, each by its own place. -/
def eventsOf (dir : WStr) (records : List NotifyRecord) : List FsEvent :=
  (List.range records.length).filterMap fun i => (records[i]?).bind (eventOf dir (records.take i))

theorem eventsOf_snoc (dir : WStr) (past : List NotifyRecord) (r : NotifyRecord) :
    eventsOf dir (past ++ [r]) = eventsOf dir past ++ (eventOf dir past r).toList := by
  have before : ∀ i ∈ List.range past.length, ((past ++ [r])[i]?).bind (eventOf dir ((past ++ [r]).take i)) =
      (past[i]?).bind (eventOf dir (past.take i)) := by
    intro i inside
    have bound := List.mem_range.mp inside
    rw [List.getElem?_append_left bound,List.take_append_of_le_length (Nat.le_of_lt bound)]
  have last : ((past ++ [r])[past.length]?).bind (eventOf dir ((past ++ [r]).take past.length)) = eventOf dir past r := by
    rw [List.getElem?_append_right (Nat.le_refl _),Nat.sub_self,List.take_left]
    rfl
  rw [eventsOf,List.length_append,List.length_singleton,List.range_succ,List.filterMap_append,List.filterMap_congr before,← eventsOf]
  rw [List.filterMap_cons,last,List.filterMap_nil]
  cases eventOf dir past r with
  | none => rfl
  | some ev => rfl

theorem renamedFrom_iff (action : Nat) : actionKind action = some .renamedFrom ↔ action = 4 := by
  unfold actionKind
  split <;> simp_all

theorem renamedTo_iff (action : Nat) : actionKind action = some .renamedTo ↔ action = 5 := by
  unfold actionKind
  split <;> simp_all

theorem openRename_snoc (dir : WStr) (past : List NotifyRecord) (r : NotifyRecord) : openRename dir (past ++ [r]) =
    if r.action = 4 then dir ++ wlit "\\" ++ r.name else if r.action = 5 then [] else openRename dir past := by
  unfold openRename
  rw [List.reverse_append,List.reverse_singleton,List.singleton_append,List.find?_cons]
  by_cases from_ : r.action = 4
  · simp [from_]
  · by_cases renamed : r.action = 5
    · simp [renamed]
    · simp [from_,renamed]

theorem reported_records (dir : WStr) (records : List NotifyRecord) :
    records.foldl (reportRecord dir) ⟨[],[]⟩ = ⟨openRename dir records,eventsOf dir records⟩ := by
  induction records using List.reverseRecOn with
  | nil => rfl
  | append_singleton past r ih =>
    rw [List.foldl_append,ih,eventsOf_snoc,openRename_snoc,List.foldl_cons,List.foldl_nil,reportRecord]
    cases kinded : actionKind r.action with
    | none =>
      have from_ : r.action ≠ 4 := fun same => by rw [(renamedFrom_iff _).mpr same] at kinded; contradiction
      have renamed : r.action ≠ 5 := fun same => by rw [(renamedTo_iff _).mpr same] at kinded; contradiction
      simp [eventOf,kinded,from_,renamed]
    | some kind =>
      by_cases old : kind = .renamedFrom
      · subst old
        simp [eventOf,actionKind,(renamedFrom_iff _).mp kinded]
      by_cases new : kind = .renamedTo
      · subst new
        have renamed := (renamedTo_iff _).mp kinded
        by_cases waits : openRename dir past = []
        · simp [eventOf,actionKind,renamed,waits]
        · simp [eventOf,actionKind,renamed,waits]
      have from_ : r.action ≠ 4 := fun same => old (Option.some.inj (kinded.symm.trans ((renamedFrom_iff _).mpr same)))
      have renamed : r.action ≠ 5 := fun same => new (Option.some.inj (kinded.symm.trans ((renamedTo_iff _).mpr same)))
      simp [eventOf,kinded,from_,renamed,old,new]

/-- However Windows cuts its records into buffers, and whatever is left in them of earlier
ones: the walk stays inside, every record is reported once and in order, and a new name comes
with the old name that was open before it. -/
theorem watcher_reports (dir : WStr) {outcomes : List ReadOutcome} {parts : List (List NotifyRecord)}
    (carries : List.Forall₂ Conveys outcomes parts) :
    ∃ buf, pump dir .start outcomes = some ⟨buf,⟨openRename dir parts.flatten,eventsOf dir parts.flatten⟩,false⟩ := by
  obtain ⟨buf,pumped⟩ := pump_conveys dir .start rfl carries
  exact ⟨buf,by rw [pumped,Pump.start,reported_records]⟩

/-! ### What happens below a root -/

def Under (dir path : WStr) : Prop := ∃ name, path = dir ++ wlit "\\" ++ name

def Happening.Within (dir : WStr) : Happening → Prop
  | .create path | .touch path | .remove path | .makeDir path | .removeDir path => Under dir path.1
  | .move old new _ | .moveDir old new _ => Under dir old.1 ∧ Under dir new.1
  | .deliver _ | .work .. => True

def actionOf : FsEventKind → Nat
  | .created => 1
  | .deleted => 2
  | .modified => 3
  | .renamedFrom => 4
  | .renamedTo => 5

/-- What Windows writes for an event below the directory. -/
def recordOf (dir : WStr) (ev : FsEvent) : NotifyRecord := ⟨actionOf ev.kind,ev.absPath.drop (dir.length + 1)⟩

section
variable (plat : Platform) (dev : Device)

/-- The events of one happening. -/
def Desk.reports (d : Desk) : Happening → List FsEvent
  | .deliver _ | .work .. => []
  | other => (d.step plat dev other).events.drop d.events.length

/-- The events of all happenings. -/
def Desk.heard (d : Desk) : List Happening → List FsEvent
  | [] => []
  | first::rest => d.reports plat dev first ++ (d.step plat dev first).heard rest

end

/-- From their records the events come back as they are. -/
def Plays (dir : WStr) (events : List FsEvent) : Prop :=
  ∀ before, (events.map (recordOf dir)).foldl (reportRecord dir) ⟨[],before⟩ = ⟨[],before ++ events⟩

section
variable {dir : WStr}

theorem plays_nil : Plays dir [] := fun before => by rw [List.append_nil]; rfl

theorem Plays.append {first second : List FsEvent} (one : Plays dir first) (other : Plays dir second) : Plays dir (first ++ second) := by
  intro before
  rw [List.map_append,List.foldl_append,one,other,List.append_assoc]

theorem recordOf_name {kind : FsEventKind} {path old : WStr} (under : Under dir path) :
    dir ++ wlit "\\" ++ (recordOf dir ⟨kind,path,old⟩).name = path := by
  obtain ⟨name,rfl⟩ := under
  have start : dir.length + 1 = (dir ++ wlit "\\").length := by rw [List.length_append]; rfl
  rw [recordOf]
  dsimp only
  rw [start,List.drop_left]

theorem actionKind_of (kind : FsEventKind) : actionKind (actionOf kind) = some kind := by
  cases kind <;> rfl

theorem reportRecord_of (r : Reporting) {kind : FsEventKind} {path old : WStr} (under : Under dir path) :
    reportRecord dir r (recordOf dir ⟨kind,path,old⟩) =
      if kind = .renamedFrom then ⟨path,r.events ++ [⟨kind,path,[]⟩]⟩
      else if kind = .renamedTo ∧ r.pendingOldName ≠ [] then ⟨[],r.events ++ [⟨kind,path,r.pendingOldName⟩]⟩
      else {r with events := r.events ++ [⟨kind,path,[]⟩]} := by
  rw [reportRecord,recordOf_name under]
  simp only [recordOf,actionKind_of]

theorem plays_single {kind : FsEventKind} {path : WStr} (under : Under dir path) (first : kind ≠ .renamedFrom) (second : kind ≠ .renamedTo) :
    Plays dir [⟨kind,path,[]⟩] := by
  intro before
  rw [List.map_singleton,List.foldl_cons,List.foldl_nil,reportRecord_of _ under,if_neg first,if_neg fun both => second both.1]

theorem plays_rename {old new : WStr} (under : Under dir old) (other : Under dir new) :
    Plays dir [⟨.renamedFrom,old,[]⟩,⟨.renamedTo,new,old⟩] := by
  intro before
  have filled : old ≠ [] := by
    obtain ⟨name,rfl⟩ := under
    simp [wlit]
  rw [List.map_cons,List.map_singleton,List.foldl_cons,List.foldl_cons,List.foldl_nil,reportRecord_of _ under,if_pos rfl,
    reportRecord_of _ other,if_neg (by simp),if_pos ⟨rfl,filled⟩,List.append_assoc]
  rfl

theorem plays_renameEvents {old new : AbsPath} (under : Under dir old.1) (other : Under dir new.1) (paired : Bool) :
    Plays dir (renameEvents old new paired) := by
  cases paired with
  | true => exact plays_rename under other
  | false =>
    have first : Plays dir [⟨.deleted,old.1,[]⟩] := plays_single under (by simp) (by simp)
    have second : Plays dir [⟨.created,new.1,[]⟩] := plays_single other (by simp) (by simp)
    exact first.append second

variable {plat : Platform} {dev : Device}

theorem find_under {d : Desk} (under : ∀ e ∈ d.entries, Under dir e.path.1) {path : WStr} {e : Entry} (found : d.find plat path = some e) :
    Under dir e.path.1 := under e (List.mem_of_find?_eq_some found)

theorem without_under {d : Desk} (under : ∀ e ∈ d.entries, Under dir e.path.1) (path : WStr) :
    ∀ e ∈ d.without plat path, Under dir e.path.1 := fun e member => under e (List.mem_of_mem_filter member)

theorem snoc_under {entries : List Entry} (under : ∀ e ∈ entries, Under dir e.path.1) {last : Entry} (also : Under dir last.path.1) :
    ∀ e ∈ entries ++ [last], Under dir e.path.1 := by
  intro e member
  rcases List.mem_append.mp member with old | new
  · exact under e old
  · rw [List.mem_singleton.mp new]
    exact also

theorem rerooted_under {old new : AbsPath} (other : Under dir new.1) {e : Entry} (under : Under dir e.path.1) :
    Under dir (Desk.rerooted plat old new e).path.1 := by
  unfold Desk.rerooted
  split
  · obtain ⟨name,same⟩ := other
    change Under dir (new.1 ++ e.path.1.drop old.1.length)
    exact ⟨name ++ e.path.1.drop old.1.length,by rw [same,List.append_assoc]⟩
  · exact under

/-- A happening adds events that play back, and what is on disk stays below the root. -/
def Adds (dir : WStr) (d after : Desk) : Prop :=
  (∃ added, after.events = d.events ++ added ∧ Plays dir added) ∧ ∀ e ∈ after.entries, Under dir e.path.1

theorem adds_nothing {d : Desk} (under : ∀ e ∈ d.entries, Under dir e.path.1) : Adds dir d d :=
  ⟨⟨[],(List.append_nil _).symm,plays_nil⟩,under⟩

theorem adds_single {d : Desk} {kind : FsEventKind} {path : WStr} {entries : List Entry} (entriesUnder : ∀ e ∈ entries, Under dir e.path.1)
    (under : Under dir path) (first : kind ≠ .renamedFrom) (second : kind ≠ .renamedTo) :
    Adds dir d {d with entries := entries,events := d.events ++ [⟨kind,path,[]⟩]} :=
  ⟨⟨_,rfl,plays_single under first second⟩,entriesUnder⟩

theorem adds_rename {d : Desk} {old new : AbsPath} {entries : List Entry} (entriesUnder : ∀ e ∈ entries, Under dir e.path.1)
    (under : Under dir old.1) (other : Under dir new.1) (paired : Bool) :
    Adds dir d {d with entries := entries,events := d.events ++ renameEvents old new paired} :=
  ⟨⟨_,rfl,plays_renameEvents under other paired⟩,entriesUnder⟩

theorem Adds.plays {d : Desk} {first : Happening} (adds : Adds dir d (d.step plat dev first))
    (reports : d.reports plat dev first = (d.step plat dev first).events.drop d.events.length) :
    Plays dir (d.reports plat dev first) ∧ ∀ e ∈ (d.step plat dev first).entries, Under dir e.path.1 := by
  obtain ⟨⟨added,events,plays⟩,entries⟩ := adds
  rw [reports,events,List.drop_left]
  exact ⟨plays,entries⟩

/-- What happens below the root is reported in records that play back, and stays below. -/
theorem step_plays {d : Desk} (under : ∀ e ∈ d.entries, Under dir e.path.1) {first : Happening} (within : first.Within dir) :
    Plays dir (d.reports plat dev first) ∧ ∀ e ∈ (d.step plat dev first).entries, Under dir e.path.1 := by
  cases first with
  | deliver now =>
    refine ⟨plays_nil,?_⟩
    rw [Desk.step]
    split
    · exact under
    · exact under
  | work disk io version =>
    refine ⟨plays_nil,?_⟩
    rw [Desk.step]
    split
    · exact under
    · exact under
  | create path =>
    refine Adds.plays ?_ rfl
    rw [Desk.step]
    split
    · exact adds_single (snoc_under under within) within (by simp) (by simp)
    · exact adds_nothing under
  | touch path =>
    refine Adds.plays ?_ rfl
    rw [Desk.step]
    split
    · exact adds_nothing under
    · rename_i e found
      exact adds_single under (find_under under found) (by simp) (by simp)
  | remove path =>
    refine Adds.plays ?_ rfl
    rw [Desk.step]
    split
    · rename_i real found
      exact adds_single (without_under under _) (find_under under found) (by simp) (by simp)
    · exact adds_nothing under
  | makeDir path =>
    refine Adds.plays ?_ rfl
    rw [Desk.step]
    split
    · exact adds_single (snoc_under under within) within (by simp) (by simp)
    · exact adds_nothing under
  | removeDir path =>
    refine Adds.plays ?_ rfl
    rw [Desk.step]
    split
    · rename_i real found
      split
      · exact adds_nothing under
      · exact adds_single (without_under under _) (find_under under found) (by simp) (by simp)
    · exact adds_nothing under
  | move old new paired =>
    refine Adds.plays ?_ rfl
    rw [Desk.step]
    split
    · rename_i real found
      split
      · exact adds_nothing under
      · exact adds_rename (snoc_under (without_under under _) within.2) (find_under under found) within.2 paired
    · exact adds_nothing under
  | moveDir old new paired =>
    refine Adds.plays ?_ rfl
    rw [Desk.step]
    split
    · rename_i real found free
      refine adds_rename (snoc_under ?_ within.2) (find_under under found) within.2 paired
      intro e member
      obtain ⟨before,there,rfl⟩ := List.mem_map.mp member
      exact rerooted_under within.2 (without_under under _ before there)
    · exact adds_nothing under

theorem heard_plays {d : Desk} (under : ∀ e ∈ d.entries, Under dir e.path.1) {happenings : List Happening}
    (within : ∀ first ∈ happenings, first.Within dir) : Plays dir (d.heard plat dev happenings) := by
  induction happenings generalizing d with
  | nil => exact plays_nil
  | cons first rest ih =>
    obtain ⟨plays,below⟩ : Plays dir (d.reports plat dev first) ∧ ∀ e ∈ (d.step plat dev first).entries, Under dir e.path.1 :=
      step_plays under (within first List.mem_cons_self)
    exact plays.append (ih below fun later member => within later (List.mem_cons_of_mem _ member))

end

/-! ### A rename in two buffers -/

section
open KnownAnswers

/-- A record of a name of five letters, with the zeros that align the next. -/
def noteWritten (action : Nat) (name : WStr) (known : action < 256^4) (sized : 2 * name.length < 256^4) : Written :=
  ⟨⟨action,name⟩,[0,0],known,sized⟩

def noteBuffers : List ReadOutcome :=
  [.completed (recordBytes [noteWritten 1 (wlit "a.txt") (by decide) (by decide),noteWritten 4 (wlit "a.txt") (by decide) (by decide)]),
    .timedOut,.completed (recordBytes [noteWritten 5 (wlit "b.txt") (by decide) (by decide)])]

def noteRecords : List (List NotifyRecord) := [[⟨1,wlit "a.txt"⟩,⟨4,wlit "a.txt"⟩],[],[⟨5,wlit "b.txt"⟩]]

theorem noteBuffers_carry : List.Forall₂ Conveys noteBuffers noteRecords := by
  refine .cons (.inr ⟨_,by simp,by decide,rfl,rfl⟩) (.cons rfl (.cons (.inr ⟨_,by simp,by decide,rfl,rfl⟩) .nil))

theorem rename_reported : ∃ buf, pump (wlit "C:\\notes") .start noteBuffers =
    some ⟨buf,⟨openRename (wlit "C:\\notes") noteRecords.flatten,eventsOf (wlit "C:\\notes") noteRecords.flatten⟩,false⟩ :=
  watcher_reports (wlit "C:\\notes") noteBuffers_carry

def noteHappenings : List Happening :=
  [.create ⟨wlit "C:\\notes\\a.txt",by decide⟩,.move ⟨wlit "C:\\notes\\a.txt",by decide⟩ ⟨wlit "C:\\notes\\b.txt",by decide⟩ true]

def noteDesk : Desk := ⟨⟨LocalDb.empty,⟨.empty,[]⟩,.empty,[],true⟩,[],[],fun _ => false⟩

end

end NPSync.Engine
