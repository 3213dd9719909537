import NPSync.Library.EditScript
import NPSync.Merge

/-! The line diff. The table holds the lengths of longest common subsequences, so
the backtracking follows an optimal edit script; its edits are the script's
changes, grouped between the lines it keeps. -/
namespace NPSync.Merge
open Library Library.EditScript

/-- The entry of the table for two suffixes. -/
def lcsLen (source target : List Str) : Nat := ((lcsTable target source).headD []).headD 0

theorem lcsRow_length (line : Str) (target : List Str) (below : List Nat) (fits : below.length = target.length + 1) :
    (lcsRow line target below).length = target.length + 1 := by
  induction target generalizing below with
  | nil => cases below <;> rfl
  | cons t target ih =>
    cases below with
    | nil => contradiction
    | cons b below =>
      have tail := ih below (Nat.succ.inj fits)
      show (lcsRow line target below).length + 1 = target.length + 1 + 1
      rw [tail]

theorem row_length (source target : List Str) : ((lcsTable target source).headD []).length = target.length + 1 := by
  induction source with
  | nil => exact List.length_replicate
  | cons line rest ih => exact lcsRow_length line target _ ih

/-- The first column is the only one that depends on the first target line. -/
theorem lcsTable_drop (source : List Str) (t : Str) (target : List Str) :
    (lcsTable (t::target) source).map (·.drop 1) = lcsTable target source := by
  induction source with
  | nil => rfl
  | cons line rest ih =>
    have fits := row_length rest (t::target)
    have heads : ((lcsTable (t::target) rest).headD []).drop 1 = (lcsTable target rest).headD [] := by
      rw [← ih]
      cases lcsTable (t::target) rest <;> rfl
    show (lcsRow line (t::target) ((lcsTable (t::target) rest).headD [])).drop 1::(lcsTable (t::target) rest).map (·.drop 1) =
      lcsRow line target ((lcsTable target rest).headD [])::lcsTable target rest
    rw [ih,← heads]
    cases below : (lcsTable (t::target) rest).headD [] with
    | nil =>
      rw [below] at fits
      contradiction
    | cons b bs => rfl

theorem row_drop (source : List Str) (t : Str) (target : List Str) :
    ((lcsTable (t::target) source).headD []).drop 1 = (lcsTable target source).headD [] := by
  rw [← lcsTable_drop source t target]
  cases lcsTable (t::target) source <;> rfl

theorem row_second (source : List Str) (t : Str) (target : List Str) :
    ((lcsTable (t::target) source).headD []).getD 1 0 = lcsLen source target := by
  unfold lcsLen
  rw [← row_drop source t target]
  cases (lcsTable (t::target) source).headD [] with
  | nil => rfl
  | cons first rest => cases rest <;> rfl

@[simp] theorem lcsLen_nil_left (target : List Str) : lcsLen [] target = 0 := rfl

@[simp] theorem lcsLen_nil_right (source : List Str) : lcsLen source [] = 0 := by
  cases source with
  | nil => rfl
  | cons line rest =>
    show (lcsRow line [] ((lcsTable [] rest).headD [])).headD 0 = 0
    cases (lcsTable [] rest).headD [] <;> rfl

theorem lcsLen_cons (line t : Str) (source target : List Str) : lcsLen (line::source) (t::target) =
    if line = t then lcsLen source target + 1 else max (lcsLen source (t::target)) (lcsLen (line::source) target) := by
  have drop := row_drop source t target
  have fits := row_length source (t::target)
  unfold lcsLen
  show (lcsRow line (t::target) ((lcsTable (t::target) source).headD [])).headD 0 = _
  show _ = if line = t then ((lcsTable target source).headD []).headD 0 + 1
    else max (((lcsTable (t::target) source).headD []).headD 0)
      ((lcsRow line target ((lcsTable target source).headD [])).headD 0)
  rw [← drop]
  cases below : (lcsTable (t::target) source).headD [] with
  | nil =>
    rw [below] at fits
    contradiction
  | cons b bs => rfl

theorem lcsLen_isLcs (source target : List Str) : IsLcs (lcsLen source target) source target := by
  induction source generalizing target with
  | nil => exact IsLcs.nil_left target
  | cons line source ih =>
    induction target with
    | nil => exact lcsLen_nil_right (line::source) ▸ IsLcs.nil_right (line::source)
    | cons t target next =>
      rw [lcsLen_cons]
      split
      · rename_i same
        subst same
        exact (ih target).cons_same line
      · rename_i differ
        exact IsLcs.cons_differ differ (ih (t::target)) next

/-- One step of a script, as the backtracking takes it. -/
def Walk.op (w : Walk) : EditOp Str → Walk
  | .keep _ => {w.close with i := w.i + 1}
  | .delete _ => {w.opened with i := w.i + 1}
  | .insert line => {w.opened with lines := w.opened.lines ++ [line]}

theorem Walk.op_deletes (w : Walk) (source : List Str) (filled : source ≠ []) :
    (source.map EditOp.delete).foldl Walk.op w = {w.opened with i := w.i + source.length} := by
  induction source generalizing w with
  | nil => contradiction
  | cons line rest ih =>
    rw [List.map_cons,List.foldl_cons]
    cases rest with
    | nil => rfl
    | cons second rest =>
      rw [ih _ (List.cons_ne_nil _ _)]
      simp only [Walk.op,Walk.opened,Option.getD_some,List.length_cons,Walk.mk.injEq]
      refine ⟨by omega,trivial,trivial,trivial⟩

theorem Walk.op_inserts (w : Walk) (target : List Str) (filled : target ≠ []) :
    (target.map EditOp.insert).foldl Walk.op w = {w.opened with lines := w.opened.lines ++ target} := by
  induction target generalizing w with
  | nil => contradiction
  | cons line rest ih =>
    rw [List.map_cons,List.foldl_cons]
    cases rest with
    | nil => rfl
    | cons second rest =>
      rw [ih _ (List.cons_ne_nil _ _)]
      simp only [Walk.op,Walk.opened,Option.getD_some,List.append_assoc,List.singleton_append]

/-- The script of the lines that are left when one side has ended. -/
def leftover (source target : List Str) : EditScript Str := source.map EditOp.delete ++ target.map EditOp.insert

theorem leftover_facts (source target : List Str) : before (leftover source target) = source ∧
    after (leftover source target) = target ∧ kept (leftover source target) = [] := by
  have deletes : ∀ lines : List Str, before (lines.map EditOp.delete) = lines ∧ after (lines.map EditOp.delete) = [] ∧
      kept (lines.map EditOp.delete) = [] := by
    intro lines
    induction lines with
    | nil => exact ⟨rfl,rfl,rfl⟩
    | cons line rest ih => simp [ih,EditOp.before,EditOp.after,EditOp.kept]
  have inserts : ∀ lines : List Str, before (lines.map EditOp.insert) = [] ∧ after (lines.map EditOp.insert) = lines ∧
      kept (lines.map EditOp.insert) = [] := by
    intro lines
    induction lines with
    | nil => exact ⟨rfl,rfl,rfl⟩
    | cons line rest ih => simp [ih,EditOp.before,EditOp.after,EditOp.kept]
  simp [leftover,deletes source,inserts target]

/-- The end of the backtracking, once one side is used up. -/
def Walk.ended (w : Walk) (source target : List Str) : Walk :=
  let w := if source = [] then w else {w.opened with i := w.i + source.length}
  let w := if target = [] then w else {w.opened with lines := w.opened.lines ++ target}
  w.close

theorem Walk.ended_leftover (w : Walk) (source target : List Str) :
    w.ended source target = ((leftover source target).foldl Walk.op w).close := by
  have first : (source.map EditOp.delete).foldl Walk.op w =
      if source = [] then w else {w.opened with i := w.i + source.length} := by
    split
    · rename_i empty
      rw [empty]
      rfl
    · rename_i filled
      exact Walk.op_deletes w source filled
  rw [leftover,List.foldl_append,first]
  unfold Walk.ended
  dsimp only
  split
  · rename_i empty
    rw [empty]
    rfl
  · rename_i filled
    rw [Walk.op_inserts _ target filled]

/-- One round of the backtracking, with the table entries read as lengths. -/
theorem backtrack_cons (f t : Str) (source target : List Str) (fuel : Nat) (w : Walk) :
    backtrack (f::source) (t::target) (lcsTable (t::target) (f::source)) (fuel + 1) w =
      if f = t then backtrack source target (lcsTable target source) fuel (w.op (.keep f))
      else if lcsLen (f::source) target ≤ lcsLen source (t::target) then
        backtrack source (t::target) (lcsTable (t::target) source) fuel (w.op (.delete f))
      else backtrack (f::source) target (lcsTable target (f::source)) fuel (w.op (.insert t)) := by
  have table : lcsTable (t::target) (f::source) =
      lcsRow f (t::target) ((lcsTable (t::target) source).headD [])::lcsTable (t::target) source := rfl
  have right := row_second (f::source) t target
  have down : lcsLen source (t::target) = ((lcsTable (t::target) source).headD []).headD 0 := rfl
  have drop := lcsTable_drop source t target
  have drop' := lcsTable_drop (f::source) t target
  rw [table] at right drop' ⊢
  cases below : lcsTable (t::target) source with
  | nil =>
    have fits := row_length source (t::target)
    rw [below] at fits
    contradiction
  | cons row rest =>
    rw [below] at right down drop drop'
    rw [← drop,← drop',← right,down]
    rfl

/-- `script` turns the source into the target, keeps as much as can be kept, and is
what the backtracking does. -/
structure Follows (source target : List Str) (w final : Walk) (script : EditScript Str) : Prop where
  before : before script = source
  after : after script = target
  kept : (kept script).length = lcsLen source target
  walk : final = (script.foldl Walk.op w).close

theorem follows_ended (source target : List Str) (w : Walk) (out : source = [] ∨ target = []) :
    Follows source target w (w.ended source target) (leftover source target) := by
  obtain ⟨left,right,nothing⟩ := leftover_facts source target
  refine ⟨left,right,?_,w.ended_leftover source target⟩
  rw [nothing]
  rcases out with rfl | rfl
  · exact (lcsLen_nil_left target).symm
  · exact (lcsLen_nil_right source).symm

theorem backtrack_follows (source target : List Str) (fuel : Nat) (enough : source.length + target.length ≤ fuel) (w : Walk) :
    ∃ script, Follows source target w (backtrack source target (lcsTable target source) fuel w) script := by
  induction fuel generalizing source target w with
  | zero =>
    have empty : source = [] := List.eq_nil_of_length_eq_zero (by omega)
    subst empty
    exact ⟨_,follows_ended [] target w (.inl rfl)⟩
  | succ fuel ih =>
    cases source with
    | nil => exact ⟨_,follows_ended [] target w (.inl rfl)⟩
    | cons f source =>
      cases target with
      | nil => exact ⟨_,follows_ended (f::source) [] w (.inr rfl)⟩
      | cons t target =>
        have entry := lcsLen_cons f t source target
        rw [List.length_cons,List.length_cons] at enough
        rw [backtrack_cons]
        split
        · rename_i same
          subst same
          obtain ⟨script,follows⟩ := ih source target (by omega) (w.op (.keep f))
          refine ⟨EditOp.keep f::script,?_,?_,?_,follows.walk⟩
          · rw [before_cons,follows.before]
            rfl
          · rw [after_cons,follows.after]
            rfl
          · rw [kept_cons,List.length_append,follows.kept,entry,if_pos rfl]
            exact Nat.add_comm _ _
        rename_i differ
        rw [if_neg differ] at entry
        split
        · rename_i deletes
          obtain ⟨script,follows⟩ := ih source (t::target) (by rw [List.length_cons]; omega) (w.op (.delete f))
          refine ⟨EditOp.delete f::script,?_,?_,?_,follows.walk⟩
          · rw [before_cons,follows.before]
            rfl
          · rw [after_cons,follows.after]
            rfl
          · rw [kept_cons,entry,Nat.max_eq_left deletes]
            exact follows.kept
        · rename_i inserts
          obtain ⟨script,follows⟩ := ih (f::source) target (by rw [List.length_cons]; omega) (w.op (.insert t))
          refine ⟨EditOp.insert t::script,?_,?_,?_,follows.walk⟩
          · rw [before_cons,follows.before]
            rfl
          · rw [after_cons,follows.after]
            rfl
          · rw [kept_cons,entry,Nat.max_eq_right (by omega)]
            exact follows.kept

/-- What is kept is a longest common subsequence. -/
theorem Follows.optimal {source target : List Str} {w final : Walk} {script : EditScript Str}
    (follows : Follows source target w final script) : Optimal script := by
  intro common inSource inTarget
  rw [follows.before] at inSource
  rw [follows.after] at inTarget
  rw [follows.kept]
  exact (lcsLen_isLcs source target).longest common inSource inTarget

/-- `edits` are the changes of the script, grouped between the lines that it keeps;
the script starts at line `pos`. -/
inductive Groups : Nat → EditScript Str → List Edit → Prop
  | kept (pos : Nat) (lines : List Str) : Groups pos (keeps lines) []
  | changed (pos : Nat) (lines : List Str) (change rest : EditScript Str) (edits : List Edit) (real : change ≠ [])
      (changes : ∀ op ∈ change, op.Changes)
      (apart : ∀ e ∈ edits, pos + lines.length + (before change).length < e.aStart)
      (later : Groups (pos + lines.length + (before change).length) rest edits) :
      Groups pos (keeps lines ++ change ++ rest)
        (⟨pos + lines.length,pos + lines.length + (before change).length,after change⟩::edits)

namespace Groups

theorem starts {pos : Nat} {script : EditScript Str} {edits : List Edit} (groups : Groups pos script edits) :
    ∀ e ∈ edits, pos ≤ e.aStart := by
  cases groups with
  | kept => exact fun e member => absurd member List.not_mem_nil
  | changed _ lines change rest edits real changes apart later =>
    intro e member
    rcases List.mem_cons.mp member with rfl | others
    · exact Nat.le_add_right _ _
    · have after := apart e others
      omega

theorem keep {pos : Nat} {script : EditScript Str} {edits : List Edit} (groups : Groups (pos + 1) script edits) (line : Str) :
    Groups pos (EditOp.keep line::script) edits := by
  cases groups with
  | kept _ lines => exact .kept pos (line::lines)
  | changed _ lines change rest edits real changes apart later =>
    have size : pos + (line::lines).length = pos + 1 + lines.length := by
      rw [List.length_cons]
      omega
    have more := Groups.changed pos (line::lines) change rest edits real changes
    rw [size] at more
    exact more apart later

/-- Edits lie inside the script's lines. -/
theorem inside {pos : Nat} {script : EditScript Str} {edits : List Edit} (groups : Groups pos script edits) :
    ∀ e ∈ edits, e.aStart ≤ e.aEnd ∧ e.aEnd ≤ pos + (before script).length := by
  induction groups with
  | kept => exact fun e member => absurd member List.not_mem_nil
  | changed pos lines change rest edits real changes apart later ih =>
    intro e member
    simp only [before_append,before_keeps,List.length_append]
    rcases List.mem_cons.mp member with rfl | others
    · exact ⟨Nat.le_add_right _ _,by dsimp only; omega⟩
    · have tail := ih e others
      exact ⟨tail.1,by omega⟩

theorem ordered {pos : Nat} {script : EditScript Str} {edits : List Edit} (groups : Groups pos script edits) :
    edits.Pairwise (fun first second => first.aStart < second.aStart) := by
  induction groups with
  | kept => exact List.Pairwise.nil
  | changed pos lines change rest edits real changes apart later ih =>
    refine List.pairwise_cons.mpr ⟨?_,ih⟩
    intro e member
    have after := apart e member
    dsimp only
    omega

/-- Without edits the script changes nothing. -/
theorem eq_keeps {pos : Nat} {script : EditScript Str} (groups : Groups pos script []) : script = keeps (before script) := by
  cases groups with
  | kept _ lines => rw [before_keeps]

theorem nil_of_keeps {pos : Nat} {script : EditScript Str} {edits : List Edit} (groups : Groups pos script edits)
    (unchanged : script = keeps (before script)) : edits = [] := by
  cases groups with
  | kept => rfl
  | changed _ lines change rest edits real changes apart later =>
    obtain ⟨op,ops,rfl⟩ := List.exists_cons_of_ne_nil real
    have member : op ∈ keeps (before (keeps lines ++ op::ops ++ rest)) := by
      rw [← unchanged]
      simp
    obtain ⟨line,-,same⟩ := List.mem_map.mp member
    have change := changes op List.mem_cons_self
    rw [← same] at change
    exact absurd change (List.cons_ne_nil _ _)

/-- The lines before the first edit are kept. -/
theorem advance {pos : Nat} {script : EditScript Str} {edits : List Edit} (groups : Groups pos script edits) (p : Nat)
    (low : pos ≤ p) (high : p ≤ pos + (before script).length) (clear : ∀ e ∈ edits, p ≤ e.aStart) :
    ∃ lines rest, script = keeps lines ++ rest ∧ pos + lines.length = p ∧ Groups p rest edits := by
  cases groups with
  | kept _ lines =>
    rw [before_keeps] at high
    refine ⟨lines.take (p - pos),keeps (lines.drop (p - pos)),?_,?_,.kept p _⟩
    · rw [← keeps_append,List.take_append_drop]
    · rw [List.length_take]
      omega
  | changed _ lines change rest edits real changes apart later =>
    have first := clear _ List.mem_cons_self
    have size : p + (lines.drop (p - pos)).length = pos + lines.length := by
      rw [List.length_drop]
      dsimp only at first
      omega
    refine ⟨lines.take (p - pos),keeps (lines.drop (p - pos)) ++ change ++ rest,?_,?_,?_⟩
    · rw [← List.append_assoc,← List.append_assoc,← keeps_append,List.take_append_drop]
    · rw [List.length_take]
      dsimp only at first
      omega
    · have more := Groups.changed p (lines.drop (p - pos)) change rest edits real changes
      rw [size] at more
      exact more apart later

/-- A script is cut where no edit is open. -/
theorem cut {pos : Nat} {script : EditScript Str} {edits : List Edit} (groups : Groups pos script edits) (e : Nat)
    (low : pos ≤ e) (high : e ≤ pos + (before script).length) (taken rest : List Edit) (split : edits = taken ++ rest)
    (closed : ∀ x ∈ taken, x.aEnd ≤ e) (clear : ∀ x ∈ rest, e < x.aStart) :
    ∃ first second, script = first ++ second ∧ pos + (before first).length = e ∧ Groups pos first taken ∧
      Groups e second rest := by
  have uncut : ∀ {pos : Nat} {script : EditScript Str}, Groups pos script rest → pos ≤ e → e ≤ pos + (before script).length →
      ∃ first second, script = first ++ second ∧ pos + (before first).length = e ∧ Groups pos first [] ∧
        Groups e second rest := by
    intro pos script groups low high
    obtain ⟨lines,others,whole,size,tail⟩ := groups.advance e low high (fun x member => Nat.le_of_lt (clear x member))
    exact ⟨keeps lines,others,whole,by rw [before_keeps,size],.kept pos lines,tail⟩
  induction groups generalizing taken with
  | kept pos lines =>
    obtain ⟨rfl,rfl⟩ := List.append_eq_nil_iff.mp split.symm
    exact uncut (.kept pos lines) low high
  | changed pos lines change others edits real changes apart later ih =>
    cases taken with
    | nil =>
      rw [List.nil_append] at split
      subst split
      exact uncut (.changed pos lines change others edits real changes apart later) low high
    | cons x taken =>
      obtain ⟨rfl,rfl⟩ := List.cons.inj split
      have passed := closed _ List.mem_cons_self
      simp only [before_append,before_keeps,List.length_append] at high
      obtain ⟨first,second,whole,size,front,back⟩ := ih passed (by omega) taken rfl
        (fun y member => closed y (List.mem_cons_of_mem _ member))
      refine ⟨keeps lines ++ change ++ first,second,by rw [whole,List.append_assoc _ first],?_,?_,back⟩
      · simp only [before_append,before_keeps,List.length_append]
        omega
      · exact .changed pos lines change first taken real changes
          (fun y member => apart y (List.mem_append_left _ member)) front

end Groups

/-- What a walk with a pending change yields on the rest of the script. -/
structure Pending (w : Walk) (aStart : Nat) (change : EditScript Str) : Prop where
  start : w.start = some aStart
  real : change ≠ []
  changes : ∀ op ∈ change, op.Changes
  lines : w.lines = after change
  reached : w.i = aStart + (before change).length

theorem Pending.delete {w : Walk} {aStart : Nat} {change : EditScript Str} (pending : Pending w aStart change) (line : Str) :
    Pending (w.op (.delete line)) aStart (change ++ [.delete line]) where
  start := by simp [Walk.op,Walk.opened,pending.start]
  real := by simp
  changes := by
    intro op member
    rcases List.mem_append.mp member with old | new
    · exact pending.changes op old
    · rw [List.mem_singleton.mp new]
      rfl
  lines := by
    rw [after_append]
    exact pending.lines.trans (List.append_nil _).symm
  reached := by
    rw [before_append,List.length_append,← Nat.add_assoc,← pending.reached]
    rfl

theorem Pending.insert {w : Walk} {aStart : Nat} {change : EditScript Str} (pending : Pending w aStart change) (line : Str) :
    Pending (w.op (.insert line)) aStart (change ++ [.insert line]) where
  start := by simp [Walk.op,Walk.opened,pending.start]
  real := by simp
  changes := by
    intro op member
    rcases List.mem_append.mp member with old | new
    · exact pending.changes op old
    · rw [List.mem_singleton.mp new]
      rfl
  lines := by
    rw [after_append,← pending.lines]
    rfl
  reached := by
    rw [before_append,List.length_append,← Nat.add_assoc,← pending.reached]
    rfl

/-- A walk with no pending change, as it stands before every line it keeps. -/
structure Idle (w : Walk) : Prop where
  start : w.start = none
  lines : w.lines = []

theorem Idle.delete {w : Walk} (idle : Idle w) (line : Str) : Pending (w.op (.delete line)) w.i [.delete line] where
  start := by simp [Walk.op,Walk.opened,idle.start]
  real := List.cons_ne_nil _ _
  changes := by
    intro op member
    rw [List.mem_singleton.mp member]
    rfl
  lines := idle.lines
  reached := rfl

theorem Idle.insert {w : Walk} (idle : Idle w) (line : Str) : Pending (w.op (.insert line)) w.i [.insert line] where
  start := by simp [Walk.op,Walk.opened,idle.start]
  real := List.cons_ne_nil _ _
  changes := by
    intro op member
    rw [List.mem_singleton.mp member]
    rfl
  lines := by
    show w.lines ++ [line] = [line]
    rw [idle.lines]
    rfl
  reached := rfl

/-- A walk groups the operations that are still to come. -/
theorem walk_groups (script : EditScript Str) (w : Walk) :
    (Idle w → ∃ edits, (script.foldl Walk.op w).close.edits = w.edits ++ edits ∧ Groups w.i script edits) ∧
    ∀ aStart change, Pending w aStart change →
      ∃ edits, (script.foldl Walk.op w).close.edits = w.edits ++ edits ∧ Groups aStart (change ++ script) edits := by
  induction script generalizing w with
  | nil =>
    constructor
    · intro idle
      refine ⟨[],?_,.kept _ []⟩
      rw [List.foldl_nil,Walk.close,idle.start,List.append_nil]
    · intro aStart change pending
      refine ⟨[⟨aStart,aStart + (before change).length,after change⟩],?_,?_⟩
      · rw [List.foldl_nil,Walk.close,pending.start]
        dsimp only
        rw [pending.reached,pending.lines]
      · exact .changed aStart [] change [] [] pending.real pending.changes (fun e member => absurd member List.not_mem_nil)
          (.kept _ [])
  | cons op rest ih =>
    constructor
    · intro idle
      cases op with
      | keep line =>
        have closed : w.close = w := by rw [Walk.close,idle.start]
        have kept : w.op (.keep line) = {w with i := w.i + 1} := by rw [Walk.op,closed]
        obtain ⟨edits,walk,groups⟩ := (ih (w.op (.keep line))).1 (kept ▸ ⟨idle.start,idle.lines⟩)
        rw [kept] at walk groups
        refine ⟨edits,?_,groups.keep line⟩
        rw [List.foldl_cons,kept]
        exact walk
      | delete line => exact (ih (w.op (.delete line))).2 w.i [.delete line] (idle.delete line)
      | insert line => exact (ih (w.op (.insert line))).2 w.i [.insert line] (idle.insert line)
    · intro aStart change pending
      cases op with
      | keep line =>
        have kept : w.op (.keep line) = ⟨w.i + 1,none,[],w.edits ++ [⟨aStart,w.i,w.lines⟩]⟩ := by
          rw [Walk.op,Walk.close,pending.start]
        obtain ⟨edits,walk,groups⟩ := (ih (w.op (.keep line))).1 (kept ▸ ⟨rfl,rfl⟩)
        rw [kept] at walk groups
        dsimp only at walk groups
        refine ⟨⟨aStart,w.i,w.lines⟩::edits,?_,?_⟩
        · rw [List.foldl_cons,kept,walk,List.append_assoc]
          rfl
        · rw [pending.reached] at groups ⊢
          rw [pending.lines]
          refine .changed aStart [] change (EditOp.keep line::rest) edits pending.real pending.changes ?_ (groups.keep line)
          intro e member
          exact groups.starts e member
      | delete line =>
        obtain ⟨edits,walk,groups⟩ := (ih (w.op (.delete line))).2 aStart _ (pending.delete line)
        rw [List.append_assoc] at groups
        exact ⟨edits,walk,groups⟩
      | insert line =>
        obtain ⟨edits,walk,groups⟩ := (ih (w.op (.insert line))).2 aStart _ (pending.insert line)
        rw [List.append_assoc] at groups
        exact ⟨edits,walk,groups⟩

/-- The diff of two texts: an optimal script between them, grouped into edits. -/
theorem diffLines_script (source target : List Str) (edits : List Edit) (done : diffLines source target = some edits) :
    ∃ script, before script = source ∧ after script = target ∧ Optimal script ∧ Groups 0 script edits := by
  unfold diffLines at done
  split at done
  · contradiction
  obtain ⟨script,follows⟩ := backtrack_follows source target (source.length + target.length) (Nat.le_refl _) ⟨0,none,[],[]⟩
  obtain ⟨others,walk,groups⟩ := (walk_groups script ⟨0,none,[],[]⟩).1 ⟨rfl,rfl⟩
  refine ⟨script,follows.before,follows.after,follows.optimal,?_⟩
  rw [← follows.walk,Option.some.inj done] at walk
  rw [walk]
  exact groups

theorem diffLines_isSome_iff (source target : List Str) :
    (∃ edits, diffLines source target = some edits) ↔ source.length * target.length ≤ kMaxAutoMergeCells := by
  unfold diffLines
  split
  · rename_i large
    simp only [reduceCtorEq,exists_false,false_iff]
    omega
  · rename_i fits
    simp only [Option.some.injEq,exists_eq',true_iff]
    rw [not_and,not_and] at fits
    rcases Nat.eq_zero_or_pos source.length with empty | filled
    · rw [empty,Nat.zero_mul]
      exact Nat.zero_le _
    rcases Nat.eq_zero_or_pos target.length with empty | filled'
    · rw [empty,Nat.mul_zero]
      exact Nat.zero_le _
    exact Nat.le_of_not_lt (fits filled filled')

end NPSync.Merge
