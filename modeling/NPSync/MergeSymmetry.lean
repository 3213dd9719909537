import NPSync.MergeAlignment

/-! The merge seen from the other side. A settled region does not depend on which side
is folded first, so the sweep with the sides exchanged takes the same regions. -/
namespace NPSync.Merge
open Library Library.EditScript

def Region.swap (r : Region) : Region := ⟨r.takenR,r.takenL,r.restR,r.restL,r.regionEnd⟩

def exchange (h : MergeHunk) : MergeHunk := ⟨h.remoteLines,h.localLines⟩

theorem Folds.swap {editsL editsR : List Edit} {start : Nat} {r : Region} (folds : Folds editsL editsR start r) :
    Folds editsR editsL start r.swap where
  splitL := folds.splitR
  splitR := folds.splitL
  withinL := folds.withinR
  withinR := folds.withinL
  grown := folds.grown
  least := fun e low closedR closedL => folds.least e low closedL closedR

theorem Settled.swap {r : Region} (calm : Settled r) : Settled r.swap := ⟨calm.clearR,calm.clearL⟩

/-- The part of a list that a region takes is what starts inside it. -/
theorem taken_eq {edits taken rest : List Edit} (split : edits = taken ++ rest) (e : Nat)
    (within : ∀ x ∈ taken, x.aStart ≤ e ∧ x.aEnd ≤ e) (clear : ∀ x ∈ rest.head?, e < x.aStart) :
    taken = edits.takeWhile (fun x => x.aStart ≤ e) ∧ rest = edits.dropWhile (fun x => x.aStart ≤ e) := by
  have all : ∀ x ∈ taken, decide (x.aStart ≤ e) = true := fun x member => decide_eq_true (within x member).1
  rw [split,List.takeWhile_append_of_pos all,List.dropWhile_append_of_pos all]
  cases rest with
  | nil => simp
  | cons x rest =>
    have late : ¬x.aStart ≤ e := Nat.not_le_of_lt (clear x rfl)
    simp [late]

theorem Folds.closed {editsL editsR : List Edit} {start : Nat} {r : Region} (folds : Folds editsL editsR start r)
    (calm : Settled r) (orderedL : Ordered editsL) (orderedR : Ordered editsR) :
    ClosedAt r.regionEnd editsL ∧ ClosedAt r.regionEnd editsR := by
  have side : ∀ {edits taken rest : List Edit}, edits = taken ++ rest → Ordered edits →
      (∀ x ∈ taken, x.aStart ≤ r.regionEnd ∧ x.aEnd ≤ r.regionEnd) → (∀ x ∈ rest.head?, r.regionEnd < x.aStart) →
      ClosedAt r.regionEnd edits := by
    intro edits taken rest split ordered within clear x member starts
    rw [split] at member ordered
    rcases List.mem_append.mp member with inside | outside
    · exact (within x inside).2
    · have late := Ordered.clear (List.pairwise_append.mp ordered).2.1 _ clear x outside
      omega
  exact ⟨side folds.splitL orderedL folds.withinL calm.clearL,side folds.splitR orderedR folds.withinR calm.clearR⟩

/-- The region is determined by the edits and its start. -/
theorem Folds.unique {editsL editsR : List Edit} {start : Nat} {r r' : Region} (folds : Folds editsL editsR start r)
    (calm : Settled r) (folds' : Folds editsL editsR start r') (calm' : Settled r') (orderedL : Ordered editsL)
    (orderedR : Ordered editsR) : r = r' := by
  have closed := folds.closed calm orderedL orderedR
  have closed' := folds'.closed calm' orderedL orderedR
  have same : r.regionEnd = r'.regionEnd :=
    Nat.le_antisymm (folds.least _ folds'.grown closed'.1 closed'.2) (folds'.least _ folds.grown closed.1 closed.2)
  obtain ⟨takenL,restL⟩ := taken_eq folds.splitL _ folds.withinL calm.clearL
  obtain ⟨takenR,restR⟩ := taken_eq folds.splitR _ folds.withinR calm.clearR
  obtain ⟨takenL',restL'⟩ := taken_eq folds'.splitL _ folds'.withinL calm'.clearL
  obtain ⟨takenR',restR'⟩ := taken_eq folds'.splitR _ folds'.withinR calm'.clearR
  rw [← same] at takenL' restL' takenR' restR'
  cases r
  cases r'
  simp_all

theorem foldRegion_swap (editsL editsR : List Edit) (start : Nat) (orderedL : Ordered editsL) (orderedR : Ordered editsR) :
    foldRegion (editsR.length + editsL.length) ⟨[],[],editsR,editsL,start⟩ =
      (foldRegion (editsL.length + editsR.length) ⟨[],[],editsL,editsR,start⟩).swap := by
  obtain ⟨folds,calm⟩ := foldRegion_start editsL editsR start
  obtain ⟨folds',calm'⟩ := foldRegion_start editsR editsL start
  exact folds'.unique calm' folds.swap calm.swap orderedR orderedL

theorem nextStart_swap (editsL editsR : List Edit) : nextStart editsR editsL = nextStart editsL editsR := by
  unfold nextStart
  cases editsL <;> cases editsR <;> simp [Nat.min_comm]

/-- The sweep with the sides exchanged writes the same text and exchanged hunks. -/
theorem sweep_swap (base : List Str) (eol : Str) (fuel : Nat) (editsL editsR : List Edit) (orderedL : Ordered editsL)
    (orderedR : Ordered editsR) (pos : Nat) (out : Str) (hunks : List MergeHunk) :
    sweep base eol fuel editsR editsL pos out (hunks.map exchange) =
      ((sweep base eol fuel editsL editsR pos out hunks).1,
        (sweep base eol fuel editsL editsR pos out hunks).2.map exchange) := by
  induction fuel generalizing editsL editsR pos out hunks with
  | zero => rfl
  | succ fuel ih =>
    by_cases some' : editsL ≠ [] ∨ editsR ≠ []
    · rw [sweep_round base eol fuel editsR editsL pos out _ some'.symm,sweep_round base eol fuel editsL editsR pos out _ some',
        nextStart_swap]
      dsimp only
      rw [foldRegion_swap editsL editsR _ orderedL orderedR]
      obtain ⟨folds,calm⟩ := foldRegion_start editsL editsR (nextStart editsL editsR)
      generalize nextStart editsL editsR = start at *
      generalize foldRegion (editsL.length + editsR.length) ⟨[],[],editsL,editsR,start⟩ = region at *
      have laterL : Ordered region.restL := (List.pairwise_append.mp (folds.splitL ▸ orderedL)).2.1
      have laterR : Ordered region.restR := (List.pairwise_append.mp (folds.splitR ▸ orderedR)).2.1
      have next := ih region.restL region.restR laterL laterR region.regionEnd
      show (if sideLines base start region.regionEnd region.takenR = sideLines base start region.regionEnd region.takenL
        then _ else if region.takenL = [] then _ else if region.takenR = [] then _ else _) = _
      have idle : region.takenL = [] → region.takenR = [] →
          sideLines base start region.regionEnd region.takenL = sideLines base start region.regionEnd region.takenR := by
        intro noneL noneR
        rw [noneL,noneR]
      simp only [Region.swap]
      generalize sideLines base start region.regionEnd region.takenL = linesL at *
      generalize sideLines base start region.regionEnd region.takenR = linesR at *
      by_cases same : linesL = linesR
      · rw [if_pos same.symm,if_pos same,← same]
        exact next _ _
      rw [if_neg (Ne.symm same),if_neg same]
      by_cases noneL : region.takenL = []
      · have someR : region.takenR ≠ [] := fun noneR => same (idle noneL noneR)
        rw [if_pos noneL,if_neg someR,if_pos noneL]
        exact next _ _
      by_cases noneR : region.takenR = []
      · rw [if_neg noneL,if_pos noneR,if_pos noneR]
        exact next _ _
      · rw [if_neg noneL,if_neg noneR,if_neg noneR,if_neg noneL]
        have swapped := next (out ++ appendLines eol (slice base pos start)) (hunks ++ [⟨linesL,linesR⟩])
        rw [List.map_append] at swapped
        exact swapped
    · rw [not_or,not_not,not_not] at some'
      obtain ⟨rfl,rfl⟩ := some'
      rfl

def exchanged (m : MergeResult) : MergeResult := ⟨m.clean,m.merged,m.hunks.map exchange⟩

/-- The merge of the same texts from the other side: as clean, with the same text, and
with the same conflicts in the same order, their sides exchanged. -/
theorem merge_symmetric (base localText remote : Str) :
    merge base remote localText = exchanged (merge base localText remote) := by
  unfold merge
  by_cases sides : localText = remote
  · rw [if_pos sides,if_pos sides.symm,sides]
    rfl
  rw [if_neg sides,if_neg (Ne.symm sides)]
  by_cases localChanged : localText = base
  · rw [if_neg (fun same => sides (localChanged.trans same.symm)),if_pos localChanged,if_pos localChanged]
    rfl
  by_cases remoteChanged : remote = base
  · rw [if_pos remoteChanged,if_neg localChanged,if_pos remoteChanged]
    rfl
  rw [if_neg localChanged,if_neg remoteChanged,if_neg localChanged,if_neg remoteChanged]
  dsimp only
  cases diffL : diffLines (splitLines base) (splitLines localText) with
  | none => cases diffLines (splitLines base) (splitLines remote) <;> rfl
  | some editsL =>
    cases diffR : diffLines (splitLines base) (splitLines remote) with
    | none => rfl
    | some editsR =>
      obtain ⟨_,-,-,-,groupsL⟩ := diffLines_script _ _ _ diffL
      obtain ⟨_,-,-,-,groupsR⟩ := diffLines_script _ _ _ diffR
      have swapped := sweep_swap (splitLines base) (eolOf base) (editsL.length + editsR.length + 1) editsL editsR
        groupsL.ordered groupsR.ordered 0 [] []
      rw [List.map_nil] at swapped
      dsimp only
      rw [Nat.add_comm editsR.length,swapped]
      generalize sweep (splitLines base) (eolOf base) (editsL.length + editsR.length + 1) editsL editsR 0 [] [] = out
      dsimp only
      by_cases calm : out.2 = []
      · rw [if_pos calm,if_pos (by rw [calm]; rfl)]
        rfl
      · rw [if_neg calm,if_neg (by rwa [List.map_eq_nil_iff])]
        rfl

end NPSync.Merge
