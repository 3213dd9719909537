import NPSync.MinimalDiff

/-! The sweep of the three-way merge. The folding loop ends at the least region that
leaves no edit of either side half inside, and the regions and the lines between
them cut both scripts into the same segments. -/
namespace NPSync.Merge
open Library Library.EditScript

/-- No edit of the list reaches over `e`. -/
def ClosedAt (e : Nat) (edits : List Edit) : Prop := ∀ x ∈ edits, x.aStart ≤ e → x.aEnd ≤ e

/-- What `absorb` takes from a list of edits. -/
structure Absorbs (edits : List Edit) (start : Nat) (taken rest : List Edit) (regionEnd : Nat) : Prop where
  split : edits = taken ++ rest
  within : ∀ x ∈ taken, x.aStart ≤ regionEnd ∧ x.aEnd ≤ regionEnd
  grown : start ≤ regionEnd
  clear : ∀ x ∈ rest.head?, regionEnd < x.aStart
  still : taken = [] → regionEnd = start
  least : ∀ e, start ≤ e → ClosedAt e edits → regionEnd ≤ e

theorem absorb_absorbs (edits taken : List Edit) (start : Nat) : ∃ more,
    (absorb edits taken start).1 = taken ++ more ∧
    Absorbs edits start more (absorb edits taken start).2.1 (absorb edits taken start).2.2 := by
  induction edits generalizing taken start with
  | nil =>
    refine ⟨[],(List.append_nil _).symm,rfl,?_,Nat.le_refl _,?_,fun _ => rfl,fun e low _ => low⟩
    · exact fun x member => absurd member List.not_mem_nil
    · intro x head
      cases head
  | cons x rest ih =>
    rw [absorb]
    split
    · rename_i starts
      obtain ⟨more,taken',absorbs⟩ := ih (taken ++ [x]) (max start x.aEnd)
      have grown := absorbs.grown
      have bounds : start ≤ max start x.aEnd ∧ x.aEnd ≤ max start x.aEnd := ⟨Nat.le_max_left _ _,Nat.le_max_right _ _⟩
      refine ⟨x::more,by rw [taken',List.append_assoc]; rfl,?_,?_,Nat.le_trans bounds.1 grown,absorbs.clear,?_,?_⟩
      · rw [List.cons_append,← absorbs.split]
      · intro y member
        rcases List.mem_cons.mp member with rfl | later
        · exact ⟨by omega,by omega⟩
        · exact absorbs.within y later
      · exact fun empty => absurd empty (List.cons_ne_nil _ _)
      · intro e low closed
        apply absorbs.least e _ (fun y member => closed y (List.mem_cons_of_mem _ member))
        exact Nat.max_le.mpr ⟨low,closed x List.mem_cons_self (Nat.le_trans starts low)⟩
    · rename_i later
      refine ⟨[],(List.append_nil _).symm,rfl,?_,Nat.le_refl _,?_,fun _ => rfl,fun e low _ => low⟩
      · exact fun y member => absurd member List.not_mem_nil
      · intro y head
        cases head
        exact Nat.lt_of_not_le later

/-- What the folding loop arrives at, from a region with nothing taken. -/
structure Folds (editsL editsR : List Edit) (start : Nat) (r : Region) : Prop where
  splitL : editsL = r.takenL ++ r.restL
  splitR : editsR = r.takenR ++ r.restR
  withinL : ∀ x ∈ r.takenL, x.aStart ≤ r.regionEnd ∧ x.aEnd ≤ r.regionEnd
  withinR : ∀ x ∈ r.takenR, x.aStart ≤ r.regionEnd ∧ x.aEnd ≤ r.regionEnd
  grown : start ≤ r.regionEnd
  least : ∀ e, start ≤ e → ClosedAt e editsL → ClosedAt e editsR → r.regionEnd ≤ e

/-- The loop has come to rest. -/
structure Settled (r : Region) : Prop where
  clearL : ∀ x ∈ r.restL.head?, r.regionEnd < x.aStart
  clearR : ∀ x ∈ r.restR.head?, r.regionEnd < x.aStart

theorem foldRegion_folds (editsL editsR : List Edit) (start fuel : Nat) (r : Region) (folds : Folds editsL editsR start r)
    (enough : r.restL.length + r.restR.length ≤ fuel) :
    Folds editsL editsR start (foldRegion fuel r) ∧ Settled (foldRegion fuel r) := by
  induction fuel generalizing r with
  | zero =>
    have emptyL : r.restL = [] := List.eq_nil_of_length_eq_zero (by omega)
    have emptyR : r.restR = [] := List.eq_nil_of_length_eq_zero (by omega)
    refine ⟨folds,?_,?_⟩
    · intro x head
      rw [foldRegion,emptyL] at head
      cases head
    · intro x head
      rw [foldRegion,emptyR] at head
      cases head
  | succ fuel ih =>
    obtain ⟨moreL,takenL,left⟩ := absorb_absorbs r.restL r.takenL r.regionEnd
    rcases absorbedL : absorb r.restL r.takenL r.regionEnd with ⟨allL,restL,endL⟩
    rw [absorbedL] at takenL left
    obtain ⟨moreR,takenR,right⟩ := absorb_absorbs r.restR r.takenR endL
    rcases absorbedR : absorb r.restR r.takenR endL with ⟨allR,restR,endR⟩
    rw [absorbedR] at takenR right
    dsimp only at takenL takenR left right
    have sizeL := congrArg List.length left.split
    have sizeR := congrArg List.length right.split
    rw [List.length_append] at sizeL sizeR
    simp only [foldRegion,absorbedL,absorbedR]
    split
    · rename_i still
      have noneL : moreL = [] := List.eq_nil_of_length_eq_zero (by omega)
      have noneR : moreR = [] := List.eq_nil_of_length_eq_zero (by omega)
      have sameL := left.still noneL
      have sameR := right.still noneR
      refine ⟨folds,?_,?_⟩
      · have clear := left.clear
        rw [sameL] at clear
        rwa [left.split,noneL]
      · have clear := right.clear
        rw [sameR,sameL] at clear
        rwa [right.split,noneR]
    · rename_i moved
      have grownL := left.grown
      have grownR := right.grown
      apply ih
      · constructor
        · dsimp only
          rw [takenL,List.append_assoc,← left.split]
          exact folds.splitL
        · dsimp only
          rw [takenR,List.append_assoc,← right.split]
          exact folds.splitR
        · intro x member
          dsimp only at member ⊢
          rw [takenL] at member
          rcases List.mem_append.mp member with old | new
          · have inside := folds.withinL x old
            exact ⟨by omega,by omega⟩
          · have inside := left.within x new
            exact ⟨by omega,by omega⟩
        · intro x member
          dsimp only at member ⊢
          rw [takenR] at member
          rcases List.mem_append.mp member with old | new
          · have inside := folds.withinR x old
            exact ⟨by omega,by omega⟩
          · exact right.within x new
        · have grown := folds.grown
          dsimp only
          omega
        · intro e low closedL closedR
          have reached := folds.least e low closedL closedR
          have suffixL : ClosedAt e r.restL := fun x member => closedL x (folds.splitL ▸ List.mem_append_right _ member)
          have suffixR : ClosedAt e r.restR := fun x member => closedR x (folds.splitR ▸ List.mem_append_right _ member)
          exact right.least e (left.least e reached suffixL) suffixR
      · dsimp only
        omega

theorem foldRegion_start (editsL editsR : List Edit) (start : Nat) :
    Folds editsL editsR start (foldRegion (editsL.length + editsR.length) ⟨[],[],editsL,editsR,start⟩) ∧
      Settled (foldRegion (editsL.length + editsR.length) ⟨[],[],editsL,editsR,start⟩) := by
  have nothing : ∀ x ∈ ([] : List Edit), x.aStart ≤ start ∧ x.aEnd ≤ start := fun _ member => absurd member List.not_mem_nil
  exact foldRegion_folds editsL editsR start _ _
    ⟨rfl,rfl,nothing,nothing,Nat.le_refl _,fun _ reach _ _ => reach⟩ (Nat.le_refl _)

def Ordered (edits : List Edit) : Prop := edits.Pairwise (fun first second => first.aStart < second.aStart)

theorem Ordered.clear {edits : List Edit} (ordered : Ordered edits) (e : Nat) (head : ∀ x ∈ edits.head?, e < x.aStart) :
    ∀ x ∈ edits, e < x.aStart := by
  cases edits with
  | nil => exact fun x member => absurd member List.not_mem_nil
  | cons first rest =>
    have low := head first rfl
    intro x member
    rcases List.mem_cons.mp member with rfl | later
    · exact low
    · exact Nat.lt_trans low ((List.pairwise_cons.mp ordered).1 x later)

/-- `build` writes what the script makes of its lines. -/
theorem Groups.build {pos : Nat} {script : EditScript Str} {edits : List Edit} (groups : Groups pos script edits)
    (base tail : List Str) (there : base.drop pos = before script ++ tail) :
    Merge.build base (pos + (before script).length) edits pos = after script := by
  induction groups with
  | kept pos lines =>
    rw [before_keeps] at there ⊢
    rw [after_keeps]
    exact (slice_before there).1
  | changed pos lines change rest edits real changes apart later ih =>
    rw [before_append,before_append,before_keeps,List.append_assoc,List.append_assoc] at there
    have first := slice_before there
    have second := slice_before first.2
    have inner : after (keeps lines ++ change ++ rest) = lines ++ after change ++ after rest := by simp
    have size : pos + (before (keeps lines ++ change ++ rest)).length =
        pos + lines.length + (before change).length + (before rest).length := by
      simp only [before_append,before_keeps,List.length_append]
      omega
    rw [inner,size,Merge.build]
    dsimp only
    rw [first.1,ih second.2]

/-- One segment of an alignment: what the base, the local and the remote text have there. -/
structure Segment where
  base : List Str
  localLines : List Str
  remoteLines : List Str

/-- Both sides edited the segment, and not in the same way. -/
def Segment.Conflicting (s : Segment) : Prop :=
  s.localLines ≠ s.base ∧ s.remoteLines ≠ s.base ∧ s.localLines ≠ s.remoteLines

instance (s : Segment) : Decidable s.Conflicting := inferInstanceAs (Decidable (_ ∧ _ ∧ _))

/-- The lines of the side that changed the segment. -/
def Segment.changed (s : Segment) : List Str :=
  if s.remoteLines = s.base then s.localLines else if s.localLines = s.base then s.remoteLines else s.localLines

def Segment.hunk (s : Segment) : MergeHunk := ⟨s.localLines,s.remoteLines⟩

def conflicting (segments : List Segment) : List Segment := segments.filter (fun s => decide s.Conflicting)

def settled (segments : List Segment) : List Segment := segments.filter (fun s => !decide s.Conflicting)

/-- Two scripts over the same lines of the base. -/
structure Overlay where
  localScript : EditScript Str
  remoteScript : EditScript Str
  shared : before localScript = before remoteScript

def Overlay.segment (o : Overlay) : Segment := ⟨before o.localScript,after o.localScript,after o.remoteScript⟩

def Overlay.unchanged (lines : List Str) : Overlay := ⟨keeps lines,keeps lines,rfl⟩

theorem Overlay.unchanged_segment (lines : List Str) : (Overlay.unchanged lines).segment = ⟨lines,lines,lines⟩ := by
  simp [Overlay.segment,Overlay.unchanged]

theorem Segment.same_settled (s : Segment) (same : s.localLines = s.remoteLines) :
    ¬s.Conflicting ∧ s.changed = s.localLines := by
  constructor
  · exact fun conflict => conflict.2.2 same
  · unfold Segment.changed
    split
    · rfl
    split
    · exact same.symm
    · rfl

theorem Segment.local_settled (s : Segment) (only : s.remoteLines = s.base) : ¬s.Conflicting ∧ s.changed = s.localLines :=
  ⟨fun conflict => conflict.2.1 only,if_pos only⟩

theorem Segment.remote_settled (s : Segment) (only : s.localLines = s.base) : ¬s.Conflicting ∧ s.changed = s.remoteLines := by
  refine ⟨fun conflict => conflict.1 only,?_⟩
  unfold Segment.changed
  split
  · rename_i both
    rw [only,both]
  · rfl

/-- The start of the next region. -/
def nextStart (editsL editsR : List Edit) : Nat :=
  let starts := (editsL.head?.map (·.aStart)).toList ++ (editsR.head?.map (·.aStart)).toList
  starts.foldl min (starts.headD 0)

theorem nextStart_le (editsL editsR : List Edit) :
    (∀ x ∈ editsL.head?, nextStart editsL editsR ≤ x.aStart) ∧ ∀ x ∈ editsR.head?, nextStart editsL editsR ≤ x.aStart := by
  unfold nextStart
  cases editsL <;> cases editsR <;> simp

theorem nextStart_reached (editsL editsR : List Edit) (some' : editsL ≠ [] ∨ editsR ≠ []) :
    (∃ x ∈ editsL.head?, x.aStart = nextStart editsL editsR) ∨ ∃ x ∈ editsR.head?, x.aStart = nextStart editsL editsR := by
  unfold nextStart
  cases editsL with
  | nil =>
    cases editsR with
    | nil => simp at some'
    | cons r restR => simp
  | cons l restL =>
    cases editsR with
    | nil => simp
    | cons r restR =>
      simp only [List.head?_cons,Option.map_some,Option.toList_some,List.singleton_append,List.headD_cons,List.foldl_cons,
        List.foldl_nil,Nat.min_self,Option.mem_some_iff,exists_eq_left']
      omega

theorem Ordered.low {edits : List Edit} (ordered : Ordered edits) (p : Nat) (head : ∀ x ∈ edits.head?, p ≤ x.aStart) :
    ∀ x ∈ edits, p ≤ x.aStart := by
  cases edits with
  | nil => exact fun x member => absurd member List.not_mem_nil
  | cons first rest =>
    have low := head first rfl
    intro x member
    rcases List.mem_cons.mp member with rfl | later
    · exact low
    · exact Nat.le_trans low (Nat.le_of_lt ((List.pairwise_cons.mp ordered).1 x later))

/-- What one side has in a region. -/
def sideLines (baseLines : List Str) (start regionEnd : Nat) (taken : List Edit) : List Str :=
  if taken = [] then slice baseLines start regionEnd else Merge.build baseLines regionEnd taken start

/-- One round of the sweep. -/
theorem sweep_round (baseLines : List Str) (eol : Str) (fuel : Nat) (editsL editsR : List Edit) (basePos : Nat) (out : Str)
    (hunks : List MergeHunk) (some' : editsL ≠ [] ∨ editsR ≠ []) :
    sweep baseLines eol (fuel + 1) editsL editsR basePos out hunks =
      let start := nextStart editsL editsR
      let out := out ++ appendLines eol (slice baseLines basePos start)
      let region := foldRegion (editsL.length + editsR.length) ⟨[],[],editsL,editsR,start⟩
      let repL := sideLines baseLines start region.regionEnd region.takenL
      let repR := sideLines baseLines start region.regionEnd region.takenR
      let next := sweep baseLines eol fuel region.restL region.restR region.regionEnd
      if repL = repR then next (out ++ appendLines eol repL) hunks
      else if region.takenR = [] then next (out ++ appendLines eol repL) hunks
      else if region.takenL = [] then next (out ++ appendLines eol repR) hunks
      else next out (hunks ++ [⟨repL,repR⟩]) := by
  cases editsL with
  | nil =>
    cases editsR with
    | nil => simp at some'
    | cons r restR => rfl
  | cons l restL => rfl

/-- A script that turns the base from line `pos` on into one side, with its edits. -/
structure Side (base : List Str) (pos : Nat) (edits : List Edit) (script : EditScript Str) : Prop where
  groups : Groups pos script edits
  lines : before script = base.drop pos
  optimal : Optimal script

theorem Side.bounded {base : List Str} {pos : Nat} {edits : List Edit} {script : EditScript Str}
    (side : Side base pos edits script) (low : pos ≤ base.length) : pos + (before script).length = base.length := by
  rw [side.lines,List.length_drop]
  omega

theorem Side.closed {base : List Str} {pos : Nat} {edits : List Edit} {script : EditScript Str}
    (side : Side base pos edits script) (low : pos ≤ base.length) : ClosedAt base.length edits := by
  intro x member _
  have inside := (side.groups.inside x member).2
  rwa [side.bounded low] at inside

theorem Side.advance {base : List Str} {pos : Nat} {edits : List Edit} {script : EditScript Str}
    (side : Side base pos edits script) (p : Nat) (low : pos ≤ p) (high : p ≤ base.length)
    (clear : ∀ e ∈ edits, p ≤ e.aStart) :
    ∃ rest, script = keeps (slice base pos p) ++ rest ∧ Side base p edits rest := by
  obtain ⟨lines,rest,whole,size,groups⟩ := side.groups.advance p low (side.bounded (Nat.le_trans low high) ▸ high) clear
  have there : base.drop pos = lines ++ before rest := by
    rw [← side.lines,whole,before_append,before_keeps]
  have cut := slice_before there
  rw [size] at cut
  exact ⟨rest,by rw [cut.1,whole],groups,cut.2.symm,(whole ▸ side.optimal).of_append.2⟩

/-- One side of a region: the script over it, what it writes, and the rest. -/
theorem Side.cut {base : List Str} {start : Nat} {edits : List Edit} {script : EditScript Str}
    (side : Side base start edits script) (e : Nat) (low : start ≤ e) (high : e ≤ base.length) (taken rest : List Edit)
    (split : edits = taken ++ rest) (closed : ∀ x ∈ taken, x.aEnd ≤ e) (clear : ∀ x ∈ rest, e < x.aStart) :
    ∃ first second, script = first ++ second ∧ before first = slice base start e ∧ Side base e rest second ∧
      sideLines base start e taken = after first ∧
      (taken = [] ↔ after first = before first) := by
  have reach : e ≤ start + (before script).length := by
    rw [side.bounded (Nat.le_trans low high)]
    exact high
  obtain ⟨first,second,whole,size,front,back⟩ := side.groups.cut e low reach taken rest split closed clear
  have there : base.drop start = before first ++ before second := by rw [← side.lines,whole,before_append]
  have pieces := slice_before there
  rw [size] at pieces
  have optimal := (whole ▸ side.optimal).of_append
  have built := front.build base (before second) there
  rw [size] at built
  have idle : taken = [] → after first = before first := by
    intro none
    subst none
    rw [front.eq_keeps,after_keeps,before_keeps]
  refine ⟨first,second,whole,pieces.1.symm,⟨back,pieces.2.symm,optimal.2⟩,?_,idle,?_⟩
  · unfold sideLines
    split
    · rename_i none
      rw [idle none,pieces.1]
    · exact built
  · intro same
    exact front.nil_of_keeps (optimal.1.unchanged same.symm)

/-- The sweep's result for an alignment. -/
def swept (eol : Str) (segments : List Segment) (out : Str) (hunks : List MergeHunk) : Str × List MergeHunk :=
  (out ++ appendLines eol ((settled segments).flatMap Segment.changed),hunks ++ (conflicting segments).map Segment.hunk)

theorem swept_cons (eol : Str) (s : Segment) (segments : List Segment) (out : Str) (hunks : List MergeHunk) :
    swept eol (s::segments) out hunks = swept eol segments (swept eol [s] out hunks).1 (swept eol [s] out hunks).2 := by
  by_cases conflict : s.Conflicting
  · simp [swept,settled,conflicting,conflict,appendLines]
  · simp [swept,settled,conflicting,conflict,appendLines]

theorem swept_settled (eol : Str) (s : Segment) (out : Str) (hunks : List MergeHunk) (calm : ¬s.Conflicting) :
    swept eol [s] out hunks = (out ++ appendLines eol s.changed,hunks) := by
  simp [swept,settled,conflicting,calm]

theorem swept_conflicting (eol : Str) (s : Segment) (out : Str) (hunks : List MergeHunk) (conflict : s.Conflicting) :
    swept eol [s] out hunks = (out,hunks ++ [s.hunk]) := by
  simp [swept,settled,conflicting,conflict,appendLines]

/-- One region at most, or some line between two regions. -/
def Solo (overlays : List Overlay) : Prop :=
  (∃ o, ∀ x ∈ overlays, x = o ∨ ∃ lines, x = Overlay.unchanged lines) ∨
    ∃ lines, lines ≠ [] ∧ Overlay.unchanged lines ∈ overlays

/-- The overlays that the regions cut out of two scripts. -/
structure Overlaid (base : List Str) (editsL editsR : List Edit) (scriptL scriptR : EditScript Str) (pos : Nat)
    (overlays : List Overlay) : Prop where
  localScript : overlays.flatMap Overlay.localScript = scriptL
  remoteScript : overlays.flatMap Overlay.remoteScript = scriptR
  idle : editsL = [] → editsR = [] → ∃ lines, overlays = [Overlay.unchanged lines]
  first : editsL ≠ [] ∨ editsR ≠ [] → ∃ rest, overlays = Overlay.unchanged (slice base pos (nextStart editsL editsR))::rest
  solo : Solo overlays

/-- The next region starts on the lines that are left. -/
theorem nextStart_inside {base : List Str} {pos : Nat} {editsL editsR : List Edit} {scriptL scriptR : EditScript Str}
    (low : pos ≤ base.length) (left : Side base pos editsL scriptL) (right : Side base pos editsR scriptR)
    (some' : editsL ≠ [] ∨ editsR ≠ []) : pos ≤ nextStart editsL editsR ∧ nextStart editsL editsR ≤ base.length := by
  rcases nextStart_reached editsL editsR some' with ⟨x,head,same⟩ | ⟨x,head,same⟩
  · have bounds := left.groups.inside x (List.mem_of_mem_head? head)
    have starts := left.groups.starts x (List.mem_of_mem_head? head)
    rw [left.bounded low] at bounds
    omega
  · have bounds := right.groups.inside x (List.mem_of_mem_head? head)
    have starts := right.groups.starts x (List.mem_of_mem_head? head)
    rw [right.bounded low] at bounds
    omega

theorem slice_ne_nil {lines : List Str} {a b : Nat} (less : a < b) (inside : b ≤ lines.length) : slice lines a b ≠ [] := by
  apply List.ne_nil_of_length_pos
  rw [slice_eq,List.length_take,List.length_drop]
  omega

/-- The sweep writes the alignment that its regions cut out of the two scripts. -/
theorem sweep_overlays (base : List Str) (eol : Str) (fuel : Nat) (editsL editsR : List Edit) (scriptL scriptR : EditScript Str)
    (pos : Nat) (out : Str) (hunks : List MergeHunk) (enough : editsL.length + editsR.length < fuel) (low : pos ≤ base.length)
    (left : Side base pos editsL scriptL) (right : Side base pos editsR scriptR) :
    ∃ overlays, Overlaid base editsL editsR scriptL scriptR pos overlays ∧
      sweep base eol fuel editsL editsR pos out hunks = swept eol (overlays.map Overlay.segment) out hunks := by
  induction fuel generalizing editsL editsR scriptL scriptR pos out hunks with
  | zero => omega
  | succ fuel ih =>
    by_cases some' : editsL ≠ [] ∨ editsR ≠ []
    · -- The lines up to the next edit are kept by both sides.
      have orderedL := left.groups.ordered
      have orderedR := right.groups.ordered
      obtain ⟨firstL,firstR⟩ := nextStart_le editsL editsR
      have reached := nextStart_reached editsL editsR some'
      have startsL := Ordered.low orderedL _ firstL
      have startsR := Ordered.low orderedR _ firstR
      obtain ⟨after,inside⟩ := nextStart_inside low left right some'
      obtain ⟨fromL,wholeL,left⟩ := left.advance _ after inside startsL
      obtain ⟨fromR,wholeR,right⟩ := right.advance _ after inside startsR
      rw [sweep_round base eol fuel editsL editsR pos out hunks some']
      generalize begins : nextStart editsL editsR = start at *
      have folded := foldRegion_start editsL editsR start
      dsimp only
      generalize foldRegion (editsL.length + editsR.length) ⟨[],[],editsL,editsR,start⟩ = region at *
      obtain ⟨folds,calm⟩ := folded
      -- The region cuts both scripts.
      have high : region.regionEnd ≤ base.length :=
        folds.least _ inside (left.closed inside) (right.closed inside)
      have laterL : Ordered region.restL := (List.pairwise_append.mp (folds.splitL ▸ orderedL)).2.1
      have laterR : Ordered region.restR := (List.pairwise_append.mp (folds.splitR ▸ orderedR)).2.1
      obtain ⟨hereL,restL,cutL,linesL,sideL,repL,idleL⟩ := left.cut region.regionEnd folds.grown high region.takenL region.restL
        folds.splitL (fun x member => (folds.withinL x member).2) (laterL.clear _ calm.clearL)
      obtain ⟨hereR,restR,cutR,linesR,sideR,repR,idleR⟩ := right.cut region.regionEnd folds.grown high region.takenR region.restR
        folds.splitR (fun x member => (folds.withinR x member).2) (laterR.clear _ calm.clearR)
      have shrinks : region.restL.length + region.restR.length < fuel := by
        have sizeL := congrArg List.length folds.splitL
        have sizeR := congrArg List.length folds.splitR
        rw [List.length_append] at sizeL sizeR
        have taken : region.takenL ≠ [] ∨ region.takenR ≠ [] := by
          by_contra none
          rw [not_or,not_not,not_not] at none
          have grown := folds.grown
          rcases reached with ⟨x,head,same⟩ | ⟨x,head,same⟩
          · rw [folds.splitL,none.1] at head
            have clear := calm.clearL x head
            omega
          · rw [folds.splitR,none.2] at head
            have clear := calm.clearR x head
            omega
        rcases taken with some'' | some''
        · have positive := List.length_pos_iff.mpr some''
          omega
        · have positive := List.length_pos_iff.mpr some''
          omega
      rw [repL,repR]
      let o : Overlay := ⟨hereL,hereR,linesL.trans linesR.symm⟩
      have continues : ∀ (out' : Str) (hunks' : List MergeHunk),
          swept eol [o.segment] (out ++ appendLines eol (slice base pos start)) hunks = (out',hunks') →
          ∃ overlays, Overlaid base editsL editsR scriptL scriptR pos overlays ∧
            sweep base eol fuel region.restL region.restR region.regionEnd out' hunks' =
              swept eol (overlays.map Overlay.segment) out hunks := by
        intro out' hunks' region'
        obtain ⟨overlays,overlaid,result⟩ := ih region.restL region.restR restL restR region.regionEnd out' hunks'
          shrinks high sideL sideR
        refine ⟨Overlay.unchanged (slice base pos start)::o::overlays,⟨?_,?_,?_,?_,?_⟩,?_⟩
        · rw [List.flatMap_cons,List.flatMap_cons,overlaid.localScript,wholeL,cutL]
          rfl
        · rw [List.flatMap_cons,List.flatMap_cons,overlaid.remoteScript,wholeR,cutR]
          rfl
        · intro noneL noneR
          exact some'.elim (absurd noneL) (absurd noneR)
        · intro _
          exact ⟨o::overlays,by rw [begins]⟩
        · by_cases more : region.restL ≠ [] ∨ region.restR ≠ []
          · -- A line stands between this region and the next one.
            obtain ⟨rest,next⟩ := overlaid.first more
            obtain ⟨-,reach⟩ := nextStart_inside high sideL sideR more
            have apart : region.regionEnd < nextStart region.restL region.restR := by
              rcases nextStart_reached _ _ more with ⟨x,head,same⟩ | ⟨x,head,same⟩
              · rw [← same]
                exact calm.clearL x head
              · rw [← same]
                exact calm.clearR x head
            refine .inr ⟨_,slice_ne_nil apart reach,?_⟩
            rw [next]
            simp
          · rw [not_or,not_not,not_not] at more
            obtain ⟨lines,last⟩ := overlaid.idle more.1 more.2
            refine .inl ⟨o,?_⟩
            intro x member
            rw [last] at member
            rcases List.mem_cons.mp member with rfl | member
            · exact .inr ⟨_,rfl⟩
            rcases List.mem_cons.mp member with rfl | member
            · exact .inl rfl
            · exact .inr ⟨lines,List.mem_singleton.mp member⟩
        · have plain := Segment.same_settled ⟨slice base pos start,slice base pos start,slice base pos start⟩ rfl
          rw [List.map_cons,List.map_cons,swept_cons,Overlay.unchanged_segment,swept_settled _ _ _ _ plain.1,plain.2,swept_cons,
            region',result]
      split
      · rename_i same
        have calm := o.segment.same_settled same
        exact continues _ _ ((swept_settled _ _ _ _ calm.1).trans (by rw [calm.2]; rfl))
      rename_i differ
      split
      · rename_i none
        have only : o.segment.remoteLines = o.segment.base := (idleR.mp none).trans (linesR.trans linesL.symm)
        have calm := o.segment.local_settled only
        exact continues _ _ ((swept_settled _ _ _ _ calm.1).trans (by rw [calm.2]; rfl))
      rename_i someR
      split
      · rename_i none
        have calm := o.segment.remote_settled (idleL.mp none)
        exact continues _ _ ((swept_settled _ _ _ _ calm.1).trans (by rw [calm.2]; rfl))
      rename_i someL
      have conflict : o.segment.Conflicting := by
        refine ⟨fun same => someL (idleL.mpr same),fun same => someR (idleR.mpr ?_),differ⟩
        exact same.trans (linesL.trans linesR.symm)
      exact continues _ _ (swept_conflicting _ _ _ _ conflict)
    · rw [not_or,not_not,not_not] at some'
      obtain ⟨rfl,rfl⟩ := some'
      refine ⟨[Overlay.unchanged (base.drop pos)],⟨?_,?_,fun _ _ => ⟨_,rfl⟩,?_,?_⟩,?_⟩
      · rw [← left.lines,List.flatMap_singleton]
        exact left.groups.eq_keeps.symm
      · rw [← right.lines,List.flatMap_singleton]
        exact right.groups.eq_keeps.symm
      · rintro (some' | some')
        · contradiction
        · contradiction
      · exact .inl ⟨_,fun x member => .inl (List.mem_singleton.mp member)⟩
      · have plain := Segment.same_settled ⟨base.drop pos,base.drop pos,base.drop pos⟩ rfl
        rw [List.map_singleton,Overlay.unchanged_segment,swept_settled _ _ _ _ plain.1,plain.2]
        rfl

/-- The inputs that reach the sweep: three different texts within the cell budget. -/
structure Sweeps (base localText remote : Str) : Prop where
  sides : localText ≠ remote
  localChanged : localText ≠ base
  remoteChanged : remote ≠ base
  localBudget : (splitLines base).length * (splitLines localText).length ≤ kMaxAutoMergeCells
  remoteBudget : (splitLines base).length * (splitLines remote).length ≤ kMaxAutoMergeCells

/-- What `merge` returns for an alignment. -/
def merged (eol : Str) (segments : List Segment) : MergeResult :=
  if conflicting segments = [] then ⟨true,appendLines eol (segments.flatMap Segment.changed),[]⟩
  else ⟨false,[],(conflicting segments).map Segment.hunk⟩

theorem conflicting_eq_nil_iff (segments : List Segment) : conflicting segments = [] ↔ ∀ s ∈ segments, ¬s.Conflicting := by
  simp [conflicting,List.filter_eq_nil_iff]

theorem settled_eq_self (segments : List Segment) (calm : conflicting segments = []) : settled segments = segments := by
  rw [conflicting_eq_nil_iff] at calm
  exact List.filter_eq_self.mpr (fun s member => by simp [calm s member])

/-- The overlays of the two diffs, and the result of the merge read off them. -/
structure Aligns (base localText remote : Str) (overlays : List Overlay) : Prop where
  localBase : before (overlays.flatMap Overlay.localScript) = splitLines base
  remoteBase : before (overlays.flatMap Overlay.remoteScript) = splitLines base
  localLines : after (overlays.flatMap Overlay.localScript) = splitLines localText
  remoteLines : after (overlays.flatMap Overlay.remoteScript) = splitLines remote
  localOptimal : Optimal (overlays.flatMap Overlay.localScript)
  remoteOptimal : Optimal (overlays.flatMap Overlay.remoteScript)
  solo : Solo overlays
  result : merge base localText remote = merged (eolOf base) (overlays.map Overlay.segment)

theorem merge_aligns (base localText remote : Str) (sweeps : Sweeps base localText remote) :
    ∃ overlays, Aligns base localText remote overlays := by
  obtain ⟨editsL,diffL⟩ := (diffLines_isSome_iff _ _).mpr sweeps.localBudget
  obtain ⟨editsR,diffR⟩ := (diffLines_isSome_iff _ _).mpr sweeps.remoteBudget
  obtain ⟨scriptL,beforeL,afterL,optimalL,groupsL⟩ := diffLines_script _ _ _ diffL
  obtain ⟨scriptR,beforeR,afterR,optimalR,groupsR⟩ := diffLines_script _ _ _ diffR
  obtain ⟨overlays,⟨rfl,rfl,-,-,solo⟩,result⟩ := sweep_overlays (splitLines base) (eolOf base) (editsL.length + editsR.length + 1)
    editsL editsR scriptL scriptR 0 [] [] (Nat.lt_succ_self _) (Nat.zero_le _) ⟨groupsL,beforeL,optimalL⟩
    ⟨groupsR,beforeR,optimalR⟩
  refine ⟨overlays,beforeL,beforeR,afterL,afterR,optimalL,optimalR,solo,?_⟩
  unfold merge
  rw [if_neg sweeps.sides,if_neg sweeps.localChanged,if_neg sweeps.remoteChanged]
  dsimp only
  rw [diffL,diffR]
  dsimp only
  rw [result,merged]
  have hunks : (swept (eolOf base) (overlays.map Overlay.segment) [] []).2 =
    (conflicting (overlays.map Overlay.segment)).map Segment.hunk := List.nil_append _
  by_cases calm : conflicting (overlays.map Overlay.segment) = []
  · rw [if_pos calm,if_pos (by rw [hunks,calm]; rfl),swept,settled_eq_self _ calm]
    rfl
  · rw [if_neg calm,if_neg (by rwa [hunks,List.map_eq_nil_iff]),hunks]

/-- One alignment of the three texts into segments, and the result of the merge read off
it: no line of either edit is dropped, doubled or moved. -/
structure Alignment (base localText remote : Str) (segments : List Segment) : Prop where
  baseLines : segments.flatMap Segment.base = splitLines base
  localLines : segments.flatMap Segment.localLines = splitLines localText
  remoteLines : segments.flatMap Segment.remoteLines = splitLines remote
  kinds : ∀ s ∈ segments, (s.localLines = s.base ∧ s.remoteLines = s.base) ∨ (s.localLines ≠ s.base ∧ s.remoteLines = s.base) ∨
    (s.localLines = s.base ∧ s.remoteLines ≠ s.base) ∨ s.localLines = s.remoteLines ∨ s.Conflicting
  clean : (merge base localText remote).clean = true ↔ ∀ s ∈ segments, ¬s.Conflicting
  merged : (merge base localText remote).clean = true →
    (merge base localText remote).merged = appendLines (eolOf base) (segments.flatMap Segment.changed)
  hunks : (merge base localText remote).clean = false →
    (merge base localText remote).hunks = (conflicting segments).map Segment.hunk

theorem merge_alignment (base localText remote : Str) (sweeps : Sweeps base localText remote) :
    ∃ segments, Alignment base localText remote segments := by
  obtain ⟨overlays,aligns⟩ := merge_aligns base localText remote sweeps
  have bases := (List.flatMap_assoc).symm.trans aligns.localBase
  have locals := (List.flatMap_assoc).symm.trans aligns.localLines
  have remotes := (List.flatMap_assoc).symm.trans aligns.remoteLines
  have calm := conflicting_eq_nil_iff (overlays.map Overlay.segment)
  refine ⟨overlays.map Overlay.segment,?_,?_,?_,?_,?_,?_,?_⟩
  · rw [List.flatMap_map]
    exact bases
  · rw [List.flatMap_map]
    exact locals
  · rw [List.flatMap_map]
    exact remotes
  · intro s _
    unfold Segment.Conflicting
    tauto
  all_goals
    rw [aligns.result,Merge.merged]
    split
  · rename_i none
    exact ⟨fun _ => calm.mp none,fun _ => rfl⟩
  · rename_i some'
    exact ⟨fun clean => Bool.noConfusion clean,fun none => absurd (calm.mpr none) some'⟩
  · exact fun _ => rfl
  · exact fun clean => Bool.noConfusion clean
  · exact fun unclean => Bool.noConfusion unclean
  · exact fun _ => rfl

theorem opposite_edits_align : (merge (lit "a\nb\nc\n") (lit "A\nb\nc\n") (lit "a\nb\nC\n")).clean = true ∧
    ∃ segments, Alignment (lit "a\nb\nc\n") (lit "A\nb\nc\n") (lit "a\nb\nC\n") segments :=
  ⟨by decide,merge_alignment _ _ _
    ⟨by decide,by decide,by decide,by decide,by decide⟩⟩

end NPSync.Merge
