import NPSync.MergeAlignment

/-! Line endings through the merge. The lines are compared without their terminators,
and one line ending, read off the base alone, is written after every merged line. -/
namespace NPSync.Merge
open Library Library.EditScript

/-- A line-ending convention. -/
inductive Eol where
  | lf
  | crlf
deriving DecidableEq

def Eol.text : Eol → Str
  | .lf => [10]
  | .crlf => [13,10]

/-- Every newline of the text is a line ending of the convention. -/
def Uses (e : Eol) (text : Str) : Prop :=
  ∀ front back, text = front ++ 10::back → (front.getLast? = some 13 ↔ e = .crlf)

def EndsNewline (text : Str) : Prop := text.getLast? = some 10

/-- The line ends in a carriage return of its own. -/
def EndsCr (line : Str) : Prop := line.getLast? = some 13

theorem uses_of_no_newline (e : Eol) {text : Str} (clean : 10 ∉ text) : Uses e text := by
  intro front back split
  exact absurd (split ▸ List.mem_append_right _ List.mem_cons_self) clean

/-- The first line of a text and the rest of it. -/
theorem uses_line (e : Eol) {line : Str} (clean : 10 ∉ line) (rest : Str) :
    Uses e (line ++ 10::rest) ↔ (EndsCr line ↔ e = .crlf) ∧ Uses e rest := by
  constructor
  · intro uses
    refine ⟨uses line rest rfl,?_⟩
    intro front back split
    have later := uses (line ++ 10::front) back (by rw [split,List.append_assoc]; rfl)
    rw [List.getLast?_append,List.getLast?_cons] at later
    cases last : front.getLast? with
    | none =>
      rw [last] at later
      simpa using later
    | some c =>
      rw [last] at later
      simpa using later
  · rintro ⟨first,uses⟩ front back split
    rcases List.append_eq_append_iff.mp split with ⟨more,rfl,tail⟩ | ⟨more,rfl,tail⟩
    · cases more with
      | nil =>
        rw [List.append_nil]
        exact first
      | cons c more =>
        obtain ⟨rfl,rfl⟩ := List.cons.inj tail
        have later := uses more back rfl
        rw [List.getLast?_append,List.getLast?_cons]
        cases last : more.getLast? with
        | none =>
          rw [last] at later
          simpa using later
        | some c =>
          rw [last] at later
          simpa using later
    · cases more with
      | nil =>
        rw [List.append_nil] at *
        exact first
      | cons c more =>
        obtain ⟨rfl,-⟩ := List.cons.inj tail
        exact absurd (List.mem_append_right _ List.mem_cons_self) clean

theorem splitLoop_no_newline (text line : Str) (clean : 10 ∉ line) : ∀ x ∈ splitLoop text line, 10 ∉ x := by
  induction text generalizing line with
  | nil =>
    intro x member
    rw [splitLoop] at member
    split at member
    · contradiction
    · rw [List.mem_singleton.mp member]
      exact clean
  | cons c rest ih =>
    intro x member
    rw [splitLoop] at member
    split at member
    · rcases List.mem_cons.mp member with rfl | later
      · split
        · exact fun inside => clean (List.dropLast_subset _ inside)
        · exact clean
      · exact ih [] List.not_mem_nil x later
    · rename_i other
      refine ih (line ++ [c]) ?_ x member
      intro inside
      rcases List.mem_append.mp inside with old | new
      · exact clean old
      · exact other (List.mem_singleton.mp new).symm

theorem splitLines_no_newline (text : Str) : ∀ x ∈ splitLines text, 10 ∉ x := splitLoop_no_newline text [] List.not_mem_nil

theorem splitLoop_eq_nil_iff (text line : Str) : splitLoop text line = [] ↔ text = [] ∧ line = [] := by
  induction text generalizing line with
  | nil =>
    rw [splitLoop]
    split <;> simp_all
  | cons c rest ih =>
    rw [splitLoop]
    split
    · simp
    · rw [ih]
      simp

theorem splitLines_eq_nil_iff (text : Str) : splitLines text = [] ↔ text = [] := by
  rw [splitLines,splitLoop_eq_nil_iff]
  simp

/-- Where every newline is a line feed, only an unterminated last line can end in a
carriage return. -/
theorem splitLoop_cr (text line : Str) (clean : 10 ∉ line) (uses : Uses .lf (line ++ text)) (x : Str)
    (member : x ∈ splitLoop text line) (ends : EndsCr x) :
    ∃ front, splitLoop text line = front ++ [x] ∧ ∀ y ∈ front, ¬EndsCr y := by
  induction text generalizing line with
  | nil =>
    rw [splitLoop] at member ⊢
    split at member
    · contradiction
    · rename_i filled
      rw [if_neg filled]
      exact ⟨[],by rw [List.mem_singleton.mp member]; rfl,fun y inside => absurd inside List.not_mem_nil⟩
  | cons c rest ih =>
    rw [splitLoop] at member ⊢
    by_cases newline : c = 10
    · subst newline
      obtain ⟨first,later⟩ := (uses_line .lf clean rest).mp uses
      have plain : ¬line.getLast? = some 13 := fun cr => Eol.noConfusion (first.mp cr)
      rw [if_pos rfl,if_neg plain] at member ⊢
      rcases List.mem_cons.mp member with rfl | inside
      · exact absurd ends plain
      · obtain ⟨front,whole,none⟩ := ih [] List.not_mem_nil later inside
        refine ⟨line::front,by rw [whole]; rfl,?_⟩
        intro y inside
        rcases List.mem_cons.mp inside with rfl | inside
        · exact plain
        · exact none y inside
    · rw [if_neg newline] at member ⊢
      refine ih (line ++ [c]) ?_ (by rwa [List.append_assoc]) member
      intro inside
      rcases List.mem_append.mp inside with old | new
      · exact clean old
      · exact newline (List.mem_singleton.mp new).symm

theorem splitLines_cr {text line : Str} (uses : Uses .lf text) (member : line ∈ splitLines text) (ends : EndsCr line) :
    ∃ front, splitLines text = front ++ [line] ∧ line ∉ front := by
  obtain ⟨front,whole,none⟩ := splitLoop_cr text [] List.not_mem_nil uses line member ends
  exact ⟨front,whole,fun inside => none line inside ends⟩

theorem countEol_uses (e : Eol) (front text : Str) (uses : Uses e (front ++ text)) :
    countEol (front.getLastD 0) text = if e = .crlf then (text.count 10,0) else (0,text.count 10) := by
  induction text generalizing front with
  | nil => cases e <;> rfl
  | cons c rest ih =>
    have next := ih (front ++ [c]) (by rwa [List.append_assoc])
    rw [List.getLastD_concat] at next
    rw [countEol,next]
    by_cases newline : c = 10
    · subst newline
      have previous : front.getLastD 0 = 13 ↔ e = .crlf := by
        rw [← uses front rest rfl,List.getLastD_eq_getLast?]
        cases front.getLast? <;> simp
      rw [if_pos rfl,List.count_cons_self]
      by_cases crlf : e = .crlf
      · rw [if_pos (previous.mpr crlf),if_pos crlf,if_pos crlf]
      · rw [if_neg (mt previous.mp crlf),if_neg crlf,if_neg crlf]
    · simp [newline]

/-- The line ending that the merge writes, for a base that uses one convention. -/
def written (e : Eol) (base : Str) : Eol := if e = .lf ∧ 10 ∈ base then .lf else .crlf

theorem eolOf_uses (e : Eol) (base : Str) (uses : Uses e base) : eolOf base = (written e base).text := by
  have counts := countEol_uses e [] base uses
  rw [List.getLastD_nil] at counts
  unfold eolOf
  dsimp only
  cases e with
  | lf =>
    rw [if_neg Eol.noConfusion] at counts
    rw [counts]
    by_cases newline : 10 ∈ base
    · have some' : 0 < base.count 10 := List.count_pos_iff.mpr newline
      rw [if_neg (Nat.not_le_of_lt some'),written,if_pos ⟨rfl,newline⟩]
      rfl
    · rw [if_pos (Nat.le_of_eq (List.count_eq_zero.mpr newline)),written,if_neg (fun both => newline both.2)]
      rfl
  | crlf =>
    rw [if_pos rfl] at counts
    rw [counts,if_pos (Nat.zero_le _),written,if_neg (fun both => Eol.noConfusion both.1)]
    rfl

theorem appendLines_cons (eol line : Str) (lines : List Str) :
    appendLines eol (line::lines) = line ++ eol ++ appendLines eol lines := List.flatMap_cons

theorem appendLines_last (e : Eol) (lines : List Str) (filled : lines ≠ []) : EndsNewline (appendLines e.text lines) := by
  induction lines with
  | nil => contradiction
  | cons line rest ih =>
    rw [appendLines_cons,EndsNewline,List.getLast?_append]
    cases rest with
    | nil => cases e <;> simp [appendLines,Eol.text]
    | cons second rest =>
      rw [show (appendLines e.text (second::rest)).getLast? = some 10 from ih (List.cons_ne_nil _ _)]
      rfl

/-- The conventions that a written text uses. -/
theorem uses_appendLines (written e : Eol) (lines : List Str) (clean : ∀ line ∈ lines, 10 ∉ line) :
    Uses e (appendLines written.text lines) ↔
      ∀ line ∈ lines, (written = .crlf ∨ EndsCr line) ↔ e = .crlf := by
  induction lines with
  | nil =>
    refine ⟨fun _ line member => absurd member List.not_mem_nil,fun _ => ?_⟩
    exact uses_of_no_newline e List.not_mem_nil
  | cons line rest ih =>
    have tail := ih (fun other member => clean other (List.mem_cons_of_mem _ member))
    have first := clean line List.mem_cons_self
    rw [List.forall_mem_cons,← tail,appendLines_cons]
    cases written with
    | lf =>
      rw [show line ++ Eol.lf.text ++ appendLines Eol.lf.text rest = line ++ 10::appendLines Eol.lf.text rest by simp [Eol.text],
        uses_line e first]
      simp
    | crlf =>
      have longer : 10 ∉ line ++ [13] := by
        intro inside
        rcases List.mem_append.mp inside with old | new
        · exact first old
        · exact absurd (List.mem_singleton.mp new) (by decide)
      rw [show line ++ Eol.crlf.text ++ appendLines Eol.crlf.text rest = (line ++ [13]) ++ 10::appendLines Eol.crlf.text rest by
        simp [Eol.text],uses_line e longer]
      simp [EndsCr]

/-- Which side a segment without conflict is taken from. -/
theorem Segment.changed_cases (s : Segment) (calm : ¬s.Conflicting) :
    (s.remoteLines = s.base ∧ s.changed = s.localLines) ∨ (s.localLines = s.base ∧ s.changed = s.remoteLines) ∨
      (s.localLines = s.remoteLines ∧ s.changed = s.localLines) := by
  by_cases only : s.remoteLines = s.base
  · exact .inl ⟨only,(s.local_settled only).2⟩
  by_cases other : s.localLines = s.base
  · exact .inr (.inl ⟨other,(s.remote_settled other).2⟩)
  have same : s.localLines = s.remoteLines := by
    by_contra differ
    exact calm ⟨other,only,differ⟩
  exact .inr (.inr ⟨same,(s.same_settled same).2⟩)

/-- A line that occurs once lies in one piece. -/
theorem unique_piece {β : Type} (pieces : List β) (lines : β → List Str) (z : Str)
    (once : (pieces.flatMap lines).count z ≤ 1) (p q : β) (there : p ∈ pieces) (there' : q ∈ pieces) (here : z ∈ lines p)
    (here' : z ∈ lines q) : p = q := by
  induction pieces with
  | nil => contradiction
  | cons first rest ih =>
    rw [List.flatMap_cons,List.count_append] at once
    have counts : ∀ {x : β}, x ∈ rest → z ∈ lines x → 0 < (rest.flatMap lines).count z := fun member inside =>
      List.count_pos_iff.mpr (List.mem_flatMap.mpr ⟨_,member,inside⟩)
    rcases List.mem_cons.mp there with rfl | later
    · rcases List.mem_cons.mp there' with rfl | later'
      · rfl
      · have one := List.count_pos_iff.mpr here
        have two := counts later' here'
        omega
    · rcases List.mem_cons.mp there' with rfl | later'
      · have one := List.count_pos_iff.mpr here'
        have two := counts later here
        omega
      · exact ih (by omega) later later'

theorem count_last {front : List Str} {z : Str} (none : z ∉ front) : (front ++ [z]).count z ≤ 1 := by
  rw [List.count_append,List.count_eq_zero.mpr none,List.count_singleton_self]

namespace Aligns
variable {base localText remote : Str} {overlays : List Overlay}

/-- The lines of the merged text. -/
theorem mem_base (aligns : Aligns base localText remote overlays) (z : Str) :
    z ∈ splitLines base ↔ ∃ o ∈ overlays, z ∈ o.segment.base := by
  rw [← aligns.localBase,before,List.flatMap_assoc]
  exact List.mem_flatMap

theorem mem_local (aligns : Aligns base localText remote overlays) (z : Str) :
    z ∈ splitLines localText ↔ ∃ o ∈ overlays, z ∈ o.segment.localLines := by
  rw [← aligns.localLines,after,List.flatMap_assoc]
  exact List.mem_flatMap

theorem mem_remote (aligns : Aligns base localText remote overlays) (z : Str) :
    z ∈ splitLines remote ↔ ∃ o ∈ overlays, z ∈ o.segment.remoteLines := by
  rw [← aligns.remoteLines,after,List.flatMap_assoc]
  exact List.mem_flatMap

end Aligns

/-- A line that ends two texts is kept by the script between them, in one piece. -/
theorem kept_piece {pieces : List Overlay} {side : Overlay → EditScript Str} (optimal : Optimal (pieces.flatMap side)) {z : Str}
    {front back : List Str} (ends : before (pieces.flatMap side) = front ++ [z]) (ends' : after (pieces.flatMap side) = back ++ [z])
    (once : z ∉ front) (once' : z ∉ back) : ∃ o ∈ pieces, z ∈ before (side o) ∧ z ∈ after (side o) := by
  have inside := optimal.keeps_last ends ends' once once'
  rw [kept,List.mem_flatMap] at inside
  obtain ⟨op,member,here⟩ := inside
  obtain ⟨o,there,member⟩ := List.mem_flatMap.mp member
  have kept : z ∈ kept (side o) := List.mem_flatMap.mpr ⟨op,member,here⟩
  exact ⟨o,there,(kept_sublist_before _).subset kept,(kept_sublist_after _).subset kept⟩

/-- A line with a carriage return of its own reaches the merged text when one side has
added it, or both have it. -/
def Carried (base localText remote : Str) (z : Str) : Prop :=
  (z ∈ splitLines localText ∧ z ∉ splitLines base) ∨ (z ∈ splitLines remote ∧ z ∉ splitLines base) ∨
    (z ∈ splitLines localText ∧ z ∈ splitLines remote)

theorem carried_iff {base localText remote : Str} {overlays : List Overlay} (aligns : Aligns base localText remote overlays)
    (calm : ∀ o ∈ overlays, ¬o.segment.Conflicting) (usesB : Uses .lf base) (usesL : Uses .lf localText)
    (usesR : Uses .lf remote) (z : Str) (ends : EndsCr z) :
    (∃ o ∈ overlays, z ∈ o.segment.changed) ↔ Carried base localText remote z := by
  -- A line of both texts that is also in the base is kept in one piece.
  have commonL : z ∈ splitLines base → z ∈ splitLines localText →
      ∃ o ∈ overlays, z ∈ o.segment.base ∧ z ∈ o.segment.localLines := by
    intro inBase inLocal
    obtain ⟨front,endsB,onceB⟩ := splitLines_cr usesB inBase ends
    obtain ⟨back,endsL,onceL⟩ := splitLines_cr usesL inLocal ends
    exact kept_piece aligns.localOptimal (aligns.localBase.trans endsB) (aligns.localLines.trans endsL) onceB onceL
  have commonR : z ∈ splitLines base → z ∈ splitLines remote →
      ∃ o ∈ overlays, z ∈ o.segment.base ∧ z ∈ o.segment.remoteLines := by
    intro inBase inRemote
    obtain ⟨front,endsB,onceB⟩ := splitLines_cr usesB inBase ends
    obtain ⟨back,endsR,onceR⟩ := splitLines_cr usesR inRemote ends
    obtain ⟨o,there,here,here'⟩ :=
      kept_piece aligns.remoteOptimal (aligns.remoteBase.trans endsB) (aligns.remoteLines.trans endsR) onceB onceR
    rw [← o.shared] at here
    exact ⟨o,there,here,here'⟩
  have oneB : z ∈ splitLines base → ∀ o ∈ overlays, ∀ o' ∈ overlays, z ∈ o.segment.base → z ∈ o'.segment.base → o = o' := by
    intro inBase o there o' there'
    obtain ⟨front,endsB,onceB⟩ := splitLines_cr usesB inBase ends
    have once := count_last onceB
    rw [← endsB,← aligns.localBase,before,List.flatMap_assoc] at once
    exact unique_piece overlays _ z once o o' there there'
  have oneL : z ∈ splitLines localText → ∀ o ∈ overlays, ∀ o' ∈ overlays, z ∈ o.segment.localLines →
      z ∈ o'.segment.localLines → o = o' := by
    intro inLocal o there o' there'
    obtain ⟨front,endsL,onceL⟩ := splitLines_cr usesL inLocal ends
    have once := count_last onceL
    rw [← endsL,← aligns.localLines,after,List.flatMap_assoc] at once
    exact unique_piece overlays _ z once o o' there there'
  have oneR : z ∈ splitLines remote → ∀ o ∈ overlays, ∀ o' ∈ overlays, z ∈ o.segment.remoteLines →
      z ∈ o'.segment.remoteLines → o = o' := by
    intro inRemote o there o' there'
    obtain ⟨front,endsR,onceR⟩ := splitLines_cr usesR inRemote ends
    have once := count_last onceR
    rw [← endsR,← aligns.remoteLines,after,List.flatMap_assoc] at once
    exact unique_piece overlays _ z once o o' there there'
  constructor
  · rintro ⟨o,there,here⟩
    rcases o.segment.changed_cases (calm o there) with ⟨only,same⟩ | ⟨only,same⟩ | ⟨both,same⟩
    · rw [same] at here
      have inLocal := (aligns.mem_local z).mpr ⟨o,there,here⟩
      by_cases inBase : z ∈ splitLines base
      · obtain ⟨o',there',old,here'⟩ := commonL inBase inLocal
        rw [← oneL inLocal o there o' there' here here',← only] at old
        exact .inr (.inr ⟨inLocal,(aligns.mem_remote z).mpr ⟨o,there,old⟩⟩)
      · exact .inl ⟨inLocal,inBase⟩
    · rw [same] at here
      have inRemote := (aligns.mem_remote z).mpr ⟨o,there,here⟩
      by_cases inBase : z ∈ splitLines base
      · obtain ⟨o',there',old,here'⟩ := commonR inBase inRemote
        rw [← oneR inRemote o there o' there' here here',← only] at old
        exact .inr (.inr ⟨(aligns.mem_local z).mpr ⟨o,there,old⟩,inRemote⟩)
      · exact .inr (.inl ⟨inRemote,inBase⟩)
    · rw [same] at here
      exact .inr (.inr ⟨(aligns.mem_local z).mpr ⟨o,there,here⟩,(aligns.mem_remote z).mpr ⟨o,there,both ▸ here⟩⟩)
  · intro carried
    have addedL : z ∈ splitLines localText → z ∉ splitLines base → ∃ o ∈ overlays, z ∈ o.segment.changed := by
      intro inLocal notBase
      obtain ⟨o,there,here⟩ := (aligns.mem_local z).mp inLocal
      refine ⟨o,there,?_⟩
      rcases o.segment.changed_cases (calm o there) with ⟨-,same⟩ | ⟨only,-⟩ | ⟨-,same⟩
      · rwa [same]
      · exact absurd ((aligns.mem_base z).mpr ⟨o,there,only ▸ here⟩) notBase
      · rwa [same]
    rcases carried with ⟨inLocal,notBase⟩ | ⟨inRemote,notBase⟩ | ⟨inLocal,inRemote⟩
    · exact addedL inLocal notBase
    · obtain ⟨o,there,here⟩ := (aligns.mem_remote z).mp inRemote
      refine ⟨o,there,?_⟩
      rcases o.segment.changed_cases (calm o there) with ⟨only,-⟩ | ⟨-,same⟩ | ⟨both,same⟩
      · exact absurd ((aligns.mem_base z).mpr ⟨o,there,only ▸ here⟩) notBase
      · rwa [same]
      · rwa [same,both]
    · by_cases inBase : z ∈ splitLines base
      · obtain ⟨o,there,old,here⟩ := commonL inBase inLocal
        obtain ⟨o',there',old',here'⟩ := commonR inBase inRemote
        rw [← oneB inBase o there o' there' old old'] at here'
        refine ⟨o,there,?_⟩
        rcases o.segment.changed_cases (calm o there) with ⟨-,same⟩ | ⟨-,same⟩ | ⟨-,same⟩
        · rwa [same]
        · rwa [same]
        · rwa [same]
      · exact addedL inLocal inBase

/-- One side has emptied the text and the other has left its lines as they were. -/
def Emptied (base localText remote : Str) : Prop :=
  (localText = [] ∧ splitLines remote = splitLines base) ∨ (remote = [] ∧ splitLines localText = splitLines base)

/-- Parts of an unchanged script change nothing. -/
theorem unchanged_parts {overlays : List Overlay} {side : Overlay → EditScript Str} (optimal : Optimal (overlays.flatMap side))
    (same : before (overlays.flatMap side) = after (overlays.flatMap side)) (o : Overlay) (there : o ∈ overlays) :
    after (side o) = before (side o) := by
  have whole := optimal.unchanged same
  have quiet : side o = keeps (before (side o)) := by
    apply eq_keeps_of_kept
    intro op member
    have inside : op ∈ keeps (before (overlays.flatMap side)) := whole ▸ List.mem_flatMap.mpr ⟨o,there,member⟩
    obtain ⟨line,-,rfl⟩ := List.mem_map.mp inside
    exact List.cons_ne_nil _ _
  rw [quiet,after_keeps,before_keeps]

theorem emptied_iff {base localText remote : Str} {overlays : List Overlay} (sides : localText ≠ remote)
    (aligns : Aligns base localText remote overlays) (calm : ∀ o ∈ overlays, ¬o.segment.Conflicting) :
    (∀ o ∈ overlays, o.segment.changed = []) ↔ Emptied base localText remote := by
  have locals := (List.flatMap_assoc).symm.trans aligns.localLines
  have remotes := (List.flatMap_assoc).symm.trans aligns.remoteLines
  have bases := (List.flatMap_assoc).symm.trans aligns.localBase
  have bases' := (List.flatMap_assoc).symm.trans aligns.remoteBase
  constructor
  · intro empty
    rcases aligns.solo with ⟨o,alone⟩ | ⟨lines,filled,there⟩
    · -- Every other piece is unchanged, and therefore empty.
      have others : ∀ x ∈ overlays, x ≠ o → before x.localScript = [] ∧ after x.localScript = [] ∧ after x.remoteScript = [] ∧
          before x.remoteScript = [] := by
        intro x there different
        obtain ⟨lines,rfl⟩ := (alone x there).resolve_left different
        have none := empty _ there
        rw [Overlay.unchanged_segment,(Segment.same_settled ⟨lines,lines,lines⟩ rfl).2] at none
        have none : lines = [] := none
        subst none
        exact ⟨rfl,rfl,rfl,rfl⟩
      have vanish : ∀ f : Overlay → List Str, (∀ x ∈ overlays, f x = []) → overlays.flatMap f = [] := fun f none =>
        List.flatMap_eq_nil_iff.mpr none
      have clash : ¬((∀ x ∈ overlays, after x.localScript = []) ∧ ∀ x ∈ overlays, after x.remoteScript = []) := by
        rintro ⟨noneL,noneR⟩
        have emptyL := (splitLines_eq_nil_iff localText).mp (locals.symm.trans (vanish _ noneL))
        have emptyR := (splitLines_eq_nil_iff remote).mp (remotes.symm.trans (vanish _ noneR))
        exact sides (emptyL.trans emptyR.symm)
      by_cases there : o ∈ overlays
      · rcases o.segment.changed_cases (calm o there) with ⟨only,same⟩ | ⟨only,same⟩ | ⟨both,same⟩
        · left
          have none : after o.localScript = [] := same.symm.trans (empty o there)
          constructor
          · apply (splitLines_eq_nil_iff localText).mp
            rw [← locals]
            apply vanish
            intro x member
            by_cases one : x = o
            · exact one ▸ none
            · exact (others x member one).2.1
          · rw [← remotes,← bases']
            apply List.flatMap_congr
            intro x member
            by_cases one : x = o
            · rw [one]
              exact (show after o.remoteScript = before o.localScript from only).trans o.shared
            · rw [show x.remoteScript.flatMap EditOp.after = [] from (others x member one).2.2.1]
              exact (others x member one).2.2.2.symm
        · right
          have none : after o.remoteScript = [] := same.symm.trans (empty o there)
          constructor
          · apply (splitLines_eq_nil_iff remote).mp
            rw [← remotes]
            apply vanish
            intro x member
            by_cases one : x = o
            · exact one ▸ none
            · exact (others x member one).2.2.1
          · rw [← locals,← bases]
            apply List.flatMap_congr
            intro x member
            by_cases one : x = o
            · rw [one]
              exact only
            · rw [show x.localScript.flatMap EditOp.after = [] from (others x member one).2.1]
              exact (others x member one).1.symm
        · have none : after o.localScript = [] := same.symm.trans (empty o there)
          refine absurd ⟨fun x member => ?_,fun x member => ?_⟩ clash
          · by_cases one : x = o
            · exact one ▸ none
            · exact (others x member one).2.1
          · by_cases one : x = o
            · exact one ▸ (show after o.localScript = after o.remoteScript from both).symm.trans none
            · exact (others x member one).2.2.1
      · have different : ∀ x ∈ overlays, x ≠ o := fun x member same => there (same ▸ member)
        exact absurd ⟨fun x member => (others x member (different x member)).2.1,
          fun x member => (others x member (different x member)).2.2.1⟩ clash
    · have none := empty _ there
      rw [Overlay.unchanged_segment,(Segment.same_settled ⟨lines,lines,lines⟩ rfl).2] at none
      exact absurd none filled
  · rintro (⟨gone,same⟩ | ⟨gone,same⟩) o there
    · have only := unchanged_parts aligns.remoteOptimal (aligns.remoteBase.trans (same.symm.trans aligns.remoteLines.symm)) o there
      rw [(o.segment.local_settled (only.trans o.shared.symm)).2]
      rw [(splitLines_eq_nil_iff localText).mpr gone] at locals
      exact List.flatMap_eq_nil_iff.mp locals o there
    · have only := unchanged_parts aligns.localOptimal (aligns.localBase.trans (same.symm.trans aligns.localLines.symm)) o there
      rw [(o.segment.remote_settled only).2]
      rw [(splitLines_eq_nil_iff remote).mpr gone] at remotes
      exact List.flatMap_eq_nil_iff.mp remotes o there

/-- When the merge keeps line endings: two of the texts are the same, or nothing is
left, or the base shows the convention, some text ends with a newline, and no
carriage return of its own reaches a line feed. -/
def KeepsEndings (e : Eol) (base localText remote : Str) : Prop :=
  (localText = remote ∨ localText = base ∨ remote = base) ∨ Emptied base localText remote ∨
    ((e = .lf → 10 ∈ base) ∧ (EndsNewline base ∨ EndsNewline localText ∨ EndsNewline remote) ∧
      (e = .lf → ∀ z, EndsCr z → ¬Carried base localText remote z))

theorem sweeps_of_clean {base localText remote : Str} (sides : localText ≠ remote) (localChanged : localText ≠ base)
    (remoteChanged : remote ≠ base) (clean : (merge base localText remote).clean = true) : Sweeps base localText remote := by
  unfold merge at clean
  rw [if_neg sides,if_neg localChanged,if_neg remoteChanged] at clean
  dsimp only at clean
  cases diffL : diffLines (splitLines base) (splitLines localText) with
  | none =>
    rw [diffL] at clean
    contradiction
  | some editsL =>
    cases diffR : diffLines (splitLines base) (splitLines remote) with
    | none =>
      rw [diffL,diffR] at clean
      contradiction
    | some editsR =>
      exact ⟨sides,localChanged,remoteChanged,(diffLines_isSome_iff _ _).mp ⟨editsL,diffL⟩,
        (diffLines_isSome_iff _ _).mp ⟨editsR,diffR⟩⟩

/-- The lines of a clean merge, where the sweep runs. -/
theorem clean_lines {base localText remote : Str} {overlays : List Overlay} (aligns : Aligns base localText remote overlays)
    (clean : (merge base localText remote).clean = true) :
    (∀ o ∈ overlays, ¬o.segment.Conflicting) ∧
      (merge base localText remote).merged = appendLines (eolOf base) (overlays.flatMap (fun o => o.segment.changed)) := by
  rw [aligns.result,merged] at clean ⊢
  split at clean
  · rename_i none
    rw [if_pos none]
    refine ⟨fun o there => ?_,?_⟩
    · exact (conflicting_eq_nil_iff _).mp none _ (List.mem_map_of_mem there)
    · rw [List.flatMap_map]
  · contradiction

/-- For texts of one convention, a clean merge keeps the convention, and does not end a
text that was never ended, exactly when `KeepsEndings` holds. -/
theorem merge_keeps_endings_iff (e : Eol) (base localText remote : Str) (usesB : Uses e base) (usesL : Uses e localText)
    (usesR : Uses e remote) (clean : (merge base localText remote).clean = true) :
    (Uses e (merge base localText remote).merged ∧
      (¬EndsNewline base ∧ ¬EndsNewline localText ∧ ¬EndsNewline remote → ¬EndsNewline (merge base localText remote).merged)) ↔
    KeepsEndings e base localText remote := by
  by_cases two : localText = remote ∨ localText = base ∨ remote = base
  · refine ⟨fun _ => .inl two,fun _ => ?_⟩
    have one : (merge base localText remote).merged = localText ∨ (merge base localText remote).merged = remote := by
      unfold merge
      split
      · exact .inl rfl
      split
      · exact .inr rfl
      split
      · exact .inl rfl
      · rename_i sides localChanged remoteChanged
        exact (two.elim sides (fun more => more.elim localChanged remoteChanged)).elim
    rcases one with same | same
    · rw [same]
      exact ⟨usesL,fun none => none.2.1⟩
    · rw [same]
      exact ⟨usesR,fun none => none.2.2⟩
  have apart := two
  rw [not_or,not_or] at apart
  obtain ⟨overlays,aligns⟩ := merge_aligns base localText remote (sweeps_of_clean apart.1 apart.2.1 apart.2.2 clean)
  obtain ⟨calm,text⟩ := clean_lines aligns clean
  have empty := emptied_iff apart.1 aligns calm
  have carried := carried_iff aligns calm
  have unbroken : ∀ z ∈ overlays.flatMap (fun o => o.segment.changed), 10 ∉ z := by
    intro z member
    obtain ⟨o,there,here⟩ := List.mem_flatMap.mp member
    rcases o.segment.changed_cases (calm o there) with ⟨-,same⟩ | ⟨-,same⟩ | ⟨-,same⟩
    · exact splitLines_no_newline _ z ((aligns.mem_local z).mpr ⟨o,there,same ▸ here⟩)
    · exact splitLines_no_newline _ z ((aligns.mem_remote z).mpr ⟨o,there,same ▸ here⟩)
    · exact splitLines_no_newline _ z ((aligns.mem_local z).mpr ⟨o,there,same ▸ here⟩)
  rw [← List.flatMap_eq_nil_iff] at empty
  simp only [← List.mem_flatMap] at carried
  rw [text,eolOf_uses e base usesB,uses_appendLines _ _ _ unbroken,KeepsEndings,← empty]
  generalize overlays.flatMap (fun o => o.segment.changed) = lines at *
  by_cases none : lines = []
  · subst none
    refine ⟨fun _ => .inr (.inl rfl),fun _ => ⟨fun line member => absurd member List.not_mem_nil,fun _ => ?_⟩⟩
    exact fun ended => absurd ended (by simp [EndsNewline,appendLines])
  · have ended := appendLines_last (written e base) lines none
    have kept : (∀ line ∈ lines, (written e base = .crlf ∨ EndsCr line) ↔ e = .crlf) ↔
        (e = .lf → 10 ∈ base) ∧ (e = .lf → ∀ z, EndsCr z → ¬Carried base localText remote z) := by
      cases e with
      | crlf =>
        have crlf : written .crlf base = .crlf := if_neg (fun both => Eol.noConfusion both.1)
        simp [crlf]
      | lf =>
        constructor
        · intro all
          obtain ⟨first,rest,rfl⟩ := List.exists_cons_of_ne_nil none
          have lf : written .lf base ≠ .crlf := fun crlf => Eol.noConfusion ((all first List.mem_cons_self).mp (.inl crlf))
          constructor
          · intro _
            by_contra missing
            exact lf (if_neg (fun both => missing both.2))
          · intro _ z ends carries
            have inside := (carried usesB usesL usesR z ends).mpr carries
            exact Eol.noConfusion ((all z inside).mp (.inr ends))
        · rintro ⟨newline,none⟩ line member
          have lf : written .lf base = .lf := if_pos ⟨rfl,newline rfl⟩
          rw [lf]
          refine ⟨?_,fun crlf => Eol.noConfusion crlf⟩
          rintro (crlf | ends)
          · exact Eol.noConfusion crlf
          · exact absurd ((carried usesB usesL usesR line ends).mp member) (none rfl line ends)
    rw [kept]
    constructor
    · rintro ⟨⟨shows,plain⟩,ends⟩
      refine .inr (.inr ⟨shows,?_,plain⟩)
      by_contra unended
      rw [not_or,not_or] at unended
      exact ends unended ended
    · rintro (same | gone | ⟨shows,some',plain⟩)
      · exact absurd same two
      · exact absurd gone none
      · refine ⟨⟨shows,plain⟩,fun unended => ?_⟩
        exact absurd some' (not_or.mpr ⟨unended.1,not_or.mpr unended.2⟩)

theorem uses_lf {text : Str} (plain : 13 ∉ text) : Uses .lf text := by
  intro front back split
  refine ⟨fun cr => absurd ?_ plain,fun crlf => Eol.noConfusion crlf⟩
  rw [split]
  exact List.mem_append_left _ (List.mem_of_getLast? cr)

theorem ended_texts_keep_endings : (merge (lit "a\nb\nc\n") (lit "A\nb\nc\n") (lit "a\nb\nC\n")).clean = true ∧
    Uses .lf (merge (lit "a\nb\nc\n") (lit "A\nb\nc\n") (lit "a\nb\nC\n")).merged := by
  have clean : (merge (lit "a\nb\nc\n") (lit "A\nb\nc\n") (lit "a\nb\nC\n")).clean = true := by decide
  refine ⟨clean,((merge_keeps_endings_iff .lf (lit "a\nb\nc\n") (lit "A\nb\nc\n") (lit "a\nb\nC\n") (uses_lf (by decide))
    (uses_lf (by decide)) (uses_lf (by decide)) clean).mpr ?_).1⟩
  refine .inr (.inr ⟨fun _ => by decide,.inl (by unfold EndsNewline; decide),?_⟩)
  intro _ z ends carries
  have linesL : splitLines (lit "A\nb\nc\n") = [lit "A",lit "b",lit "c"] := by decide
  have linesR : splitLines (lit "a\nb\nC\n") = [lit "a",lit "b",lit "C"] := by decide
  have plain : ∀ line ∈ [lit "A",lit "b",lit "c",lit "a",lit "C"], line.getLast? ≠ some 13 := by decide
  unfold Carried at carries
  rw [linesL,linesR] at carries
  refine plain z ?_ ends
  simp only [List.mem_cons,List.not_mem_nil,or_false] at carries ⊢
  tauto

/-- Three texts without a final newline merge into one that has it. -/
theorem unended_text_is_ended : ¬∀ (e : Eol) (base localText remote : Str), Uses e base → Uses e localText → Uses e remote →
    (merge base localText remote).clean = true → Uses e (merge base localText remote).merged ∧
      (¬EndsNewline base ∧ ¬EndsNewline localText ∧ ¬EndsNewline remote → ¬EndsNewline (merge base localText remote).merged) := by
  intro exact'
  have kept := exact' .lf (lit "a\nb\nc") (lit "A\nb\nc") (lit "a\nb\nC") (uses_lf (by decide)) (uses_lf (by decide))
    (uses_lf (by decide)) (by decide)
  refine kept.2 ⟨?_,?_,?_⟩ ?_
  · unfold EndsNewline
    decide
  · unfold EndsNewline
    decide
  · unfold EndsNewline
    decide
  · unfold EndsNewline
    decide

end NPSync.Merge
