import Mathlib.Computability.Language
import NPSync.IgnoreRules

/-! The language of a glob pattern, and the first places of its blocks: the stars
cut a pattern into blocks of other characters, and a string is in the language when
the blocks stand in it one behind the other, with a run each star may take before
them. Putting every block at the first place it stands at finds such a run unless
something hinders it. -/
namespace NPSync.IgnoreRules
open scoped Computability

inductive Token
  | char (c : UInt8)
  | any
  | star
  | doubleStar
  | segments
deriving DecidableEq

/-- A pattern read from the left, the longest token first. -/
def tokens : Str → List Token
  | [] => []
  | 42::42::47::pat => .segments::tokens pat
  | 42::42::pat => .doubleStar::tokens pat
  | 42::pat => .star::tokens pat
  | 63::pat => .any::tokens pat
  | c::pat => .char c::tokens pat

/-- Runs without a separator. -/
def slashless : Language UInt8 := {w | 47 ∉ w}

def single (c : UInt8) : Language UInt8 := {w | w = [c]}

def Token.language : Token → Language UInt8
  | .char c => single c
  | .any => {w | ∃ c, w = [c]}
  | .star => slashless
  | .doubleStar => {_w | True}
  | .segments => (slashless * single 47)∗

def language (pat : Str) : Language UInt8 := ((tokens pat).map Token.language).prod

/-- Whole segments with their separators: nothing, or what ends at a separator. -/
theorem mem_segments (w : Str) : w ∈ Token.segments.language ↔ w = [] ∨ w.getLast? = some 47 := by
  constructor
  · rintro ⟨pieces,rfl,whole⟩
    rcases List.eq_nil_or_concat pieces with rfl | ⟨front,last,rfl⟩
    · exact Or.inl rfl
    · obtain ⟨run,_,slash,rfl,rfl⟩ := Language.mem_mul.mp (whole last (by simp))
      exact Or.inr (by simp)
  · intro ends
    induction w with
    | nil => exact Language.nil_mem_kstar _
    | cons c w ih =>
      by_cases done : w = []
      · subst done
        obtain rfl : c = 47 := by simpa using ends
        refine ⟨[[47]],rfl,?_⟩
        intro piece inside
        obtain rfl := List.mem_singleton.mp inside
        exact Language.mem_mul.mpr ⟨[],List.not_mem_nil,[47],rfl,rfl⟩
      · have later : w.getLast? = some 47 := by
          have ends := ends.resolve_left (List.cons_ne_nil c w)
          rwa [List.getLast?_cons_of_ne_nil done] at ends
        obtain ⟨pieces,rfl,whole⟩ := ih (Or.inr later)
        by_cases slash : c = 47
        · refine ⟨[c]::pieces,rfl,?_⟩
          rintro piece inside
          rcases List.mem_cons.mp inside with rfl | inside
          · exact Language.mem_mul.mpr ⟨[],List.not_mem_nil,[c],congrArg (fun c => [c]) slash,rfl⟩
          · exact whole piece inside
        · cases pieces with
          | nil => exact absurd rfl done
          | cons first pieces =>
            obtain ⟨run,clean,sep,rfl,rfl⟩ := Language.mem_mul.mp (whole first List.mem_cons_self)
            refine ⟨(c::run ++ [47])::pieces,rfl,?_⟩
            rintro piece inside
            rcases List.mem_cons.mp inside with rfl | inside
            · refine Language.mem_mul.mpr ⟨c::run,?_,[47],rfl,rfl⟩
              intro member
              rcases List.mem_cons.mp member with same | member
              · exact slash same.symm
              · exact clean member
            · exact whole piece (List.mem_cons_of_mem _ inside)

instance decideToken (t : Token) (w : Str) : Decidable (w ∈ t.language) :=
  match t with
  | .char c => inferInstanceAs (Decidable (w = [c]))
  | .any => decidable_of_iff (w.length = 1) List.length_eq_one_iff
  | .star => inferInstanceAs (Decidable (47 ∉ w))
  | .doubleStar => isTrue trivial
  | .segments => decidable_of_iff _ (mem_segments w).symm

/-- A product is decided by trying every place to cut. -/
theorem mem_mul_cut {α : Type} (l m : Language α) (w : List α) :
    w ∈ l * m ↔ ∃ k ∈ List.range (w.length + 1), w.take k ∈ l ∧ w.drop k ∈ m := by
  rw [Language.mem_mul]
  constructor
  · rintro ⟨x,left,y,right,rfl⟩
    refine ⟨x.length,List.mem_range.mpr ?_,?_,?_⟩
    · rw [List.length_append]
      omega
    · rwa [List.take_left]
    · rwa [List.drop_left]
  · rintro ⟨k,_,left,right⟩
    exact ⟨w.take k,left,w.drop k,right,List.take_append_drop k w⟩

instance decideTokens : (ts : List Token) → (w : Str) → Decidable (w ∈ (ts.map Token.language).prod)
  | [],w => inferInstanceAs (Decidable (w = []))
  | t::ts,w =>
    have := decideTokens ts
    decidable_of_iff _ (mem_mul_cut t.language (ts.map Token.language).prod w).symm

instance (pat str : Str) : Decidable (str ∈ language pat) := decideTokens (tokens pat) str

/-! ### Blocks -/

/-- A pattern cut at its stars: the characters before the first, and each star with
the characters after it. -/
def parts : Str → Str × List (Token × Str)
  | [] => ([],[])
  | 42::42::47::pat => ([],(.segments,(parts pat).1)::(parts pat).2)
  | 42::42::pat => ([],(.doubleStar,(parts pat).1)::(parts pat).2)
  | 42::pat => ([],(.star,(parts pat).1)::(parts pat).2)
  | c::pat => (c::(parts pat).1,(parts pat).2)

/-- What is behind a block that stands at the head of the string. -/
def behind : (block s : Str) → Option Str
  | [],s => some s
  | _::_,[] => none
  | p::block,c::s => if p = 63 ∨ p = c then behind block s else none

/-- The last block has to end the string. -/
def stands (block : Str) (last : Bool) (s : Str) : Option Str :=
  (behind block s).filter fun rest => !last || rest.isEmpty

/-- The first place a block stands at: what is skipped before it and what is behind. -/
def place (block : Str) (last : Bool) : (s : Str) → Option (Str × Str)
  | [] => (stands block last []).map fun rest => ([],rest)
  | c::s =>
    match stands block last (c::s) with
    | some rest => some ([],rest)
    | none => (place block last s).map fun (skipped,rest) => (c::skipped,rest)

/-- The stars and blocks of a pattern spell a string. -/
def Parted : List (Token × Str) → Str → Prop
  | [],s => s = []
  | (t,block)::ps,s => ∃ run ∈ t.language, ∃ y, run ++ y = s ∧ ∃ rest, behind block y = some rest ∧ Parted ps rest

/-- Every block at its first place; a single star does not skip a separator. -/
def reach : List (Token × Str) → Str → Bool
  | [],s => s.isEmpty
  | (t,block)::ps,s =>
    if s = [] then ((t,block)::ps).all fun part => part.2.isEmpty && part.1 ≠ .segments
    else match place block ps.isEmpty s with
      | none => false
      | some (skipped,rest) => if t = .star ∧ 47 ∈ skipped then false else reach ps rest

/-- A star whose block has been placed, and the string it was met at. -/
structure Met where
  star : Token
  block : Str
  text : Str

/-- The block placed last stands once more, behind the next separator of `s`, and
the single star there finds its own block before another separator. The first star
of a pattern is where it was; a later one may have been met anywhere behind. -/
def Again : (past : List Met) → (block : Str) → (last : Bool) → (s : Str) → Prop
  | [],_,_,_ => False
  | met::older,block,last,s =>
    ∃ k ∈ List.range (met.text.length + 1), (older.isEmpty → met.text.take k ∈ met.star.language) ∧
      ∃ rest ∈ behind met.block (met.text.drop k),
        rest.length < (s.dropWhile (· ≠ 47)).length ∧ ∃ found ∈ place block last rest, 47 ∉ found.1

instance decideAgain : (past : List Met) → (block : Str) → (last : Bool) → (s : Str) → Decidable (Again past block last s)
  | [],_,_,_ => isFalse id
  | _::_,_,_,_ => inferInstanceAs (Decidable (∃ _ ∈ _, _))

/-- A single star that cannot pass a separator of `s` gives up nothing an older star
could still do: every star before it is a single one too, with a block that says
which characters are separators, or the block placed last does not stand again. -/
def Unforgotten (past : List Met) (block : Str) (last : Bool) (s : Str) : Prop :=
  (∀ met ∈ past, met.star = .star ∧ 63 ∉ met.block) ∨ ¬Again past block last s

instance (past : List Met) (block : Str) (last : Bool) (s : Str) : Decidable (Unforgotten past block last s) :=
  inferInstanceAs (Decidable (_ ∨ _))

/-- Nothing hinders the stars and blocks of a pattern on `s`, with the stars in
`past` (the newest first) already met. -/
def Along : (past : List Met) → List (Token × Str) → Str → Prop
  | _,[],_ => True
  | past,(t,block)::ps,s =>
    if s = [] then (∀ part ∈ (t,block)::ps, part.2 = []) → ∀ part ∈ (t,block)::ps, part.1 ≠ .segments
    else s.head? ≠ some 42 ∧
      match place block ps.isEmpty s with
      | none => True
      | some (skipped,rest) =>
        if skipped ∈ t.language then Along (⟨t,block,s⟩::past) ps rest
        else t = .star ∧ Unforgotten past block ps.isEmpty s

/-- No star of the pattern meets a star of the string, `**/` skips whole segments
and is not what is left when the string ends, and no single star stops at a
separator where an older star could go on. -/
def Unhindered (pat str : Str) : Prop :=
  match behind (parts pat).1 str with
  | none => True
  | some s => Along [] (parts pat).2 s

def decideAlong : (past : List Met) → (ps : List (Token × Str)) → (s : Str) → Decidable (Along past ps s)
  | _,[],_ => isTrue trivial
  | past,(t,block)::ps,s =>
    if ended : s = [] then
      decidable_of_iff ((∀ part ∈ (t,block)::ps, part.2 = []) → ∀ part ∈ (t,block)::ps, part.1 ≠ .segments)
        (by rw [Along,if_pos ended])
    else
      match found : place block ps.isEmpty s with
      | none => decidable_of_iff (s.head? ≠ some 42) (by simp [Along,ended,found])
      | some (skipped,rest) =>
        if taken : skipped ∈ t.language then
          have := decideAlong (⟨t,block,s⟩::past) ps rest
          decidable_of_iff (s.head? ≠ some 42 ∧ Along (⟨t,block,s⟩::past) ps rest)
            (by simp [Along,ended,found,taken])
        else
          decidable_of_iff (s.head? ≠ some 42 ∧ t = .star ∧ Unforgotten past block ps.isEmpty s)
            (by simp [Along,ended,found,taken])

instance (past : List Met) (ps : List (Token × Str)) (s : Str) : Decidable (Along past ps s) := decideAlong past ps s

instance (pat str : Str) : Decidable (Unhindered pat str) :=
  match found : behind (parts pat).1 str with
  | none => isTrue (by simp [Unhindered,found])
  | some s => decidable_of_iff (Along [] (parts pat).2 s) (by simp [Unhindered,found])

/-! ### A pattern's language through its blocks -/

private theorem mem_token {t : Token} {pat rest : Str} (read : tokens pat = t::tokens rest) (str : Str) :
    str ∈ language pat ↔ ∃ w ∈ t.language, ∃ s ∈ language rest, w ++ s = str := by
  unfold language
  rw [read,List.map_cons,List.prod_cons,Language.mem_mul]

private theorem mem_starred {t : Token} {pat rest : Str} (read : tokens pat = t::tokens rest)
    (ih : ∀ str, str ∈ language rest ↔ ∃ s, behind (parts rest).1 str = some s ∧ Parted (parts rest).2 s) (str : Str) :
    str ∈ language pat ↔ Parted ((t,(parts rest).1)::(parts rest).2) str := by
  rw [mem_token read]
  constructor
  · rintro ⟨run,taken,y,inside,rfl⟩
    exact ⟨run,taken,y,rfl,(ih y).mp inside⟩
  · rintro ⟨run,taken,y,rfl,spelled⟩
    exact ⟨run,taken,y,(ih y).mpr spelled,rfl⟩

private theorem mem_char {t : Token} {c : UInt8} {pat : Str} (read : tokens (c::pat) = t::tokens pat)
    (one : ∀ w, w ∈ t.language ↔ ∃ d, w = [d] ∧ (c = 63 ∨ c = d)) (str : Str) :
    str ∈ language (c::pat) ↔ ∃ d s, str = d::s ∧ (c = 63 ∨ c = d) ∧ s ∈ language pat := by
  rw [mem_token read]
  constructor
  · rintro ⟨w,taken,s,inside,rfl⟩
    obtain ⟨d,rfl,same⟩ := (one w).mp taken
    exact ⟨d,s,rfl,same,inside⟩
  · rintro ⟨d,s,rfl,same,inside⟩
    exact ⟨[d],(one _).mpr ⟨d,rfl,same⟩,s,inside,rfl⟩

private theorem mem_other {c : UInt8} {pat : Str} (unstarred : c ≠ 42) (str : Str) :
    str ∈ language (c::pat) ↔ ∃ d s, str = d::s ∧ (c = 63 ∨ c = d) ∧ s ∈ language pat := by
  by_cases any : c = 63
  · subst any
    refine mem_char (t := .any) (by rw [tokens]) ?_ str
    intro w
    constructor
    · rintro ⟨d,rfl⟩
      exact ⟨d,rfl,Or.inl rfl⟩
    · rintro ⟨d,rfl,_⟩
      exact ⟨d,rfl⟩
  · refine mem_char (t := .char c) (by rw [tokens] <;> simp [any,unstarred]) ?_ str
    intro w
    constructor
    · rintro rfl
      exact ⟨c,rfl,Or.inr rfl⟩
    · rintro ⟨d,rfl,same⟩
      obtain rfl : c = d := same.resolve_left any
      rfl

/-- A string is in the language when its head is the first block and the stars and
blocks spell the rest. -/
theorem mem_language (pat str : Str) :
    str ∈ language pat ↔ ∃ s, behind (parts pat).1 str = some s ∧ Parted (parts pat).2 s := by
  fun_induction parts pat generalizing str with
  | case1 => exact ⟨fun inside => ⟨str,rfl,inside⟩,fun ⟨_,rfl,inside⟩ => inside⟩
  | case2 pat ih =>
    rw [mem_starred (by rw [tokens]) ih]
    simp [behind]
  | case3 pat other ih =>
    rw [mem_starred (t := .doubleStar) (by rw [tokens]; exact other) ih]
    simp [behind]
  | case4 pat other double ih =>
    rw [mem_starred (t := .star) (by rw [tokens] <;> assumption) ih]
    simp [behind]
  | case5 c pat other double unstarred ih =>
    rw [mem_other unstarred]
    cases str with
    | nil => simp [behind]
    | cons d str =>
      by_cases same : c = 63 ∨ c = d
      · simp [behind,same,ih str]
      · simp [behind,same]

theorem parts_wild (pat : Str) : ∀ part ∈ (parts pat).2, [] ∈ part.1.language := by
  have star : ([] : Str) ∈ Token.star.language := List.not_mem_nil
  have segments : ([] : Str) ∈ Token.segments.language := (mem_segments []).mpr (Or.inl rfl)
  fun_induction parts pat with
  | case1 => simp
  | case2 pat ih => exact List.forall_mem_cons.mpr ⟨segments,ih⟩
  | case3 pat other ih => exact List.forall_mem_cons.mpr ⟨trivial,ih⟩
  | case4 pat other double ih => exact List.forall_mem_cons.mpr ⟨star,ih⟩
  | case5 c pat other double unstarred ih => exact ih

/-! ### Places -/

theorem behind_some {block s rest : Str} (at_head : behind block s = some rest) :
    ∃ head, head ++ rest = s ∧ head.length = block.length ∧ (63 ∉ block → head = block) := by
  induction block generalizing s with
  | nil =>
    cases at_head
    exact ⟨[],rfl,rfl,fun _ => rfl⟩
  | cons p block ih =>
    cases s with
    | nil => contradiction
    | cons c s =>
      rw [behind] at at_head
      split at at_head
      · next same =>
        obtain ⟨head,rfl,long,exactly⟩ := ih at_head
        refine ⟨c::head,rfl,congrArg (· + 1) long,?_⟩
        intro fixed
        rw [List.mem_cons,not_or] at fixed
        rw [exactly fixed.2,same.resolve_left (Ne.symm fixed.1)]
      · contradiction

theorem behind_suffix {block s rest : Str} (at_head : behind block s = some rest) : rest <:+ s := by
  obtain ⟨head,joined,_⟩ := behind_some at_head
  exact ⟨head,joined⟩

theorem stands_some {block s rest : Str} {last : Bool} (found : stands block last s = some rest) :
    behind block s = some rest ∧ (last = true → rest = []) := by
  obtain ⟨at_head,ends⟩ := Option.filter_eq_some_iff.mp found
  refine ⟨at_head,?_⟩
  rintro rfl
  simpa using ends

theorem stands_of {block s rest : Str} {last : Bool} (at_head : behind block s = some rest) (ends : last = true → rest = []) :
    stands block last s = some rest := by
  refine Option.filter_eq_some_iff.mpr ⟨at_head,?_⟩
  cases last with
  | false => rfl
  | true => simp [ends rfl]

theorem place_some {block s skipped rest : Str} {last : Bool} (found : place block last s = some (skipped,rest)) :
    ∃ y, skipped ++ y = s ∧ stands block last y = some rest := by
  induction s generalizing skipped with
  | nil =>
    obtain ⟨z,here,⟨⟩⟩ := Option.map_eq_some_iff.mp found
    exact ⟨[],rfl,here⟩
  | cons c s ih =>
    rw [place] at found
    split at found
    · next z here =>
      cases found
      exact ⟨c::s,rfl,here⟩
    · obtain ⟨⟨run,z⟩,later,⟨⟩⟩ := Option.map_eq_some_iff.mp found
      obtain ⟨y,rfl,there⟩ := ih later
      exact ⟨y,rfl,there⟩

/-- A place is never missed, and the first one is no later. -/
theorem place_first {block y rest : Str} {last : Bool} (run : Str) (there : stands block last y = some rest) :
    ∃ skipped z, place block last (run ++ y) = some (skipped,z) ∧ skipped <+: run := by
  induction run with
  | nil =>
    refine ⟨[],rest,?_,List.nil_prefix⟩
    cases y with
    | nil =>
      rw [List.nil_append,place,there]
      rfl
    | cons c y => rw [List.nil_append,place,there]
  | cons c run ih =>
    rw [List.cons_append,place]
    split
    · exact ⟨[],_,rfl,List.nil_prefix⟩
    · obtain ⟨skipped,z,found,shorter⟩ := ih
      exact ⟨c::skipped,z,by rw [found]; rfl,(List.prefix_cons_inj c).mpr shorter⟩

/-! ### First places against any others -/

theorem parted_nil {ps : List (Token × Str)} (bare : ∀ part ∈ ps, part.2 = [] ∧ [] ∈ part.1.language) : Parted ps [] := by
  induction ps with
  | nil => rfl
  | cons part ps ih =>
    obtain ⟨t,block⟩ := part
    rw [List.forall_mem_cons] at bare
    obtain ⟨⟨rfl,taken⟩,later⟩ := bare
    exact ⟨[],taken,[],rfl,[],rfl,ih later⟩

theorem parted_ends {ps : List (Token × Str)} (spelled : Parted ps []) : ∀ part ∈ ps, part.2 = [] := by
  induction ps with
  | nil => exact fun part member => absurd member List.not_mem_nil
  | cons part ps ih =>
    obtain ⟨t,block⟩ := part
    obtain ⟨run,_,y,joined,rest,at_head,later⟩ := spelled
    obtain ⟨rfl,rfl⟩ := List.append_eq_nil_iff.mp joined
    cases block with
    | nil =>
      cases at_head
      exact List.forall_mem_cons.mpr ⟨rfl,ih later⟩
    | cons p block => contradiction

/-- The first places are places. -/
theorem reach_sound {past : List Met} {ps : List (Token × Str)} {s : Str} (free : Along past ps s)
    (wild : ∀ part ∈ ps, [] ∈ part.1.language) (reached : reach ps s = true) : Parted ps s := by
  induction ps generalizing past s with
  | nil => exact List.isEmpty_iff.mp reached
  | cons part ps ih =>
    obtain ⟨t,block⟩ := part
    rw [reach] at reached
    rw [Along] at free
    split at reached
    · next done =>
      subst done
      apply parted_nil
      intro part member
      have empty := List.all_eq_true.mp reached part member
      rw [Bool.and_eq_true,List.isEmpty_iff] at empty
      exact ⟨empty.1,wild part member⟩
    · next more =>
      rw [if_neg more] at free
      obtain ⟨-,free⟩ := free
      split at reached
      · contradiction
      · next skipped rest found =>
        simp only [found] at free
        split at reached
        · contradiction
        · next within =>
          have taken : skipped ∈ t.language := by
            by_contra never
            rw [if_neg never] at free
            obtain ⟨rfl,_⟩ := free
            exact within ⟨rfl,not_not.mp never⟩
          rw [if_pos taken] at free
          obtain ⟨y,rfl,here⟩ := place_some found
          refine ⟨skipped,taken,y,rfl,rest,(stands_some here).1,?_⟩
          exact ih free (List.forall_mem_cons.mp wild).2 reached

/-- Where any other places put the string, with the first places at `s`: behind it,
past as many separators if only single stars and exact blocks came before, and right
after the block placed last. -/
structure Trails (past : List Met) (s s' : Str) : Prop where
  suffix : s' <:+ s
  start : past = [] → s' = s
  counted : (∀ met ∈ past, met.star = .star ∧ 63 ∉ met.block) → s'.count 47 = s.count 47
  again : ∀ met older, past = met::older → ∃ k ∈ List.range (met.text.length + 1),
    (older.isEmpty → met.text.take k ∈ met.star.language) ∧ behind met.block (met.text.drop k) = some s'

/-- Where other places find a block the first place is no later. -/
theorem Trails.earlier {past : List Met} {s s' block run y rest : Str} {last : Bool} (trails : Trails past s s')
    (joined : run ++ y = s') (there : stands block last y = some rest) :
    ∃ d skipped z, d ++ s' = s ∧ place block last s = some (skipped,z) ∧ skipped <+: d ++ run := by
  obtain ⟨d,ahead⟩ := trails.suffix
  obtain ⟨skipped,z,found,shorter⟩ := place_first (d ++ run) there
  rw [List.append_assoc,joined,ahead] at found
  exact ⟨d,skipped,z,ahead,found,shorter⟩

theorem count_behind {run y block rest : Str} (free : 47 ∉ run) (fixed : 63 ∉ block) (at_head : behind block y = some rest) :
    (run ++ y).count 47 = block.count 47 + rest.count 47 := by
  obtain ⟨head,rfl,_,exactly⟩ := behind_some at_head
  rw [List.count_append,List.count_append,List.count_eq_zero.mpr free,exactly fixed,Nat.zero_add]

theorem Trails.step {past : List Met} {s s' block skipped z run y rest : Str} {t : Token} {last : Bool}
    (trails : Trails past s s') (found : place block last s = some (skipped,z)) (taken : skipped ∈ t.language)
    (other : run ∈ t.language) (joined : run ++ y = s') (there : stands block last y = some rest) :
    Trails (⟨t,block,s⟩::past) z rest := by
  obtain ⟨d,_,_,ahead,same,shorter⟩ := trails.earlier joined there
  cases found.symm.trans same
  obtain ⟨x,split,here⟩ := place_some found
  have at_x := (stands_some here).1
  have at_y := (stands_some there).1
  have whole : (d ++ run) ++ y = s := by rw [List.append_assoc,joined,ahead]
  refine ⟨?_,?_,?_,?_⟩
  · have from_x : z <:+ s := (behind_suffix at_x).trans ⟨skipped,split⟩
    have from_y : rest <:+ s := (behind_suffix at_y).trans ⟨d ++ run,whole⟩
    obtain ⟨u,joined_x,long_x,_⟩ := behind_some at_x
    obtain ⟨v,joined_y,long_y,_⟩ := behind_some at_y
    apply List.suffix_of_suffix_length_le from_y from_x
    have lengths := congrArg List.length (split.trans whole.symm)
    have first := shorter.length_le
    simp only [← joined_x,← joined_y,List.length_append] at lengths first
    omega
  · intro none_left
    contradiction
  · intro exact_past
    rw [List.forall_mem_cons] at exact_past
    obtain ⟨⟨rfl,fixed⟩,older⟩ := exact_past
    have same := trails.counted older
    rw [← joined,← split,count_behind other fixed at_y,count_behind taken fixed at_x] at same
    omega
  · rintro met older ⟨⟩
    refine ⟨(d ++ run).length,?_,?_,?_⟩
    · simp only [List.mem_range,← whole,List.length_append]
      omega
    · intro first
      obtain rfl := trails.start (List.isEmpty_iff.mp first)
      obtain rfl : d = [] := by simpa using ahead
      simp only [← whole,List.nil_append,List.take_left]
      exact other
    · simp only [← whole,List.drop_left]
      exact at_y

/-- A single star that stops at a separator although other places get past it has
forgotten something. -/
theorem Trails.forgotten {past : List Met} {s s' block skipped z run y rest : Str} {last : Bool}
    (trails : Trails past s s') (found : place block last s = some (skipped,z)) (stops : 47 ∈ skipped)
    (free : 47 ∉ run) (joined : run ++ y = s') (there : stands block last y = some rest) : ¬Unforgotten past block last s := by
  obtain ⟨d,_,_,ahead,same,shorter⟩ := trails.earlier joined there
  cases found.symm.trans same
  -- The separator is in what the other places have already passed.
  have passed : 47 ∈ d := (List.mem_append.mp (shorter.subset stops)).resolve_right free
  rintro (exact_past | once)
  · have same := trails.counted exact_past
    rw [← ahead,List.count_append] at same
    have some_passed := List.count_pos_iff.mpr passed
    omega
  · cases past with
    | nil =>
      obtain rfl := trails.start rfl
      obtain rfl : d = [] := by simpa using ahead
      exact List.not_mem_nil passed
    | cons met older =>
      obtain ⟨k,bound,reaches,at_head⟩ := trails.again met older rfl
      obtain ⟨earlier,z,found,shorter⟩ := place_first run there
      rw [joined] at found
      apply once
      refine ⟨k,bound,reaches,s',at_head,?_,(earlier,z),found,fun stop => free (shorter.subset stop)⟩
      have left : d.dropWhile (· ≠ 47) ≠ [] := by
        intro none_left
        have clean := List.dropWhile_eq_nil_iff.mp none_left 47 passed
        simp at clean
      rw [← ahead,List.dropWhile_append,if_neg (by simpa using left),List.length_append]
      have some_left := List.length_pos_iff.mpr left
      omega

/-- Where nothing hinders the first places, any places are found by them. -/
theorem reach_complete {past : List Met} {ps : List (Token × Str)} {s s' : Str} (free : Along past ps s)
    (trails : Trails past s s') (ends : ps = [] → s' = s) (spelled : Parted ps s') : reach ps s = true := by
  induction ps generalizing past s s' with
  | nil =>
    obtain rfl : s' = s := ends rfl
    exact List.isEmpty_iff.mpr spelled
  | cons part ps ih =>
    obtain ⟨t,block⟩ := part
    rw [reach]
    rw [Along] at free
    by_cases done : s = []
    · rw [if_pos done] at free ⊢
      subst done
      obtain rfl := List.suffix_nil.mp trails.suffix
      have empty := parted_ends spelled
      apply List.all_eq_true.mpr
      intro part member
      simp [empty part member,free empty part member]
    · rw [if_neg done] at free ⊢
      obtain ⟨-,free⟩ := free
      obtain ⟨run,other,y,joined,rest,at_head,later⟩ := spelled
      have final : ps.isEmpty = true → rest = [] := by
        intro last
        obtain rfl := List.isEmpty_iff.mp last
        exact later
      have there := stands_of at_head final
      obtain ⟨_,skipped,z,_,found,_⟩ := trails.earlier joined there
      simp only [found] at free ⊢
      by_cases taken : skipped ∈ t.language
      · rw [if_pos taken] at free
        have within : ¬(t = .star ∧ 47 ∈ skipped) := by
          rintro ⟨rfl,stop⟩
          exact taken stop
        rw [if_neg within]
        apply ih free (trails.step found taken other joined there) _ later
        rintro rfl
        have at_end := (stands_some (place_some found).choose_spec.2).2 rfl
        rw [at_end,final rfl]
      · rw [if_neg taken] at free
        obtain ⟨rfl,unforgotten⟩ := free
        exact absurd unforgotten (trails.forgotten found (not_not.mp taken) other joined there)

theorem reach_iff_parted {ps : List (Token × Str)} {s : Str} (free : Along [] ps s)
    (wild : ∀ part ∈ ps, [] ∈ part.1.language) : reach ps s = true ↔ Parted ps s := by
  have trails : Trails [] s s := ⟨List.suffix_rfl,fun _ => rfl,fun _ => rfl,fun _ _ none_left => nomatch none_left⟩
  exact ⟨reach_sound free wild,reach_complete free trails fun _ => rfl⟩

/-! ### Patterns of single stars and plain characters -/

structure PlainGlob (pat : Str) : Prop where
  exact : 63 ∉ pat
  single : ¬[42,42] <:+: pat

theorem PlainGlob.tail {c : UInt8} {pat : Str} (plain : PlainGlob (c::pat)) : PlainGlob pat :=
  ⟨fun member => plain.exact (List.mem_cons_of_mem c member),fun inside => plain.single (List.infix_cons inside)⟩

theorem PlainGlob.parts {pat : Str} (plain : PlainGlob pat) :
    63 ∉ (IgnoreRules.parts pat).1 ∧ ∀ part ∈ (IgnoreRules.parts pat).2, part.1 = .star ∧ 63 ∉ part.2 := by
  fun_induction IgnoreRules.parts pat with
  | case1 => simp
  | case2 pat ih => exact absurd ⟨[],47::pat,rfl⟩ plain.single
  | case3 pat other ih => exact absurd ⟨[],pat,rfl⟩ plain.single
  | case4 pat other double ih =>
    obtain ⟨exactly,later⟩ := ih plain.tail
    exact ⟨List.not_mem_nil,List.forall_mem_cons.mpr ⟨⟨rfl,exactly⟩,later⟩⟩
  | case5 c pat other double unstarred ih =>
    obtain ⟨exactly,later⟩ := ih plain.tail
    refine ⟨?_,later⟩
    intro member
    rcases List.mem_cons.mp member with any | member
    · exact plain.exact (any ▸ List.mem_cons_self)
    · exact exactly member

theorem along_single {past : List Met} {ps : List (Token × Str)} {s : Str} (singles : ∀ part ∈ ps, part.1 = .star ∧ 63 ∉ part.2)
    (before : ∀ met ∈ past, met.star = .star ∧ 63 ∉ met.block) (unstarred : 42 ∉ s) : Along past ps s := by
  induction ps generalizing past s with
  | nil => trivial
  | cons part ps ih =>
    obtain ⟨t,block⟩ := part
    rw [Along]
    split
    · intro empty part member
      rw [(singles part member).1]
      decide
    · refine ⟨fun starred => unstarred (List.mem_of_head? starred),?_⟩
      rw [List.forall_mem_cons] at singles
      obtain ⟨first,later⟩ := singles
      split
      · trivial
      · next skipped rest found =>
        split
        · obtain ⟨y,joined,here⟩ := place_some found
          have shorter : rest <:+ s := (behind_suffix (stands_some here).1).trans ⟨skipped,joined⟩
          exact ih later (List.forall_mem_cons.mpr ⟨first,before⟩) fun member => unstarred (shorter.subset member)
        · exact ⟨first.1,Or.inl before⟩

/-- Nothing hinders a pattern of single stars and plain characters on a string
without a star. -/
theorem plain_unhindered {pat str : Str} (plain : PlainGlob pat) (unstarred : 42 ∉ str) : Unhindered pat str := by
  unfold Unhindered
  split
  · trivial
  · next s at_head =>
    exact along_single plain.parts.2 (by simp) fun member => unstarred ((behind_suffix at_head).subset member)

end NPSync.IgnoreRules
