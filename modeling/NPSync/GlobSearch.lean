import NPSync.GlobLanguage

/-! The matcher as a search. It reads the pattern's blocks one after another and
remembers the newest star only: a block that does not stand moves that star by one.
So it puts every block at its first place, and finds the language of the pattern
where nothing hinders that. -/
namespace NPSync.IgnoreRules

structure GlobState where
  pat : Str
  str : Str
  star : Option Star

namespace GlobState

def backtrack (σ : GlobState) : Option GlobState :=
  match σ.star with
  | none => none
  | some star =>
    if !star.double && star.text.head? = some 47 then none
    else some ⟨star.resume,star.text.tail,some {star with text := star.text.tail}⟩

/-- One round of the loop on a string that has not ended; `none` returns false. -/
def round (σ : GlobState) : Option GlobState :=
  match σ.pat with
  | [] => σ.backtrack
  | p::pat =>
    if p = 63 || some p = σ.str.head? then some ⟨pat,σ.str.tail,σ.star⟩
    else if p = 42 then
      if pat.head? = some 42 then
        let resume := if pat.tail.head? = some 47 then pat.tail.tail else pat.tail
        some ⟨resume,σ.str,some ⟨resume,σ.str,true⟩⟩
      else some ⟨pat,σ.str,some ⟨pat,σ.str,false⟩⟩
    else σ.backtrack

/-- The answer at the end of the string. -/
def ended (σ : GlobState) : Bool := (σ.pat.dropWhile (· = 42)).isEmpty

end GlobState

theorem globLoop_succ (fuel : Nat) (pat str : Str) (star : Option Star) :
    globLoop (fuel + 1) pat str star =
      if str = [] then GlobState.ended ⟨pat,str,star⟩
      else match GlobState.round ⟨pat,str,star⟩ with
        | none => false
        | some τ => globLoop fuel τ.pat τ.str τ.star := by
  cases str with
  | nil => rfl
  | cons c str =>
    rw [if_neg (List.cons_ne_nil c str)]
    cases pat with
    | nil =>
      cases star with
      | none => rfl
      | some star =>
        simp only [globLoop,GlobState.round,GlobState.backtrack]
        split <;> rfl
    | cons p pat =>
      simp only [globLoop,GlobState.round,List.head?_cons,List.tail_cons,Option.some.injEq]
      split
      · rfl
      · split
        · split <;> rfl
        · cases star with
          | none => rfl
          | some star =>
            simp only [GlobState.backtrack]
            split <;> rfl

namespace GlobState

/-- Lengths along a run: the pattern has at most `P` characters, the string at
most `S`, and a star was met no later than where the string is now. -/
structure Fits (P S : Nat) (σ : GlobState) : Prop where
  pattern : σ.pat.length ≤ P
  string : σ.str.length ≤ S
  ahead : ∀ star ∈ σ.star, σ.str.length ≤ star.text.length
  within : ∀ star ∈ σ.star, star.text.length ≤ S
  resumed : ∀ star ∈ σ.star, star.resume.length ≤ P

/-- Every backtrack moves the star by one, and between two the pattern shrinks. -/
def rounds (P S : Nat) (σ : GlobState) : Nat :=
  (match σ.star with
  | none => S + 1
  | some star => star.text.length) * (P + 1) + σ.pat.length

theorem Fits.backtrack {P S : Nat} {σ τ : GlobState} (fits : Fits P S σ) (taken : σ.str ≠ [])
    (turned : σ.backtrack = some τ) : Fits P S τ ∧ rounds P S τ < rounds P S σ := by
  obtain ⟨pat,str,star⟩ := σ
  cases star with
  | none => contradiction
  | some star =>
    obtain ⟨resume,text,double⟩ := star
    unfold GlobState.backtrack at turned
    simp only at turned
    split at turned
    · contradiction
    · cases turned
      have long := fits.ahead _ rfl
      have within := fits.within _ rfl
      have resumed := fits.resumed _ rfl
      simp only at long within resumed
      cases text with
      | nil => exact absurd (List.length_eq_zero_iff.mp (Nat.le_zero.mp long)) taken
      | cons c text =>
        rw [List.length_cons] at within
        refine ⟨⟨resumed,?_,?_,?_,?_⟩,?_⟩
        · exact Nat.le_of_succ_le within
        · rintro _ ⟨⟩
          exact le_rfl
        · rintro _ ⟨⟩
          exact Nat.le_of_succ_le within
        · rintro _ ⟨⟩
          exact resumed
        · simp only [rounds,List.tail_cons,List.length_cons,Nat.add_mul,Nat.one_mul]
          omega

theorem Fits.commit {P S : Nat} {σ : GlobState} (fits : Fits P S σ) (resume : Str) (double : Bool)
    (shorter : resume.length < σ.pat.length) :
    Fits P S ⟨resume,σ.str,some ⟨resume,σ.str,double⟩⟩ ∧
      rounds P S ⟨resume,σ.str,some ⟨resume,σ.str,double⟩⟩ < rounds P S σ := by
  have small : resume.length ≤ P := Nat.le_of_lt (Nat.lt_of_lt_of_le shorter fits.pattern)
  refine ⟨⟨small,fits.string,?_,?_,?_⟩,?_⟩
  · rintro _ ⟨⟩
    exact le_rfl
  · rintro _ ⟨⟩
    exact fits.string
  · rintro _ ⟨⟩
    exact small
  · have wide : σ.str.length ≤ (match σ.star with
        | none => S + 1
        | some star => star.text.length) := by
      split
      · exact Nat.le_succ_of_le fits.string
      · next star held => exact fits.ahead star held
    exact Nat.add_lt_add_of_le_of_lt (Nat.mul_le_mul_right _ wide) shorter

theorem Fits.literal {P S : Nat} {p : UInt8} {pat str : Str} {star : Option Star} (fits : Fits P S ⟨p::pat,str,star⟩) :
    Fits P S ⟨pat,str.tail,star⟩ ∧ rounds P S ⟨pat,str.tail,star⟩ < rounds P S ⟨p::pat,str,star⟩ := by
  have shorter : str.tail.length ≤ str.length := by
    rw [List.length_tail]
    exact Nat.sub_le _ _
  refine ⟨⟨Nat.le_of_succ_le fits.pattern,shorter.trans fits.string,?_,fits.within,fits.resumed⟩,?_⟩
  · exact fun s held => shorter.trans (fits.ahead s held)
  · exact Nat.add_lt_add_left (Nat.lt_succ_self _) _

theorem Fits.round {P S : Nat} {σ τ : GlobState} (fits : Fits P S σ) (taken : σ.str ≠ [])
    (turned : σ.round = some τ) : Fits P S τ ∧ rounds P S τ < rounds P S σ := by
  obtain ⟨pat,str,star⟩ := σ
  cases pat with
  | nil => exact fits.backtrack taken turned
  | cons p pat =>
    unfold GlobState.round at turned
    simp only at turned
    split at turned
    · cases turned
      exact fits.literal
    · split at turned
      · split at turned
        · cases turned
          apply fits.commit
          split
          · simp only [List.length_tail,List.length_cons]
            omega
          · simp only [List.length_tail,List.length_cons]
            omega
        · cases turned
          exact fits.commit pat false (Nat.lt_succ_self _)
      · exact fits.backtrack taken turned

/-- The answer of the loop, with as many rounds as it takes. -/
inductive Answers : GlobState → Bool → Prop
  | ended {σ : GlobState} (done : σ.str = []) : Answers σ σ.ended
  | stuck {σ : GlobState} (more : σ.str ≠ []) (turned : σ.round = none) : Answers σ false
  | goes {σ τ : GlobState} {answer : Bool} (more : σ.str ≠ []) (turned : σ.round = some τ) (later : Answers τ answer) :
    Answers σ answer

theorem Answers.globLoop {P S : Nat} {σ : GlobState} {answer : Bool} (answers : Answers σ answer) (fuel : Nat)
    (fits : Fits P S σ) (enough : rounds P S σ < fuel) : globLoop fuel σ.pat σ.str σ.star = answer := by
  induction answers generalizing fuel with
  | ended done =>
    cases fuel with
    | zero => contradiction
    | succ fuel => rw [globLoop_succ,if_pos done]
  | stuck more turned =>
    cases fuel with
    | zero => contradiction
    | succ fuel => rw [globLoop_succ,if_neg more,turned]
  | goes more turned later ih =>
    cases fuel with
    | zero => contradiction
    | succ fuel =>
      have step := fits.round more turned
      rw [globLoop_succ,if_neg more,turned]
      exact ih fuel step.1 (by omega)

/-- What the remembered star answers when the pattern cannot go on. -/
def Backs (star : Option Star) (answer : Bool) : Prop :=
  match backtrack ⟨[],[],star⟩ with
  | none => answer = false
  | some τ => Answers τ answer

theorem Answers.backtrack {σ : GlobState} {answer : Bool} (more : σ.str ≠ []) (turned : σ.round = σ.backtrack)
    (backs : Backs σ.star answer) : Answers σ answer := by
  have same : σ.backtrack = GlobState.backtrack ⟨[],[],σ.star⟩ := rfl
  unfold Backs at backs
  rw [same] at turned
  split at backs
  · next none_left =>
    rw [none_left] at turned
    exact backs ▸ .stuck more turned
  · next τ next_one =>
    rw [next_one] at turned
    exact .goes more turned backs

/-! ### Blocks under the remembered star -/

theorem Answers.reads {block pat whole s rest : Str} {star : Option Star} {answer : Bool} (joined : block ++ pat = whole)
    (at_head : behind block s = some rest) (later : Answers ⟨pat,rest,star⟩ answer) : Answers ⟨whole,s,star⟩ answer := by
  subst joined
  induction block generalizing s with
  | nil =>
    cases at_head
    exact later
  | cons p block ih =>
    cases s with
    | nil => contradiction
    | cons c s =>
      rw [behind] at at_head
      split at at_head
      · next same =>
        refine .goes (List.cons_ne_nil c s) ?_ (ih at_head)
        exact if_pos (by simpa using same)
      · contradiction

/-- A block that does not stand is left for the remembered star, or is cut short by
the end of the string. -/
theorem Answers.fails {block pat whole s : Str} {star : Option Star} {answer : Bool} (joined : block ++ pat = whole)
    (unstarred : 42 ∉ block) (never : behind block s = none) (short : s.length < block.length → answer = false)
    (backs : Backs star answer) : Answers ⟨whole,s,star⟩ answer := by
  subst joined
  induction block generalizing s with
  | nil => contradiction
  | cons p block ih =>
    rw [List.mem_cons,not_or] at unstarred
    cases s with
    | nil =>
      have dead : GlobState.ended ⟨p::block ++ pat,[],star⟩ = false := by simp [GlobState.ended,Ne.symm unstarred.1]
      rw [short (Nat.succ_pos _),← dead]
      exact .ended rfl
    | cons c s =>
      rw [behind] at never
      by_cases same : p = 63 ∨ p = c
      · rw [if_pos same] at never
        refine .goes (List.cons_ne_nil c s) ?_ (ih unstarred.2 never fun less => short (Nat.succ_lt_succ less))
        exact if_pos (by simpa using same)
      · have differs := not_or.mp same
        refine .backtrack (List.cons_ne_nil c s) ?_ backs
        simp [GlobState.round,differs.1,differs.2,Ne.symm unstarred.1]

end GlobState

theorem parts_block (pat : Str) :
    42 ∉ (parts pat).1 ∧ ∃ tail, (parts pat).1 ++ tail = pat ∧ parts tail = ([],(parts pat).2) := by
  fun_induction parts pat with
  | case1 => exact ⟨List.not_mem_nil,[],rfl,rfl⟩
  | case2 pat ih => exact ⟨List.not_mem_nil,_,rfl,by rw [parts]⟩
  | case3 pat other ih => exact ⟨List.not_mem_nil,_,rfl,by rw [parts]; exact other⟩
  | case4 pat other double ih => exact ⟨List.not_mem_nil,_,rfl,by rw [parts] <;> assumption⟩
  | case5 c pat other double unstarred ih =>
    obtain ⟨free,tail,joined,cut⟩ := ih
    refine ⟨?_,tail,congrArg (c::·) joined,cut⟩
    rw [List.mem_cons,not_or]
    exact ⟨Ne.symm unstarred,free⟩

theorem parts_none {pat : Str} (cut : parts pat = ([],[])) : pat = [] := by
  fun_cases parts pat with
  | case1 => rfl
  | case2 | case3 | case4 | case5 => simp_all [parts]

theorem parts_star {pat block : Str} {t : Token} {ps : List (Token × Str)} (cut : parts pat = ([],(t,block)::ps)) :
    ∃ resume, parts resume = (block,ps) ∧ ∀ (s : Str) (star : Option Star), s ≠ [] → s.head? ≠ some 42 →
      GlobState.round ⟨pat,s,star⟩ = some ⟨resume,s,some ⟨resume,s,t ≠ .star⟩⟩ := by
  unfold parts at cut
  split at cut
  · simp at cut
  · next pat =>
    cases cut
    refine ⟨pat,rfl,fun s star more unstarred => ?_⟩
    simp [GlobState.round,Ne.symm unstarred]
  · next pat other =>
    cases cut
    refine ⟨pat,rfl,fun s star more unstarred => ?_⟩
    have plain : pat.head? ≠ some 47 := by
      intro slash
      obtain ⟨rest,rfl⟩ := List.head?_eq_some_iff.mp slash
      exact other rest rfl
    simp [GlobState.round,Ne.symm unstarred,plain]
  · next pat other double =>
    cases cut
    refine ⟨pat,rfl,fun s star more unstarred => ?_⟩
    have plain : pat.head? ≠ some 42 := by
      intro starred
      obtain ⟨rest,rfl⟩ := List.head?_eq_some_iff.mp starred
      exact double rest rfl
    simp [GlobState.round,Ne.symm unstarred,plain]
  · simp at cut

theorem ended_iff (pat s : Str) (star : Option Star) :
    GlobState.ended ⟨pat,s,star⟩ = true ↔ (parts pat).1 = [] ∧ ∀ part ∈ (parts pat).2, part.2 = [] ∧ part.1 ≠ .segments := by
  unfold GlobState.ended
  simp only
  fun_induction parts pat with
  | case1 => simp
  | case2 pat ih => simp
  | case3 pat other ih => simpa using ih
  | case4 pat other double ih => simpa using ih
  | case5 c pat other double unstarred ih =>
    have differs : c ≠ 42 := unstarred
    simp [differs]

/-! ### The matcher finds the first places -/

/-- What `reach` answers once a star's block has been looked for. -/
def beyond (t : Token) (ps : List (Token × Str)) : Option (Str × Str) → Bool
  | none => false
  | some (skipped,rest) => if t = .star ∧ 47 ∈ skipped then false else reach ps rest

theorem reach_cons {t : Token} {block s : Str} {ps : List (Token × Str)} (more : s ≠ []) :
    reach ((t,block)::ps) s = beyond t ps (place block ps.isEmpty s) := by
  rw [reach,if_neg more]
  cases place block ps.isEmpty s <;> rfl

theorem beyond_short {t : Token} {block s : Str} {ps : List (Token × Str)} (short : s.length < block.length) :
    beyond t ps (place block ps.isEmpty s) = false := by
  cases found : place block ps.isEmpty s with
  | none => rfl
  | some spot =>
    obtain ⟨y,joined,here⟩ := place_some found
    obtain ⟨head,split,long,_⟩ := behind_some (stands_some here).1
    have lengths := congrArg List.length joined
    have inner := congrArg List.length split
    rw [List.length_append] at lengths inner
    omega

theorem beyond_later {t : Token} {c : UInt8} {ps : List (Token × Str)} (found : Option (Str × Str)) :
    beyond t ps (found.map fun (skipped,rest) => (c::skipped,rest)) =
      if t = .star ∧ c = 47 then false else beyond t ps found := by
  cases found with
  | none => simp [beyond]
  | some spot =>
    simp only [Option.map_some,beyond,List.mem_cons]
    by_cases single : t = .star <;> by_cases slash : c = 47 <;> simp [single,slash,Ne.symm]

open GlobState

/-- A star that is asked to move stops at a separator or takes the character. -/
theorem backs_moved {resume text : Str} {c : UInt8} {t : Token} {ps : List (Token × Str)} {found : Option (Str × Str)}
    (later : ¬(t = .star ∧ c = 47) → Answers ⟨resume,text,some ⟨resume,text,t ≠ .star⟩⟩ (beyond t ps found)) :
    Backs (some ⟨resume,c::text,t ≠ .star⟩) (beyond t ps (found.map fun (skipped,rest) => (c::skipped,rest))) := by
  rw [beyond_later]
  by_cases stops : t = .star ∧ c = 47
  · simp only [Backs,GlobState.backtrack,stops]
    rfl
  · have goes : GlobState.backtrack ⟨[],[],some ⟨resume,c::text,t ≠ .star⟩⟩ =
        some ⟨resume,text,some ⟨resume,text,t ≠ .star⟩⟩ := by
      simpa [GlobState.backtrack] using stops
    rw [Backs,goes,if_neg stops]
    exact later stops

/-- A star met at `text` moves on to the first place of its block. -/
theorem answers_star {resume block : Str} {ps : List (Token × Str)} (cut : parts resume = (block,ps)) (t : Token)
    (text : Str) (next : ∀ tail skipped rest, parts tail = ([],ps) → place block ps.isEmpty text = some (skipped,rest) →
      ¬(t = .star ∧ 47 ∈ skipped) → ∀ star, Answers ⟨tail,rest,star⟩ (reach ps rest)) :
    Answers ⟨resume,text,some ⟨resume,text,t ≠ .star⟩⟩ (beyond t ps (place block ps.isEmpty text)) := by
  obtain ⟨unstarred,tail,joined,cut_tail⟩ := parts_block resume
  rw [cut] at unstarred joined cut_tail
  simp only at unstarred joined cut_tail
  have first : ∀ {s rest : Str}, stands block ps.isEmpty s = some rest → place block ps.isEmpty s = some ([],rest) →
      (∀ star, Answers ⟨tail,rest,star⟩ (reach ps rest)) →
      ∀ star, Answers ⟨resume,s,star⟩ (beyond t ps (place block ps.isEmpty s)) := by
    intro s rest found spot later star
    have answer : beyond t ps (some ([],rest)) = reach ps rest := by simp [beyond]
    rw [spot,answer]
    exact (later star).reads joined (stands_some found).1
  induction text with
  | nil =>
    cases found : stands block ps.isEmpty [] with
    | some rest =>
      have spot : place block ps.isEmpty [] = some ([],rest) := by rw [place,found]; rfl
      exact first found spot (next tail [] rest cut_tail spot (by simp)) _
    | none =>
      have long : block ≠ [] := by
        rintro rfl
        rw [stands_of rfl fun _ => rfl] at found
        contradiction
      have dead : GlobState.ended ⟨resume,[],some ⟨resume,[],t ≠ .star⟩⟩ = false := by
        rw [← Bool.not_eq_true,ended_iff,cut]
        exact fun empty => long empty.1
      have short : ([] : Str).length < block.length := List.length_pos_iff.mpr long
      rw [beyond_short short,← dead]
      exact .ended rfl
  | cons c text ih =>
    have more := List.cons_ne_nil c text
    cases found : stands block ps.isEmpty (c::text) with
    | some rest =>
      have spot : place block ps.isEmpty (c::text) = some ([],rest) := by rw [place,found]
      exact first found spot (next tail [] rest cut_tail spot (by simp)) _
    | none =>
      have moves : place block ps.isEmpty (c::text) =
          (place block ps.isEmpty text).map fun (skipped,rest) => (c::skipped,rest) := by rw [place,found]
      have backs : Backs (some ⟨resume,c::text,t ≠ .star⟩) (beyond t ps (place block ps.isEmpty (c::text))) := by
        rw [moves]
        refine backs_moved fun passes => ih ?_
        intro tail skipped rest cut_tail spot within
        apply next tail (c::skipped) rest cut_tail
        · rw [moves,spot]
          rfl
        · rintro ⟨single,stop⟩
          rcases List.mem_cons.mp stop with slash | stop
          · exact passes ⟨single,slash.symm⟩
          · exact within ⟨single,stop⟩
      cases at_head : behind block (c::text) with
      | none => exact .fails joined unstarred at_head beyond_short backs
      | some rest =>
        -- Only the last block can stand here and not have its place: the string goes on.
        have goes_on : ps.isEmpty = true ∧ rest ≠ [] := by
          by_contra placed
          rw [not_and,not_not] at placed
          rw [stands_of at_head placed] at found
          contradiction
        obtain rfl := List.isEmpty_iff.mp goes_on.1
        obtain rfl := parts_none cut_tail
        have later : Answers ⟨[],rest,some ⟨resume,c::text,t ≠ .star⟩⟩ _ := .backtrack goes_on.2 rfl backs
        exact later.reads joined at_head

/-- From a star on, the matcher answers whether the first places reach the end. -/
theorem answers_reach {pat s : Str} {past : List Met} {ps : List (Token × Str)} (cut : parts pat = ([],ps))
    (free : Along past ps s) (star : Option Star) (ends : ps = [] → s = [] ∨ star = none) :
    Answers ⟨pat,s,star⟩ (reach ps s) := by
  induction ps generalizing pat s past star with
  | nil =>
    obtain rfl := parts_none cut
    by_cases done : s = []
    · subst done
      exact .ended rfl
    · obtain rfl := (ends rfl).resolve_left done
      have answer : reach [] s = false := by simpa [reach] using done
      rw [answer]
      exact .stuck done rfl
  | cons part ps ih =>
    obtain ⟨t,block⟩ := part
    rw [Along] at free
    by_cases done : s = []
    · have answer : GlobState.ended ⟨pat,s,star⟩ = reach ((t,block)::ps) s := by
        rw [Bool.eq_iff_iff,ended_iff,cut,reach,if_pos done]
        simp
      rw [← answer]
      exact .ended done
    · rw [if_neg done] at free
      obtain ⟨unstarred,free⟩ := free
      obtain ⟨resume,cut_resume,meets⟩ := parts_star cut
      refine .goes done (meets s star done unstarred) ?_
      rw [reach_cons done]
      apply answers_star cut_resume
      intro tail skipped rest cut_tail found within star
      simp only [found] at free
      have taken : skipped ∈ t.language := by
        by_contra never
        rw [if_neg never] at free
        obtain ⟨rfl,_⟩ := free
        exact within ⟨rfl,not_not.mp never⟩
      rw [if_pos taken] at free
      apply ih cut_tail free
      rintro rfl
      obtain ⟨y,_,here⟩ := place_some found
      exact Or.inl ((stands_some here).2 rfl)

theorem globMatch_answers {pat str : Str} {answer : Bool} (answers : Answers ⟨pat,str,none⟩ answer) :
    globMatch pat str = answer := by
  have fits : Fits pat.length str.length ⟨pat,str,none⟩ := ⟨le_rfl,le_rfl,by simp,by simp,by simp⟩
  apply answers.globLoop _ fits
  simp only [GlobState.rounds]
  nlinarith

/-- Where nothing hinders them, the first places are what the matcher finds. -/
theorem globMatch_reach {pat str : Str} (free : Unhindered pat str) :
    globMatch pat str = true ↔ ∃ s, behind (parts pat).1 str = some s ∧ reach (parts pat).2 s = true := by
  obtain ⟨unstarred,tail,joined,cut⟩ := parts_block pat
  unfold Unhindered at free
  cases at_head : behind (parts pat).1 str with
  | none =>
    have answers : Answers ⟨pat,str,none⟩ false := .fails joined unstarred at_head (fun _ => rfl) rfl
    simp [globMatch_answers answers]
  | some s =>
    simp only [at_head] at free
    have answers : Answers ⟨pat,str,none⟩ (reach (parts pat).2 s) :=
      .reads joined at_head (answers_reach cut free none fun _ => Or.inr rfl)
    simp [globMatch_answers answers]

/-- The matcher finds the language where nothing hinders the first places of the
pattern's blocks. -/
theorem globMatch_iff_language (pat str : Str) (free : Unhindered pat str) : globMatch pat str = true ↔ str ∈ language pat := by
  rw [globMatch_reach free,mem_language]
  unfold Unhindered at free
  cases at_head : behind (parts pat).1 str with
  | none => simp
  | some s =>
    simp only [at_head] at free
    simp [reach_iff_parted free (parts_wild pat)]

/-- A double star before a separator, and a single star in the segment it leads to. -/
theorem nested_name_found : globMatch (lit "**/b*.tmp") (lit "a/b1.tmp") = true ↔ lit "a/b1.tmp" ∈ language (lit "**/b*.tmp") :=
  globMatch_iff_language _ _ (by decide)

/-- The matcher forgets the double star at the single one, which stops at the separator. -/
theorem nested_file_missed :
    ¬(globMatch (lit "**/*.tmp") (lit "a/b.tmp") = true ↔ lit "a/b.tmp" ∈ language (lit "**/*.tmp")) := by
  decide

/-! The other hindrances lose the language as well: a double star resumed inside a
segment, one left when the string ends, and a star of the string. -/

example : globMatch (lit "**/a") (lit "ba") = true ∧ lit "ba" ∉ language (lit "**/a") := by decide

example : globMatch (lit "**/") [] = false ∧ [] ∈ language (lit "**/") := by decide

example : globMatch (lit "*") (lit "*a") = false ∧ lit "*a" ∈ language (lit "*") := by decide

end NPSync.IgnoreRules
