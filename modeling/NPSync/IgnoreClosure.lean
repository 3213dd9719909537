import Mathlib.Data.List.Forall2
import NPSync.IgnoreRules

/-! What a rule that matches a directory does to the paths below it. -/
namespace NPSync.IgnoreRules
open PathUtil (lower)

/-- The path as `ignored` hands it to the rules. -/
def compared (relPath : Str) : Str := (lower relPath).map (fun c => if c = 92 then 47 else c)

theorem compared_below (d x : Str) : compared (d ++ 47::x) = compared d ++ 47::compared x := by
  have slash : asciiLower 47 = 47 := by decide
  unfold compared lower
  rw [List.map_append,List.map_append,List.map_cons,List.map_cons,slash]
  rfl

/-! ### The prefixes that are tried -/

theorem mem_candidates (relPath cand : Str) :
    cand ∈ candidates relPath ↔ cand = relPath ∨ ∃ rest, relPath = cand ++ 47::rest := by
  unfold candidates
  rw [List.mem_cons]
  refine or_congr_right ⟨?_,?_⟩
  · intro member
    obtain ⟨pos,cut,rfl⟩ := List.mem_map.mp member
    have found := of_decide_eq_true (List.mem_filter.mp cut).2
    obtain ⟨inside,slash⟩ := List.getElem?_eq_some_iff.mp found
    refine ⟨relPath.drop (pos + 1),?_⟩
    rw [← slash,← List.drop_eq_getElem_cons inside,List.take_append_drop]
  · rintro ⟨rest,rfl⟩
    apply List.mem_map.mpr
    refine ⟨cand.length,List.mem_filter.mpr ⟨List.mem_range.mpr ?_,?_⟩,?_⟩
    · rw [List.length_append,List.length_cons]
      omega
    · simp
    · exact List.take_left

/-- What is tried for a directory is tried for every path below it, as a directory. -/
theorem candidates_below {d cand : Str} (x : Str) (tried : cand ∈ candidates d) :
    cand ∈ candidates (d ++ 47::x) ∧ cand ≠ d ++ 47::x := by
  rcases (mem_candidates d cand).mp tried with rfl | ⟨rest,rfl⟩
  · refine ⟨(mem_candidates _ _).mpr (.inr ⟨x,rfl⟩),?_⟩
    intro same
    have lengths := congrArg List.length same
    simp at lengths
  · refine ⟨(mem_candidates _ _).mpr (.inr ⟨rest ++ 47::x,by simp⟩),?_⟩
    intro same
    have lengths := congrArg List.length same
    simp at lengths

theorem matchRule_below (r : IgnoreRule) (d x : Str) (isDir : Bool) (matched : matchRule r d true = true) :
    matchRule r (d ++ 47::x) isDir = true := by
  obtain ⟨cand,tried,hit⟩ := List.any_eq_true.mp matched
  have below := candidates_below x tried
  apply List.any_eq_true.mpr
  refine ⟨cand,below.1,?_⟩
  have directory : (decide (cand ≠ d ++ 47::x) || isDir) = true := by simp [below.2]
  rw [directory]
  simpa using hit

/-! ### The last rule decides -/

/-- Without negated rules a path is ignored when some rule matches it. -/
theorem ignored_iff (rules : IgnoreRules) (plain : ∀ r ∈ rules.rules, r.negate = false) (relPath : Str) (isDir : Bool) :
    rules.ignored relPath isDir = true ↔ ∃ r ∈ rules.rules, matchRule r (compared relPath) isDir = true := by
  have folded : ∀ (list : List IgnoreRule) (result : Bool), (∀ r ∈ list, r.negate = false) →
      (list.foldl (fun result r => if matchRule r (compared relPath) isDir then !r.negate else result) result = true ↔
        result = true ∨ ∃ r ∈ list, matchRule r (compared relPath) isDir = true) := by
    intro list
    induction list with
    | nil =>
      intro result _
      simp
    | cons r rest ih =>
      intro result plain
      rw [List.foldl_cons,ih _ fun other member => plain other (List.mem_cons_of_mem _ member),plain r List.mem_cons_self]
      cases matched : matchRule r (compared relPath) isDir with
      | true => simp [matched]
      | false => simp [matched]
  show (rules.rules.foldl (fun result r => if matchRule r (compared relPath) isDir then !r.negate else result) false) = true ↔ _
  rw [folded rules.rules false plain]
  exact or_iff_right Bool.false_ne_true

/-! ### Letter case and separators -/

/-- Equal up to the case of a letter, or both a separator. -/
def SameByte (a b : UInt8) : Prop := asciiLower a = asciiLower b ∨ (a = 47 ∨ a = 92) ∧ (b = 47 ∨ b = 92)

instance : DecidableRel SameByte := fun _ _ => inferInstanceAs (Decidable (_ ∨ _))

def SamePath (p q : Str) : Prop := List.Forall₂ SameByte p q

theorem compared_eq {p q : Str} (same : SamePath p q) : compared p = compared q := by
  induction same with
  | nil => rfl
  | @cons a b p q one _ ih =>
    have byte : (if asciiLower a = 92 then (47 : UInt8) else asciiLower a) = if asciiLower b = 92 then 47 else asciiLower b := by
      rcases one with lowered | ⟨first,second⟩
      · rw [lowered]
      · rcases first with rfl | rfl <;> rcases second with rfl | rfl <;> decide
    exact congrArg₂ List.cons byte ih

/-- Ignoring a directory ignores all below it, in whatever case and with whatever
separators a path is written. -/
theorem ignored_directory (rules : IgnoreRules) :
    (∀ d x, (∀ r ∈ rules.rules, r.negate = false) → rules.ignored d true = true →
      rules.ignored (d ++ 47::x) false = true ∧ rules.ignored (d ++ 47::x) true = true) ∧
    ∀ p q isDir, SamePath p q → rules.ignored p isDir = rules.ignored q isDir := by
  constructor
  · intro d x plain ignored
    obtain ⟨r,member,matched⟩ := (ignored_iff rules plain d true).mp ignored
    have below : ∀ isDir, rules.ignored (d ++ 47::x) isDir = true := by
      intro isDir
      apply (ignored_iff rules plain _ isDir).mpr
      refine ⟨r,member,?_⟩
      rw [compared_below]
      exact matchRule_below r (compared d) (compared x) isDir matched
    exact ⟨below false,below true⟩
  · intro p q isDir same
    show (rules.rules.foldl (fun result r => if matchRule r (compared p) isDir then !r.negate else result) false) =
      rules.rules.foldl (fun result r => if matchRule r (compared q) isDir then !r.negate else result) false
    rw [compared_eq same]

def modules : IgnoreRules := parse (lit "node_modules/\n/build/output\n*.log")

theorem modules_ignored : modules.ignored (lit "src/node_modules/pkg/index.js") false = true ∧
    modules.ignored (lit "SRC\\Node_Modules") true = modules.ignored (lit "src/node_modules") true := by
  have plain : ∀ r ∈ modules.rules, r.negate = false := by decide
  refine ⟨((ignored_directory modules).1 (lit "src/node_modules") (lit "pkg/index.js") plain (by decide)).1,?_⟩
  apply (ignored_directory modules).2
  show List.Forall₂ SameByte _ _
  decide

end NPSync.IgnoreRules
