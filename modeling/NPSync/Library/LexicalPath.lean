import Mathlib.Data.List.Infix

/-! Paths cleaned by their text alone: empty elements and single dots go, two dots
take back the element before them. -/
namespace NPSync.Library.LexicalPath

section
variable {C : Type} [DecidableEq C] (slash dot : C)

/-- One element after those on the stack. -/
def push (rooted : Bool) (stack : List (List C)) (element : List C) : List (List C) :=
  if element = [] ∨ element = [dot] then stack
  else if element = [dot,dot] then
    if stack = [] then if rooted then [] else [element]
    else if stack.getLast? = some element then stack ++ [element]
    else stack.dropLast
  else stack ++ [element]

def rooted (path : List C) : Bool := path.head? = some slash

def elements (path : List C) : List (List C) := (path.splitOn slash).foldl (push dot (rooted slash path)) []

def render (rooted : Bool) (stack : List (List C)) : List C :=
  if rooted then slash::[slash].intercalate stack
  else if stack = [] then [dot] else [slash].intercalate stack

def clean (path : List C) : List C := render slash dot (rooted slash path) (elements slash dot path)

/-- An element that goes down one level. -/
structure Name (element : List C) : Prop where
  filled : element ≠ []
  apart : element ≠ [dot]
  down : element ≠ [dot,dot]
  whole : slash ∉ element

/-- What stands on a stack: names, and two dots. -/
structure Stacked (element : List C) : Prop where
  filled : element ≠ []
  apart : element ≠ [dot]
  whole : slash ∉ element

variable {slash dot}

omit [DecidableEq C] in
theorem Stacked.name {element : List C} (stacked : Stacked slash dot element) (down : element ≠ [dot,dot]) :
    Name slash dot element :=
  ⟨stacked.filled,stacked.apart,down,stacked.whole⟩

omit [DecidableEq C] in
theorem Name.stacked {element : List C} (name : Name slash dot element) : Stacked slash dot element :=
  ⟨name.filled,name.apart,name.whole⟩

theorem push_name {element : List C} (name : Name slash dot element) (under : Bool) (stack : List (List C)) :
    push dot under stack element = stack ++ [element] := by
  rw [push,if_neg (not_or.mpr ⟨name.filled,name.apart⟩),if_neg name.down]

theorem push_names {names : List (List C)} (all : ∀ name ∈ names, Name slash dot name) (under : Bool) (stack : List (List C)) :
    names.foldl (push dot under) stack = stack ++ names := by
  induction names generalizing stack with
  | nil => simp
  | cons first rest ih =>
    rw [List.foldl_cons,push_name (all first List.mem_cons_self),ih fun name member => all name (List.mem_cons_of_mem _ member)]
    simp

/-- The stack takes only what was pushed. -/
theorem mem_push {under : Bool} {stack : List (List C)} {pushed element : List C} (member : element ∈ push dot under stack pushed) :
    element ∈ stack ∨ (element = pushed ∧ pushed ≠ [] ∧ pushed ≠ [dot] ∧ (under = true → stack = [] → pushed ≠ [dot,dot])) := by
  unfold push at member
  split at member
  · exact .inl member
  rename_i solid
  obtain ⟨filled,apart⟩ := not_or.mp solid
  split at member
  · rename_i up
    split at member
    · rename_i bottom
      split at member
      · contradiction
      · rename_i free
        exact .inr ⟨List.mem_singleton.mp member,filled,apart,fun under => absurd under free⟩
    · rename_i deep
      split at member
      · rcases List.mem_append.mp member with old | new
        · exact .inl old
        · exact .inr ⟨List.mem_singleton.mp new,filled,apart,fun _ empty => absurd empty deep⟩
      · exact .inl (List.mem_of_mem_dropLast member)
  · rename_i down
    rcases List.mem_append.mp member with old | new
    · exact .inl old
    · exact .inr ⟨List.mem_singleton.mp new,filled,apart,fun _ _ => down⟩

theorem not_mem_split {path element : List C} (member : element ∈ path.splitOn slash) : slash ∉ element := by
  induction path generalizing element with
  | nil =>
    rw [List.splitOn_nil] at member
    rw [List.mem_singleton.mp member]
    exact List.not_mem_nil
  | cons first rest ih =>
    rw [List.splitOn_cons_eq_if_modifyHead] at member
    split at member
    · rcases List.mem_cons.mp member with here | later
      · rw [here]
        exact List.not_mem_nil
      · exact ih later
    · rename_i other
      cases cut : rest.splitOn slash with
      | nil => exact absurd cut (List.splitOn_ne_nil _ _)
      | cons head tail =>
        rw [cut,List.modifyHead_cons] at member
        rw [cut] at ih
        rcases List.mem_cons.mp member with here | later
        · rw [here]
          intro inside
          rcases List.mem_cons.mp inside with same | deeper
          · exact other (by rw [same]; exact BEq.refl _)
          · exact ih List.mem_cons_self deeper
        · exact ih (List.mem_cons_of_mem _ later)

theorem stacked_push (under : Bool) {pushed : List (List C)} (whole : ∀ element ∈ pushed, slash ∉ element) (stack : List (List C))
    (before : ∀ element ∈ stack, Stacked slash dot element) :
    ∀ element ∈ pushed.foldl (push dot under) stack, Stacked slash dot element := by
  induction pushed generalizing stack with
  | nil => exact before
  | cons first rest ih =>
    refine ih (fun element member => whole element (List.mem_cons_of_mem _ member)) _ fun element member => ?_
    rcases mem_push member with old | ⟨rfl,filled,apart,-⟩
    · exact before element old
    · exact ⟨filled,apart,whole _ List.mem_cons_self⟩

theorem elements_stacked (path : List C) : ∀ element ∈ elements slash dot path, Stacked slash dot element :=
  stacked_push _ (fun _ member => not_mem_split member) [] fun _ member => absurd member List.not_mem_nil

/-! ### Rendered stacks -/

theorem render_split {stack : List (List C)} (whole : ∀ element ∈ stack, slash ∉ element) (filled : stack ≠ []) :
    (render slash dot false stack).splitOn slash = stack ∧ (render slash dot true stack).splitOn slash = []::stack := by
  have parts := List.splitOn_intercalate slash whole filled
  constructor
  · rw [render,if_neg Bool.false_ne_true,if_neg filled]
    exact parts
  · have front := List.splitOn_append_cons_self (a := slash) [] ([slash].intercalate stack)
    rw [List.nil_append,List.splitOn_nil,parts] at front
    rw [render,if_pos rfl]
    exact front

omit [DecidableEq C] in
theorem infix_joined {names : List (List C)} {name : List C} (member : name ∈ names) : name <:+: [slash].intercalate names := by
  induction names with
  | nil => contradiction
  | cons first rest ih =>
    cases rest with
    | nil =>
      rw [List.intercalate_singleton,List.mem_singleton.mp member]
    | cons second rest =>
      rw [List.intercalate_cons_cons,List.append_assoc]
      rcases List.mem_cons.mp member with rfl | later
      · exact (List.prefix_append _ _).isInfix
      · exact (ih later).trans ((List.suffix_append _ _).trans (List.suffix_append _ _)).isInfix

omit [DecidableEq C] in
theorem intercalate_append {stack more : List (List C)} (filled : more ≠ []) (deep : stack ≠ []) :
    [slash].intercalate (stack ++ more) = [slash].intercalate stack ++ slash::[slash].intercalate more := by
  induction stack with
  | nil => exact absurd rfl deep
  | cons first rest ih =>
    cases rest with
    | nil =>
      rw [List.singleton_append,List.intercalate_cons_of_ne_nil filled,List.intercalate_singleton,List.append_assoc]
      rfl
    | cons second rest =>
      rw [List.cons_append,List.intercalate_cons_of_ne_nil (by simp),ih (by simp),List.intercalate_cons_cons]
      simp

omit [DecidableEq C] in
theorem render_append (under : Bool) {stack more : List (List C)} (filled : more ≠ []) (deep : stack ≠ []) :
    render slash dot under (stack ++ more) = render slash dot under stack ++ slash::[slash].intercalate more := by
  have joined : [slash].intercalate (stack ++ more) = [slash].intercalate stack ++ slash::[slash].intercalate more :=
    intercalate_append filled deep
  cases under with
  | false =>
    rw [render,if_neg Bool.false_ne_true,if_neg (by simp [deep]),joined,render,if_neg Bool.false_ne_true,if_neg deep]
  | true =>
    rw [render,if_pos rfl,joined,render,if_pos rfl]
    rfl

theorem joined_unrooted {stack : List (List C)} (stacked : ∀ element ∈ stack, Stacked slash dot element) :
    rooted slash ([slash].intercalate stack) = false := by
  cases stack with
  | nil => simp [rooted]
  | cons first rest =>
    have solid := stacked first List.mem_cons_self
    cases first with
    | nil => exact absurd rfl solid.filled
    | cons c first =>
      have different : c ≠ slash := fun same => solid.whole (by rw [same]; exact List.mem_cons_self)
      cases rest with
      | nil => simpa [rooted] using different
      | cons second rest => simpa [rooted,List.intercalate_cons_cons] using different

theorem clean_rooted (path : List C) (other : slash ≠ dot) : rooted slash (clean slash dot path) = rooted slash path := by
  unfold clean render
  split
  · rename_i root
    rw [root]
    simp [rooted]
  · rename_i free
    rw [Bool.eq_false_iff.mpr free]
    split
    · simpa [rooted] using other.symm
    · exact joined_unrooted (elements_stacked path)

/-- A path below a base goes down from where the base leads. -/
theorem clean_below {base : List C} {names : List (List C)} (based : base ≠ []) (filled : names ≠ [])
    (all : ∀ name ∈ names, Name slash dot name) :
    clean slash dot (base ++ slash::[slash].intercalate names) =
      render slash dot (rooted slash base) (elements slash dot base ++ names) := by
  have root : rooted slash (base ++ slash::[slash].intercalate names) = rooted slash base := by
    cases base with
    | nil => exact absurd rfl based
    | cons first rest => rfl
  have parts : elements slash dot (base ++ slash::[slash].intercalate names) = elements slash dot base ++ names := by
    rw [elements,root,List.splitOn_append_cons_self,List.splitOn_intercalate slash (fun name member => (all name member).whole) filled,
      List.foldl_append,push_names all]
    rfl
  rw [clean,root,parts]

/-- Names are clean. -/
theorem clean_names {names : List (List C)} (filled : names ≠ []) (all : ∀ name ∈ names, Name slash dot name) :
    clean slash dot ([slash].intercalate names) = [slash].intercalate names := by
  have split := List.splitOn_intercalate slash (fun name member => (all name member).whole) filled
  have free : rooted slash ([slash].intercalate names) = false := joined_unrooted fun name member => (all name member).stacked
  rw [clean,elements,free,split,push_names all,List.nil_append,render,if_neg Bool.false_ne_true,if_neg filled]

/-- A path comes to a single dot exactly when it has no root and leads nowhere. -/
theorem clean_here_iff (path : List C) (other : slash ≠ dot) :
    clean slash dot path = [dot] ↔ rooted slash path = false ∧ elements slash dot path = [] := by
  have stacked : ∀ element ∈ elements slash dot path, Stacked slash dot element := elements_stacked path
  constructor
  · intro here
    have root : rooted slash path = false := by
      rw [← (clean_rooted path other : rooted slash (clean slash dot path) = _),here]
      simpa [rooted] using other.symm
    refine ⟨root,?_⟩
    by_contra filled
    have parts : (render slash dot false (elements slash dot path)).splitOn slash = elements slash dot path :=
      (render_split (fun element member => (stacked element member).whole) filled).1
    rw [clean,root] at here
    rw [here] at parts
    have single : ([dot] : List C).splitOn slash = [[dot]] :=
      List.splitOn_eq_singleton (by simpa using other)
    rw [single] at parts
    rw [← parts] at stacked
    exact (stacked [dot] List.mem_cons_self).apart rfl
  · rintro ⟨root,empty⟩
    rw [clean,root,empty]
    rfl

theorem clean_root_iff (path : List C) (other : slash ≠ dot) :
    clean slash dot path = [slash] ↔ rooted slash path = true ∧ elements slash dot path = [] := by
  have stacked : ∀ element ∈ elements slash dot path, Stacked slash dot element := elements_stacked path
  constructor
  · intro top
    have root : rooted slash path = true := by
      rw [← (clean_rooted path other : rooted slash (clean slash dot path) = _),top]
      simp [rooted]
    refine ⟨root,?_⟩
    by_contra filled
    have parts : (render slash dot true (elements slash dot path)).splitOn slash = []::elements slash dot path :=
      (render_split (fun element member => (stacked element member).whole) filled).2
    rw [clean,root] at top
    rw [top] at parts
    have double := List.splitOn_append_cons_self (a := slash) [] []
    rw [List.nil_append,List.splitOn_nil] at double
    rw [double] at parts
    have tail := (List.cons.inj parts).2
    rw [← tail] at stacked
    exact (stacked [] List.mem_cons_self).filled rfl
  · rintro ⟨root,empty⟩
    rw [clean,root,empty]
    rfl

/-- The cleaned path splits into the elements, after an empty one for a root. -/
theorem clean_split {path : List C} (filled : elements slash dot path ≠ []) :
    (clean slash dot path).splitOn slash =
      (if rooted slash path then [[]] else []) ++ elements slash dot path := by
  have whole : ∀ element ∈ elements slash dot path, slash ∉ element := fun element member => (elements_stacked path element member).whole
  have parts : (render slash dot false (elements slash dot path)).splitOn slash = elements slash dot path ∧
      (render slash dot true (elements slash dot path)).splitOn slash = []::elements slash dot path := render_split whole filled
  cases root : rooted slash path with
  | false =>
    rw [clean,root]
    exact parts.1
  | true =>
    rw [clean,root]
    exact parts.2

/-! ### Cleaning again -/

/-- Every front of the stack comes out of its own elements. -/
def Settled (dot : C) (under : Bool) (stack : List (List C)) : Prop :=
  ∀ front back, stack = front ++ back → front.foldl (push dot under) [] = front

theorem Settled.whole {under : Bool} {stack : List (List C)} (settled : Settled dot under stack) :
    stack.foldl (push dot under) [] = stack := settled stack [] (List.append_nil stack).symm

theorem settled_nil (under : Bool) : Settled dot under [] := by
  intro front back split
  rw [(List.append_eq_nil_iff.mp split.symm).1]
  rfl

theorem Settled.front {under : Bool} {stack front : List (List C)} (settled : Settled dot under stack) (before : front <+: stack) :
    Settled dot under front := by
  obtain ⟨rest,rfl⟩ := before
  intro first back split
  exact settled first (back ++ rest) (by rw [split,List.append_assoc])

theorem Settled.snoc {under : Bool} {stack : List (List C)} {element : List C} (settled : Settled dot under stack)
    (stays : push dot under stack element = stack ++ [element]) : Settled dot under (stack ++ [element]) := by
  intro front back split
  rcases List.eq_nil_or_concat back with rfl | ⟨middle,last,rfl⟩
  · rw [List.append_nil] at split
    rw [← split,List.foldl_append,settled.whole]
    exact stays
  · rw [List.concat_eq_append,← List.append_assoc] at split
    exact settled front middle (List.append_inj_left' split rfl)

theorem Settled.push {under : Bool} {stack : List (List C)} (settled : Settled dot under stack) (element : List C) :
    Settled dot under (push dot under stack element) := by
  have shape : LexicalPath.push dot under stack element = stack ++ [element] → Settled dot under (stack ++ [element]) := settled.snoc
  unfold LexicalPath.push at shape ⊢
  split
  · exact settled
  rename_i solid
  rw [if_neg solid] at shape
  split
  · rename_i up
    rw [if_pos up] at shape
    split
    · rename_i bottom
      rw [if_pos bottom] at shape
      split
      · exact settled_nil under
      · rename_i free
        rw [if_neg free,bottom] at shape
        exact shape rfl
    · rename_i deep
      rw [if_neg deep] at shape
      split
      · rename_i top
        rw [if_pos top] at shape
        exact shape rfl
      · exact settled.front (List.dropLast_prefix stack)
  · rename_i down
    rw [if_neg down] at shape
    exact shape rfl

theorem elements_settled (path : List C) : Settled dot (rooted slash path) (elements slash dot path) := by
  unfold elements
  generalize path.splitOn slash = parts
  have all : ∀ stack, Settled dot (rooted slash path) stack →
      Settled dot (rooted slash path) (parts.foldl (push dot (rooted slash path)) stack) := by
    induction parts with
    | nil => exact fun stack settled => settled
    | cons first rest ih => exact fun stack settled => ih _ (settled.push first)
  exact all [] (settled_nil _)

theorem elements_clean (path : List C) (other : slash ≠ dot) :
    elements slash dot (clean slash dot path) = elements slash dot path := by
  by_cases filled : elements slash dot path = []
  · rw [filled]
    cases root : rooted slash path with
    | false =>
      rw [(clean_here_iff path other).mpr ⟨root,filled⟩,elements,List.splitOn_eq_singleton (by simpa using other)]
      simp [push]
    | true =>
      rw [(clean_root_iff path other).mpr ⟨root,filled⟩,elements]
      have double := List.splitOn_append_cons_self (a := slash) [] []
      rw [List.nil_append,List.splitOn_nil] at double
      rw [double]
      simp [push]
  · rw [elements,clean_rooted path other,clean_split filled,List.foldl_append]
    have start : (if rooted slash path then [[]] else []).foldl (push dot (rooted slash path)) [] = ([] : List (List C)) := by
      split
      · simp [push]
      · rfl
    rw [start]
    exact (elements_settled path).whole

/-- A path below a cleaned base, ending in a slash, goes down from the base. -/
theorem clean_below_slash {path : List C} {names : List (List C)} (other : slash ≠ dot) (filled : names ≠ [])
    (all : ∀ name ∈ names, Name slash dot name) :
    clean slash dot (clean slash dot path ++ slash::([slash].intercalate names ++ [slash])) =
      render slash dot (rooted slash path) (elements slash dot path ++ names) := by
  have based : clean slash dot path ≠ [] := by
    unfold clean render
    split
    · simp
    · split
      · simp
      · rename_i deep
        cases stack : elements slash dot path with
        | nil => exact absurd stack deep
        | cons first rest =>
          have stacked : Stacked slash dot first := elements_stacked path first (by rw [stack]; exact List.mem_cons_self)
          have solid := stacked.filled
          have inside : first <:+: [slash].intercalate (first::rest) := infix_joined List.mem_cons_self
          intro empty
          rw [empty] at inside
          exact solid (List.infix_nil.mp inside)
  have root : rooted slash (clean slash dot path ++ slash::([slash].intercalate names ++ [slash])) = rooted slash path := by
    rw [← (clean_rooted path other : rooted slash (clean slash dot path) = _)]
    cases text : clean slash dot path with
    | nil => exact absurd text based
    | cons first rest => rfl
  have last : ([slash].intercalate names ++ [slash]).splitOn slash = names ++ [[]] := by
    rw [List.splitOn_append_cons_self,List.splitOn_intercalate slash (fun name member => (all name member).whole) filled,List.splitOn_nil]
  have parts : elements slash dot (clean slash dot path ++ slash::([slash].intercalate names ++ [slash])) =
      elements slash dot path ++ names := by
    have base : elements slash dot (clean slash dot path) = elements slash dot path := elements_clean path other
    rw [elements,clean_rooted path other] at base
    rw [elements,root,List.splitOn_append_cons_self,List.foldl_append,base,last,List.foldl_append,push_names all]
    simp [push]
  rw [clean,root,parts]

end

end NPSync.Library.LexicalPath
