import Mathlib.Data.List.Basic

/-! Reading a growing list in pages. The items carry increasing numbers, and a
reader asks each time for some items above the last number it has seen. -/
namespace NPSync.Library.Pages
variable {A : Type} (seq : A → Nat)

def Increasing (items : List A) : Prop := items.Pairwise (fun a b => seq a < seq b)

def upTo (items : List A) (cursor : Nat) : List A := items.filter (fun a => decide (seq a ≤ cursor))

def above (items : List A) (cursor : Nat) : List A := items.filter (fun a => decide (cursor < seq a))

def page (items : List A) (cursor size : Nat) : List A := (above seq items cursor).take size

/-- The number of the last item of a page, or the old cursor if the page is empty. -/
def advance (cursor : Nat) (items : List A) : Nat := (items.getLast?.map seq).getD cursor

theorem advance_cases (cursor : Nat) (items : List A) :
    (items = [] ∧ advance seq cursor items = cursor) ∨ ∃ a ∈ items, advance seq cursor items = seq a := by
  rcases List.eq_nil_or_concat items with rfl | ⟨front,last,rfl⟩
  · exact .inl ⟨rfl,rfl⟩
  · exact .inr ⟨last,by simp,by simp [advance]⟩

variable {seq}

theorem Increasing.upTo_above {items : List A} (increasing : Increasing seq items) (cursor : Nat) :
    upTo seq items cursor ++ above seq items cursor = items := by
  induction items with
  | nil => rfl
  | cons a rest ih =>
    obtain ⟨first,later⟩ := List.pairwise_cons.mp increasing
    by_cases seen : seq a ≤ cursor
    · simpa [upTo,above,seen] using ih later
    · have none : upTo seq rest cursor = [] := List.filter_eq_nil_iff.mpr fun b member => by
        have larger := first b member
        simp only [decide_eq_true_eq]
        omega
      have all := ih later
      rw [none,List.nil_append] at all
      have unseen : cursor < seq a := Nat.not_le.mp seen
      simp only [upTo,above] at none all ⊢
      simp [seen,unseen,none,all]

theorem Increasing.snoc {items more : List A} (increasing : Increasing seq items) (later : Increasing seq more)
    (larger : ∀ a ∈ items, ∀ b ∈ more, seq a < seq b) : Increasing seq (items ++ more) :=
  List.pairwise_append.mpr ⟨increasing,later,larger⟩

theorem upTo_eq_of_le {items : List A} {cursor : Nat} (seen : ∀ a ∈ items, seq a ≤ cursor) :
    upTo seq items cursor = items :=
  List.filter_eq_self.mpr fun a member => decide_eq_true (seen a member)

theorem upTo_eq_nil {items : List A} {cursor : Nat} (unseen : ∀ a ∈ items, cursor < seq a) :
    upTo seq items cursor = [] :=
  List.filter_eq_nil_iff.mpr fun a member => by
    have larger := unseen a member
    simp only [decide_eq_true_eq]
    omega

/-- The last of an increasing list has the largest number. -/
theorem Increasing.le_advance {items : List A} (increasing : Increasing seq items) (cursor : Nat) {a : A}
    (member : a ∈ items) : seq a ≤ advance seq cursor items := by
  rcases List.eq_nil_or_concat items with rfl | ⟨front,last,rfl⟩
  · contradiction
  · rw [List.concat_eq_append] at increasing member ⊢
    simp only [advance,List.getLast?_concat,Option.map_some,Option.getD_some]
    rcases List.mem_append.mp member with earlier | same
    · exact Nat.le_of_lt ((List.pairwise_append.mp increasing).2.2 a earlier last List.mem_cons_self)
    · exact Nat.le_of_eq (congrArg seq (List.mem_singleton.mp same))

/-- A page is what lies between the old and the new cursor, also in the list as it
has grown since the page was read. -/
theorem upTo_advance {items more : List A} (increasing : Increasing seq (items ++ more)) (cursor size : Nat) :
    upTo seq (items ++ more) (advance seq cursor (page seq items cursor size)) =
      upTo seq (items ++ more) cursor ++ page seq items cursor size := by
  have inside : Increasing seq items := (List.pairwise_append.mp increasing).1
  have parted := inside.upTo_above cursor
  rw [← List.take_append_drop size (above seq items cursor)] at parted
  change upTo seq items cursor ++ (page seq items cursor size ++ (above seq items cursor).drop size) = items at parted
  rcases advance_cases seq cursor (page seq items cursor size) with ⟨empty,same⟩ | ⟨last,member,same⟩
  · rw [same,empty,List.append_nil]
  have moved : cursor < seq last := of_decide_eq_true (List.mem_filter.mp (List.mem_of_mem_take member)).2
  have bound : ∀ a ∈ page seq items cursor size, seq a ≤ seq last := fun a there =>
    same ▸ Increasing.le_advance ((inside.filter _).take) cursor there
  have rest : ∀ b ∈ (above seq items cursor).drop size, seq last < seq b := by
    have whole : Increasing seq (above seq items cursor) := inside.filter _
    rw [← List.take_append_drop size (above seq items cursor)] at whole
    exact (List.pairwise_append.mp whole).2.2 last member
  have grown : ∀ b ∈ more, seq last < seq b :=
    (List.pairwise_append.mp increasing).2.2 last (List.mem_of_mem_filter (List.mem_of_mem_take member))
  have kept : upTo seq (upTo seq items cursor) (seq last) = upTo seq items cursor := upTo_eq_of_le fun a there => by
    have old : seq a ≤ cursor := of_decide_eq_true (List.mem_filter.mp there).2
    omega
  have unseen : upTo seq more cursor = [] := upTo_eq_nil fun b there => Nat.lt_trans moved (grown b there)
  calc upTo seq (items ++ more) (advance seq cursor (page seq items cursor size))
      = upTo seq (upTo seq items cursor ++ (page seq items cursor size ++ (above seq items cursor).drop size)) (seq last) ++
          upTo seq more (seq last) := by rw [parted,same,upTo,List.filter_append]; rfl
    _ = upTo seq items cursor ++ page seq items cursor size := by
        simp only [upTo,List.filter_append] at kept ⊢
        rw [kept]
        have first := upTo_eq_of_le bound
        have second := upTo_eq_nil rest
        have third := upTo_eq_nil grown
        simp only [upTo] at first second third
        rw [first,second,third,List.append_nil,List.append_nil]
    _ = upTo seq (items ++ more) cursor ++ page seq items cursor size := by
        simp only [upTo] at unseen ⊢
        rw [List.filter_append,unseen,List.append_nil]

/-- A page reaches the end of the list or is full. -/
theorem length_page {items : List A} (increasing : Increasing seq items) (cursor size : Nat) :
    min items.length ((upTo seq items cursor).length + size) = (upTo seq items cursor ++ page seq items cursor size).length := by
  have parted := congrArg List.length (increasing.upTo_above cursor)
  rw [List.length_append] at parted
  rw [List.length_append,page,List.length_take]
  omega

theorem upTo_prefix {items : List A} (increasing : Increasing seq items) (cursor : Nat) :
    upTo seq items cursor <+: items := ⟨above seq items cursor,increasing.upTo_above cursor⟩

end NPSync.Library.Pages
