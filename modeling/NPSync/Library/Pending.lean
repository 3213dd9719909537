import Mathlib.Logic.Function.Basic
import Mathlib.Data.List.Basic
import Mathlib.Data.List.Induction

/-! Writes that are waiting for a map. What the map holds once they are all
applied is decided, key by key, by the last write. -/
namespace NPSync.Library
variable {K V E : Type} [DecidableEq K]

def settle (live : K → V) (pending : List (K × V)) : K → V :=
  pending.foldl (fun map write => Function.update map write.1 write.2) live

@[simp] theorem settle_nil (live : K → V) : settle live [] = live := rfl

@[simp] theorem settle_cons (live : K → V) (write : K × V) (rest : List (K × V)) :
    settle live (write::rest) = settle (Function.update live write.1 write.2) rest := rfl

theorem settle_append (live : K → V) (first second : List (K × V)) :
    settle live (first ++ second) = settle (settle live first) second :=
  List.foldl_append

theorem settle_snoc (live : K → V) (pending : List (K × V)) (write : K × V) :
    settle live (pending ++ [write]) = Function.update (settle live pending) write.1 write.2 := by
  rw [settle_append]
  rfl

theorem settle_snoc_same (live : K → V) (pending : List (K × V)) (key : K) (value : V) :
    settle live (pending ++ [(key,value)]) key = value := by
  rw [settle_snoc]
  exact Function.update_self _ _ _

theorem settle_snoc_other (live : K → V) (pending : List (K × V)) (write : K × V) (key : K) (other : key ≠ write.1) :
    settle live (pending ++ [write]) key = settle live pending key := by
  rw [settle_snoc]
  exact Function.update_of_ne other _ _

/-- A write that does not decide its key can go. -/
theorem settle_skip (live : K → V) (pending : List (K × V)) (key spot : K) (value : V)
    (undone : key = spot → value ≠ settle (Function.update live spot value) pending key) :
    settle (Function.update live spot value) pending key = settle live pending key := by
  induction pending using List.reverseRecOn with
  | nil =>
    by_cases same : key = spot
    · subst same
      exact absurd (Function.update_self key value live).symm (undone rfl)
    · exact Function.update_of_ne same _ _
  | append_singleton rest write ih =>
    by_cases same : key = write.1
    · rw [settle_snoc,settle_snoc,same,Function.update_self,Function.update_self]
    · rw [settle_snoc_other _ _ _ _ same] at undone ⊢
      rw [settle_snoc_other _ _ _ _ same]
      exact ih undone

variable (f g : E → Option (K × V))

/-- Two readings of the events agree on a key when they agree on the writes to it. -/
theorem settle_filterMap_congr (live : K → V) (events : List E) (key : K)
    (agree : ∀ event ∈ events, ∀ write : K × V, write.1 = key → (g event = some write ↔ f event = some write)) :
    settle live (events.filterMap g) key = settle live (events.filterMap f) key := by
  induction events using List.reverseRecOn with
  | nil => rfl
  | append_singleton rest event ih =>
    have before := ih fun e member => agree e (List.mem_append_left _ member)
    have here := agree event (List.mem_append_right _ (List.mem_singleton_self _))
    have skips : ∀ h : E → Option (K × V), (∀ write, h event = some write → write.1 ≠ key) →
        settle live ((rest ++ [event]).filterMap h) key = settle live (rest.filterMap h) key := by
      intro h other
      rw [List.filterMap_append]
      cases write : h event with
      | none => simp [write]
      | some w =>
        rw [List.filterMap_cons_some write,List.filterMap_nil,settle_snoc_other _ _ _ _ (Ne.symm (other w write))]
    by_cases decides : ∃ write, f event = some write ∧ write.1 = key
    · obtain ⟨write,read,rfl⟩ := decides
      rw [List.filterMap_append,List.filterMap_append,List.filterMap_cons_some read,
        List.filterMap_cons_some ((here write rfl).mpr read),List.filterMap_nil,List.filterMap_nil,settle_snoc,settle_snoc,
        Function.update_self,Function.update_self]
    · have unread : ∀ write, f event = some write → write.1 ≠ key := fun write read same => decides ⟨write,read,same⟩
      rw [skips f unread,skips g fun write read same => unread write ((here write same).mp read) same,before]

/-- A reading that leaves out only writes that do not decide the key. -/
theorem settle_filterMap_fewer (live : K → V) (events : List E) (key : K)
    (fewer : ∀ event ∈ events, g event = f event ∨ (g event = none ∧
      ∀ write ∈ f event, write.1 = key → write.2 ≠ settle live (events.filterMap f) key)) :
    settle live (events.filterMap g) key = settle live (events.filterMap f) key := by
  induction events using List.reverseRecOn with
  | nil => rfl
  | append_singleton rest event ih =>
    have here := fewer event (List.mem_append_right _ (List.mem_singleton_self _))
    have others := fun e member => fewer e (List.mem_append_left _ member)
    rw [List.filterMap_append] at here others ⊢
    rw [List.filterMap_append]
    cases read : f event with
    | none =>
      have unread : g event = none := by
        rcases here with same | ⟨gone,-⟩
        · rw [same,read]
        · exact gone
      simp only [List.filterMap_cons_none read,List.filterMap_cons_none unread,List.filterMap_nil,List.append_nil] at others ⊢
      exact ih others
    | some write =>
      simp only [List.filterMap_cons_some read,List.filterMap_nil] at here others ⊢
      by_cases decides : key = write.1
      · have kept : g event = some write := by
          rcases here with same | ⟨-,undone⟩
          · rw [same,read]
          · refine absurd ?_ (undone write read decides.symm)
            rw [decides,settle_snoc,Function.update_self]
        rw [List.filterMap_cons_some kept,List.filterMap_nil,settle_snoc,settle_snoc,decides,Function.update_self,
          Function.update_self]
      · rw [settle_snoc_other _ _ _ _ decides] at others ⊢
        rw [← ih others]
        rcases here with same | ⟨gone,-⟩
        · rw [List.filterMap_cons_some (same.trans read),List.filterMap_nil,settle_snoc_other _ _ _ _ decides]
        · rw [List.filterMap_cons_none gone,List.filterMap_nil,List.append_nil]

end NPSync.Library
