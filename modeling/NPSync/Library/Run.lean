import Mathlib.Data.List.Basic

/-! Runs of a deterministic machine: a step function folded over a list of
events, with a guard that every event has to meet in the state it finds. -/
namespace NPSync.Library
variable {S E : Type} (step : S → E → S)

def run (state : S) (events : List E) : S := events.foldl step state

/-- Every event of the run meets the guard in the state it is taken in. -/
def Guarded (guard : S → E → Prop) : S → List E → Prop
  | _,[] => True
  | state,first::rest => guard state first ∧ Guarded guard (step state first) rest

instance decidableGuarded (guard : S → E → Prop) [∀ state event, Decidable (guard state event)] :
    (state : S) → (events : List E) → Decidable (Guarded step guard state events)
  | _,[] => .isTrue trivial
  | state,first::rest =>
    have := decidableGuarded guard (step state first) rest
    inferInstanceAs (Decidable (_ ∧ _))

@[simp] theorem run_nil (state : S) : run step state [] = state := rfl

@[simp] theorem run_cons (state : S) (first : E) (rest : List E) :
    run step state (first::rest) = run step (step state first) rest := rfl

theorem run_append (state : S) (first second : List E) :
    run step state (first ++ second) = run step (run step state first) second :=
  List.foldl_append

theorem guarded_trivial (state : S) (events : List E) : Guarded step (fun _ _ => True) state events := by
  induction events generalizing state with
  | nil => trivial
  | cons first rest ih => exact ⟨trivial,ih _⟩

theorem guarded_append (guard : S → E → Prop) (state : S) (first second : List E) :
    Guarded step guard state (first ++ second) ↔
      Guarded step guard state first ∧ Guarded step guard (run step state first) second := by
  induction first generalizing state with
  | nil => simp [Guarded]
  | cons event rest ih => simp [Guarded,ih,and_assoc]

theorem Guarded.mono {guard weaker : S → E → Prop} (implies : ∀ state event, guard state event → weaker state event)
    {state : S} {events : List E} (guarded : Guarded step guard state events) : Guarded step weaker state events := by
  induction events generalizing state with
  | nil => trivial
  | cons first rest ih => exact ⟨implies state first guarded.1,ih guarded.2⟩

/-- The invariant rule: what every guarded step keeps holds after every guarded run. -/
theorem run_invariant (guard : S → E → Prop) (Inv : S → Prop)
    (steps : ∀ state event, Inv state → guard state event → Inv (step state event))
    (state : S) (events : List E) (before : Inv state) (guarded : Guarded step guard state events) :
    Inv (run step state events) := by
  induction events generalizing state with
  | nil => exact before
  | cons first rest ih => exact ih _ (steps state first before guarded.1) guarded.2

/-- Guards that agree in all states with an invariant let the same runs through. -/
theorem guarded_iff (Inv : S → Prop) (steps : ∀ state event, Inv state → Inv (step state event))
    (assumed first second : S → E → Prop) (state : S) (before : Inv state)
    (agree : ∀ state event, Inv state → assumed state event → (first state event ↔ second state event))
    (events : List E) (guarded : Guarded step assumed state events) :
    Guarded step first state events ↔ Guarded step second state events := by
  induction events generalizing state with
  | nil => exact Iff.rfl
  | cons event rest ih => exact and_congr (agree state event before guarded.1) (ih _ (steps state event before) guarded.2)

end NPSync.Library
