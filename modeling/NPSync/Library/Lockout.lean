import Mathlib.Data.List.Basic

/-! A counter of failed checks that locks. Every failure counts, the last one of a
number of them sets a lock and the counter to zero, and nothing is checked during a
lock. A check takes from the reading of the lock to the writing of its outcome. -/
namespace NPSync.Library.Lockout

structure Counter where
  failures : Nat
  lockedUntil : Option Nat

def Counter.Unlocked (c : Counter) (now : Nat) : Prop := ∀ release ∈ c.lockedUntil, release ≤ now

structure Check where
  begun : Nat
  settled : Nat
  deriving DecidableEq

/-- Some instant of the check is in the interval from `first` up to `last`. -/
def Check.meets (first last : Nat) (check : Check) : Bool := first ≤ check.settled && check.begun < last

section
variable (lockAfter lockFor : Nat)

def Counter.fail (c : Counter) (now : Nat) : Counter :=
  if lockAfter ≤ c.failures + 1 then ⟨0,some (now + lockFor)⟩ else {c with failures := c.failures + 1}

/-- Checks one after another, of which only the last may succeed. -/
inductive Checks : Counter → List Check → Prop
  | nil (c : Counter) : Checks c []
  | last (c : Counter) (check : Check) (unlocked : c.Unlocked check.begun) (lasts : check.begun ≤ check.settled) :
      Checks c [check]
  | failed (c : Counter) (check : Check) (rest : List Check) (unlocked : c.Unlocked check.begun)
      (lasts : check.begun ≤ check.settled) (later : ∀ next ∈ rest, check.settled ≤ next.begun)
      (counted : Checks (c.fail lockAfter lockFor check.settled) rest) : Checks c (check::rest)

variable {lockAfter lockFor} {c : Counter} {checks : List Check}

/-- No check begins before a lock ends. -/
theorem Checks.after_lock (run : Checks lockAfter lockFor c checks) {release : Nat} (locked : c.lockedUntil = some release) :
    ∀ check ∈ checks, release ≤ check.begun := by
  cases run with
  | nil => exact nofun
  | last _ check unlocked lasts =>
    intro other member
    rw [List.mem_singleton.mp member]
    exact unlocked release locked
  | failed _ check rest unlocked lasts later counted =>
    have first := unlocked release locked
    intro other member
    rcases List.mem_cons.mp member with rfl | inside
    · exact first
    · exact Nat.le_trans first (Nat.le_trans lasts (later other inside))

theorem Checks.lasts (run : Checks lockAfter lockFor c checks) : ∀ check ∈ checks, check.begun ≤ check.settled := by
  induction run with
  | nil => exact nofun
  | last c check unlocked lasts =>
    intro other member
    rw [List.mem_singleton.mp member]
    exact lasts
  | failed c check rest unlocked lasts later counted ih =>
    intro other member
    rcases List.mem_cons.mp member with rfl | inside
    · exact lasts
    · exact ih other inside

/-- Within an interval of the length of a lock, the checks run out with the failures
that are left. -/
theorem Checks.remaining (run : Checks lockAfter lockFor c checks) (first : Nat)
    (started : ∀ check ∈ checks, first ≤ check.settled) :
    checks.countP (Check.meets first (first + lockFor)) ≤ max 1 (lockAfter - c.failures) := by
  induction run with
  | nil => exact Nat.zero_le _
  | last c check unlocked lasts => exact Nat.le_trans List.countP_le_length (Nat.le_max_left _ _)
  | failed c check rest unlocked lasts later counted ih =>
    have begins := started check List.mem_cons_self
    have tail := ih fun next member => started next (List.mem_cons_of_mem check member)
    rw [List.countP_cons]
    by_cases locks : lockAfter ≤ c.failures + 1
    · have fails : c.fail lockAfter lockFor check.settled = ⟨0,some (check.settled + lockFor)⟩ := if_pos locks
      have none : rest.countP (Check.meets first (first + lockFor)) = 0 := by
        rw [List.countP_eq_zero]
        intro next member meets
        rw [fails] at counted
        have free : check.settled + lockFor ≤ next.begun := counted.after_lock rfl next member
        simp only [Check.meets,Bool.and_eq_true,decide_eq_true_eq] at meets
        omega
      rw [none]
      split
      · omega
      · omega
    · have fails : c.fail lockAfter lockFor check.settled = {c with failures := c.failures + 1} := if_neg locks
      rw [fails] at tail
      simp only at tail
      split
      · omega
      · omega

/-- Every half-open interval of the length of a lock meets at most as many checks as
there are failures to a lock. -/
theorem Checks.bounded (positive : 1 ≤ lockAfter) (run : Checks lockAfter lockFor c checks) (first : Nat) :
    checks.countP (Check.meets first (first + lockFor)) ≤ lockAfter := by
  induction run with
  | nil => exact Nat.zero_le _
  | last c check unlocked lasts => exact Nat.le_trans List.countP_le_length positive
  | failed c check rest unlocked lasts later counted ih =>
    by_cases started : first ≤ check.settled
    · have whole := Checks.failed c check rest unlocked lasts later counted
      have bound := whole.remaining first (by
        intro next member
        rcases List.mem_cons.mp member with rfl | inside
        · exact started
        · exact Nat.le_trans started (Nat.le_trans (later next inside) (counted.lasts next inside)))
      omega
    · have before : Check.meets first (first + lockFor) check = false := by simp [Check.meets,started]
      rw [List.countP_cons,before]
      exact ih

end
end NPSync.Library.Lockout
