import NPSync.Library.Ledger

/-! Programs in a process that may die at any call, and a shared object that outlives it.
Each life starts with nothing but the object, as the last call before left it. -/
namespace NPSync.Library

namespace Program
variable {Op : Type} {Res : Op → Type} {A S E : Type}

/-- Execution in a process that lives for as many calls as there are surroundings for;
`none` when it dies before the program has ended. -/
def lives (exec : E → S → (op : Op) → Res op × S) : Program Op Res A → List E → S → Option A × S
  | .done value,_,state => (some value,state)
  | .call _ _,[],state => (none,state)
  | .call op next,env::rest,state => (next (exec env state op).1).lives exec rest (exec env state op).2

@[simp] theorem lives_done (exec : E → S → (op : Op) → Res op × S) (value : A) (envs : List E) (state : S) :
    (Program.done value : Program Op Res A).lives exec envs state = (some value,state) := by
  cases envs <;> rfl

@[simp] theorem lives_died (exec : E → S → (op : Op) → Res op × S) (op : Op) (next : Res op → Program Op Res A) (state : S) :
    (Program.call op next).lives exec [] state = (none,state) := rfl

@[simp] theorem lives_call (exec : E → S → (op : Op) → Res op × S) (op : Op) (next : Res op → Program Op Res A) (env : E)
    (rest : List E) (state : S) : (Program.call op next).lives exec (env::rest) state =
      (next (exec env state op).1).lives exec rest (exec env state op).2 := rfl

end Program

namespace Ledger
variable {S Op A Req Env : Type} {Res : Op → Type}
variable (start : Req → Program Op Res A) (exec : Env → S → (op : Op) → Res op × S)

/-- The ledger of one life, whose moves end where the process dies. -/
def life (state : S) (moves : List (Move Req Env)) : Ledger S Op Res A Req := run (move start exec) (initial state) moves

def lifetimes : S → List (List (Move Req Env)) → List (Ledger S Op Res A Req)
  | _,[] => []
  | state,moves::rest => life start exec state moves::lifetimes (life start exec state moves).shared rest

/-- What is there after all lives. -/
def remains : S → List (List (Move Req Env)) → S
  | state,[] => state
  | state,moves::rest => remains (life start exec state moves).shared rest

/-- What a life takes over, or takes on, it keeps or settles; so it is there after all
lives, or one of them has settled it. -/
theorem remains_kept (Kept : S → Prop) (TakenOn Settled Whole : Ledger S Op Res A Req → Prop)
    (keeps : ∀ state moves, Kept state ∨ TakenOn (life start exec state moves) → Whole (life start exec state moves) →
      Kept (life start exec state moves).shared ∨ Settled (life start exec state moves))
    (state : S) (lives : List (List (Move Req Env))) (whole : ∀ one ∈ lifetimes start exec state lives, Whole one)
    (taken : Kept state ∨ ∃ one ∈ lifetimes start exec state lives, TakenOn one) :
    Kept (remains start exec state lives) ∨ ∃ one ∈ lifetimes start exec state lives, Settled one := by
  induction lives generalizing state with
  | nil =>
    rcases taken with kept | ⟨one,member,-⟩
    · exact .inl kept
    · exact absurd member List.not_mem_nil
  | cons moves rest ih =>
    let next := (life start exec state moves).shared
    have later : Kept next ∨ (∃ one ∈ lifetimes start exec next rest, TakenOn one) →
        Kept (remains start exec next rest) ∨ ∃ one ∈ lifetimes start exec state (moves::rest), Settled one := by
      intro taken
      rcases ih next (fun one member => whole one (List.mem_cons_of_mem _ member)) taken with kept | ⟨one,member,settled⟩
      · exact .inl kept
      · exact .inr ⟨one,List.mem_cons_of_mem _ member,settled⟩
    have first : Kept state ∨ TakenOn (life start exec state moves) →
        Kept next ∨ Settled (life start exec state moves) := fun taken => keeps state moves taken (whole _ List.mem_cons_self)
    have here : Kept state ∨ TakenOn (life start exec state moves) →
        Kept (remains start exec next rest) ∨ ∃ one ∈ lifetimes start exec state (moves::rest), Settled one := by
      intro taken
      rcases first taken with kept | settled
      · exact later (.inl kept)
      · exact .inr ⟨_,List.mem_cons_self,settled⟩
    rcases taken with kept | ⟨one,member,takenOn⟩
    · exact here (.inl kept)
    rcases List.mem_cons.mp member with rfl | inside
    · exact here (.inr takenOn)
    · exact later (.inr ⟨one,inside,takenOn⟩)

end Ledger
end NPSync.Library
