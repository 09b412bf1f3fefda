import Mathlib.Logic.Basic

/-! Loops whose body either leaves or goes round once more, run for a bounded
number of rounds. A variant that every round lowers bounds the rounds; a trap
that every round stays in is never left. -/
namespace BoundedLoop

/-- `again s` is the state after one more round, none where the loop is left. -/
def rounds {State : Type} (again : State → Option State) : Nat → State → Option State
  | 0, _ => none
  | n + 1, s =>
    match again s with
    | none => some s
    | some t => rounds again n t

variable {State : Type} {again : State → Option State}

/-- A loop is left in a state that does not go round again. -/
theorem left_of_rounds {n : Nat} {s t : State} (ended : rounds again n s = some t) : again t = none := by
  induction n generalizing s with
  | zero => cases ended
  | succ n ih =>
    simp only [rounds] at ended
    split at ended
    · rename_i left
      cases ended
      exact left
    · exact ih ended

/-- The variant bounds the rounds. -/
theorem ends_of_variant (Inv : State → Prop) (variant : State → Nat)
    (lowers : ∀ s t, Inv s → again s = some t → Inv t ∧ variant t < variant s)
    {n : Nat} {s : State} (inv : Inv s) (enough : variant s < n) : ∃ t, rounds again n s = some t := by
  induction n generalizing s with
  | zero => cases enough
  | succ n ih =>
    simp only [rounds]
    cases round : again s with
    | none => exact ⟨s, rfl⟩
    | some t =>
      obtain ⟨kept, less⟩ := lowers s t inv round
      exact ih kept (by omega)

/-- No number of rounds leaves a trap. -/
theorem trapped {Trap : State → Prop} (stays : ∀ s, Trap s → ∃ t, again s = some t ∧ Trap t)
    {s : State} (inside : Trap s) (n : Nat) : rounds again n s = none := by
  induction n generalizing s with
  | zero => rfl
  | succ n ih =>
    obtain ⟨t, round, still⟩ := stays s inside
    simp only [rounds, round]
    exact ih still

end BoundedLoop
