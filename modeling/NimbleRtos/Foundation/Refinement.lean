import NimbleRtos.Foundation.GuardedRun

/-! Forward simulation of a program with loops by one without. The program
takes a bound on its loops; it refines the model when, wherever the model has a
result, some bound is enough for the program to end in a related one. -/
namespace Refinement

variable {A B C D : Type} {R : A → B → Prop} {S : C → D → Prop} {a : A} {b : B}
  {program : Nat → Option A} {model : Option B} {rest : A → Nat → Option C} {modelRest : B → Option D}

/-- Any large enough bound gives `a`. -/
def Ends (program : Nat → Option A) (a : A) : Prop := ∃ enough, ∀ fuel, enough ≤ fuel → program fuel = some a

theorem ends_pure (a : A) : Ends (fun _ => some a) a := ⟨0, fun _ _ => rfl⟩

theorem Ends.bind (first : Ends program a) {c : C} (second : Ends (rest a) c) :
    Ends (fun fuel => (program fuel).bind fun a => rest a fuel) c := by
  obtain ⟨m, first⟩ := first
  obtain ⟨n, second⟩ := second
  refine ⟨max m n, ?_⟩
  intro fuel enough
  simp only [first fuel (by omega), Option.bind_some]
  exact second fuel (by omega)

/-- A loop that spends one round. -/
theorem Ends.succ (ended : Ends (fun fuel => program (fuel + 1)) a) : Ends program a := by
  obtain ⟨enough, ended⟩ := ended
  refine ⟨enough + 1, ?_⟩
  intro fuel more
  obtain ⟨left, rfl⟩ : ∃ left, fuel = left + 1 := ⟨fuel - 1, by omega⟩
  exact ended left (by omega)

/-- A program's result does not depend on the bound. -/
theorem Ends.unique {a' : A} (first : Ends program a) (second : Ends program a') : a = a' := by
  obtain ⟨m, first⟩ := first
  obtain ⟨n, second⟩ := second
  have left := first (max m n) (by omega)
  have right := second (max m n) (by omega)
  exact Option.some.inj (left.symm.trans right)

def Refines (R : A → B → Prop) (program : Nat → Option A) (model : Option B) : Prop :=
  ∀ b, model = some b → ∃ a, Ends program a ∧ R a b

namespace Refines

theorem pure (related : R a b) : Refines R (fun _ => some a) (some b) := by
  intro b' result
  cases result
  exact ⟨a, ends_pure a, related⟩

/-- What both do alike. -/
theorem self (model : Option B) : Refines Eq (fun _ => model) model := by
  rintro b rfl
  exact ⟨b, ends_pure b, rfl⟩

theorem none : Refines R program none := by
  intro b result
  cases result

theorem bind (first : Refines R program model)
    (continues : ∀ a b, model = some b → R a b → Refines S (rest a) (modelRest b)) :
    Refines S (fun fuel => program fuel >>= fun a => rest a fuel) (model >>= modelRest) := by
  intro d result
  obtain ⟨b, reached, result⟩ := Option.bind_eq_some_iff.mp result
  obtain ⟨a, ended, related⟩ := first b reached
  obtain ⟨c, ended', related'⟩ := continues a b reached related d result
  exact ⟨c, ended.bind ended', related'⟩

/-- What the program makes of its result. -/
theorem map {T : C → B → Prop} {f : A → C} (refines : Refines R program model) (related : ∀ a b, R a b → T (f a) b) :
    Refines T (fun fuel => program fuel >>= fun a => some (f a)) model := by
  intro b result
  obtain ⟨a, ended, here⟩ := refines b result
  exact ⟨f a, ended.bind (ends_pure _), related a b here⟩

theorem succ (refines : Refines R (fun fuel => program (fuel + 1)) model) : Refines R program model := by
  intro b result
  obtain ⟨a, ended, related⟩ := refines b result
  exact ⟨a, ended.succ, related⟩

/-- Both sides branch the same way. -/
theorem ite {p : Prop} [Decidable p] {program' : Nat → Option A} {model' : Option B}
    (yes : p → Refines R program model) (no : ¬ p → Refines R program' model') :
    Refines R (fun fuel => if p then program fuel else program' fuel) (if p then model else model') := by
  by_cases holds : p
  · simpa only [if_pos holds] using yes holds
  · simpa only [if_neg holds] using no holds

end Refines

/-! ### Runs -/

variable {Event : Type} {step : Nat → A → Event → Option A} {modelStep : B → Event → Option B}
  {guard : A → Event → Prop} {modelGuard : B → Event → Prop} {start : A} {modelStart : B}

/-- States the program reaches by steps that end and all meet `guard`. -/
inductive Reaches (step : Nat → A → Event → Option A) (guard : A → Event → Prop) (start : A) : A → Prop where
  | refl : Reaches step guard start start
  | next {a a' : A} {event : Event} (before : Reaches step guard start a) (meets : guard a event)
      (ended : Ends (step · a event) a') : Reaches step guard start a'

/-- Every run of the model is one of the program. -/
theorem reaches_of_run (related : R start modelStart)
    (guards : ∀ a b event, R a b → modelGuard b event → guard a event)
    (refines : ∀ a b event, GuardedRun.Run modelStep modelGuard modelStart b → R a b → modelGuard b event →
      Refines R (step · a event) (modelStep b event))
    (run : GuardedRun.Run modelStep modelGuard modelStart b) :
    ∃ a, Reaches step guard start a ∧ R a b := by
  induction run with
  | refl => exact ⟨start, .refl, related⟩
  | next before meets stepped ih =>
    obtain ⟨a, reached, related⟩ := ih
    obtain ⟨a', ended, related'⟩ := refines _ _ _ before related meets _ stepped
    exact ⟨a', reached.next (guards _ _ _ related meets) ended, related'⟩

/-- And where the model is never stuck, every run of the program is one of the
model. -/
theorem run_of_reaches (related : R start modelStart)
    (guards : ∀ a b event, R a b → guard a event → modelGuard b event)
    (refines : ∀ a b event, GuardedRun.Run modelStep modelGuard modelStart b → R a b → modelGuard b event →
      Refines R (step · a event) (modelStep b event))
    (moves : ∀ a b event a', GuardedRun.Run modelStep modelGuard modelStart b → R a b → modelGuard b event →
      Ends (step · a event) a' → (modelStep b event).isSome = true)
    (reached : Reaches step guard start a) :
    ∃ b, GuardedRun.Run modelStep modelGuard modelStart b ∧ R a b := by
  induction reached with
  | refl => exact ⟨modelStart, .refl, related⟩
  | next _ meets ended ih =>
    obtain ⟨b, run, related⟩ := ih
    have meets := guards _ _ _ related meets
    obtain ⟨b', stepped⟩ := Option.isSome_iff_exists.mp (moves _ _ _ _ run related meets ended)
    obtain ⟨a', ended', related'⟩ := refines _ _ _ run related meets b' stepped
    obtain rfl := ended.unique ended'
    exact ⟨b', run.next meets stepped, related'⟩

end Refinement
