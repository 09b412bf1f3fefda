/-! Runs of a deterministic step function that may be stuck. A guard restricts
which events a run may take in which state, so that a property of every run
and a property of every run avoiding some steps are stated the same way. -/
namespace GuardedRun

/-- States reached from `start` by steps that all meet `guard`. -/
inductive Run {State Event : Type} (step : State → Event → Option State)
    (guard : State → Event → Prop) (start : State) : State → Prop where
  | refl : Run step guard start start
  | next {s t : State} {event : Event} (before : Run step guard start s) (meets : guard s event)
      (stepped : step s event = some t) : Run step guard start t

variable {State Event : Type} {step : State → Event → Option State}
  {guard guard' : State → Event → Prop} {start s t : State}

/-- The guard every step meets. -/
def Free (_ : State) (_ : Event) : Prop := True

namespace Run

theorem trans (first : Run step guard start s) (second : Run step guard s t) :
    Run step guard start t := by
  induction second with
  | refl => exact first
  | next _ meets stepped ih => exact ih.next meets stepped

theorem weaken (run : Run step guard start s)
    (weaker : ∀ s event, guard s event → guard' s event) : Run step guard' start s := by
  induction run with
  | refl => exact .refl
  | next _ meets stepped ih => exact ih.next (weaker _ _ meets) stepped

/-- What the start satisfies and each guarded step preserves, every reached
state satisfies. -/
theorem invariant (Inv : State → Prop) (run : Run step guard start s) (init : Inv start)
    (preserved : ∀ s event t, Inv s → guard s event → step s event = some t → Inv t) : Inv s := by
  induction run with
  | refl => exact init
  | next _ meets stepped ih => exact preserved _ _ _ ih meets stepped

/-- An invariant already known of the run may be used as a guard of it. -/
theorem strengthen {Inv : State → Prop} (run : Run step guard start s)
    (known : ∀ t, Run step guard start t → Inv t) :
    Run step (fun s event => guard s event ∧ Inv s) start s := by
  induction run with
  | refl => exact .refl
  | next before meets stepped ih => exact ih.next ⟨meets, known _ before⟩ stepped

end Run

/-- The system with a flag, updated from the states before and after each step. -/
def monitored (step : State → Event → Option State) (update : State → State → Bool → Bool)
    (w : State × Bool) (event : Event) : Option (State × Bool) :=
  (step w.1 event).map fun t => (t, update w.1 t w.2)

variable {update : State → State → Bool → Bool}

theorem monitored_eq_some {w w' : State × Bool} {event : Event} :
    monitored step update w event = some w' ↔
      step w.1 event = some w'.1 ∧ w'.2 = update w.1 w'.1 w.2 := by
  obtain ⟨t, flag⟩ := w'
  simp only [monitored, Option.map_eq_some_iff, Prod.mk.injEq]
  constructor
  · rintro ⟨t, stepped, rfl, rfl⟩
    exact ⟨stepped, rfl⟩
  · rintro ⟨stepped, rfl⟩
    exact ⟨t, stepped, rfl, rfl⟩

/-- The flag does not steer the run. -/
theorem Run.unmonitored {w w' : State × Bool}
    (run : Run (monitored step update) (fun w event => guard w.1 event) w w') :
    Run step guard w.1 w'.1 := by
  induction run with
  | refl => exact .refl
  | next _ meets stepped ih => exact ih.next meets (monitored_eq_some.mp stepped).1

/-- Runs a list of events, checking the guard at each. -/
def exec (step : State → Event → Option State) (guard : State → Event → Prop)
    [∀ s event, Decidable (guard s event)] : State → List Event → Option State
  | s, [] => some s
  | s, event :: rest => if guard s event then (step s event).bind (exec step guard · rest) else none

instance : ∀ (s : State) (event : Event), Decidable (Free s event) := fun _ _ => .isTrue trivial

theorem run_of_exec [∀ s event, Decidable (guard s event)] {events : List Event}
    (ran : exec step guard s events = some t) : Run step guard s t := by
  induction events generalizing s with
  | nil => cases ran; exact .refl
  | cons event rest ih =>
    simp only [exec] at ran
    split at ran
    · rename_i meets
      obtain ⟨middle, stepped, ran⟩ := Option.bind_eq_some_iff.mp ran
      exact (Run.refl.next meets stepped).trans (ih ran)
    · cases ran

/-- A finished execution whose last state passes a test is a run to a state
that passes it. -/
theorem reaches_of_exec [∀ s event, Decidable (guard s event)] (events : List Event)
    (test : State → Bool) (ran : (exec step guard start events).map test = some true) :
    ∃ s, Run step guard start s ∧ test s = true := by
  obtain ⟨s, ran, passed⟩ := Option.map_eq_some_iff.mp ran
  exact ⟨s, run_of_exec ran, passed⟩

end GuardedRun
