import NimbleRtos.SchedulerProofs

/-! semaphore.c, one definition for each critical section. `waiters` of
semaphore `s` is the ring at `WaitList.semaphore s`. -/
namespace NimbleRtos

/-- `nimble_semaphore_t` without its wait list. -/
structure Semaphore where
  count : UInt32
  maxCount : UInt32
  deriving DecidableEq, Repr

open Sched

namespace Semaphore

/-- `nimble_semaphore_init`. -/
def init (initialCount maxCount : UInt32) : Semaphore := ⟨initialCount, maxCount⟩

/-- `nimble_semaphore_take` up to its context-switch request. The status is
`none` when the caller has been put to sleep. -/
def take (id : SemaphoreId) (x : Semaphore) (s : Sched) (self : TaskId) (timeoutTicks : Tick) :
    Option (Option Status × Semaphore × Sched) :=
  if 0 < x.count then some (some .ok, { x with count := x.count - 1 }, s)
  else if timeoutTicks = noWait then some (some .timeout, x, s)
  else do
    let s ← s.insertWaiterPrioritySorted (.semaphore id) self
    let s ← s.prepareBlock self timeoutTicks
    some (none, x, s)

/-- `nimble_semaphore_take` once the sleeper runs again. -/
def takeResumed (s : Sched) (self : TaskId) : Status × Sched :=
  let s := { s with events := s.events.remove self }
  ((s.tcb self).lastWaitResult, s)

/-- The common body of `nimble_semaphore_give` and
`nimble_semaphore_give_from_isr`: hand the unit to the first waiter, or count
it up to `max_count`. Returns the waiter woken. -/
def giveUnit (id : SemaphoreId) (x : Semaphore) (s : Sched) :
    Option (Option TaskId × Semaphore × Sched) := do
  let (woken, s) ← s.wakeWaiter (.semaphore id)
  match woken with
  | some t => some (some t, x, s)
  | none =>
    if x.count < x.maxCount then some (none, { x with count := x.count + 1 }, s)
    else some (none, x, s)

/-- `nimble_semaphore_give`, which requests a context switch when it wakes. -/
def give (id : SemaphoreId) (x : Semaphore) (s : Sched) :
    Option (Option TaskId × Semaphore × Sched) := giveUnit id x s

/-- `nimble_semaphore_give_from_isr`; `*needs_yield` says whether a waiter
was woken. -/
def giveFromIsr (id : SemaphoreId) (x : Semaphore) (s : Sched) :
    Option (Bool × Option TaskId × Semaphore × Sched) := do
  let (woken, x, s) ← giveUnit id x s
  some (woken.isSome, woken, x, s)

variable {id : SemaphoreId} {x x' : Semaphore} {s s' : Sched} {self : TaskId} {timeoutTicks : Tick}

/-- The ways a take call's first critical section can end. -/
inductive Takes (id : SemaphoreId) (x : Semaphore) (s : Sched) (self : TaskId)
    (timeoutTicks : Tick) : Option Status → Semaphore → Sched → Prop where
  | counted (some_left : 0 < x.count) :
      Takes id x s self timeoutTicks (some .ok) { x with count := x.count - 1 } s
  | refused (exhausted : ¬ 0 < x.count) (hurried : timeoutTicks = noWait) :
      Takes id x s self timeoutTicks (some .timeout) x s
  | sleeps {s' : Sched} (exhausted : ¬ 0 < x.count) (patient : timeoutTicks ≠ noWait)
      (unlisted : s.events.ring self = none)
      (slept : Slept (s.enqueued (.semaphore id) self) self (s.deadline timeoutTicks) s') :
      Takes id x s self timeoutTicks none x s'

theorem take_spec {st : Option Status}
    (taken : take id x s self timeoutTicks = some (st, x', s')) :
    Takes id x s self timeoutTicks st x' s' := by
  unfold take at taken
  split at taken
  · cases taken; exact .counted ‹_›
  · split at taken
    · cases taken; exact .refused ‹_› ‹_›
    · simp only [Option.bind_eq_bind, Option.bind_eq_some_iff, insertWaiter_eq_some,
        Option.some.injEq, Prod.mk.injEq] at taken
      obtain ⟨_, ⟨unlisted, rfl⟩, _, blocked, rfl, rfl, rfl⟩ := taken
      exact .sleeps ‹_› ‹_› unlisted (prepareBlock_spec blocked)

/-- Where the unit of a give goes. -/
inductive Gives (id : SemaphoreId) (x : Semaphore) (s : Sched) :
    Option TaskId → Semaphore → Sched → Prop where
  | hands {s' : Sched} (shape : s.events.items (.semaphore id) = t :: rest) (woken : Woken s t .ok s') :
      Gives id x s (some t) x s'
  | counts (empty : s.events.items (.semaphore id) = []) (room : x.count < x.maxCount) :
      Gives id x s none { x with count := x.count + 1 } s
  | drops (empty : s.events.items (.semaphore id) = []) (full : ¬ x.count < x.maxCount) :
      Gives id x s none x s

theorem giveUnit_spec {woken : Option TaskId} (gave : giveUnit id x s = some (woken, x', s')) :
    Gives id x s woken x' s' := by
  simp only [giveUnit, Option.bind_eq_bind, Option.bind_eq_some_iff, Prod.exists] at gave
  obtain ⟨woken, s, woke, gave⟩ := gave
  cases wakeWaiter_spec woke with
  | first shape woken => cases gave; exact .hands shape woken
  | nobody empty =>
    dsimp only at gave
    split at gave
    · cases gave; exact .counts empty ‹_›
    · cases gave; exact .drops empty ‹_›

theorem giveFromIsr_spec {needsYield : Bool} {woken : Option TaskId}
    (gave : giveFromIsr id x s = some (needsYield, woken, x', s')) :
    needsYield = woken.isSome ∧ Gives id x s woken x' s' := by
  simp only [giveFromIsr, Option.bind_eq_bind, Option.bind_eq_some_iff, Prod.exists,
    Option.some.injEq, Prod.mk.injEq] at gave
  obtain ⟨_, _, _, gave, rfl, rfl, rfl, rfl⟩ := gave
  exact ⟨rfl, giveUnit_spec gave⟩

end Semaphore
end NimbleRtos
