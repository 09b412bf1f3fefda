import NimbleRtos.SchedulerProofs

/-! mutex.c, one definition for each critical section. `waiters` of mutex `m`
is the ring at `WaitList.mutex m`. -/
namespace NimbleRtos

/-- `nimble_mutex_t` without its wait list. -/
structure Mutex where
  owner : Option TaskId := none
  lockCount : UInt32 := 0
  deriving DecidableEq, Repr

open Sched

namespace Mutex

/-- `nimble_mutex_init`. -/
def init : Mutex := {}

/-- The priority inheritance of `nimble_mutex_lock`: one comparison, one
assignment to the owner's TCB. -/
def boost (s : Sched) (owner self : TaskId) : Sched :=
  if (s.tcb owner).priority < (s.tcb self).priority then s.setPriority owner (s.tcb self).priority
  else s

/-- `nimble_mutex_lock` up to its context-switch request. The status is `none`
when the caller has been put to sleep. -/
def lock (m : MutexId) (x : Mutex) (s : Sched) (self : TaskId) (timeoutTicks : Tick) :
    Option (Option Status × Mutex × Sched) :=
  match x.owner with
  | none => some (some .ok, { owner := some self, lockCount := 1 }, s)
  | some owner =>
    if owner = self then some (some .ok, { x with lockCount := x.lockCount + 1 }, s)
    else if timeoutTicks = noWait then some (some .timeout, x, s)
    else do
      let s := boost s owner self
      let s ← s.insertWaiterPrioritySorted (.mutex m) self
      let s ← s.prepareBlock self timeoutTicks
      some (none, x, s)

/-- `nimble_mutex_lock` once the sleeper runs again. -/
def lockResumed (x : Mutex) (s : Sched) (self : TaskId) : Status × Sched :=
  if x.owner = some self then (.ok, s)
  else (.timeout, { s with events := s.events.remove self })

/-- `nimble_mutex_unlock` by the running task, with the waiter it woke. -/
def unlock (m : MutexId) (x : Mutex) (s : Sched) (self : TaskId) :
    Option (Status × Option TaskId × Mutex × Sched) :=
  if x.owner ≠ some self then some (.notOwner, none, x, s)
  else
    let x := { x with lockCount := x.lockCount - 1 }
    if 0 < x.lockCount then some (.ok, none, x, s)
    else do
      let s := s.setPriority self (s.tcb self).basePriority
      let x := { x with owner := none }
      let (woken, s) ← s.wakeWaiter (.mutex m)
      match woken with
      | some t => some (.ok, some t, { owner := some t, lockCount := 1 }, s)
      | none => some (.ok, none, x, s)

variable {m : MutexId} {x x' : Mutex} {s s' : Sched} {self : TaskId} {timeoutTicks : Tick}

/-- The ways a lock call's first critical section can end. -/
inductive Locks (m : MutexId) (x : Mutex) (s : Sched) (self : TaskId) (timeoutTicks : Tick) :
    Option Status → Mutex → Sched → Prop where
  | free (unowned : x.owner = none) : Locks m x s self timeoutTicks (some .ok) ⟨some self, 1⟩ s
  | again (mine : x.owner = some self) :
      Locks m x s self timeoutTicks (some .ok) { x with lockCount := x.lockCount + 1 } s
  | refused {holder : TaskId} (owned : x.owner = some holder) (other : holder ≠ self)
      (hurried : timeoutTicks = noWait) :
      Locks m x s self timeoutTicks (some .timeout) x s
  | sleeps {holder : TaskId} {s' : Sched} (owned : x.owner = some holder) (other : holder ≠ self)
      (patient : timeoutTicks ≠ noWait) (unlisted : s.events.ring self = none)
      (slept : Slept ((boost s holder self).enqueued (.mutex m) self) self
        (s.deadline timeoutTicks) s') :
      Locks m x s self timeoutTicks none x s'

@[simp] theorem boost_events (s : Sched) (owner self : TaskId) :
    (boost s owner self).events = s.events := by unfold boost; split <;> rfl

theorem boost_rest (s : Sched) (owner self : TaskId) : SameRest s (boost s owner self) := by
  unfold boost; split <;> exact ⟨rfl, rfl, rfl⟩

theorem lock_spec {st : Option Status}
    (locked : lock m x s self timeoutTicks = some (st, x', s')) :
    Locks m x s self timeoutTicks st x' s' := by
  unfold lock at locked
  split at locked
  · cases locked; exact .free ‹_›
  · rename_i owner owned
    split at locked
    · rename_i mine
      cases locked
      exact .again (mine ▸ owned)
    · rename_i other
      split at locked
      · cases locked; exact .refused owned other ‹_›
      · rename_i patient
        simp only [Option.bind_eq_bind, Option.bind_eq_some_iff, insertWaiter_eq_some,
          Option.some.injEq, Prod.mk.injEq] at locked
        obtain ⟨_, ⟨unlisted, rfl⟩, _, blocked, rfl, rfl, rfl⟩ := locked
        have slept := prepareBlock_spec blocked
        have same : ((boost s owner self).enqueued (.mutex m) self).deadline timeoutTicks =
            s.deadline timeoutTicks := by
          simp [deadline, enqueued, (boost_rest s owner self).tick]
        exact .sleeps owned other patient (by simpa using unlisted) (same ▸ slept)

/-- The unlocker's priority restored. -/
def restored (s : Sched) (self : TaskId) : Sched := s.setPriority self (s.tcb self).basePriority

/-- The ways an unlock call can end. -/
inductive Unlocks (m : MutexId) (x : Mutex) (s : Sched) (self : TaskId) :
    Status → Option TaskId → Mutex → Sched → Prop where
  | notOwner (other : x.owner ≠ some self) : Unlocks m x s self .notOwner none x s
  | held (mine : x.owner = some self) (deep : 0 < x.lockCount - 1) :
      Unlocks m x s self .ok none { x with lockCount := x.lockCount - 1 } s
  | frees (mine : x.owner = some self) (last : x.lockCount - 1 = 0)
      (empty : s.events.items (.mutex m) = []) :
      Unlocks m x s self .ok none ⟨none, 0⟩ (restored s self)
  | hands {s' : Sched} (mine : x.owner = some self) (last : x.lockCount - 1 = 0)
      (shape : s.events.items (.mutex m) = t :: rest) (woken : Woken (restored s self) t .ok s') :
      Unlocks m x s self .ok (some t) ⟨some t, 1⟩ s'

theorem unlock_spec {st : Status} {woken : Option TaskId}
    (unlocked : unlock m x s self = some (st, woken, x', s')) :
    Unlocks m x s self st woken x' s' := by
  unfold unlock at unlocked
  split at unlocked
  · cases unlocked; exact .notOwner ‹_›
  · rename_i mine
    have mine : x.owner = some self := by simpa using mine
    dsimp only at unlocked
    split at unlocked
    · cases unlocked; exact .held mine ‹_›
    · rename_i last
      have last : x.lockCount - 1 = 0 := by
        rw [← UInt32.toNat_inj]
        simpa [UInt32.lt_iff_toNat_lt] using last
      simp only [Option.bind_eq_bind, Option.bind_eq_some_iff, Prod.exists] at unlocked
      obtain ⟨woken, s, woke, unlocked⟩ := unlocked
      rw [last] at unlocked
      cases wakeWaiter_spec woke with
      | nobody empty => cases unlocked; exact .frees mine last empty
      | first shape woken => cases unlocked; exact .hands mine last shape woken

end Mutex
end NimbleRtos
