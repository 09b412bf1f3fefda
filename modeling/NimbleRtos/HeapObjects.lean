import NimbleRtos.HeapScheduler
import NimbleRtos.Mutex
import NimbleRtos.Queue
import NimbleRtos.Semaphore

/-! mutex.c, semaphore.c, queue.c and timer.c over the nodes in memory. -/
namespace NimbleRtos
open LinkedCells LinkedCells.Cells NodeRings IntrusiveList Refinement Sched

/-! ## mutex.c -/

namespace HeapMutex

/-- The priority inheritance of `nimble_mutex_lock`. -/
def boost (s : HeapSched) (owner self : TaskId) : HeapSched :=
  if (s.tcb owner).priority < (s.tcb self).priority then s.setPriority owner (s.tcb self).priority
  else s

/-- `nimble_mutex_lock` up to its context-switch request. -/
def lock (fuel : Nat) (m : MutexId) (x : Mutex) (s : HeapSched) (self : TaskId) (timeoutTicks : Tick) :
    Option (Option Status × Mutex × HeapSched) :=
  match x.owner with
  | none => some (some .ok, { owner := some self, lockCount := 1 }, s)
  | some owner =>
    if owner = self then some (some .ok, { x with lockCount := x.lockCount + 1 }, s)
    else if timeoutTicks = noWait then some (some .timeout, x, s)
    else do
      let s := boost s owner self
      let s ← s.insertWaiterPrioritySorted fuel (.mutex m) self
      let s ← s.prepareBlock self timeoutTicks
      some (none, x, s)

/-- `nimble_mutex_lock` once the sleeper runs again. -/
def lockResumed (x : Mutex) (s : HeapSched) (self : TaskId) : Status × HeapSched :=
  if x.owner = some self then (.ok, s)
  else (.timeout, { s with cells := remove s.cells (.eventLink self) })

/-- `nimble_mutex_unlock` by the running task. -/
def unlock (m : MutexId) (x : Mutex) (s : HeapSched) (self : TaskId) :
    Option (Status × Option TaskId × Mutex × HeapSched) :=
  if x.owner ≠ some self then some (.notOwner, none, x, s)
  else
    let x := { x with lockCount := x.lockCount - 1 }
    if 0 < x.lockCount then some (.ok, none, x, s)
    else do
      let s := s.setPriority self (s.tcb self).basePriority
      let x := { x with owner := none }
      let (woken, s) ← s.wakeWaiter (.mutex m)
      match woken with
      | some t => some (.ok, some t, { owner := some t, lockCount := 1 }, s)
      | none => some (.ok, none, x, s)

end HeapMutex

/-! ## semaphore.c -/

namespace HeapSemaphore

/-- `nimble_semaphore_take` up to its context-switch request. -/
def take (fuel : Nat) (id : SemaphoreId) (x : Semaphore) (s : HeapSched) (self : TaskId)
    (timeoutTicks : Tick) : Option (Option Status × Semaphore × HeapSched) :=
  if 0 < x.count then some (some .ok, { x with count := x.count - 1 }, s)
  else if timeoutTicks = noWait then some (some .timeout, x, s)
  else do
    let s ← s.insertWaiterPrioritySorted fuel (.semaphore id) self
    let s ← s.prepareBlock self timeoutTicks
    some (none, x, s)

/-- `nimble_semaphore_take` once the sleeper runs again. -/
def takeResumed (s : HeapSched) (self : TaskId) : Status × HeapSched :=
  let s := { s with cells := remove s.cells (.eventLink self) }
  ((s.tcb self).lastWaitResult, s)

/-- The common body of `nimble_semaphore_give` and
`nimble_semaphore_give_from_isr`. -/
def giveUnit (id : SemaphoreId) (x : Semaphore) (s : HeapSched) :
    Option (Option TaskId × Semaphore × HeapSched) := do
  let (woken, s) ← s.wakeWaiter (.semaphore id)
  match woken with
  | some t => some (some t, x, s)
  | none =>
    if x.count < x.maxCount then some (none, { x with count := x.count + 1 }, s)
    else some (none, x, s)

/-- `nimble_semaphore_give`. -/
def give (id : SemaphoreId) (x : Semaphore) (s : HeapSched) :
    Option (Option TaskId × Semaphore × HeapSched) := giveUnit id x s

/-- `nimble_semaphore_give_from_isr`. -/
def giveFromIsr (id : SemaphoreId) (x : Semaphore) (s : HeapSched) :
    Option (Bool × Option TaskId × Semaphore × HeapSched) := do
  let (woken, x, s) ← giveUnit id x s
  some (woken.isSome, woken, x, s)

end HeapSemaphore

/-! ## queue.c -/

namespace HeapQueue

/-- `nimble_queue_send` up to its context-switch request. -/
def send (fuel : Nat) (q : QueueId) (x : Queue) (s : HeapSched) (self : TaskId) (item : Bytes)
    (timeoutTicks : Tick) : Option (Option Status × Option TaskId × Queue × HeapSched) :=
  if x.count < x.capacity then do
    let x ← x.copyIn item
    let (woken, s) ← s.wakeWaiter (.receivers q)
    some (some .ok, woken, x, s)
  else if timeoutTicks = noWait then some (some .full, none, x, s)
  else do
    let s ← s.insertWaiterPrioritySorted fuel (.senders q) self
    let s ← s.prepareBlock self timeoutTicks
    some (none, none, x, s)

/-- `nimble_queue_send` once the sleeper runs again. -/
def sendResumed (x : Queue) (s : HeapSched) (self : TaskId) (item : Bytes) :
    Option (Status × Queue × HeapSched) :=
  let s := { s with cells := remove s.cells (.eventLink self) }
  if (s.tcb self).lastWaitResult = .timeout then some (.timeout, x, s)
  else if x.count < x.capacity then do
    let x ← x.copyIn item
    some (.ok, x, s)
  else some (.full, x, s)

/-- `nimble_queue_receive` up to its context-switch request. -/
def receive (fuel : Nat) (q : QueueId) (x : Queue) (s : HeapSched) (self : TaskId) (timeoutTicks : Tick) :
    Option (Option Status × Bytes × Option TaskId × Queue × HeapSched) :=
  if 0 < x.count then do
    let (item, x) ← x.copyOut
    let (woken, s) ← s.wakeWaiter (.senders q)
    some (some .ok, item, woken, x, s)
  else if timeoutTicks = noWait then some (some .empty, [], none, x, s)
  else do
    let s ← s.insertWaiterPrioritySorted fuel (.receivers q) self
    let s ← s.prepareBlock self timeoutTicks
    some (none, [], none, x, s)

/-- `nimble_queue_receive` once the sleeper runs again. -/
def receiveResumed (x : Queue) (s : HeapSched) (self : TaskId) :
    Option (Status × Bytes × Queue × HeapSched) :=
  let s := { s with cells := remove s.cells (.eventLink self) }
  if (s.tcb self).lastWaitResult = .timeout then some (.timeout, [], x, s)
  else if 0 < x.count then do
    let (item, x) ← x.copyOut
    some (.ok, item, x, s)
  else some (.empty, [], x, s)

/-- `nimble_queue_send_from_isr`. -/
def sendFromIsr (q : QueueId) (x : Queue) (s : HeapSched) (item : Bytes) :
    Option (Status × Bool × Option TaskId × Queue × HeapSched) :=
  if x.capacity ≤ x.count then some (.full, false, none, x, s)
  else do
    let x ← x.copyIn item
    let (woken, s) ← s.wakeWaiter (.receivers q)
    some (.ok, woken.isSome, woken, x, s)

end HeapQueue

/-! ## timer.c -/

/-- Every timer, over the nodes in memory. -/
structure HeapTimers where
  timer : TimerId → Timer
  cells : Cells Place

namespace HeapTimers

def setTimer (ts : HeapTimers) (x : TimerId) (timer : Timer) : HeapTimers :=
  { ts with timer := Function.update ts.timer x timer }

/-- The first critical section of the loop in `timer_task_fn`. -/
def waitTicks (ts : HeapTimers) (now : Tick) : Option Tick :=
  if isEmpty ts.cells .activeTimers then some waitForever
  else do
    let head ← (ts.cells.next .activeTimers).timer
    let delta := (ts.timer head).expiryTick - now
    some (if 0 < delta.toInt32 then delta else noWait)

/-- The test of `insert_sorted_by_expiry` on the timer around a node. -/
def expiresLater (ts : HeapTimers) (x : TimerId) (node : Place) : Bool :=
  (node.timer.map fun other =>
    decide (((ts.timer x).expiryTick - (ts.timer other).expiryTick).toInt32 < 0)).getD false

/-- `insert_sorted_by_expiry`. -/
def insertSortedByExpiry (ts : HeapTimers) (fuel : Nat) (x : TimerId) : Option HeapTimers := do
  let cells ← insertBefore ts.cells (ts.expiresLater x) fuel .activeTimers (.timerLink x)
  some { ts with cells }

/-- `nimble_timer_init`. -/
def timerInit (ts : HeapTimers) (x : TimerId) (periodTicks : Tick) (isPeriodic : Bool)
    (callback arg : UInt32) : HeapTimers :=
  { ts with cells := init ts.cells (.timerLink x) }.setTimer x { periodTicks, isPeriodic, callback, arg }

/-- The critical section of `nimble_timer_start`. -/
def timerStart (ts : HeapTimers) (fuel : Nat) (now : Tick) (x : TimerId) : Option (Bool × HeapTimers) := do
  let ts := if (ts.timer x).isActive then { ts with cells := remove ts.cells (.timerLink x) } else ts
  let timer := ts.timer x
  let ts := ts.setTimer x { timer with expiryTick := now + timer.periodTicks, isActive := true }
  let ts ← ts.insertSortedByExpiry fuel x
  some (decide (ts.cells.next .activeTimers = .timerLink x), ts)

/-- `nimble_timer_stop`. -/
def timerStop (ts : HeapTimers) (x : TimerId) : HeapTimers :=
  if (ts.timer x).isActive then
    { ts with cells := remove ts.cells (.timerLink x) }.setTimer x { ts.timer x with isActive := false }
  else ts

/-- The first critical section of `nimble_timer_reset`. -/
def timerReset (ts : HeapTimers) (x : TimerId) (newPeriodTicks : Tick) : HeapTimers :=
  ts.setTimer x { ts.timer x with periodTicks := newPeriodTicks }

/-- The critical section of the expiry loop in `timer_task_fn`. -/
def expire (ts : HeapTimers) (fuel : Nat) (now : Tick) : Option (Expiry × HeapTimers) :=
  if isEmpty ts.cells .activeTimers then some (.idle, ts)
  else do
    let head ← (ts.cells.next .activeTimers).timer
    let timer := ts.timer head
    if 0 < (timer.expiryTick - now).toInt32 then some (.idle, ts)
    else do
      let ts := { ts with cells := remove ts.cells (.timerLink head) }
      let fired := Expiry.fires head timer.callback timer.arg
      if timer.isPeriodic then do
        let next := timer.expiryTick + timer.periodTicks
        let next := if (next - now).toInt32 < 0 then now + timer.periodTicks else next
        let ts := ts.setTimer head { timer with expiryTick := next }
        let ts ← ts.insertSortedByExpiry fuel head
        some (fired, ts)
      else some (fired, ts.setTimer head { timer with isActive := false })

end HeapTimers

/-! ## The refinement -/

section
variable {live : Place → Prop} {active : Rings Unit TimerId} {m : Cells Place} {s : Sched} {self : TaskId}

namespace Holds

/-- A caller put to sleep on a wait list. -/
theorem sleeps {A B : Type} {R : A → B → Prop} {f : HeapSched → A} {g : Sched → B}
    (holds : Holds live active m s) (alive : live (.link self)) (h : WaitList) (timeoutTicks : Tick)
    (related : ∀ h s, OnHeap live active h s → R (f h) (g s)) :
    Refines R
      (fun fuel => do
        let s ← (s.onHeap m).insertWaiterPrioritySorted fuel h self
        let s ← s.prepareBlock self timeoutTicks
        some (f s))
      (do
        let s ← s.insertWaiterPrioritySorted h self
        let s ← s.prepareBlock self timeoutTicks
        some (g s)) := by
  refine Refines.bind (holds.insertWaiter alive h) ?_
  rintro _ s' - ⟨m', rfl, holds⟩
  refine Refines.bind (holds.prepareBlock alive timeoutTicks) ?_
  exact fun _ _ _ onHeap => .pure (related _ _ onHeap)

/-- A woken caller detaches itself. -/
theorem detached (holds : Holds live active m s) (alive : live (.link self)) :
    Holds live active (IntrusiveList.remove m (.eventLink self)) { s with events := s.events.remove self } :=
  { holds with lists := holds.lists.removeEvent alive }

theorem lock (holds : Holds live active m s) (alive : live (.link self)) (id : MutexId) (x : Mutex)
    (timeoutTicks : Tick) :
    Refines (Beside (Beside (OnHeap live active)))
      (fun fuel => HeapMutex.lock fuel id x (s.onHeap m) self timeoutTicks)
      (Mutex.lock id x s self timeoutTicks) := by
  unfold HeapMutex.lock Mutex.lock
  cases owned : x.owner with
  | none => exact .pure ⟨_, _, m, rfl, holds⟩
  | some owner =>
    refine Refines.ite (fun _ => .pure ⟨_, _, m, rfl, holds⟩) fun _ => ?_
    refine Refines.ite (fun _ => .pure ⟨_, _, m, rfl, holds⟩) fun _ => ?_
    obtain ⟨boosted, holds⟩ : HeapMutex.boost (s.onHeap m) owner self = (Mutex.boost s owner self).onHeap m ∧
        Holds live active m (Mutex.boost s owner self) := by
      by_cases lower : (s.tcb owner).priority < (s.tcb self).priority
      · have first : HeapMutex.boost (s.onHeap m) owner self = _ := if_pos lower
        have second : Mutex.boost s owner self = _ := if_pos lower
        rw [first, second]
        exact ⟨rfl, holds.setPriority (holds.bounded self)⟩
      · have first : HeapMutex.boost (s.onHeap m) owner self = _ := if_neg lower
        have second : Mutex.boost s owner self = _ := if_neg lower
        rw [first, second]
        exact ⟨rfl, holds⟩
    simp only [boosted]
    exact holds.sleeps alive _ _ fun _ _ onHeap => ⟨_, _, onHeap⟩

theorem lockResumed (holds : Holds live active m s) (alive : live (.link self)) (x : Mutex) :
    Beside (OnHeap live active) (HeapMutex.lockResumed x (s.onHeap m) self) (Mutex.lockResumed x s self) := by
  unfold HeapMutex.lockResumed Mutex.lockResumed
  by_cases mine : x.owner = some self
  · simp only [mine, if_true]
    exact ⟨_, m, rfl, holds⟩
  · simp only [mine, if_false]
    exact ⟨_, _, rfl, holds.detached alive⟩

theorem unlock (holds : Holds live active m s) (id : MutexId) (x : Mutex) (self : TaskId) :
    Refines (Beside (Beside (Beside (OnHeap live active)))) (fun _ => HeapMutex.unlock id x (s.onHeap m) self)
      (Mutex.unlock id x s self) := by
  unfold HeapMutex.unlock Mutex.unlock
  refine Refines.ite (fun _ => .pure ⟨_, _, _, m, rfl, holds⟩) fun _ => ?_
  refine Refines.ite (fun _ => .pure ⟨_, _, _, m, rfl, holds⟩) fun _ => ?_
  have restored : Holds live active m (s.setPriority self (s.tcb self).basePriority) :=
    holds.setPriority (holds.base self)
  refine Refines.bind (restored.wakeWaiter (.mutex id)) ?_
  rintro _ _ - ⟨woken, onHeap⟩
  cases woken with
  | none => exact .pure ⟨_, _, _, onHeap⟩
  | some t => exact .pure ⟨_, _, _, onHeap⟩

theorem take (holds : Holds live active m s) (alive : live (.link self)) (id : SemaphoreId) (x : Semaphore)
    (timeoutTicks : Tick) :
    Refines (Beside (Beside (OnHeap live active)))
      (fun fuel => HeapSemaphore.take fuel id x (s.onHeap m) self timeoutTicks)
      (Semaphore.take id x s self timeoutTicks) := by
  unfold HeapSemaphore.take Semaphore.take
  refine Refines.ite (fun _ => .pure ⟨_, _, m, rfl, holds⟩) fun _ => ?_
  refine Refines.ite (fun _ => .pure ⟨_, _, m, rfl, holds⟩) fun _ => ?_
  exact holds.sleeps alive _ _ fun _ _ onHeap => ⟨_, _, onHeap⟩

theorem giveUnit (holds : Holds live active m s) (id : SemaphoreId) (x : Semaphore) :
    Refines (Beside (Beside (OnHeap live active))) (fun _ => HeapSemaphore.giveUnit id x (s.onHeap m))
      (Semaphore.giveUnit id x s) := by
  unfold HeapSemaphore.giveUnit Semaphore.giveUnit
  refine Refines.bind (holds.wakeWaiter (.semaphore id)) ?_
  rintro _ _ - ⟨woken, onHeap⟩
  cases woken with
  | none => exact Refines.ite (fun _ => .pure ⟨_, _, onHeap⟩) fun _ => .pure ⟨_, _, onHeap⟩
  | some t => exact .pure ⟨_, _, onHeap⟩

theorem giveFromIsr (holds : Holds live active m s) (id : SemaphoreId) (x : Semaphore) :
    Refines (Beside (Beside (Beside (OnHeap live active))))
      (fun _ => HeapSemaphore.giveFromIsr id x (s.onHeap m)) (Semaphore.giveFromIsr id x s) := by
  refine Refines.bind (holds.giveUnit id x) ?_
  rintro _ _ - ⟨woken, x, onHeap⟩
  exact .pure ⟨_, _, _, onHeap⟩

theorem send (holds : Holds live active m s) (alive : live (.link self)) (q : QueueId) (x : Queue)
    (item : Bytes) (timeoutTicks : Tick) :
    Refines (Beside (Beside (Beside (OnHeap live active))))
      (fun fuel => HeapQueue.send fuel q x (s.onHeap m) self item timeoutTicks)
      (Queue.send q x s self item timeoutTicks) := by
  unfold HeapQueue.send Queue.send
  refine Refines.ite (fun _ => ?_) fun _ => ?_
  · refine Refines.bind (Refines.self (x.copyIn item)) ?_
    rintro x _ - rfl
    refine Refines.bind (holds.wakeWaiter (.receivers q)) ?_
    rintro _ _ - ⟨woken, onHeap⟩
    exact .pure ⟨_, _, _, onHeap⟩
  · refine Refines.ite (fun _ => .pure ⟨_, _, _, m, rfl, holds⟩) fun _ => ?_
    exact holds.sleeps alive _ _ fun _ _ onHeap => ⟨_, _, _, onHeap⟩

theorem sendResumed (holds : Holds live active m s) (alive : live (.link self)) (x : Queue) (item : Bytes) :
    Refines (Beside (Beside (OnHeap live active))) (fun _ => HeapQueue.sendResumed x (s.onHeap m) self item)
      (Queue.sendResumed x s self item) := by
  have detached := holds.detached alive
  unfold HeapQueue.sendResumed Queue.sendResumed
  refine Refines.ite (fun _ => .pure ⟨_, _, _, rfl, detached⟩) fun _ => ?_
  refine Refines.ite (fun _ => ?_) fun _ => .pure ⟨_, _, _, rfl, detached⟩
  refine Refines.bind (Refines.self (x.copyIn item)) ?_
  rintro x _ - rfl
  exact .pure ⟨_, _, _, rfl, detached⟩

theorem receive (holds : Holds live active m s) (alive : live (.link self)) (q : QueueId) (x : Queue)
    (timeoutTicks : Tick) :
    Refines (Beside (Beside (Beside (Beside (OnHeap live active)))))
      (fun fuel => HeapQueue.receive fuel q x (s.onHeap m) self timeoutTicks)
      (Queue.receive q x s self timeoutTicks) := by
  unfold HeapQueue.receive Queue.receive
  refine Refines.ite (fun _ => ?_) fun _ => ?_
  · refine Refines.bind (Refines.self x.copyOut) ?_
    rintro ⟨item, x⟩ _ - rfl
    refine Refines.bind (holds.wakeWaiter (.senders q)) ?_
    rintro _ _ - ⟨woken, onHeap⟩
    exact .pure ⟨_, _, _, _, onHeap⟩
  · refine Refines.ite (fun _ => .pure ⟨_, _, _, _, m, rfl, holds⟩) fun _ => ?_
    exact holds.sleeps alive _ _ fun _ _ onHeap => ⟨_, _, _, _, onHeap⟩

theorem receiveResumed (holds : Holds live active m s) (alive : live (.link self)) (x : Queue) :
    Refines (Beside (Beside (Beside (OnHeap live active)))) (fun _ => HeapQueue.receiveResumed x (s.onHeap m) self)
      (Queue.receiveResumed x s self) := by
  have detached := holds.detached alive
  unfold HeapQueue.receiveResumed Queue.receiveResumed
  refine Refines.ite (fun _ => .pure ⟨_, _, _, _, rfl, detached⟩) fun _ => ?_
  refine Refines.ite (fun _ => ?_) fun _ => .pure ⟨_, _, _, _, rfl, detached⟩
  refine Refines.bind (Refines.self x.copyOut) ?_
  rintro ⟨item, x⟩ _ - rfl
  exact .pure ⟨_, _, _, _, rfl, detached⟩

theorem sendFromIsr (holds : Holds live active m s) (q : QueueId) (x : Queue) (item : Bytes) :
    Refines (Beside (Beside (Beside (Beside (OnHeap live active)))))
      (fun _ => HeapQueue.sendFromIsr q x (s.onHeap m) item) (Queue.sendFromIsr q x s item) := by
  unfold HeapQueue.sendFromIsr Queue.sendFromIsr
  refine Refines.ite (fun _ => .pure ⟨_, _, _, _, m, rfl, holds⟩) fun _ => ?_
  refine Refines.bind (Refines.self (x.copyIn item)) ?_
  rintro x _ - rfl
  refine Refines.bind (holds.wakeWaiter (.receivers q)) ?_
  rintro _ _ - ⟨woken, onHeap⟩
  exact .pure ⟨_, _, _, _, onHeap⟩

end Holds
end

/-! ### timer.c -/

/-- The timers with their list in `m`. -/
def Timers.onHeap (ts : Timers) (m : Cells Place) : HeapTimers := ⟨ts.timer, m⟩

/-- `m` holds the active timers beside the lists of the scheduler, and the node
of every active timer is initialised. -/
structure TimersHold (links : Rings ListHead TaskId) (events : Rings WaitList TaskId) (live : Place → Prop)
    (m : Cells Place) (ts : Timers) : Prop where
  lists : Lists live m links events ts.active
  started : ∀ x, (ts.timer x).isActive = true → live (.timerLink x)

/-- The timers on the heap are `ts` with their list in some memory, where at
least the nodes of `live` are initialised. -/
def TimersOnHeap (links : Rings ListHead TaskId) (events : Rings WaitList TaskId) (live : Place → Prop)
    (h : HeapTimers) (ts : Timers) : Prop :=
  ∃ live' m, (∀ c, live c → live' c) ∧ h = ts.onHeap m ∧ TimersHold links events live' m ts

namespace TimersHold
variable {links : Rings ListHead TaskId} {events : Rings WaitList TaskId} {live : Place → Prop}
  {m m' : Cells Place} {ts : Timers} {x : TimerId}

theorem onHeap (holds : TimersHold links events live m ts) : TimersOnHeap links events live (ts.onHeap m) ts :=
  ⟨live, m, fun _ => id, rfl, holds⟩

theorem waitTicks (holds : TimersHold links events live m ts) (now : Tick) :
    (ts.onHeap m).waitTicks now = some (ts.waitTicks now) := by
  have empty := holds.lists.timers_empty
  unfold HeapTimers.waitTicks Timers.waitTicks
  cases shape : ts.active.items () with
  | nil => simp only [Timers.onHeap, empty.mpr shape, if_true]
  | cons head rest =>
    have first := holds.lists.timer_chain.next_eq
    rw [shape] at first
    have occupied : isEmpty m .activeTimers = false := by simpa [shape] using empty
    simp only [Timers.onHeap, occupied, Bool.false_eq_true, if_false, first, List.map_cons, List.headD_cons,
      Place.timer, Option.bind_eq_bind, Option.bind_some]
    rfl

/-- `nimble_list_remove` of a listed timer. -/
theorem unlinked (holds : TimersHold links events live m ts) (alive : live (.timerLink x)) :
    TimersHold links events live (remove m (.timerLink x)) { ts with active := ts.active.remove x } :=
  ⟨holds.lists.removeTimer alive, holds.started⟩

/-- A timer's fields are written; it becomes active only where its node is
initialised. -/
theorem setTimer (holds : TimersHold links events live m ts) {timer : Timer}
    (known : timer.isActive = true → live (.timerLink x)) : TimersHold links events live m (ts.setTimer x timer) := by
  refine ⟨holds.lists, fun y now => ?_⟩
  by_cases same : y = x
  · subst same
    exact known (by simpa [Timers.setTimer] using now)
  · exact holds.started y (by simpa [Timers.setTimer, same] using now)

/-- `insert_sorted_by_expiry`, which initialises the node. -/
theorem inserts (lists : Lists live m links events ts.active)
    (started : ∀ y, y ≠ x → (ts.timer y).isActive = true → live (.timerLink y)) :
    Refines (TimersOnHeap links events live) (fun fuel => (ts.onHeap m).insertSortedByExpiry fuel x)
      (ts.insertSortedByExpiry x) := by
  intro ts' result
  simp only [Timers.insertSortedByExpiry, Option.bind_eq_bind, Option.bind_eq_some_iff, Rings.insert_eq_some,
    Option.some.injEq] at result
  obtain ⟨_, ⟨free, rfl⟩, rfl⟩ := result
  obtain ⟨m', ended, linked⟩ := lists.insertTimer free ((ts.onHeap m).expiresLater x)
  refine ⟨_, ended.bind (ends_pure _), Grown live (.timerLink x), m', fun _ => .inr, rfl, linked, ?_⟩
  intro y now
  by_cases same : y = x
  · exact .inl (by rw [same])
  · exact .inr (started y same now)

theorem timerInit (holds : TimersHold links events live m ts) (x : TimerId) (periodTicks : Tick)
    (isPeriodic : Bool) (callback arg : UInt32) :
    Refines (TimersOnHeap links events live)
      (fun _ => some ((ts.onHeap m).timerInit x periodTicks isPeriodic callback arg))
      (ts.timerInit x periodTicks isPeriodic callback arg) := by
  intro ts' result
  simp only [Timers.timerInit] at result
  split at result
  · rename_i free
    cases result
    refine ⟨_, ends_pure _, Grown live (.timerLink x), _, fun _ => .inr, rfl, holds.lists.initTimer free, ?_⟩
    intro y now
    by_cases same : y = x
    · exact .inl (by rw [same])
    · exact .inr (holds.started y (by simpa [Timers.setTimer, same] using now))
  · cases result

/-- Whether the timer became the new head. -/
theorem head_iff (lists : Lists live m links events ts.active) :
    m.next .activeTimers = .timerLink x ↔ (ts.active.items ()).head? = some x := by
  rw [lists.timer_chain.next_eq]
  cases ts.active.items () with
  | nil => simp
  | cons head rest => simp

/-- A timer is written and put back on the list. -/
theorem relinks (holds : TimersHold links events live m ts) (timer : Timer) :
    Refines (TimersOnHeap links events live)
      (fun fuel => ((ts.onHeap m).setTimer x timer).insertSortedByExpiry fuel x)
      ((ts.setTimer x timer).insertSortedByExpiry x) := by
  have lists : Lists live m links events (ts.setTimer x timer).active := holds.lists
  have refined := inserts (x := x) lists fun y other now =>
    holds.started y (by simpa [Timers.setTimer, other] using now)
  exact refined

/-- The end of `nimble_timer_start`. -/
theorem starts (holds : TimersHold links events live m ts) (timer : Timer) :
    Refines (Beside (TimersOnHeap links events live))
      (fun fuel => do
        let ts ← ((ts.onHeap m).setTimer x timer).insertSortedByExpiry fuel x
        some (decide (ts.cells.next .activeTimers = .timerLink x), ts))
      (do
        let ts ← (ts.setTimer x timer).insertSortedByExpiry x
        some (decide ((ts.active.items ()).head? = some x), ts)) := by
  refine Refines.bind (holds.relinks timer) ?_
  rintro _ ts' - ⟨live', m', grown, rfl, holds⟩
  have head : decide ((ts'.onHeap m').cells.next .activeTimers = .timerLink x) =
      decide ((ts'.active.items ()).head? = some x) := decide_eq_decide.mpr (head_iff holds.lists)
  rw [head]
  exact .pure ⟨_, live', m', grown, rfl, holds⟩

theorem timerStart (holds : TimersHold links events live m ts) (now : Tick) (x : TimerId) :
    Refines (Beside (TimersOnHeap links events live)) (fun fuel => (ts.onHeap m).timerStart fuel now x)
      (ts.timerStart now x) := by
  cases active : (ts.timer x).isActive with
  | true =>
    simp only [HeapTimers.timerStart, Timers.timerStart, Timers.onHeap, active, if_true]
    exact (holds.unlinked (holds.started x active)).starts _
  | false =>
    simp only [HeapTimers.timerStart, Timers.timerStart, Timers.onHeap, active, Bool.false_eq_true, if_false]
    exact holds.starts _

theorem timerStop (holds : TimersHold links events live m ts) (x : TimerId) :
    TimersOnHeap links events live ((ts.onHeap m).timerStop x) (ts.timerStop x) := by
  cases active : (ts.timer x).isActive with
  | true =>
    simp only [HeapTimers.timerStop, Timers.timerStop, Timers.onHeap, active, if_true]
    exact ((holds.unlinked (holds.started x active)).setTimer (by simp)).onHeap
  | false =>
    simp only [HeapTimers.timerStop, Timers.timerStop, Timers.onHeap, active, Bool.false_eq_true, if_false]
    exact holds.onHeap

theorem timerReset (holds : TimersHold links events live m ts) (x : TimerId) (newPeriodTicks : Tick) :
    TimersOnHeap links events live ((ts.onHeap m).timerReset x newPeriodTicks) (ts.timerReset x newPeriodTicks) := by
  have written : TimersHold links events live m (ts.timerReset x newPeriodTicks) := holds.setTimer (holds.started x)
  exact written.onHeap

theorem expire (holds : TimersHold links events live m ts) (now : Tick) :
    Refines (Beside (TimersOnHeap links events live)) (fun fuel => (ts.onHeap m).expire fuel now)
      (ts.expire now) := by
  have empty := holds.lists.timers_empty
  unfold HeapTimers.expire Timers.expire
  cases shape : ts.active.items () with
  | nil =>
    simp only [Timers.onHeap, empty.mpr shape, if_true]
    exact .pure ⟨_, holds.onHeap⟩
  | cons head rest =>
    have first := holds.lists.timer_chain.next_eq
    rw [shape] at first
    have occupied : isEmpty m .activeTimers = false := by simpa [shape] using empty
    have alive : live (.timerLink head) := holds.lists.active.live_node (Rings.ring_of_cons shape)
    simp only [Timers.onHeap, occupied, Bool.false_eq_true, if_false, first, List.map_cons, List.headD_cons,
      Place.timer, Option.bind_eq_bind, Option.bind_some]
    refine Refines.ite (fun _ => .pure ⟨_, holds.onHeap⟩) fun _ => ?_
    have unlinked := holds.unlinked alive
    refine Refines.ite (fun _ => ?_) fun _ => ?_
    · refine Refines.bind (unlinked.relinks _) ?_
      exact fun _ _ _ onHeap => .pure ⟨_, onHeap⟩
    · exact .pure ⟨_, (unlinked.setTimer (by simp)).onHeap⟩

end TimersHold
end NimbleRtos
