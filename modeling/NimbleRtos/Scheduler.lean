import NimbleRtos.Types

/-! The scheduler core, scheduler.c, and the task operations of task.c, each
at the granularity of one critical section. A function has no result where
the source has no defined behaviour: a node inserted while already threaded,
`__builtin_clz(0)`, or a list head taken for a TCB. -/
namespace NimbleRtos
open NodeRings SerialTime

namespace Sched

/-- `nimble_scheduler_add_ready`. -/
def addReady (s : Sched) (t : TaskId) : Option Sched := do
  let s := s.setState t .ready
  let links ← s.links.insertTail (.ready (s.tcb t).priority) t
  some { s with links, readyBitmap := s.readyBitmap ||| (1#32 <<< (s.tcb t).priority) }

/-- `nimble_scheduler_remove`: the node leaves whichever list it is on, and
the bit of the task's present priority is cleared if that list is empty. -/
def remove (s : Sched) (t : TaskId) : Sched :=
  let prio := (s.tcb t).priority
  let s := { s with links := s.links.remove t }
  if (s.links.items (.ready prio)).isEmpty then
    { s with readyBitmap := s.readyBitmap &&& ~~~(1#32 <<< prio) }
  else s

/-- `nimble_scheduler_block_current_delay`. -/
def blockCurrentDelay (s : Sched) (t : TaskId) (wakeTick : Tick) : Option Sched := do
  let s := s.remove t
  let s := s.setTcb t { s.tcb t with wakeTick, state := .blocked }
  let links ← s.links.insertTail .delayed t
  some { s with links }

/-- `nimble_scheduler_prepare_block`: with `NIMBLE_WAIT_FOREVER` the `link` is
left self-linked. -/
def prepareBlock (s : Sched) (t : TaskId) (timeoutTicks : Tick) : Option Sched :=
  let s := s.remove t
  let s := s.setState t .blocked
  if timeoutTicks ≠ waitForever then do
    let s := s.setTcb t { s.tcb t with wakeTick := s.tickCount + timeoutTicks }
    let links ← s.links.insertTail .delayed t
    some { s with links }
  else some s

/-- `nimble_scheduler_wake_waiter`, with the TCB it returns. -/
def wakeWaiter (s : Sched) (waitList : WaitList) : Option (Option TaskId × Sched) :=
  match s.events.items waitList with
  | [] => some (none, s)
  | t :: _ => do
    let s := { s with events := s.events.remove t, links := s.links.remove t }
    let s := s.setTcb t { s.tcb t with lastWaitResult := .ok }
    let s ← s.addReady t
    some (some t, s)

/-- `insert_waiter_priority_sorted`, the same code in mutex.c, semaphore.c and
queue.c: before the first waiter of lower priority. -/
def insertWaiterPrioritySorted (s : Sched) (waiters : WaitList) (t : TaskId) : Option Sched := do
  let events ← s.events.insert
    (fun other => decide ((s.tcb other).priority < (s.tcb t).priority)) waiters t
  some { s with events }

/-- `highest_set_bit`: `31 - __builtin_clz(bitmap)`. -/
def highestSetBit (bitmap : BitVec 32) : Nat := 31 - bitmap.clz.toNat

/-- The first statement of `nimble_scheduler_select_next`: a task that is
still running goes to the tail of its own ready list. -/
def requeueCurrent (s : Sched) : Option Sched :=
  match s.current with
  | some c => if (s.tcb c).state = .running then s.addReady c else some s
  | none => some s

/-- `nimble_scheduler_select_next`. -/
def selectNext (s : Sched) : Option (TaskId × Sched) := do
  let s ← s.requeueCurrent
  if s.readyBitmap = 0 then none
  else
    match s.links.items (.ready (highestSetBit s.readyBitmap)) with
    | [] => none
    | next :: _ =>
      let s := s.remove next
      let s := s.setState next .running
      some (next, { s with next := some next })

/-- The test of the delayed-list scan: `(int32_t)(g_tick_count - wake_tick) >= 0`. -/
def due (s : Sched) (t : TaskId) : Bool := reached s.tickCount (s.tcb t).wakeTick

/-- The scan of `nimble_scheduler_tick`. The successor is read before a node
is unlinked and only the visited node leaves the list, so the scan visits the
list as it stood at entry. -/
def tickScan : List TaskId → Sched → Option Sched
  | [], s => some s
  | t :: rest, s =>
    if s.due t then do
      let s := { s with links := s.links.remove t, events := s.events.remove t }
      let s := s.setTcb t { s.tcb t with lastWaitResult := .timeout }
      let s ← s.addReady t
      tickScan rest s
    else tickScan rest s

/-- `nimble_scheduler_tick` up to its context-switch request. -/
def tick (s : Sched) : Option Sched :=
  let s := { s with tickCount := s.tickCount + 1 }
  tickScan (s.links.items .delayed) s

/-- The tasks the next tick wakes. -/
def expired (s : Sched) : List TaskId :=
  (s.links.items .delayed).filter { s with tickCount := s.tickCount + 1 }.due

/-- A switch to `t` in place of the task `nimble_scheduler_select_next` finds,
for properties that hold whatever order ready tasks run in. -/
def dispatch (s : Sched) (t : TaskId) : Option Sched := do
  let s ← s.requeueCurrent
  if (s.tcb t).state = .ready then
    let s := s.remove t
    let s := s.setState t .running
    some { s with next := some t }
  else none

/-- The arguments of `nimble_task_create` that it reads, pointers as addresses
with 0 for `NULL`. -/
structure TaskArgs where
  tcb : Option TaskId
  fn : UInt32
  stackBase : UInt32
  stackWords : UInt32
  priority : Nat
  deriving DecidableEq, Repr

/-- `nimble_task_create`, less the stack frame and the name. -/
def taskCreate (s : Sched) (a : TaskArgs) : Option (Status × Sched) :=
  match a.tcb with
  | none => some (.invalidArg, s)
  | some t =>
    if a.fn = 0 ∨ a.stackBase = 0 then some (.invalidArg, s)
    else if a.stackWords < minStackWords then some (.invalidArg, s)
    else if maxPriorities ≤ a.priority then some (.invalidArg, s)
    else do
      let s := { s with tasks := s.tasks ++ [t] }
      let s := s.setTcb t { priority := a.priority, basePriority := a.priority }
      let s ← s.addReady t
      some (.ok, s)

/-- `nimble_scheduler_init` before it creates the idle task. -/
def blank : Sched where
  tcb _ := {}
  tasks := []
  links := .empty
  events := .empty
  readyBitmap := 0
  tickCount := 0
  current := none
  next := none

/-- `idle_task_fn` on `idle_stack` at priority 0. The addresses only have to
be non-null. -/
def idleArgs : TaskArgs where
  tcb := some idle
  fn := 1
  stackBase := 1
  stackWords := 128
  priority := 0

/-- `nimble_scheduler_init`; the status of the idle task's creation is
discarded there. -/
def schedulerInit : Sched := ((blank.taskCreate idleArgs).map Prod.snd).getD blank

/-- The critical section of `nimble_task_delay` for a non-zero count. -/
def taskDelay (s : Sched) (self : TaskId) (ticks : Tick) : Option Sched :=
  s.blockCurrentDelay self (s.tickCount + ticks)

/-- `nimble_task_suspend`: whether the caller suspended itself, and the state
afterwards. A blocked task is left as it is. -/
def taskSuspend (s : Sched) (t : TaskId) : Bool × Sched :=
  if (s.tcb t).state = .ready ∨ (s.tcb t).state = .running then
    let suspendingSelf := decide (s.current = some t)
    let s := if (s.tcb t).state = .ready then s.remove t else s
    (suspendingSelf, s.setState t .suspended)
  else (false, s)

/-- `nimble_task_resume`. -/
def taskResume (s : Sched) (t : TaskId) : Option Sched :=
  if (s.tcb t).state = .suspended then s.addReady t else some s

end Sched
end NimbleRtos
