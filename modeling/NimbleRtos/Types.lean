import NimbleRtos.Foundation.NodeRings
import NimbleRtos.Foundation.SerialTime

/-! The kernel's shared types: status codes, ticks, task states, the TCB, and
the scheduler's global state. A TCB carries two link nodes, `link` for the
ready and delayed lists and `event_link` for wait lists, so the state holds
two families of rings over task identities. -/
namespace NimbleRtos
open NodeRings

/-- `nimble_tick_t`. -/
abbrev Tick := UInt32

/-- `NIMBLE_WAIT_FOREVER`. -/
def waitForever : Tick := 0xFFFFFFFF

/-- `NIMBLE_NO_WAIT`. -/
def noWait : Tick := 0

/-- `NIMBLE_MAX_PRIORITIES`; priority 0 is the idle task's. -/
def maxPriorities : Nat := 32

/-- `NIMBLE_MIN_STACK_WORDS`. -/
def minStackWords : UInt32 := 64

/-- The `NIMBLE_OK` and `NIMBLE_ERR_…` values of `nimble_status_t`. -/
inductive Status where
  | ok | invalidArg | noMemory | timeout | notOwner | full | empty
  deriving DecidableEq, Repr

/-- `nimble_task_state_t`. No kernel function stores `deleted`: here it also
marks a TCB that was never handed to `nimble_task_create`. -/
inductive TaskState where
  | ready | running | blocked | suspended | deleted
  deriving DecidableEq, Repr

abbrev TaskId := Nat
abbrev MutexId := Nat
abbrev SemaphoreId := Nat
abbrev QueueId := Nat
abbrev TimerId := Nat

/-- `idle_tcb`, static to scheduler.c: no application code can name it. -/
def idle : TaskId := 0

/-- The heads a TCB's `link` may be threaded on. -/
inductive ListHead where
  | ready (priority : Nat)
  | delayed
  deriving DecidableEq, Repr

/-- The heads a TCB's `event_link` may be threaded on. -/
inductive WaitList where
  | mutex (m : MutexId)
  | semaphore (s : SemaphoreId)
  | receivers (q : QueueId)
  | senders (q : QueueId)
  deriving DecidableEq, Repr

/-- The scheduling fields of `nimble_tcb_t`. -/
structure Tcb where
  priority : Nat := 0
  basePriority : Nat := 0
  state : TaskState := .deleted
  wakeTick : Tick := 0
  lastWaitResult : Status := .ok
  deriving DecidableEq, Repr

/-- The globals of scheduler.c with every TCB. `links` is the family of
`ready_lists` and `delayed_list`; `events` holds the wait lists of every
mutex, semaphore and queue; `tasks` lists the created TCBs. -/
structure Sched where
  tcb : TaskId → Tcb
  tasks : List TaskId
  links : Rings ListHead TaskId
  events : Rings WaitList TaskId
  readyBitmap : BitVec 32
  tickCount : Tick
  current : Option TaskId
  next : Option TaskId

namespace Sched

def setTcb (s : Sched) (t : TaskId) (x : Tcb) : Sched :=
  { s with tcb := Function.update s.tcb t x }

def setState (s : Sched) (t : TaskId) (state : TaskState) : Sched :=
  s.setTcb t { s.tcb t with state }

def setPriority (s : Sched) (t : TaskId) (priority : Nat) : Sched :=
  s.setTcb t { s.tcb t with priority }

variable (s : Sched) (t : TaskId) (x : Tcb) (state : TaskState) (p : Nat)

@[simp] theorem setTcb_tcb : (s.setTcb t x).tcb = Function.update s.tcb t x := rfl
@[simp] theorem setTcb_tasks : (s.setTcb t x).tasks = s.tasks := rfl
@[simp] theorem setTcb_links : (s.setTcb t x).links = s.links := rfl
@[simp] theorem setTcb_events : (s.setTcb t x).events = s.events := rfl
@[simp] theorem setTcb_bitmap : (s.setTcb t x).readyBitmap = s.readyBitmap := rfl
@[simp] theorem setTcb_tick : (s.setTcb t x).tickCount = s.tickCount := rfl
@[simp] theorem setTcb_current : (s.setTcb t x).current = s.current := rfl
@[simp] theorem setTcb_next : (s.setTcb t x).next = s.next := rfl

end Sched
end NimbleRtos
