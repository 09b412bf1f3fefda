import NimbleRtos.Foundation.GuardedRun
import NimbleRtos.Mutex
import NimbleRtos.Semaphore
import NimbleRtos.Queue
import NimbleRtos.Timer

/-! The kernel at work: any number of tasks calling the API, interrupts, ticks
and context switches in any order. One step is one critical section or one
interrupt. Where a task stands inside a kernel call is explicit, because
interrupts come between its two critical sections, and a log records what the
code did for properties that speak of whole runs. -/
namespace NimbleRtos

/-- The calls that may put their caller to sleep, with their arguments. An
item stands for the bytes behind the caller's pointer. -/
inductive BlockingCall where
  | taskDelay (ticks : Tick)
  | mutexLock (m : MutexId) (timeoutTicks : Tick)
  | semaphoreTake (s : SemaphoreId) (timeoutTicks : Tick)
  | queueSend (q : QueueId) (item : Bytes) (timeoutTicks : Tick)
  | queueReceive (q : QueueId) (timeoutTicks : Tick)
  deriving DecidableEq, Repr

/-- Calls made in task context. `timerSleep` and `timerExpire` are the two
critical sections of `timer_task_fn`. -/
inductive Call where
  | blocking (b : BlockingCall)
  | taskCreate (a : Sched.TaskArgs)
  | taskYield
  | taskSuspend (t : TaskId)
  | taskResume (t : TaskId)
  | mutexUnlock (m : MutexId)
  | semaphoreGive (s : SemaphoreId)
  | timerInit (x : TimerId) (periodTicks : Tick) (isPeriodic : Bool) (callback arg : UInt32)
  | timerStart (x : TimerId)
  | timerStop (x : TimerId)
  | timerReset (x : TimerId) (newPeriodTicks : Tick)
  | timerSleep
  | timerExpire
  deriving DecidableEq, Repr

/-- Calls made in interrupt context. -/
inductive IsrCall where
  | semaphoreGiveFromIsr (s : SemaphoreId)
  | queueSendFromIsr (q : QueueId) (item : Bytes)
  deriving DecidableEq, Repr

/-- The wait list a sleeping caller is on. -/
def BlockingCall.waitList : BlockingCall → Option WaitList
  | .taskDelay _ => none
  | .mutexLock m _ => some (.mutex m)
  | .semaphoreTake s _ => some (.semaphore s)
  | .queueSend q _ _ => some (.senders q)
  | .queueReceive q _ => some (.receivers q)

/-- The duration a call was given. -/
def BlockingCall.ticks : BlockingCall → Tick
  | .taskDelay ticks => ticks
  | .mutexLock _ timeoutTicks => timeoutTicks
  | .semaphoreTake _ timeoutTicks => timeoutTicks
  | .queueSend _ _ timeoutTicks => timeoutTicks
  | .queueReceive _ timeoutTicks => timeoutTicks

/-- Whether the sleep is bounded: always for a delay, otherwise unless the
timeout is `NIMBLE_WAIT_FOREVER`. -/
def BlockingCall.timed : BlockingCall → Bool
  | .taskDelay _ => true
  | b => b.ticks ≠ waitForever

/-- The wait list a call wakes from. -/
def Call.signals : Call → Option WaitList
  | .mutexUnlock m => some (.mutex m)
  | .semaphoreGive s => some (.semaphore s)
  | .blocking (.queueSend q _ _) => some (.receivers q)
  | .blocking (.queueReceive q _) => some (.senders q)
  | _ => none

def IsrCall.signals : IsrCall → WaitList
  | .semaphoreGiveFromIsr s => .semaphore s
  | .queueSendFromIsr q _ => .receivers q

/-- How the critical section at the start of a call ends. -/
inductive Outcome where
  /-- The call returns, for a receive with the bytes copied out. -/
  | returns (st : Status) (out : Bytes)
  /-- It requests a context switch and then returns. -/
  | switches (st : Status) (out : Bytes)
  /-- The caller sleeps: it requests a context switch and goes on when woken. -/
  | blocks
  /-- It continues with another call. -/
  | calls (c : Call)
  /-- `timer_task_fn` is about to call back. -/
  | fires (x : TimerId) (callback arg : UInt32)
  deriving DecidableEq, Repr

/-- Where a task stands. -/
inductive Pc where
  | thread
  /-- Past a critical section, `nimble_port_request_context_switch` comes next. -/
  | requesting (b : Option BlockingCall)
  /-- Has requested its switch; the rest of the call comes next. -/
  | parked (b : BlockingCall)
  | calling (c : Call)
  | firing (x : TimerId) (callback arg : UInt32)
  deriving DecidableEq, Repr

/-- The call whose sleep the task is in or has been woken from. -/
def Pc.sleep : Pc → Option BlockingCall
  | .requesting b => b
  | .parked b => some b
  | _ => none

inductive Waker where
  | signal (h : WaitList)
  | tick
  deriving DecidableEq, Repr

/-- What the log records. A call's return is recorded where its status is
decided, inside the critical section. -/
inductive Entry where
  | returned (t : TaskId) (c : Call) (st : Status) (out : Bytes)
  | isrReturned (c : IsrCall) (st : Status) (needsYield : Bool)
  | blocked (t : TaskId) (b : BlockingCall)
  | woken (t : TaskId) (waker : Waker)
  | gave (s : SemaphoreId) (kept : Bool)
  | ticked
  | requested
  | switched (t : TaskId)
  | invoked (x : TimerId) (callback arg : UInt32)
  deriving DecidableEq, Repr

/-- All memory of the kernel. -/
structure Kernel where
  sched : Sched
  mutexes : MutexId → Mutex
  semaphores : SemaphoreId → Semaphore
  queues : QueueId → Queue
  timers : Timers

/-- `timer_wake_sem`. -/
def timerWakeSem : SemaphoreId := 0

/-- A critical section's result: the memory, how the call goes on, and the
task it woke. -/
structure CallResult where
  kernel : Kernel
  outcome : Outcome
  woken : Option TaskId := none

namespace Kernel

def setMutex (k : Kernel) (m : MutexId) (x : Mutex) : Kernel :=
  { k with mutexes := Function.update k.mutexes m x }

def setSemaphore (k : Kernel) (s : SemaphoreId) (x : Semaphore) : Kernel :=
  { k with semaphores := Function.update k.semaphores s x }

def setQueue (k : Kernel) (q : QueueId) (x : Queue) : Kernel :=
  { k with queues := Function.update k.queues q x }

/-- A call that sleeps when its first critical section yields no status. -/
def sleepOr : Option Status → Bytes → Option TaskId → Outcome
  | none, _, _ => .blocks
  | some st, out, none => .returns st out
  | some st, out, some _ => .switches st out

/-- The first critical section of a blocking call. -/
def block (k : Kernel) (self : TaskId) : BlockingCall → Option CallResult
  | .taskDelay ticks =>
    if ticks = 0 then some ⟨k, .returns .ok [], none⟩
    else do
      let sched ← k.sched.taskDelay self ticks
      some ⟨{ k with sched }, .blocks, none⟩
  | .mutexLock m timeoutTicks => do
    let (st, x, sched) ← Mutex.lock m (k.mutexes m) k.sched self timeoutTicks
    some ⟨{ k with sched }.setMutex m x, sleepOr st [] none, none⟩
  | .semaphoreTake s timeoutTicks => do
    let (st, x, sched) ← Semaphore.take s (k.semaphores s) k.sched self timeoutTicks
    some ⟨{ k with sched }.setSemaphore s x, sleepOr st [] none, none⟩
  | .queueSend q item timeoutTicks => do
    let (st, woken, x, sched) ← Queue.send q (k.queues q) k.sched self item timeoutTicks
    some ⟨{ k with sched }.setQueue q x, sleepOr st [] woken, woken⟩
  | .queueReceive q timeoutTicks => do
    let (st, out, woken, x, sched) ← Queue.receive q (k.queues q) k.sched self timeoutTicks
    some ⟨{ k with sched }.setQueue q x, sleepOr st out woken, woken⟩

/-- The first critical section of any call. -/
def call (k : Kernel) (self : TaskId) : Call → Option CallResult
  | .blocking b => k.block self b
  | .taskCreate a => do
    let (st, sched) ← k.sched.taskCreate a
    some ⟨{ k with sched }, .returns st [], none⟩
  | .taskYield => some ⟨k, .switches .ok [], none⟩
  | .taskSuspend t =>
    let (suspendingSelf, sched) := k.sched.taskSuspend t
    some ⟨{ k with sched }, if suspendingSelf then .switches .ok [] else .returns .ok [], none⟩
  | .taskResume t => do
    let sched ← k.sched.taskResume t
    some ⟨{ k with sched }, .returns .ok [], none⟩
  | .mutexUnlock m => do
    let (st, woken, x, sched) ← Mutex.unlock m (k.mutexes m) k.sched self
    some ⟨{ k with sched }.setMutex m x, sleepOr (some st) [] woken, woken⟩
  | .semaphoreGive s => do
    let (woken, x, sched) ← Semaphore.give s (k.semaphores s) k.sched
    some ⟨{ k with sched }.setSemaphore s x, sleepOr (some .ok) [] woken, woken⟩
  | .timerInit x periodTicks isPeriodic callback arg => do
    let timers ← k.timers.timerInit x periodTicks isPeriodic callback arg
    some ⟨{ k with timers }, .returns .ok [], none⟩
  | .timerStart x => do
    let (becameNewHead, timers) ← k.timers.timerStart k.sched.tickCount x
    some ⟨{ k with timers },
      if becameNewHead then .calls (.semaphoreGive timerWakeSem) else .returns .ok [], none⟩
  | .timerStop x => some ⟨{ k with timers := k.timers.timerStop x }, .returns .ok [], none⟩
  | .timerReset x newPeriodTicks =>
    some ⟨{ k with timers := k.timers.timerReset x newPeriodTicks }, .calls (.timerStart x), none⟩
  | .timerSleep =>
    let waitTicks := k.timers.waitTicks k.sched.tickCount
    some ⟨k, .calls (.blocking (.semaphoreTake timerWakeSem waitTicks)), none⟩
  | .timerExpire => do
    let (expiry, timers) ← k.timers.expire k.sched.tickCount
    let outcome := match expiry with
      | .idle => .returns .ok []
      | .fires x callback arg => .fires x callback arg
    some ⟨{ k with timers }, outcome, none⟩

/-- The second critical section of a blocking call, run by the woken caller. -/
def resume (k : Kernel) (self : TaskId) : BlockingCall → Option (Status × Bytes × Kernel)
  | .taskDelay _ => some (.ok, [], k)
  | .mutexLock m _ =>
    let (st, sched) := Mutex.lockResumed (k.mutexes m) k.sched self
    some (st, [], { k with sched })
  | .semaphoreTake _ _ =>
    let (st, sched) := Semaphore.takeResumed k.sched self
    some (st, [], { k with sched })
  | .queueSend q item _ => do
    let (st, x, sched) ← Queue.sendResumed (k.queues q) k.sched self item
    some (st, [], { k with sched }.setQueue q x)
  | .queueReceive q _ => do
    let (st, out, x, sched) ← Queue.receiveResumed (k.queues q) k.sched self
    some (st, out, { k with sched }.setQueue q x)

/-- A call from an interrupt: status, `*needs_yield`, the task woken. -/
def isrCall (k : Kernel) : IsrCall → Option (Status × Bool × Option TaskId × Kernel)
  | .semaphoreGiveFromIsr s => do
    let (needsYield, woken, x, sched) ← Semaphore.giveFromIsr s (k.semaphores s) k.sched
    some (.ok, needsYield, woken, { k with sched }.setSemaphore s x)
  | .queueSendFromIsr q item => do
    let (st, needsYield, woken, x, sched) ← Queue.sendFromIsr q (k.queues q) k.sched item
    some (st, needsYield, woken, { k with sched }.setQueue q x)

end Kernel

/-- The kernel's memory, where every task stands, the PendSV pending bit of
`SCB_ICSR`, whether `nimble_scheduler_start` has run, and the log, newest
entry first. -/
structure System extends Kernel where
  pc : TaskId → Pc
  pendSv : Bool
  started : Bool
  log : List Entry

inductive Event where
  /-- `main` creates a task before the scheduler starts. -/
  | create (a : Sched.TaskArgs)
  /-- `nimble_scheduler_start`. -/
  | start
  /-- `SysTick_Handler`. -/
  | tick
  | isr (c : IsrCall)
  /-- An interrupt handler requests a context switch. -/
  | isrRequest
  /-- `PendSV_Handler`. -/
  | pendSV
  /-- A context switch to any ready task, for properties that hold whatever
  order the scheduler runs them in. -/
  | dispatch (t : TaskId)
  /-- The running task enters a kernel call. -/
  | call (c : Call)
  /-- The running task goes on inside a kernel call. -/
  | proceed
  deriving DecidableEq, Repr

namespace System

/-- The task whose code executes: PendSV, once pending, is taken before the
next instruction of any task. -/
def running (y : System) : Option TaskId :=
  if y.started && !y.pendSv then y.sched.current else none

/-- A TCB is created once, and nothing outside scheduler.c can name the idle
task. -/
def allows (y : System) : Call → Bool
  | .taskCreate a => a.tcb.all fun t => (y.sched.tcb t).state = .deleted
  | .taskSuspend t => t ≠ idle
  | _ => true

def wokenEntries : Option TaskId → Option WaitList → List Entry
  | some t, some h => [.woken t (.signal h)]
  | _, _ => []

/-- A give is kept when it woke a waiter or raised the count. -/
def gaveEntries (before after : Kernel) (woken : Option TaskId) : Option SemaphoreId → List Entry
  | some s =>
    [.gave s (woken.isSome || decide ((after.semaphores s).count ≠ (before.semaphores s).count))]
  | none => []

def givesTo : Call → Option SemaphoreId
  | .semaphoreGive s => some s
  | _ => none

def isrGivesTo : IsrCall → Option SemaphoreId
  | .semaphoreGiveFromIsr s => some s
  | _ => none

/-- The entries of the return or sleep of a call. -/
def outcomeEntries (self : TaskId) (c : Call) : Outcome → List Entry
  | .returns st out => [.returned self c st out]
  | .switches st out => [.returned self c st out]
  | .blocks => match c with
    | .blocking b => [.blocked self b]
    | _ => []
  | .calls _ => []
  | .fires _ _ _ => [.returned self c .ok []]

/-- Where a call's first critical section leaves the caller. -/
def outcomePc (c : Call) : Outcome → Pc
  | .returns _ _ => .thread
  | .switches _ _ => .requesting none
  | .blocks => match c with
    | .blocking b => .requesting (some b)
    | _ => .thread
  | .calls c' => .calling c'
  | .fires x callback arg => .firing x callback arg

/-- `self` runs the first critical section of `c`. -/
def enter (y : System) (self : TaskId) (c : Call) : Option System := do
  let r ← y.toKernel.call self c
  some { y with
    toKernel := r.kernel
    pc := Function.update y.pc self (outcomePc c r.outcome)
    log := outcomeEntries self c r.outcome ++ wokenEntries r.woken c.signals ++
      gaveEntries y.toKernel r.kernel r.woken (givesTo c) ++ y.log }

/-- `self` runs the second critical section of `b`. -/
def finish (y : System) (self : TaskId) (b : BlockingCall) : Option System := do
  let (st, out, k) ← y.toKernel.resume self b
  some { y with
    toKernel := k
    pc := Function.update y.pc self .thread
    log := .returned self (.blocking b) st out :: y.log }

/-- `self` goes on inside its call. -/
def proceed (y : System) (self : TaskId) : Option System :=
  match y.pc self with
  | .thread => none
  | .requesting b =>
    some { y with
      pendSv := true
      pc := Function.update y.pc self ((b.map Pc.parked).getD .thread)
      log := .requested :: y.log }
  | .parked b => y.finish self b
  | .calling c => y.enter self c
  | .firing x callback arg =>
    some { y with
      pc := Function.update y.pc self .thread
      log := if callback ≠ 0 then .invoked x callback arg :: y.log else y.log }

/-- `nimble_current_tcb = nimble_next_tcb` after a selection. -/
def switchTo (y : System) (t : TaskId) (s : Sched) : System :=
  { y with sched := { s with current := some t }, pendSv := false, log := .switched t :: y.log }

def isr (y : System) (c : IsrCall) : Option System := do
  let (st, needsYield, woken, k) ← y.toKernel.isrCall c
  some { y with
    toKernel := k
    log := .isrReturned c st needsYield :: wokenEntries woken (some c.signals) ++
      gaveEntries y.toKernel k woken (isrGivesTo c) ++ y.log }

def step (y : System) : Event → Option System
  | .create a =>
    if y.started = false ∧ y.allows (.taskCreate a) then do
      let (_, sched) ← y.sched.taskCreate a
      some { y with sched }
    else none
  | .start =>
    if y.started then none
    else do
      let (t, s) ← y.sched.selectNext
      some { y.switchTo t s with started := true, pendSv := y.pendSv }
  | .tick => do
    let sched ← y.sched.tick
    some { y with
      sched
      pendSv := true
      log := .requested :: y.sched.expired.map (.woken · .tick) ++ .ticked :: y.log }
  | .isr c => y.isr c
  | .isrRequest => some { y with pendSv := true, log := .requested :: y.log }
  | .pendSV =>
    if y.pendSv then do
      let (t, s) ← y.sched.selectNext
      some (y.switchTo t s)
    else none
  | .dispatch t =>
    if y.pendSv then do
      let s ← y.sched.dispatch t
      some (y.switchTo t s)
    else none
  | .call c => do
    let self ← y.running
    if self ≠ idle ∧ y.pc self = .thread ∧ y.allows c then y.enter self c else none
  | .proceed => do
    let self ← y.running
    y.proceed self

end System

/-- What the kernel objects were initialised with, and the tick count the run
starts from: 0 after `nimble_scheduler_init`, anything for a kernel that has
been up for a while. -/
structure Config where
  tickCount : Tick := 0
  semaphore : SemaphoreId → UInt32 × UInt32 := fun _ => (0, 1)
  queue : QueueId → Bytes × UInt32 × UInt32 := fun _ => ([], 0, 0)

/-- The state after `nimble_scheduler_init` and the objects' init functions. -/
def boot (cfg : Config) : System where
  sched := { Sched.schedulerInit with tickCount := cfg.tickCount }
  mutexes _ := Mutex.init
  semaphores s := Semaphore.init (cfg.semaphore s).1 (cfg.semaphore s).2
  queues q := Queue.init (cfg.queue q).1 (cfg.queue q).2.1 (cfg.queue q).2.2
  timers := Timers.init
  pc _ := .thread
  pendSv := false
  started := false
  log := []

/-- Runs of the kernel from `boot cfg` whose steps all meet `guard`. -/
abbrev KernelRun (cfg : Config) (guard : System → Event → Prop) : System → Prop :=
  GuardedRun.Run System.step guard (boot cfg)

end NimbleRtos
