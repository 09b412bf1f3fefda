import NimbleRtos.HeapObjects
import NimbleRtos.Progress

/-! The whole kernel over the nodes in memory, and its refinement: in every run
the pointers form the lists that the rings say, and the kernel on pointers does
what the kernel on rings does. -/
namespace NimbleRtos
open LinkedCells LinkedCells.Cells NodeRings IntrusiveList Refinement Sched NimbleRtos.System

/-- All memory of the kernel, with every list node in `sched.cells`. -/
structure HeapKernel where
  sched : HeapSched
  mutexes : MutexId → Mutex
  semaphores : SemaphoreId → Semaphore
  queues : QueueId → Queue
  timer : TimerId → Timer

structure HeapCallResult where
  kernel : HeapKernel
  outcome : Outcome
  woken : Option TaskId := none

namespace HeapKernel

def setMutex (k : HeapKernel) (m : MutexId) (x : Mutex) : HeapKernel :=
  { k with mutexes := Function.update k.mutexes m x }

def setSemaphore (k : HeapKernel) (s : SemaphoreId) (x : Semaphore) : HeapKernel :=
  { k with semaphores := Function.update k.semaphores s x }

def setQueue (k : HeapKernel) (q : QueueId) (x : Queue) : HeapKernel :=
  { k with queues := Function.update k.queues q x }

/-- The memory of timer.c. -/
def timers (k : HeapKernel) : HeapTimers := ⟨k.timer, k.sched.cells⟩

def setTimers (k : HeapKernel) (ts : HeapTimers) : HeapKernel :=
  { k with sched := { k.sched with cells := ts.cells }, timer := ts.timer }

/-- The first critical section of a blocking call. -/
def block (k : HeapKernel) (fuel : Nat) (self : TaskId) : BlockingCall → Option HeapCallResult
  | .taskDelay ticks =>
    if ticks = 0 then some ⟨k, .returns .ok [], none⟩
    else do
      let sched ← k.sched.taskDelay self ticks
      some ⟨{ k with sched }, .blocks, none⟩
  | .mutexLock m timeoutTicks => do
    let (st, x, sched) ← HeapMutex.lock fuel m (k.mutexes m) k.sched self timeoutTicks
    some ⟨{ k with sched }.setMutex m x, Kernel.sleepOr st [] none, none⟩
  | .semaphoreTake s timeoutTicks => do
    let (st, x, sched) ← HeapSemaphore.take fuel s (k.semaphores s) k.sched self timeoutTicks
    some ⟨{ k with sched }.setSemaphore s x, Kernel.sleepOr st [] none, none⟩
  | .queueSend q item timeoutTicks => do
    let (st, woken, x, sched) ← HeapQueue.send fuel q (k.queues q) k.sched self item timeoutTicks
    some ⟨{ k with sched }.setQueue q x, Kernel.sleepOr st [] woken, woken⟩
  | .queueReceive q timeoutTicks => do
    let (st, out, woken, x, sched) ← HeapQueue.receive fuel q (k.queues q) k.sched self timeoutTicks
    some ⟨{ k with sched }.setQueue q x, Kernel.sleepOr st out woken, woken⟩

/-- The first critical section of any call. -/
def call (k : HeapKernel) (fuel : Nat) (self : TaskId) : Call → Option HeapCallResult
  | .blocking b => k.block fuel self b
  | .taskCreate a => do
    let (st, sched) ← k.sched.taskCreate a
    some ⟨{ k with sched }, .returns st [], none⟩
  | .taskYield => some ⟨k, .switches .ok [], none⟩
  | .taskSuspend t => do
    let (suspendingSelf, sched) ← k.sched.taskSuspend t
    some ⟨{ k with sched }, if suspendingSelf then .switches .ok [] else .returns .ok [], none⟩
  | .taskResume t => do
    let sched ← k.sched.taskResume t
    some ⟨{ k with sched }, .returns .ok [], none⟩
  | .mutexUnlock m => do
    let (st, woken, x, sched) ← HeapMutex.unlock m (k.mutexes m) k.sched self
    some ⟨{ k with sched }.setMutex m x, Kernel.sleepOr (some st) [] woken, woken⟩
  | .semaphoreGive s => do
    let (woken, x, sched) ← HeapSemaphore.give s (k.semaphores s) k.sched
    some ⟨{ k with sched }.setSemaphore s x, Kernel.sleepOr (some .ok) [] woken, woken⟩
  | .timerInit x periodTicks isPeriodic callback arg =>
    some ⟨k.setTimers (k.timers.timerInit x periodTicks isPeriodic callback arg), .returns .ok [], none⟩
  | .timerStart x => do
    let (becameNewHead, timers) ← k.timers.timerStart fuel k.sched.tickCount x
    some ⟨k.setTimers timers,
      if becameNewHead then .calls (.semaphoreGive timerWakeSem) else .returns .ok [], none⟩
  | .timerStop x => some ⟨k.setTimers (k.timers.timerStop x), .returns .ok [], none⟩
  | .timerReset x newPeriodTicks =>
    some ⟨k.setTimers (k.timers.timerReset x newPeriodTicks), .calls (.timerStart x), none⟩
  | .timerSleep => do
    let waitTicks ← k.timers.waitTicks k.sched.tickCount
    some ⟨k, .calls (.blocking (.semaphoreTake timerWakeSem waitTicks)), none⟩
  | .timerExpire => do
    let (expiry, timers) ← k.timers.expire fuel k.sched.tickCount
    let outcome := match expiry with
      | .idle => .returns .ok []
      | .fires x callback arg => .fires x callback arg
    some ⟨k.setTimers timers, outcome, none⟩

/-- The second critical section of a blocking call. -/
def resume (k : HeapKernel) (self : TaskId) : BlockingCall → Option (Status × Bytes × HeapKernel)
  | .taskDelay _ => some (.ok, [], k)
  | .mutexLock m _ =>
    let (st, sched) := HeapMutex.lockResumed (k.mutexes m) k.sched self
    some (st, [], { k with sched })
  | .semaphoreTake _ _ =>
    let (st, sched) := HeapSemaphore.takeResumed k.sched self
    some (st, [], { k with sched })
  | .queueSend q item _ => do
    let (st, x, sched) ← HeapQueue.sendResumed (k.queues q) k.sched self item
    some (st, [], { k with sched }.setQueue q x)
  | .queueReceive q _ => do
    let (st, out, x, sched) ← HeapQueue.receiveResumed (k.queues q) k.sched self
    some (st, out, { k with sched }.setQueue q x)

/-- A call from an interrupt. -/
def isrCall (k : HeapKernel) : IsrCall → Option (Status × Bool × Option TaskId × HeapKernel)
  | .semaphoreGiveFromIsr s => do
    let (needsYield, woken, x, sched) ← HeapSemaphore.giveFromIsr s (k.semaphores s) k.sched
    some (.ok, needsYield, woken, { k with sched }.setSemaphore s x)
  | .queueSendFromIsr q item => do
    let (st, needsYield, woken, x, sched) ← HeapQueue.sendFromIsr q (k.queues q) k.sched item
    some (st, needsYield, woken, { k with sched }.setQueue q x)

/-- The caller's side of a call's contract. -/
def honours (k : HeapKernel) : Call → Bool
  | .blocking (.queueSend q item _) => item.length = (k.queues q).itemSize.toNat
  | .timerInit x _ _ _ _ => !(k.timer x).isActive
  | _ => true

/-- That of a call from an interrupt. -/
def isrHonours (k : HeapKernel) : IsrCall → Bool
  | .queueSendFromIsr q item => item.length = (k.queues q).itemSize.toNat
  | _ => true

end HeapKernel

structure HeapSystem extends HeapKernel where
  pc : TaskId → Pc
  pendSv : Bool
  started : Bool
  log : List Entry

namespace HeapSystem

/-- The task whose code executes. -/
def running (y : HeapSystem) : Option TaskId :=
  if y.started && !y.pendSv then y.sched.current else none

/-- A TCB is created once, and the idle task is not suspended. -/
def allows (y : HeapSystem) : Call → Bool
  | .taskCreate a => a.tcb.all fun t => (y.sched.tcb t).state = .deleted
  | .taskSuspend t => t ≠ idle
  | _ => true

/-- A give is kept when it woke a waiter or raised the count. -/
def gaveEntries (before after : HeapKernel) (woken : Option TaskId) : Option SemaphoreId → List Entry
  | some s =>
    [.gave s (woken.isSome || decide ((after.semaphores s).count ≠ (before.semaphores s).count))]
  | none => []

/-- `self` runs the first critical section of `c`. -/
def enter (y : HeapSystem) (fuel : Nat) (self : TaskId) (c : Call) : Option HeapSystem := do
  let r ← y.toHeapKernel.call fuel self c
  some { y with
    toHeapKernel := r.kernel
    pc := Function.update y.pc self (outcomePc c r.outcome)
    log := outcomeEntries self c r.outcome ++ wokenEntries r.woken c.signals ++
      gaveEntries y.toHeapKernel r.kernel r.woken (givesTo c) ++ y.log }

/-- `self` runs the second critical section of `b`. -/
def finish (y : HeapSystem) (self : TaskId) (b : BlockingCall) : Option HeapSystem := do
  let (st, out, k) ← y.toHeapKernel.resume self b
  some { y with
    toHeapKernel := k
    pc := Function.update y.pc self .thread
    log := .returned self (.blocking b) st out :: y.log }

/-- `self` goes on inside its call. -/
def proceed (y : HeapSystem) (fuel : Nat) (self : TaskId) : Option HeapSystem :=
  match y.pc self with
  | .thread => none
  | .requesting b =>
    some { y with
      pendSv := true
      pc := Function.update y.pc self ((b.map Pc.parked).getD .thread)
      log := .requested :: y.log }
  | .parked b => y.finish self b
  | .calling c => y.enter fuel self c
  | .firing x callback arg =>
    some { y with
      pc := Function.update y.pc self .thread
      log := if callback ≠ 0 then .invoked x callback arg :: y.log else y.log }

/-- `nimble_current_tcb = nimble_next_tcb` after a selection. -/
def switchTo (y : HeapSystem) (t : TaskId) (s : HeapSched) : HeapSystem :=
  { y with sched := { s with current := some t }, pendSv := false, log := .switched t :: y.log }

def isr (y : HeapSystem) (c : IsrCall) : Option HeapSystem := do
  let (st, needsYield, woken, k) ← y.toHeapKernel.isrCall c
  some { y with
    toHeapKernel := k
    log := .isrReturned c st needsYield :: wokenEntries woken (some c.signals) ++
      gaveEntries y.toHeapKernel k woken (isrGivesTo c) ++ y.log }

def step (fuel : Nat) (y : HeapSystem) : Event → Option HeapSystem
  | .create a =>
    if y.started = false ∧ y.allows (.taskCreate a) then do
      let (_, sched) ← y.sched.taskCreate a
      some { y with sched }
    else none
  | .start =>
    if y.started then none
    else do
      let (t, s) ← y.sched.selectNext
      some { y.switchTo t s with started := true, pendSv := y.pendSv }
  | .tick => do
    let (woken, sched) ← y.sched.tick fuel
    some { y with
      sched
      pendSv := true
      log := .requested :: woken.map (.woken · .tick) ++ .ticked :: y.log }
  | .isr c => y.isr c
  | .isrRequest => some { y with pendSv := true, log := .requested :: y.log }
  | .pendSV =>
    if y.pendSv then do
      let (t, s) ← y.sched.selectNext
      some (y.switchTo t s)
    else none
  | .dispatch t =>
    if y.pendSv then do
      let s ← y.sched.dispatch t
      some (y.switchTo t s)
    else none
  | .call c => do
    let self ← y.running
    if self ≠ idle ∧ y.pc self = .thread ∧ y.allows c then y.enter fuel self c else none
  | .proceed => do
    let self ← y.running
    y.proceed fuel self

/-- The step is a lock call that raises the priority of a READY owner. -/
def boostsReady (y : HeapSystem) : Event → Bool
  | .call (.blocking (.mutexLock m timeoutTicks)) =>
    match y.running, (y.mutexes m).owner with
    | some self, some owner =>
      owner ≠ self && timeoutTicks ≠ noWait &&
        (y.sched.tcb owner).priority < (y.sched.tcb self).priority &&
        (y.sched.tcb owner).state = .ready
    | _, _ => false
  | _ => false

/-- The callers keep their side of the contract. -/
def honoured (y : HeapSystem) : Event → Bool
  | .isr c => y.isrHonours c
  | .call c => y.toHeapKernel.honours c
  | _ => true

end HeapSystem

/-- The state after `nimble_scheduler_init` and the objects' init functions, on
memory `m`. -/
def heapBoot (m : Cells Place) (cfg : Config) : Option HeapSystem := do
  let sched ← HeapSched.schedulerInit m
  some {
    sched := { sched with tickCount := cfg.tickCount }
    mutexes := fun _ => Mutex.init
    semaphores := fun s => Semaphore.init (cfg.semaphore s).1 (cfg.semaphore s).2
    queues := fun q => Queue.init (cfg.queue q).1 (cfg.queue q).2.1 (cfg.queue q).2.2
    timer := fun _ => {}
    pc := fun _ => .thread
    pendSv := false
    started := false
    log := [] }

/-! ## The refinement -/

/-- The kernel with its lists in `m`. -/
def Kernel.onHeap (k : Kernel) (m : Cells Place) : HeapKernel :=
  ⟨k.sched.onHeap m, k.mutexes, k.semaphores, k.queues, k.timers.timer⟩

/-- The system with its lists in `m`. -/
def System.onHeap (y : System) (m : Cells Place) : HeapSystem :=
  ⟨y.toKernel.onHeap m, y.pc, y.pendSv, y.started, y.log⟩

/-- `m` holds all lists of `k`. -/
structure KernelHolds (live : Place → Prop) (m : Cells Place) (k : Kernel) : Prop where
  sched : Holds live k.timers.active m k.sched
  started : ∀ x, (k.timers.timer x).isActive = true → live (.timerLink x)

/-- The kernel on the heap is `k` with its lists in some memory that holds them. -/
def KernelOnHeap (h : HeapKernel) (k : Kernel) : Prop := ∃ live m, h = k.onHeap m ∧ KernelHolds live m k

/-- The same outcome on related memories. -/
structure ResultOnHeap (a : HeapCallResult) (b : CallResult) : Prop where
  kernel : KernelOnHeap a.kernel b.kernel
  outcome : a.outcome = b.outcome
  woken : a.woken = b.woken

/-- The system on the heap is `y` with its lists in some memory that holds them. -/
def SystemOnHeap (h : HeapSystem) (y : System) : Prop :=
  ∃ live m, h = y.onHeap m ∧ KernelHolds live m y.toKernel

/-! ### Calls -/

namespace KernelHolds
variable {live live' : Place → Prop} {m m' : Cells Place} {k k' : Kernel} {self : TaskId}

/-- A change that leaves timer.c alone. -/
theorem update (holds : KernelHolds live m k) (timers : k'.timers = k.timers)
    (sched : Holds live k.timers.active m' k'.sched) : KernelHolds live m' k' :=
  ⟨timers ▸ sched, timers ▸ holds.started⟩

/-- A change inside timer.c. -/
theorem setTimers (holds : KernelHolds live m k) {h : HeapTimers} {ts : Timers}
    (onHeap : TimersOnHeap k.sched.links k.sched.events live h ts) :
    KernelOnHeap ((k.onHeap m).setTimers h) { k with timers := ts } := by
  obtain ⟨live', m', grown, rfl, changed⟩ := onHeap
  refine ⟨live', m', rfl, ⟨changed.lists, fun t known => grown _ (holds.sched.made t known), holds.sched.bounded,
    holds.sched.base⟩, changed.started⟩

/-- timer.c's part of the memory. -/
theorem timers (holds : KernelHolds live m k) : TimersHold k.sched.links k.sched.events live m k.timers :=
  ⟨holds.sched.lists, holds.started⟩

theorem block (holds : KernelHolds live m k) (alive : live (.link self)) (b : BlockingCall) :
    Refines ResultOnHeap (fun fuel => (k.onHeap m).block fuel self b) (k.block self b) := by
  have sched := holds.sched
  cases b with
  | taskDelay ticks =>
    refine Refines.ite (fun _ => .pure ⟨⟨live, m, rfl, holds⟩, rfl, rfl⟩) fun _ => ?_
    refine Refines.bind (sched.blockCurrentDelay alive _) ?_
    rintro _ s' - ⟨m', rfl, sched⟩
    exact .pure ⟨⟨live, m', rfl, holds.update rfl sched⟩, rfl, rfl⟩
  | mutexLock i timeoutTicks =>
    refine Refines.bind (sched.lock alive i (k.mutexes i) timeoutTicks) ?_
    rintro _ _ - ⟨st, x, m', rfl, sched⟩
    exact .pure ⟨⟨live, m', rfl, holds.update rfl sched⟩, rfl, rfl⟩
  | semaphoreTake i timeoutTicks =>
    refine Refines.bind (sched.take alive i (k.semaphores i) timeoutTicks) ?_
    rintro _ _ - ⟨st, x, m', rfl, sched⟩
    exact .pure ⟨⟨live, m', rfl, holds.update rfl sched⟩, rfl, rfl⟩
  | queueSend i item timeoutTicks =>
    refine Refines.bind (sched.send alive i (k.queues i) item timeoutTicks) ?_
    rintro _ _ - ⟨st, woken, x, m', rfl, sched⟩
    exact .pure ⟨⟨live, m', rfl, holds.update rfl sched⟩, rfl, rfl⟩
  | queueReceive i timeoutTicks =>
    refine Refines.bind (sched.receive alive i (k.queues i) timeoutTicks) ?_
    rintro _ _ - ⟨st, out, woken, x, m', rfl, sched⟩
    exact .pure ⟨⟨live, m', rfl, holds.update rfl sched⟩, rfl, rfl⟩

/-- The first critical section of a call; a TCB that is created is on no wait
list. -/
theorem call (holds : KernelHolds live m k) (alive : live (.link self)) (c : Call)
    (fresh : ∀ a t, c = .taskCreate a → a.tcb = some t → k.sched.events.ring t = none) :
    Refines ResultOnHeap (fun fuel => (k.onHeap m).call fuel self c) (k.call self c) := by
  have sched := holds.sched
  cases c with
  | blocking b => exact holds.block alive b
  | taskCreate a =>
    refine Refines.bind (sched.taskCreate a fun t => fresh a t rfl) ?_
    rintro _ _ - ⟨st, live', grown, m', rfl, sched⟩
    exact .pure ⟨⟨live', m', rfl, sched, fun x now => grown _ (holds.started x now)⟩, rfl, rfl⟩
  | taskYield => exact .pure ⟨⟨live, m, rfl, holds⟩, rfl, rfl⟩
  | taskSuspend t =>
    obtain ⟨_, ended, suspended⟩ := sched.taskSuspend t _ rfl
    intro r result
    cases suspends : k.sched.taskSuspend t with
    | mk suspendingSelf s' =>
      rw [suspends] at suspended
      obtain ⟨_, m', rfl, sched⟩ := suspended
      simp only [Kernel.call, suspends, Option.some.injEq] at result
      subst result
      exact ⟨_, ended.bind (ends_pure _), ⟨live, m', rfl, holds.update rfl sched⟩, rfl, rfl⟩
  | taskResume t =>
    refine Refines.bind (sched.taskResume t) ?_
    rintro _ s' - ⟨m', rfl, sched⟩
    exact .pure ⟨⟨live, m', rfl, holds.update rfl sched⟩, rfl, rfl⟩
  | mutexUnlock i =>
    refine Refines.bind (sched.unlock i (k.mutexes i) self) ?_
    rintro _ _ - ⟨st, woken, x, m', rfl, sched⟩
    exact .pure ⟨⟨live, m', rfl, holds.update rfl sched⟩, rfl, rfl⟩
  | semaphoreGive i =>
    refine Refines.bind (sched.giveUnit i (k.semaphores i)) ?_
    rintro _ _ - ⟨woken, x, m', rfl, sched⟩
    exact .pure ⟨⟨live, m', rfl, holds.update rfl sched⟩, rfl, rfl⟩
  | timerInit x periodTicks isPeriodic callback arg =>
    intro r result
    obtain ⟨ts, inited, same⟩ := Option.bind_eq_some_iff.mp result
    cases same
    obtain ⟨_, ended, onHeap⟩ := holds.timers.timerInit x periodTicks isPeriodic callback arg ts inited
    obtain rfl := ended.unique (ends_pure _)
    exact ⟨_, ends_pure _, holds.setTimers onHeap, rfl, rfl⟩
  | timerStart x =>
    refine Refines.bind (holds.timers.timerStart k.sched.tickCount x) ?_
    rintro _ _ - ⟨becameNewHead, onHeap⟩
    exact .pure ⟨holds.setTimers onHeap, rfl, rfl⟩
  | timerStop x => exact .pure ⟨holds.setTimers (holds.timers.timerStop x), rfl, rfl⟩
  | timerReset x newPeriodTicks =>
    exact .pure ⟨holds.setTimers (holds.timers.timerReset x newPeriodTicks), rfl, rfl⟩
  | timerSleep =>
    have waits := holds.timers.waitTicks k.sched.tickCount
    intro r result
    cases result
    exact ⟨_, ⟨0, fun _ _ => Option.bind_eq_some_iff.mpr ⟨_, waits, rfl⟩⟩, ⟨live, m, rfl, holds⟩, rfl, rfl⟩
  | timerExpire =>
    refine Refines.bind (holds.timers.expire k.sched.tickCount) ?_
    rintro _ _ - ⟨expiry, onHeap⟩
    exact .pure ⟨holds.setTimers onHeap, rfl, rfl⟩

/-- A status that comes with a new scheduler. -/
theorem resumes (holds : KernelHolds live m k) {h : Status × HeapSched} {r : Status × Sched}
    (resumed : Beside (OnHeap live k.timers.active) h r) :
    Refines (Beside (Beside KernelOnHeap)) (fun _ => some (h.1, ([] : Bytes), { k.onHeap m with sched := h.2 }))
      (some (r.1, ([] : Bytes), { k with sched := r.2 })) := by
  obtain ⟨st, m', rfl, sched⟩ := resumed
  exact .pure ⟨_, _, live, m', rfl, holds.update rfl sched⟩

/-- The second critical section, run by a task that has been created. -/
theorem resume (holds : KernelHolds live m k) (alive : live (.link self)) (b : BlockingCall) :
    Refines (Beside (Beside KernelOnHeap)) (fun _ => (k.onHeap m).resume self b) (k.resume self b) := by
  have sched := holds.sched
  cases b with
  | taskDelay ticks => exact .pure ⟨_, _, live, m, rfl, holds⟩
  | mutexLock i timeoutTicks => exact holds.resumes (sched.lockResumed alive (k.mutexes i))
  | semaphoreTake i timeoutTicks =>
    exact holds.resumes (.mk _ ⟨_, rfl, sched.detached alive⟩)
  | queueSend i item timeoutTicks =>
    refine Refines.bind (sched.sendResumed alive (k.queues i) item) ?_
    rintro _ _ - ⟨st, x, m', rfl, sched⟩
    exact .pure ⟨_, _, live, m', rfl, holds.update rfl sched⟩
  | queueReceive i timeoutTicks =>
    refine Refines.bind (sched.receiveResumed alive (k.queues i)) ?_
    rintro _ _ - ⟨st, out, x, m', rfl, sched⟩
    exact .pure ⟨_, _, live, m', rfl, holds.update rfl sched⟩

/-- A call from an interrupt. -/
theorem isrCall (holds : KernelHolds live m k) (c : IsrCall) :
    Refines (Beside (Beside (Beside KernelOnHeap))) (fun _ => (k.onHeap m).isrCall c) (k.isrCall c) := by
  have sched := holds.sched
  cases c with
  | semaphoreGiveFromIsr i =>
    refine Refines.bind (sched.giveFromIsr i (k.semaphores i)) ?_
    rintro _ _ - ⟨needsYield, woken, x, m', rfl, sched⟩
    exact .pure ⟨_, _, _, live, m', rfl, holds.update rfl sched⟩
  | queueSendFromIsr i item =>
    refine Refines.bind (sched.sendFromIsr i (k.queues i) item) ?_
    rintro _ _ - ⟨st, needsYield, woken, x, m', rfl, sched⟩
    exact .pure ⟨_, _, _, live, m', rfl, holds.update rfl sched⟩

end KernelHolds

/-! ### Steps -/

namespace System
variable {y : System} {live : Place → Prop} {m : Cells Place} {self : TaskId} {event : Event}

/-- What a give records reads no list. -/
theorem gaveEntries_onHeap (before after : Kernel) (m m' : Cells Place) (woken : Option TaskId)
    (given : Option SemaphoreId) :
    HeapSystem.gaveEntries (before.onHeap m) (after.onHeap m') woken given =
      System.gaveEntries before after woken given := by
  cases given <;> rfl

theorem enter_refines (holds : KernelHolds live m y.toKernel) (alive : live (.link self)) (c : Call)
    (fresh : ∀ a t, c = .taskCreate a → a.tcb = some t → y.sched.events.ring t = none) :
    Refines SystemOnHeap (fun fuel => (y.onHeap m).enter fuel self c) (y.enter self c) := by
  refine Refines.bind (holds.call alive c fresh) ?_
  rintro h r - ⟨⟨live', m', kernel, holds'⟩, outcome, woken⟩
  refine .pure ⟨live', m', ?_, holds'⟩
  simp only [System.onHeap, kernel, outcome, woken, gaveEntries_onHeap]

theorem finish_refines (holds : KernelHolds live m y.toKernel) (alive : live (.link self)) (b : BlockingCall) :
    Refines SystemOnHeap (fun _ => (y.onHeap m).finish self b) (y.finish self b) := by
  refine Refines.bind (holds.resume alive b) ?_
  rintro _ _ - ⟨st, out, live', m', rfl, holds'⟩
  exact .pure ⟨live', m', rfl, holds'⟩

theorem isr_refines (holds : KernelHolds live m y.toKernel) (c : IsrCall) :
    Refines SystemOnHeap (fun _ => (y.onHeap m).isr c) (y.isr c) := by
  refine Refines.bind (holds.isrCall c) ?_
  rintro _ _ - ⟨st, needsYield, woken, live', m', rfl, holds'⟩
  refine .pure ⟨live', m', ?_, holds'⟩
  simp only [System.onHeap, gaveEntries_onHeap]

theorem proceed_refines (linked : Linked y) (holds : KernelHolds live m y.toKernel) (alive : live (.link self)) :
    Refines SystemOnHeap (fun fuel => (y.onHeap m).proceed fuel self) (y.proceed self) := by
  unfold HeapSystem.proceed System.proceed
  cases here : y.pc self with
  | thread =>
    simp only [System.onHeap, here]
    exact .none
  | requesting b =>
    simp only [System.onHeap, here]
    exact .pure ⟨live, m, rfl, holds⟩
  | parked b =>
    have finished := finish_refines holds alive b
    simpa only [System.onHeap, here] using finished
  | calling c =>
    have internal := linked.internal self c here
    have entered := enter_refines holds alive c fun a t create => by
      subst create
      exact internal.elim
    simpa only [System.onHeap, here] using entered
  | firing x callback arg =>
    simp only [System.onHeap, here]
    exact .pure ⟨live, m, rfl, holds⟩

theorem step_refines (linked : Linked y) (holds : KernelHolds live m y.toKernel) (event : Event) :
    Refines SystemOnHeap (fun fuel => (y.onHeap m).step fuel event) (y.step event) := by
  have sched := holds.sched
  have fresh : ∀ a t, y.allows (.taskCreate a) = true → a.tcb = some t → y.sched.events.ring t = none := by
    intro a t allowed named
    exact linked.placed.unlisted (by simp [fresh_of_allowed allowed named])
  have alive : ∀ self, y.running = some self → live (.link self) := by
    intro self running
    refine sched.made self (linked.known self ?_)
    simp only [System.running] at running
    split at running
    · exact running
    · cases running
  cases event with
  | create a =>
    refine Refines.ite (fun offered => ?_) fun _ => .none
    refine Refines.bind (sched.taskCreate a fun t => fresh a t offered.2) ?_
    rintro _ _ - ⟨st, live', grown, m', rfl, sched⟩
    exact .pure ⟨live', m', rfl, sched, fun x now => grown _ (holds.started x now)⟩
  | start =>
    refine Refines.ite (fun _ => .none) fun _ => ?_
    refine Refines.bind sched.selectNext ?_
    rintro _ _ - ⟨t, m', rfl, sched⟩
    exact .pure ⟨live, m', rfl, holds.update rfl (sched.congr rfl rfl rfl)⟩
  | tick =>
    refine Refines.bind sched.tick ?_
    rintro ⟨_, _⟩ s' - ⟨rfl, m', rfl, sched⟩
    exact .pure ⟨live, m', rfl, holds.update rfl sched⟩
  | isr c => exact isr_refines holds c
  | isrRequest => exact .pure ⟨live, m, rfl, holds⟩
  | pendSV =>
    refine Refines.ite (fun _ => ?_) fun _ => .none
    refine Refines.bind sched.selectNext ?_
    rintro _ _ - ⟨t, m', rfl, sched⟩
    exact .pure ⟨live, m', rfl, holds.update rfl (sched.congr rfl rfl rfl)⟩
  | dispatch t =>
    refine Refines.ite (fun _ => ?_) fun _ => .none
    refine Refines.bind (sched.dispatch t) ?_
    rintro _ s' - ⟨m', rfl, sched⟩
    exact .pure ⟨live, m', rfl, holds.update rfl (sched.congr rfl rfl rfl)⟩
  | call c =>
    refine Refines.bind (Refines.self y.running) ?_
    rintro self _ running rfl
    refine Refines.ite (fun offered => ?_) fun _ => .none
    refine enter_refines holds (alive self running) c ?_
    rintro a t rfl named
    exact fresh a t offered.2.2 named
  | proceed =>
    refine Refines.bind (Refines.self y.running) ?_
    rintro self _ running rfl
    exact proceed_refines linked holds (alive self running)

/-- A step of the kernel on pointers that ends was offered. -/
theorem offered_of_ends (linked : Linked y) (holds : KernelHolds live m y.toKernel) {h' : HeapSystem}
    (ended : Ends ((y.onHeap m).step · event) h') : y.Offered event := by
  obtain ⟨fuel, ended⟩ := ended
  have ran : (y.onHeap m).step fuel event = some h' := ended fuel (Nat.le_refl _)
  cases event with
  | create a =>
    simp only [HeapSystem.step] at ran
    split at ran
    · rename_i offered
      exact offered
    · cases ran
  | start =>
    simp only [HeapSystem.step] at ran
    split at ran
    · cases ran
    · rename_i unstarted
      exact Bool.eq_false_iff.mpr unstarted
  | tick | isr | isrRequest => trivial
  | pendSV =>
    simp only [HeapSystem.step] at ran
    split at ran
    · rename_i pending
      exact pending
    · cases ran
  | dispatch t =>
    simp only [HeapSystem.step] at ran
    split at ran
    · rename_i pending
      obtain ⟨middle, requeued⟩ := linked.requeueCurrent_defined
      obtain ⟨_, ⟨_, requeues⟩, m', rfl, _⟩ := holds.sched.requeueCurrent middle requeued
      have first : (y.onHeap m).sched.requeueCurrent = some (middle.onHeap m') := requeues _ (Nat.le_refl _)
      refine ⟨pending, (linked.requeued_ready requeued t).mp ?_⟩
      by_contra stopped
      simp [HeapSched.dispatch, first, stopped] at ran
    · cases ran
  | call c =>
    obtain ⟨self, running, ran⟩ := Option.bind_eq_some_iff.mp ran
    split at ran
    · rename_i offered
      exact ⟨self, running, offered⟩
    · cases ran
  | proceed =>
    obtain ⟨self, running, ran⟩ := Option.bind_eq_some_iff.mp ran
    refine ⟨self, running, fun idles => ?_⟩
    have idles : (y.onHeap m).pc self = .thread := idles
    simp [HeapSystem.proceed, idles] at ran

end System

/-! ### Runs -/

/-- The init functions, on memory in which the objects' lists are initialised. -/
theorem heapBoot_refines {m : Cells Place} (prepared : Prepared m) (cfg : Config) :
    ∃ h, heapBoot m cfg = some h ∧ SystemOnHeap h (boot cfg) := by
  obtain ⟨_, ⟨_, ended⟩, live, m', rfl, holds⟩ := schedulerInit_refines prepared _ rfl
  have inited : HeapSched.schedulerInit m = some (Sched.schedulerInit.onHeap m') := ended _ (Nat.le_refl _)
  have booted : heapBoot m cfg = some ((boot cfg).onHeap m') := by
    simp only [heapBoot, inited, Option.bind_eq_bind, Option.bind_some]
    rfl
  refine ⟨_, booted, live, m', rfl, holds.congr rfl rfl rfl, ?_⟩
  intro x active
  cases active

/-- States the kernel on pointers reaches from memory `m`, by steps that end. -/
def HeapRun (m : Cells Place) (cfg : Config) (guard : HeapSystem → Event → Prop) (h : HeapSystem) : Prop :=
  ∃ start, heapBoot m cfg = some start ∧ Reaches HeapSystem.step guard start h

namespace HeapSystem

/-- What the hardware and the tasks can do next. -/
def Offered (h : HeapSystem) : Event → Prop
  | .create a => h.started = false ∧ h.allows (.taskCreate a) = true
  | .start => h.started = false
  | .tick | .isr _ | .isrRequest => True
  | .pendSV => h.pendSv = true
  | .dispatch t => h.pendSv = true ∧ ((h.sched.tcb t).state = .ready ∨ (h.sched.tcb t).state = .running)
  | .call c => ∃ self, h.running = some self ∧ self ≠ idle ∧ h.pc self = .thread ∧ h.allows c = true
  | .proceed => ∃ self, h.running = some self ∧ h.pc self ≠ .thread

/-- The step boosts no READY owner and keeps the callers' side of the contract. -/
abbrev Behaves (h : HeapSystem) (event : Event) : Prop := h.boostsReady event = false ∧ h.honoured event = true

/-- `ts` are the members of a list with head `head`, threaded through `node`. -/
structure Threads {Node : Type} (h : HeapSystem) (head : Place) (node : Node → Place) (ts : List Node) : Prop where
  nodup : ts.Nodup
  chain : h.sched.cells.Chain head (ts.map node) head

/-- Every list in memory is a proper ring of exactly the nodes that belong on
it, and the bitmap shows which ready lists are not empty. -/
structure WellLinked (h : HeapSystem) : Prop where
  ready : ∀ p, p < maxPriorities → ∃ ts, h.Threads (.readyList p) .link ts ∧
    (∀ t, t ∈ ts ↔ (h.sched.tcb t).state = .ready ∧ (h.sched.tcb t).priority = p) ∧
    (h.sched.readyBitmap.getLsbD p = true ↔ ts ≠ [])
  delayed : ∃ ts, h.Threads .delayedList .link ts ∧
    ∀ t, t ∈ ts ↔ (h.sched.tcb t).state = .blocked ∧ ∃ b, (h.pc t).sleep = some b ∧ b.timed = true
  waiters : ∀ w, ∃ ts, h.Threads (.waiters w) .eventLink ts ∧
    ∀ t, t ∈ ts ↔ (h.sched.tcb t).state = .blocked ∧ ∃ b, (h.pc t).sleep = some b ∧ b.waitList = some w
  timers : ∃ xs, h.Threads .activeTimers .timerLink xs ∧ ∀ x, x ∈ xs ↔ (h.timer x).isActive = true

end HeapSystem

/-- None of this reads a list. -/
theorem offered_onHeap {y : System} {m : Cells Place} {event : Event} :
    (y.onHeap m).Offered event ↔ y.Offered event := by
  cases event <;> rfl

theorem honoured_onHeap (y : System) (m : Cells Place) (event : Event) :
    (y.onHeap m).honoured event = y.honoured event := by
  cases event with
  | call c =>
    cases c with
    | blocking b => cases b <;> rfl
    | _ => rfl
  | isr c => cases c <;> rfl
  | _ => rfl

theorem behaves_onHeap {y : System} {m : Cells Place} {event : Event} :
    (y.onHeap m).Behaves event ↔ Calm y event ∧ Honoured y event := by
  have boosts : (y.onHeap m).boostsReady event = y.boostsReady event := by
    cases event with
    | call c =>
      cases c with
      | blocking b => cases b <;> rfl
      | _ => rfl
    | _ => rfl
  rw [HeapSystem.Behaves, boosts, honoured_onHeap]

section
variable {m : Cells Place} {cfg : Config} {guard : System → Event → Prop} {y : System} {h : HeapSystem}
  {event : Event}

/-- A run on rings is simulated on pointers, under a guard that holds there
whatever the memory. -/
theorem heapRun_of_guarded {guard' : HeapSystem → Event → Prop} (prepared : Prepared m)
    (guards : ∀ y m event, guard y event → guard' (System.onHeap y m) event) (run : KernelRun cfg guard y) :
    ∃ h, HeapRun m cfg guard' h ∧ SystemOnHeap h y := by
  obtain ⟨start, booted, related⟩ := heapBoot_refines prepared cfg
  have simulated : ∃ h, Reaches HeapSystem.step guard' start h ∧ SystemOnHeap h y := by
    refine reaches_of_run related ?_ ?_ run
    · rintro _ y event ⟨live, m', rfl, _⟩ meets
      exact guards y m' event meets
    · rintro _ y event before ⟨live, m', rfl, holds⟩ _
      exact System.step_refines (linked_of_run before) holds event
  obtain ⟨h, reached, related⟩ := simulated
  exact ⟨h, ⟨start, booted, reached⟩, related⟩

/-- Every well-behaved run of the kernel on pointers is one of the kernel on
rings. -/
theorem run_of_heapRun (prepared : Prepared m) (fits : cfg.Fits) (run : HeapRun m cfg HeapSystem.Behaves h) :
    ∃ y, KernelRun cfg (fun y event => Calm y event ∧ Honoured y event) y ∧ SystemOnHeap h y := by
  obtain ⟨start, booted, reached⟩ := run
  obtain ⟨start', booted', related⟩ := heapBoot_refines prepared cfg
  obtain rfl : start' = start := Option.some.inj (booted'.symm.trans booted)
  refine run_of_reaches related ?_ ?_ ?_ reached
  · rintro _ y event ⟨live, m', rfl, _⟩ behaves
    exact behaves_onHeap.mp behaves
  · rintro _ y event before ⟨live, m', rfl, holds⟩ _
    exact System.step_refines (linked_of_run before) holds event
  · rintro _ y event h' before ⟨live, m', rfl, holds⟩ meets ended
    exact defined_of_run before fits meets.2 (System.offered_of_ends (linked_of_run before) holds ended)

/-- Every run of the kernel on rings is one of the kernel on pointers: no loop
over a list goes on forever, and no list head is taken for a TCB or a timer.
Whatever memory holds the state reached, it is stepped as the rings are. -/
theorem heapRun_of_run (prepared : Prepared m) (run : KernelRun cfg guard y) :
    (∃ h, HeapRun m cfg (fun _ _ => True) h ∧ SystemOnHeap h y) ∧
      ∀ h, SystemOnHeap h y → ∀ event, Refines SystemOnHeap (HeapSystem.step · h event) (y.step event) := by
  constructor
  · exact heapRun_of_guarded prepared (fun _ _ _ _ => trivial) run
  · rintro _ ⟨live, m', rfl, holds⟩ event
    exact System.step_refines (linked_of_run run) holds event

theorem wellLinked_onHeap {live : Place → Prop} (linked : Linked y) (indexed : Indexed y.sched)
    (sane : Sane y.toKernel) (holds : KernelHolds live m y.toKernel) : (y.onHeap m).WellLinked := by
  have lists := holds.sched.lists
  refine ⟨?_, ?_, ?_, ?_⟩
  · intro p bound
    refine ⟨_, ⟨y.sched.links.nodup (.ready p), lists.ready_chain bound⟩, ?_, indexed.bit_iff p⟩
    intro t
    rw [Rings.mem_items]
    constructor
    · intro threaded
      exact ⟨linked.placed.ready_iff.mpr ⟨p, threaded⟩, indexed.listed t p threaded⟩
    · rintro ⟨ready, rfl⟩
      obtain ⟨q, threaded⟩ := linked.placed.ready_iff.mp ready
      obtain rfl := indexed.listed t q threaded
      exact threaded
  · refine ⟨_, ⟨y.sched.links.nodup .delayed, lists.delayed_chain⟩, ?_⟩
    intro t
    rw [linked.delayed_waiting]
    simp only [Linked.waiting_iff, and_assoc, exists_and_left]
    rfl
  · intro w
    refine ⟨_, ⟨y.sched.events.nodup w, lists.event_chain w⟩, ?_⟩
    intro t
    rw [linked.listed_waiting]
    simp only [Linked.waiting_iff, and_assoc, exists_and_left]
    rfl
  · exact ⟨_, ⟨y.timers.active.nodup (), lists.timer_chain⟩, sane.timers⟩

/-- In every well-behaved run of the kernel on pointers the lists are what they
should be, and the run is one of the kernel on rings. -/
theorem wellLinked_of_heapRun (prepared : Prepared m) (fits : cfg.Fits)
    (run : HeapRun m cfg HeapSystem.Behaves h) :
    h.WellLinked ∧
      ∃ y, KernelRun cfg (fun y event => Calm y event ∧ Honoured y event) y ∧ SystemOnHeap h y := by
  obtain ⟨y, before, live, m', rfl, holds⟩ := run_of_heapRun prepared fits run
  have indexed := indexed_of_run (before.weaken fun _ _ meets => meets.1)
  exact ⟨wellLinked_onHeap (linked_of_run before) indexed (sane_of_run before fits) holds, y, before, live, m',
    rfl, holds⟩

/-- A step that is offered ends: every walk along a list comes back to its head. -/
theorem heapStep_ends_iff (prepared : Prepared m) (fits : cfg.Fits) (run : HeapRun m cfg HeapSystem.Behaves h)
    (honoured : h.honoured event = true) :
    (∃ h', Ends (HeapSystem.step · h event) h') ↔ h.Offered event := by
  obtain ⟨y, before, live, m', rfl, holds⟩ := run_of_heapRun prepared fits run
  have linked := linked_of_run before
  rw [offered_onHeap]
  constructor
  · rintro ⟨_, ended⟩
    exact System.offered_of_ends linked holds ended
  · intro offered
    have kept : Honoured y event := (honoured_onHeap y m' event).symm.trans honoured
    obtain ⟨z, stepped⟩ := Option.isSome_iff_exists.mp (defined_of_run before fits kept offered)
    obtain ⟨h', ended, _⟩ := System.step_refines linked holds event z stepped
    exact ⟨h', ended⟩

end

/-- Memory in which every node is linked to itself. -/
theorem prepared_id : Prepared ⟨id, id⟩ := ⟨fun _ => ⟨rfl, rfl⟩, rfl, rfl⟩

set_option maxRecDepth 10000 in
/-- A task sleeps on a full queue while another runs. -/
theorem wrapAround_behaves : ∃ y : System,
    KernelRun twoItems (fun y event => Calm y event ∧ Honoured y event) y ∧ y.running.isSome = true :=
  GuardedRun.reaches_of_exec wrapAround (fun y : System => y.running.isSome)
    (by decide +kernel : (GuardedRun.exec System.step (fun y event => Calm y event ∧ Honoured y event)
      (boot twoItems) wrapAround).map (fun y => y.running.isSome) = some true)

theorem wrapAround_onHeap :
    ∃ y h, HeapRun ⟨id, id⟩ twoItems (fun _ _ => True) h ∧ SystemOnHeap h y ∧ y.running.isSome = true := by
  obtain ⟨y, run, runs⟩ := wrapAround_behaves
  obtain ⟨⟨h, heapRun, related⟩, _⟩ := heapRun_of_run prepared_id run
  exact ⟨y, h, heapRun, related, runs⟩

theorem wrapAround_wellLinked :
    ∃ h, HeapRun ⟨id, id⟩ twoItems HeapSystem.Behaves h ∧ h.running.isSome = true ∧ h.WellLinked := by
  obtain ⟨y, run, runs⟩ := wrapAround_behaves
  obtain ⟨h, heapRun, live, m, rfl, holds⟩ :=
    heapRun_of_guarded prepared_id (fun _ _ _ => behaves_onHeap.mpr) run
  exact ⟨_, heapRun, runs, (wellLinked_of_heapRun prepared_id twoItems_fits heapRun).1⟩

theorem wrapAround_ends :
    ∃ h, HeapRun ⟨id, id⟩ twoItems HeapSystem.Behaves h ∧
      ∃ h', Ends (HeapSystem.step · h .tick) h' := by
  obtain ⟨y, run, _⟩ := wrapAround_behaves
  obtain ⟨h, heapRun, _⟩ := heapRun_of_guarded prepared_id (fun _ _ _ => behaves_onHeap.mpr) run
  exact ⟨h, heapRun, (heapStep_ends_iff prepared_id twoItems_fits heapRun rfl).mpr trivial⟩

end NimbleRtos
