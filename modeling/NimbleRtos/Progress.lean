import NimbleRtos.Indexing
import NimbleRtos.QueueFifo
import NimbleRtos.TimerCalls

/-! When the kernel has a next step. A critical section has no result where the
source has no defined behaviour, so a step that is offered and has a result is
one in which no list is corrupted, no buffer overrun and no list head taken for
a TCB. -/
namespace NimbleRtos
open NodeRings Sched NimbleRtos.System

/-! ## Critical sections -/

namespace Sched
variable {s : Sched} {t : TaskId}

theorem blockCurrentDelay_defined (s : Sched) (t : TaskId) (wakeTick : Tick) :
    ∃ s', s.blockCurrentDelay t wakeTick = some s' := by
  simp [blockCurrentDelay, Rings.insertTail, Rings.insert]

theorem prepareBlock_defined (s : Sched) (t : TaskId) (timeoutTicks : Tick) :
    ∃ s', s.prepareBlock t timeoutTicks = some s' := by
  unfold prepareBlock
  dsimp only
  split
  · simp [setState, Rings.insertTail, Rings.insert]
  · exact ⟨_, rfl⟩

theorem wakeWaiter_defined (s : Sched) (h : WaitList) : ∃ woken s', s.wakeWaiter h = some (woken, s') := by
  unfold wakeWaiter
  split
  · exact ⟨_, _, rfl⟩
  · rename_i t rest _
    obtain ⟨s', added⟩ := Option.isSome_iff_exists.mp (wake_defined s t .ok)
    exact ⟨some t, s', by simpa only [Option.bind_eq_bind, Option.bind_eq_some_iff] using ⟨s', added, rfl⟩⟩

/-- A caller on no wait list can be put to sleep on one. -/
theorem sleep_defined (unlisted : s.events.ring t = none) (h : WaitList) (timeoutTicks : Tick) :
    ∃ middle s', s.insertWaiterPrioritySorted h t = some middle ∧
      middle.prepareBlock t timeoutTicks = some s' := by
  obtain ⟨s', blocked⟩ := prepareBlock_defined (s.enqueued h t) t timeoutTicks
  exact ⟨_, s', insertWaiter_eq_some.mpr ⟨unlisted, rfl⟩, blocked⟩

end Sched

section
variable {s : Sched} {self : TaskId}

theorem Mutex.lock_defined (m : MutexId) (x : Mutex) (timeoutTicks : Tick)
    (unlisted : s.events.ring self = none) : (Mutex.lock m x s self timeoutTicks).isSome = true := by
  unfold Mutex.lock
  split
  · rfl
  · rename_i owner _
    split
    · rfl
    · split
      · rfl
      · obtain ⟨_, _, inserted, blocked⟩ := sleep_defined (s := boost s owner self)
          (by simpa using unlisted) (.mutex m) timeoutTicks
        simp [inserted, blocked]

theorem Mutex.unlock_defined (m : MutexId) (x : Mutex) (s : Sched) (self : TaskId) :
    (Mutex.unlock m x s self).isSome = true := by
  unfold Mutex.unlock
  split
  · rfl
  · dsimp only
    split
    · rfl
    · obtain ⟨woken, _, woke⟩ := wakeWaiter_defined (s.setPriority self (s.tcb self).basePriority) (.mutex m)
      cases woken <;> simp [woke]

theorem Semaphore.take_defined (id : SemaphoreId) (x : Semaphore) (timeoutTicks : Tick)
    (unlisted : s.events.ring self = none) : (Semaphore.take id x s self timeoutTicks).isSome = true := by
  unfold Semaphore.take
  split
  · rfl
  · split
    · rfl
    · obtain ⟨_, _, inserted, blocked⟩ := sleep_defined unlisted (.semaphore id) timeoutTicks
      simp [inserted, blocked]

theorem Semaphore.giveUnit_defined (id : SemaphoreId) (x : Semaphore) (s : Sched) :
    (Semaphore.giveUnit id x s).isSome = true := by
  obtain ⟨woken, _, woke⟩ := wakeWaiter_defined s (.semaphore id)
  unfold Semaphore.giveUnit
  cases woken with
  | some t => simp [woke]
  | none =>
    simp only [woke, Option.bind_eq_bind, Option.bind_some]
    split <;> rfl

variable {x : Queue} {item : Bytes}

theorem Queue.send_defined (q : QueueId) (timeoutTicks : Tick) (formed : x.WellFormed)
    (sized : item.length = x.itemSize.toNat) (unlisted : s.events.ring self = none) :
    (Queue.send q x s self item timeoutTicks).isSome = true := by
  unfold Queue.send
  split
  · rename_i room
    obtain ⟨_, copied⟩ := Option.isSome_iff_exists.mp (formed.copyIn_defined room sized)
    obtain ⟨_, _, woke⟩ := wakeWaiter_defined s (.receivers q)
    simp [copied, woke]
  · split
    · rfl
    · obtain ⟨_, _, inserted, blocked⟩ := sleep_defined unlisted (.senders q) timeoutTicks
      simp [inserted, blocked]

theorem Queue.receive_defined (q : QueueId) (timeoutTicks : Tick) (formed : x.WellFormed)
    (unlisted : s.events.ring self = none) : (Queue.receive q x s self timeoutTicks).isSome = true := by
  unfold Queue.receive
  split
  · rename_i someLeft
    obtain ⟨_, copied⟩ := Option.isSome_iff_exists.mp (formed.copyOut_defined someLeft)
    obtain ⟨_, _, woke⟩ := wakeWaiter_defined s (.senders q)
    simp [copied, woke]
  · split
    · rfl
    · obtain ⟨_, _, inserted, blocked⟩ := sleep_defined unlisted (.receivers q) timeoutTicks
      simp [inserted, blocked]

theorem Queue.sendResumed_defined (s : Sched) (self : TaskId) (formed : x.WellFormed)
    (sized : item.length = x.itemSize.toNat) : (Queue.sendResumed x s self item).isSome = true := by
  unfold Queue.sendResumed
  dsimp only
  split
  · rfl
  · split
    · rename_i room
      obtain ⟨_, copied⟩ := Option.isSome_iff_exists.mp (formed.copyIn_defined room sized)
      simp [copied]
    · rfl

theorem Queue.receiveResumed_defined (s : Sched) (self : TaskId) (formed : x.WellFormed) :
    (Queue.receiveResumed x s self).isSome = true := by
  unfold Queue.receiveResumed
  dsimp only
  split
  · rfl
  · split
    · rename_i someLeft
      obtain ⟨_, copied⟩ := Option.isSome_iff_exists.mp (formed.copyOut_defined someLeft)
      simp [copied]
    · rfl

theorem Queue.sendFromIsr_defined (q : QueueId) (s : Sched) (formed : x.WellFormed)
    (sized : item.length = x.itemSize.toNat) : (Queue.sendFromIsr q x s item).isSome = true := by
  unfold Queue.sendFromIsr
  split
  · rfl
  · rename_i room
    have room : x.count < x.capacity := UInt32.not_le.mp room
    obtain ⟨_, copied⟩ := Option.isSome_iff_exists.mp (formed.copyIn_defined room sized)
    obtain ⟨_, _, woke⟩ := wakeWaiter_defined s (.receivers q)
    simp [copied, woke]

end

/-! ## Calls -/

/-- What a call relies on: queues whose indices delimit slots inside their
buffers, active timers that are the listed ones, and items of the size the
queue was initialised with. -/
structure Sane (k : Kernel) : Prop where
  queues : ∀ q, (k.queues q).WellFormed
  timers : ∀ x, x ∈ k.timers.active.items () ↔ (k.timers.timer x).isActive = true

/-- The caller's side of a call's contract: an item pointer leads to one item of
the queue, and a timer is initialised only while it is not active. -/
def Kernel.honours (k : Kernel) : Call → Bool
  | .blocking (.queueSend q item _) => item.length = (k.queues q).itemSize.toNat
  | .timerInit x _ _ _ _ => !(k.timers.timer x).isActive
  | _ => true

/-- That of a call from an interrupt. -/
def Kernel.isrHonours (k : Kernel) : IsrCall → Bool
  | .queueSendFromIsr q item => item.length = (k.queues q).itemSize.toNat
  | _ => true

namespace Kernel
variable {k : Kernel} {self : TaskId}

theorem unlisted_timer (sane : Sane k) {x : TimerId} (idle : (k.timers.timer x).isActive = false) :
    k.timers.active.ring x = none := by
  by_contra listed
  obtain ⟨_, threaded⟩ := Option.ne_none_iff_exists'.mp listed
  have active := (sane.timers x).mp ((k.timers.active.mem_items () x).mpr threaded)
  rw [idle] at active
  cases active

/-- The first critical section of a call by a task that is on no wait list. -/
theorem call_defined (sane : Sane k) (unlisted : k.sched.events.ring self = none) {c : Call}
    (honoured : k.honours c = true)
    (fresh : ∀ a t, c = .taskCreate a → a.tcb = some t → k.sched.links.ring t = none)
    (stopped : ∀ t, (k.sched.tcb t).state = .suspended → k.sched.links.ring t = none) :
    (k.call self c).isSome = true := by
  cases c with
  | blocking b =>
    cases b with
    | taskDelay ticks =>
      simp only [call, block]
      split
      · rfl
      · obtain ⟨_, blocked⟩ := blockCurrentDelay_defined k.sched self (k.sched.tickCount + ticks)
        simp [taskDelay, blocked]
    | mutexLock m timeoutTicks =>
      have ran := Mutex.lock_defined m (k.mutexes m) timeoutTicks unlisted
      obtain ⟨_, locked⟩ := Option.isSome_iff_exists.mp ran
      simp [call, block, locked]
    | semaphoreTake s timeoutTicks =>
      have ran := Semaphore.take_defined s (k.semaphores s) timeoutTicks unlisted
      obtain ⟨_, taken⟩ := Option.isSome_iff_exists.mp ran
      simp [call, block, taken]
    | queueSend q item timeoutTicks =>
      have sized : item.length = (k.queues q).itemSize.toNat := by simpa [honours] using honoured
      have ran := Queue.send_defined q timeoutTicks (sane.queues q) sized unlisted
      obtain ⟨_, sent⟩ := Option.isSome_iff_exists.mp ran
      simp [call, block, sent]
    | queueReceive q timeoutTicks =>
      have ran := Queue.receive_defined q timeoutTicks (sane.queues q) unlisted
      obtain ⟨_, received⟩ := Option.isSome_iff_exists.mp ran
      simp [call, block, received]
  | taskCreate a =>
    cases named : a.tcb with
    | none => simp [call, Sched.taskCreate, named]
    | some t =>
      obtain ⟨_, _, created⟩ := taskCreate_defined named (fresh a t rfl named)
      simp [call, created]
  | taskYield | taskSuspend | timerStop | timerReset | timerSleep => rfl
  | taskResume t =>
    simp only [call, taskResume]
    split
    · rename_i suspended
      simp [addReady_eq_some.mpr ⟨stopped t suspended, rfl⟩]
    · rfl
  | mutexUnlock m =>
    obtain ⟨_, unlocked⟩ := Option.isSome_iff_exists.mp (Mutex.unlock_defined m (k.mutexes m) k.sched self)
    simp [call, unlocked]
  | semaphoreGive s =>
    obtain ⟨_, gave⟩ := Option.isSome_iff_exists.mp (Semaphore.giveUnit_defined s (k.semaphores s) k.sched)
    simp [call, Semaphore.give, gave]
  | timerInit x periodTicks isPeriodic callback arg =>
    have free := unlisted_timer sane (x := x) (by simpa [honours] using honoured)
    simp [call, Timers.timerInit, free]
  | timerStart x =>
    have known : k.timers.active.ring x = none ∨ (k.timers.timer x).isActive = true := by
      cases active : (k.timers.timer x).isActive with
      | false => exact .inl (unlisted_timer sane active)
      | true => exact .inr rfl
    obtain ⟨_, _, started⟩ := Timers.timerStart_defined known k.sched.tickCount
    simp [call, started]
  | timerExpire =>
    obtain ⟨_, _, expired⟩ := Timers.expire_defined k.timers k.sched.tickCount
    simp [call, expired]

theorem isrCall_defined (sane : Sane k) {c : IsrCall} (honoured : k.isrHonours c = true) :
    (k.isrCall c).isSome = true := by
  cases c with
  | semaphoreGiveFromIsr s =>
    obtain ⟨_, gave⟩ := Option.isSome_iff_exists.mp (Semaphore.giveUnit_defined s (k.semaphores s) k.sched)
    simp [isrCall, Semaphore.giveFromIsr, gave]
  | queueSendFromIsr q item =>
    have sized : item.length = (k.queues q).itemSize.toNat := by simpa [isrHonours] using honoured
    have ran := Queue.sendFromIsr_defined q k.sched (sane.queues q) sized
    obtain ⟨_, sent⟩ := Option.isSome_iff_exists.mp ran
    simp [isrCall, sent]

/-- The second critical section of a call whose first was honoured. -/
theorem resume_defined (sane : Sane k) (self : TaskId) {b : BlockingCall}
    (honoured : k.honours (.blocking b) = true) : (k.resume self b).isSome = true := by
  cases b with
  | taskDelay | mutexLock | semaphoreTake => rfl
  | queueSend q item timeoutTicks =>
    have sized : item.length = (k.queues q).itemSize.toNat := by simpa [honours] using honoured
    have ran := Queue.sendResumed_defined k.sched self (sane.queues q) sized
    obtain ⟨_, sent⟩ := Option.isSome_iff_exists.mp ran
    simp [resume, sent]
  | queueReceive q timeoutTicks =>
    obtain ⟨_, received⟩ := Option.isSome_iff_exists.mp
      (Queue.receiveResumed_defined k.sched self (sane.queues q))
    simp [resume, received]

end Kernel

/-! ## Steps -/

namespace System
variable {y z : System} {event : Event}

/-- What the hardware and the tasks can do next: a switch while PendSV is
pending, a call by the running task, or the rest of the one it is in. -/
def Offered (y : System) : Event → Prop
  | .create a => y.started = false ∧ y.allows (.taskCreate a) = true
  | .start => y.started = false
  | .tick | .isr _ | .isrRequest => True
  | .pendSV => y.pendSv = true
  | .dispatch t => y.pendSv = true ∧ Linked.Runnable y.sched t
  | .call c => ∃ self, y.running = some self ∧ self ≠ idle ∧ y.pc self = .thread ∧ y.allows c = true
  | .proceed => ∃ self, y.running = some self ∧ y.pc self ≠ .thread

/-- The callers keep their side of the contract. -/
def honoured (y : System) : Event → Bool
  | .isr c => y.isrHonours c
  | .call c => y.toKernel.honours c
  | _ => true

/-- A sleeping sender's pointer leads to one item of its queue. -/
def ItemsFit (y : System) : Prop :=
  ∀ t b, (y.pc t).sleep = some b → y.toKernel.honours (.blocking b) = true

/-- A step that has a result was offered. -/
theorem offered_of_step (linked : Linked y) (stepped : y.step event = some z) : y.Offered event := by
  cases step_cases stepped with
  | creates unstarted allowed => exact ⟨unstarted, allowed⟩
  | starts unstarted => exact unstarted
  | ticks | interrupts | isrRequests => trivial
  | selects pending => exact pending
  | dispatches pending switched =>
    obtain ⟨_, requeued, ready, _⟩ := dispatch_spec switched
    exact ⟨pending, (linked.requeued_ready requeued _).mp ready⟩
  | calls running application here allowed => exact ⟨_, running, application, here, allowed⟩
  | requests running here | finishes running here | continues running here | fires running here =>
    exact ⟨_, running, by simp [here]⟩

theorem honours_congr {k k' : Kernel} (sizes : ∀ q, (k'.queues q).itemSize = (k.queues q).itemSize)
    (b : BlockingCall) : k'.honours (.blocking b) = k.honours (.blocking b) := by
  cases b with
  | queueSend q item timeoutTicks => simp only [Kernel.honours, sizes]
  | _ => rfl

/-- The calls that timer.c makes have no contract to keep. -/
theorem honours_internal (k : Kernel) {c : Call} (internal : c.Internal) : k.honours c = true := by
  cases c with
  | blocking b => cases b <;> first | rfl | exact internal.elim
  | timerInit => exact internal.elim
  | _ => rfl

theorem honours_entered (linked : Linked y) (honoured : y.honoured event = true) {c : Call}
    (runs : y.enters event = some c) : y.toKernel.honours c = true := by
  cases event with
  | call c' =>
    cases runs
    exact honoured
  | proceed =>
    simp only [System.enters] at runs
    split at runs
    · rename_i c' standing
      cases runs
      obtain ⟨self, _, here⟩ := Option.map_eq_some_iff.mp standing
      exact honours_internal _ (linked.internal self c here)
    · cases runs
  | _ => cases runs

theorem ItemsFit.step (pending : y.ItemsFit) (linked : Linked y) (honoured : y.honoured event = true)
    (sizes : ∀ q, (z.queues q).itemSize = (y.queues q).itemSize) (stepped : y.step event = some z) :
    z.ItemsFit := by
  intro t b asleep
  rw [honours_congr sizes]
  cases step_advances stepped with
  | bystands _ _ bystands => exact pending t b (bystands.sleep t b asleep)
  | ticks | interrupts => exact pending t b asleep
  | @enters _ self c r _ runs _ ran =>
    by_cases caller : t = self
    · subst caller
      have here : (outcomePc c r.outcome).sleep = some b := by simpa [entered] using asleep
      have blocks : r.outcome = .blocks := by
        by_contra awake
        rw [outcomePc_sleep awake] at here
        cases here
      obtain ⟨b', rfl⟩ := outcome_blocks ran blocks
      rw [blocks] at here
      cases here
      exact honours_entered linked honoured runs
    · exact pending t b (by simpa [entered, caller] using asleep)

/-- Whatever is offered in a state that keeps the invariants has a result, a
switch only where the ready lists are indexed. -/
theorem step_of_offered (linked : Linked y) (sane : Sane y.toKernel) (pending : y.ItemsFit)
    (honoured : y.honoured event = true) (offered : y.Offered event)
    (indexed : event = .start ∨ event = .pendSV → Indexed y.sched) : ∃ z, y.step event = some z := by
  have fresh : ∀ a t, y.allows (.taskCreate a) = true → a.tcb = some t → y.sched.links.ring t = none := by
    intro a t allowed named
    have deleted := fresh_of_allowed allowed named
    have placed := linked.placed t
    rw [deleted] at placed
    generalize y.sched.links.ring t = link, y.sched.events.ring t = listed, y.pc t = here at placed ⊢
    cases placed
    rfl
  have calls : ∀ self c, y.running = some self → (∀ b, y.pc self ≠ .requesting b) → y.allows c = true →
      y.toKernel.honours c = true → ∃ r, y.toKernel.call self c = some r := by
    intro self c running busy allowed kept
    have state := linked.self_running running busy
    refine Option.isSome_iff_exists.mp (Kernel.call_defined sane ?_ kept ?_ ?_)
    · exact linked.placed.unlisted (by simp [state])
    · rintro a t rfl named
      exact fresh a t allowed named
    · exact fun t suspended => linked.placed.free (.inr suspended)
  cases event with
  | create a =>
    have made : ∃ st s, y.sched.taskCreate a = some (st, s) := by
      cases named : a.tcb with
      | none => exact ⟨.invalidArg, y.sched, by simp [Sched.taskCreate, named]⟩
      | some t => exact taskCreate_defined named (fresh a t offered.2 named)
    obtain ⟨_, _, made⟩ := made
    simp [System.step, offered.1, offered.2, made]
  | start =>
    obtain ⟨_, _, selected⟩ := linked.selectNext_defined (indexed (.inl rfl))
    have unstarted : y.started = false := offered
    simp [System.step, unstarted, selected]
  | tick =>
    obtain ⟨_, ticked⟩ := tick_defined y.sched
    simp [System.step, ticked]
  | isr c =>
    obtain ⟨_, ran⟩ := Option.isSome_iff_exists.mp (Kernel.isrCall_defined sane honoured)
    simp [System.step, System.isr, ran]
  | isrRequest => exact ⟨_, rfl⟩
  | pendSV =>
    obtain ⟨_, _, selected⟩ := linked.selectNext_defined (indexed (.inr rfl))
    have pending : y.pendSv = true := offered
    simp [System.step, pending, selected]
  | dispatch t =>
    obtain ⟨middle, requeued⟩ := linked.requeueCurrent_defined
    have ready := (linked.requeued_ready requeued t).mpr offered.2
    simp [System.step, offered.1, Sched.dispatch, requeued, ready]
  | call c =>
    obtain ⟨self, running, application, here, allowed⟩ := offered
    obtain ⟨_, ran⟩ := calls self c running (by simp [here]) allowed honoured
    simp [System.step, running, application, here, allowed, System.enter, ran]
  | proceed =>
    obtain ⟨self, running, busy⟩ := offered
    cases here : y.pc self with
    | thread => exact absurd here busy
    | requesting | firing => simp [System.step, running, System.proceed, here]
    | parked b =>
      have asleep : (y.pc self).sleep = some b := by rw [here]; rfl
      obtain ⟨_, ran⟩ := Option.isSome_iff_exists.mp
        (Kernel.resume_defined sane self (pending self b asleep))
      simp [System.step, running, System.proceed, here, System.finish, ran]
    | calling c =>
      have internal := linked.internal self c here
      obtain ⟨_, ran⟩ := calls self c running (by simp [here]) (Linked.allows_internal internal)
        (honours_internal _ internal)
      simp [System.step, running, System.proceed, here, System.enter, ran]

end System

/-! ## Runs -/

/-- Every queue's buffer holds its items. -/
def Config.Fits (cfg : Config) : Prop :=
  ∀ q, Queue.Fits (cfg.queue q).1 (cfg.queue q).2.1 (cfg.queue q).2.2

/-- Runs in which the callers keep their side of the contract. -/
abbrev Honoured (y : System) (event : Event) : Prop := y.honoured event = true

section
variable {cfg : Config} {guard : System → Event → Prop} {y : System} {event : Event}

theorem sane_of_run (run : KernelRun cfg guard y) (fits : cfg.Fits) : Sane y.toKernel := by
  refine ⟨fun q => (fifo_of_run run q (fits q)).formed, ?_⟩
  obtain ⟨log, run⟩ : ∃ log, TimerRun cfg.tickCount GuardedRun.Free (y.timing log) :=
    timing_of_run run fun _ _ _ _ _ _ => trivial
  have enrolled := run.invariant TimerSystem.Enrolled (TimerSystem.ordered_boot _).active
    fun _ _ _ enrolled _ stepped => enrolled.step stepped
  exact enrolled

theorem itemsFit_of_run (run : KernelRun cfg Honoured y) (fits : cfg.Fits) : y.ItemsFit := by
  induction run with
  | refl =>
    intro t b asleep
    cases asleep
  | next before meets stepped ih =>
    refine ih.step (linked_of_run before) meets ?_ stepped
    intro q
    have first := (fifo_of_run before q (fits q)).shape.itemSize
    have second := (fifo_of_run (before.next meets stepped) q (fits q)).shape.itemSize
    exact second.trans first.symm

/-- What is offered has a result in a run that boosts no READY owner. -/
theorem defined_of_run (run : KernelRun cfg (fun y event => Calm y event ∧ Honoured y event) y)
    (fits : cfg.Fits) (honoured : Honoured y event) (offered : y.Offered event) :
    (y.step event).isSome = true := by
  have indexed := indexed_of_run (run.weaken fun _ _ meets => meets.1)
  have pending := itemsFit_of_run (run.weaken fun _ _ meets => meets.2) fits
  exact Option.isSome_iff_exists.mpr
    (step_of_offered (linked_of_run run) (sane_of_run run fits) pending honoured offered fun _ => indexed)

/-- In a run that boosts no READY owner the kernel has no undefined behaviour:
it takes exactly the steps that are offered. -/
theorem steps_iff_offered (run : KernelRun cfg (fun y event => Calm y event ∧ Honoured y event) y)
    (fits : cfg.Fits) (honoured : Honoured y event) :
    (y.step event).isSome = true ↔ y.Offered event := by
  constructor
  · intro defined
    obtain ⟨z, stepped⟩ := Option.isSome_iff_exists.mp defined
    exact offered_of_step (linked_of_run run) stepped
  · exact defined_of_run run fits honoured

/-- Before `nimble_scheduler_start` no task runs, so no lock call boosts. -/
theorem indexed_of_unstarted (run : KernelRun cfg guard y) (unstarted : y.started = false) :
    Indexed y.sched := by
  induction run with
  | refl => exact indexed_boot cfg
  | @next s t event before _ stepped ih =>
    have earlier : s.started = false := by
      cases step_cases stepped with
      | starts => cases unstarted
      | _ => exact unstarted
    have calm : s.boostsReady event = false := by
      have nobody : s.running = none := by simp [running, earlier]
      unfold boostsReady
      split
      · rw [nobody]
      · rfl
    exact (ih earlier).step (linked_of_run before) calm stepped

/-- Whatever the run, an offered step without a result is a context switch, and
only after a READY owner has been boosted. -/
theorem undefined_only_after_boost (run : KernelRun cfg Honoured y) (fits : cfg.Fits)
    (honoured : Honoured y event) (offered : y.Offered event) (stuck : y.step event = none) :
    event = .pendSV ∧ ¬ KernelRun cfg Calm y := by
  have linked := linked_of_run run
  have fails : ∀ indexed : event = .start ∨ event = .pendSV → Indexed y.sched, False := by
    intro indexed
    obtain ⟨z, stepped⟩ := step_of_offered linked (sane_of_run run fits) (itemsFit_of_run run fits)
      honoured offered indexed
    rw [stuck] at stepped
    cases stepped
  refine ⟨?_, fun calm => fails fun _ => indexed_of_run calm⟩
  by_contra other
  refine fails ?_
  rintro (rfl | same)
  · exact indexed_of_unstarted run offered
  · exact absurd same other

end

theorem twoItems_fits : twoItems.Fits := by
  intro q
  constructor <;> simp [twoItems]

theorem default_fits : Config.Fits {} := by
  intro q
  constructor <;> simp

set_option maxRecDepth 10000 in
/-- A receive by a task that holds the CPU while the queue's sender sleeps. -/
theorem wrapAround_steps :
    ∃ y, KernelRun twoItems (fun y event => Calm y event ∧ Honoured y event) y ∧
      Honoured y (.call (.blocking (.queueReceive 0 0))) ∧
      ((y.step (.call (.blocking (.queueReceive 0 0)))).isSome = true ↔
        y.Offered (.call (.blocking (.queueReceive 0 0)))) := by
  obtain ⟨y, run, _⟩ := GuardedRun.reaches_of_exec wrapAround (fun y : System => y.running.isSome)
    (by decide +kernel : (GuardedRun.exec System.step (fun y event => Calm y event ∧ Honoured y event)
      (boot twoItems) wrapAround).map (fun y => y.running.isSome) = some true)
  exact ⟨y, run, rfl, steps_iff_offered run twoItems_fits rfl⟩

set_option maxRecDepth 10000 in
/-- The boost of a READY owner ends in a switch without a result. -/
theorem boostedInList_undefined :
    ∃ y, KernelRun {} Honoured y ∧ y.step .pendSV = none ∧ ¬ KernelRun {} Calm y := by
  obtain ⟨y, run, stuck⟩ := GuardedRun.reaches_of_exec boostedInList
    (fun y : System => y.pendSv && (y.step .pendSV).isNone)
    (by decide +kernel : (GuardedRun.exec System.step Honoured (boot {}) boostedInList).map
      (fun y => y.pendSv && (y.step .pendSV).isNone) = some true)
  simp only [Bool.and_eq_true, Option.isNone_iff_eq_none] at stuck
  obtain ⟨pending, stuck⟩ := stuck
  have boosted := undefined_only_after_boost run default_fits (show Honoured y .pendSV from rfl) pending stuck
  exact ⟨y, run, stuck, boosted.2⟩

end NimbleRtos
