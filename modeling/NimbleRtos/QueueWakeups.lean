import NimbleRtos.Foundation.WaitPool
import NimbleRtos.QueueFifo

/-! Wake-ups on a queue. Its items are a pool the receivers wait for, its free
slots a pool the senders wait for. The fast paths signal a waiter for every
unit they add; a sender or receiver that resumes after a sleep adds a unit to
the other side's pool without signalling anyone. -/
namespace NimbleRtos
open NodeRings Sched WaitPool NimbleRtos.System

/-- Woken from wait list `h` by a signal, and not resumed yet. -/
def WaitStatus.signalled (h : WaitList) : WaitStatus → Bool
  | .woken b result => b.waitList = some h && result ≠ .timeout
  | _ => false

namespace System

def pool (y : System) (h : WaitList) (available : Nat) : Pool :=
  ⟨available, (y.sched.events.items h).length, y.tally (WaitStatus.signalled h)⟩

/-- What receivers of `q` wait for. -/
def itemPool (y : System) (q : QueueId) : Pool :=
  y.pool (.receivers q) (y.queues q).count.toNat

/-- What senders of `q` wait for. -/
def roomPool (y : System) (q : QueueId) : Pool :=
  y.pool (.senders q) ((y.queues q).capacity.toNat - (y.queues q).count.toNat)

/-- The running task resumes in `nimble_queue_send` and adds an item while a
receiver waits, or in `nimble_queue_receive` and frees a slot while a sender
waits: the waiter is not woken. -/
def skipsWake (y : System) (q : QueueId) : Event → Bool
  | .proceed =>
    match y.running with
    | none => false
    | some self =>
      (y.sched.tcb self).lastWaitResult ≠ .timeout &&
        match y.pc self with
        | .parked (.queueSend q' _ _) => q' = q && (y.queues q).count < (y.queues q).capacity &&
            !(y.sched.events.items (.receivers q)).isEmpty
        | .parked (.queueReceive q' _) => q' = q && 0 < (y.queues q).count &&
            !(y.sched.events.items (.senders q)).isEmpty
        | _ => false
  | _ => false

end System

namespace Queue
variable {x x' : Queue} {item out : Bytes}

theorem copyIn_counts (room : x.count < x.capacity) (copied : x.copyIn item = some x') :
    x'.count.toNat = x.count.toNat + 1 ∧ x'.capacity = x.capacity := by
  unfold copyIn at copied
  split at copied
  · simp only [Option.bind_eq_bind, Option.bind_eq_some_iff, Option.some.injEq] at copied
    obtain ⟨_, _, _, _, rfl⟩ := copied
    have room := UInt32.lt_iff_toNat_lt.mp room
    have bound := x.capacity.toNat_lt
    refine ⟨?_, rfl⟩
    rw [UInt32.toNat_add, UInt32.toNat_one]
    omega
  · cases copied

theorem copyOut_counts (someLeft : 0 < x.count) (copied : x.copyOut = some (out, x')) :
    x.count.toNat = x'.count.toNat + 1 ∧ x'.capacity = x.capacity := by
  simp only [copyOut, Option.bind_eq_bind, Option.bind_eq_some_iff, Option.some.injEq,
    Prod.mk.injEq] at copied
  obtain ⟨_, _, _, _, _, rfl⟩ := copied
  have someLeft := UInt32.lt_iff_toNat_lt.mp someLeft
  have bound := x.count.toNat_lt
  rw [UInt32.toNat_zero] at someLeft
  refine ⟨?_, rfl⟩
  show x.count.toNat = (x.count - 1).toNat + 1
  rw [UInt32.toNat_sub, UInt32.toNat_one]
  omega

end Queue

theorem Copies.bounded {q : QueueId} {x x' : Queue} {entries : List Entry}
    (copies : Copies q x entries x') (bound : x.count ≤ x.capacity) : x'.count ≤ x'.capacity := by
  rw [UInt32.le_iff_toNat_le] at bound ⊢
  cases copies with
  | keeps => exact bound
  | puts room copied =>
    obtain ⟨count, capacity⟩ := Queue.copyIn_counts room copied
    rw [count, capacity]
    exact UInt32.lt_iff_toNat_lt.mp room
  | gets someLeft copied =>
    obtain ⟨count, capacity⟩ := Queue.copyOut_counts someLeft copied
    rw [capacity]
    omega

/-- Both sides' waiters are accounted for. -/
structure Awaited (q : QueueId) (y : System) : Prop where
  bound : (y.queues q).count ≤ (y.queues q).capacity
  items : (y.itemPool q).Covered
  room : (y.roomPool q).Covered

theorem signalled_on (h : WaitList) (w : WaitStatus) :
    (w.on h.object).signalled h = w.signalled h := by
  cases w with
  | woken b result =>
    simp only [WaitStatus.on]
    split
    · rfl
    · rename_i other
      have unlisted : b.waitList ≠ some h := fun listed =>
        other (BlockingCall.object_of_waitList listed)
      simp [WaitStatus.signalled, unlisted]
  | waiting b => simp only [WaitStatus.on]; split <;> rfl
  | awake => rfl

/-- A signal from another list does not move a wait in or out. -/
theorem signalled_ended {h : WaitList} {b : BlockingCall} (result : Status)
    (listed : b.waitList ≠ some h) : ((WaitStatus.waiting b).ended result).signalled h = false := by
  simp [WaitStatus.ended, WaitStatus.signalled, listed]

namespace Linked
variable {y z : System} {h h' : WaitList} {q : QueueId} {self : TaskId}

/-- A step that wakes the first waiter of `h'`, if there is one, as the tally
of those signalled on `h` sees it. -/
structure Signals (y z : System) (h' : WaitList) (woken : Option TaskId) : Prop where
  wakes : Wakes y.sched h' woken z.sched
  status : ∀ h u, (z.waitStatus u).signalled h =
    ((if woken = some u then (y.waitStatus u).ended .ok else y.waitStatus u).signalled h)

/-- A step that wakes nobody and resumes nobody. -/
structure Keeps (y z : System) : Prop where
  status : ∀ h u, (z.waitStatus u).signalled h = (y.waitStatus u).signalled h
  tasks : z.sched.tasks = y.sched.tasks

theorem keeps_tally (linked : Linked y) (keeps : Keeps y z) :
    z.tally (WaitStatus.signalled h) = y.tally (WaitStatus.signalled h) :=
  linked.tally_same (keeps.status h) rfl (.inl keeps.tasks)

/-- The list a signal is for loses a waiter, and one more task is signalled. -/
theorem signals_here {woken : Option TaskId} (linked : Linked y) (signals : Signals y z h woken)
    (n : Nat) : Move (y.pool h n) (z.pool h (n + 1)) := by
  obtain ⟨wakes, status⟩ := signals
  generalize same : z.sched = s' at wakes
  cases wakes with
  | nobody empty => exact .stores (by simp [pool, same, empty])
  | @first t rest _ shape woken =>
    obtain ⟨b, waiting, listed⟩ :=
      linked.listed_waiting.mp (show t ∈ y.sched.events.items h by simp [shape])
    have known : (y.sched.tcb t).state ≠ .deleted := by simp [(waiting_iff.mp waiting).1]
    have moved := linked.tally_move (z := z) (p := WaitStatus.signalled h) known
      (fun u other => by rw [status, if_neg (by simpa using Ne.symm other)])
      (by rw [same, woken.rest.tasks])
    rw [status h t, if_pos rfl, waiting] at moved
    simp only [WaitStatus.signalled, WaitStatus.ended, listed, decide_true, ne_eq, reduceCtorEq,
      not_false_eq_true, Bool.and_self, Bool.toNat_true, Bool.toNat_false, Nat.add_zero] at moved
    refine .offers rfl ?_ moved
    show (y.sched.events.items h).length = (z.sched.events.items h).length + 1
    rw [same, woken.events, Rings.remove_head shape, shape]
    rfl

/-- The other list only sees that a unit is gone. -/
theorem signals_elsewhere {woken : Option TaskId} (linked : Linked y)
    (signals : Signals y z h' woken) (other : h ≠ h') {n n' : Nat} (fewer : n' ≤ n) :
    Move (y.pool h n) (z.pool h n') := by
  obtain ⟨wakes, status⟩ := signals
  refine .takes fewer (congrArg List.length (wakes_items wakes other))
    (linked.tally_same ?_ rfl (.inl ?_))
  · intro u
    rw [status]
    split
    · rename_i now
      subst now
      generalize z.sched = s' at wakes
      cases wakes with
      | @first _ _ _ shape =>
        obtain ⟨b, waiting, listed⟩ :=
          linked.listed_waiting.mp (show u ∈ y.sched.events.items h' by simp [shape])
        rw [waiting, signalled_ended]
        · rfl
        · rw [listed]; exact fun same => other (Option.some.inj same).symm
    · rfl
  · generalize z.sched = s' at wakes
    cases wakes with
    | nobody => rfl
    | first _ woken => exact woken.rest.tasks

theorem keeps_still (linked : Linked y) (keeps : Keeps y z)
    (items : z.sched.events.items h = y.sched.events.items h) (n : Nat) :
    Move (y.pool h n) (z.pool h n) :=
  .still rfl (congrArg List.length items) (linked.keeps_tally keeps)

end Linked

theorem callerStatus_signalled (c : Call) (o : Outcome) (h : WaitList) :
    (callerStatus c o).signalled h = false := by
  unfold callerStatus
  split
  · split <;> rfl
  · rfl

namespace Linked
variable {y z : System} {h : WaitList} {q : QueueId} {self : TaskId}

/-- The caller of a first critical section neither was nor becomes signalled. -/
theorem entered_signalled {c : Call} {r : CallResult} (linked : Linked y)
    (running : y.running = some self) (busy : ∀ b, y.pc self ≠ .requesting b)
    (awake : y.waitStatus self = .awake) (allowed : y.allows c = true)
    (ran : y.toKernel.call self c = some r) (h : WaitList) (u : TaskId) :
    ((y.entered self c r).waitStatus u).signalled h =
      ((if r.woken = some u then (y.waitStatus u).ended .ok else y.waitStatus u).signalled h) := by
  rw [linked.status_entered running busy allowed ran]
  by_cases caller : u = self
  · subst u
    rw [if_pos rfl, callerStatus_signalled, awake]
    split <;> rfl
  · rw [if_neg caller]

/-- Nobody can be signalled by a call that wakes nobody. -/
private theorem keeps_of_signals {s : Sched} (sched : z.sched = s) (tasks : s.tasks = y.sched.tasks)
    (status : ∀ h u, (z.waitStatus u).signalled h =
      ((if (none : Option TaskId) = some u then (y.waitStatus u).ended .ok
        else y.waitStatus u).signalled h)) : Keeps y z :=
  ⟨status, sched ▸ tasks⟩

/-- The first critical section of a send. -/
private theorem moves_send {item : Bytes} {timeoutTicks : Tick} {st : Option Status}
    {woken : Option TaskId} {x : Queue} {s : Sched} (linked : Linked y)
    (sends : Queue.Sends q (y.queues q) y.sched self item timeoutTicks st woken x s)
    (sched : z.sched = s) (object : z.queues q = x)
    (status : ∀ h u, (z.waitStatus u).signalled h =
      ((if woken = some u then (y.waitStatus u).ended .ok else y.waitStatus u).signalled h)) :
    Move (y.itemPool q) (z.itemPool q) ∧ Move (y.roomPool q) (z.roomPool q) := by
  unfold itemPool roomPool
  rw [object]
  cases sends with
  | copies room copied wakes =>
    have signals : Signals y z (.receivers q) woken := ⟨sched ▸ wakes, status⟩
    obtain ⟨count, capacity⟩ := Queue.copyIn_counts room copied
    rw [count, capacity]
    exact ⟨linked.signals_here signals _, linked.signals_elsewhere signals (by simp) (by omega)⟩
  | refused full =>
    have keeps := keeps_of_signals sched rfl status
    exact ⟨linked.keeps_still keeps (by rw [sched]) _, linked.keeps_still keeps (by rw [sched]) _⟩
  | sleeps full _ unlisted slept =>
    have keeps := keeps_of_signals sched slept.rest.tasks status
    have full := UInt32.lt_iff_toNat_lt.not.mp full
    refine ⟨linked.keeps_still keeps ?_ _, .sleeps (by simp only [pool]; omega)⟩
    rw [sched, slept.events]
    simp [enqueued, Rings.link_items unlisted]

/-- The first critical section of a receive. -/
private theorem moves_receive {timeoutTicks : Tick} {st : Option Status} {out : Bytes}
    {woken : Option TaskId} {x : Queue} {s : Sched} (linked : Linked y)
    (receives : Queue.Receives q (y.queues q) y.sched self timeoutTicks st out woken x s)
    (sched : z.sched = s) (object : z.queues q = x)
    (status : ∀ h u, (z.waitStatus u).signalled h =
      ((if woken = some u then (y.waitStatus u).ended .ok else y.waitStatus u).signalled h))
    (bound : (y.queues q).count ≤ (y.queues q).capacity) :
    Move (y.itemPool q) (z.itemPool q) ∧ Move (y.roomPool q) (z.roomPool q) := by
  unfold itemPool roomPool
  rw [object]
  cases receives with
  | copies someLeft copied wakes =>
    have signals : Signals y z (.senders q) woken := ⟨sched ▸ wakes, status⟩
    obtain ⟨count, capacity⟩ := Queue.copyOut_counts someLeft copied
    have bound := UInt32.le_iff_toNat_le.mp bound
    have freed : x.capacity.toNat - x.count.toNat =
        (y.queues q).capacity.toNat - (y.queues q).count.toNat + 1 := by
      rw [capacity]; omega
    rw [freed]
    exact ⟨linked.signals_elsewhere signals (by simp) (by omega), linked.signals_here signals _⟩
  | refused noneLeft =>
    have keeps := keeps_of_signals sched rfl status
    exact ⟨linked.keeps_still keeps (by rw [sched]) _, linked.keeps_still keeps (by rw [sched]) _⟩
  | sleeps noneLeft _ unlisted slept =>
    have keeps := keeps_of_signals sched slept.rest.tasks status
    have noneLeft := UInt32.lt_iff_toNat_lt.not.mp noneLeft
    refine ⟨.sleeps (by simpa [pool] using noneLeft), linked.keeps_still keeps ?_ _⟩
    rw [sched, slept.events]
    simp [enqueued, Rings.link_items unlisted]

/-- A send from an interrupt. -/
private theorem moves_isr {item : Bytes} {st : Status} {woken : Option TaskId} {x : Queue}
    {s : Sched} (linked : Linked y)
    (sends : Queue.IsrSends q (y.queues q) y.sched item st woken x s)
    (sched : z.sched = s) (object : z.queues q = x)
    (status : ∀ h u, (z.waitStatus u).signalled h =
      ((if woken = some u then (y.waitStatus u).ended .ok else y.waitStatus u).signalled h)) :
    Move (y.itemPool q) (z.itemPool q) ∧ Move (y.roomPool q) (z.roomPool q) := by
  cases sends with
  | refused full =>
    have keeps := keeps_of_signals sched rfl status
    unfold itemPool roomPool
    rw [object]
    exact ⟨linked.keeps_still keeps (by rw [sched]) _, linked.keeps_still keeps (by rw [sched]) _⟩
  | copies room copied wakes =>
    -- as from a task, the timeout plays no part
    have sends : Queue.Sends q (y.queues q) y.sched idle item noWait (some .ok) woken x s :=
      .copies (by simpa using room) copied wakes
    exact linked.moves_send sends sched object status

/-- The resumed task leaves the signalled ones of its list. -/
private theorem finished_tally {b : BlockingCall} {st : Status} {out : Bytes} {k : Kernel}
    (linked : Linked y) (running : y.running = some self) (here : y.pc self = .parked b)
    (ran : y.toKernel.resume self b = some (st, out, k)) :
    y.tally (WaitStatus.signalled h) = (y.finished self b st out k).tally (WaitStatus.signalled h) +
      (b.waitList = some h && (y.sched.tcb self).lastWaitResult ≠ .timeout : Bool).toNat := by
  have same : (y.finished self b st out k).sched = y.sched := linked.resume_keeps running here ran
  have status := status_finished ran
  have state := linked.self_running running (by simp [here])
  have moved := linked.tally_move (z := y.finished self b st out k)
    (p := WaitStatus.signalled h) (t := self) (by simp [state])
    (fun u other => by rw [status, if_neg other]) (by rw [same])
  rw [status self, if_pos rfl, linked.status_parked running here] at moved
  simpa [WaitStatus.signalled] using moved.symm

/-- The second critical section of a call on `q`. -/
private theorem moves_finish {b : BlockingCall} {st : Status} {out : Bytes} {k : Kernel}
    (linked : Linked y) (about : b.object = some (.queue q)) (running : y.running = some self)
    (here : y.pc self = .parked b) (ran : y.toKernel.resume self b = some (st, out, k))
    (bound : (y.queues q).count ≤ (y.queues q).capacity)
    (follows : y.skipsWake q .proceed = false) :
    Move (y.itemPool q) ((y.finished self b st out k).itemPool q) ∧
      Move (y.roomPool q) ((y.finished self b st out k).roomPool q) := by
  have same : (y.finished self b st out k).sched = y.sched := linked.resume_keeps running here ran
  have tally h := linked.finished_tally (h := h) running here ran
  have bound := UInt32.le_iff_toNat_le.mp bound
  unfold itemPool roomPool
  cases resume_spec ran with
  | @sends q' item timeoutTicks _ x resumes =>
    obtain rfl : q' = q := by simpa [BlockingCall.object] using about
    have items := tally (.receivers q')
    have room := tally (.senders q')
    simp only [BlockingCall.waitList, Option.some.injEq, reduceCtorEq, decide_false, decide_true,
      Bool.true_and, Bool.false_and, Bool.toNat_false, Nat.add_zero] at items room
    simp only [skipsWake, running, here] at follows
    rw [show (y.finished self _ st _ _).queues q' = x by simp [finished, Kernel.setQueue]]
    cases resumes with
    | late timedOut =>
      simp [timedOut] at room
      exact ⟨.still rfl (by simp [pool, same]) items.symm, .still rfl (by simp [pool, same]) room.symm⟩
    | copies signalled free copied =>
      obtain ⟨count, capacity⟩ := Queue.copyIn_counts free copied
      simp [signalled] at room follows
      refine ⟨.stores ?_, .serves ?_ (by simp [pool, same]) room⟩
      · simpa [pool, same, free] using follows
      · have := UInt32.lt_iff_toNat_lt.mp free
        simp only [pool, count, capacity]
        omega
    | lostRace signalled full =>
      have full := UInt32.lt_iff_toNat_lt.not.mp full
      refine ⟨.still rfl (by simp [pool, same]) items.symm, .loses ?_⟩
      simp only [pool]
      omega
  | @receives q' timeoutTicks _ _ x resumes =>
    obtain rfl : q' = q := by simpa [BlockingCall.object] using about
    have items := tally (.receivers q')
    have room := tally (.senders q')
    simp only [BlockingCall.waitList, Option.some.injEq, reduceCtorEq, decide_false, decide_true,
      Bool.true_and, Bool.false_and, Bool.toNat_false, Nat.add_zero] at items room
    simp only [skipsWake, running, here] at follows
    rw [show (y.finished self _ st out _).queues q' = x by simp [finished, Kernel.setQueue]]
    cases resumes with
    | late timedOut =>
      simp [timedOut] at items
      exact ⟨.still rfl (by simp [pool, same]) items.symm, .still rfl (by simp [pool, same]) room.symm⟩
    | copies signalled someLeft copied =>
      obtain ⟨count, capacity⟩ := Queue.copyOut_counts someLeft copied
      simp [signalled] at items follows
      refine ⟨.serves count (by simp [pool, same]) items, .stores ?_⟩
      simpa [pool, same, someLeft] using follows
    | lostRace signalled noneLeft =>
      have noneLeft := UInt32.lt_iff_toNat_lt.not.mp noneLeft
      exact ⟨.loses (by simpa [pool] using noneLeft), .still rfl (by simp [pool, same]) room.symm⟩
  | _ => cases about

/-- Unless it skips a wake-up, a step moves both pools as they allow. -/
theorem step_pools (linked : Linked y) (bound : (y.queues q).count ≤ (y.queues q).capacity)
    {event : Event} (follows : y.skipsWake q event = false) (stepped : y.step event = some z) :
    Move (y.itemPool q) (z.itemPool q) ∧ Move (y.roomPool q) (z.roomPool q) := by
  cases linked.step_touches stepped (.queue q) with
  | aside aside =>
    have same : z.queues q = y.queues q := aside.object
    have tally : ∀ h : WaitList, h.object = .queue q →
        z.tally (WaitStatus.signalled h) = y.tally (WaitStatus.signalled h) := fun h about =>
      linked.tally_aside aside (about ▸ signalled_on h) rfl
    exact ⟨.still (by simp [itemPool, pool, same])
        (congrArg List.length (aside.items (.receivers q) rfl)) (tally _ rfl),
      .still (by simp [roomPool, pool, same])
        (congrArg List.length (aside.items (.senders q) rfl)) (tally _ rfl)⟩
  | @ticks s ticked =>
    have scanned := tick_spec ticked
    have tally (h : WaitList) :
        (y.ticked s).tally (WaitStatus.signalled h) = y.tally (WaitStatus.signalled h) := by
      refine linked.tally_same ?_ rfl (.inl scanned.rest.tasks)
      intro u
      rw [linked.status_ticked ticked]
      split
      · exact ended_timeout (fun b => by simp [WaitStatus.signalled]) _
      · rfl
    have fewer (h : WaitList) :
        ((y.ticked s).sched.events.items h).length ≤ (y.sched.events.items h).length := by
      rw [show (y.ticked s).sched = s from rfl, scanned.eventItems]
      exact List.length_filter_le _ _
    exact ⟨.expires rfl (fewer _) (tally _), .expires rfl (fewer _) (tally _)⟩
  | @interrupts c st needsYield woken k about ran =>
    have status h u := congrArg (WaitStatus.signalled h) (linked.status_interrupted ran u)
    cases isrCall_spec ran with
    | gives => cases about
    | @sends q' item _ _ x s sends =>
      obtain rfl : q' = q := by simpa [IsrCall.object] using about
      exact linked.moves_isr sends rfl (by simp [interrupted, Kernel.setQueue]) status
  | @enters self c r about _ running busy awake allowed ran =>
    have status := linked.entered_signalled running busy awake allowed ran
    cases call_spec ran with
    | @sends q' item timeoutTicks st woken x s sends =>
      obtain rfl : q' = q := by simpa [Call.object, BlockingCall.object] using about
      exact linked.moves_send sends rfl (by simp [entered, Kernel.setQueue]) status
    | @receives q' timeoutTicks st out woken x s receives =>
      obtain rfl : q' = q := by simpa [Call.object, BlockingCall.object] using about
      exact linked.moves_receive receives rfl (by simp [entered, Kernel.setQueue]) status bound
    | _ => cases about
  | finishes about running here ran origin =>
    exact linked.moves_finish about running here ran bound (origin ▸ follows)

end Linked

theorem Awaited.step {q : QueueId} {y z : System} {event : Event} (awaited : Awaited q y)
    (linked : Linked y) (follows : y.skipsWake q event = false)
    (stepped : y.step event = some z) : Awaited q z := by
  obtain ⟨_, _, copies⟩ := linked.step_copies stepped q
  obtain ⟨items, room⟩ := linked.step_pools awaited.bound follows stepped
  exact ⟨copies.bounded awaited.bound, awaited.items.move items, awaited.room.move room⟩

/-- No step of the run skips a wake-up on `q`. -/
abbrev WakesFollow (q : QueueId) (y : System) (event : Event) : Prop := y.skipsWake q event = false

theorem awaited_of_run {cfg : Config} {q : QueueId} {y : System}
    (run : KernelRun cfg (WakesFollow q) y) : Awaited q y := by
  have strong := run.strengthen fun _ => linked_of_run
  have nobody : ∀ h, (boot cfg).sched.events.items h = [] := fun h => by
    show schedulerInit.events.items h = []
    rw [schedulerInit_spec.events]
    rfl
  refine strong.invariant _ ⟨UInt32.zero_le, fun someone => ?_, fun someone => ?_⟩
    fun _ _ _ awaited meets stepped => awaited.step meets.2 meets.1 stepped
  all_goals exact absurd (by simp [itemPool, roomPool, pool, nobody]) someone

/-- No task is between its wake-up from a wait list of `q` and its re-check. -/
def Settled (q : QueueId) (y : System) : Prop :=
  ∀ t b result, y.waitStatus t = .woken b result → b.object ≠ some (.queue q)

/-- Nobody sleeps on a queue that could serve them. -/
structure Served (q : QueueId) (y : System) : Prop where
  receivers : 0 < (y.queues q).count → y.sched.events.items (.receivers q) = []
  senders : (y.queues q).count < (y.queues q).capacity → y.sched.events.items (.senders q) = []

theorem Settled.signalled {q : QueueId} {y : System} (settled : Settled q y) {h : WaitList}
    (about : h.object = .queue q) : y.tally (WaitStatus.signalled h) = 0 := by
  apply List.countP_eq_zero.mpr
  intro t _ counted
  unfold WaitStatus.signalled at counted
  split at counted
  · rename_i b result woken
    simp only [Bool.and_eq_true, decide_eq_true_eq] at counted
    exact settled t b result woken (about ▸ BlockingCall.object_of_waitList counted.1)
  · cases counted

/-- No wake-up is lost in a run without a resumed call that adds an item while
a receiver waits or frees a slot while a sender waits. -/
theorem no_lost_wakeup {cfg : Config} {q : QueueId} {y : System}
    (run : KernelRun cfg (WakesFollow q) y) (settled : Settled q y) : Served q y := by
  obtain ⟨_, items, room⟩ := awaited_of_run run
  constructor
  · intro left
    refine List.eq_nil_of_length_eq_zero (items.settled (settled.signalled rfl) ?_)
    simpa [itemPool, pool, UInt32.lt_iff_toNat_lt] using left
  · intro left
    refine List.eq_nil_of_length_eq_zero (room.settled (settled.signalled rfl) ?_)
    have := UInt32.lt_iff_toNat_lt.mp left
    simp only [roomPool, pool]
    omega

/-- A queue of one one-byte item. -/
def oneItem : Config where
  queue _ := ([0], 1, 1)

/-- A receiver sleeps, an interrupt sends, the receiver takes the item. -/
def receiveServed : List Event :=
  [.create ⟨some 1, 1, 1, 64, 2⟩, .start, .call (.blocking (.queueReceive 0 waitForever)),
    .proceed, .pendSV, .isr (.queueSendFromIsr 0 [5]), .isrRequest, .pendSV, .proceed]

/-- Every created task passes the test. -/
private def settledTest (q : QueueId) (y : System) : Bool :=
  y.sched.tasks.all fun t => match y.waitStatus t with
    | .woken b _ => b.object ≠ some (.queue q)
    | _ => true

private theorem settled_of_test {q : QueueId} {y : System} (linked : Linked y)
    (passed : settledTest q y = true) : Settled q y := by
  intro t b result woken
  by_cases created : t ∈ y.sched.tasks
  · have test := List.all_eq_true.mp passed t created
    rw [woken] at test
    simpa using test
  · rw [linked.awake_of_fresh created] at woken
    cases woken

set_option maxRecDepth 10000 in
theorem receiveServed_no_lost_wakeup :
    ∃ y, GuardedRun.exec System.step (WakesFollow 0) (boot oneItem) receiveServed = some y ∧
      Settled 0 y ∧ Served 0 y := by
  obtain ⟨y, ran, passed⟩ := Option.map_eq_some_iff.mp
    (by decide +kernel : (GuardedRun.exec System.step (WakesFollow 0) (boot oneItem) receiveServed).map
      (settledTest 0) = some true)
  have run : KernelRun oneItem (WakesFollow 0) y := GuardedRun.run_of_exec ran
  have settled := settled_of_test (linked_of_run run) passed
  exact ⟨y, ran, settled, no_lost_wakeup run settled⟩

/-- A sender sleeps on the full queue. A receiver of higher priority takes the
item and sleeps for another one before the sender runs. -/
def lateSend : List Event :=
  [.create ⟨some 1, 1, 1, 64, 2⟩, .create ⟨some 2, 1, 1, 64, 1⟩, .start,
    .call (.blocking (.taskDelay 1)), .proceed, .pendSV, .isr (.queueSendFromIsr 0 [5]),
    .call (.blocking (.queueSend 0 [6] waitForever)), .proceed, .tick, .pendSV, .proceed,
    .call (.blocking (.queueReceive 0 waitForever)), .proceed, .pendSV,
    .call (.blocking (.queueReceive 0 waitForever)), .proceed, .pendSV, .proceed]

set_option maxRecDepth 10000 in
/-- The resumed sender adds its item and wakes nobody: the receiver waits for
ever on a queue that holds an item. -/
theorem lateSend_strands_receiver :
    ∃ y, KernelRun oneItem GuardedRun.Free y ∧ Settled 0 y ∧ (y.queues 0).count = 1 ∧
      y.sched.events.items (.receivers 0) = [1] ∧ y.waitStatus 1 = .waiting (.queueReceive 0 waitForever) ∧
      ¬ Served 0 y := by
  obtain ⟨y, run, passed⟩ := GuardedRun.reaches_of_exec lateSend
    (fun y : System => settledTest 0 y && ((y.queues 0).count = 1 : Bool) &&
      (y.sched.events.items (.receivers 0) = [1] : Bool) &&
      (y.waitStatus 1 = .waiting (.queueReceive 0 waitForever) : Bool))
    (by decide +kernel : (GuardedRun.exec System.step GuardedRun.Free (boot oneItem) lateSend).map _ =
      some true)
  simp only [Bool.and_eq_true, decide_eq_true_eq] at passed
  obtain ⟨⟨⟨settled, count⟩, receivers⟩, waiting⟩ := passed
  refine ⟨y, run, settled_of_test (linked_of_run run) settled, count, receivers, waiting, ?_⟩
  intro served
  rw [served.receivers (by simp [count])] at receivers
  cases receivers

end NimbleRtos
