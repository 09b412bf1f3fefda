import NimbleRtos.Foundation.Tally
import NimbleRtos.Linkage

/-! A task's wait as the code sees it: not waiting, waiting in a call, or woken
from it with a result that the call has not read yet. Each step of the system
changes the wait of one task, a tick that of every task whose time has come. -/
namespace NimbleRtos
open NodeRings Sched NimbleRtos.System

inductive WaitStatus where
  | awake
  | waiting (b : BlockingCall)
  | woken (b : BlockingCall) (result : Status)
  deriving DecidableEq, Repr

/-- A wait ends with `result`. -/
def WaitStatus.ended (result : Status) : WaitStatus → WaitStatus
  | .waiting b => .woken b result
  | other => other

theorem WaitStatus.ended_ne_waiting {result : Status} {w : WaitStatus} {b : BlockingCall} :
    w.ended result ≠ .waiting b := by
  cases w <;> simp [ended]

/-- A wait found ended was ended just now or before. -/
theorem WaitStatus.of_ended_eq {result result' : Status} {w : WaitStatus} {b : BlockingCall}
    (now : w.ended result = .woken b result') :
    w = .woken b result' ∨ w = .waiting b ∧ result' = result := by
  cases w with
  | awake => cases now
  | waiting => cases now; exact .inr ⟨rfl, rfl⟩
  | woken => exact .inl now

def waitOf (pc : Pc) (x : Tcb) : WaitStatus :=
  match pc.sleep with
  | none => .awake
  | some b => if x.state = .blocked then .waiting b else .woken b x.lastWaitResult

def System.waitStatus (y : System) (t : TaskId) : WaitStatus := waitOf (y.pc t) (y.sched.tcb t)

theorem waitOf_congr {pc pc' : Pc} {x x' : Tcb} (sleep : pc'.sleep = pc.sleep)
    (state : x'.state = .blocked ↔ x.state = .blocked) (result : x'.lastWaitResult = x.lastWaitResult) :
    waitOf pc' x' = waitOf pc x := by
  simp only [waitOf, sleep, state, result]

theorem waitOf_awake {pc : Pc} {x : Tcb} (awake : pc.sleep = none) : waitOf pc x = .awake := by
  simp only [waitOf, awake]

/-- The caller's wait after the first critical section of `c`. -/
def callerStatus (c : Call) : Outcome → WaitStatus
  | .blocks => match c with
    | .blocking b => .waiting b
    | _ => .awake
  | _ => .awake

@[simp] theorem callerStatus_sleepOr (c : Call) (st : Status) (out : Bytes) (woken : Option TaskId) :
    callerStatus c (Kernel.sleepOr (some st) out woken) = .awake := by
  cases woken <;> rfl

@[simp] theorem callerStatus_blocks (b : BlockingCall) :
    callerStatus (.blocking b) .blocks = .waiting b := rfl

theorem outcomePc_sleep {c : Call} {o : Outcome} (awake : o ≠ .blocks) :
    (outcomePc c o).sleep = none := by
  cases o <;> first | rfl | exact absurd rfl awake

namespace Linked
variable {y y' : System} {self t : TaskId} {c : Call}

/-- A waiting task is blocked in its call and on the lists of its call. -/
theorem waiting_iff {b : BlockingCall} :
    y.waitStatus t = .waiting b ↔ (y.sched.tcb t).state = .blocked ∧ (y.pc t).sleep = some b := by
  unfold waitStatus waitOf
  cases (y.pc t).sleep with
  | none => simp
  | some b' => by_cases blocked : (y.sched.tcb t).state = .blocked <;> simp [blocked]

theorem listed_waiting (linked : Linked y) {h : WaitList} :
    t ∈ y.sched.events.items h ↔ ∃ b, y.waitStatus t = .waiting b ∧ b.waitList = some h := by
  rw [y.sched.events.mem_items]
  constructor
  · intro threaded
    obtain ⟨blocked, b, asleep, listed⟩ := linked.placed.waiting threaded
    exact ⟨b, waiting_iff.mpr ⟨blocked, asleep⟩, listed⟩
  · rintro ⟨b, waiting, listed⟩
    obtain ⟨blocked, asleep⟩ := waiting_iff.mp waiting
    obtain ⟨b', asleep', threaded, _⟩ := linked.placed.blocked blocked
    obtain rfl : b = b' := Option.some.inj (asleep.symm.trans asleep')
    rw [threaded, listed]

/-- Threading on the delayed list is waiting with a time limit. -/
theorem delayed_waiting (linked : Linked y) :
    t ∈ y.sched.links.items .delayed ↔ ∃ b, y.waitStatus t = .waiting b ∧ b.timed = true := by
  rw [y.sched.links.mem_items]
  constructor
  · intro threaded
    obtain ⟨blocked, b, asleep, timed⟩ := linked.placed.delayed threaded
    exact ⟨b, waiting_iff.mpr ⟨blocked, asleep⟩, timed⟩
  · rintro ⟨b, waiting, timed⟩
    obtain ⟨blocked, asleep⟩ := waiting_iff.mp waiting
    obtain ⟨b', asleep', _, threaded⟩ := linked.placed.blocked blocked
    obtain rfl : b = b' := Option.some.inj (asleep.symm.trans asleep')
    rw [threaded, timed]
    rfl

theorem awake_of_fresh (linked : Linked y) (fresh : t ∉ y.sched.tasks) : y.waitStatus t = .awake := by
  have state : (y.sched.tcb t).state = .deleted := by
    by_contra known
    exact fresh ((linked.created t).mpr known)
  refine waitOf_awake ?_
  rw [linked.placed.fresh state]
  rfl

end Linked

/-- A signal ends the wait of the task it takes off a list. -/
theorem waitOf_woken {s s' : Sched} {pc : TaskId → Pc} {t : TaskId} {result : Status}
    (placed : AllPlaced s pc) (blocked : (s.tcb t).state = .blocked) (woken : Woken s t result s')
    (u : TaskId) : waitOf (pc u) (s'.tcb u) =
      if u = t then (waitOf (pc u) (s.tcb u)).ended result else waitOf (pc u) (s.tcb u) := by
  rw [woken.tcb]
  by_cases same : u = t
  · subst u
    obtain ⟨b, asleep, _⟩ := placed.blocked blocked
    simp [waitOf, asleep, blocked, WaitStatus.ended]
  · simp [same]

namespace Linked
variable {y y' : System} {self t : TaskId} {c : Call}

/-- A change of a task that neither blocks nor unblocks it. -/
private theorem unmoved {s s' : Sched} {pc : TaskId → Pc} {x : Tcb} {u : TaskId}
    (tcb : s'.tcb = Function.update s.tcb t x) (before : (s.tcb t).state ≠ .blocked)
    (after : x.state ≠ .blocked) (result : x.lastWaitResult = (s.tcb t).lastWaitResult) :
    waitOf (pc u) (s'.tcb u) = waitOf (pc u) (s.tcb u) := by
  rw [tcb]
  by_cases same : u = t
  · subst u
    exact waitOf_congr rfl (by simp [before, after]) (by simpa using result)
  · rw [Function.update_of_ne same]

private theorem callerStatus_awake {o : Outcome} (awake : o ≠ .blocks) :
    callerStatus c o = .awake := by
  cases o <;> first | rfl | exact absurd rfl awake

/-- What the first critical section of a call does to every task's wait. -/
theorem status_entered {r : CallResult} (linked : Linked y) (running : y.running = some self)
    (busy : ∀ b, y.pc self ≠ .requesting b) (allowed : y.allows c = true)
    (ran : y.toKernel.call self c = some r) (u : TaskId) :
    (y.entered self c r).waitStatus u =
      if u = self then callerStatus c r.outcome
      else if r.woken = some u then (y.waitStatus u).ended .ok
      else y.waitStatus u := by
  have state := linked.self_running running busy
  have effect := call_effect ran
  unfold waitStatus entered
  obtain ⟨k, outcome, woken⟩ := r
  dsimp only at effect ⊢
  generalize k.sched = s' at effect ⊢
  by_cases caller : u = self
  · subst u
    rw [if_pos rfl, Function.update_self]
    cases effect with
    | sleeps call _ _ enlisted slept =>
      subst call
      simp [waitOf, outcomePc, Pc.sleep, slept.tcb]
    | keeps awake => rw [waitOf_awake (outcomePc_sleep awake), callerStatus_awake awake]
    | @suspends v =>
      have awake : (if y.sched.current = some v then Outcome.switches .ok [] else .returns .ok []) ≠
        .blocks := by split <;> simp
      rw [waitOf_awake (outcomePc_sleep awake), callerStatus_awake awake]
    | wakes | creates | resumes => rfl
  · rw [if_neg caller, Function.update_of_ne caller]
    cases effect with
    | keeps _ changed =>
      simpa using waitOf_congr rfl (by rw [changed.rest.state]) (changed.rest.result u)
    | sleeps _ _ changed enlisted slept =>
      rw [slept.tcb, Function.update_of_ne caller, enlisted.tcb]
      simpa using waitOf_congr rfl (by rw [changed.rest.state]) (changed.rest.result u)
    | @wakes h t rest s₁ _ _ _ _ shape changed woken =>
      have blocked := (linked.placed.waiting (Rings.ring_of_cons shape)).1
      rw [waitOf_woken (linked.placed.same changed.rest) (by rw [changed.rest.state, blocked]) woken u,
        waitOf_congr rfl (by rw [changed.rest.state]) (changed.rest.result u)]
      by_cases first : u = t
      · simp [first]
      · simp [first, Ne.symm first]
    | @creates a t _ call named created =>
      subst call
      have fresh : (y.sched.tcb t).state = .deleted := fresh_of_allowed allowed named
      rw [created.tcb]
      by_cases first : u = t
      · subst u
        have thread : (y.pc t).sleep = none := by rw [linked.placed.fresh fresh]; rfl
        simp [waitOf_awake thread]
      · simp [first]
    | suspends _ suspended =>
      simpa using unmoved suspended.tcb
        (by rcases suspended.awake with state | state <;> simp [state]) (by simp) rfl
    | resumes _ suspended readied =>
      simpa using unmoved readied.tcb (by simp [suspended]) (by simp) rfl

/-- A call from an interrupt ends the wait of the task it wakes. -/
theorem status_interrupted {ic : IsrCall} {st : Status} {needsYield : Bool} {woken : Option TaskId}
    {k : Kernel} (linked : Linked y)
    (ran : y.toKernel.isrCall ic = some (st, needsYield, woken, k)) (u : TaskId) :
    (y.interrupted ic st needsYield woken k).waitStatus u =
      if woken = some u then (y.waitStatus u).ended .ok else y.waitStatus u := by
  have effect := (isr_effect ran).2
  unfold waitStatus interrupted
  dsimp only
  generalize k.sched = s at effect
  rcases effect with wakes | ⟨rfl, rfl⟩
  · cases wakes with
    | nobody => simp
    | @first t _ _ shape woken =>
      rw [waitOf_woken linked.placed (linked.placed.waiting (Rings.ring_of_cons shape)).1 woken u]
      by_cases first : u = t
      · simp [first]
      · simp [first, Ne.symm first]
  · simp

/-- A tick ends the waits whose time has come. -/
theorem status_ticked {s : Sched} (linked : Linked y) (tick : y.sched.tick = some s) (u : TaskId) :
    (y.ticked s).waitStatus u =
      if u ∈ y.sched.expired then (y.waitStatus u).ended .timeout else y.waitStatus u := by
  have scanned := tick_spec tick
  unfold waitStatus ticked
  dsimp only
  rw [scanned.tcb]
  split
  · rename_i late
    obtain ⟨blocked, b, asleep, _⟩ := linked.placed.delayed (mem_expired.mp late).1
    simp [waitOf, asleep, blocked, WaitStatus.ended]
  · rfl

/-- Switching tasks leaves every wait as it is. -/
theorem status_switch {middle s : Sched} {z : System}
    (requeued : y.sched.requeueCurrent = some middle) (ready : (middle.tcb t).state = .ready)
    (selected : Selected middle t s) (tcb : z.sched.tcb = s.tcb) (pc : z.pc = y.pc) (u : TaskId) :
    z.waitStatus u = y.waitStatus u := by
  unfold waitStatus
  rw [pc, tcb, unmoved selected.tcb (by simp [ready]) (by simp) rfl]
  rcases requeueCurrent_spec requeued with ⟨c, _, running, readied⟩ | ⟨_, rfl⟩
  · rw [unmoved readied.tcb (by simp [running]) (by simp) rfl]
  · rfl

/-- The second critical section reads the result and ends the call. -/
theorem status_finished {b : BlockingCall} {st : Status} {out : Bytes} {k : Kernel}
    (ran : y.toKernel.resume self b = some (st, out, k)) (u : TaskId) :
    (y.finished self b st out k).waitStatus u = if u = self then .awake else y.waitStatus u := by
  have tcb : k.sched.tcb = y.sched.tcb := by
    rcases resume_effect ran with same | same <;> rw [same]
    rfl
  unfold waitStatus finished
  dsimp only
  rw [tcb]
  by_cases caller : u = self
  · simp [caller, waitOf, Pc.sleep]
  · simp [caller]

theorem status_create {a : TaskArgs} {st : Status} {s : Sched} {z : System} (linked : Linked y)
    (allowed : y.allows (.taskCreate a) = true) (made : y.sched.taskCreate a = some (st, s))
    (sched : z.sched = s) (pc : z.pc = y.pc) (u : TaskId) : z.waitStatus u = y.waitStatus u := by
  unfold waitStatus
  rw [pc, sched]
  rcases taskCreate_spec made with ⟨_, rfl⟩ | ⟨t, named, _, created⟩
  · rfl
  have fresh : (y.sched.tcb t).state = .deleted := fresh_of_allowed allowed named
  rw [created.tcb]
  by_cases first : u = t
  · subst u
    have thread : (y.pc t).sleep = none := by rw [linked.placed.fresh fresh]; rfl
    simp [waitOf_awake thread]
  · simp [first]

/-- A task that runs its second critical section was woken. -/
theorem status_parked {b : BlockingCall} (linked : Linked y) (running : y.running = some self)
    (here : y.pc self = .parked b) :
    y.waitStatus self = .woken b (y.sched.tcb self).lastWaitResult := by
  have state := linked.self_running running (by simp [here])
  simp [waitStatus, waitOf, here, Pc.sleep, state]

/-- The running task outside a sleep is awake. -/
theorem status_running (awake : (y.pc self).sleep = none) :
    y.waitStatus self = .awake := waitOf_awake awake

end Linked

/-! ## Steps as the waits and the objects see them -/

/-- Entries that record neither a call's progress nor a wake-up. -/
def Entry.silent : Entry → Bool
  | .requested => true
  | .switched _ => true
  | .invoked _ _ _ => true
  | _ => false

/-- A step that touches no wait and no kernel object. -/
structure Quiet (y z : System) : Prop where
  status : ∀ u, z.waitStatus u = y.waitStatus u
  mutexes : z.mutexes = y.mutexes
  semaphores : z.semaphores = y.semaphores
  queues : z.queues = y.queues
  items : ∀ h, z.sched.events.items h = y.sched.events.items h
  tasks : z.sched.tasks = y.sched.tasks ∨
    ∃ t, t ∉ y.sched.tasks ∧ z.sched.tasks = y.sched.tasks ++ [t]
  wakeTick : ∀ u b, y.waitStatus u = .waiting b →
    (z.sched.tcb u).wakeTick = (y.sched.tcb u).wakeTick
  tick : z.sched.tickCount = y.sched.tickCount
  log : ∃ entries, z.log = entries ++ y.log ∧ ∀ e ∈ entries, e.silent = true

/-- Every step is quiet, a tick, or one critical section of a call. -/
inductive Moves (y : System) (event : Event) : System → Prop where
  | quiet {z : System} (quiet : Quiet y z) : Moves y event z
  | ticks {s : Sched} (tick : y.sched.tick = some s) : Moves y event (y.ticked s)
  | interrupts {c : IsrCall} {st : Status} {needsYield : Bool} {woken : Option TaskId}
      {k : Kernel} (ran : y.toKernel.isrCall c = some (st, needsYield, woken, k)) :
      Moves y event (y.interrupted c st needsYield woken k)
  | enters {self : TaskId} {c : Call} {r : CallResult} (origin : event = .call c ∨ c.Internal)
      (running : y.running = some self)
      (busy : ∀ b, y.pc self ≠ .requesting b) (awake : y.waitStatus self = .awake)
      (allowed : y.allows c = true) (ran : y.toKernel.call self c = some r) :
      Moves y event (y.entered self c r)
  | finishes {self : TaskId} {b : BlockingCall} {st : Status} {out : Bytes} {k : Kernel}
      (running : y.running = some self) (here : y.pc self = .parked b)
      (ran : y.toKernel.resume self b = some (st, out, k)) (origin : event = .proceed) :
      Moves y event (y.finished self b st out k)

/-- The same with the event that made the step. -/
inductive Made (y : System) : Event → System → Prop where
  | quiet {event : Event} {z : System} (quiet : Quiet y z) : Made y event z
  | ticks {s : Sched} (tick : y.sched.tick = some s) : Made y .tick (y.ticked s)
  | interrupts {c : IsrCall} {st : Status} {needsYield : Bool} {woken : Option TaskId}
      {k : Kernel} (ran : y.toKernel.isrCall c = some (st, needsYield, woken, k)) :
      Made y (.isr c) (y.interrupted c st needsYield woken k)
  | calls {self : TaskId} {c : Call} {r : CallResult} (running : y.running = some self)
      (here : y.pc self = .thread) (allowed : y.allows c = true)
      (ran : y.toKernel.call self c = some r) : Made y (.call c) (y.entered self c r)
  | continues {self : TaskId} {c : Call} {r : CallResult} (running : y.running = some self)
      (here : y.pc self = .calling c) (ran : y.toKernel.call self c = some r) :
      Made y .proceed (y.entered self c r)
  | finishes {self : TaskId} {b : BlockingCall} {st : Status} {out : Bytes} {k : Kernel}
      (running : y.running = some self) (here : y.pc self = .parked b)
      (ran : y.toKernel.resume self b = some (st, out, k)) :
      Made y .proceed (y.finished self b st out k)

namespace Linked
variable {y z : System} {self t : TaskId}

/-- A task switch is quiet. -/
private theorem quiet_switch {middle s : Sched} (requeued : y.sched.requeueCurrent = some middle)
    (ready : (middle.tcb t).state = .ready) (selected : Selected middle t s)
    (sched : z.sched = { s with current := some t }) (pc : z.pc = y.pc)
    (rest : z.mutexes = y.mutexes ∧ z.semaphores = y.semaphores ∧ z.queues = y.queues)
    (log : z.log = .switched t :: y.log) : Quiet y z := by
  have same := requeued_rest requeued
  have events : middle.events = y.sched.events := by
    rcases requeueCurrent_spec requeued with ⟨_, _, _, readied⟩ | ⟨_, rfl⟩
    · exact readied.events
    · rfl
  refine ⟨status_switch requeued ready selected (by rw [sched]) pc, rest.1, rest.2.1, rest.2.2,
    ?_, .inl ?_, ?_, ?_, [.switched t], log, by simp [Entry.silent]⟩
  · intro h
    simp [sched, selected.events, events]
  · simp [sched, selected.rest.tasks, same.tasks]
  · intro u b _
    rw [sched]
    dsimp only
    rw [selected.tcb, ← (requeued_kept requeued u).2]
    by_cases first : u = t <;> simp [first]
  · simp [sched, selected.rest.tick, same.tick]

/-- A step that only moves the caller's position between two wakeful ones, or
from requesting its switch to being parked, is quiet. -/
private theorem quiet_move {here : Pc} (entries : List Entry) (kernel : z.toKernel = y.toKernel)
    (pc : z.pc = Function.update y.pc self here) (sleep : here.sleep = (y.pc self).sleep)
    (log : z.log = entries ++ y.log) (silent : ∀ e ∈ entries, e.silent = true) : Quiet y z := by
  refine ⟨?_, by rw [kernel], by rw [kernel], by rw [kernel], fun h => by rw [kernel],
    .inl (by rw [kernel]), fun u b _ => by rw [kernel], by rw [kernel], entries, log, silent⟩
  intro u
  unfold waitStatus
  rw [kernel, pc]
  by_cases caller : u = self
  · subst u
    exact waitOf_congr (by simp [sleep]) .rfl rfl
  · rw [Function.update_of_ne caller]

private theorem quiet_create {a : TaskArgs} {st : Status} {s : Sched} (linked : Linked y)
    (allowed : y.allows (.taskCreate a) = true) (made : y.sched.taskCreate a = some (st, s)) :
    Quiet y { y with sched := s } := by
  have status := linked.status_create (z := { y with sched := s }) allowed made rfl rfl
  rcases taskCreate_spec made with ⟨_, rfl⟩ | ⟨t, named, _, created⟩
  · exact ⟨status, rfl, rfl, rfl, fun _ => rfl, .inl rfl, fun _ _ _ => rfl, rfl, [], rfl, by simp⟩
  have fresh : (y.sched.tcb t).state = .deleted := fresh_of_allowed allowed named
  have absent : t ∉ y.sched.tasks := fun listed => (linked.created t).mp listed fresh
  refine ⟨status, rfl, rfl, rfl, ?_, .inr ⟨t, absent, created.tasks⟩, ?_,
    created.tick, [], rfl, by simp⟩
  · intro h
    dsimp only; rw [created.events]
  · intro u b waiting
    have other : u ≠ t := by
      rintro rfl
      simp [linked.awake_of_fresh absent] at waiting
    simp [created.tcb, other]

/-- Every step, with the event that made it. -/
theorem step_made (linked : Linked y) {event : Event} (stepped : y.step event = some z) :
    Made y event z := by
  cases step_cases stepped with
  | creates _ allowed made => exact .quiet (linked.quiet_create allowed made)
  | starts _ selected =>
    obtain ⟨_, _, requeued, _, shape, selected⟩ := selectNext_spec selected
    exact .quiet (quiet_switch requeued ((linked.placed.requeued requeued).next_ready shape)
      selected rfl rfl ⟨rfl, rfl, rfl⟩ rfl)
  | ticks ticked => exact .ticks ticked
  | interrupts ran => exact .interrupts ran
  | isrRequests =>
    exact .quiet ⟨fun _ => rfl, rfl, rfl, rfl, fun _ => rfl, .inl rfl, fun _ _ _ => rfl, rfl,
      [.requested], rfl, by simp [Entry.silent]⟩
  | selects _ selected =>
    obtain ⟨_, _, requeued, _, shape, selected⟩ := selectNext_spec selected
    exact .quiet (quiet_switch requeued ((linked.placed.requeued requeued).next_ready shape)
      selected rfl rfl ⟨rfl, rfl, rfl⟩ rfl)
  | dispatches _ switched =>
    obtain ⟨_, requeued, ready, selected⟩ := dispatch_spec switched
    exact .quiet (quiet_switch requeued ready selected rfl rfl ⟨rfl, rfl, rfl⟩ rfl)
  | calls running _ here allowed ran => exact .calls running here allowed ran
  | @requests _ b _ here =>
    refine .quiet (quiet_move [.requested] rfl rfl ?_ rfl (by simp [Entry.silent]))
    cases b <;> simp [here, Pc.sleep]
  | finishes running here ran => exact .finishes running here ran
  | continues running here ran => exact .continues running here ran
  | @fires _ x callback arg _ here =>
    refine .quiet (quiet_move (if callback ≠ 0 then [.invoked x callback arg] else [])
      rfl rfl (by simp [here, Pc.sleep]) ?_ ?_)
    · dsimp only; split <;> rfl
    · split <;> simp [Entry.silent]

/-- Every step, as the waits and the kernel objects see it. -/
theorem step_moves (linked : Linked y) {event : Event} (stepped : y.step event = some z) :
    Moves y event z := by
  cases linked.step_made stepped with
  | quiet quiet => exact .quiet quiet
  | ticks tick => exact .ticks tick
  | interrupts ran => exact .interrupts ran
  | calls running here allowed ran =>
    exact .enters (.inl rfl) running (by simp [here]) (status_running (by simp [here, Pc.sleep]))
      allowed ran
  | continues running here ran =>
    exact .enters (.inr (linked.internal _ _ here)) running (by simp [here])
      (status_running (by simp [here, Pc.sleep])) (allows_internal (linked.internal _ _ here)) ran
  | finishes running here ran => exact .finishes running here ran rfl

end Linked
end NimbleRtos
