import NimbleRtos.CallEffects

/-! Where a task's two links are threaded is determined by its state and, for
a blocked task, by the call it sleeps in. `Placed` lists the possibilities,
and every step of the system keeps every task in one of them. -/
namespace NimbleRtos
open NodeRings Sched NimbleRtos.System

/-- The TCB handed to `nimble_task_create` is not in use. -/
theorem System.fresh_of_allowed {y : System} {a : TaskArgs} {t : TaskId}
    (allowed : y.allows (.taskCreate a) = true) (named : a.tcb = some t) :
    (y.sched.tcb t).state = .deleted := by
  simpa [allows, named] using allowed

/-- The state of a task, the heads its `link` and its `event_link` are
threaded on, and where the task stands. -/
inductive Placed : TaskState → Option ListHead → Option WaitList → Pc → Prop where
  | fresh : Placed .deleted none none .thread
  | ready (priority : Nat) (pc : Pc) : Placed .ready (some (.ready priority)) none pc
  | running (pc : Pc) : Placed .running none none pc
  | suspended (pc : Pc) : Placed .suspended none none pc
  | blocked {b : BlockingCall} {pc : Pc} (asleep : pc.sleep = some b) :
      Placed .blocked (if b.timed then some .delayed else none) b.waitList pc

/-- Every task of `s` is placed, the tasks standing at `pc`. -/
def AllPlaced (s : Sched) (pc : TaskId → Pc) : Prop :=
  ∀ t, Placed (s.tcb t).state (s.links.ring t) (s.events.ring t) (pc t)

namespace AllPlaced
variable {s s' : Sched} {pc : TaskId → Pc} {t self : TaskId}

theorem ready_iff (placed : AllPlaced s pc) :
    (s.tcb t).state = .ready ↔ ∃ p, s.links.ring t = some (.ready p) := by
  have := placed t
  generalize (s.tcb t).state = state, s.links.ring t = link, s.events.ring t = event,
    pc t = here at this
  cases this <;> simp

theorem waiting (placed : AllPlaced s pc) {h : WaitList} (threaded : s.events.ring t = some h) :
    (s.tcb t).state = .blocked ∧ ∃ b, (pc t).sleep = some b ∧ b.waitList = some h := by
  have := placed t
  generalize (s.tcb t).state = state, s.links.ring t = link, s.events.ring t = event,
    pc t = here at this threaded
  cases this with
  | blocked asleep => exact ⟨rfl, _, asleep, threaded⟩
  | _ => cases threaded

/-- A blocked task is on exactly the lists its call put it on. -/
theorem blocked (placed : AllPlaced s pc) (state : (s.tcb t).state = .blocked) :
    ∃ b, (pc t).sleep = some b ∧ s.events.ring t = b.waitList ∧
      s.links.ring t = if b.timed then some .delayed else none := by
  have := placed t
  generalize (s.tcb t).state = state, s.links.ring t = link, s.events.ring t = event,
    pc t = here at this state
  cases this with
  | blocked asleep => exact ⟨_, asleep, rfl, rfl⟩
  | _ => cases state

theorem delayed (placed : AllPlaced s pc) (threaded : s.links.ring t = some .delayed) :
    (s.tcb t).state = .blocked ∧ ∃ b, (pc t).sleep = some b ∧ b.timed = true := by
  have := placed t
  generalize (s.tcb t).state = state, s.links.ring t = link, s.events.ring t = event,
    pc t = here at this threaded
  cases this with
  | @blocked b _ asleep => exact ⟨rfl, b, asleep, by by_contra untimed; simp [untimed] at threaded⟩
  | _ => simp at threaded

/-- A TCB that is not in use stands nowhere in a call. -/
theorem fresh (placed : AllPlaced s pc) (deleted : (s.tcb t).state = .deleted) : pc t = .thread := by
  have := placed t
  generalize (s.tcb t).state = state, s.links.ring t = link, s.events.ring t = event,
    pc t = here at this deleted
  cases this with
  | fresh => rfl
  | _ => cases deleted

/-- A task that is not blocked is on no wait list. -/
theorem unlisted (placed : AllPlaced s pc) (awake : (s.tcb t).state ≠ .blocked) :
    s.events.ring t = none := by
  by_contra listed
  obtain ⟨h, threaded⟩ := Option.ne_none_iff_exists'.mp listed
  exact awake (placed.waiting threaded).1

/-- The link of a task that runs or is suspended is self-linked. -/
theorem free (placed : AllPlaced s pc)
    (off : (s.tcb t).state = .running ∨ (s.tcb t).state = .suspended) : s.links.ring t = none := by
  have := placed t
  generalize (s.tcb t).state = state, s.links.ring t = link, s.events.ring t = event,
    pc t = here at this off
  cases this <;> simp at off ⊢

theorem same (placed : AllPlaced s pc) (same : SameButPriority s s') : AllPlaced s' pc := by
  intro t
  rw [same.state, same.links, same.events]
  exact placed t

/-- Only a task's own position decides how it is placed. -/
theorem move (placed : AllPlaced s pc) (here : Pc)
    (kept : Placed (s.tcb self).state (s.links.ring self) (s.events.ring self) here) :
    AllPlaced s (Function.update pc self here) := by
  intro t
  by_cases other : t = self
  · subst t; simpa using kept
  · simpa [other] using placed t

/-- A task that does not sleep may stand anywhere. -/
theorem wander (placed : AllPlaced s pc) (here : Pc) (created : (s.tcb self).state ≠ .deleted)
    (awake : (pc self).sleep = none) : AllPlaced s (Function.update pc self here) := by
  refine placed.move _ ?_
  have := placed self
  generalize (s.tcb self).state = state, s.links.ring self = link, s.events.ring self = event,
    pc self = before at this created awake
  cases this with
  | fresh => exact absurd rfl created
  | ready p => exact .ready p _
  | running => exact .running _
  | suspended => exact .suspended _
  | blocked asleep => simp [asleep] at awake

theorem readied (placed : AllPlaced s pc) (readied : Readied s t s')
    (unlisted : s.events.ring t = none) : AllPlaced s' pc := by
  intro u
  rw [readied.tcb, readied.ring, readied.events]
  by_cases other : u = t
  · subst u; simpa [unlisted] using Placed.ready _ _
  · simpa [other] using placed u

theorem woken (placed : AllPlaced s pc) {result : Status} (woken : Woken s t result s') :
    AllPlaced s' pc := by
  intro u
  rw [woken.tcb, woken.ring, woken.events]
  by_cases other : u = t
  · subst u; simpa using Placed.ready _ _
  · simpa [other] using placed u

theorem wakes (placed : AllPlaced s pc) {h : WaitList} {woken : Option TaskId}
    (wakes : Wakes s h woken s') : AllPlaced s' pc := by
  cases wakes with
  | nobody => exact placed
  | first shape woken => exact placed.woken woken

theorem selected (placed : AllPlaced s pc) (selected : Selected s t s')
    (ready : (s.tcb t).state = .ready) : AllPlaced s' pc := by
  have unlisted := placed.unlisted (t := t) (by simp [ready])
  intro u
  rw [selected.tcb, selected.links, selected.events]
  by_cases other : u = t
  · subst u; simpa [unlisted] using Placed.running _
  · simpa [other] using placed u

theorem suspended (placed : AllPlaced s pc) (suspended : Suspended s t s') : AllPlaced s' pc := by
  have unlisted := placed.unlisted (t := t) (by rcases suspended.awake with h | h <;> simp [h])
  intro u
  rw [suspended.tcb, suspended.ring, suspended.events]
  by_cases other : u = t
  · subst u
    rcases suspended.awake with ready | running
    · simpa [ready, unlisted] using Placed.suspended _
    · simpa [running, unlisted, placed.free (.inl running)] using Placed.suspended _
  · split <;> simpa [other] using placed u

theorem created (placed : AllPlaced s pc) {priority : Nat} (created : Created s t priority s')
    (fresh : (s.tcb t).state = .deleted) : AllPlaced s' pc := by
  have unlisted := placed.unlisted (t := t) (by simp [fresh])
  intro u
  rw [created.tcb, created.ring, created.events]
  by_cases other : u = t
  · subst u; simpa [unlisted] using Placed.ready _ _
  · simpa [other] using placed u

/-- Falling asleep in `b` threads the caller exactly where `b` says. -/
theorem sleeps (placed : AllPlaced s pc) {s₁ s₂ : Sched} {b : BlockingCall}
    (same : SameButPriority s s₁) (enlisted : Enlisted s₁ self b.waitList s₂)
    (slept : Slept s₂ self (s.wakesAt b) s') (awake : (s.tcb self).state ≠ .blocked) :
    AllPlaced s' (Function.update pc self (.requesting (some b))) := by
  have unlisted : s₁.events.ring self = none := by rw [same.events]; exact placed.unlisted awake
  have timed : (s.wakesAt b).map (fun _ => ListHead.delayed) =
      if b.timed then some .delayed else none := by
    unfold wakesAt; split <;> rfl
  intro u
  rw [slept.tcb, slept.ring, slept.events, timed, enlisted.tcb, enlisted.links,
    enlisted.ring unlisted]
  by_cases other : u = self
  · subst u
    have asleep : (Pc.requesting (some b)).sleep = some b := rfl
    simpa using Placed.blocked asleep
  · simpa [other, same.state, same.links, same.events] using placed u

theorem scanned (placed : AllPlaced s pc) {woken : TaskId → Prop} [DecidablePred woken]
    (scanned : Scanned s woken s') : AllPlaced s' pc := by
  intro u
  rw [scanned.tcb, scanned.ring, scanned.eventRing]
  by_cases timedOut : woken u
  · simpa [timedOut] using Placed.ready _ _
  · simpa [timedOut] using placed u

theorem requeued (placed : AllPlaced s pc) (requeued : s.requeueCurrent = some s') :
    AllPlaced s' pc := by
  rcases requeueCurrent_spec requeued with ⟨c, _, running, readied⟩ | ⟨_, rfl⟩
  · exact placed.readied readied (placed.unlisted (by simp [running]))
  · exact placed

/-- The task `nimble_scheduler_select_next` takes off a ready list is ready. -/
theorem next_ready (placed : AllPlaced s pc) {p : Nat} {rest : List TaskId}
    (shape : s.links.items (.ready p) = t :: rest) : (s.tcb t).state = .ready :=
  placed.ready_iff.mpr ⟨p, Rings.ring_of_cons shape⟩

end AllPlaced

/-- Every task is placed, the created tasks are listed once, only
`nimble_current_tcb` is RUNNING, and the current task executes kernel or
application code only as RUNNING or on its way to request a switch. -/
structure Linked (y : System) : Prop where
  placed : AllPlaced y.sched y.pc
  created : ∀ t, t ∈ y.sched.tasks ↔ (y.sched.tcb t).state ≠ .deleted
  distinct : y.sched.tasks.Nodup
  running : ∀ t, (y.sched.tcb t).state = .running → y.sched.current = some t
  executes : ∀ t, y.sched.current = some t →
    (y.sched.tcb t).state = .running ∨ y.pendSv = true ∨ ∃ b, y.pc t = .requesting b
  known : ∀ t, y.sched.current = some t → (y.sched.tcb t).state ≠ .deleted
  idleAwake : (y.sched.tcb idle).state = .ready ∨ (y.sched.tcb idle).state = .running
  idleThread : y.pc idle = .thread
  internal : ∀ t c, y.pc t = .calling c → c.Internal

/-- How a call by `self` can change the state of task `t`. -/
inductive StateChange (self : TaskId) (c : Call) (o : Outcome) (t : TaskId) :
    TaskState → TaskState → Prop where
  | same (st : TaskState) : StateChange self c o t st st
  | slept {b : BlockingCall} {before : TaskState} (caller : t = self) (call : c = .blocking b)
      (blocks : o = .blocks) :
      StateChange self c o t before .blocked
  | readied {before : TaskState} (resting : before = .blocked ∨ before = .suspended) :
      StateChange self c o t before .ready
  | created {a : TaskArgs} {before : TaskState} (call : c = .taskCreate a) (named : a.tcb = some t) :
      StateChange self c o t before .ready
  | suspended {before : TaskState} (call : c = .taskSuspend t)
      (awake : before = .ready ∨ before = .running)
      (switches : t = self → o = .switches .ok []) : StateChange self c o t before .suspended

theorem StateChange.running {self t : TaskId} {c : Call} {o : Outcome} {before after : TaskState}
    (change : StateChange self c o t before after) (now : after = .running) : before = .running := by
  cases change <;> first | exact now | cases now

/-- A running caller runs on or is left about to request its switch. -/
theorem StateChange.caller {self : TaskId} {c : Call} {o : Outcome} {after : TaskState}
    (change : StateChange self c o self .running after)
    (other : ∀ a, c = .taskCreate a → a.tcb ≠ some self) :
    after = .running ∨ after ≠ .deleted ∧ ∃ b, outcomePc c o = .requesting b := by
  cases change with
  | same => exact .inl rfl
  | slept _ call blocks => subst call blocks; exact .inr ⟨by simp, _, rfl⟩
  | readied resting => simp at resting
  | created call named => exact absurd named (other _ call)
  | suspended _ _ switches => rw [switches rfl]; exact .inr ⟨by simp, _, rfl⟩

theorem StateChange.idle {self : TaskId} {c : Call} {o : Outcome} {before after : TaskState}
    (change : StateChange self c o idle before after) (application : self ≠ NimbleRtos.idle)
    (allowed : c ≠ .taskSuspend NimbleRtos.idle) (awake : before = .ready ∨ before = .running) :
    after = .ready ∨ after = .running := by
  cases change with
  | same => exact awake
  | slept caller => exact absurd caller.symm application
  | readied | created => exact .inl rfl
  | suspended call => exact absurd call allowed

theorem outcomePc_calls {c c' : Call} {o : Outcome} (calling : outcomePc c o = .calling c') :
    o = .calls c' := by
  cases o with
  | calls => simpa [outcomePc] using calling
  | blocks => cases c <;> simp [outcomePc] at calling
  | _ => simp [outcomePc] at calling

theorem Effect.change {k : Kernel} {s' : Sched} {pc : TaskId → Pc} {self : TaskId} {c : Call} {o : Outcome}
    {woken : Option TaskId} (effect : Effect k self c o woken s') (placed : AllPlaced k.sched pc)
    (current : k.sched.current = some self) (t : TaskId) :
    StateChange self c o t (k.sched.tcb t).state (s'.tcb t).state := by
  cases effect with
  | keeps _ changed => rw [changed.rest.state]; exact .same _
  | @sleeps b s₁ s₂ s' call _ changed enlisted slept =>
    rw [slept.tcb, enlisted.tcb]
    by_cases caller : t = self
    · simpa [caller] using StateChange.slept caller call rfl
    · simpa [caller, changed.rest.state] using StateChange.same _
  | @wakes h u rest s₁ s' _ _ _ shape changed woken =>
    have waiting := (placed.waiting (Rings.ring_of_cons shape)).1
    rw [woken.tcb]
    by_cases first : t = u
    · subst t; simpa using StateChange.readied (.inl waiting)
    · simpa [first, changed.rest.state] using StateChange.same _
  | @creates a u s' call named created =>
    rw [created.tcb]
    by_cases first : t = u
    · subst t; simpa using StateChange.created call named
    · simpa [first] using StateChange.same _
  | @suspends u s' call suspended =>
    rw [suspended.tcb]
    by_cases first : t = u
    · subst t
      rw [Function.update_self]
      exact .suspended call suspended.awake fun isSelf => by simp [isSelf, current]
    · simpa [first] using StateChange.same _
  | @resumes u s' call suspended readied =>
    rw [readied.tcb]
    by_cases first : t = u
    · subst t; simpa using StateChange.readied (.inr suspended)
    · simpa [first] using StateChange.same _

theorem Effect.current {k : Kernel} {s' : Sched} {self : TaskId} {c : Call} {o : Outcome}
    {woken : Option TaskId} (effect : Effect k self c o woken s') :
    s'.current = k.sched.current := by
  cases effect with
  | keeps _ changed => exact changed.rest.rest.current
  | sleeps _ _ changed enlisted slept =>
    rw [slept.rest.current, enlisted.rest.current, changed.rest.rest.current]
  | wakes _ _ changed woken => rw [woken.rest.current, changed.rest.rest.current]
  | creates _ _ created => exact created.current
  | suspends _ suspended => exact suspended.rest.current
  | resumes _ _ readied => exact readied.rest.current

/-- Only a creation adds a task. -/
theorem Effect.tasks {k : Kernel} {s' : Sched} {pc : TaskId → Pc} {self : TaskId} {c : Call} {o : Outcome}
    {woken : Option TaskId} (effect : Effect k self c o woken s') (placed : AllPlaced k.sched pc)
    (known : (k.sched.tcb self).state ≠ .deleted) :
    (s'.tasks = k.sched.tasks ∧
        ∀ t, (s'.tcb t).state = .deleted ↔ (k.sched.tcb t).state = .deleted) ∨
      ∃ a t, c = .taskCreate a ∧ a.tcb = some t ∧ Created k.sched t a.priority s' := by
  cases effect with
  | keeps _ changed => exact .inl ⟨changed.rest.rest.tasks, fun t => by rw [changed.rest.state]⟩
  | sleeps _ _ changed enlisted slept =>
    refine .inl ⟨by rw [slept.rest.tasks, enlisted.rest.tasks, changed.rest.rest.tasks], fun t => ?_⟩
    rw [slept.tcb, enlisted.tcb]
    by_cases caller : t = self
    · subst t; simp [known]
    · simp [caller, changed.rest.state]
  | @wakes _ u _ _ _ _ _ _ shape changed woken =>
    have waiting := (placed.waiting (Rings.ring_of_cons shape)).1
    refine .inl ⟨by rw [woken.rest.tasks, changed.rest.rest.tasks], fun t => ?_⟩
    rw [woken.tcb]
    by_cases first : t = u
    · subst t; simp [waiting]
    · simp [first, changed.rest.state]
  | creates call named created => exact .inr ⟨_, _, call, named, created⟩
  | @suspends u _ _ suspended =>
    refine .inl ⟨suspended.rest.tasks, ?_⟩
    intro t
    rw [suspended.tcb]
    by_cases first : t = u
    · subst t; rcases suspended.awake with state | state <;> simp [state]
    · simp [first]
  | @resumes u _ _ state readied =>
    refine .inl ⟨readied.rest.tasks, ?_⟩
    intro t
    rw [readied.tcb]
    by_cases first : t = u
    · subst t; simp [state]
    · simp [first]

namespace System
variable {y y' : System} {self : TaskId}

/-- The running task is `nimble_current_tcb` with no switch pending. -/
theorem running_iff : y.running = some self ↔
    y.started = true ∧ y.pendSv = false ∧ y.sched.current = some self := by
  unfold running
  cases y.started <;> cases y.pendSv <;> simp

end System

namespace Linked
variable {y y' : System} {self t : TaskId} {c : Call}

/-- A task that executes anything but its pending request is RUNNING. -/
theorem self_running (linked : Linked y) (running : y.running = some self)
    (busy : ∀ b, y.pc self ≠ .requesting b) : (y.sched.tcb self).state = .running := by
  obtain ⟨_, notPending, current⟩ := running_iff.mp running
  rcases linked.executes self current with state | pending | ⟨b, here⟩
  · exact state
  · simp [notPending] at pending
  · exact absurd here (busy b)

theorem not_idle (linked : Linked y) (busy : y.pc self ≠ .thread) : self ≠ idle :=
  fun same => busy (same ▸ linked.idleThread)

theorem allows_internal (internal : c.Internal) : y.allows c = true := by
  cases c <;> first | rfl | exact internal.elim

private theorem enter_placed {r : CallResult} (linked : Linked y)
    (state : (y.sched.tcb self).state = .running) (awake : (y.pc self).sleep = none)
    (allowed : y.allows c = true)
    (effect : Effect y.toKernel self c r.outcome r.woken r.kernel.sched) :
    AllPlaced r.kernel.sched (Function.update y.pc self (outcomePc c r.outcome)) := by
  have wandered := linked.placed.wander (outcomePc c r.outcome) (by simp [state]) awake
  obtain ⟨k, outcome, woken⟩ := r
  dsimp only at effect wandered ⊢
  generalize k.sched = s' at effect
  cases effect with
  | keeps _ changed => exact wandered.same changed.rest
  | sleeps call _ changed enlisted slept =>
    subst call
    exact linked.placed.sleeps changed.rest enlisted slept (by simp [state])
  | wakes _ _ changed woken => exact (wandered.same changed.rest).woken woken
  | creates call named created =>
    subst call
    exact wandered.created created (fresh_of_allowed allowed named)
  | suspends _ suspended => exact wandered.suspended suspended
  | resumes _ suspended readied =>
    exact wandered.readied readied (linked.placed.unlisted (by simp [suspended]))

/-- Creating a fresh TCB adds it to the created tasks. -/
private theorem created_tasks {s s' : Sched} {priority : Nat} (created : Created s t priority s')
    (fresh : (s.tcb t).state = .deleted)
    (listed : ∀ u, u ∈ s.tasks ↔ (s.tcb u).state ≠ .deleted) (distinct : s.tasks.Nodup) :
    (∀ u, u ∈ s'.tasks ↔ (s'.tcb u).state ≠ .deleted) ∧ s'.tasks.Nodup := by
  have absent : t ∉ s.tasks := by simp [listed, fresh]
  rw [created.tasks, created.tcb]
  constructor
  · intro u
    by_cases first : u = t
    · subst u; simp
    · simp [first, listed]
  · rw [List.nodup_append]
    refine ⟨distinct, List.nodup_singleton t, ?_⟩
    rintro u member v only rfl
    exact absent (List.mem_singleton.mp only ▸ member)

/-- The first critical section of a call by the running task. -/
theorem enter {r : CallResult} (linked : Linked y) (running : y.running = some self)
    (application : self ≠ idle) (busy : ∀ b, y.pc self ≠ .requesting b)
    (awake : (y.pc self).sleep = none) (allowed : y.allows c = true)
    (ran : y.toKernel.call self c = some r) (continues : ∀ c', r.outcome = .calls c' → c'.Internal) :
    Linked (y.entered self c r) := by
  have state := linked.self_running running busy
  have current := (running_iff.mp running).2.2
  have effect := call_effect ran
  have change := fun t => effect.change linked.placed current t
  have sameCurrent : r.kernel.sched.current = some self := by rw [effect.current, current]
  have tasks : (∀ t, t ∈ r.kernel.sched.tasks ↔ (r.kernel.sched.tcb t).state ≠ .deleted) ∧
      r.kernel.sched.tasks.Nodup := by
    rcases effect.tasks linked.placed (by simp [state]) with
      ⟨same, states⟩ | ⟨a, t, rfl, named, created⟩
    · rw [same]
      exact ⟨fun t => by rw [linked.created, Ne, Ne, states], linked.distinct⟩
    · exact created_tasks created (fresh_of_allowed allowed named) linked.created
        linked.distinct
  have caller := StateChange.caller (state ▸ change self) fun a call named => by
    subst call
    simp [allows, named, state] at allowed
  refine ⟨enter_placed linked state awake allowed effect, tasks.1, tasks.2, ?_, ?_, ?_, ?_, ?_, ?_⟩
  · intro t now
    exact sameCurrent.trans (current.symm.trans (linked.running t ((change t).running now)))
  · intro t now
    obtain rfl : self = t := Option.some.inj (sameCurrent.symm.trans now)
    rcases caller with runs | ⟨_, b, requests⟩
    · exact .inl runs
    · exact .inr (.inr ⟨b, by simpa [entered] using requests⟩)
  · intro t now
    obtain rfl : self = t := Option.some.inj (sameCurrent.symm.trans now)
    rcases caller with runs | ⟨known, _⟩
    · exact fun deleted => by cases runs.symm.trans deleted
    · exact known
  · refine (change idle).idle application ?_ linked.idleAwake
    intro call
    simp [call, allows] at allowed
  · simpa [entered, application.symm] using linked.idleThread
  · intro t c' calling
    by_cases caller : t = self
    · subst t
      exact continues c' (outcomePc_calls (by simpa [entered] using calling))
    · exact linked.internal t c' (by simpa [entered, caller] using calling)

/-- After requeueing, the old current task is ready like any other and nobody
is RUNNING. -/
theorem requeued_states {middle : Sched} (linked : Linked y)
    (requeued : y.sched.requeueCurrent = some middle) (u : TaskId) :
    (middle.tcb u).state ≠ .running ∧
      ((middle.tcb u).state = (y.sched.tcb u).state ∨
        (y.sched.tcb u).state = .running ∧ (middle.tcb u).state = .ready) := by
  rcases requeueCurrent_spec requeued with ⟨c, current, running, readied⟩ | ⟨stopped, rfl⟩
  · rw [readied.tcb]
    by_cases same : u = c
    · subst u; simp [running]
    · rw [Function.update_of_ne same]
      refine ⟨fun other => same ?_, .inl rfl⟩
      exact Option.some.inj ((linked.running u other).symm.trans current)
  · exact ⟨fun running => stopped u (linked.running u running) running, .inl rfl⟩

/-- Requeueing changes one task's state and no other field of a TCB. -/
theorem requeued_kept {s middle : Sched} (requeued : s.requeueCurrent = some middle) (u : TaskId) :
    (middle.tcb u).priority = (s.tcb u).priority ∧ (middle.tcb u).wakeTick = (s.tcb u).wakeTick := by
  rcases requeueCurrent_spec requeued with ⟨c, _, _, readied⟩ | ⟨_, rfl⟩
  · rw [readied.tcb]; by_cases same : u = c <;> simp [same]
  · exact ⟨rfl, rfl⟩

theorem requeued_rest {s middle : Sched} (requeued : s.requeueCurrent = some middle) :
    SameRest s middle := by
  rcases requeueCurrent_spec requeued with ⟨_, _, _, readied⟩ | ⟨_, rfl⟩
  · exact readied.rest
  · exact ⟨rfl, rfl, rfl⟩

/-- A switch to a ready task, whoever picked it. -/
private theorem switch {z : System} {middle s : Sched} (linked : Linked y)
    (requeued : y.sched.requeueCurrent = some middle) (ready : (middle.tcb t).state = .ready)
    (selected : Selected middle t s) (sched : z.sched = { s with current := some t })
    (pc : z.pc = y.pc) : Linked z := by
  have states := linked.requeued_states requeued
  have rest := requeued_rest requeued
  have here : ∀ u, (z.sched.tcb u).state = if u = t then .running else (middle.tcb u).state := by
    intro u
    rw [sched]
    dsimp only
    rw [selected.tcb]
    by_cases same : u = t <;> simp [same]
  have deleted : ∀ u, (z.sched.tcb u).state = .deleted ↔ (y.sched.tcb u).state = .deleted := by
    intro u
    rw [here]
    split
    · subst u
      rcases (states t).2 with same | ⟨running, _⟩
      · simp [← same, ready]
      · simp [running]
    · rcases (states u).2 with same | ⟨running, ready⟩
      · rw [same]
      · simp [running, ready]
  refine ⟨?_, ?_, ?_, ?_, ?_, ?_, ?_, ?_, ?_⟩
  · rw [sched, pc]
    exact fun u => (linked.placed.requeued requeued).selected selected ready u
  · intro u
    rw [Ne, deleted, ← Ne, ← linked.created, sched]
    simp [selected.rest.tasks, rest.tasks]
  · rw [sched]
    simpa [selected.rest.tasks, rest.tasks] using linked.distinct
  · intro u now
    rw [here] at now
    split at now
    · subst u; rw [sched]
    · exact absurd now (states u).1
  · intro u now
    rw [sched] at now
    obtain rfl : t = u := Option.some.inj now
    exact .inl (by simp [here])
  · intro u now
    rw [sched] at now
    obtain rfl : t = u := Option.some.inj now
    simp [here]
  · rw [here]
    split
    · exact .inr rfl
    · rcases (states idle).2 with same | ⟨_, ready⟩
      · rw [same]; exact linked.idleAwake
      · exact .inl ready
  · rw [pc]; exact linked.idleThread
  · rw [pc]; exact linked.internal

/-- A wake-up from outside a task: a signal, or a tick. -/
private theorem rouse {z : System} (linked : Linked y) (placed : AllPlaced z.sched z.pc)
    (states : ∀ u, (z.sched.tcb u).state = (y.sched.tcb u).state ∨
      (y.sched.tcb u).state = .blocked ∧ (z.sched.tcb u).state = .ready)
    (rest : z.sched.tasks = y.sched.tasks ∧ z.sched.current = y.sched.current)
    (pc : z.pc = y.pc) (pending : y.pendSv = true → z.pendSv = true) : Linked z := by
  refine ⟨placed, ?_, ?_, ?_, ?_, ?_, ?_, ?_, ?_⟩
  · intro u
    rw [rest.1, linked.created]
    rcases states u with same | ⟨blocked, ready⟩
    · rw [same]
    · simp [blocked, ready]
  · rw [rest.1]; exact linked.distinct
  · intro u now
    rw [rest.2]
    rcases states u with same | ⟨_, ready⟩
    · exact linked.running u (same ▸ now)
    · simp [ready] at now
  · intro u now
    rw [rest.2] at now
    rcases linked.executes u now with runs | waits | requests
    · rcases states u with same | ⟨blocked, _⟩
      · exact .inl (same ▸ runs)
      · simp [blocked] at runs
    · exact .inr (.inl (pending waits))
    · exact .inr (.inr (pc ▸ requests))
  · intro u now
    rw [rest.2] at now
    rcases states u with same | ⟨_, ready⟩
    · rw [same]; exact linked.known u now
    · simp [ready]
  · rcases states idle with same | ⟨_, ready⟩
    · rw [same]; exact linked.idleAwake
    · exact .inl ready
  · rw [pc]; exact linked.idleThread
  · rw [pc]; exact linked.internal

/-- The running task moves on without touching the scheduler. -/
private theorem advance {z : System} (linked : Linked y) (here : Pc) (running : y.running = some self)
    (placed : AllPlaced z.sched (Function.update y.pc self here)) (tcb : z.sched.tcb = y.sched.tcb)
    (rest : z.sched.tasks = y.sched.tasks ∧ z.sched.current = y.sched.current)
    (pc : z.pc = Function.update y.pc self here) (application : self ≠ idle)
    (executes : (y.sched.tcb self).state = .running ∨ z.pendSv = true)
    (internal : ∀ c, here = .calling c → c.Internal) : Linked z := by
  have current := (running_iff.mp running).2.2
  refine ⟨pc ▸ placed, ?_, ?_, ?_, ?_, ?_, ?_, ?_, ?_⟩
  · intro u
    rw [rest.1, tcb]; exact linked.created u
  · rw [rest.1]; exact linked.distinct
  · intro u now
    rw [tcb] at now; rw [rest.2]; exact linked.running u now
  · intro u now
    rw [rest.2, current] at now
    obtain rfl : self = u := Option.some.inj now
    rw [tcb]
    exact executes.imp_right .inl
  · intro u now
    rw [rest.2] at now; rw [tcb]; exact linked.known u now
  · rw [tcb]; exact linked.idleAwake
  · simpa [pc, application.symm] using linked.idleThread
  · intro u c calling
    rw [pc] at calling
    by_cases caller : u = self
    · subst u; exact internal c (by simpa using calling)
    · exact linked.internal u c (by simpa [caller] using calling)

private theorem create {a : TaskArgs} {st : Status} {s : Sched} (linked : Linked y)
    (allowed : y.allows (.taskCreate a) = true)
    (made : y.sched.taskCreate a = some (st, s)) : Linked { y with sched := s } := by
  rcases taskCreate_spec made with ⟨_, rfl⟩ | ⟨t, named, _, created⟩
  · exact linked
  have fresh : (y.sched.tcb t).state = .deleted := fresh_of_allowed allowed named
  have tasks := created_tasks created fresh linked.created linked.distinct
  have other : ∀ u, (y.sched.tcb u).state ≠ .deleted → (s.tcb u).state = (y.sched.tcb u).state := by
    intro u known
    have distinct : u ≠ t := fun same => known (same ▸ fresh)
    simp [created.tcb, distinct]
  have currentOther : ∀ u, s.current = some u →
      y.sched.current = some u ∧ (s.tcb u).state = (y.sched.tcb u).state := fun u now =>
    have now := created.current ▸ now
    ⟨now, other u (linked.known u now)⟩
  have idleOther := other idle (by rcases linked.idleAwake with st | st <;> simp [st])
  refine ⟨linked.placed.created created fresh, tasks.1, tasks.2, ?_, ?_,
    ?_, ?_, linked.idleThread, linked.internal⟩
  · intro u now
    dsimp only at now ⊢
    rw [created.current]
    refine linked.running u ?_
    by_cases same : u = t
    · subst u; simp [created.tcb] at now
    · simpa [created.tcb, same] using now
  · intro u now
    dsimp only at now ⊢
    rw [(currentOther u now).2]
    exact linked.executes u (currentOther u now).1
  · intro u now
    dsimp only at now ⊢
    rw [(currentOther u now).2]
    exact linked.known u (currentOther u now).1
  · dsimp only
    rw [idleOther]
    exact linked.idleAwake

private theorem interrupt {c : IsrCall} {st : Status} {needsYield : Bool} {woken : Option TaskId}
    {z : System} (linked : Linked y)
    (ran : y.toKernel.isrCall c = some (st, needsYield, woken, z.toKernel)) (pc : z.pc = y.pc)
    (pending : z.pendSv = y.pendSv) : Linked z := by
  rcases (isr_effect ran).2 with wakes | ⟨_, same⟩
  · refine linked.rouse (pc ▸ linked.placed.wakes wakes) ?_ ?_ pc (by simp [pending])
    · intro u
      revert wakes
      generalize z.sched = s
      intro wakes
      cases wakes with
      | nobody => exact .inl rfl
      | @first t _ _ shape woken =>
        rw [woken.tcb]
        by_cases first : u = t
        · subst u
          exact .inr ⟨(linked.placed.waiting (Rings.ring_of_cons shape)).1, by simp⟩
        · exact .inl (by simp [first])
    · revert wakes
      generalize z.sched = s
      intro wakes
      cases wakes with
      | nobody => exact ⟨rfl, rfl⟩
      | first _ woken => exact ⟨woken.rest.tasks, woken.rest.current⟩
  · exact linked.rouse (by rw [same, pc]; exact linked.placed) (fun u => .inl (by rw [same]))
      (by simp [same]) pc (by simp [pending])

private theorem tick {s : Sched} {z : System} (linked : Linked y) (ticked : y.sched.tick = some s)
    (sched : z.sched = s) (pc : z.pc = y.pc) (pending : z.pendSv = true) : Linked z := by
  have scanned := tick_spec ticked
  have placed : AllPlaced s y.pc :=
    AllPlaced.scanned (s := { y.sched with tickCount := y.sched.tickCount + 1 })
      linked.placed scanned
  refine linked.rouse (by rw [sched, pc]; exact placed) ?_
    (by rw [sched]; exact ⟨scanned.rest.tasks, scanned.rest.current⟩) pc fun _ => pending
  intro u
  rw [sched, scanned.tcb]
  split
  · rename_i timedOut
    exact .inr ⟨(linked.placed.delayed (mem_expired.mp timedOut).1).1, rfl⟩
  · exact .inl rfl

/-- The woken caller is on no wait list any more, so its second critical
section leaves the scheduler alone. -/
theorem resume_keeps {b : BlockingCall} {st : Status} {out : Bytes} {k : Kernel} (linked : Linked y)
    (running : y.running = some self) (here : y.pc self = .parked b)
    (ran : y.toKernel.resume self b = some (st, out, k)) : k.sched = y.sched := by
  have state := linked.self_running running (by simp [here])
  rcases resume_effect ran with same | same
  · exact same
  · rw [same, detached, Rings.remove_free (linked.placed.unlisted (by simp [state]))]

theorem step (linked : Linked y) {event : Event} (stepped : y.step event = some y') : Linked y' := by
  cases step_cases stepped with
  | creates _ allowed created => exact linked.create allowed created
  | starts _ selected =>
    obtain ⟨middle, rest, requeued, _, shape, selected⟩ := selectNext_spec selected
    exact linked.switch requeued ((linked.placed.requeued requeued).next_ready shape) selected rfl rfl
  | ticks ticked => exact linked.tick ticked rfl rfl rfl
  | interrupts ran => exact linked.interrupt ran rfl rfl
  | isrRequests => exact { linked with executes := fun _ _ => .inr (.inl rfl) }
  | selects _ selected =>
    obtain ⟨middle, rest, requeued, _, shape, selected⟩ := selectNext_spec selected
    exact linked.switch requeued ((linked.placed.requeued requeued).next_ready shape) selected rfl rfl
  | dispatches _ switched =>
    obtain ⟨middle, requeued, ready, selected⟩ := dispatch_spec switched
    exact linked.switch requeued ready selected rfl rfl
  | calls running application here allowed ran =>
    exact linked.enter running application (by simp [here]) (by simp [here, Pc.sleep]) allowed ran
      fun _ => call_continues ran
  | @requests self b running here =>
    refine linked.advance _ running ?_ rfl ⟨rfl, rfl⟩ rfl (linked.not_idle (by simp [here])) (.inr rfl)
      fun c calling => by cases b <;> simp at calling
    refine linked.placed.move _ ?_
    have placed := linked.placed self
    rw [here] at placed
    generalize (y.sched.tcb self).state = state, y.sched.links.ring self = link,
      y.sched.events.ring self = event at placed
    cases placed with
    | ready p => exact .ready p _
    | running => exact .running _
    | suspended => exact .suspended _
    | blocked asleep =>
      cases b with
      | none => simp [Pc.sleep] at asleep
      | some b => cases asleep; exact .blocked rfl
  | @finishes self b st out k running here ran =>
    have state := linked.self_running running (by simp [here])
    have unlisted := linked.placed.unlisted (t := self) (by simp [state])
    have placed := linked.placed.move .thread
      (by rw [state, linked.placed.free (.inl state), unlisted]; exact .running _)
    have same := linked.resume_keeps running here ran
    have kept : (y.finished self b st out k).sched = y.sched := same
    exact linked.advance .thread running (by rwa [kept]) (by rw [kept]) (by simp [kept]) rfl
      (linked.not_idle (by simp [here])) (.inl state) fun _ calling => by cases calling
  | continues running here ran =>
    exact linked.enter running (linked.not_idle (by simp [here])) (by simp [here])
      (by simp [here, Pc.sleep]) (allows_internal (linked.internal _ _ here)) ran
      fun _ => call_continues ran
  | fires running here =>
    have state := linked.self_running running (by simp [here])
    exact linked.advance .thread running (linked.placed.wander .thread (by simp [state])
      (by simp [here, Pc.sleep])) rfl ⟨rfl, rfl⟩ rfl (linked.not_idle (by simp [here])) (.inl state)
      fun _ calling => by cases calling

end Linked

theorem schedulerInit_spec : Created blank idle 0 schedulerInit := by
  have made : blank.taskCreate idleArgs = some (.ok, schedulerInit) := rfl
  rcases taskCreate_spec made with ⟨refused, _⟩ | ⟨t, named, _, created⟩
  · cases refused
  · cases named
    exact created

theorem linked_boot (cfg : Config) : Linked (boot cfg) := by
  have created := schedulerInit_spec
  have placed : AllPlaced schedulerInit fun _ => .thread :=
    AllPlaced.created (fun _ => .fresh) created rfl
  have tasks : schedulerInit.tasks = [idle] := created.tasks
  have state : ∀ t, (schedulerInit.tcb t).state = if t = idle then .ready else .deleted := by
    intro t
    rw [created.tcb]
    by_cases same : t = idle <;> simp [same, blank]
  have current : schedulerInit.current = none := created.current
  refine ⟨placed, fun t => ?_, ?_, fun t running => ?_, fun t now => ?_, fun t now => ?_, .inl ?_,
    rfl, fun t c calling => ?_⟩ <;> simp only [boot] at *
  · rw [tasks, state]; by_cases same : t = idle <;> simp [same]
  · rw [tasks]; exact List.nodup_singleton _
  · rw [state] at running; split at running <;> cases running
  · rw [current] at now; cases now
  · rw [current] at now; cases now
  · rw [state]; rfl
  · cases calling

/-- Every reachable state is linked. -/
theorem linked_of_run {cfg : Config} {guard : System → Event → Prop} {y : System}
    (run : KernelRun cfg guard y) : Linked y :=
  run.invariant Linked (linked_boot cfg) fun _ _ _ linked _ stepped => linked.step stepped

end NimbleRtos
