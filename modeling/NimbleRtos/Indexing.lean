import NimbleRtos.Linkage

/-! The ready bitmap as an index of the ready lists, and the one way it goes
wrong: `nimble_mutex_lock` raises the priority of an owner that sits in the
ready list of its old priority. -/
namespace NimbleRtos
open NodeRings Sched BucketBitmap NimbleRtos.System

/-- A task waits in the ready list of its own priority, priorities are in
range, and bit `p` is set exactly while the list of priority `p` has a task. -/
structure Indexed (s : Sched) : Prop where
  listed : ∀ t p, s.links.ring t = some (.ready p) → (s.tcb t).priority = p
  bounded : ∀ t, (s.tcb t).priority < maxPriorities
  base : ∀ t, (s.tcb t).basePriority < maxPriorities
  index : Indexes s.readyBitmap fun p => ∃ t, s.links.ring t = some (.ready p)

/-- No bit stands for a list that does not exist. -/
theorem bit_iff_of_index {s : Sched}
    (index : Indexes s.readyBitmap fun p => ∃ t, s.links.ring t = some (.ready p))
    (inside : ∀ t p, s.links.ring t = some (.ready p) → p < maxPriorities) (p : Nat) :
    s.readyBitmap.getLsbD p = true ↔ s.links.items (.ready p) ≠ [] := by
  rw [Rings.items_ne_nil]
  by_cases bound : p < 32
  · exact index p bound
  · constructor
    · intro set
      exact absurd (BitVec.lt_of_getLsbD set) bound
    · rintro ⟨t, threaded⟩
      exact absurd (inside t p threaded) bound

/-- Taking a task off the ready lists clears its bit when it was the last. -/
theorem index_removed {s : Sched}
    (listed : ∀ t p, s.links.ring t = some (.ready p) → (s.tcb t).priority = p)
    (index : Indexes s.readyBitmap fun p => ∃ t, s.links.ring t = some (.ready p)) (t : TaskId) :
    Indexes (s.remove t).readyBitmap fun p => ∃ u, u ≠ t ∧ s.links.ring u = some (.ready p) := by
  have others : (∃ u, u ≠ t ∧ s.links.ring u = some (.ready (s.tcb t).priority)) ↔
      (s.links.remove t).items (.ready (s.tcb t).priority) ≠ [] := by
    rw [Rings.items_ne_nil]
    apply exists_congr
    intro u
    by_cases same : u = t <;> simp [same]
  -- a bit other than the task's own cannot depend on it
  have elsewhere : ∀ p, p ≠ (s.tcb t).priority →
      ((∃ u, s.links.ring u = some (.ready p)) ↔
        ∃ u, u ≠ t ∧ s.links.ring u = some (.ready p)) := by
    intro p other
    refine exists_congr fun u => ⟨fun threaded => ⟨?_, threaded⟩, And.right⟩
    rintro rfl
    exact other (listed u p threaded).symm
  rw [remove_bitmap]
  split
  · rename_i last
    apply (index.unmark (s.tcb t).priority).congr
    intro p
    by_cases own : p = (s.tcb t).priority
    · subst own
      exact ⟨fun freed => absurd rfl freed.2, fun more => absurd last (others.mp more)⟩
    · simp [own, elsewhere]
  · rename_i more
    apply index.congr
    intro p
    by_cases own : p = (s.tcb t).priority
    · subst own
      have := others.mpr more
      exact ⟨fun _ => this, fun ⟨u, _, threaded⟩ => ⟨u, threaded⟩⟩
    · exact elsewhere p own

/-- A task whose link was not on a ready list joined the list of its priority. -/
theorem index_joined {s : Sched} {t : TaskId}
    (index : Indexes s.readyBitmap fun p => ∃ t, s.links.ring t = some (.ready p)) (p : Nat)
    {ring : TaskId → Option ListHead}
    (ringIs : ring = Function.update s.links.ring t (some (.ready p)))
    (off : ∀ p, s.links.ring t ≠ some (.ready p)) :
    Indexes (s.readyBitmap ||| (1#32 <<< p)) fun q => ∃ u, ring u = some (.ready q) := by
  apply (index.mark p).congr
  intro q
  rw [ringIs]
  constructor
  · rintro (⟨u, threaded⟩ | rfl)
    · refine ⟨u, ?_⟩
      rwa [Function.update_of_ne]
      rintro rfl
      exact off q threaded
    · exact ⟨t, by simp⟩
  · rintro ⟨u, threaded⟩
    by_cases same : u = t
    · subst u
      exact .inr (by simpa using threaded.symm)
    · exact .inl ⟨u, by simpa [same] using threaded⟩

namespace Indexed
variable {s s' : Sched} {t : TaskId}

/-- Bit `p` is set iff `ready_lists[p]` is non-empty. -/
theorem bit_iff (indexed : Indexed s) (p : Nat) :
    s.readyBitmap.getLsbD p = true ↔ s.links.items (.ready p) ≠ [] := by
  refine bit_iff_of_index indexed.index ?_ p
  intro t p threaded
  exact indexed.listed t p threaded ▸ indexed.bounded t

theorem removed (indexed : Indexed s) (t : TaskId) :
    Indexes (s.remove t).readyBitmap fun p => ∃ u, u ≠ t ∧ s.links.ring u = some (.ready p) :=
  index_removed indexed.listed indexed.index t

/-- The shape shared by waking, readying and creating a task. -/
private theorem enlists (indexed : Indexed s) {x : Tcb}
    (tcb : s'.tcb = Function.update s.tcb t x)
    (bounded : x.priority < maxPriorities) (base : x.basePriority < maxPriorities)
    (ring : s'.links.ring = Function.update s.links.ring t (some (.ready x.priority)))
    (bitmap : s'.readyBitmap = s.readyBitmap ||| (1#32 <<< x.priority))
    (off : ∀ p, s.links.ring t ≠ some (.ready p)) : Indexed s' := by
  refine ⟨?_, ?_, ?_, ?_⟩
  · intro u p threaded
    rw [ring] at threaded
    rw [tcb]
    by_cases same : u = t
    · subst u
      simpa using threaded
    · simpa [same] using indexed.listed u p (by simpa [same] using threaded)
  · intro u
    rw [tcb]; by_cases same : u = t <;> simp [same, bounded, indexed.bounded]
  · intro u
    rw [tcb]; by_cases same : u = t <;> simp [same, base, indexed.base]
  · rw [bitmap]; exact index_joined indexed.index x.priority ring off

/-- The shape shared by putting a task to sleep, selecting and suspending it. -/
private theorem delists (indexed : Indexed s) {x : Tcb} {head : Option ListHead}
    (tcb : s'.tcb = Function.update s.tcb t x) (same : x.priority = (s.tcb t).priority)
    (sameBase : x.basePriority = (s.tcb t).basePriority)
    (ring : s'.links.ring = Function.update s.links.ring t head)
    (off : ∀ p, head ≠ some (.ready p)) (bitmap : s'.readyBitmap = (s.remove t).readyBitmap) :
    Indexed s' := by
  refine ⟨?_, ?_, ?_, ?_⟩
  · intro u p threaded
    rw [ring] at threaded
    rw [tcb]
    by_cases here : u = t
    · subst u; exact absurd (by simpa using threaded) (off p)
    · simpa [here] using indexed.listed u p (by simpa [here] using threaded)
  · intro u
    rw [tcb]; by_cases here : u = t <;> simp [here, same, indexed.bounded]
  · intro u
    rw [tcb]; by_cases here : u = t <;> simp [here, sameBase, indexed.base]
  · rw [bitmap, ring]
    apply (indexed.removed t).congr
    intro p
    apply exists_congr
    intro u
    by_cases here : u = t <;> simp [here, off]

theorem readied (indexed : Indexed s) (readied : Readied s t s') : Indexed s' :=
  indexed.enlists readied.tcb (indexed.bounded t) (indexed.base t) readied.ring readied.bitmap
    (by simp [readied.free])

theorem woken (indexed : Indexed s) {result : Status} (woken : Woken s t result s')
    (off : ∀ p, s.links.ring t ≠ some (.ready p)) : Indexed s' :=
  indexed.enlists woken.tcb (indexed.bounded t) (indexed.base t) woken.ring woken.bitmap off

theorem created (indexed : Indexed s) {priority : Nat} (created : Created s t priority s') :
    Indexed s' :=
  indexed.enlists created.tcb created.bounded created.bounded created.ring created.bitmap
    (by simp [created.free])

theorem slept (indexed : Indexed s) {wake : Option Tick} (slept : Slept s t wake s') :
    Indexed s' :=
  indexed.delists slept.tcb rfl rfl slept.ring (by cases wake <;> simp) slept.bitmap

theorem selected (indexed : Indexed s) (selected : Selected s t s') : Indexed s' :=
  indexed.delists selected.tcb rfl rfl (by rw [selected.links, Rings.remove_ring]) (by simp)
    selected.bitmap

theorem suspended (indexed : Indexed s) (suspended : Suspended s t s') : Indexed s' := by
  have ring := suspended.ring
  have bitmap := suspended.bitmap
  split at ring
  · rename_i ready
    rw [if_pos ready] at bitmap
    exact indexed.delists suspended.tcb rfl rfl ring (by simp) bitmap
  · rename_i running
    rw [if_neg running] at bitmap
    have priority : ∀ u, (s'.tcb u).priority = (s.tcb u).priority := fun u => by
      rw [suspended.tcb]; by_cases same : u = t <;> simp [same]
    have base : ∀ u, (s'.tcb u).basePriority = (s.tcb u).basePriority := fun u => by
      rw [suspended.tcb]; by_cases same : u = t <;> simp [same]
    refine ⟨?_, ?_, ?_, ?_⟩
    · intro u p
      rw [ring, priority]; exact indexed.listed u p
    · intro u
      rw [priority]; exact indexed.bounded u
    · intro u
      rw [base]; exact indexed.base u
    · rw [bitmap, ring]; exact indexed.index

theorem scanned (indexed : Indexed s) {woken : TaskId → Prop} [DecidablePred woken]
    (scanned : Scanned s woken s') (off : ∀ t, woken t → ∀ p, s.links.ring t ≠ some (.ready p)) :
    Indexed s' := by
  refine ⟨?_, ?_, ?_, ?_⟩
  · intro u p threaded
    rw [scanned.ring] at threaded
    rw [scanned.tcb]
    by_cases now : woken u
    · simpa [now] using threaded
    · simpa [now] using indexed.listed u p (by simpa [now] using threaded)
  · intro u
    rw [scanned.tcb]; by_cases now : woken u <;> simp [now, indexed.bounded]
  · intro u
    rw [scanned.tcb]; by_cases now : woken u <;> simp [now, indexed.base]
  · intro p inside
    rw [scanned.bitmap p inside, indexed.index p inside]
    constructor
    · rintro (⟨u, threaded⟩ | ⟨u, now, rfl⟩)
      · refine ⟨u, ?_⟩
        rw [scanned.ring, if_neg fun now => off u now p threaded]
        exact threaded
      · exact ⟨u, by simp [scanned.ring, now]⟩
    · rintro ⟨u, threaded⟩
      rw [scanned.ring] at threaded
      by_cases now : woken u
      · exact .inr ⟨u, now, by simpa [now, eq_comm] using threaded⟩
      · exact .inl ⟨u, by simpa [now] using threaded⟩

theorem congr (indexed : Indexed s) (tcb : s'.tcb = s.tcb) (links : s'.links = s.links)
    (bitmap : s'.readyBitmap = s.readyBitmap) : Indexed s' := by
  refine ⟨?_, ?_, ?_, ?_⟩
  · intro u p
    rw [links, tcb]; exact indexed.listed u p
  · intro u
    rw [tcb]; exact indexed.bounded u
  · intro u
    rw [tcb]; exact indexed.base u
  · rw [links, bitmap]; exact indexed.index

/-- As long as a task is ready, `nimble_scheduler_select_next` finds one: the
bitmap is not zero, and the list of its highest bit is not empty. -/
theorem select_defined {middle : Sched} {p : Nat} (indexed : Indexed middle)
    (requeued : s.requeueCurrent = some middle) (threaded : middle.links.ring t = some (.ready p)) :
    ∃ u s', s.selectNext = some (u, s') := by
  have inside : p < maxPriorities := indexed.listed t p threaded ▸ indexed.bounded t
  have nonzero := indexed.index.ne_zero inside ⟨t, threaded⟩
  obtain ⟨_, occupied, _⟩ := indexed.index.highest_occupied nonzero
  obtain ⟨u, rest, shape⟩ := List.exists_cons_of_ne_nil (Rings.items_ne_nil.mpr occupied)
  have shape : middle.links.items (.ready (highestSetBit middle.readyBitmap)) = u :: rest := shape
  refine ⟨u, { (middle.remove u).setState u .running with next := some u }, ?_⟩
  simp only [selectNext, requeued, Option.bind_eq_bind, Option.bind_some]
  rw [if_neg nonzero, shape]

/-- The priority of a task that is on no ready list may change freely. -/
theorem setPriority (indexed : Indexed s) {priority : Nat} (bound : priority < maxPriorities)
    (off : ∀ p, s.links.ring t ≠ some (.ready p)) : Indexed (s.setPriority t priority) := by
  refine ⟨fun u p threaded => ?_, fun u => ?_, fun u => ?_, indexed.index⟩ <;>
    by_cases same : u = t
  · subst u; exact absurd threaded (off p)
  · simpa [Sched.setPriority, same] using indexed.listed u p threaded
  · simpa [Sched.setPriority, same] using bound
  · simpa [Sched.setPriority, same] using indexed.bounded u
  · simpa [Sched.setPriority, same] using indexed.base t
  · simpa [Sched.setPriority, same] using indexed.base u

end Indexed

namespace System
variable {y y' : System}

/-- The step is a lock call that raises the priority of an owner while the
owner is READY. -/
def boostsReady (y : System) : Event → Bool
  | .call (.blocking (.mutexLock m timeoutTicks)) =>
    match y.running, (y.mutexes m).owner with
    | some self, some owner =>
      owner ≠ self && timeoutTicks ≠ noWait &&
        (y.sched.tcb owner).priority < (y.sched.tcb self).priority &&
        (y.sched.tcb owner).state = .ready
    | _, _ => false
  | _ => false

end System

namespace Indexed
variable {y y' : System} {self : TaskId} {c : Call}

/-- A call keeps the index unless it boosts a READY owner. -/
private theorem enter {r : CallResult} (indexed : Indexed y.sched) (linked : Linked y)
    (state : (y.sched.tcb self).state = .running) (ran : y.toKernel.call self c = some r)
    (calm : ∀ m timeoutTicks owner, c = .blocking (.mutexLock m timeoutTicks) →
      (y.mutexes m).owner = some owner → owner ≠ self → timeoutTicks ≠ noWait →
      (y.sched.tcb owner).priority < (y.sched.tcb self).priority →
      (y.sched.tcb owner).state ≠ .ready) : Indexed r.kernel.sched := by
  have free := linked.placed.free (.inl state)
  have step : ∀ {s}, Reprioritised y.toKernel self c s → Indexed s := by
    intro s changed
    cases changed with
    | same => exact indexed
    | boosted call owned other patient lower =>
      apply indexed.setPriority (indexed.bounded self)
      intro p threaded
      exact calm _ _ _ call owned other patient lower (linked.placed.ready_iff.mpr ⟨p, threaded⟩)
    | restored => exact indexed.setPriority (indexed.base self) (by simp [free])
  have effect := call_effect ran
  obtain ⟨k, outcome, woken⟩ := r
  dsimp only at effect ⊢
  generalize k.sched = s' at effect
  cases effect with
  | keeps _ changed => exact step changed
  | sleeps _ _ changed enlisted slept =>
    exact ((step changed).congr enlisted.tcb enlisted.links enlisted.bitmap).slept slept
  | wakes _ shape changed woken =>
    apply (step changed).woken woken
    intro p threaded
    have waiting := (linked.placed.waiting (Rings.ring_of_cons shape)).1
    rw [changed.rest.links] at threaded
    simp [linked.placed.ready_iff.mpr ⟨p, threaded⟩] at waiting
  | creates _ _ created => exact indexed.created created
  | suspends _ suspended => exact indexed.suspended suspended
  | resumes _ _ readied => exact indexed.readied readied

private theorem requeued {s middle : Sched} (indexed : Indexed s)
    (requeued : s.requeueCurrent = some middle) : Indexed middle := by
  rcases requeueCurrent_spec requeued with ⟨_, _, _, readied⟩ | ⟨_, rfl⟩
  · exact indexed.readied readied
  · exact indexed

/-- Every step keeps the index unless it boosts a READY owner. -/
theorem step (indexed : Indexed y.sched) (linked : Linked y) {event : Event}
    (calm : y.boostsReady event = false) (stepped : y.step event = some y') :
    Indexed y'.sched := by
  cases step_cases stepped with
  | creates _ _ made =>
    rcases taskCreate_spec made with ⟨_, rfl⟩ | ⟨_, _, _, created⟩
    · exact indexed
    · exact indexed.created created
  | starts _ selected =>
    obtain ⟨_, _, requeued, _, _, selected⟩ := selectNext_spec selected
    exact ((indexed.requeued requeued).selected selected).congr rfl rfl rfl
  | ticks ticked =>
    refine Indexed.scanned (s := { y.sched with tickCount := y.sched.tickCount + 1 })
      (indexed.congr rfl rfl rfl) (tick_spec ticked) ?_
    intro t late p threaded
    have delayed := (mem_expired.mp late).1
    rw [show y.sched.links.ring t = some (.ready p) from threaded] at delayed
    cases delayed
  | @interrupts c st needsYield woken k ran =>
    rcases (isr_effect ran).2 with wakes | ⟨_, same⟩
    · show Indexed k.sched
      revert wakes
      generalize k.sched = s
      intro wakes
      cases wakes with
      | nobody => exact indexed
      | first shape woken =>
        apply indexed.woken woken
        intro p threaded
        have waiting := (linked.placed.waiting (Rings.ring_of_cons shape)).1
        simp [linked.placed.ready_iff.mpr ⟨p, threaded⟩] at waiting
    · show Indexed k.sched
      rw [same]
      exact indexed
  | isrRequests => exact indexed
  | selects _ selected =>
    obtain ⟨_, _, requeued, _, _, selected⟩ := selectNext_spec selected
    exact ((indexed.requeued requeued).selected selected).congr rfl rfl rfl
  | dispatches _ switched =>
    obtain ⟨_, requeued, _, selected⟩ := dispatch_spec switched
    exact ((indexed.requeued requeued).selected selected).congr rfl rfl rfl
  | calls running _ here _ ran =>
    apply indexed.enter linked (linked.self_running running (by simp [here])) ran
    rintro m timeoutTicks owner rfl owned other patient lower ready
    simp [boostsReady, running, owned, other, patient, lower, ready] at calm
  | requests => exact indexed
  | @finishes self b st out k _ _ ran =>
    show Indexed k.sched
    rcases resume_effect ran with same | same <;> rw [same]
    · exact indexed
    · exact indexed.congr rfl rfl rfl
  | continues running here ran =>
    apply indexed.enter linked (linked.self_running running (by simp [here])) ran
    rintro m timeoutTicks owner rfl
    exact (linked.internal _ _ here).elim
  | fires => exact indexed

end Indexed

theorem indexed_blank : Indexed blank :=
  ⟨by simp [blank], by simp [blank, maxPriorities], by simp [blank, maxPriorities], fun p _ => by simp [blank]⟩

theorem indexed_boot (cfg : Config) : Indexed (boot cfg).sched :=
  (indexed_blank.created schedulerInit_spec).congr rfl rfl rfl

/-- No step of the run boosts a READY owner. -/
abbrev Calm (y : System) (event : Event) : Prop := y.boostsReady event = false

theorem indexed_of_run {cfg : Config} {y : System} (run : KernelRun cfg Calm y) :
    Indexed y.sched := by
  have strong := run.strengthen fun _ => linked_of_run
  exact strong.invariant (fun y => Indexed y.sched) (indexed_boot cfg)
    fun _ _ _ indexed meets stepped => indexed.step meets.2 meets.1 stepped

/-! ## Selection -/

namespace Linked
variable {y : System} {t : TaskId} {s : Sched}

/-- A task that may run next: READY, or RUNNING and about to be requeued. -/
def Runnable (s : Sched) (t : TaskId) : Prop :=
  (s.tcb t).state = .ready ∨ (s.tcb t).state = .running

/-- Requeueing the running task makes the runnable tasks the ready ones. -/
theorem requeued_ready {middle : Sched} (linked : Linked y)
    (requeued : y.sched.requeueCurrent = some middle) (u : TaskId) :
    (middle.tcb u).state = .ready ↔ Runnable y.sched u := by
  obtain ⟨stopped, same | ⟨running, ready⟩⟩ := linked.requeued_states requeued u
  · rw [same] at stopped ⊢
    exact ⟨.inl, fun runnable => runnable.resolve_right stopped⟩
  · exact ⟨fun _ => .inr running, fun _ => ready⟩

theorem requeueCurrent_defined (linked : Linked y) : ∃ middle, y.sched.requeueCurrent = some middle := by
  unfold requeueCurrent
  split
  · split
    · rename_i c _ running
      exact ⟨_, addReady_eq_some.mpr ⟨linked.placed.free (.inl running), rfl⟩⟩
    · exact ⟨_, rfl⟩
  · exact ⟨_, rfl⟩

/-- `nimble_scheduler_select_next` finds a task: the idle task is always runnable. -/
theorem selectNext_defined (linked : Linked y) (indexed : Indexed y.sched) :
    ∃ t s, y.sched.selectNext = some (t, s) := by
  obtain ⟨middle, requeued⟩ := linked.requeueCurrent_defined
  obtain ⟨p, threaded⟩ := (linked.placed.requeued requeued).ready_iff.mp
    ((linked.requeued_ready requeued idle).mpr linked.idleAwake)
  exact (indexed.requeued requeued).select_defined requeued threaded

/-- The selected task is runnable and no runnable task has a higher effective
priority. -/
theorem selectNext_highest (linked : Linked y) (indexed : Indexed y.sched)
    (selected : y.sched.selectNext = some (t, s)) :
    Runnable y.sched t ∧
      ∀ u, Runnable y.sched u → (y.sched.tcb u).priority ≤ (y.sched.tcb t).priority := by
  obtain ⟨middle, rest, requeued, nonzero, shape, _⟩ := selectNext_spec selected
  have index := indexed.requeued requeued
  have placed := linked.placed.requeued requeued
  obtain ⟨_, _, highest⟩ := index.index.highest_occupied nonzero
  refine ⟨(linked.requeued_ready requeued t).mp (placed.next_ready shape), ?_⟩
  intro u runnable
  obtain ⟨p, threaded⟩ := placed.ready_iff.mp ((linked.requeued_ready requeued u).mpr runnable)
  have mine := index.listed u p threaded
  rw [← (requeued_kept requeued u).1, ← (requeued_kept requeued t).1, mine,
    index.listed t _ (Rings.ring_of_cons shape)]
  exact highest p (mine ▸ index.bounded u) ⟨u, threaded⟩

end Linked

/-! ## The representation invariant -/

/-- The representation of the scheduler's state: (a) the bitmap mirrors the
ready lists; (b) the ready lists hold the READY tasks, each in the one list of
its priority; (c) a BLOCKED task is on the delayed list iff its sleep is timed
and off every list otherwise, as are RUNNING and SUSPENDED tasks; (d) only
`nimble_current_tcb` is RUNNING. And there is always a next task to select. -/
structure Consistent (y : System) : Prop where
  bitmap : ∀ p, y.sched.readyBitmap.getLsbD p = true ↔ y.sched.links.items (.ready p) ≠ []
  listed : ∀ p t, t ∈ y.sched.links.items (.ready p) →
    (y.sched.tcb t).priority = p ∧ (y.sched.tcb t).state = .ready
  ready : ∀ t, (y.sched.tcb t).state = .ready → ∃! p, t ∈ y.sched.links.items (.ready p)
  blocked : ∀ t, (y.sched.tcb t).state = .blocked → ∃ b, (y.pc t).sleep = some b ∧
    y.sched.links.ring t = if b.timed then some .delayed else none
  delayed : ∀ t, t ∈ y.sched.links.items .delayed → (y.sched.tcb t).state = .blocked
  off : ∀ t, (y.sched.tcb t).state = .running ∨ (y.sched.tcb t).state = .suspended →
    y.sched.links.ring t = none
  running : ∀ t, (y.sched.tcb t).state = .running → y.sched.current = some t
  selects : ∃ t s, y.sched.selectNext = some (t, s)

theorem consistent_of_indexed {y : System} (linked : Linked y) (indexed : Indexed y.sched) :
    Consistent y := by
  refine ⟨indexed.bit_iff, ?_, ?_, ?_,
    ?_, fun t => linked.placed.free, linked.running,
    linked.selectNext_defined indexed⟩
  · intro p t member
    have threaded := (y.sched.links.mem_items _ _).mp member
    exact ⟨indexed.listed t p threaded, linked.placed.ready_iff.mpr ⟨p, threaded⟩⟩
  · intro t ready
    obtain ⟨p, threaded⟩ := linked.placed.ready_iff.mp ready
    refine ⟨p, (y.sched.links.mem_items _ _).mpr threaded, ?_⟩
    intro q member
    have again := (y.sched.links.mem_items _ _).mp member
    simpa [threaded] using again.symm
  · intro t blocked
    obtain ⟨b, asleep, _, link⟩ := linked.placed.blocked blocked
    exact ⟨b, asleep, link⟩
  · intro t member
    exact (linked.placed.delayed ((y.sched.links.mem_items _ _).mp member)).1

/-- The representation invariant holds in every run that boosts no READY
owner. -/
theorem consistent_of_run {cfg : Config} {y : System} (run : KernelRun cfg Calm y) :
    Consistent y :=
  consistent_of_indexed (linked_of_run run) (indexed_of_run run)

/-- Two tasks of one priority contending for a mutex, with a timed wait that
runs out. -/
def contention : List Event :=
  [.create ⟨some 1, 1, 1, 64, 2⟩, .create ⟨some 2, 1, 1, 64, 2⟩, .start,
    .call (.blocking (.mutexLock 0 waitForever)), .tick, .pendSV,
    .call (.blocking (.mutexLock 0 1)), .proceed, .tick, .pendSV]

set_option maxRecDepth 10000 in
theorem contention_consistent :
    ∃ y, GuardedRun.exec System.step Calm (boot {}) contention = some y ∧ Consistent y := by
  obtain ⟨y, ran⟩ := Option.isSome_iff_exists.mp
    (by decide +kernel : (GuardedRun.exec System.step Calm (boot {}) contention).isSome = true)
  exact ⟨y, ran, consistent_of_run (GuardedRun.run_of_exec ran)⟩

/-- A low-priority task that holds a mutex creates a high-priority one, which
blocks on the mutex; the owner then sleeps. -/
def boostedInList : List Event :=
  [.create ⟨some 1, 1, 1, 64, 1⟩, .start, .call (.blocking (.mutexLock 0 waitForever)),
    .call (.taskCreate ⟨some 2, 1, 1, 64, 3⟩), .tick, .pendSV,
    .call (.blocking (.mutexLock 0 waitForever)), .proceed, .pendSV,
    .call (.blocking (.taskDelay 5)), .proceed]

set_option maxRecDepth 10000 in
/-- Boosting a READY owner leaves its bit behind, and the scheduler then takes
the head of an empty list for a task. -/
theorem boosted_owner_corrupts :
    ∃ y, KernelRun {} GuardedRun.Free y ∧ y.sched.selectNext = none ∧ ¬ Consistent y := by
  obtain ⟨y, run, stuck⟩ := GuardedRun.reaches_of_exec boostedInList
    (fun y : System => y.sched.selectNext.isNone)
    (by decide +kernel : (GuardedRun.exec System.step GuardedRun.Free (boot {}) boostedInList).map
      (fun y => y.sched.selectNext.isNone) = some true)
  have stuck : y.sched.selectNext = none := by simpa using stuck
  refine ⟨y, run, stuck, ?_⟩
  intro consistent
  obtain ⟨t, s, selected⟩ := consistent.selects
  rw [stuck] at selected
  cases selected

end NimbleRtos
