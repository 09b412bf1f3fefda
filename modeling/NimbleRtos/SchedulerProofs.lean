import NimbleRtos.Foundation.BucketBitmap
import NimbleRtos.Scheduler

/-! What each scheduler function does to a task: its state, where its two
links are threaded, and its wait result. Later proofs use these records and
never unfold the functions. -/
namespace NimbleRtos
open NodeRings SerialTime BucketBitmap

namespace Sched
variable {s s' : Sched} {t : TaskId}

/-- Tasks in different states are different tasks. -/
theorem ne_of_state {u : TaskId} {a b : TaskState} (first : (s.tcb t).state = a)
    (second : (s.tcb u).state = b) (different : a ≠ b) : t ≠ u := by
  rintro rfl
  exact different (first.symm.trans second)

@[simp] theorem remove_tcb : (s.remove t).tcb = s.tcb := by unfold remove; dsimp only; split <;> rfl
@[simp] theorem remove_tasks : (s.remove t).tasks = s.tasks := by
  unfold remove; dsimp only; split <;> rfl
@[simp] theorem remove_links : (s.remove t).links = s.links.remove t := by
  unfold remove; dsimp only; split <;> rfl
theorem remove_bitmap : (s.remove t).readyBitmap =
    if (s.links.remove t).items (.ready (s.tcb t).priority) = [] then
      s.readyBitmap &&& ~~~(1#32 <<< (s.tcb t).priority)
    else s.readyBitmap := by
  unfold remove
  simp only [List.isEmpty_iff]
  split <;> rfl
@[simp] theorem remove_events : (s.remove t).events = s.events := by
  unfold remove; dsimp only; split <;> rfl
@[simp] theorem remove_tick : (s.remove t).tickCount = s.tickCount := by
  unfold remove; dsimp only; split <;> rfl
@[simp] theorem remove_current : (s.remove t).current = s.current := by
  unfold remove; dsimp only; split <;> rfl

/-- The state `addReady` leaves when the task's link was free. -/
def readied (s : Sched) (t : TaskId) : Sched :=
  { s.setState t .ready with
    links := s.links.link (fun _ => false) (.ready (s.tcb t).priority) t
    readyBitmap := s.readyBitmap ||| (1#32 <<< (s.tcb t).priority) }

theorem addReady_eq_some :
    s.addReady t = some s' ↔ s.links.ring t = none ∧ s' = s.readied t := by
  simp only [addReady, readied, setState, setTcb_tcb, setTcb_links, setTcb_bitmap,
    Function.update_self, Option.bind_eq_bind, Option.bind_eq_some_iff, Rings.insertTail_eq_some,
    Option.some.injEq]
  constructor
  · rintro ⟨_, ⟨free, rfl⟩, rfl⟩
    exact ⟨free, rfl⟩
  · rintro ⟨free, rfl⟩
    exact ⟨_, ⟨free, rfl⟩, rfl⟩

/-- Everything but TCBs, links and wait lists. -/
structure SameRest (s s' : Sched) : Prop where
  tasks : s'.tasks = s.tasks
  tick : s'.tickCount = s.tickCount
  current : s'.current = s.current

theorem SameRest.trans {s₁ s₂ s₃ : Sched} (first : SameRest s₁ s₂) (second : SameRest s₂ s₃) :
    SameRest s₁ s₃ :=
  ⟨second.tasks.trans first.tasks, second.tick.trans first.tick, second.current.trans first.current⟩

/-- `t` became ready at the tail of its priority's list. -/
structure Readied (s : Sched) (t : TaskId) (s' : Sched) : Prop where
  free : s.links.ring t = none
  tcb : s'.tcb = Function.update s.tcb t { s.tcb t with state := .ready }
  ring : s'.links.ring = Function.update s.links.ring t (some (.ready (s.tcb t).priority))
  bitmap : s'.readyBitmap = s.readyBitmap ||| (1#32 <<< (s.tcb t).priority)
  events : s'.events = s.events
  rest : SameRest s s'

theorem addReady_spec (added : s.addReady t = some s') : Readied s t s' := by
  obtain ⟨free, rfl⟩ := addReady_eq_some.mp added
  exact ⟨free, rfl, Rings.link_ring free, rfl, rfl, ⟨rfl, rfl, rfl⟩⟩

/-- `t` went to sleep, on the delayed list when it has a tick to wake at. -/
structure Slept (s : Sched) (t : TaskId) (wake : Option Tick) (s' : Sched) : Prop where
  tcb : s'.tcb = Function.update s.tcb t
    { s.tcb t with state := .blocked, wakeTick := wake.getD (s.tcb t).wakeTick }
  ring : s'.links.ring = Function.update s.links.ring t (wake.map fun _ => .delayed)
  bitmap : s'.readyBitmap = (s.remove t).readyBitmap
  events : s'.events = s.events
  rest : SameRest s s'

private theorem link_removed {r : Rings ListHead TaskId} :
    ((r.remove t).link (fun _ => false) .delayed t).ring =
      Function.update r.ring t (some .delayed) := by
  rw [Rings.link_ring (by simp)]
  simp

theorem blockCurrentDelay_spec {wakeTick : Tick}
    (blocked : s.blockCurrentDelay t wakeTick = some s') : Slept s t (some wakeTick) s' := by
  simp only [blockCurrentDelay, Option.bind_eq_bind, Option.bind_eq_some_iff,
    Rings.insertTail_eq_some, Option.some.injEq] at blocked
  obtain ⟨_, ⟨_, rfl⟩, rfl⟩ := blocked
  exact ⟨by simp, by simpa using link_removed, by simp, by simp, ⟨by simp, by simp, by simp⟩⟩

/-- The tick a timed wait ends at. -/
def deadline (s : Sched) (timeoutTicks : Tick) : Option Tick :=
  if timeoutTicks = waitForever then none else some (s.tickCount + timeoutTicks)

theorem prepareBlock_spec {timeoutTicks : Tick}
    (blocked : s.prepareBlock t timeoutTicks = some s') :
    Slept s t (s.deadline timeoutTicks) s' := by
  unfold prepareBlock at blocked
  dsimp only at blocked
  split at blocked
  · rename_i finite
    simp only [Option.bind_eq_bind, Option.bind_eq_some_iff, Rings.insertTail_eq_some,
      Option.some.injEq] at blocked
    obtain ⟨_, ⟨_, rfl⟩, rfl⟩ := blocked
    have at_end : s.deadline timeoutTicks = some (s.tickCount + timeoutTicks) := if_neg finite
    rw [at_end]
    refine ⟨by simp [setState], by simpa [setState] using link_removed, by simp [setState],
      by simp [setState], ⟨by simp [setState], by simp [setState], by simp [setState]⟩⟩
  · rename_i forever
    cases blocked
    have never : s.deadline timeoutTicks = none := if_pos (by simpa using forever)
    rw [never]
    exact ⟨by simp [setState], by simp [setState], by simp [setState], by simp [setState],
      ⟨by simp [setState], by simp [setState], by simp [setState]⟩⟩

/-- `t` was taken off its wait list and made ready with `result`. -/
structure Woken (s : Sched) (t : TaskId) (result : Status) (s' : Sched) : Prop where
  tcb : s'.tcb = Function.update s.tcb t { s.tcb t with state := .ready, lastWaitResult := result }
  ring : s'.links.ring = Function.update s.links.ring t (some (.ready (s.tcb t).priority))
  bitmap : s'.readyBitmap = s.readyBitmap ||| (1#32 <<< (s.tcb t).priority)
  events : s'.events = s.events.remove t
  rest : SameRest s s'

/-- The common end of a signal and of a timeout. -/
theorem wake_spec {result : Status}
    (added : ({ s with links := s.links.remove t, events := s.events.remove t }.setTcb t
      { s.tcb t with lastWaitResult := result }).addReady t = some s') : Woken s t result s' := by
  have ready := addReady_spec added
  exact ⟨by simpa using ready.tcb, by simpa using ready.ring, by simpa using ready.bitmap,
    by simpa using ready.events, by simpa using ready.rest.tasks, by simpa using ready.rest.tick,
    by simpa using ready.rest.current⟩

theorem wake_defined (s : Sched) (t : TaskId) (result : Status) :
    (({ s with links := s.links.remove t, events := s.events.remove t }.setTcb t
      { s.tcb t with lastWaitResult := result }).addReady t).isSome := by
  rw [Option.isSome_iff_exists]
  exact ⟨_, addReady_eq_some.mpr ⟨by simp, rfl⟩⟩

/-- What a signal on wait list `h` does. -/
inductive Wakes (s : Sched) (h : WaitList) : Option TaskId → Sched → Prop where
  | nobody (empty : s.events.items h = []) : Wakes s h none s
  | first {t : TaskId} {rest : List TaskId} {s' : Sched} (shape : s.events.items h = t :: rest)
      (woken : Woken s t .ok s') : Wakes s h (some t) s'

theorem wakeWaiter_spec {h : WaitList} {woken : Option TaskId}
    (woke : s.wakeWaiter h = some (woken, s')) : Wakes s h woken s' := by
  unfold wakeWaiter at woke
  split at woke
  · cases woke; exact .nobody ‹_›
  · rename_i t rest shape
    simp only [Option.bind_eq_bind, Option.bind_eq_some_iff, Option.some.injEq,
      Prod.mk.injEq] at woke
    obtain ⟨_, added, rfl, rfl⟩ := woke
    exact .first shape (wake_spec added)

/-- The walk of a priority-sorted insertion stops at a waiter of lower
priority. -/
def lower (s : Sched) (t : TaskId) : TaskId → Bool :=
  fun other => decide ((s.tcb other).priority < (s.tcb t).priority)

/-- The state a priority-sorted insertion leaves when the link was free. -/
def enqueued (s : Sched) (h : WaitList) (t : TaskId) : Sched :=
  { s with events := s.events.link (s.lower t) h t }

theorem insertWaiter_eq_some {h : WaitList} :
    s.insertWaiterPrioritySorted h t = some s' ↔
      s.events.ring t = none ∧ s' = s.enqueued h t := by
  simp only [insertWaiterPrioritySorted, enqueued, Option.bind_eq_bind, Option.bind_eq_some_iff,
    Rings.insert_eq_some, Option.some.injEq]
  constructor
  · rintro ⟨_, ⟨free, rfl⟩, rfl⟩
    exact ⟨free, rfl⟩
  · rintro ⟨free, rfl⟩
    exact ⟨_, ⟨free, rfl⟩, rfl⟩

/-- The running task, if it can run on, goes back to its ready list. -/
theorem requeueCurrent_spec (requeued : s.requeueCurrent = some s') :
    (∃ c, s.current = some c ∧ (s.tcb c).state = .running ∧ Readied s c s') ∨
      ((∀ c, s.current = some c → (s.tcb c).state ≠ .running) ∧ s' = s) := by
  unfold requeueCurrent at requeued
  split at requeued
  · rename_i c current
    split at requeued
    · rename_i running
      exact .inl ⟨c, current, running, addReady_spec requeued⟩
    · rename_i stopped
      cases requeued
      refine .inr ⟨?_, rfl⟩
      intro other same
      rw [current] at same
      cases same
      exact stopped
  · rename_i none
    cases requeued
    exact .inr ⟨fun c same => by simp [none] at same, rfl⟩

/-- The scheduler took ready task `t` off its list to run it. -/
structure Selected (s : Sched) (t : TaskId) (s' : Sched) : Prop where
  tcb : s'.tcb = Function.update s.tcb t { s.tcb t with state := .running }
  links : s'.links = s.links.remove t
  bitmap : s'.readyBitmap = (s.remove t).readyBitmap
  events : s'.events = s.events
  rest : SameRest s s'

theorem selectNext_spec (selected : s.selectNext = some (t, s')) :
    ∃ middle rest, s.requeueCurrent = some middle ∧ middle.readyBitmap ≠ 0 ∧
      middle.links.items (.ready (highestSetBit middle.readyBitmap)) = t :: rest ∧
      Selected middle t s' := by
  simp only [selectNext, Option.bind_eq_bind, Option.bind_eq_some_iff] at selected
  obtain ⟨middle, requeued, selected⟩ := selected
  split at selected
  · cases selected
  · rename_i nonzero
    split at selected
    · cases selected
    · rename_i next rest shape
      simp only [Option.some.injEq, Prod.mk.injEq] at selected
      obtain ⟨rfl, rfl⟩ := selected
      exact ⟨middle, rest, requeued, nonzero, shape,
        ⟨by simp [setState], by simp [setState], by simp [setState], by simp [setState],
          ⟨by simp [setState], by simp [setState], by simp [setState]⟩⟩⟩

theorem selectNext_next (selected : s.selectNext = some (t, s')) : s'.next = some t := by
  simp only [selectNext, Option.bind_eq_bind, Option.bind_eq_some_iff] at selected
  obtain ⟨middle, _, selected⟩ := selected
  split at selected
  · cases selected
  · split at selected
    · cases selected
    · cases selected
      rfl

theorem dispatch_spec (switched : s.dispatch t = some s') :
    ∃ middle, s.requeueCurrent = some middle ∧ (middle.tcb t).state = .ready ∧
      Selected middle t s' := by
  simp only [dispatch, Option.bind_eq_bind, Option.bind_eq_some_iff] at switched
  obtain ⟨middle, requeued, switched⟩ := switched
  split at switched
  · rename_i ready
    cases switched
    exact ⟨middle, requeued, ready,
      ⟨by simp [setState], by simp [setState], by simp [setState], by simp [setState],
        ⟨by simp [setState], by simp [setState], by simp [setState]⟩⟩⟩
  · cases switched

/-- What one tick does: the delayed tasks whose tick has come are woken, every
other task keeps its TCB and its links. -/
structure Scanned (s : Sched) (woken : TaskId → Prop) [DecidablePred woken] (s' : Sched) : Prop where
  tcb : ∀ t, s'.tcb t =
    if woken t then { s.tcb t with state := .ready, lastWaitResult := .timeout } else s.tcb t
  ring : ∀ t, s'.links.ring t =
    if woken t then some (.ready (s.tcb t).priority) else s.links.ring t
  bitmap : ∀ p, p < 32 → (s'.readyBitmap.getLsbD p = true ↔
    s.readyBitmap.getLsbD p = true ∨ ∃ t, woken t ∧ p = (s.tcb t).priority)
  eventRing : ∀ t, s'.events.ring t = if woken t then none else s.events.ring t
  eventItems : ∀ h, s'.events.items h = (s.events.items h).filter fun t => ¬ woken t
  rest : SameRest s s'

private theorem scan_spec (l : List TaskId) (nodup : l.Nodup) (scanned : tickScan l s = some s') :
    Scanned s (fun t => t ∈ l ∧ s.due t = true) s' := by
  induction l generalizing s with
  | nil =>
    cases scanned
    exact ⟨by simp, by simp, by simp, by simp, by simp, ⟨rfl, rfl, rfl⟩⟩
  | cons head rest ih =>
    obtain ⟨absent, nodup⟩ := List.nodup_cons.mp nodup
    simp only [tickScan] at scanned
    split at scanned
    · rename_i due
      simp only [Option.bind_eq_bind, Option.bind_eq_some_iff] at scanned
      obtain ⟨middle, added, scanned⟩ := scanned
      have first := wake_spec added
      have later := ih nodup scanned
      -- waking `head` does not change which of the remaining nodes are due
      have same : ∀ t, (t ∈ rest ∧ middle.due t = true) ↔ (t ∈ rest ∧ s.due t = true) := by
        intro t
        apply and_congr_right
        intro member
        have other : t ≠ head := fun equal => absent (equal ▸ member)
        simp [Sched.due, first.tcb, first.rest.tick, other]
      refine ⟨?_, ?_, ?_, ?_, ?_, first.rest.trans later.rest⟩
      · intro t
        rw [later.tcb]
        by_cases equal : t = head
        · subst t; simp [absent, first.tcb, due]
        · simp [same, first.tcb, equal]
      · intro t
        rw [later.ring]
        by_cases equal : t = head
        · subst t; simp [absent, first.ring, due]
        · simp [same, first.tcb, first.ring, equal]
      · intro p bound
        have others : (∃ t, (t ∈ rest ∧ middle.due t = true) ∧ p = (middle.tcb t).priority) ↔
            ∃ t, (t ∈ rest ∧ s.due t = true) ∧ p = (s.tcb t).priority := by
          apply exists_congr
          intro t
          rw [same t]
          apply and_congr_right
          intro member
          have other : t ≠ head := fun equal => absent (equal ▸ member.1)
          simp [first.tcb, other]
        rw [later.bitmap p bound, first.bitmap, BitVec.getLsbD_or, Bool.or_eq_true,
          getLsbD_one_shift bound, others, or_assoc]
        refine or_congr_right ⟨?_, ?_⟩
        · rintro (rfl | ⟨t, ⟨member, late⟩, rfl⟩)
          · exact ⟨head, ⟨by simp, due⟩, rfl⟩
          · exact ⟨t, ⟨by simp [member], late⟩, rfl⟩
        · rintro ⟨t, ⟨member, late⟩, rfl⟩
          rcases List.mem_cons.mp member with rfl | member
          · exact .inl rfl
          · exact .inr ⟨t, ⟨member, late⟩, rfl⟩
      · intro t
        rw [later.eventRing]
        by_cases equal : t = head
        · subst t; simp [absent, first.events, due]
        · simp [same, first.events, equal]
      · intro h
        rw [later.eventItems, first.events, Rings.remove_items,
          (s.events.nodup h).erase_eq_filter, List.filter_filter]
        apply List.filter_congr
        intro t _
        by_cases equal : t = head
        · subst t; simp [absent, due]
        · simp [same, equal]
    · rename_i early
      have later := ih nodup scanned
      have same : ∀ t, (t ∈ head :: rest ∧ s.due t = true) ↔ (t ∈ rest ∧ s.due t = true) := by
        intro t
        simp only [List.mem_cons]
        constructor
        · rintro ⟨rfl | member, due⟩
          · exact absurd due early
          · exact ⟨member, due⟩
        · exact fun ⟨member, due⟩ => ⟨.inr member, due⟩
      exact ⟨fun t => by simp only [same]; exact later.tcb t,
        fun t => by simp only [same]; exact later.ring t,
        fun p => by simp only [same]; exact later.bitmap p,
        fun t => by simp only [same]; exact later.eventRing t,
        fun h => by simp only [same]; exact later.eventItems h, later.rest⟩

theorem tick_spec (ticked : s.tick = some s') :
    Scanned { s with tickCount := s.tickCount + 1 } (· ∈ s.expired) s' := by
  have scanned := scan_spec _ (s.links.nodup .delayed) ticked
  have same : ∀ t, t ∈ s.expired ↔ (t ∈ s.links.items .delayed ∧
      { s with tickCount := s.tickCount + 1 }.due t = true) := fun t => List.mem_filter
  exact ⟨fun t => by simp only [same]; exact scanned.tcb t,
    fun t => by simp only [same]; exact scanned.ring t,
    fun p => by simp only [same]; exact scanned.bitmap p,
    fun t => by simp only [same]; exact scanned.eventRing t,
    fun h => by simp only [same]; exact scanned.eventItems h, scanned.rest⟩

theorem mem_expired : t ∈ s.expired ↔ s.links.ring t = some .delayed ∧
    reached (s.tickCount + 1) (s.tcb t).wakeTick = true := by
  rw [expired, List.mem_filter, s.links.mem_items]
  rfl

theorem scan_defined (l : List TaskId) (s : Sched) : (tickScan l s).isSome := by
  induction l generalizing s with
  | nil => rfl
  | cons head rest ih =>
    simp only [tickScan]
    split
    · obtain ⟨middle, added⟩ := Option.isSome_iff_exists.mp
        (wake_defined s head .timeout)
      simp only [setTcb] at added ⊢
      simpa [added] using ih middle
    · exact ih s

/-- A tick always goes through: it takes a node off its list before it links
it again. -/
theorem tick_defined (s : Sched) : ∃ s', s.tick = some s' :=
  Option.isSome_iff_exists.mp (scan_defined _ _)

/-- The created TCB: ready at its priority, nothing else touched. -/
structure Created (s : Sched) (t : TaskId) (priority : Nat) (s' : Sched) : Prop where
  bounded : priority < maxPriorities
  free : s.links.ring t = none
  tcb : s'.tcb = Function.update s.tcb t
    { priority, basePriority := priority, state := .ready, wakeTick := 0, lastWaitResult := .ok }
  ring : s'.links.ring = Function.update s.links.ring t (some (.ready priority))
  bitmap : s'.readyBitmap = s.readyBitmap ||| (1#32 <<< priority)
  events : s'.events = s.events
  tasks : s'.tasks = s.tasks ++ [t]
  tick : s'.tickCount = s.tickCount
  current : s'.current = s.current

theorem taskCreate_spec {a : TaskArgs} {st : Status} (created : s.taskCreate a = some (st, s')) :
    (st = .invalidArg ∧ s' = s) ∨ ∃ t, a.tcb = some t ∧ st = .ok ∧ Created s t a.priority s' := by
  unfold taskCreate at created
  split at created
  · cases created; exact .inl ⟨rfl, rfl⟩
  · rename_i t named
    split at created
    · cases created; exact .inl ⟨rfl, rfl⟩
    split at created
    · cases created; exact .inl ⟨rfl, rfl⟩
    split at created
    · cases created; exact .inl ⟨rfl, rfl⟩
    · rename_i bounded
      simp only [Option.bind_eq_bind, Option.bind_eq_some_iff, Option.some.injEq,
        Prod.mk.injEq] at created
      obtain ⟨_, added, rfl, rfl⟩ := created
      have ready := addReady_spec added
      exact .inr ⟨t, named, rfl, by simpa using bounded, by simpa using ready.free,
        by simpa using ready.tcb, by simpa using ready.ring, by simpa using ready.bitmap,
        by simpa using ready.events, by simpa using ready.rest.tasks, by simpa using ready.rest.tick,
        by simpa using ready.rest.current⟩

/-- The arguments `nimble_task_create` accepts. -/
def TaskArgs.valid (a : TaskArgs) : Bool :=
  a.fn ≠ 0 && a.stackBase ≠ 0 && minStackWords ≤ a.stackWords && a.priority < maxPriorities

/-- A creation that went through had valid arguments. -/
theorem taskCreate_valid {a : TaskArgs} (made : s.taskCreate a = some (.ok, s')) :
    a.valid = true := by
  unfold taskCreate at made
  split at made
  · cases made
  split at made
  · cases made
  split at made
  · cases made
  split at made
  · cases made
  rename_i pointers words bound
  simp only [TaskArgs.valid, Bool.and_eq_true, decide_eq_true_eq]
  exact ⟨⟨not_or.mp pointers, UInt32.not_lt.mp words⟩, Nat.lt_of_not_le bound⟩

/-- And one with valid arguments goes through. -/
theorem taskCreate_of_valid {a : TaskArgs} {st : Status}
    (valid : a.valid = true) (named : a.tcb = some t) (made : s.taskCreate a = some (st, s')) :
    st = .ok ∧ Created s t a.priority s' := by
  rcases taskCreate_spec made with ⟨refused, _⟩ | ⟨u, named', created, made⟩
  · simp only [TaskArgs.valid, Bool.and_eq_true, decide_eq_true_eq] at valid
    obtain ⟨⟨⟨fn, base⟩, words⟩, bound⟩ := valid
    simp only [taskCreate, named, fn, base, or_self, if_false, UInt32.not_lt.mpr words,
      Nat.not_le.mpr bound, Option.bind_eq_bind, Option.bind_eq_some_iff, refused] at made
    obtain ⟨_, _, wrong⟩ := made
    cases wrong
  · obtain rfl := Option.some.inj (named.symm.trans named')
    exact ⟨created, made⟩

/-- Nothing but a threaded link can stop a creation. -/
theorem taskCreate_defined {a : TaskArgs} (named : a.tcb = some t) (free : s.links.ring t = none) :
    ∃ st s', s.taskCreate a = some (st, s') := by
  simp only [taskCreate, named]
  split
  · exact ⟨_, _, rfl⟩
  · split
    · exact ⟨_, _, rfl⟩
    · split
      · exact ⟨_, _, rfl⟩
      · let fresh := { s with tasks := s.tasks ++ [t] }.setTcb t
          { priority := a.priority, basePriority := a.priority }
        have added : fresh.addReady t = some (fresh.readied t) := addReady_eq_some.mpr ⟨free, rfl⟩
        exact ⟨.ok, fresh.readied t, by simp only [fresh] at added ⊢; simp [added]⟩

/-- `t` was taken off the ready lists or the CPU for good. -/
structure Suspended (s : Sched) (t : TaskId) (s' : Sched) : Prop where
  awake : (s.tcb t).state = .ready ∨ (s.tcb t).state = .running
  tcb : s'.tcb = Function.update s.tcb t { s.tcb t with state := .suspended }
  ring : s'.links.ring =
    if (s.tcb t).state = .ready then Function.update s.links.ring t none else s.links.ring
  bitmap : s'.readyBitmap =
    if (s.tcb t).state = .ready then (s.remove t).readyBitmap else s.readyBitmap
  events : s'.events = s.events
  rest : SameRest s s'

theorem taskSuspend_spec :
    ((s.taskSuspend t).1 = decide (s.current = some t) ∧ Suspended s t (s.taskSuspend t).2) ∨
      ((s.taskSuspend t).1 = false ∧ (s.taskSuspend t).2 = s) := by
  unfold taskSuspend
  split
  · rename_i awake
    refine .inl ⟨rfl, awake, ?_, ?_, ?_, ?_, ⟨?_, ?_, ?_⟩⟩ <;>
      by_cases ready : (s.tcb t).state = .ready <;> simp [ready, setState]
  · exact .inr ⟨rfl, rfl⟩

theorem taskResume_spec (resumed : s.taskResume t = some s') :
    ((s.tcb t).state = .suspended ∧ Readied s t s') ∨ s' = s := by
  unfold taskResume at resumed
  split at resumed
  · exact .inl ⟨‹_›, addReady_spec resumed⟩
  · cases resumed; exact .inr rfl

end Sched
end NimbleRtos
