import NimbleRtos.Foundation.PriorityInheritance
import NimbleRtos.Objects

/-! Priority inheritance over any number of mutexes. The kernel's mutexes are
locks with inheritance one level deep; a task that blocks on a mutex while it
owns another, and an unlock that gives up a boost another mutex still needs,
are the steps that leave an owner below one of its waiters. -/
namespace NimbleRtos
open NodeRings Sched PriorityInheritance NimbleRtos.System

/-- The mutexes with the priorities of the tasks that own and await them. -/
def Kernel.locks (k : Kernel) : Locks MutexId TaskId where
  owner m := (k.mutexes m).owner
  waiters m := k.sched.events.items (.mutex m)
  priority t := (k.sched.tcb t).priority
  base t := (k.sched.tcb t).basePriority

namespace System

/-- The step puts the running task to sleep on a mutex while it owns another. -/
def Chains (y : System) (event : Event) : Prop :=
  ∃ m timeoutTicks self holder m', event = .call (.blocking (.mutexLock m timeoutTicks)) ∧
    y.running = some self ∧ (y.mutexes m).owner = some holder ∧ holder ≠ self ∧
    timeoutTicks ≠ noWait ∧ (y.mutexes m').owner = some self

/-- The step is the final unlock of one mutex by a task that keeps another, on
which a task waits whose priority is above the unlocker's own. -/
def DropsBoost (y : System) (event : Event) : Prop :=
  ∃ m self m' w, event = .call (.mutexUnlock m) ∧ y.running = some self ∧
    (y.mutexes m).owner = some self ∧ (y.mutexes m).lockCount - 1 = 0 ∧ m' ≠ m ∧
    (y.mutexes m').owner = some self ∧ w ∈ y.sched.events.items (.mutex m') ∧
    (y.sched.tcb self).basePriority < (y.sched.tcb w).priority

end System

/-- Effective and base priorities are the same. -/
structure SamePriorities (s s' : Sched) : Prop where
  priority : ∀ t, (s'.tcb t).priority = (s.tcb t).priority
  base : ∀ t, (s'.tcb t).basePriority = (s.tcb t).basePriority

theorem SamePriorities.trans {s s' s'' : Sched} (first : SamePriorities s s')
    (second : SamePriorities s' s'') : SamePriorities s s'' :=
  ⟨fun t => (second.priority t).trans (first.priority t),
    fun t => (second.base t).trans (first.base t)⟩

theorem SamePriorities.refl (s : Sched) : SamePriorities s s := ⟨fun _ => rfl, fun _ => rfl⟩

theorem same_update {s s' : Sched} {t : TaskId} {x : Tcb} (tcb : s'.tcb = Function.update s.tcb t x)
    (priority : x.priority = (s.tcb t).priority)
    (base : x.basePriority = (s.tcb t).basePriority) : SamePriorities s s' := by
  refine ⟨fun u => ?_, fun u => ?_⟩ <;> rw [tcb] <;> by_cases same : u = t <;>
    simp [same, priority, base]

theorem same_wakes {s s' : Sched} {h : WaitList} {woken : Option TaskId}
    (wakes : Wakes s h woken s') : SamePriorities s s' := by
  cases wakes with
  | nobody => exact .refl _
  | first _ woken => exact same_update woken.tcb rfl rfl

theorem same_requeued {s s' : Sched} (requeued : s.requeueCurrent = some s') :
    SamePriorities s s' := by
  rcases requeueCurrent_spec requeued with ⟨_, _, _, readied⟩ | ⟨_, rfl⟩
  · exact same_update readied.tcb rfl rfl
  · exact .refl _

/-- A call on anything but a mutex changes no priority but a new task's. -/
theorem Effect.priorities {k : Kernel} {s' : Sched} {self : TaskId} {c : Call} {o : Outcome}
    {woken : Option TaskId} (effect : Effect k self c o woken s')
    (other : ∀ m, c.object ≠ some (.mutex m)) :
    SamePriorities k.sched s' ∨
      ∃ a t, c = .taskCreate a ∧ a.tcb = some t ∧ Created k.sched t a.priority s' := by
  have same {s : Sched} (changed : Reprioritised k self c s) : s = k.sched := by
    cases changed with
    | same => rfl
    | boosted call | restored call => subst call; exact absurd rfl (other _)
  cases effect with
  | keeps _ changed => rw [same changed]; exact .inl (.refl _)
  | sleeps _ _ changed enlisted slept =>
    have kept := same_update slept.tcb rfl rfl
    refine .inl ⟨?_, ?_⟩
    · intro t
      rw [kept.priority, enlisted.tcb, same changed]
    · intro t
      rw [kept.base, enlisted.tcb, same changed]
  | wakes _ _ changed woken =>
    rw [same changed] at woken
    exact .inl (same_update woken.tcb rfl rfl)
  | creates call named created => exact .inr ⟨_, _, call, named, created⟩
  | suspends _ suspended => exact .inl (same_update suspended.tcb rfl rfl)
  | resumes _ _ readied => exact .inl (same_update readied.tcb rfl rfl)

/-- The step seen from the mutexes when none of them is called. -/
theorem stays {orderly : Prop} {k k' : Kernel}
    (owners : ∀ m, (k'.mutexes m).owner = (k.mutexes m).owner)
    (waiters : ∀ m, (k'.sched.events.items (.mutex m)).Sublist (k.sched.events.items (.mutex m)))
    (same : SamePriorities k.sched k'.sched) : Locks.Step orderly k.locks k'.locks := by
  have shape : k'.locks = { k.locks with waiters := k'.locks.waiters } := by
    unfold Kernel.locks
    simp only [Locks.mk.injEq, true_and]
    exact ⟨funext owners, funext same.priority, funext same.base⟩
  rw [shape]
  exact .leaves waiters

namespace Mutex
variable {k : Kernel} {m : MutexId} {self holder : TaskId}

theorem boost_priority (k : Kernel) (holder self t : TaskId) :
    ((boost k.sched holder self).tcb t).priority = k.locks.lend holder self t := by
  unfold boost Locks.lend Kernel.locks
  by_cases same : t = holder
  · subst same
    split
    · simp [setPriority]; omega
    · simp; omega
  · split <;> simp [setPriority, same]

theorem boost_base (k : Kernel) (holder self t : TaskId) :
    ((boost k.sched holder self).tcb t).basePriority = (k.sched.tcb t).basePriority := by
  unfold boost
  split
  · by_cases same : t = holder <;> simp [setPriority, same]
  · rfl

/-- A contended lock call makes the caller a waiter. -/
theorem waits_view {s : Sched} {wake : Option Tick} (unlisted : k.sched.events.ring self = none)
    (slept : Slept ((boost k.sched holder self).enqueued (.mutex m) self) self wake s) :
    ({ k with sched := s }.setMutex m (k.mutexes m)).locks = k.locks.wait m holder self := by
  have same := same_update slept.tcb rfl rfl
  unfold Locks.wait
  simp only [Kernel.locks, Kernel.setMutex, Function.update_eq_self, Locks.mk.injEq, true_and]
  refine ⟨funext ?_, funext ?_, funext ?_⟩
  · intro m'
    rw [slept.events]
    show (((boost k.sched holder self).events.link _ (.mutex m) self).items (.mutex m')) = _
    rw [boost_events, Rings.link_items unlisted]
    by_cases here : m' = m
    · subst here
      have stop : (boost k.sched holder self).lower self = fun other =>
          decide (k.locks.lend holder self other < k.locks.lend holder self self) := by
        funext other
        rw [lower, boost_priority, boost_priority]
      rw [Function.update_self, Function.update_self, stop]
      rfl
    · rw [Function.update_of_ne (by simpa using here), Function.update_of_ne here]
  · intro t
    rw [same.priority]
    exact boost_priority k holder self t
  · intro t
    rw [same.base]
    exact boost_base k holder self t

/-- A final unlock passes the mutex on. -/
theorem passes_view {s : Sched} {next : Option TaskId} {rest : List TaskId} {x : Mutex}
    (owner : x.owner = next) (same : SamePriorities (restored k.sched self) s)
    (waiters : ∀ m', s.events.items (.mutex m') =
      Function.update (fun m => k.sched.events.items (.mutex m)) m rest m') :
    ({ k with sched := s }.setMutex m x).locks = k.locks.pass m self next rest := by
  unfold Locks.pass
  simp only [Kernel.locks, Kernel.setMutex, Locks.mk.injEq]
  refine ⟨funext ?_, funext waiters, funext ?_, funext ?_⟩
  · intro m'
    by_cases here : m' = m <;> simp [here, owner]
  · intro t
    rw [same.priority]
    by_cases mine : t = self <;> simp [restored, setPriority, mine]
  · intro t
    rw [same.base]
    by_cases mine : t = self <;> simp [restored, setPriority, mine]

theorem frees_view (empty : k.sched.events.items (.mutex m) = []) :
    ({ k with sched := restored k.sched self }.setMutex m ⟨none, 0⟩).locks =
      k.locks.pass m self none [] := by
  apply passes_view rfl (.refl _)
  intro m'
  by_cases here : m' = m
  · subst here; simpa [restored, setPriority] using empty
  · simp [restored, setPriority, here]

theorem hands_view {t : TaskId} {rest : List TaskId} {s : Sched}
    (shape : k.sched.events.items (.mutex m) = t :: rest)
    (woken : Woken (restored k.sched self) t .ok s) :
    ({ k with sched := s }.setMutex m ⟨some t, 1⟩).locks = k.locks.pass m self (some t) rest := by
  apply passes_view rfl (same_update woken.tcb rfl rfl)
  intro m'
  rw [woken.events]
  by_cases here : m' = m
  · subst here
    rw [Function.update_self]
    exact Rings.remove_head shape
  · rw [Function.update_of_ne here]
    exact Rings.remove_other (Rings.ring_of_cons shape) (by simpa using here)

end Mutex

/-- Owners are created tasks. -/
def OwnersKnown (y : System) : Prop := ∀ m t, (y.mutexes m).owner = some t → t ∈ y.sched.tasks

/-- The step meets the restrictions under which owners stay above waiters. -/
def System.Orderly (y : System) (event : Event) : Prop := ¬ y.Chains event ∧ ¬ y.DropsBoost event

namespace Linked
variable {y z : System} {self : TaskId}

theorem unlisted_of_awake (linked : Linked y) {t : TaskId} (awake : (y.sched.tcb t).state ≠ .blocked)
    (m : MutexId) : t ∉ y.sched.events.items (.mutex m) := by
  rw [y.sched.events.mem_items, linked.placed.unlisted awake]
  simp

private theorem created_view {s : Sched} {t : TaskId} {p : Nat} (created : Created y.sched t p s) :
    ({ y.toKernel with sched := s } : Kernel).locks = y.locks.arrive t p := by
  unfold Locks.arrive
  simp only [Kernel.locks, Locks.mk.injEq, true_and]
  refine ⟨funext fun m => by rw [created.events], funext fun u => ?_, funext fun u => ?_⟩ <;>
    rw [created.tcb] <;> by_cases same : u = t <;> simp [same]

private theorem step_create {orderly : Prop} {s : Sched} {a : TaskArgs} {t : TaskId} (linked : Linked y)
    (known : OwnersKnown y) (allowed : y.allows (.taskCreate a) = true) (named : a.tcb = some t)
    (created : Created y.sched t a.priority s) :
    Locks.Step orderly y.locks ({ y.toKernel with sched := s } : Kernel).locks := by
  have fresh : (y.sched.tcb t).state = .deleted := fresh_of_allowed allowed named
  rw [created_view created]
  exact .arrives _ (fun m owned => (linked.created t).mp (known m t owned) fresh)
    (linked.unlisted_of_awake (by simp [fresh]))

/-- A call on something else than a mutex. -/
private theorem step_other {orderly : Prop} {c : Call} {r : CallResult} (linked : Linked y)
    (known : OwnersKnown y) (other : ∀ m, c.object ≠ some (.mutex m)) (allowed : y.allows c = true)
    (ran : y.toKernel.call self c = some r) : Locks.Step orderly y.locks r.kernel.locks := by
  have effect := call_effect ran
  have mutexes m : r.kernel.mutexes m = y.mutexes m := call_object ran (other m)
  rcases effect.priorities other with same | ⟨a, t, rfl, named, created⟩
  · refine stays (fun m => by rw [mutexes]) (fun m => ?_) same
    rw [effect.items (h := .mutex m) (other m)]
  · have view : r.kernel.locks = ({ y.toKernel with sched := r.kernel.sched } : Kernel).locks := by
      simp only [Kernel.locks, mutexes]
    rw [view]
    exact linked.step_create known allowed named created

private theorem step_lock {event : Event} {m : MutexId} {timeoutTicks : Tick} {st : Option Status}
    {x : Mutex} {s : Sched} (linked : Linked y)
    (origin : event = .call (.blocking (.mutexLock m timeoutTicks)))
    (running : y.running = some self) (state : (y.sched.tcb self).state = .running)
    (locks : Mutex.Locks m (y.mutexes m) y.sched self timeoutTicks st x s) :
    Locks.Step (y.Orderly event) y.locks ({ y.toKernel with sched := s }.setMutex m x).locks := by
  cases locks with
  | free unowned =>
    have view : ({ y.toKernel with sched := y.sched }.setMutex m ⟨some self, 1⟩).locks =
        y.locks.claim m self := by
      unfold Locks.claim
      simp only [Kernel.locks, Kernel.setMutex, Locks.mk.injEq, and_true]
      funext m'
      by_cases here : m' = m <;> simp [here]
    rw [view]
    exact .claims unowned (linked.unlisted_of_awake (by simp [state]))
  | again | refused =>
    refine stays ?_ (fun _ => .refl _) (.refl _)
    intro m'
    by_cases here : m' = m <;> simp [Kernel.setMutex, here]
  | @sleeps holder _ owned other patient unlisted slept =>
    rw [Mutex.waits_view unlisted slept]
    refine .waits owned other fun orderly m' mine => orderly.1 ?_
    exact ⟨m, timeoutTicks, self, holder, m', origin, running, owned, other, patient, mine⟩

private theorem step_unlock {event : Event} {m : MutexId} {st : Status} {woken : Option TaskId}
    {x : Mutex} {s : Sched} (origin : event = .call (.mutexUnlock m))
    (running : y.running = some self)
    (unlocks : Mutex.Unlocks m (y.mutexes m) y.sched self st woken x s) :
    Locks.Step (y.Orderly event) y.locks ({ y.toKernel with sched := s }.setMutex m x).locks := by
  -- an orderly final unlock leaves no waiter of another mutex above the base priority
  have kept (mine : (y.mutexes m).owner = some self) (last : (y.mutexes m).lockCount - 1 = 0)
      (orderly : y.Orderly event) m' w (other : m' ≠ m) (owned : (y.mutexes m').owner = some self)
      (waiting : w ∈ y.sched.events.items (.mutex m')) :
      (y.sched.tcb w).priority ≤ (y.sched.tcb self).basePriority :=
    Nat.le_of_not_lt fun higher =>
      orderly.2 ⟨m, self, m', w, origin, running, mine, last, other, owned, waiting, higher⟩
  cases unlocks with
  | notOwner | held =>
    refine stays ?_ (fun _ => .refl _) (.refl _)
    intro m'
    by_cases here : m' = m <;> simp [Kernel.setMutex, here]
  | frees mine last empty =>
    rw [Mutex.frees_view empty]
    exact .frees mine empty (kept mine last)
  | @hands t rest _ mine last shape woken =>
    have threaded := Rings.ring_of_cons shape
    have others (m' : MutexId) (other : m' ≠ m) : t ∉ y.sched.events.items (.mutex m') := by
      rw [y.sched.events.mem_items, threaded]
      simpa using Ne.symm other
    have once : t ∉ rest := by
      have nodup := y.sched.events.nodup (.mutex m)
      rw [shape, List.nodup_cons] at nodup
      exact nodup.1
    rw [Mutex.hands_view shape woken]
    exact .hands mine shape once others (kept mine last)

private theorem step_call {event : Event} {c : Call} {r : CallResult} (linked : Linked y)
    (known : OwnersKnown y) (origin : event = .call c ∨ c.Internal) (running : y.running = some self)
    (busy : ∀ b, y.pc self ≠ .requesting b) (allowed : y.allows c = true)
    (ran : y.toKernel.call self c = some r) :
    Locks.Step (y.Orderly event) y.locks r.kernel.locks := by
  by_cases about : ∃ m, c.object = some (.mutex m)
  · obtain ⟨m, about⟩ := about
    cases call_spec ran with
    | locks locks =>
      exact linked.step_lock (origin.resolve_right id) running (linked.self_running running busy) locks
    | unlocks unlocks => exact step_unlock (origin.resolve_right id) running unlocks
    | _ => cases about
  · exact linked.step_other known (fun m here => about ⟨m, here⟩) allowed ran

private theorem step_switch {orderly : Prop} {middle s : Sched} {t : TaskId}
    (requeued : y.sched.requeueCurrent = some middle) (selected : Selected middle t s)
    (view : z.locks = ({ y.toKernel with sched := s } : Kernel).locks) :
    Locks.Step orderly y.locks z.locks := by
  have events : middle.events = y.sched.events := by
    rcases requeueCurrent_spec requeued with ⟨_, _, _, readied⟩ | ⟨_, rfl⟩
    · exact readied.events
    · rfl
  rw [view]
  refine stays (fun _ => rfl) ?_
    ((same_requeued requeued).trans (same_update selected.tcb rfl rfl))
  intro m
  show (s.events.items _).Sublist _
  rw [selected.events, events]

/-- Every step is a step of locks with inheritance. -/
theorem step_locks {event : Event} (linked : Linked y) (known : OwnersKnown y)
    (stepped : y.step event = some z) : Locks.Step (y.Orderly event) y.locks z.locks := by
  cases step_cases stepped with
  | creates _ allowed made =>
    rcases taskCreate_spec made with ⟨_, rfl⟩ | ⟨t, named, _, created⟩
    · exact stays (fun _ => rfl) (fun _ => .refl _) (.refl _)
    · exact linked.step_create known allowed named created
  | starts _ selected | selects _ selected =>
    obtain ⟨_, _, requeued, _, _, selected⟩ := selectNext_spec selected
    exact step_switch requeued selected rfl
  | dispatches _ switched =>
    obtain ⟨_, requeued, _, selected⟩ := dispatch_spec switched
    exact step_switch requeued selected rfl
  | @ticks s ticked =>
    have scanned := tick_spec ticked
    refine stays (fun _ => rfl) ?_ ⟨?_, ?_⟩
    · intro m
      show (s.events.items _).Sublist _
      rw [scanned.eventItems]
      exact List.filter_sublist
    · intro t
      show (s.tcb t).priority = _
      rw [scanned.tcb]
      split <;> rfl
    · intro t
      show (s.tcb t).basePriority = _
      rw [scanned.tcb]
      split <;> rfl
  | @interrupts c st needsYield woken k ran =>
    have elsewhere (m : MutexId) : c.signals ≠ .mutex m := by cases c <;> simp [IsrCall.signals]
    have owners (m : MutexId) : k.mutexes m = y.mutexes m :=
      isr_object ran (o := .mutex m) (by cases c <;> simp [IsrCall.object])
    rcases (isr_effect ran).2 with wakes | ⟨_, same⟩
    · exact stays (fun m => congrArg Mutex.owner (owners m))
        (fun m => (wakes_items wakes (elsewhere m).symm) ▸ .refl _) (same_wakes wakes)
    · refine stays (fun m => congrArg Mutex.owner (owners m)) ?_ ?_
      · intro m
        rw [show (y.interrupted c st needsYield woken k).sched = y.sched from same]
      · rw [show (y.interrupted c st needsYield woken k).sched = y.sched from same]
        exact .refl _
  | isrRequests | requests | fires => exact stays (fun _ => rfl) (fun _ => .refl _) (.refl _)
  | calls running application here allowed ran =>
    exact linked.step_call known (.inl rfl) running (by simp [here]) allowed ran
  | continues running here ran =>
    have internal := linked.internal _ _ here
    exact linked.step_call known (.inr internal) running (by simp [here]) (allows_internal internal) ran
  | @finishes self b st out k running here ran =>
    have same : (y.finished self b st out k).sched = y.sched := linked.resume_keeps running here ran
    refine stays ?_ (fun m => by rw [same]) (by rw [same]; exact .refl _)
    intro m
    show (k.mutexes m).owner = _
    cases resume_spec ran <;> rfl

/-- No task is ever forgotten. -/
theorem tasks_grow {event : Event} {t : TaskId} (linked : Linked y)
    (stepped : y.step event = some z) (created : t ∈ y.sched.tasks) : t ∈ z.sched.tasks := by
  cases linked.step_moves stepped with
  | quiet quiet =>
    rcases quiet.tasks with tasks | ⟨u, _, tasks⟩ <;> simp [tasks, created]
  | @ticks s ticked =>
    show t ∈ s.tasks
    rw [(tick_spec ticked).rest.tasks]
    exact created
  | @interrupts c st needsYield woken k ran =>
    show t ∈ k.sched.tasks
    rcases (isr_effect ran).2 with wakes | ⟨_, same⟩
    · generalize k.sched = s at wakes ⊢
      cases wakes with
      | nobody => exact created
      | first _ woken => rw [woken.rest.tasks]; exact created
    · rw [same]; exact created
  | @enters _ _ r _ running busy _ _ ran =>
    show t ∈ r.kernel.sched.tasks
    rcases (call_effect ran).tasks linked.placed (by simp [linked.self_running running busy]) with
      same | ⟨_, _, _, _, made⟩
    · rw [same.1]; exact created
    · rw [made.tasks]; simp [created]
  | @finishes self b st out k running here ran =>
    show t ∈ k.sched.tasks
    rw [linked.resume_keeps running here ran]
    exact created

/-- Owners were running or waiting when they got their mutex. -/
theorem owners_known {event : Event} (linked : Linked y) (known : OwnersKnown y)
    (stepped : y.step event = some z) : OwnersKnown z := by
  intro m t owned
  have grows := linked.tasks_grow stepped (t := t)
  cases linked.step_touches stepped (.mutex m) with
  | aside aside =>
    have same : z.mutexes m = y.mutexes m := aside.object
    exact grows (known m t (same ▸ owned))
  | ticks => exact grows (known m t owned)
  | @interrupts c _ _ _ _ about => cases c <;> cases about
  | @enters self c r about origin running busy awake allowed ran =>
    have caller : self ∈ y.sched.tasks :=
      (linked.created self).mpr (by simp [linked.self_running running busy])
    cases call_spec ran with
    | @locks m' timeoutTicks st x s locks =>
      obtain rfl : m' = m := by simpa [Call.object, BlockingCall.object] using about
      replace owned : x.owner = some t := by simpa [entered, Kernel.setMutex] using owned
      cases locks with
      | free => exact grows (Option.some.inj owned ▸ caller)
      | again | refused | sleeps => exact grows (known m' t owned)
    | @unlocks m' st woken x s unlocks =>
      obtain rfl : m' = m := by simpa [Call.object] using about
      replace owned : x.owner = some t := by simpa [entered, Kernel.setMutex] using owned
      cases unlocks with
      | notOwner | held => exact grows (known m' t owned)
      | frees => cases owned
      | hands _ _ shape =>
        obtain rfl := Option.some.inj owned
        refine grows ((linked.created _).mpr ?_)
        simp [(linked.placed.waiting (Rings.ring_of_cons shape)).1]
    | _ => cases about
  | @finishes self b st out k about running here ran =>
    have same : k.mutexes m = y.mutexes m := by cases resume_spec ran <;> rfl
    exact grows (known m t (same ▸ owned))

end Linked

theorem owners_known_of_run {cfg : Config} {guard : System → Event → Prop} {y : System}
    (run : KernelRun cfg guard y) : OwnersKnown y := by
  have strong := run.strengthen fun _ => linked_of_run
  refine strong.invariant _ ?_ fun _ _ _ known meets stepped => meets.2.owners_known known stepped
  intro m t owned
  cases owned

/-- A task that owns no mutex has its base priority, in every run. -/
theorem unboosted_of_run {cfg : Config} {guard : System → Event → Prop} {y : System}
    (run : KernelRun cfg guard y) : y.locks.Unboosted := by
  have strong := (run.strengthen fun _ => linked_of_run).strengthen fun _ => owners_known_of_run
  refine strong.invariant (fun y => y.locks.Unboosted) ?_
    fun _ _ _ unboosted meets stepped => unboosted.step (meets.1.2.step_locks meets.2 stepped)
  intro t _
  show (schedulerInit.tcb t).priority = (schedulerInit.tcb t).basePriority
  rw [schedulerInit_spec.tcb]
  by_cases first : t = idle <;> simp [first, blank]

theorem orderly_of_run {cfg : Config} {y : System} (run : KernelRun cfg System.Orderly y) :
    y.locks.Orderly := by
  have strong := (run.strengthen fun _ => linked_of_run).strengthen fun _ => owners_known_of_run
  have nobody (m : MutexId) : schedulerInit.events.items (.mutex m) = [] := by
    rw [schedulerInit_spec.events]
    rfl
  have empty (m : MutexId) : (boot cfg).locks.waiters m = [] := nobody m
  refine strong.invariant (fun y => y.locks.Orderly)
    ⟨fun m _ => empty m, ?_, ?_, ?_⟩
    fun _ _ _ orderly meets stepped =>
      orderly.step (meets.1.2.step_locks meets.2 stepped) meets.1.1
  · intro m _ _ waiting
    rw [empty m] at waiting; cases waiting
  · intro m
    rw [empty m]; exact .nil
  · intro m _ _ owned
    cases owned

/-- The bookkeeping of inheritance. -/
structure Inherits (y : System) : Prop where
  unboosted : ∀ t, (∀ m, (y.mutexes m).owner ≠ some t) →
    (y.sched.tcb t).priority = (y.sched.tcb t).basePriority
  covered : ∀ m o w, (y.mutexes m).owner = some o → w ∈ y.sched.events.items (.mutex m) →
    (y.sched.tcb w).priority ≤ (y.sched.tcb o).priority

/-- An unlock that drops such a boost leaves an owner below its waiter. -/
theorem Linked.drops_uncover {y z : System} {event : Event} (linked : Linked y)
    (drops : y.DropsBoost event) (stepped : y.step event = some z) : ¬ Inherits z := by
  obtain ⟨m, self, m', w, rfl, running, mine, last, other, owned, waiting, higher⟩ := drops
  cases step_cases stepped with
  | @calls caller _ r running' _ here _ ran =>
    obtain rfl : self = caller := Option.some.inj (running.symm.trans running')
    have awake := linked.self_running running (by simp [here])
    have distinct : w ≠ self := fun same => by
      have blocked := (linked.placed.waiting ((y.sched.events.mem_items _ _).mp waiting)).1
      rw [same, awake] at blocked
      cases blocked
    have uncovered (next : Option TaskId) (rest : List TaskId) :
        ¬ (y.locks.pass m self next rest).Covered :=
      Locks.pass_uncovers other owned waiting distinct higher
    refine ?_
    intro inherits
    cases call_spec ran with
    | unlocks unlocks =>
      cases unlocks with
      | notOwner notMine => exact notMine mine
      | held _ deep => rw [last] at deep; cases deep
      | frees _ _ empty =>
        refine uncovered none [] ?_
        rw [← Mutex.frees_view empty]
        exact inherits.covered
      | @hands t rest _ _ _ shape woken =>
        refine uncovered (some t) rest ?_
        rw [← Mutex.hands_view shape woken]
        exact inherits.covered

/-- Owners stay above their waiters in a run in which no task blocks on a
mutex while owning another and no unlock drops a boost that another mutex of
the unlocker still needs; the first such unlock ends it. -/
theorem inherits_of_run {cfg : Config} {y : System} (run : KernelRun cfg System.Orderly y) :
    Inherits y ∧ ∀ event z, y.step event = some z → ¬ y.Chains event →
      (Inherits z ↔ ¬ y.DropsBoost event) := by
  have inherits {y : System} (run : KernelRun cfg System.Orderly y) : Inherits y :=
    ⟨unboosted_of_run run, (orderly_of_run run).covered⟩
  refine ⟨inherits run, fun event z stepped unchained => ⟨?_, ?_⟩⟩
  · intro kept drops
    exact (linked_of_run run).drops_uncover drops stepped kept
  · intro keeps
    exact inherits (run.next ⟨unchained, keeps⟩ stepped)

/-! ## Runs over finitely many mutexes -/

namespace System

/-- The event is not a call on a mutex from `n` on. -/
def within (n : Nat) : Event → Bool
  | .call (.blocking (.mutexLock m _)) => m < n
  | .call (.mutexUnlock m) => m < n
  | _ => true

/-- `Chains`, looking for the other mutex below `n`. -/
def chainsBelow (n : Nat) (y : System) : Event → Bool
  | .call (.blocking (.mutexLock m timeoutTicks)) =>
    match y.running, (y.mutexes m).owner with
    | some self, some holder => holder ≠ self && timeoutTicks ≠ noWait &&
        (List.range n).any fun m' => (y.mutexes m').owner = some self
    | _, _ => false
  | _ => false

/-- `DropsBoost`, looking for the other mutex below `n`. -/
def dropsBelow (n : Nat) (y : System) : Event → Bool
  | .call (.mutexUnlock m) =>
    match y.running with
    | some self => (y.mutexes m).owner = some self && (y.mutexes m).lockCount - 1 = 0 &&
        (List.range n).any fun m' => m' ≠ m && (y.mutexes m').owner = some self &&
          (y.sched.events.items (.mutex m')).any fun w =>
            (y.sched.tcb self).basePriority < (y.sched.tcb w).priority
    | none => false
  | _ => false

end System

/-- No task chains, as far as the mutexes below `n` show. -/
abbrev UnchainedBelow (n : Nat) (y : System) (event : Event) : Prop :=
  System.within n event = true ∧ y.chainsBelow n event = false

abbrev OrderlyBelow (n : Nat) (y : System) (event : Event) : Prop :=
  UnchainedBelow n y event ∧ y.dropsBelow n event = false

/-- A run that calls no mutex from `n` on leaves them unowned. -/
private theorem unowned_beyond {cfg : Config} {n : Nat} {guard : System → Event → Prop} {y : System}
    (run : KernelRun cfg guard y) (bounded : ∀ y event, guard y event → System.within n event = true)
    (m : MutexId) (beyond : n ≤ m) : (y.mutexes m).owner = none := by
  have strong := run.strengthen fun _ => linked_of_run
  apply strong.invariant (fun y => (y.mutexes m).owner = none) rfl
  intro y event z unowned meets stepped
  have inside := bounded _ _ meets.1
  cases meets.2.step_touches stepped (.mutex m) with
  | aside aside => rw [show z.mutexes m = y.mutexes m from aside.object, unowned]
  | ticks => exact unowned
  | @interrupts c _ _ _ _ about => cases c <;> cases about
  | @enters _ c _ about origin =>
    rcases origin with rfl | internal
    · cases c with
      | blocking b =>
        cases b <;> cases about
        exact absurd (of_decide_eq_true inside) (Nat.not_lt.mpr beyond)
      | mutexUnlock m' =>
        cases about
        exact absurd (of_decide_eq_true inside) (Nat.not_lt.mpr beyond)
      | _ => cases about
    · cases c with
      | blocking b => cases b <;> first | cases about; done | exact internal.elim
      | mutexUnlock => exact internal.elim
      | _ => cases about
  | @finishes _ _ _ _ k _ _ _ ran =>
    have same : k.mutexes m = y.mutexes m := by cases resume_spec ran <;> rfl
    show (k.mutexes m).owner = none
    rw [same, unowned]

theorem unchained_of_below {n : Nat} {y : System} {event : Event}
    (beyond : ∀ m, n ≤ m → (y.mutexes m).owner = none) (below : y.chainsBelow n event = false) :
    ¬ y.Chains event := by
  rintro ⟨m, timeoutTicks, self, holder, m', rfl, running, owned, other, patient, mine⟩
  have inside : m' < n := Nat.lt_of_not_le fun above => by
    rw [beyond m' above] at mine; cases mine
  simp [System.chainsBelow, running, owned, other, patient] at below
  exact below m' inside mine

theorem keeps_of_below {n : Nat} {y : System} {event : Event}
    (beyond : ∀ m, n ≤ m → (y.mutexes m).owner = none) (below : y.dropsBelow n event = false) :
    ¬ y.DropsBoost event := by
  rintro ⟨m, self, m', w, rfl, running, mine, last, other, owned, waiting, higher⟩
  have inside : m' < n := Nat.lt_of_not_le fun above => by
    rw [beyond m' above] at owned; cases owned
  simp [System.dropsBelow, running, mine, last] at below
  exact Nat.not_lt.mpr (below m' inside other owned w waiting) higher

theorem unchained_run {cfg : Config} {n : Nat} {y : System}
    (run : KernelRun cfg (UnchainedBelow n) y) : KernelRun cfg (fun y event => ¬ y.Chains event) y :=
  (run.strengthen fun _ before => unowned_beyond before (n := n) fun _ _ meets => meets.1).weaken
    fun _ _ meets => unchained_of_below meets.2 meets.1.2

theorem orderly_run {cfg : Config} {n : Nat} {guard : System → Event → Prop} {y : System}
    (run : KernelRun cfg guard y) (below : ∀ y event, guard y event → OrderlyBelow n y event) :
    KernelRun cfg (fun y event => y.Orderly event ∧ guard y event) y :=
  (run.strengthen fun _ before => unowned_beyond before fun _ _ meets => (below _ _ meets).1.1).weaken
    fun _ _ meets => ⟨⟨unchained_of_below meets.2 (below _ _ meets.1).1.2,
      keeps_of_below meets.2 (below _ _ meets.1).2⟩, meets.1⟩

/-- Task 1 locks two mutexes and sleeps, task 2 waits for the first of them. -/
def twoMutexes : List Event :=
  [.create ⟨some 1, 1, 1, 64, 1⟩, .create ⟨some 2, 1, 1, 64, 3⟩, .start,
    .call (.blocking (.taskDelay 1)), .proceed, .pendSV,
    .call (.blocking (.mutexLock 0 waitForever)), .call (.blocking (.mutexLock 1 waitForever)),
    .call (.blocking (.taskDelay 2)), .proceed, .pendSV, .tick, .pendSV, .proceed,
    .call (.blocking (.mutexLock 0 waitForever)), .proceed, .pendSV, .tick, .pendSV, .proceed]

set_option maxRecDepth 20000 in
theorem twoMutexes_inherits :
    ∃ y, GuardedRun.exec System.step (OrderlyBelow 2) (boot {})
        (twoMutexes ++ [.call (.mutexUnlock 0)]) = some y ∧
      Inherits y ∧ ∀ event z, y.step event = some z → ¬ y.Chains event →
        (Inherits z ↔ ¬ y.DropsBoost event) := by
  obtain ⟨y, ran⟩ := Option.isSome_iff_exists.mp
    (by decide +kernel : (GuardedRun.exec System.step (OrderlyBelow 2) (boot {})
      (twoMutexes ++ [.call (.mutexUnlock 0)])).isSome = true)
  have run := orderly_run (GuardedRun.run_of_exec ran) fun _ _ meets => meets
  exact ⟨y, ran, inherits_of_run (run.weaken fun _ _ meets => meets.1)⟩

set_option maxRecDepth 20000 in
/-- Unlocking the other mutex first drops the boost the waiter gave. -/
theorem early_unlock_uncovers :
    ∃ y, KernelRun {} (fun y event => ¬ y.Chains event) y ∧ ¬ Inherits y := by
  obtain ⟨y, run, low⟩ := GuardedRun.reaches_of_exec
    (twoMutexes ++ [.call (.mutexUnlock 1)])
    (fun y : System => ((y.mutexes 0).owner = some 1 : Bool) &&
      (y.sched.events.items (.mutex 0) = [2] : Bool) &&
      ((y.sched.tcb 1).priority < (y.sched.tcb 2).priority : Bool))
    (by decide +kernel : (GuardedRun.exec System.step (UnchainedBelow 2) (boot {})
      (twoMutexes ++ [.call (.mutexUnlock 1)])).map _ = some true)
  simp only [Bool.and_eq_true, decide_eq_true_eq] at low
  obtain ⟨⟨owned, waiting⟩, lower⟩ := low
  refine ⟨y, unchained_run run, ?_⟩
  intro inherits
  have covered := inherits.covered 0 1 2 owned (by simp [waiting])
  omega

end NimbleRtos
