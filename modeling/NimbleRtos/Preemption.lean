import NimbleRtos.Indexing
import NimbleRtos.Objects

/-! Preemption: whether a context switch is requested when a READY task comes
to stand above the running one. A monitor follows one task and remembers
whether it got there without anyone being told. -/
namespace NimbleRtos
open NodeRings Sched GuardedRun NimbleRtos.System

/-- Requests a context switch, or tells an interrupt handler to. -/
def Entry.announces : Entry → Bool
  | .requested => true
  | .isrReturned _ _ needsYield => needsYield
  | _ => false

namespace System

/-- `t` is READY with a higher effective priority than the current task. -/
def ahead (y : System) (t : TaskId) : Bool :=
  match y.sched.current with
  | some c => (y.sched.tcb t).state = .ready && (y.sched.tcb c).priority < (y.sched.tcb t).priority
  | none => false

/-- The step from `y` to `z` announced a switch. -/
def announced (y z : System) : Bool :=
  (z.log.take (z.log.length - y.log.length)).any Entry.announces

/-- Task `t` got ahead, and no switch was announced during or since that step. -/
def missed (t : TaskId) (y z : System) (flag : Bool) : Bool :=
  z.ahead t && !announced y z && (flag || !y.ahead t)

/-- The current task is on its way from a critical section to its request. -/
def Requesting (y : System) : Prop :=
  ∃ c b, y.sched.current = some c ∧ y.pc c = .requesting b

/-- The call puts `t` ahead of its caller and requests no switch: it creates or
resumes `t`, or it gives up a mutex nobody waits for, with the boosted priority
that kept the caller above `t`. -/
def outranks (t : TaskId) (y : System) : Event → Bool
  | .call (.taskCreate a) => match y.running with
    | some self => a.tcb = some t && a.valid && (y.sched.tcb self).priority < a.priority
    | none => false
  | .call (.taskResume u) => match y.running with
    | some self => u = t && (y.sched.tcb t).state = .suspended &&
        (y.sched.tcb self).priority < (y.sched.tcb t).priority
    | none => false
  | .call (.mutexUnlock m) => match y.running with
    | some self => (y.mutexes m).owner = some self && (y.mutexes m).lockCount - 1 = 0 &&
        (y.sched.events.items (.mutex m)).isEmpty && (y.sched.tcb t).state = .ready &&
        (y.sched.tcb self).basePriority < (y.sched.tcb t).priority &&
        (y.sched.tcb t).priority ≤ (y.sched.tcb self).priority
    | none => false
  | _ => false

end System

/-- The switch is not one of the scheduler's own. -/
def Event.dispatches : Event → Bool
  | .dispatch _ => true
  | _ => false

/-- The scheduler selects the tasks, no lock raises a READY owner, and no call
puts `t` ahead of its caller without a request. -/
abbrev Prompt (t : TaskId) (y : System) (event : Event) : Prop :=
  event.dispatches = false ∧ Calm y event ∧ y.outranks t event = false

/-- Runs of the kernel with the monitor for `t`. -/
abbrev WatchedRun (t : TaskId) (cfg : Config) (guard : System → Event → Prop) : System × Bool → Prop :=
  Run (monitored System.step (System.missed t)) (fun w event => guard w.1 event) (boot cfg, false)

namespace System
variable {y z : System} {t self : TaskId}

theorem ahead_iff {c : TaskId} (current : y.sched.current = some c) :
    y.ahead t = true ↔
      (y.sched.tcb t).state = .ready ∧ (y.sched.tcb c).priority < (y.sched.tcb t).priority := by
  simp [ahead, current]

theorem announced_of_log (entries : List Entry) (log : z.log = entries ++ y.log) :
    announced y z = entries.any Entry.announces := by
  unfold announced
  rw [log, List.length_append, Nat.add_sub_cancel, List.take_left]

theorem missed_iff {flag : Bool} : missed t y z flag = true ↔
    z.ahead t = true ∧ announced y z = false ∧ (flag = true ∨ y.ahead t = false) := by
  simp [missed, and_assoc]

end System

/-- A change of one other task that does not put `t` ahead. -/
private theorem ahead_update {s s' : Sched} {self t u : TaskId} {x : Tcb}
    (tcb : s'.tcb = Function.update s.tcb u x) (priority : x.priority = (s.tcb u).priority)
    (here : t = u → x.state ≠ .ready)
    (now : (s'.tcb t).state = .ready ∧ (s'.tcb self).priority < (s'.tcb t).priority) :
    (s.tcb t).state = .ready ∧ (s.tcb self).priority < (s.tcb t).priority := by
  have kept (v : TaskId) : (s'.tcb v).priority = (s.tcb v).priority := by
    rw [tcb]; by_cases same : v = u <;> simp [same, priority]
  rw [kept, kept] at now
  refine ⟨?_, now.2⟩
  by_cases same : t = u
  · have state := now.1
    rw [tcb, same, Function.update_self] at state
    exact absurd state (here same)
  · rw [← now.1, tcb, Function.update_of_ne same]

/-- A call that neither creates nor resumes a task nor unlocks a mutex puts no
task ahead of its caller before it is about to request a switch. -/
private theorem effect_ahead {k : Kernel} {s' : Sched} {self t : TaskId} {c : Call} {o : Outcome}
    {woken : Option TaskId} (effect : Effect k self c o woken s')
    (creates : ∀ a, c ≠ .taskCreate a) (resumes : ∀ u, c ≠ .taskResume u)
    (unlocks : ∀ m, c ≠ .mutexUnlock m)
    (now : (s'.tcb t).state = .ready ∧ (s'.tcb self).priority < (s'.tcb t).priority) :
    (∃ b, outcomePc c o = .requesting b) ∨
      (k.sched.tcb t).state = .ready ∧ (k.sched.tcb self).priority < (k.sched.tcb t).priority := by
  cases effect with
  | keeps _ changed =>
    refine .inr ?_
    cases changed with
    | same => exact now
    | @boosted m timeoutTicks owner _ _ other =>
      have mine : self ≠ owner := Ne.symm other
      by_cases boosted : t = owner
      · subst boosted
        simp [setPriority, mine] at now
      · simpa [setPriority, mine, boosted] using now
    | restored call => exact absurd call (unlocks _)
  | sleeps call => subst call; exact .inl ⟨_, rfl⟩
  | wakes => exact .inl ⟨_, rfl⟩
  | creates call => exact absurd call (creates _)
  | @suspends u _ _ suspended =>
    by_cases mine : k.sched.current = some u
    · rw [if_pos mine]; exact .inl ⟨_, rfl⟩
    · exact .inr (ahead_update suspended.tcb rfl (fun _ => by simp) now)
  | resumes call => exact absurd call (resumes _)

namespace Linked
variable {y z : System} {t self : TaskId}

/-- A call that puts `t` ahead of its caller is about to request a switch, or
is one of those that do not. -/
private theorem call_ahead {c : Call} {r : CallResult} (linked : Linked y)
    (running : y.running = some self) (busy : ∀ b, y.pc self ≠ .requesting b)
    (allowed : y.allows c = true) (ran : y.toKernel.call self c = some r)
    (behind : y.ahead t = false) (now : (y.entered self c r).ahead t = true) :
    (∃ b, outcomePc c r.outcome = .requesting b) ∨ y.outranks t (.call c) = true := by
  have current := (running_iff.mp running).2.2
  have state := linked.self_running running busy
  have effect := call_effect ran
  have after : (y.entered self c r).sched.current = some self := effect.current.trans current
  rw [ahead_iff after] at now
  have behind : ¬ ((y.sched.tcb t).state = .ready ∧
      (y.sched.tcb self).priority < (y.sched.tcb t).priority) := by
    rw [← ahead_iff current, behind]; simp
  have generic (creates : ∀ a, c ≠ .taskCreate a) (resumes : ∀ u, c ≠ .taskResume u)
      (unlocks : ∀ m, c ≠ .mutexUnlock m) := effect_ahead effect creates resumes unlocks now
  cases call_spec ran with
  | @creates a st s made =>
    replace now : (s.tcb t).state = .ready ∧ (s.tcb self).priority < (s.tcb t).priority := now
    rcases taskCreate_spec made with ⟨_, rfl⟩ | ⟨u, named, rfl, created⟩
    · exact absurd now behind
    have fresh : (y.sched.tcb u).state = .deleted := fresh_of_allowed allowed named
    have other : self ≠ u := ne_of_state state fresh (by simp)
    rw [created.tcb, Function.update_of_ne other] at now
    by_cases mine : t = u
    · subst mine
      have higher := now.2
      rw [Function.update_self] at higher
      exact .inr (by simp [outranks, running, named, taskCreate_valid made, show
        (y.sched.tcb self).priority < a.priority from higher])
    · rw [Function.update_of_ne mine] at now
      exact absurd now behind
  | @resumes u s resumed =>
    replace now : (s.tcb t).state = .ready ∧ (s.tcb self).priority < (s.tcb t).priority := now
    rcases taskResume_spec resumed with ⟨suspended, readied⟩ | rfl
    · by_cases mine : t = u
      · subst mine
        have other : self ≠ t := ne_of_state state suspended (by simp)
        have higher := now.2
        rw [readied.tcb, Function.update_self, Function.update_of_ne other] at higher
        exact .inr (by simp [outranks, running, suspended, show
          (y.sched.tcb self).priority < (y.sched.tcb t).priority from higher])
      · exact absurd (ahead_update readied.tcb rfl (fun same => absurd same mine) now) behind
    · exact absurd now behind
  | @unlocks m st woken x s unlocks =>
    replace now : (s.tcb t).state = .ready ∧ (s.tcb self).priority < (s.tcb t).priority := now
    cases unlocks with
    | notOwner | held => exact absurd now behind
    | frees mine last empty =>
      have other : t ≠ self := fun same => by
        have ready := now.1
        rw [same] at ready
        simp [Mutex.restored, setPriority, state] at ready
      simp only [Mutex.restored, setPriority, setTcb_tcb, Function.update_self,
        Function.update_of_ne other] at now
      refine .inr ?_
      have reached : (y.sched.tcb t).priority ≤ (y.sched.tcb self).priority :=
        Nat.le_of_not_lt fun higher => behind ⟨now.1, higher⟩
      simp [outranks, running, mine, last, empty, now.1, now.2, reached]
    | hands => exact .inl ⟨none, rfl⟩
  | _ => exact .inl ((generic (by simp) (by simp) (by simp)).resolve_right behind)

/-- After a selection nobody is ahead. -/
private theorem selected_behind {c : TaskId} {s : Sched} (linked : Linked y) (indexed : Indexed y.sched)
    (selected : y.sched.selectNext = some (c, s)) (sched : z.sched = { s with current := some c }) :
    z.ahead t = false := by
  have highest := (linked.selectNext_highest indexed selected).2
  obtain ⟨middle, rest, requeued, _, _, selected⟩ := selectNext_spec selected
  have kept (u : TaskId) : (s.tcb u).priority = (y.sched.tcb u).priority := by
    rw [selected.tcb, ← (requeued_kept requeued u).1]
    by_cases same : u = c <;> simp [same]
  have current : z.sched.current = some c := by rw [sched]
  apply Bool.eq_false_iff.mpr
  intro now
  rw [ahead_iff current, show z.sched.tcb = s.tcb by rw [sched], kept, kept] at now
  obtain ⟨ready, higher⟩ := now
  have other : t ≠ c := fun same => by rw [same] at higher; exact Nat.lt_irrefl _ higher
  rw [selected.tcb, Function.update_of_ne other] at ready
  have runnable := (linked.requeued_ready requeued t).mp ready
  exact Nat.not_lt.mpr (highest t runnable) higher

/-- A step that leaves the scheduler alone puts nobody ahead. -/
private theorem still_ahead (sched : z.sched = y.sched) : z.ahead t = y.ahead t := by
  unfold ahead
  rw [sched]

/-- The monitor's flag is up only while the current task is about to request. -/
theorem step_missed (linked : Linked y) (indexed : Indexed y.sched) {event : Event} {flag : Bool}
    (prompt : Prompt t y event) (stepped : y.step event = some z)
    (inv : flag = true → y.started = true → y.Requesting)
    (missing : missed t y z flag = true) (started : z.started = true) : z.Requesting := by
  obtain ⟨now, silent, before⟩ := missed_iff.mp missing
  -- an unchanged scheduler means the flag was up already
  have raised (same : z.ahead t = y.ahead t) : flag = true :=
    before.resolve_right fun behind => by rw [same, behind] at now; cases now
  -- outside a request the flag was down
  have lowered {self : TaskId} (running : y.running = some self)
      (busy : ∀ b, y.pc self ≠ .requesting b) : y.ahead t = false := by
    apply before.resolve_left
    intro up
    obtain ⟨going, _, current⟩ := running_iff.mp running
    obtain ⟨c, b, current', here⟩ := inv up going
    obtain rfl : self = c := Option.some.inj (current.symm.trans current')
    exact busy b here
  have unmoved {self : TaskId} (running : y.running = some self)
      (busy : ∀ b, y.pc self ≠ .requesting b) (same : z.ahead t = y.ahead t) : False := by
    rw [same, lowered running busy] at now
    cases now
  cases step_cases stepped with
  | creates unstarted =>
    rw [show y.started = true from started] at unstarted
    cases unstarted
  | starts _ selected | selects _ selected =>
    rw [linked.selected_behind indexed selected rfl] at now
    cases now
  | dispatches => cases prompt.1
  | @ticks s ticked =>
    rw [announced_of_log (.requested :: y.sched.expired.map (.woken · .tick) ++ [.ticked])
      (by simp [System.ticked])] at silent
    cases silent
  | isrRequests | requests =>
    rw [announced_of_log [.requested] rfl] at silent
    cases silent
  | @interrupts c st needsYield woken k ran =>
    obtain ⟨yields, effect⟩ := isr_effect ran
    rw [announced_of_log (y := y) _ rfl] at silent
    have told : needsYield = false := by
      simp only [List.cons_append, List.any_cons, Bool.or_eq_false_iff] at silent
      exact silent.1
    have nobody : woken = none := by simpa [told] using yields.symm
    have same : k.sched = y.sched := by
      rcases effect with wakes | ⟨_, same⟩
      · rw [nobody] at wakes
        generalize k.sched = s at wakes
        cases wakes with
        | nobody => rfl
      · exact same
    obtain ⟨c', b, current, here⟩ := inv (raised (still_ahead same)) started
    exact ⟨c', b, by rw [← current]; exact congrArg Sched.current same, here⟩
  | @calls self c r running _ here allowed ran =>
    have busy : ∀ b, y.pc self ≠ .requesting b := by simp [here]
    rcases linked.call_ahead running busy allowed ran (lowered running busy) now with ⟨b, asks⟩ | outranks
    · exact ⟨self, b, (call_effect ran).current.trans (running_iff.mp running).2.2,
        by simpa [entered] using asks⟩
    · rw [prompt.2.2] at outranks
      cases outranks
  | @continues self c r running here ran =>
    have busy : ∀ b, y.pc self ≠ .requesting b := by simp [here]
    have internal := linked.internal _ _ here
    rcases linked.call_ahead running busy (allows_internal internal) ran (lowered running busy) now with
      ⟨b, asks⟩ | outranks
    · exact ⟨self, b, (call_effect ran).current.trans (running_iff.mp running).2.2,
        by simpa [entered] using asks⟩
    · cases c <;> first | exact internal.elim | cases outranks
  | @finishes self b st out k running here ran =>
    have same : (y.finished self b st out k).sched = y.sched := linked.resume_keeps running here ran
    exact (unmoved running (by simp [here]) (still_ahead same)).elim
  | @fires self _ _ _ running here =>
    exact (unmoved running (by simp [here]) (still_ahead rfl)).elim

/-- An interrupt call that puts `t` ahead says so. -/
theorem isr_tells {c : IsrCall} (stepped : y.step (.isr c) = some z)
    (behind : y.ahead t = false) (now : z.ahead t = true) :
    ∃ st, Logged y z (.isrReturned c st true) := by
  cases step_cases stepped with
  | @interrupts _ st needsYield woken k ran =>
    obtain ⟨yields, effect⟩ := isr_effect ran
    cases woken with
    | some u =>
      refine ⟨st, (logged_interrupted _).mpr ?_⟩
      simp [show needsYield = true from yields]
    | none =>
      have same : k.sched = y.sched := by
        rcases effect with wakes | ⟨_, same⟩
        · generalize k.sched = s at wakes
          cases wakes with
          | nobody => rfl
        · exact same
      rw [still_ahead same, behind] at now
      cases now

/-- A call that returns with no more said than its status, and puts `t` ahead. -/
private theorem returns_misses {c : Call} {r : CallResult} {st : Status} {flag : Bool}
    (running : y.running = some self) (ran : y.toKernel.call self c = some r)
    (returns : r.outcome = .returns st []) (nobody : r.woken = none) (gives : givesTo c = none)
    (behind : y.ahead t = false)
    (now : (r.kernel.sched.tcb t).state = .ready ∧
      (r.kernel.sched.tcb self).priority < (r.kernel.sched.tcb t).priority) :
    missed t y (y.entered self c r) flag = true ∧ (y.entered self c r).started = true ∧
      ¬ (y.entered self c r).Requesting := by
  obtain ⟨started, _, current⟩ := running_iff.mp running
  have after : (y.entered self c r).sched.current = some self :=
    (call_effect ran).current.trans current
  refine ⟨missed_iff.mpr ⟨(ahead_iff after).mpr now, ?_, .inr behind⟩, started, ?_⟩
  · rw [announced_of_log _ rfl]
    simp [returns, nobody, gives, outcomeEntries, wokenEntries, gaveEntries, Entry.announces]
  · rintro ⟨c', b, current', here⟩
    obtain rfl : self = c' := Option.some.inj (after.symm.trans current')
    simp [entered, returns, outcomePc] at here

/-- The calls the guard excludes do put `t` ahead with nobody told. -/
theorem outranks_misses (linked : Linked y) {event : Event} (flag : Bool)
    (outranks : y.outranks t event = true) (stepped : y.step event = some z) :
    missed t y z flag = true ∧ z.started = true ∧ ¬ z.Requesting := by
  cases step_cases stepped with
  | @calls self c r running _ here allowed ran =>
    have state := linked.self_running running (by simp [here])
    have current := (running_iff.mp running).2.2
    cases call_spec ran with
    | @creates a st s made =>
      simp [System.outranks, running] at outranks
      obtain ⟨⟨named, valid⟩, higher⟩ := outranks
      obtain ⟨rfl, created⟩ := taskCreate_of_valid valid named made
      have fresh : (y.sched.tcb t).state = .deleted := fresh_of_allowed allowed named
      have other : self ≠ t := ne_of_state state fresh (by simp)
      refine returns_misses running ran rfl rfl rfl ?_ ?_
      · rw [Bool.eq_false_iff, Ne, ahead_iff current]; simp [fresh]
      · show (s.tcb t).state = _ ∧ (s.tcb self).priority < (s.tcb t).priority
        rw [created.tcb]
        simp [other, higher]
    | @resumes u s resumed =>
      simp [System.outranks, running] at outranks
      obtain ⟨⟨rfl, suspended⟩, higher⟩ := outranks
      have other : self ≠ u := ne_of_state state suspended (by simp)
      have readied : Readied y.sched u s := addReady_spec (by simpa [taskResume, suspended] using resumed)
      refine returns_misses running ran rfl rfl rfl ?_ ?_
      · rw [Bool.eq_false_iff, Ne, ahead_iff current]; simp [suspended]
      · show (s.tcb u).state = _ ∧ (s.tcb self).priority < (s.tcb u).priority
        rw [readied.tcb]
        simp [other, higher]
    | @unlocks m st woken x s unlocks =>
      simp [System.outranks, running] at outranks
      obtain ⟨⟨⟨⟨⟨mine, last⟩, empty⟩, ready⟩, higher⟩, reached⟩ := outranks
      have other : t ≠ self := ne_of_state ready state (by simp)
      cases unlocks with
      | notOwner notMine => exact absurd mine notMine
      | held _ deep => rw [last] at deep; cases deep
      | frees =>
        refine returns_misses running ran rfl rfl rfl ?_ ?_
        · rw [Bool.eq_false_iff, Ne, ahead_iff current]
          exact fun before => Nat.not_lt.mpr reached before.2
        · show ((Mutex.restored y.sched self).tcb t).state = _ ∧
            ((Mutex.restored y.sched self).tcb self).priority <
              ((Mutex.restored y.sched self).tcb t).priority
          simp [Mutex.restored, setPriority, other, ready, higher]
      | hands _ _ shape => rw [empty] at shape; cases shape
    | _ => cases outranks
  | _ => cases outranks

end Linked

/-- What a run guarantees to task `t`: while it is ahead and nobody was told,
the current task is about to request a switch; an interrupt call that puts it
ahead sets `*needs_yield`; and the next call leaves it waiting exactly when it
is one of those that outrank their caller without a request. -/
structure NeverMissed (t : TaskId) (y : System) (missing : Bool) : Prop where
  requesting : missing = true → y.started = true → y.Requesting
  told : ∀ c z, y.step (.isr c) = some z → y.ahead t = false → z.ahead t = true →
    ∃ st, Logged y z (.isrReturned c st true)
  next : ∀ event z, event.dispatches = false → Calm y event → y.step event = some z →
    ((missed t y z missing = true → z.started = true → z.Requesting) ↔ y.outranks t event = false)

/-- No preemption is missed in a run in which the scheduler selects the tasks,
no lock raises the priority of a READY owner, and no call creates or resumes a
task above its caller or drops a boosted caller below a READY task. -/
theorem no_missed_preemption {cfg : Config} {t : TaskId} {y : System} {missing : Bool}
    (run : WatchedRun t cfg (Prompt t) (y, missing)) : NeverMissed t y missing := by
  have linked := linked_of_run run.unmonitored
  have indexed := indexed_of_run (run.unmonitored.weaken fun _ _ meets => meets.2.1)
  have flagged : missing = true → y.started = true → y.Requesting := by
    have strong := run.strengthen fun (w : System × Bool) before =>
      And.intro (linked_of_run before.unmonitored)
        (indexed_of_run (before.unmonitored.weaken fun _ _ meets => meets.2.1))
    refine strong.invariant
      (fun w : System × Bool => w.2 = true → w.1.started = true → w.1.Requesting) (by simp)
      ?_
    intro w event w' inv meets stepped up started
    obtain ⟨stepped, flag⟩ := monitored_eq_some.mp stepped
    exact meets.2.1.step_missed meets.2.2 meets.1 stepped inv (flag ▸ up) started
  refine ⟨flagged, fun _ _ => Linked.isr_tells, fun event z chosen calm stepped => ⟨?_, ?_⟩⟩
  · intro asks
    by_contra outranks
    obtain ⟨missing, started, quiet⟩ :=
      linked.outranks_misses missing (by simpa using outranks) stepped
    exact quiet (asks missing started)
  · intro kept
    exact linked.step_missed indexed ⟨chosen, calm, kept⟩ stepped flagged

/-- The low task's give wakes the high one. -/
def giveAbove : List Event :=
  [.create ⟨some 1, 1, 1, 64, 1⟩, .create ⟨some 2, 1, 1, 64, 2⟩, .start,
    .call (.blocking (.semaphoreTake 3 waitForever)), .proceed, .pendSV, .call (.semaphoreGive 3)]

set_option maxRecDepth 10000 in
theorem giveAbove_never_missed :
    ∃ y, exec (monitored System.step (System.missed 2)) (fun w event => Prompt 2 w.1 event)
        (boot {}, false) giveAbove = some (y, true) ∧ NeverMissed 2 y true := by
  obtain ⟨⟨y, flag⟩, ran, up⟩ := Option.map_eq_some_iff.mp
    (by decide +kernel : (exec (monitored System.step (System.missed 2)) (fun w event => Prompt 2 w.1 event)
      (boot {}, false) giveAbove).map Prod.snd = some true)
  obtain rfl : flag = true := up
  exact ⟨y, ran, no_missed_preemption (run_of_exec ran)⟩

/-- A running task creates one of higher priority. -/
def createAbove : List Event :=
  [.create ⟨some 1, 1, 1, 64, 1⟩, .start, .call (.taskCreate ⟨some 2, 1, 1, 64, 3⟩)]

/-- The call returns to its caller, and the new task waits for the next tick. -/
theorem createAbove_missed :
    ∃ y, WatchedRun 2 {} (fun _ event => event.dispatches = false) (y, true) ∧
      y.started = true ∧ ¬ y.Requesting := by
  obtain ⟨⟨y, flag⟩, run, passed⟩ := reaches_of_exec createAbove
    (fun w : System × Bool => w.2 && w.1.started && (w.1.sched.current = some 1 : Bool) &&
      (w.1.pc 1 = .thread : Bool))
    (by decide +kernel : (exec (monitored System.step (System.missed 2))
      (fun _ event => event.dispatches = false) (boot {}, false) createAbove).map _ = some true)
  simp only [Bool.and_eq_true, decide_eq_true_eq] at passed
  obtain ⟨⟨⟨rfl, started⟩, current⟩, here⟩ := passed
  refine ⟨y, run, started, ?_⟩
  rintro ⟨c, b, current', asking⟩
  obtain rfl : 1 = c := Option.some.inj (current.symm.trans current')
  rw [here] at asking
  cases asking

end NimbleRtos
