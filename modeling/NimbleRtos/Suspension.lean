import NimbleRtos.Objects

/-! What `nimble_task_suspend` guarantees. A SUSPENDED task is on no list, so
neither the tick nor a signal reaches it, and `nimble_scheduler_select_next`
neither requeues nor finds it: nothing but `nimble_task_resume` lets it be
selected again. A BLOCKED task is left as it is by the call. -/
namespace NimbleRtos
open NodeRings Sched NimbleRtos.System

/-- A call by another task that is not its resumption leaves a suspended task
suspended. -/
theorem Effect.suspended {k : Kernel} {s' : Sched} {pc : TaskId → Pc} {self t : TaskId} {c : Call}
    {o : Outcome} {woken : Option TaskId} (effect : Effect k self c o woken s')
    (placed : AllPlaced k.sched pc) (state : (k.sched.tcb t).state = .suspended) (other : t ≠ self)
    (fresh : ∀ a, c = .taskCreate a → a.tcb ≠ some t) (held : c ≠ .taskResume t) :
    (s'.tcb t).state = .suspended := by
  cases effect with
  | keeps _ changed => rw [changed.rest.state, state]
  | sleeps _ _ changed enlisted slept =>
    rw [slept.tcb, enlisted.tcb, Function.update_of_ne other, changed.rest.state, state]
  | @wakes _ u _ _ _ _ _ _ shape changed woken =>
    have waiting := (placed.waiting (Rings.ring_of_cons shape)).1
    have other : t ≠ u := ne_of_state state waiting (by simp)
    rw [woken.tcb, Function.update_of_ne other, changed.rest.state, state]
  | @creates a u _ call named created =>
    have other : t ≠ u := by
      rintro rfl
      exact fresh a call named
    rw [created.tcb, Function.update_of_ne other, state]
  | @suspends u _ _ suspended =>
    rw [suspended.tcb]
    by_cases same : t = u
    · simp [same]
    · simp [same, state]
  | @resumes u _ call _ readied =>
    have other : t ≠ u := by
      rintro rfl
      exact held call
    rw [readied.tcb, Function.update_of_ne other, state]

/-- A switch of tasks leaves a suspended task suspended. -/
theorem Linked.suspended_switch {y : System} {middle s : Sched} {t u : TaskId} (linked : Linked y)
    (requeued : y.sched.requeueCurrent = some middle) (ready : (middle.tcb u).state = .ready)
    (selected : Selected middle u s) (state : (y.sched.tcb t).state = .suspended) :
    (s.tcb t).state = .suspended := by
  have before : (middle.tcb t).state = .suspended := by
    rcases (linked.requeued_states requeued t).2 with same | ⟨running, _⟩
    · rw [same, state]
    · rw [state] at running
      cases running
  have other : t ≠ u := ne_of_state before ready (by simp)
  rw [selected.tcb, Function.update_of_ne other, before]

/-- Whoever a selection picks is not suspended. -/
theorem Linked.suspended_unpicked {y : System} {s : Sched} {t u : TaskId} (linked : Linked y)
    (selected : y.sched.selectNext = some (u, s)) (state : (y.sched.tcb t).state = .suspended) : u ≠ t := by
  obtain ⟨middle, rest, requeued, _, shape, selected⟩ := selectNext_spec selected
  have ready := (linked.placed.requeued requeued).next_ready shape
  have still := linked.suspended_switch requeued ready selected state
  have running : (s.tcb u).state = .running := by rw [selected.tcb, Function.update_self]
  exact ne_of_state running still (by simp)

namespace System
variable {y z w : System} {t : TaskId} {event : Event}

/-- The steps that do not resume `t`. -/
def Unresumed (t : TaskId) (_ : System) (event : Event) : Prop := event ≠ .call (.taskResume t)

instance (t : TaskId) (y : System) (event : Event) : Decidable (Unresumed t y event) :=
  inferInstanceAs (Decidable (event ≠ .call (.taskResume t)))

/-- Nothing but its resumption changes the state of a suspended task. -/
theorem suspended_step (linked : Linked y) (stepped : y.step event = some z)
    (held : Unresumed t y event) (state : (y.sched.tcb t).state = .suspended) :
    (z.sched.tcb t).state = .suspended := by
  have unfresh : ∀ {a : TaskArgs}, y.allows (.taskCreate a) = true → a.tcb ≠ some t := by
    intro a allowed named
    have deleted := fresh_of_allowed allowed named
    rw [state] at deleted
    cases deleted
  cases step_cases stepped with
  | creates _ allowed created =>
    rcases taskCreate_spec created with ⟨_, rfl⟩ | ⟨u, named, _, created⟩
    · exact state
    · have other : t ≠ u := by
        rintro rfl
        exact unfresh allowed named
      simp [created.tcb, other, state]
  | starts _ selected | selects _ selected =>
    obtain ⟨middle, rest, requeued, _, shape, selected⟩ := selectNext_spec selected
    have ready := (linked.placed.requeued requeued).next_ready shape
    have kept := linked.suspended_switch requeued ready selected state
    exact kept
  | dispatches _ switched =>
    obtain ⟨middle, requeued, ready, selected⟩ := dispatch_spec switched
    have kept := linked.suspended_switch requeued ready selected state
    exact kept
  | @ticks s ticked =>
    have early : t ∉ y.sched.expired := by
      intro late
      have blocked := (linked.placed.delayed (mem_expired.mp late).1).1
      exact ne_of_state state blocked (by simp) rfl
    simp only [System.ticked]
    rw [(tick_spec ticked).tcb, if_neg early]
    exact state
  | @interrupts _ _ _ _ k ran =>
    simp only [interrupted]
    rcases (isr_effect ran).2 with wakes | ⟨_, same⟩
    · generalize k.sched = s at wakes ⊢
      cases wakes with
      | nobody => exact state
      | @first u _ _ shape woken =>
        have waiting := (linked.placed.waiting (Rings.ring_of_cons shape)).1
        have other : t ≠ u := ne_of_state state waiting (by simp)
        rw [woken.tcb, Function.update_of_ne other, state]
    · rw [same, state]
  | isrRequests => exact state
  | @calls self c _ running _ here allowed ran =>
    have busy := linked.self_running running (by simp [here])
    refine (call_effect ran).suspended linked.placed state (ne_of_state state busy (by simp)) ?_ ?_
    · rintro a rfl
      exact unfresh allowed
    · rintro rfl
      exact held rfl
  | requests => exact state
  | finishes running here ran =>
    simp only [finished]
    rw [linked.resume_keeps running here ran]
    exact state
  | @continues self c _ running here ran =>
    have busy := linked.self_running running (by simp [here])
    have internal := linked.internal _ _ here
    refine (call_effect ran).suspended linked.placed state (ne_of_state state busy (by simp)) ?_ ?_
    · rintro a rfl
      exact internal.elim
    · rintro rfl
      exact internal.elim
  | fires => exact state

/-- A step either switches to a task it leaves RUNNING or keeps the current
task. -/
inductive Turn (y z : System) : Prop where
  | switches {u : TaskId} (log : z.log = .switched u :: y.log) (current : z.sched.current = some u)
      (running : (z.sched.tcb u).state = .running) : Turn y z
  | stays (entries : List Entry) (log : z.log = entries ++ y.log)
      (current : z.sched.current = y.sched.current) (unswitched : ∀ u, .switched u ∉ entries) : Turn y z

/-- An interrupt leaves the current task alone. -/
private theorem isr_current {k k' : Kernel} {c : IsrCall} {st : Status} {needsYield : Bool}
    {woken : Option TaskId} (ran : k.isrCall c = some (st, needsYield, woken, k')) :
    k'.sched.current = k.sched.current := by
  rcases (isr_effect ran).2 with wakes | ⟨_, same⟩
  · generalize k'.sched = s at wakes ⊢
    cases wakes with
    | nobody => rfl
    | first _ woken => exact woken.rest.current
  · rw [same]

private theorem resume_current {k k' : Kernel} {self : TaskId} {b : BlockingCall} {st : Status}
    {out : Bytes} (ran : k.resume self b = some (st, out, k')) : k'.sched.current = k.sched.current := by
  rcases resume_effect ran with same | same
  · rw [same]
  · rw [same]
    rfl

theorem step_turn (stepped : y.step event = some z) : y.Turn z := by
  have calls : ∀ {entries : List Entry}, (∀ e ∈ entries, e.ofCall = true) → ∀ u, Entry.switched u ∉ entries := by
    intro entries ofCall u member
    cases ofCall _ member
  cases step_cases stepped with
  | creates _ _ created =>
    refine .stays [] rfl ?_ (by simp)
    rcases taskCreate_spec created with ⟨_, rfl⟩ | ⟨_, _, _, created⟩
    · rfl
    · exact created.current
  | starts _ selected | selects _ selected =>
    obtain ⟨_, _, _, _, _, selected⟩ := selectNext_spec selected
    exact .switches rfl rfl (by simp [switchTo, selected.tcb])
  | dispatches _ switched =>
    obtain ⟨_, _, _, selected⟩ := dispatch_spec switched
    exact .switches rfl rfl (by simp [switchTo, selected.tcb])
  | ticks ticked =>
    refine .stays (.requested :: y.sched.expired.map (.woken · .tick) ++ [.ticked]) ?_ ?_ ?_
    · simp [System.ticked]
    · exact (tick_spec ticked).rest.current
    · simp
  | @interrupts c st needsYield woken k ran =>
    refine .stays (.isrReturned c st needsYield :: (wokenEntries woken (some c.signals) ++
      gaveEntries y.toKernel k woken (isrGivesTo c))) ?_ ?_ ?_
    · simp [interrupted]
    · exact isr_current ran
    · intro u member
      rcases List.mem_cons.mp member with wrong | member
      · cases wrong
      · exact calls ofCall_woken u member
  | isrRequests => exact .stays [_] rfl rfl (by simp)
  | calls _ _ _ _ ran | continues _ _ ran =>
    exact .stays _ rfl (call_effect ran).current (calls ofCall_entered)
  | requests => exact .stays [_] rfl rfl (by simp)
  | finishes _ _ ran => exact .stays [_] rfl (resume_current ran) (by simp)
  | @fires _ x callback arg =>
    refine .stays (if callback ≠ 0 then [.invoked x callback arg] else []) ?_ rfl ?_
    · dsimp only
      split <;> rfl
    · split <;> simp

/-- `t` is suspended in `w` and has not been selected since `z`; if it is still
current, it was so in `z` and no switch has come since. -/
structure Held (t : TaskId) (z w : System) : Prop where
  state : (w.sched.tcb t).state = .suspended
  passedOver : ∀ u s, w.sched.selectNext = some (u, s) → u ≠ t
  unselected : ∃ later, w.log = later ++ z.log ∧ .switched t ∉ later ∧
    (w.sched.current = some t → z.sched.current = some t ∧ ∀ u, .switched u ∉ later)

theorem held_refl (linked : Linked z) (state : (z.sched.tcb t).state = .suspended) : Held t z z :=
  ⟨state, fun _ _ selected => linked.suspended_unpicked selected state, [], rfl, by simp, fun now => ⟨now, by simp⟩⟩

theorem Held.step {v : System} (holds : Held t z w) (linked : Linked w) (stepped : w.step event = some v)
    (held : Unresumed t w event) : Held t z v := by
  have state := suspended_step linked stepped held holds.state
  refine ⟨state, fun _ _ selected => (linked.step stepped).suspended_unpicked selected state, ?_⟩
  obtain ⟨later, log, unselected, away⟩ := holds.unselected
  cases step_turn stepped with
  | @switches u grown current running =>
    have other : u ≠ t := ne_of_state running state (by simp)
    refine ⟨.switched u :: later, by rw [grown, log, List.cons_append], ?_, ?_⟩
    · simp [unselected, other.symm]
    · intro now
      exact absurd (Option.some.inj (current.symm.trans now)) other
  | stays entries grown current unswitched =>
    refine ⟨entries ++ later, by rw [grown, log, List.append_assoc], ?_, ?_⟩
    · simp [unselected, unswitched]
    · intro now
      obtain ⟨first, quiet⟩ := away (current.symm.trans now)
      exact ⟨first, by simp [quiet, unswitched]⟩

/-- A suspended task is held in every continuation that does not resume it. -/
theorem held_of_run (linked : Linked z) (state : (z.sched.tcb t).state = .suspended)
    (rest : GuardedRun.Run System.step (Unresumed t) z w) : Held t z w := by
  have both : Held t z w ∧ Linked w := by
    apply rest.invariant (fun w => Held t z w ∧ Linked w)
    · exact ⟨held_refl linked state, linked⟩
    · rintro w event v ⟨holds, linked⟩ held stepped
      exact ⟨holds.step linked stepped held, linked.step stepped⟩
  exact both.1

/-- The call leaves every created task suspended that is not blocked. -/
theorem suspended_of_call {k : Kernel} {self : TaskId} {r : CallResult}
    (ran : k.call self (.taskSuspend t) = some r) (created : (k.sched.tcb t).state ≠ .deleted)
    (awake : (k.sched.tcb t).state ≠ .blocked) : (r.kernel.sched.tcb t).state = .suspended := by
  cases call_spec ran with
  | suspends =>
    dsimp only
    cases state : (k.sched.tcb t).state with
    | ready => simp [taskSuspend, state, setState]
    | running => simp [taskSuspend, state, setState]
    | suspended => simp [taskSuspend, state]
    | blocked => exact absurd state awake
    | deleted => exact absurd state created

/-- For a blocked task it does nothing. -/
theorem blocked_of_call {k : Kernel} {self : TaskId} {r : CallResult}
    (ran : k.call self (.taskSuspend t) = some r) (blocked : (k.sched.tcb t).state = .blocked) :
    r.kernel = k := by
  cases call_spec ran with
  | suspends => simp [taskSuspend, blocked]

/-- A created task that is not BLOCKED when `nimble_task_suspend` is called is
not selected in any continuation until it is resumed; a BLOCKED one is left
alone. -/
theorem suspension_holds {cfg : Config} (run : KernelRun cfg GuardedRun.Free y)
    (stepped : y.step (.call (.taskSuspend t)) = some z) :
    (t ∈ y.sched.tasks → (y.sched.tcb t).state ≠ .blocked →
        ∀ w, GuardedRun.Run System.step (Unresumed t) z w → Held t z w) ∧
      ((y.sched.tcb t).state = .blocked → z.toKernel = y.toKernel) := by
  have linked := linked_of_run run
  cases step_cases stepped with
  | calls _ _ _ _ ran =>
    constructor
    · intro created awake w rest
      have suspended := suspended_of_call ran ((linked.created t).mp created) awake
      exact held_of_run (linked.step stepped) suspended rest
    · intro blocked
      exact blocked_of_call ran blocked

set_option maxRecDepth 20000 in
/-- The highest task suspends itself; a tick, a give and the switches that
follow pass it over. -/
theorem suspension_holds_itself : ∃ y z w, KernelRun {} GuardedRun.Free y ∧
    y.step (.call (.taskSuspend 1)) = some z ∧ Held 1 z w ∧ z.sched.current = some 1 ∧
      w.sched.current = some 2 := by
  obtain ⟨y, run, rest⟩ : ∃ y, KernelRun {} GuardedRun.Free y ∧ decide (1 ∈ y.sched.tasks ∧
      (y.sched.tcb 1).state ≠ .blocked ∧ (y.step (.call (.taskSuspend 1))).any fun z =>
        z.sched.current = some 1 ∧ (GuardedRun.exec System.step (Unresumed 1) z
          [.proceed, .pendSV, .tick, .isr (.semaphoreGiveFromIsr 0), .pendSV]).any fun w =>
            w.sched.current = some 2) = true :=
    GuardedRun.reaches_of_exec
      [.create ⟨some 1, 1, 1, 64, 3⟩, .create ⟨some 2, 1, 1, 64, 2⟩, .start] _ (by decide +kernel)
  obtain ⟨created, awake, rest⟩ := of_decide_eq_true rest
  obtain ⟨z, stepped, rest⟩ := (Option.any_eq_true _ _).mp rest
  obtain ⟨before, rest⟩ := of_decide_eq_true rest
  obtain ⟨w, ran, after⟩ := (Option.any_eq_true _ _).mp rest
  have holds := (suspension_holds run stepped).1 created awake w (GuardedRun.run_of_exec ran)
  exact ⟨y, z, w, run, stepped, holds, before, of_decide_eq_true after⟩

set_option maxRecDepth 20000 in
/-- A task that sleeps in a delay when it is suspended: the call returns, the
tick ends the delay, and the task is selected. -/
theorem delayed_task_selected : ∃ y z w, KernelRun {} GuardedRun.Free y ∧ 1 ∈ y.sched.tasks ∧
    (y.sched.tcb 1).state = .blocked ∧ y.step (.call (.taskSuspend 1)) = some z ∧
      z.log.head? = some (.returned 2 (.taskSuspend 1) .ok []) ∧
      GuardedRun.Run System.step (Unresumed 1) z w ∧ w.log.head? = some (.switched 1) ∧
      w.running = some 1 := by
  obtain ⟨y, run, rest⟩ : ∃ y, KernelRun {} GuardedRun.Free y ∧ decide (1 ∈ y.sched.tasks ∧
      (y.sched.tcb 1).state = .blocked ∧ (y.step (.call (.taskSuspend 1))).any fun z =>
        z.log.head? = some (.returned 2 (.taskSuspend 1) .ok []) ∧
        (GuardedRun.exec System.step (Unresumed 1) z [.tick, .pendSV]).any fun w =>
          w.log.head? = some (.switched 1) ∧ w.running = some 1) = true :=
    GuardedRun.reaches_of_exec
      [.create ⟨some 1, 1, 1, 64, 3⟩, .create ⟨some 2, 1, 1, 64, 2⟩, .start,
        .call (.blocking (.taskDelay 1)), .proceed, .pendSV] _ (by decide +kernel)
  obtain ⟨created, blocked, rest⟩ := of_decide_eq_true rest
  obtain ⟨z, stepped, rest⟩ := (Option.any_eq_true _ _).mp rest
  obtain ⟨returned, rest⟩ := of_decide_eq_true rest
  obtain ⟨w, ran, selected⟩ := (Option.any_eq_true _ _).mp rest
  obtain ⟨switched, running⟩ := of_decide_eq_true selected
  exact ⟨y, z, w, run, created, blocked, stepped, returned, GuardedRun.run_of_exec ran, switched, running⟩

end System
end NimbleRtos
