import NimbleRtos.TimerCalls

/-! What stopping a timer stops. Once a timer is off the list the service does
not take it up again, but the service calls back outside its critical section,
so one invocation it has already set out on may still come. -/
namespace NimbleRtos
open NodeRings SerialTime NimbleRtos.System

def Entry.invokes (x : TimerId) : Entry → Bool
  | .invoked x' _ _ => x' = x
  | _ => false

namespace TimerSystem
variable {y z : TimerSystem} {x : TimerId} {event : TimerEvent}

/-- A timer that is not active stays so until it is started. -/
theorem Enrolled.inactive (enrolled : y.Enrolled) (inactive : (y.timers.timer x).isActive = false)
    (stepped : y.step event = some z) (other : event ≠ .start x) :
    (z.timers.timer x).isActive = false := by
  have absent : x ∉ y.timers.active.items () := by
    rw [enrolled, inactive]
    simp
  cases step_cases stepped with
  | @inits x' => by_cases same : x = x' <;> simp [Timers.setTimer, same, ← inactive]
  | @starts x' _ _ started =>
    have other : x ≠ x' := by simpa [eq_comm] using other
    simpa [started.timer, other] using inactive
  | @stops x' =>
    simp only [Timers.timerStop]
    split
    · by_cases same : x = x' <;> simp [Timers.setTimer, same, ← inactive]
    · exact inactive
  | @resets x' =>
    by_cases same : x = x'
    · subst same
      simpa [Timers.timerReset, Timers.setTimer] using inactive
    · simpa [Timers.timerReset, Timers.setTimer, same] using inactive
  | ticks => exact inactive
  | @expires expiry timers expired =>
    cases expired with
    | rests => exact inactive
    | @reloads head _ _ _ shape _ _ _ timer | @ends head _ _ shape _ _ timer =>
      have other : x ≠ head := by
        rintro rfl
        exact absent (by simp [shape])
      simpa [timer, other] using inactive

/-- `nimble_timer_stop` leaves the timer inactive. -/
theorem inactive_of_stop (stopped : y.step (.stop x) = some z) :
    (z.timers.timer x).isActive = false := by
  cases step_cases stopped with
  | stops =>
    simp only [Timers.timerStop]
    split
    · simp [Timers.setTimer]
    · rename_i inactive
      simpa using inactive

end TimerSystem

namespace System
variable {svc : TaskId} {x : TimerId} {y z : System} {event : Event}

/-- Whether the service has set out to call `x` back. -/
def inHand (y : System) (svc : TaskId) (x : TimerId) : Nat :=
  match y.pc svc with
  | .firing x' _ _ => if x' = x then 1 else 0
  | _ => 0

theorem invokes_of_call {e : Entry} (ofCall : e.ofCall = true) : ¬e.invokes x = true := by
  cases e <;> first | exact Bool.false_ne_true | cases ofCall

private theorem inHand_same (pc : z.pc svc = y.pc svc) : z.inHand svc x = y.inHand svc x := by
  unfold inHand
  rw [pc]

/-- A call by the service takes up a listed timer at most. -/
private theorem inHand_entered {self : TaskId} {c : Call} {r : CallResult}
    (unlisted : x ∉ y.timers.active.items ()) (ran : y.toKernel.call self c = some r) :
    (y.entered self c r).inHand svc x ≤ y.inHand svc x := by
  by_cases service : svc = self
  · subst service
    have nothing : (y.entered svc c r).inHand svc x = 0 := by
      simp only [inHand, entered, Function.update_self]
      cases outcome : r.outcome with
      | fires x' callback arg =>
        obtain ⟨_, _, expired, _⟩ := outcome_fires ran outcome
        have other : x' ≠ x := by
          rintro rfl
          cases Timers.expire_spec expired with
          | reloads shape | ends shape => exact unlisted (by simp [shape])
        simp [outcomePc, other]
      | blocks => cases c <;> rfl
      | _ => rfl
    rw [nothing]
    exact Nat.zero_le _
  · exact Nat.le_of_eq (inHand_same (Function.update_of_ne service _ _))

/-- A step uses up at most what the service had in hand, unless it takes up `x`
anew. -/
theorem inHand_step (attended : y.Attended svc) (unlisted : x ∉ y.timers.active.items ())
    (stepped : y.step event = some z) : ∃ entries, z.log = entries ++ y.log ∧
      entries.countP (Entry.invokes x) + z.inHand svc x ≤ y.inHand svc x := by
  have calls : ∀ {entries : List Entry}, (∀ e ∈ entries, e.ofCall = true) →
      entries.countP (Entry.invokes x) = 0 := by
    intro entries ofCall
    exact List.countP_eq_zero.mpr fun e member => invokes_of_call (ofCall e member)
  cases step_cases stepped with
  | creates => exact ⟨[], rfl, by simp [inHand]⟩
  | starts | selects | dispatches => exact ⟨[_], rfl, by simp [Entry.invokes, inHand, switchTo]⟩
  | isrRequests => exact ⟨[_], rfl, by simp [Entry.invokes, inHand]⟩
  | @ticks s =>
    refine ⟨.requested :: y.sched.expired.map (Entry.woken · .tick) ++ [.ticked], by simp [System.ticked], ?_⟩
    have silent : (y.sched.expired.map (Entry.woken · .tick)).countP (Entry.invokes x) = 0 := by
      simp [Entry.invokes]
    simp [silent, Entry.invokes, inHand, System.ticked]
  | interrupts =>
    refine ⟨_, rfl, ?_⟩
    rw [List.cons_append, List.countP_cons, calls ofCall_woken]
    simp [Entry.invokes, inHand, interrupted]
  | calls _ _ _ _ ran | continues _ _ ran =>
    refine ⟨_, rfl, ?_⟩
    rw [calls ofCall_entered, Nat.zero_add]
    exact inHand_entered unlisted ran
  | @requests self b running here =>
    refine ⟨[_], rfl, ?_⟩
    by_cases service : svc = self
    · subst service
      cases b <;> simp [Entry.invokes, inHand]
    · simp [Entry.invokes, inHand, service]
  | @finishes self b st out k running here ran =>
    refine ⟨[_], rfl, ?_⟩
    by_cases service : svc = self
    · subst service
      simp [Entry.invokes, inHand, finished]
    · simp [Entry.invokes, inHand, finished, service]
  | @fires self x' callback arg running here =>
    obtain rfl := attended.firing self x' callback arg here
    by_cases called : callback ≠ 0
    · refine ⟨[.invoked x' callback arg], by simp [called], ?_⟩
      simp [Entry.invokes, inHand, here, List.countP_cons]
    · exact ⟨[], by simp [called], by simp [inHand]⟩

/-- `x` has been stopped since `y`, and what the service had in hand of it then
bounds the invocations. -/
structure Stopped (svc : TaskId) (x : TimerId) (y z : System) : Prop where
  attended : z.Attended svc
  enrolled : (z.timing []).Enrolled
  inactive : (z.timers.timer x).isActive = false
  bounded : ∃ later, z.log = later ++ y.log ∧
    later.countP (Entry.invokes x) + z.inHand svc x ≤ y.inHand svc x

/-- The steps of the service and of tasks that do not start `x`. -/
def WithoutStart (svc : TaskId) (x : TimerId) (y : System) (event : Event) : Prop :=
  y.Private svc event ∧ y.enters event ≠ some (.timerStart x)

instance (svc : TaskId) (x : TimerId) (y : System) (event : Event) :
    Decidable (y.WithoutStart svc x event) :=
  inferInstanceAs (Decidable (y.Private svc event ∧ y.enters event ≠ some (.timerStart x)))

theorem enters_of_timerEvent {e : TimerEvent} (named : y.timerEvent event = some e) :
    e = .tick ∨ ∃ c, y.enters event = some c ∧ c.timerEvent = some e := by
  unfold timerEvent at named
  split at named
  · cases named
    exact .inl rfl
  · exact .inr (Option.bind_eq_some_iff.mp named)

theorem Stopped.step {w : System} (stopped : Stopped svc x y w) (meets : w.WithoutStart svc x event)
    (stepped : w.step event = some z) : Stopped svc x y z := by
  obtain ⟨attended, enrolled, inactive, later, log, bounded⟩ := stopped
  have unlisted : x ∉ w.timers.active.items () := by
    intro listed
    have active : (w.timers.timer x).isActive = true := (enrolled x).mp listed
    rw [inactive] at active
    cases active
  obtain ⟨entries, grown, used⟩ := inHand_step attended unlisted stepped
  have timers := timing_step stepped []
  have still : (z.timing []).Enrolled ∧ (z.timers.timer x).isActive = false := by
    cases named : w.timerEvent event with
    | none =>
      rw [named] at timers
      have same : z.timers = w.timers := congrArg TimerSystem.timers timers
      rw [timers, same]
      exact ⟨enrolled, inactive⟩
    | some e =>
      rw [named] at timers
      obtain ⟨log', moved⟩ := timers
      have other : e ≠ .start x := by
        rintro rfl
        rcases enters_of_timerEvent named with tick | ⟨c, runs, starts⟩
        · cases tick
        · exact meets.2 (Call.timerEvent_eq_start.mp starts ▸ runs)
      have kept : (z.timing log').Enrolled := TimerSystem.Enrolled.step enrolled moved
      exact ⟨kept, TimerSystem.Enrolled.inactive enrolled inactive moved other⟩
  refine ⟨attended.step meets.1 stepped, still.1, still.2, entries ++ later, ?_, ?_⟩
  · rw [grown, log, List.append_assoc]
  · rw [List.countP_append]
    omega

private theorem named_of_stop (stops : y.enters event = some (.timerStop x)) :
    y.timerEvent event = some (.stop x) := by
  unfold timerEvent
  split
  · cases stops
  · rw [stops]
    rfl

theorem enrolled_of_run {cfg : Config} (run : KernelRun cfg (Private svc) y) : (y.timing []).Enrolled := by
  have timers : ∃ log, TimerRun cfg.tickCount GuardedRun.Free (y.timing log) :=
    timing_of_run run fun _ _ _ _ _ _ => trivial
  obtain ⟨log, run⟩ := timers
  have enrolled : (y.timing log).Enrolled := by
    refine run.invariant TimerSystem.Enrolled ?_ fun _ _ _ enrolled _ stepped => enrolled.step stepped
    exact (TimerSystem.ordered_boot _).active
  exact enrolled

/-- After a stop, and until the timer is started again, the service begins no
invocation of its callback but one it had already set out on. -/
theorem stop_stops {cfg : Config} {y₁ : System} {later : List Entry}
    (run : KernelRun cfg (Private svc) y) (only : y.Private svc event)
    (stops : y.enters event = some (.timerStop x)) (stepped : y.step event = some y₁)
    (rest : GuardedRun.Run System.step (WithoutStart svc x) y₁ z) (log : z.log = later ++ y₁.log) :
    later.countP (Entry.invokes x) ≤ y₁.inHand svc x := by
  have stopped : Stopped svc x y₁ y₁ := by
    have timers := timing_step stepped []
    rw [named_of_stop stops] at timers
    obtain ⟨log', moved⟩ := timers
    have kept : (y₁.timing log').Enrolled := (enrolled_of_run run).step moved
    exact ⟨(attended_of_run run).step only stepped, kept, TimerSystem.inactive_of_stop moved, [], rfl, by simp⟩
  have stopped : Stopped svc x y₁ z :=
    rest.invariant (Stopped svc x y₁) stopped fun _ _ _ stopped meets stepped => stopped.step meets stepped
  obtain ⟨later', log', bounded⟩ := stopped.bounded
  obtain rfl : later' = later := List.append_cancel_right (log'.symm.trans log)
  omega

set_option maxRecDepth 20000 in
/-- A timer stopped after the service has taken it up: the callback comes once,
and then no more. -/
theorem stop_stops_in_hand : ∃ y₁ z later, GuardedRun.Run System.step (WithoutStart 1 0) y₁ z ∧
    z.log = later ++ y₁.log ∧ later.countP (Entry.invokes 0) ≤ y₁.inHand 1 0 ∧ y₁.inHand 1 0 = 1 := by
  obtain ⟨y, run, rest⟩ : ∃ y, KernelRun {} (Private 1) y ∧ decide (y.Private 1 (.call (.timerStop 0)) ∧
      y.enters (.call (.timerStop 0)) = some (.timerStop 0) ∧
      (y.step (.call (.timerStop 0))).any fun y₁ => y₁.inHand 1 0 = 1 ∧
        (GuardedRun.exec System.step (WithoutStart 1 0) y₁ [.call (.blocking (.taskDelay 5)), .proceed,
          .pendSV, .proceed]).any fun z => z.log.drop 4 = y₁.log) = true :=
    GuardedRun.reaches_of_exec
      [.create ⟨some 1, 1, 1, 64, 2⟩, .create ⟨some 2, 1, 1, 64, 3⟩, .start,
        .call (.timerInit 0 1 false 7 0), .call (.timerStart 0), .proceed,
        .call (.blocking (.taskDelay 2)), .proceed, .pendSV,
        .call .timerSleep, .proceed, .tick, .pendSV, .call .timerExpire, .tick, .pendSV, .proceed] _
      (by decide +kernel)
  obtain ⟨only, stops, rest⟩ := of_decide_eq_true rest
  obtain ⟨y₁, stepped, rest⟩ := (Option.any_eq_true _ _).mp rest
  obtain ⟨taken, rest⟩ := of_decide_eq_true rest
  obtain ⟨z, ran, grown⟩ := (Option.any_eq_true _ _).mp rest
  have log : z.log = z.log.take 4 ++ y₁.log := by
    rw [← of_decide_eq_true grown, List.take_append_drop]
  have rest := GuardedRun.run_of_exec ran
  exact ⟨y₁, z, _, rest, log, stop_stops run only stops stepped rest log, taken⟩

set_option maxRecDepth 20000 in
/-- The service is preempted between the critical section that took the timer
up and the callback; the timer is stopped, and the callback begins. -/
theorem callback_after_stop : ∃ y y₁ z later, KernelRun {} (Private 1) y ∧
    y.step (.call (.timerStop 0)) = some y₁ ∧ y₁.log.head? = some (.returned 2 (.timerStop 0) .ok []) ∧
    GuardedRun.Run System.step (WithoutStart 1 0) y₁ z ∧ z.log = .invoked 0 7 0 :: later ++ y₁.log := by
  obtain ⟨y, run, rest⟩ : ∃ y, KernelRun {} (Private 1) y ∧ decide (
      (y.step (.call (.timerStop 0))).any fun y₁ =>
        y₁.log.head? = some (.returned 2 (.timerStop 0) .ok []) ∧
        (GuardedRun.exec System.step (WithoutStart 1 0) y₁ [.call (.blocking (.taskDelay 5)), .proceed,
          .pendSV, .proceed]).any fun z => z.log = .invoked 0 7 0 ::
            [.switched 1, .requested, .blocked 2 (.taskDelay 5)] ++ y₁.log) = true :=
    GuardedRun.reaches_of_exec
      [.create ⟨some 1, 1, 1, 64, 2⟩, .create ⟨some 2, 1, 1, 64, 3⟩, .start,
        .call (.timerInit 0 1 false 7 0), .call (.timerStart 0), .proceed,
        .call (.blocking (.taskDelay 2)), .proceed, .pendSV,
        .call .timerSleep, .proceed, .tick, .pendSV, .call .timerExpire, .tick, .pendSV, .proceed] _
      (by decide +kernel)
  obtain ⟨y₁, stepped, rest⟩ := (Option.any_eq_true _ _).mp (of_decide_eq_true rest)
  obtain ⟨returned, rest⟩ := of_decide_eq_true rest
  obtain ⟨z, ran, log⟩ := (Option.any_eq_true _ _).mp rest
  exact ⟨y, y₁, z, _, run, stepped, returned, GuardedRun.run_of_exec ran, of_decide_eq_true log⟩

end System
end NimbleRtos
