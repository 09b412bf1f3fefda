import NimbleRtos.ActiveTimers
import NimbleRtos.WaitEnds

/-! timer.c inside the kernel. A step of the system is a step of timer.c, told
from the call it runs, or leaves the timers and the tick count alone; so what
holds along the runs of timer.c holds along those of the kernel. The service's
own calls, and `timer_wake_sem`, which is private to timer.c, are told apart
from the rest. -/
namespace NimbleRtos
open NodeRings Sched SerialTime NimbleRtos.System

/-- The step of timer.c that the first critical section of a call is. -/
def Call.timerEvent : Call → Option TimerEvent
  | .timerInit x periodTicks isPeriodic callback arg => some (.init x periodTicks isPeriodic callback arg)
  | .timerStart x => some (.start x)
  | .timerStop x => some (.stop x)
  | .timerReset x newPeriodTicks => some (.reset x newPeriodTicks)
  | .timerExpire => some .expire
  | _ => none

theorem Call.timerEvent_eq_start {c : Call} {x : TimerId} :
    c.timerEvent = some (.start x) ↔ c = .timerStart x := by
  cases c <;> simp [timerEvent]

theorem Call.timerEvent_eq_expire {c : Call} : c.timerEvent = some .expire ↔ c = .timerExpire := by
  cases c <;> simp [timerEvent]

theorem Call.timerEvent_ne_tick (c : Call) : c.timerEvent ≠ some .tick := by
  cases c <;> simp [timerEvent]

namespace System

/-- The call whose first critical section the event runs. -/
def enters (y : System) : Event → Option Call
  | .call c => some c
  | .proceed => match y.running.map y.pc with
    | some (.calling c) => some c
    | _ => none
  | _ => none

def timerEvent (y : System) : Event → Option TimerEvent
  | .tick => some .tick
  | event => (y.enters event).bind Call.timerEvent

/-- The kernel as timer.c sees it. -/
def timing (y : System) (log : List TimerEntry) : TimerSystem := ⟨y.timers, y.sched.tickCount, log⟩

/-- Only timer.c names `timer_wake_sem`, and only `svc` runs `timer_task_fn`. -/
def Private (svc : TaskId) (y : System) : Event → Prop
  | .call c => c.object ≠ some (.semaphore timerWakeSem) ∧
    (c = .timerSleep ∨ c = .timerExpire → y.running = some svc)
  | .isr c => c.object ≠ .semaphore timerWakeSem
  | _ => True

instance (svc : TaskId) (y : System) : ∀ event, Decidable (y.Private svc event)
  | .call c => inferInstanceAs (Decidable (c.object ≠ some (.semaphore timerWakeSem) ∧
    (c = .timerSleep ∨ c = .timerExpire → y.running = some svc)))
  | .isr c => inferInstanceAs (Decidable (c.object ≠ .semaphore timerWakeSem))
  | .create _ | .start | .tick | .isrRequest | .pendSV | .dispatch _ | .proceed => .isTrue trivial

/-- A step that runs no call from its beginning, no tick and no interrupt. -/
structure Bystands (y z : System) : Prop where
  timers : z.timers = y.timers
  tick : z.sched.tickCount = y.sched.tickCount
  semaphores : z.semaphores = y.semaphores
  calling : ∀ t c, z.pc t = .calling c ↔ y.pc t = .calling c
  sleep : ∀ t b, (z.pc t).sleep = some b → (y.pc t).sleep = some b
  firing : ∀ t x callback arg, z.pc t = .firing x callback arg → y.pc t = .firing x callback arg

/-- A step as timer.c and its tasks see it. -/
inductive Advances (y : System) : Event → System → Prop where
  | bystands {event : Event} {z : System} (notTick : event ≠ .tick) (noCall : y.enters event = none)
      (bystands : Bystands y z) : Advances y event z
  | ticks {s : Sched} (ticked : y.sched.tick = some s) : Advances y .tick (y.ticked s)
  | interrupts {c : IsrCall} {st : Status} {needsYield : Bool} {woken : Option TaskId} {k : Kernel}
      (ran : y.toKernel.isrCall c = some (st, needsYield, woken, k)) :
      Advances y (.isr c) (y.interrupted c st needsYield woken k)
  | enters {event : Event} {self : TaskId} {c : Call} {r : CallResult} (running : y.running = some self)
      (runs : y.enters event = some c) (here : y.pc self = .thread ∨ y.pc self = .calling c)
      (ran : y.toKernel.call self c = some r) : Advances y event (y.entered self c r)

variable {y z : System} {event : Event}

private theorem bystands_of_pc {self : TaskId} {here : Pc} (sched : z.sched.tickCount = y.sched.tickCount)
    (timers : z.timers = y.timers) (semaphores : z.semaphores = y.semaphores)
    (pc : z.pc = Function.update y.pc self here) (before : ∀ c, y.pc self ≠ .calling c)
    (after : ∀ c, here ≠ .calling c) (sleep : ∀ b, here.sleep = some b → (y.pc self).sleep = some b)
    (firing : ∀ x callback arg, here ≠ .firing x callback arg) : Bystands y z := by
  refine ⟨timers, sched, semaphores, ?_, ?_, ?_⟩
  · intro t c
    rw [pc]
    by_cases same : t = self
    · subst same
      simp [before, after]
    · rw [Function.update_of_ne same]
  · intro t b
    rw [pc]
    by_cases same : t = self
    · subst same
      rw [Function.update_self]
      exact sleep b
    · rw [Function.update_of_ne same]
      exact id
  · intro t x callback arg
    rw [pc]
    by_cases same : t = self
    · subst same
      rw [Function.update_self]
      exact fun now => absurd now (firing x callback arg)
    · rw [Function.update_of_ne same]
      exact id

private theorem bystands_of_sched (tick : z.sched.tickCount = y.sched.tickCount)
    (timers : z.timers = y.timers) (semaphores : z.semaphores = y.semaphores) (pc : z.pc = y.pc) :
    Bystands y z :=
  ⟨timers, tick, semaphores, fun t c => by rw [pc], fun t b => by rw [pc]; exact id,
    fun t x callback arg => by rw [pc]; exact id⟩

theorem isr_timers {k k' : Kernel} {c : IsrCall} {st : Status} {needsYield : Bool}
    {woken : Option TaskId} (ran : k.isrCall c = some (st, needsYield, woken, k')) :
    k'.timers = k.timers ∧ k'.sched.tickCount = k.sched.tickCount := by
  refine ⟨?_, (isr_keeps_time ran).1⟩
  cases isrCall_spec ran <;> rfl

theorem resume_semaphores {k k' : Kernel} {self : TaskId} {b : BlockingCall} {st : Status} {out : Bytes}
    (ran : k.resume self b = some (st, out, k')) : k'.semaphores = k.semaphores ∧ k'.timers = k.timers ∧
      k'.sched.tickCount = k.sched.tickCount := by
  cases resume_spec ran <;> exact ⟨rfl, rfl, rfl⟩

theorem step_advances (stepped : y.step event = some z) : Advances y event z := by
  cases step_cases stepped with
  | ticks ticked => exact .ticks ticked
  | interrupts ran => exact .interrupts ran
  | calls running _ here _ ran => exact .enters running rfl (.inl here) ran
  | continues running here ran =>
    exact .enters running (by simp [System.enters, running, here]) (.inr here) ran
  | creates _ _ created =>
    refine .bystands (by simp) rfl (bystands_of_sched ?_ rfl rfl rfl)
    rcases taskCreate_spec created with ⟨_, rfl⟩ | ⟨_, _, _, made⟩
    · rfl
    · exact made.tick
  | isrRequests => exact .bystands (by simp) rfl (bystands_of_sched rfl rfl rfl rfl)
  | starts _ selected | selects _ selected =>
    refine .bystands (by simp) rfl (bystands_of_sched ?_ rfl rfl rfl)
    obtain ⟨_, _, requeued, _, _, selected⟩ := selectNext_spec selected
    exact ((Linked.requeued_rest requeued).trans selected.rest).tick
  | dispatches _ switched =>
    refine .bystands (by simp) rfl (bystands_of_sched ?_ rfl rfl rfl)
    obtain ⟨_, requeued, _, selected⟩ := dispatch_spec switched
    exact ((Linked.requeued_rest requeued).trans selected.rest).tick
  | @requests self b running here =>
    refine .bystands (by simp) (by simp [System.enters, running, here])
      (bystands_of_pc rfl rfl rfl rfl (by simp [here]) ?_ ?_ ?_)
    all_goals cases b <;> simp [here, Pc.sleep]
  | finishes running here ran =>
    obtain ⟨semaphores, timers, tick⟩ := resume_semaphores ran
    exact .bystands (by simp) (by simp [System.enters, running, here])
      (bystands_of_pc tick timers semaphores rfl (by simp [here]) (by simp) (by simp [Pc.sleep]) (by simp))
  | fires running here =>
    exact .bystands (by simp) (by simp [System.enters, running, here])
      (bystands_of_pc rfl rfl rfl rfl (by simp [here]) (by simp) (by simp [Pc.sleep]) (by simp))

end System

variable {k : Kernel} {self : TaskId} {c : Call} {r : CallResult}

/-- A call is a step of timer.c or leaves the timers alone. -/
theorem call_timers (ran : k.call self c = some r) (log : List TimerEntry) :
    match c.timerEvent with
    | none => r.kernel.timers = k.timers
    | some event => ∃ log', TimerSystem.step ⟨k.timers, k.sched.tickCount, log⟩ event =
        some ⟨r.kernel.timers, k.sched.tickCount, log'⟩ := by
  cases call_spec ran with
  | timerInits initialised => exact ⟨log, by simp [TimerSystem.step, initialised]⟩
  | timerStarts started => exact ⟨_, by simp [TimerSystem.step, started]; rfl⟩
  | timerStops | timerResets => exact ⟨log, rfl⟩
  | timerRests expired => exact ⟨log, by simp [TimerSystem.step, expired, Expiry.entries]⟩
  | timerFires expired => exact ⟨_, by simp [TimerSystem.step, expired]; rfl⟩
  | delaysNothing | delays | locks | takes | sends | receives | creates | yields | suspends | resumes
  | unlocks | gives | timerSleeps => rfl

namespace System
variable {y z : System} {event : Event}

/-- A step of the kernel is a step of timer.c or none. -/
theorem timing_step (stepped : y.step event = some z) (log : List TimerEntry) :
    match y.timerEvent event with
    | none => z.timing log = y.timing log
    | some e => ∃ log', (y.timing log).step e = some (z.timing log') := by
  cases step_advances stepped with
  | bystands notTick noCall bystands =>
    have none : y.timerEvent event = none := by
      unfold timerEvent
      split
      · exact absurd rfl notTick
      · rw [noCall]
        rfl
    rw [none]
    simp only [timing, bystands.timers, bystands.tick]
  | ticks ticked =>
    refine ⟨.ticked :: log, ?_⟩
    simp only [TimerSystem.step, timing, System.ticked, (tick_spec ticked).rest.tick]
  | interrupts ran =>
    have none : ∀ c, y.timerEvent (.isr c) = none := fun _ => rfl
    rw [none]
    obtain ⟨timers, tick⟩ := isr_timers ran
    simp only [timing, interrupted, timers, tick]
  | @enters _ self c r running runs here ran =>
    have same : y.timerEvent event = c.timerEvent := by
      unfold timerEvent
      split
      · cases runs
      · rw [runs]
        rfl
    rw [same]
    have timers := call_timers ran log
    have tick := (call_effect ran).tick
    split <;> rename_i event' <;> simp only [event'] at timers
    · simp only [timing, entered, timers, tick]
    · obtain ⟨log', step⟩ := timers
      exact ⟨log', by simpa only [timing, entered, tick] using step⟩

/-- The timers of a run are those of a run of timer.c. -/
theorem timing_of_run {cfg : Config} {guard : System → Event → Prop}
    {guard' : TimerSystem → TimerEvent → Prop} (run : KernelRun cfg guard y)
    (meets : ∀ y event e log, guard y event → y.timerEvent event = some e → guard' (y.timing log) e) :
    ∃ log, TimerRun cfg.tickCount guard' (y.timing log) := by
  induction run with
  | refl => exact ⟨[], .refl⟩
  | @next s t event _ allowed stepped ih =>
    obtain ⟨log, run⟩ := ih
    have step := timing_step stepped log
    cases named : s.timerEvent event with
    | none =>
      rw [named] at step
      exact ⟨log, by rw [step]; exact run⟩
    | some e =>
      rw [named] at step
      obtain ⟨log', step⟩ := step
      exact ⟨log', run.next (meets _ _ _ _ allowed named) step⟩

/-! ## Who stands inside timer.c -/

theorem outcome_blocks {k : Kernel} {self : TaskId} {c : Call} {r : CallResult}
    (ran : k.call self c = some r) (blocks : r.outcome = .blocks) : ∃ b, c = .blocking b := by
  have effect := call_effect ran
  generalize r.outcome = outcome, r.woken = woken, r.kernel.sched = s at effect blocks
  cases effect with
  | keeps awake => exact absurd blocks awake
  | sleeps call => exact ⟨_, call⟩
  | suspends => split at blocks <;> cases blocks
  | _ => cases blocks

theorem outcome_fires {k : Kernel} {self : TaskId} {c : Call} {r : CallResult} {x : TimerId}
    {callback arg : UInt32} (ran : k.call self c = some r) (fires : r.outcome = .fires x callback arg) :
    c = .timerExpire ∧ ∃ timers, k.timers.expire k.sched.tickCount = some (.fires x callback arg, timers) ∧
      r.kernel = { k with timers } := by
  cases call_spec ran with
  | locks | takes | sends | receives | unlocks | gives => exact absurd fires sleepOr_fires
  | suspends => dsimp only at fires; split at fires <;> cases fires
  | timerStarts => dsimp only at fires; split at fires <;> cases fires
  | timerFires expired => cases fires; exact ⟨rfl, _, expired, rfl⟩
  | _ => cases fires

/-- Where tasks can stand in the parts of timer.c that lie outside its critical
sections. -/
structure Attended (svc : TaskId) (y : System) : Prop where
  next : ∀ t c, y.pc t = .calling c → c = .semaphoreGive timerWakeSem ∨ (∃ x, c = .timerStart x) ∨
    t = svc ∧ ∃ w, c = .blocking (.semaphoreTake timerWakeSem w)
  asleep : ∀ t b, (y.pc t).sleep = some b → b.object = some (.semaphore timerWakeSem) → t = svc
  firing : ∀ t x callback arg, y.pc t = .firing x callback arg → t = svc

namespace Attended
variable {svc self : TaskId} {c : Call}

/-- The call that `self` enters, by its origin. -/
theorem entering (attended : y.Attended svc) (only : y.Private svc event)
    (running : y.running = some self) (runs : y.enters event = some c) :
    c.object ≠ some (.semaphore timerWakeSem) ∧ (c = .timerSleep ∨ c = .timerExpire → self = svc) ∨
      c = .semaphoreGive timerWakeSem ∨
      self = svc ∧ ∃ w, y.pc svc = .calling (.blocking (.semaphoreTake timerWakeSem w)) ∧
        c = .blocking (.semaphoreTake timerWakeSem w) := by
  cases event with
  | call c' =>
    cases runs
    refine .inl ⟨only.1, fun own => ?_⟩
    exact Option.some.inj (running.symm.trans (only.2 own))
  | proceed =>
    have here : y.pc self = .calling c := by
      simp only [enters, running, Option.map_some] at runs
      split at runs
      · cases runs
        rename_i here
        simpa using here
      · cases runs
    rcases attended.next self c here with give | ⟨x, rfl⟩ | ⟨rfl, w, rfl⟩
    · exact .inr (.inl give)
    · exact .inl ⟨by simp [Call.object], by simp⟩
    · exact .inr (.inr ⟨rfl, w, here, rfl⟩)
  | _ => cases runs

theorem step (attended : y.Attended svc) (only : y.Private svc event)
    (stepped : y.step event = some z) : z.Attended svc := by
  cases step_advances stepped with
  | bystands _ _ bystands =>
    refine ⟨?_, ?_, ?_⟩
    · intro t c calling
      exact attended.next t c ((bystands.calling t c).mp calling)
    · intro t b asleep
      exact attended.asleep t b (bystands.sleep t b asleep)
    · intro t x callback arg firing
      exact attended.firing t x callback arg (bystands.firing t x callback arg firing)
  | ticks => exact ⟨attended.next, attended.asleep, attended.firing⟩
  | interrupts => exact ⟨attended.next, attended.asleep, attended.firing⟩
  | @enters _ self c r running runs here ran =>
    have origin := attended.entering only running runs
    refine ⟨?_, ?_, ?_⟩
    · intro t c' calling
      simp only [entered, Function.update_apply] at calling
      split at calling
      · rename_i same
        subst same
        rcases outcome_calls ran (outcomePc_calls calling) with ⟨give, _⟩ | starts | ⟨rfl, sleeps⟩
        · exact .inl give
        · exact .inr (.inl starts)
        · rcases origin with ⟨_, own⟩ | other | ⟨_, _, _, other⟩
          · exact .inr (.inr ⟨own (.inl rfl), _, sleeps⟩)
          · cases other
          · cases other
      · exact attended.next t c' calling
    · intro t b asleep object
      simp only [entered, Function.update_apply] at asleep
      split at asleep
      · rename_i same
        subst same
        obtain ⟨rfl⟩ : c = .blocking b := by
          have blocks : r.outcome = .blocks := by
            by_contra awake
            rw [outcomePc_sleep awake] at asleep
            cases asleep
          obtain ⟨b', rfl⟩ := outcome_blocks ran blocks
          rw [blocks] at asleep
          simpa [outcomePc, Pc.sleep] using asleep
        rcases origin with ⟨other, _⟩ | other | ⟨svc, _⟩
        · exact absurd object other
        · cases other
        · exact svc
      · exact attended.asleep t b asleep object
    · intro t x callback arg firing
      simp only [entered, Function.update_apply] at firing
      split at firing
      · rename_i same
        subst same
        have fires : r.outcome = .fires x callback arg := by
          cases outcome : r.outcome with
          | fires => rw [outcome] at firing; simpa [outcomePc] using firing
          | blocks => rw [outcome] at firing; cases c <;> cases firing
          | _ => rw [outcome] at firing; cases firing
        obtain ⟨rfl, _⟩ := outcome_fires ran fires
        rcases origin with ⟨_, own⟩ | other | ⟨_, _, _, other⟩
        · exact own (.inr rfl)
        · cases other
        · cases other
      · exact attended.firing t x callback arg firing

end Attended

theorem attended_of_run {svc : TaskId} {cfg : Config} (run : KernelRun cfg (Private svc) y) : y.Attended svc := by
  refine run.invariant (Attended svc) ⟨?_, ?_, ?_⟩ fun _ _ _ attended only stepped =>
    attended.step only stepped
  · intro t c calling
    cases calling
  · intro t b asleep
    cases asleep
  · intro t x callback arg firing
    cases firing

end System

end NimbleRtos
