import NimbleRtos.TimerCalls
import NimbleRtos.SemaphoreUnits

/-! How long the timer service sleeps. It computes its sleep in one critical
section and begins it in another; `timer_wake_sem` covers the timers that are
put in front meanwhile, and nothing covers the ticks. -/
namespace NimbleRtos
open NodeRings Sched SerialTime NimbleRtos.System

namespace TimerSystem
variable {y z : TimerSystem} {x : TimerId} {event : TimerEvent} {wait : Option Int}

/-- No active timer expires within the wait, `none` for one without end. -/
def Clear (y : TimerSystem) : Option Int → Prop
  | none => y.timers.active.items () = []
  | some wait => 0 < wait ∧ ∀ x ∈ y.timers.active.items (), wait ≤ y.distance x

theorem Clear.of_fewer (clear : y.Clear wait) (fewer : ∀ x ∈ z.timers.active.items (),
    x ∈ y.timers.active.items () ∧ z.distance x = y.distance x) : z.Clear wait := by
  cases wait with
  | none =>
    refine List.eq_nil_iff_forall_not_mem.mpr ?_
    intro x listed
    have before := (fewer x listed).1
    rw [show y.timers.active.items () = [] from clear] at before
    cases before
  | some wait =>
    refine ⟨clear.1, ?_⟩
    intro x listed
    obtain ⟨before, same⟩ := fewer x listed
    rw [same]
    exact clear.2 x before

private theorem distance_apart (y : TimerSystem) (a b : TimerId)
    (low : -2 ^ 31 ≤ y.distance a - y.distance b) (high : y.distance a - y.distance b < 2 ^ 31) :
    ahead (y.timers.timer a).expiryTick (y.timers.timer b).expiryTick = y.distance a - y.distance b :=
  ahead_sub low high

/-- A timer that is not put in front of the others does not expire before them. -/
private theorem Clear.start {becameNewHead : Bool} {timers : Timers} (clear : y.Clear wait)
    (started : y.timers.Started y.now x becameNewHead timers)
    (short : (y.timers.timer x).periodTicks.toNat < 2 ^ 31)
    (behind : (timers.active.items ()).head? ≠ some x) (log : List TimerEntry) :
    Clear ⟨timers, y.now, log⟩ wait := by
  have others : ∀ a ∈ (y.timers.active.items ()).erase x, a ≠ x ∧ a ∈ y.timers.active.items () ∧
      distance ⟨timers, y.now, log⟩ a = y.distance a := by
    intro a member
    obtain ⟨other, listed⟩ := other_of_erase member
    exact ⟨other, listed, distance_update other started.timer rfl⟩
  have queued := started.queued
  cases walk : (y.timers.active.items ()).erase x with
  | nil => simp [Timers.Queued, walk, place] at queued; simp [queued] at behind
  | cons first rest =>
    obtain ⟨other, listed, same⟩ := others first (by simp [walk])
    cases wait with
    | none =>
      rw [show y.timers.active.items () = [] from clear] at listed
      cases listed
    | some wait =>
      refine ⟨clear.1, ?_⟩
      intro a member
      rw [show timers.active.items () = _ from queued, mem_place] at member
      rcases member with rfl | member
      · -- the walk passed the head, so the new timer is no nearer
        have passed : timers.later a first = false := by
          by_contra stopped
          apply behind
          have stopped : timers.later a first = true := by simpa using stopped
          rw [show timers.active.items () = _ from queued, walk]
          simp [place, stopped]
        have near := clear.2 first listed
        have positive := clear.1
        obtain ⟨_, high⟩ := y.distance_range first
        have fresh := ahead_add y.now y.now (y.timers.timer a).periodTicks (by rw [ahead_self]; omega)
        rw [ahead_self, Int.zero_add] at fresh
        have here : distance ⟨timers, y.now, log⟩ a = (y.timers.timer a).periodTicks.toNat := by
          simp only [distance, started.timer, Function.update_self, fresh]
        have apart := distance_apart ⟨timers, y.now, log⟩ a first (by omega) (by omega)
        simp only [Timers.later, apart, decide_eq_false_iff_not] at passed
        omega
      · obtain ⟨_, listed, same⟩ := others a member
        rw [same]
        exact clear.2 a listed

/-- A step by another task than the service leaves the wait clear, or puts a
timer in front. -/
theorem Clear.step (clear : y.Clear wait) (stepped : y.step event = some z)
    (short : ∀ x, event = .start x → (y.timers.timer x).periodTicks.toNat < 2 ^ 31)
    (notTick : event ≠ .tick) (notExpire : event ≠ .expire) :
    z.Clear wait ∨ ∃ x, event = .start x ∧ (z.timers.active.items ()).head? = some x := by
  cases step_cases stepped with
  | @inits x _ _ _ _ free =>
    left
    apply clear.of_fewer
    intro a listed
    have other : a ≠ x := by
      rintro rfl
      exact Rings.not_mem_of_free free listed
    exact ⟨listed, distance_update other rfl rfl⟩
  | @starts x _ timers started =>
    by_cases front : (timers.active.items ()).head? = some x
    · exact .inr ⟨x, rfl, front⟩
    · exact .inl (clear.start started (short x rfl) front _)
  | @stops x =>
    left
    apply clear.of_fewer
    intro a listed
    simp only [Timers.timerStop] at listed ⊢
    split at listed
    · rename_i active
      obtain ⟨other, listed⟩ := other_of_erase listed
      refine ⟨listed, ?_⟩
      simp only [distance, if_pos active, Timers.setTimer, Function.update_of_ne other]
    · rename_i inactive
      exact ⟨listed, by simp only [distance, if_neg inactive]⟩
  | @resets x =>
    left
    apply clear.of_fewer
    intro a listed
    refine ⟨listed, ?_⟩
    by_cases same : a = x <;> simp [distance, Timers.timerReset, Timers.setTimer, same]
  | ticks => exact absurd rfl notTick
  | expires => exact absurd rfl notExpire

/-- A tick leaves a wait clear that ends before all timers. -/
theorem Clear.tick {wait : Int} (stepped : y.step .tick = some z) (positive : 0 < wait)
    (ahead : ∀ x ∈ y.timers.active.items (), wait < y.distance x) : z.Clear (some wait) := by
  cases step_cases stepped with
  | ticks =>
    refine ⟨positive, ?_⟩
    intro x listed
    have nearer := ahead_succ (y.timers.timer x).expiryTick y.now
    have early := ahead x listed
    unfold distance at early ⊢
    rw [nearer (by omega)]
    omega

/-- The timer at the head of the list is the first to expire. -/
def Soonest (y : TimerSystem) : Prop :=
  ∀ head ∈ (y.timers.active.items ()).head?, ∀ x ∈ y.timers.active.items (), y.distance head ≤ y.distance x

instance (y : TimerSystem) : Decidable y.Soonest :=
  inferInstanceAs (Decidable (∀ head ∈ (y.timers.active.items ()).head?,
    ∀ x ∈ y.timers.active.items (), y.distance head ≤ y.distance x))

/-- The wait a timeout stands for. -/
def limit (timeoutTicks : Tick) : Option Int :=
  if timeoutTicks = waitForever then none else some timeoutTicks.toNat

/-- What the service computes, with the soonest timer at the head: no wait, or
one that is clear. -/
theorem clear_of_wait (soonest : y.Soonest) {w : Tick} (computed : y.timers.waitTicks y.now = w) :
    (w ≠ waitForever → w.toNat < 2 ^ 31) ∧ (w = noWait ∨ y.Clear (limit w)) := by
  unfold Timers.waitTicks at computed
  split at computed
  · rename_i empty
    subst computed
    exact ⟨fun finite => absurd rfl finite, .inr empty⟩
  · rename_i head rest shape
    simp only [pos_iff_ahead] at computed
    split at computed
    · rename_i early
      have length : (w.toNat : Int) = y.distance head := by
        rw [← computed, toNat_sub_of_ahead (by omega)]
        rfl
      obtain ⟨_, high⟩ := y.distance_range head
      have finite : w ≠ waitForever := by
        rintro rfl
        have wide : (waitForever : Tick).toNat = 2 ^ 32 - 1 := rfl
        omega
      refine ⟨fun _ => by omega, .inr ?_⟩
      rw [limit, if_neg finite, length]
      exact ⟨early, soonest head (by simp [shape])⟩
    · subst computed
      exact ⟨fun _ => by decide, .inl rfl⟩

end TimerSystem

/-- A task found waiting was in the same wait before, or has called just now. -/
theorem Linked.waiting_before {y z : System} {event : Event} {t : TaskId} {b : BlockingCall}
    (linked : Linked y) (stepped : y.step event = some z) (waiting : z.waitStatus t = .waiting b) :
    y.waitStatus t = .awake ∧ y.running = some t ∨
      y.waitStatus t = .waiting b ∧ (z.sched.tcb t).wakeTick = (y.sched.tcb t).wakeTick := by
  cases linked.step_moves stepped with
  | quiet quiet =>
    rw [quiet.status] at waiting
    exact .inr ⟨waiting, quiet.wakeTick t b waiting⟩
  | @ticks s ticked =>
    rw [linked.status_ticked ticked] at waiting
    split at waiting
    · exact absurd waiting WaitStatus.ended_ne_waiting
    · rename_i early
      refine .inr ⟨waiting, ?_⟩
      show (s.tcb t).wakeTick = _
      rw [(tick_spec ticked).tcb, if_neg early]
  | interrupts ran =>
    rw [linked.status_interrupted ran] at waiting
    split at waiting
    · exact absurd waiting WaitStatus.ended_ne_waiting
    · rename_i other
      exact .inr ⟨waiting, (isr_keeps_time ran).2 t⟩
  | @enters self c r _ running busy awake allowed ran =>
    rw [linked.status_entered running busy allowed ran] at waiting
    split at waiting
    · rename_i same
      subst same
      exact .inl ⟨awake, running⟩
    · rename_i other
      split at waiting
      · exact absurd waiting WaitStatus.ended_ne_waiting
      · refine .inr ⟨waiting, (call_effect ran).wakeTick other ?_⟩
        intro a call named
        subst call
        have fresh : (y.sched.tcb t).state = .deleted := fresh_of_allowed allowed named
        simp [(Linked.waiting_iff.mp waiting).1] at fresh
  | @finishes self b' st out k running here ran =>
    rw [Linked.status_finished ran] at waiting
    split at waiting
    · cases waiting
    · refine .inr ⟨waiting, ?_⟩
      have same : (y.finished self b' st out k).sched = y.sched := linked.resume_keeps running here ran
      rw [same]

namespace System
variable {svc self : TaskId} {y z : System} {event : Event} {c : Call} {r : CallResult}

/-- A start has put a timer in front and is about to give `timer_wake_sem`. -/
def Pending (y : System) : Prop := ∃ t ∈ y.sched.tasks, y.pc t = .calling (.semaphoreGive timerWakeSem)

instance (y : System) : Decidable y.Pending :=
  inferInstanceAs (Decidable (∃ t ∈ y.sched.tasks, y.pc t = .calling (.semaphoreGive timerWakeSem)))

/-- The service's next take of `timer_wake_sem` will not sleep through. -/
def Alarmed (y : System) : Prop := 0 < (y.semaphores timerWakeSem).count ∨ y.Pending

instance (y : System) : Decidable y.Alarmed :=
  inferInstanceAs (Decidable (0 < (y.semaphores timerWakeSem).count ∨ y.Pending))

/-- What is left of a wait with that timeout. -/
def remaining (y : System) (t : TaskId) (timeoutTicks : Tick) : Option Int :=
  if timeoutTicks = waitForever then none else some (SerialTime.ahead (y.sched.tcb t).wakeTick y.sched.tickCount)

/-- The service sleeps no longer than the timers allow, or a give is under way. -/
structure Watchful (svc : TaskId) (y : System) : Prop where
  entering : ∀ w, y.pc svc = .calling (.blocking (.semaphoreTake timerWakeSem w)) →
    (w ≠ waitForever → w.toNat < 2 ^ 31) ∧
      (y.Alarmed ∨ w = noWait ∨ (y.timing []).Clear (TimerSystem.limit w))
  asleep : ∀ w, y.waitStatus svc = .waiting (.semaphoreTake timerWakeSem w) →
    y.Pending ∨ (y.timing []).Clear (y.remaining svc w)

/-- Started timers have a period in range, and the service computes its wait
while the head of the list is the soonest timer. -/
def Punctual (y : System) : Call → Prop
  | .timerStart x => (y.timers.timer x).periodTicks.toNat < 2 ^ 31
  | .timerSleep => (y.timing []).Soonest
  | _ => True

instance (y : System) : ∀ c, Decidable (y.Punctual c)
  | .timerStart x => inferInstanceAs (Decidable ((y.timers.timer x).periodTicks.toNat < 2 ^ 31))
  | .timerSleep => inferInstanceAs (Decidable (y.timing []).Soonest)
  | .blocking _ | .taskCreate _ | .taskYield | .taskSuspend _ | .taskResume _ | .mutexUnlock _
  | .semaphoreGive _ | .timerInit _ _ _ _ _ | .timerStop _ | .timerReset _ _ | .timerExpire => .isTrue trivial

/-- The wait that a task has computed and is about to begin. -/
def aboutToWait (y : System) (t : TaskId) : Option Tick :=
  match y.pc t with
  | .calling (.blocking (.semaphoreTake _ timeoutTicks)) => some timeoutTicks
  | _ => none

/-- No tick comes between the computation of a wait and the sleep, unless the
service will be woken or all timers are still further off than the wait. -/
def Prompt (svc : TaskId) (y : System) : Prop :=
  ∀ w ∈ y.aboutToWait svc, y.Alarmed ∨ w = noWait ∨
    ∀ x ∈ y.timers.active.items (), w.toNat < (y.timing []).distance x

instance (svc : TaskId) (y : System) : Decidable (y.Prompt svc) :=
  Option.decidableForallMem (y.aboutToWait svc)

/-- The steps between which the service does not oversleep. -/
def Timely (svc : TaskId) (y : System) (event : Event) : Prop :=
  y.Private svc event ∧ (event = .tick → y.Prompt svc) ∧ ∀ c ∈ y.enters event, y.Punctual c

instance (svc : TaskId) (y : System) (event : Event) : Decidable (y.Timely svc event) :=
  inferInstanceAs (Decidable (y.Private svc event ∧ (event = .tick → y.Prompt svc) ∧
    ∀ c ∈ y.enters event, y.Punctual c))

theorem pending_iff (linked : Linked y) :
    y.Pending ↔ ∃ t, y.pc t = .calling (.semaphoreGive timerWakeSem) := by
  constructor
  · rintro ⟨t, _, giving⟩
    exact ⟨t, giving⟩
  · rintro ⟨t, giving⟩
    refine ⟨t, (linked.created t).mpr ?_, giving⟩
    intro fresh
    rw [linked.placed.fresh fresh] at giving
    cases giving

private theorem Pending.kept (pending : y.Pending) (linked : Linked z)
    (kept : ∀ t, y.pc t = .calling (.semaphoreGive timerWakeSem) →
      z.pc t = .calling (.semaphoreGive timerWakeSem)) : z.Pending := by
  obtain ⟨t, _, giving⟩ := pending
  exact (pending_iff linked).mpr ⟨t, kept t giving⟩

namespace Watchful

private theorem tick {s : Sched} (watchful : y.Watchful svc) (linked : Linked y)
    (linked' : Linked (y.ticked s)) (prompt : y.Prompt svc) (ticked : y.sched.tick = some s) :
    (y.ticked s).Watchful svc := by
  have now : s.tickCount = y.sched.tickCount + 1 := (tick_spec ticked).rest.tick
  have timing : (y.timing []).step .tick = some ((y.ticked s).timing [.ticked]) := by
    simp only [TimerSystem.step, timing, System.ticked, now]
  have cleared : ∀ wait : Int, 0 < wait →
      (∀ x ∈ y.timers.active.items (), wait < (y.timing []).distance x) →
      ((y.ticked s).timing []).Clear (some wait) := by
    intro wait positive further
    have clear : ((y.ticked s).timing [.ticked]).Clear (some wait) := .tick timing positive further
    exact clear
  have pending : y.Pending → (y.ticked s).Pending := fun pending => pending.kept linked' fun _ => id
  refine ⟨?_, ?_⟩
  · intro w calling
    obtain ⟨short, ready⟩ := watchful.entering w calling
    refine ⟨short, ?_⟩
    have computed : y.aboutToWait svc = some w := by
      rw [aboutToWait, show y.pc svc = _ from calling]
    rcases prompt w computed with alarmed | none | further
    · exact .inl (alarmed.imp id pending)
    · exact .inr (.inl none)
    · rcases ready with alarmed | none | clear
      · exact .inl (alarmed.imp id pending)
      · exact .inr (.inl none)
      · refine .inr (.inr ?_)
        by_cases forever : w = waitForever
        · rw [TimerSystem.limit, if_pos forever] at clear ⊢
          exact clear
        · rw [TimerSystem.limit, if_neg forever] at clear ⊢
          exact cleared _ clear.1 further
  · intro w waiting
    rw [linked.status_ticked ticked] at waiting
    split at waiting
    · exact absurd waiting WaitStatus.ended_ne_waiting
    · rename_i early
      refine (watchful.asleep w waiting).imp pending ?_
      intro clear
      by_cases forever : w = waitForever
      · rw [remaining, if_pos forever] at clear ⊢
        exact clear
      · rw [remaining, if_neg forever] at clear ⊢
        obtain ⟨positive, further⟩ := clear
        have listed : svc ∈ y.sched.links.items .delayed :=
          linked.delayed_waiting.mpr ⟨_, waiting, decide_eq_true forever⟩
        rw [y.sched.links.mem_items] at listed
        have notYet : reached (y.sched.tickCount + 1) (y.sched.tcb svc).wakeTick = false := by
          by_contra due
          exact early (mem_expired.mpr ⟨listed, by simpa using due⟩)
        have nearer := ahead_succ (y.sched.tcb svc).wakeTick y.sched.tickCount (by omega)
        have left := ahead_of_not_reached (by omega) notYet
        have wake : (s.tcb svc).wakeTick = (y.sched.tcb svc).wakeTick := by
          rw [(tick_spec ticked).tcb, if_neg early]
        have length : SerialTime.ahead (s.tcb svc).wakeTick s.tickCount =
            SerialTime.ahead (y.sched.tcb svc).wakeTick y.sched.tickCount - 1 := by rw [wake, now, nearer]
        show TimerSystem.Clear _ (some (SerialTime.ahead (s.tcb svc).wakeTick s.tickCount))
        rw [length]
        refine cleared _ (by omega) ?_
        intro x member
        have := further x member
        omega

/-- A step that runs no call neither takes the units of `timer_wake_sem` nor
changes the timers. -/
private theorem stay (watchful : y.Watchful svc) (linked : Linked y) (linked' : Linked z)
    (stepped : y.step event = some z) (timers : z.timers = y.timers)
    (tick : z.sched.tickCount = y.sched.tickCount)
    (semaphore : z.semaphores timerWakeSem = y.semaphores timerWakeSem)
    (calling : ∀ t c, z.pc t = .calling c ↔ y.pc t = .calling c)
    (sleep : ∀ t b, (z.pc t).sleep = some b → (y.pc t).sleep = some b) : z.Watchful svc := by
  have pending : y.Pending → z.Pending := fun pending =>
    pending.kept linked' fun t giving => (calling t _).mpr giving
  have timing : z.timing [] = y.timing [] := by simp only [System.timing, timers, tick]
  refine ⟨?_, ?_⟩
  · intro w here
    rw [timing, Alarmed, semaphore]
    obtain ⟨short, ready⟩ := watchful.entering w ((calling svc _).mp here)
    exact ⟨short, ready.imp (Or.imp id pending) id⟩
  · intro w waiting
    rcases linked.waiting_before stepped waiting with ⟨awake, _⟩ | ⟨waiting', wake⟩
    · have asleep := sleep svc _ (Linked.waiting_iff.mp waiting).2
      rw [waitStatus, waitOf, asleep] at awake
      dsimp only at awake
      split at awake <;> cases awake
    · rw [timing, remaining, wake, tick]
      exact (watchful.asleep w waiting').imp pending id

/-- A call by another task than the service leaves a wait clear, or has put a
timer in front. -/
private theorem cleared {wait : Option Int} (clear : (y.timing []).Clear wait)
    (linked' : Linked (y.entered self c r)) (punctual : y.Punctual c) (notService : c ≠ .timerExpire)
    (ran : y.toKernel.call self c = some r) :
    ((y.entered self c r).timing []).Clear wait ∨ (y.entered self c r).Pending := by
  have timers := call_timers ran []
  have tick : (y.entered self c r).sched.tickCount = y.sched.tickCount := (call_effect ran).tick
  cases named : c.timerEvent with
  | none =>
    rw [named] at timers
    have same : (y.entered self c r).timing [] = y.timing [] := by
      simp only [System.timing, tick]
      exact congrArg (TimerSystem.mk · _ _) timers
    rw [same]
    exact .inl clear
  | some e =>
    rw [named] at timers
    obtain ⟨log, moved⟩ := timers
    have moved : (y.timing []).step e = some ((y.entered self c r).timing log) := by
      rw [System.timing, System.timing, tick]
      exact moved
    have still : ((y.entered self c r).timing log).Clear wait ∨ ∃ x, e = .start x ∧
        (r.kernel.timers.active.items ()).head? = some x := by
      refine clear.step moved ?_ ?_ ?_
      · rintro x rfl
        rw [Call.timerEvent_eq_start.mp named] at punctual
        exact punctual
      · rintro rfl
        exact c.timerEvent_ne_tick named
      · rintro rfl
        exact notService (Call.timerEvent_eq_expire.mp named)
    rcases still with clear | ⟨x, rfl, front⟩
    · left
      cases wait <;> exact clear
    · right
      refine (pending_iff linked').mpr ⟨self, ?_⟩
      have starts := Call.timerEvent_eq_start.mp named
      subst starts
      cases call_spec ran with
      | timerStarts started =>
        have newHead := (Timers.timerStart_spec started).newHead.trans (decide_eq_true front)
        simp [entered, newHead, outcomePc]

/-- Only the service waits for `timer_wake_sem`. -/
private theorem only_waiter {t : TaskId} (attended : y.Attended svc) (linked : Linked y)
    (listed : t ∈ y.sched.events.items (.semaphore timerWakeSem)) : t = svc := by
  obtain ⟨b, waiting, at_list⟩ := linked.listed_waiting.mp listed
  exact attended.asleep t b (Linked.waiting_iff.mp waiting).2 (BlockingCall.object_of_waitList at_list)

/-- Only the task that is to give can end a wake-up under way. -/
private theorem pending_other (pending : y.Pending) (linked' : Linked (y.entered self c r))
    (here : y.pc self = .thread ∨ y.pc self = .calling c) (other : c.object ≠ some (.semaphore timerWakeSem)) :
    (y.entered self c r).Pending := by
  refine pending.kept linked' ?_
  intro t giving
  have distinct : t ≠ self := by
    rintro rfl
    rw [giving] at here
    rcases here with thread | calling
    · cases thread
    · cases calling
      exact other rfl
  simpa only [entered, Function.update_of_ne distinct] using giving

/-- A give that wakes nobody leaves a unit. -/
private theorem left_of_give {x x' : Semaphore} {s s' : Sched}
    (gives : Semaphore.Gives timerWakeSem x s none x' s') (max : x.maxCount = 1) : 0 < x'.count := by
  cases gives with
  | counts empty room =>
    rw [max, UInt32.lt_iff_toNat_lt] at room
    rw [UInt32.lt_iff_toNat_lt, UInt32.toNat_add]
    simp only [UInt32.toNat_one] at room ⊢
    rw [UInt32.toNat_zero]
    omega
  | drops empty full =>
    rw [max, UInt32.lt_iff_toNat_lt, UInt32.toNat_one] at full
    rw [UInt32.lt_iff_toNat_lt, UInt32.toNat_zero]
    omega

/-- While the service is awake, a wake-up under way is not lost. -/
private theorem alarmed (attended : y.Attended svc) (linked : Linked y) (linked' : Linked (y.entered self c r))
    (max : (y.semaphores timerWakeSem).maxCount = 1) (awake : y.waitStatus svc = .awake)
    (here : y.pc self = .thread ∨ y.pc self = .calling c)
    (other : c.object ≠ some (.semaphore timerWakeSem) ∨ c = .semaphoreGive timerWakeSem)
    (ran : y.toKernel.call self c = some r) (alarmed : y.Alarmed) : (y.entered self c r).Alarmed := by
  rcases other with other | rfl
  · have same : r.kernel.semaphores timerWakeSem = y.semaphores timerWakeSem := call_object ran other
    refine alarmed.imp (fun left => ?_) fun pending => pending_other pending linked' here other
    show 0 < (r.kernel.semaphores timerWakeSem).count
    rwa [same]
  · left
    cases call_spec ran with
    | @gives _ woken x _ gives =>
      have nobody : woken = none := by
        cases gives with
        | hands shape =>
          have listed := only_waiter attended linked (by rw [shape]; exact List.mem_cons_self)
          obtain ⟨b, waiting, _⟩ := linked.listed_waiting.mp (by rw [shape]; exact List.mem_cons_self)
          rw [listed, awake] at waiting
          cases waiting
        | counts | drops => rfl
      subst nobody
      show 0 < (Function.update y.semaphores timerWakeSem x timerWakeSem).count
      rw [Function.update_self]
      exact left_of_give gives max

/-- The give of `timer_wake_sem` wakes the service. -/
private theorem woken (attended : y.Attended svc) (linked : Linked y) (running : y.running = some self)
    (here : y.pc self = .thread ∨ y.pc self = .calling (.semaphoreGive timerWakeSem)) (distinct : svc ≠ self)
    (ran : y.toKernel.call self (.semaphoreGive timerWakeSem) = some r) {w : Tick} {b : BlockingCall}
    (before : y.waitStatus svc = .waiting (.semaphoreTake timerWakeSem w)) :
    (y.entered self (.semaphoreGive timerWakeSem) r).waitStatus svc ≠ .waiting b := by
  have busy : ∀ b, y.pc self ≠ .requesting b := by
    intro b requesting
    rw [requesting] at here
    rcases here with thread | calling
    · cases thread
    · cases calling
  have listed : svc ∈ y.sched.events.items (.semaphore timerWakeSem) :=
    linked.listed_waiting.mpr ⟨_, before, rfl⟩
  have woken : r.woken = some svc := by
    cases call_spec ran with
    | gives gives =>
      cases gives with
      | hands shape =>
        exact congrArg some (only_waiter attended linked (by rw [shape]; exact List.mem_cons_self))
      | counts empty | drops empty =>
        rw [empty] at listed
        cases listed
  rw [linked.status_entered running busy rfl ran, if_neg distinct, if_pos woken]
  exact WaitStatus.ended_ne_waiting

/-- Another task enters a call. -/
private theorem bystand (watchful : y.Watchful svc) (attended : y.Attended svc) (linked : Linked y)
    (linked' : Linked (y.entered self c r)) (max : (y.semaphores timerWakeSem).maxCount = 1)
    (stepped : y.step event = some (y.entered self c r)) (running : y.running = some self)
    (here : y.pc self = .thread ∨ y.pc self = .calling c) (distinct : self ≠ svc)
    (other : c.object ≠ some (.semaphore timerWakeSem) ∧ c ≠ .timerExpire ∨ c = .semaphoreGive timerWakeSem)
    (punctual : y.Punctual c) (ran : y.toKernel.call self c = some r) :
    (y.entered self c r).Watchful svc := by
  have pc : (y.entered self c r).pc svc = y.pc svc := Function.update_of_ne (Ne.symm distinct) _ _
  have notService : c ≠ .timerExpire := by
    rcases other with ⟨_, other⟩ | rfl
    · exact other
    · simp
  refine ⟨?_, ?_⟩
  · intro w calling
    rw [pc] at calling
    obtain ⟨short, ready⟩ := watchful.entering w calling
    refine ⟨short, ?_⟩
    have awake : y.waitStatus svc = .awake := waitOf_awake (by rw [calling]; rfl)
    rcases ready with ready | none | clear
    · exact .inl (alarmed attended linked linked' max awake here (other.imp And.left id) ran ready)
    · exact .inr (.inl none)
    · rcases cleared clear linked' punctual notService ran with clear | pending
      · exact .inr (.inr clear)
      · exact .inl (.inr pending)
  · intro w waiting
    rcases linked.waiting_before stepped waiting with ⟨_, now⟩ | ⟨before, wake⟩
    · rw [running] at now
      exact absurd (Option.some.inj now) distinct
    have left : (y.entered self c r).remaining svc w = y.remaining svc w := by
      have tick : (y.entered self c r).sched.tickCount = y.sched.tickCount := (call_effect ran).tick
      rw [remaining, remaining, wake, tick]
    rcases watchful.asleep w before with pending | clear
    · rcases other with ⟨other, _⟩ | rfl
      · exact .inl (pending_other pending linked' here other)
      · exact absurd waiting (woken attended linked running here (Ne.symm distinct) ran before)
    · rw [left]
      exact (cleared clear linked' punctual notService ran).symm

/-- A wait that was clear when it was computed is clear as it begins. -/
private theorem begun {w : Tick} {h : WaitList}
    (slept : Slept (y.sched.enqueued h svc) svc (y.sched.deadline w) z.sched) (timers : z.timers = y.timers)
    (tick : z.sched.tickCount = y.sched.tickCount) (short : w ≠ waitForever → w.toNat < 2 ^ 31)
    (clear : (y.timing []).Clear (TimerSystem.limit w)) : (z.timing []).Clear (z.remaining svc w) := by
  have same : z.timing [] = y.timing [] := by simp only [System.timing, timers, tick]
  rw [same, remaining, tick, slept.tcb, deadline, Function.update_self]
  by_cases forever : w = waitForever
  · simpa only [TimerSystem.limit, if_pos forever] using clear
  · have short := short forever
    have length := ahead_add y.sched.tickCount y.sched.tickCount w (by rw [ahead_self]; omega)
    rw [ahead_self, Int.zero_add] at length
    simpa only [TimerSystem.limit, if_neg forever, Option.getD_some, length] using clear

/-- The service enters a call: it has computed its wait, or goes to sleep. -/
private theorem own (watchful : y.Watchful svc) (attended : y.Attended svc)
    (linked' : Linked (y.entered svc c r)) (only : y.Private svc event) (running : y.running = some svc)
    (runs : y.enters event = some c) (punctual : y.Punctual c) (ran : y.toKernel.call svc c = some r) :
    (y.entered svc c r).Watchful svc := by
  have pc : (y.entered svc c r).pc svc = outcomePc c r.outcome := Function.update_self ..
  refine ⟨?_, ?_⟩
  · intro w calling
    rw [pc] at calling
    rcases outcome_calls ran (outcomePc_calls calling) with ⟨other, _⟩ | ⟨_, other⟩ | ⟨rfl, sleeps⟩
    · cases other
    · cases other
    · obtain ⟨rfl⟩ : w = y.timers.waitTicks y.sched.tickCount := by simpa using sleeps
      have same : (y.entered svc .timerSleep r).timing [] = y.timing [] := by
        cases call_spec ran
        rfl
      obtain ⟨short, ready⟩ := TimerSystem.clear_of_wait (y := y.timing []) punctual rfl
      rw [same]
      exact ⟨short, .inr ready⟩
  · intro w waiting
    have asleep := (Linked.waiting_iff.mp waiting).2
    rw [pc] at asleep
    have blocks : r.outcome = .blocks := by
      by_contra awake
      rw [outcomePc_sleep awake] at asleep
      cases asleep
    obtain ⟨b, rfl⟩ := outcome_blocks ran blocks
    obtain rfl : b = .semaphoreTake timerWakeSem w := by
      rw [blocks] at asleep
      simpa [outcomePc, Pc.sleep] using asleep
    rcases attended.entering only running runs with ⟨other, _⟩ | other | ⟨_, w', calling, taking⟩
    · exact absurd rfl other
    · cases other
    obtain rfl : w = w' := by simpa using taking
    obtain ⟨short, ready⟩ := watchful.entering w calling
    cases call_spec ran with
    | takes takes =>
      cases takes with
      | counted | refused => cases blocks
      | sleeps exhausted patient _ slept =>
        rcases ready with alarmed | none | clear
        · left
          refine (alarmed.resolve_left exhausted).kept linked' ?_
          intro t giving
          have distinct : t ≠ svc := by
            rintro rfl
            rw [calling] at giving
            cases giving
          simpa only [entered, Function.update_of_ne distinct] using giving
        · exact absurd none patient
        · right
          exact begun slept rfl slept.rest.tick short clear

theorem step (watchful : y.Watchful svc) (attended : y.Attended svc) (linked : Linked y)
    (max : (y.semaphores timerWakeSem).maxCount = 1) (timely : y.Timely svc event)
    (stepped : y.step event = some z) : z.Watchful svc := by
  obtain ⟨only, prompt, punctual⟩ := timely
  have linked' := linked.step stepped
  cases step_advances stepped with
  | bystands _ _ bystands =>
    exact watchful.stay linked linked' stepped bystands.timers bystands.tick (by rw [bystands.semaphores])
      bystands.calling bystands.sleep
  | ticks ticked => exact watchful.tick linked linked' (prompt rfl) ticked
  | interrupts ran =>
    obtain ⟨timers, tick⟩ := isr_timers ran
    exact watchful.stay linked linked' stepped timers tick (isr_object ran only) (fun _ _ => .rfl)
      fun _ _ => id
  | @enters _ self c r running runs here ran =>
    have punctual : y.Punctual c := punctual c runs
    by_cases service : self = svc
    · subst service
      exact watchful.own attended linked' only running runs punctual ran
    · apply watchful.bystand attended linked linked' max stepped running here service ?_ punctual ran
      rcases attended.entering only running runs with ⟨other, own⟩ | give | ⟨same, _⟩
      · exact .inl ⟨other, fun expire => service (own (.inr expire))⟩
      · exact .inr give
      · exact absurd same service

end Watchful

theorem watchful_of_run {cfg : Config} (wake : cfg.semaphore timerWakeSem = (0, 1))
    (run : KernelRun cfg (Timely svc) y) : y.Watchful svc := by
  have known : ∀ w, KernelRun cfg (Timely svc) w →
      w.Attended svc ∧ Linked w ∧ (w.semaphores timerWakeSem).maxCount = 1 := by
    intro w run
    have max := (units_of_run run timerWakeSem).max
    rw [wake] at max
    exact ⟨attended_of_run (run.weaken fun _ _ timely => timely.1), linked_of_run run, max⟩
  refine (run.strengthen known).invariant (Watchful svc) ⟨?_, ?_⟩ ?_
  · intro w calling
    cases calling
  · intro w waiting
    cases waiting
  · intro _ _ _ watchful ⟨timely, attended, linked, max⟩ stepped
    exact watchful.step attended linked max timely stepped

/-- The head of the list is the soonest timer as long as no two expiry ticks
compared were half the range or more apart. -/
theorem soonest_of_run {cfg : Config} (run : KernelRun cfg (fun y event =>
    ∀ e, y.timerEvent event = some e → (y.timing []).Comparable e) y) : (y.timing []).Soonest := by
  have timers : ∃ log, TimerRun cfg.tickCount TimerSystem.Comparable (y.timing log) := by
    apply timing_of_run run
    intro y event e log meets named
    have comparable := meets e named
    cases e <;> exact comparable
  obtain ⟨log, run⟩ := timers
  have ordered : (y.timing log).Ordered :=
    run.invariant TimerSystem.Ordered (TimerSystem.ordered_boot _)
      fun _ _ _ ordered comparable stepped => ordered.step comparable stepped
  have sorted := ordered.sorted
  intro head front x listed
  obtain ⟨rest, shape⟩ := List.head?_eq_some_iff.mp front
  rw [show (y.timing log).timers.active.items () = _ from shape, List.pairwise_cons] at sorted
  rw [shape, List.mem_cons] at listed
  rcases listed with rfl | listed
  · exact Int.le_refl _
  · rcases sorted.1 x listed with before | ⟨same, _⟩
    · exact Int.le_of_lt before
    · exact Int.le_of_eq same

/-- While it sleeps and no start is about to wake it, the service will be awake
when the first timer expires. -/
theorem never_oversleeps {cfg : Config} (wake : cfg.semaphore timerWakeSem = (0, 1))
    (run : KernelRun cfg (Timely svc) y) {w : Tick}
    (asleep : y.waitStatus svc = .waiting (.semaphoreTake timerWakeSem w)) (settled : ¬y.Pending)
    {head : TimerId} {rest : List TimerId} (shape : y.timers.active.items () = head :: rest) :
    w ≠ waitForever ∧ svc ∈ y.sched.links.items .delayed ∧
      0 ≤ SerialTime.ahead (y.timers.timer head).expiryTick (y.sched.tcb svc).wakeTick := by
  have clear := ((watchful_of_run wake run).asleep w asleep).resolve_left settled
  have finite : w ≠ waitForever := by
    intro forever
    rw [remaining, if_pos forever] at clear
    rw [show y.timers.active.items () = [] from clear] at shape
    cases shape
  rw [remaining, if_neg finite] at clear
  obtain ⟨positive, further⟩ := clear
  refine ⟨finite, (linked_of_run run).delayed_waiting.mpr ⟨_, asleep, decide_eq_true finite⟩, ?_⟩
  have covered := further head (by rw [show (y.timing []).timers = y.timers from rfl, shape]; simp)
  exact ahead_of_no_nearer positive covered

set_option maxRecDepth 20000 in
/-- The service sleeps for one timer, is woken for a second that comes before
it, and sleeps for that one. -/
theorem never_oversleeps_two_timers : ∃ y, KernelRun {} (Timely 1) y ∧
    y.timers.active.items () = [1, 0] ∧
    0 ≤ SerialTime.ahead (y.timers.timer 1).expiryTick (y.sched.tcb 1).wakeTick := by
  obtain ⟨y, run, rest⟩ : ∃ y, KernelRun {} (Timely 1) y ∧ decide (
      y.waitStatus 1 = .waiting (.semaphoreTake timerWakeSem 3) ∧ ¬y.Pending ∧
        y.timers.active.items () = [1, 0]) = true :=
    GuardedRun.reaches_of_exec
      [.create ⟨some 1, 1, 1, 64, 3⟩, .create ⟨some 2, 1, 1, 64, 2⟩, .start,
        .call .timerSleep, .proceed, .proceed, .pendSV,
        .call (.timerInit 0 10 false 7 0), .call (.timerStart 0), .proceed, .proceed, .pendSV,
        .proceed, .call .timerExpire, .call .timerSleep, .proceed, .proceed, .pendSV, .tick, .pendSV,
        .call (.timerInit 1 3 false 7 0), .call (.timerStart 1), .proceed, .proceed, .pendSV,
        .proceed, .call .timerExpire, .call .timerSleep, .proceed] _ (by decide +kernel)
  obtain ⟨asleep, settled, shape⟩ := of_decide_eq_true rest
  exact ⟨y, run, shape, (never_oversleeps rfl run asleep settled shape).2.2⟩

set_option maxRecDepth 20000 in
/-- A tick between the two critical sections is slept through. -/
theorem tick_overslept : ∃ y,
    KernelRun {} (fun y event => y.Private 1 event ∧ ∀ c ∈ y.enters event, y.Punctual c) y ∧
    y.waitStatus 1 = .waiting (.semaphoreTake timerWakeSem 10) ∧ ¬y.Pending ∧
    y.timers.active.items () = [0] ∧
    SerialTime.ahead (y.timers.timer 0).expiryTick (y.sched.tcb 1).wakeTick = -1 := by
  obtain ⟨y, run, rest⟩ : ∃ y,
      KernelRun {} (fun y event => y.Private 1 event ∧ ∀ c ∈ y.enters event, y.Punctual c) y ∧ decide (
        y.waitStatus 1 = .waiting (.semaphoreTake timerWakeSem 10) ∧ ¬y.Pending ∧
        y.timers.active.items () = [0] ∧
        SerialTime.ahead (y.timers.timer 0).expiryTick (y.sched.tcb 1).wakeTick = -1) = true :=
    GuardedRun.reaches_of_exec
      [.create ⟨some 1, 1, 1, 64, 3⟩, .create ⟨some 2, 1, 1, 64, 2⟩, .start,
        .call .timerSleep, .proceed, .proceed, .pendSV,
        .call (.timerInit 0 10 false 7 0), .call (.timerStart 0), .proceed, .proceed, .pendSV,
        .proceed, .call .timerExpire, .call .timerSleep, .tick, .pendSV, .proceed] _ (by decide +kernel)
  exact ⟨y, run, of_decide_eq_true rest⟩

end System
end NimbleRtos
