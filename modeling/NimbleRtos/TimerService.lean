import NimbleRtos.Foundation.GuardedRun
import NimbleRtos.Foundation.Recency
import NimbleRtos.Foundation.SerialTime
import NimbleRtos.Timer

/-! timer.c on its own: the calls of any number of tasks and callbacks, the
expiry loop of the service one round at a time, and the tick, in any order. The
log tells when a timer was started and when it fired. -/
namespace NimbleRtos
open NodeRings SerialTime Recency

inductive TimerEvent where
  | init (x : TimerId) (periodTicks : Tick) (isPeriodic : Bool) (callback arg : UInt32)
  | start (x : TimerId)
  | stop (x : TimerId)
  /-- The critical section `nimble_timer_reset` has before it starts the timer. -/
  | reset (x : TimerId) (newPeriodTicks : Tick)
  | tick
  /-- One round of the expiry loop in `timer_task_fn`. -/
  | expire
  deriving DecidableEq, Repr

inductive TimerEntry where
  | ticked
  | started (x : TimerId) (now periodTicks : Tick)
  | fired (x : TimerId)
  deriving DecidableEq, Repr

/-- The memory of timer.c, `g_tick_count`, and the log, newest entry first. -/
structure TimerSystem where
  timers : Timers
  now : Tick
  log : List TimerEntry

def Expiry.entries : Expiry → List TimerEntry
  | .idle => []
  | .fires x _ _ => [.fired x]

namespace TimerSystem

def step (y : TimerSystem) : TimerEvent → Option TimerSystem
  | .init x periodTicks isPeriodic callback arg => do
    let timers ← y.timers.timerInit x periodTicks isPeriodic callback arg
    some { y with timers }
  | .start x => do
    let (_, timers) ← y.timers.timerStart y.now x
    some { y with timers, log := .started x y.now (y.timers.timer x).periodTicks :: y.log }
  | .stop x => some { y with timers := y.timers.timerStop x }
  | .reset x newPeriodTicks => some { y with timers := y.timers.timerReset x newPeriodTicks }
  | .tick => some { y with now := y.now + 1, log := .ticked :: y.log }
  | .expire => do
    let (expiry, timers) ← y.timers.expire y.now
    some { y with timers, log := expiry.entries ++ y.log }

end TimerSystem

/-- After `nimble_timer_service_start`, at any tick count. -/
def timerBoot (now : Tick) : TimerSystem := ⟨Timers.init, now, []⟩

/-- Runs of timer.c whose steps all meet `guard`. -/
abbrev TimerRun (now : Tick) (guard : TimerSystem → TimerEvent → Prop) : TimerSystem → Prop :=
  GuardedRun.Run TimerSystem.step guard (timerBoot now)

/-! ## What each critical section does -/

namespace Timers
variable {ts ts' : Timers} {now : Tick} {x : TimerId}

/-- The walk of `insert_sorted_by_expiry` stops at a timer that expires later. -/
def later (ts : Timers) (x other : TimerId) : Bool :=
  decide (ahead (ts.timer x).expiryTick (ts.timer other).expiryTick < 0)

/-- `x` stands in the list where the walk over `others` left it. -/
def Queued (ts : Timers) (x : TimerId) (others : List TimerId) : Prop :=
  ts.active.items () = place (ts.later x) x others

theorem insertSorted_spec (inserted : ts.insertSortedByExpiry x = some ts') :
    ts.active.ring x = none ∧ ts'.timer = ts.timer ∧ ts'.Queued x (ts.active.items ()) := by
  simp only [insertSortedByExpiry, neg_iff_ahead, Option.bind_eq_bind, Option.bind_eq_some_iff,
    Rings.insert_eq_some, Option.some.injEq] at inserted
  obtain ⟨_, ⟨free, rfl⟩, rfl⟩ := inserted
  refine ⟨free, rfl, ?_⟩
  simp only [Queued, Rings.link_items free, Function.update_self]
  rfl

/-- What `nimble_timer_start` does. -/
structure Started (ts : Timers) (now : Tick) (x : TimerId) (becameNewHead : Bool) (ts' : Timers) :
    Prop where
  timer : ts'.timer = Function.update ts.timer x
    { ts.timer x with expiryTick := now + (ts.timer x).periodTicks, isActive := true }
  queued : ts'.Queued x ((ts.active.items ()).erase x)
  newHead : becameNewHead = decide ((ts'.active.items ()).head? = some x)

theorem timerStart_spec {becameNewHead : Bool}
    (started : ts.timerStart now x = some (becameNewHead, ts')) :
    Started ts now x becameNewHead ts' := by
  unfold timerStart at started
  simp only [Option.bind_eq_bind, Option.bind_eq_some_iff, Option.some.injEq, Prod.mk.injEq] at started
  obtain ⟨_, inserted, rfl, rfl⟩ := started
  obtain ⟨free, timer, queued⟩ := insertSorted_spec inserted
  refine ⟨?_, ?_, rfl⟩
  · rw [timer]
    split <;> rfl
  · by_cases active : (ts.timer x).isActive = true
    · simpa [active, setTimer] using queued
    · have free : ts.active.ring x = none := by simpa [active, setTimer] using free
      rw [List.erase_of_not_mem (Rings.not_mem_of_free free)]
      simpa [active, setTimer] using queued

/-- A timer that is on no list, or knows that it is active, can be started. -/
theorem timerStart_defined (known : ts.active.ring x = none ∨ (ts.timer x).isActive = true) (now : Tick) :
    ∃ becameNewHead ts', ts.timerStart now x = some (becameNewHead, ts') := by
  by_cases active : (ts.timer x).isActive = true
  · simp [timerStart, active, insertSortedByExpiry, Rings.insert, setTimer]
  · have free : ts.active.ring x = none := known.resolve_right active
    simp [timerStart, active, insertSortedByExpiry, Rings.insert, setTimer, free]

/-- The ways one round of the expiry loop can go. -/
inductive Expires (ts : Timers) (now : Tick) : Expiry → Timers → Prop where
  | rests (nothingDue : ∀ head rest, ts.active.items () = head :: rest →
        0 < ahead (ts.timer head).expiryTick now) : Expires ts now .idle ts
  | reloads {head : TimerId} {rest : List TimerId} {next : Tick} {ts' : Timers}
      (shape : ts.active.items () = head :: rest)
      (due : ahead (ts.timer head).expiryTick now ≤ 0) (periodic : (ts.timer head).isPeriodic = true)
      (nextIs : next = if ahead ((ts.timer head).expiryTick + (ts.timer head).periodTicks) now < 0
        then now + (ts.timer head).periodTicks
        else (ts.timer head).expiryTick + (ts.timer head).periodTicks)
      (timer : ts'.timer = Function.update ts.timer head { ts.timer head with expiryTick := next })
      (queued : ts'.Queued head rest) :
      Expires ts now (.fires head (ts.timer head).callback (ts.timer head).arg) ts'
  | ends {head : TimerId} {rest : List TimerId} {ts' : Timers}
      (shape : ts.active.items () = head :: rest)
      (due : ahead (ts.timer head).expiryTick now ≤ 0) (oneShot : (ts.timer head).isPeriodic = false)
      (timer : ts'.timer = Function.update ts.timer head { ts.timer head with isActive := false })
      (items : ts'.active.items () = rest) :
      Expires ts now (.fires head (ts.timer head).callback (ts.timer head).arg) ts'

theorem expire_spec {expiry : Expiry} (expired : ts.expire now = some (expiry, ts')) :
    Expires ts now expiry ts' := by
  unfold expire at expired
  split at expired
  · rename_i empty
    cases expired
    exact .rests fun head rest shape => by rw [empty] at shape; cases shape
  · rename_i head rest shape
    simp only [pos_iff_ahead, neg_iff_ahead] at expired
    split at expired
    · rename_i early
      cases expired
      refine .rests ?_
      intro head' rest' shape'
      rw [shape] at shape'
      cases shape'
      exact early
    · rename_i due
      have due : ahead (ts.timer head).expiryTick now ≤ 0 := Int.not_lt.mp due
      split at expired
      · rename_i periodic
        simp only [Option.bind_eq_bind, Option.bind_eq_some_iff, Option.some.injEq,
          Prod.mk.injEq] at expired
        obtain ⟨_, inserted, rfl, rfl⟩ := expired
        obtain ⟨_, timer, queued⟩ := insertSorted_spec inserted
        refine .reloads shape due periodic rfl timer ?_
        simpa [setTimer, shape] using queued
      · rename_i oneShot
        cases expired
        exact .ends shape due (by simpa using oneShot) rfl (by simp [setTimer, shape])

/-- The expiry loop changes no period. -/
theorem Expires.period {expiry : Expiry} (expired : ts.Expires now expiry ts') (x : TimerId) :
    (ts'.timer x).periodTicks = (ts.timer x).periodTicks := by
  cases expired with
  | rests => rfl
  | @reloads head _ _ _ _ _ _ _ timer | @ends head _ _ _ _ _ timer =>
    rw [timer]
    by_cases same : x = head <;> simp [same]

/-- A round of the expiry loop always goes through: it takes the head off the
list before it links it again. -/
theorem expire_defined (ts : Timers) (now : Tick) : ∃ expiry ts', ts.expire now = some (expiry, ts') := by
  unfold expire
  split
  · exact ⟨_, _, rfl⟩
  · dsimp only
    split
    · exact ⟨_, _, rfl⟩
    · split
      · simp [insertSortedByExpiry, Rings.insert, setTimer]
      · exact ⟨_, _, rfl⟩

end Timers

namespace TimerSystem
variable {y z : TimerSystem}

/-- Every step is one of these. -/
inductive Steps (y : TimerSystem) : TimerEvent → TimerSystem → Prop where
  | inits {x : TimerId} {periodTicks : Tick} {isPeriodic : Bool} {callback arg : UInt32}
      (free : y.timers.active.ring x = none) :
      Steps y (.init x periodTicks isPeriodic callback arg)
        { y with timers := y.timers.setTimer x { periodTicks, isPeriodic, callback, arg } }
  | starts {x : TimerId} {becameNewHead : Bool} {timers : Timers}
      (started : y.timers.Started y.now x becameNewHead timers) :
      Steps y (.start x)
        { y with timers, log := .started x y.now (y.timers.timer x).periodTicks :: y.log }
  | stops {x : TimerId} : Steps y (.stop x) { y with timers := y.timers.timerStop x }
  | resets {x : TimerId} {newPeriodTicks : Tick} :
      Steps y (.reset x newPeriodTicks) { y with timers := y.timers.timerReset x newPeriodTicks }
  | ticks : Steps y .tick { y with now := y.now + 1, log := .ticked :: y.log }
  | expires {expiry : Expiry} {timers : Timers} (expired : y.timers.Expires y.now expiry timers) :
      Steps y .expire { y with timers, log := expiry.entries ++ y.log }

theorem step_cases {event : TimerEvent} (stepped : y.step event = some z) : Steps y event z := by
  cases event with
  | init x periodTicks isPeriodic callback arg =>
    simp only [step, Timers.timerInit, Option.bind_eq_bind, Option.bind_eq_some_iff,
      Option.some.injEq] at stepped
    obtain ⟨timers, initialised, rfl⟩ := stepped
    split at initialised
    · cases initialised; exact .inits ‹_›
    · cases initialised
  | start x =>
    simp only [step, Option.bind_eq_bind, Option.bind_eq_some_iff, Prod.exists,
      Option.some.injEq] at stepped
    obtain ⟨_, _, started, rfl⟩ := stepped
    exact .starts (Timers.timerStart_spec started)
  | stop x => cases stepped; exact .stops
  | reset x newPeriodTicks => cases stepped; exact .resets
  | tick => cases stepped; exact .ticks
  | expire =>
    simp only [step, Option.bind_eq_bind, Option.bind_eq_some_iff, Prod.exists,
      Option.some.injEq] at stepped
    obtain ⟨_, _, expired, rfl⟩ := stepped
    exact .expires (Timers.expire_spec expired)

end TimerSystem
end NimbleRtos
