import Mathlib.Algebra.BigOperators.Group.List.Basic
import Mathlib.Algebra.GroupWithZero.Nat
import NimbleRtos.Foundation.BoundedLoop
import NimbleRtos.TimerDrift

/-! Termination of the expiry loop. A round puts a periodic timer back on the
list, so what shrinks is the number of firings each timer still has at this
tick count: none when it is not due, and at most two otherwise, provided its
period brings the wrapping expiry past the current tick in two steps. Periods
that do not are accepted by `nimble_timer_init` and `nimble_timer_reset`, and
one such timer keeps the service in the loop for good. -/
namespace NimbleRtos
open NodeRings SerialTime BoundedLoop

/-- One period, or two, lead past any tick in the signed order. -/
def Advances (period : Tick) : Prop :=
  0 < period.toNat ∧ period.toNat < 2 ^ 31 ∨ 2 ^ 31 < period.toNat ∧ period.toNat < 3 * 2 ^ 30

instance (period : Tick) : Decidable (Advances period) :=
  inferInstanceAs (Decidable (_ ∧ _ ∨ _ ∧ _))

namespace Timer

/-- The timer as the expiry loop puts it back. -/
def reload (timer : Timer) (now : Tick) : Timer :=
  { timer with expiryTick := if ahead (timer.expiryTick + timer.periodTicks) now < 0
      then now + timer.periodTicks else timer.expiryTick + timer.periodTicks }

/-- How often the loop fires the timer at `now`. -/
def remaining (timer : Timer) (now : Tick) : Nat :=
  if 0 < ahead timer.expiryTick now then 0
  else if timer.isPeriodic = true ∧ ahead (timer.reload now).expiryTick now ≤ 0 then 2 else 1

variable (timer : Timer) (now : Tick)

theorem reload_missed (missed : ahead (timer.expiryTick + timer.periodTicks) now < 0) :
    timer.reload now = { timer with expiryTick := now + timer.periodTicks } := by
  simp [reload, missed]

theorem reload_caught (caught : 0 ≤ ahead (timer.expiryTick + timer.periodTicks) now) :
    timer.reload now = { timer with expiryTick := timer.expiryTick + timer.periodTicks } := by
  simp [reload, Int.not_lt.mpr caught]

/-- Put back twice, a timer whose period advances is not due any more. -/
theorem reload_advances (advances : Advances timer.periodTicks)
    (due : ahead timer.expiryTick now ≤ 0)
    (again : ahead (timer.reload now).expiryTick now ≤ 0) :
    0 < ahead ((timer.reload now).reload now).expiryTick now := by
  obtain ⟨_, _, once⟩ := ahead_spec (now + timer.periodTicks) now
  rw [UInt32.toNat_add] at once
  rcases Int.lt_or_le (ahead (timer.expiryTick + timer.periodTicks) now) 0 with missed | caught
  · obtain ⟨_, _, twice⟩ := ahead_spec (now + timer.periodTicks + timer.periodTicks) now
    rw [UInt32.toNat_add, UInt32.toNat_add] at twice
    rw [reload_missed timer now missed] at again ⊢
    unfold Advances at advances
    rw [reload_caught]
    · dsimp only at again ⊢
      omega
    · dsimp only at again ⊢
      omega
  · rw [reload_caught timer now caught] at again ⊢
    have at_now : timer.expiryTick + timer.periodTicks = now :=
      ahead_inj.mp ((Int.le_antisymm again caught).trans (ahead_self now).symm)
    obtain ⟨_, _, first⟩ := ahead_spec timer.expiryTick now
    have whole := congrArg UInt32.toNat at_now
    rw [UInt32.toNat_add] at whole
    have late : ahead (now + timer.periodTicks) now = timer.periodTicks.toNat := by
      unfold Advances at advances
      omega
    have caught : 0 ≤ ahead (now + timer.periodTicks) now := by rw [late]; exact Int.natCast_nonneg _
    rw [at_now, reload_caught { timer with expiryTick := now } now caught]
    unfold Advances at advances
    dsimp only
    omega

theorem remaining_reload (advances : Advances timer.periodTicks)
    (periodic : timer.isPeriodic = true) (due : ahead timer.expiryTick now ≤ 0) :
    (timer.reload now).remaining now < timer.remaining now := by
  rcases Int.lt_or_le 0 (ahead (timer.reload now).expiryTick now) with early | again
  · simp [remaining, early, Int.not_lt.mpr due, Int.not_le.mpr early]
  · have past := reload_advances timer now advances due again
    simp [remaining, again, Int.not_lt.mpr due, Int.not_lt.mpr again, Int.not_le.mpr past, periodic]

/-- A period that does not advance keeps the timer at `now` or one period off,
and due in both places. -/
theorem reload_futile (futile : ¬Advances timer.periodTicks)
    (expiry : timer.expiryTick = now ∨ timer.expiryTick = now + timer.periodTicks) :
    ahead timer.expiryTick now ≤ 0 ∧ ((timer.reload now).expiryTick = now ∨
      (timer.reload now).expiryTick = now + timer.periodTicks) := by
  obtain ⟨_, _, once⟩ := ahead_spec (now + timer.periodTicks) now
  rw [UInt32.toNat_add] at once
  have small := timer.periodTicks.toNat_lt
  unfold Advances at futile
  rcases expiry with at_now | at_next
  · refine ⟨Int.le_of_eq ?_, .inr ?_⟩
    · rw [at_now, ahead_self]
    · simp [reload, at_now]
  · refine ⟨by rw [at_next]; omega, ?_⟩
    rcases Int.lt_or_le (ahead (timer.expiryTick + timer.periodTicks) now) 0 with missed | caught
    · rw [reload_missed timer now missed]
      exact .inr rfl
    · rw [reload_caught timer now caught, at_next]
      rw [at_next] at caught
      obtain ⟨_, _, twice⟩ := ahead_spec (now + timer.periodTicks + timer.periodTicks) now
      rw [UInt32.toNat_add, UInt32.toNat_add] at twice
      refine .inl (UInt32.toNat_inj.mp ?_)
      rw [UInt32.toNat_add, UInt32.toNat_add]
      have := now.toNat_lt
      omega

end Timer

namespace TimerSystem
variable {y z : TimerSystem}

/-- The state after a round that fires a timer; none when nothing is due. -/
def again (y : TimerSystem) : Option TimerSystem := do
  let (expiry, timers) ← y.timers.expire y.now
  if expiry = .idle then none else some { y with timers, log := expiry.entries ++ y.log }

/-- A pass is the loop over its rounds. -/
theorem pass_eq_rounds (n : Nat) (y : TimerSystem) : y.pass n = rounds again n y := by
  induction n generalizing y with
  | zero => rfl
  | succ n ih =>
    obtain ⟨expiry, timers, expired⟩ := Timers.expire_defined y.timers y.now
    simp only [pass, rounds, again, expired, Option.bind_eq_bind, Option.bind_some]
    cases Timers.expire_spec expired with
    | rests => rfl
    | reloads => exact ih _
    | ends => exact ih _

/-- The loop is left after finitely many rounds, and the service then waits on
`timer_wake_sem`. -/
def LoopEnds (y : TimerSystem) : Prop :=
  ∃ n z, y.pass n = some z ∧ z.timers.waitTicks z.now ≠ noWait

/-- Once nothing is due there is something to wait for. -/
theorem waits_of_left (left : y.again = none) : y.timers.waitTicks y.now ≠ noWait := by
  obtain ⟨expiry, timers, expired⟩ := Timers.expire_defined y.timers y.now
  simp only [again, expired, Option.bind_eq_bind, Option.bind_some] at left
  cases Timers.expire_spec expired with
  | rests nothingDue =>
    cases shape : y.timers.active.items () with
    | nil => simp [Timers.waitTicks, shape, waitForever, noWait]
    | cons head rest =>
      have early := nothingDue head rest shape
      have later : 0 < ((y.timers.timer head).expiryTick - y.now).toInt32 := pos_iff_ahead.mpr early
      simp only [Timers.waitTicks, shape, later, if_true]
      intro none_left
      rw [none_left] at later
      cases later
  | reloads => cases left
  | ends => cases left

/-- The firings all timers on the list still have at this tick count. -/
def pending (y : TimerSystem) : Nat :=
  ((y.timers.active.items ()).map fun x => (y.timers.timer x).remaining y.now).sum

/-- Every periodic timer has a period that satisfies `allowed`. -/
def Periods (allowed : Tick → Prop) (y : TimerSystem) : Prop :=
  ∀ x, (y.timers.timer x).isPeriodic = true → allowed (y.timers.timer x).periodTicks

theorem again_cases (fired : y.again = some z) : ∃ expiry timers,
    y.timers.Expires y.now expiry timers ∧ expiry ≠ .idle ∧
      z = { y with timers, log := expiry.entries ++ y.log } := by
  simp only [again, Option.bind_eq_bind, Option.bind_eq_some_iff, Prod.exists] at fired
  obtain ⟨expiry, timers, expired, fired⟩ := fired
  split at fired
  · cases fired
  · rename_i busy
    cases fired
    exact ⟨expiry, timers, Timers.expire_spec expired, busy, rfl⟩

/-- The timers behind the head still have what they had. -/
theorem pending_rest {ts ts' : Timers} {head : TimerId} {rest : List TimerId} {timer : Timer}
    (shape : ts.active.items () = head :: rest) (changed : ts'.timer = Function.update ts.timer head timer)
    (now : Tick) : rest.map (fun x => (ts'.timer x).remaining now) =
      rest.map fun x => (ts.timer x).remaining now := by
  have nodup := ts.active.nodup ()
  rw [shape] at nodup
  apply List.map_congr_left
  intro x listed
  have other : x ≠ head := fun same => (List.nodup_cons.mp nodup).1 (same ▸ listed)
  rw [changed, Function.update_of_ne other]

/-- Every firing is one of those pending. -/
theorem pending_again (advance : y.Periods Advances) (fired : y.again = some z) :
    z.pending < y.pending := by
  obtain ⟨expiry, timers, expired, busy, rfl⟩ := again_cases fired
  cases expired with
  | rests => exact absurd rfl busy
  | @reloads head rest next timers shape due periodic nextIs timer queued =>
    have fewer := Timer.remaining_reload _ y.now (advance head periodic) periodic due
    have items : timers.active.items () = place (timers.later head) head rest := queued
    have permuted := (place_perm (timers.later head) head rest).map fun x => (timers.timer x).remaining y.now
    simp only [pending, items, permuted.sum_eq, List.map_cons, List.sum_cons, shape, pending_rest shape timer]
    rw [timer, Function.update_self, nextIs]
    exact Nat.add_lt_add_right fewer _
  | @ends head rest timers shape due oneShot timer items =>
    have once : 0 < (y.timers.timer head).remaining y.now := by
      simp [Timer.remaining, Int.not_lt.mpr due, oneShot]
    simp only [pending, items, pending_rest shape timer, shape, List.map_cons, List.sum_cons]
    omega

/-- A round changes neither periods nor kinds. -/
theorem Periods.expires {allowed : Tick → Prop} {expiry : Expiry} {timers : Timers}
    (within : y.Periods allowed) (expired : y.timers.Expires y.now expiry timers)
    (log : List TimerEntry) : Periods allowed { y with timers, log } := by
  intro x
  have period := expired.period x
  cases expired with
  | rests => exact within x
  | @reloads head _ _ _ _ _ _ _ timer | @ends head _ _ _ _ _ timer =>
    have kind : (timers.timer x).isPeriodic = (y.timers.timer x).isPeriodic := by
      rw [timer]
      by_cases same : x = head <;> simp [same]
    intro periodic
    dsimp only at periodic ⊢
    rw [period]
    exact within x (kind ▸ periodic)

/-- With periods that advance the loop ends, after at most as many firings as
are pending. -/
theorem pass_ends (advance : y.Periods Advances) : y.LoopEnds := by
  obtain ⟨z, ended⟩ : ∃ z, rounds again (y.pending + 1) y = some z := by
    refine ends_of_variant (Periods Advances) pending ?_ advance (Nat.lt_succ_self _)
    intro y z advance fired
    refine ⟨?_, pending_again advance fired⟩
    obtain ⟨expiry, timers, expired, _, rfl⟩ := again_cases fired
    exact advance.expires expired _
  exact ⟨_, z, (pass_eq_rounds _ y).trans ended, waits_of_left (left_of_rounds ended)⟩

/-- Periodic timers get only periods that satisfy `allowed`. -/
def PeriodsIn (allowed : Tick → Prop) (y : TimerSystem) : TimerEvent → Prop
  | .init _ periodTicks isPeriodic _ _ => isPeriodic = true → allowed periodTicks
  | .reset x newPeriodTicks => (y.timers.timer x).isPeriodic = true → allowed newPeriodTicks
  | .start _ | .stop _ | .tick | .expire => True

theorem Periods.step {allowed : Tick → Prop} {event : TimerEvent} (within : y.Periods allowed)
    (meets : PeriodsIn allowed y event) (stepped : y.step event = some z) : z.Periods allowed := by
  cases step_cases stepped with
  | @inits x periodTicks isPeriodic callback arg =>
    intro other
    by_cases same : other = x
    · subst same
      simpa [Timers.setTimer, PeriodsIn] using meets
    · simpa [Timers.setTimer, same] using within other
  | @starts x _ timers started =>
    intro other
    rw [started.timer]
    by_cases same : other = x
    · subst same
      simpa using within other
    · simpa [same] using within other
  | @stops x =>
    intro other
    by_cases same : other = x
    · subst same
      unfold Timers.timerStop
      split <;> simpa [Timers.setTimer] using within other
    · unfold Timers.timerStop
      split <;> simpa [Timers.setTimer, same] using within other
  | @resets x newPeriodTicks =>
    intro other
    by_cases same : other = x
    · subst same
      simpa [Timers.timerReset, Timers.setTimer, PeriodsIn] using meets
    · simpa [Timers.timerReset, Timers.setTimer, same] using within other
  | ticks => exact within
  | expires expired => exact within.expires expired _

theorem periods_of_run {now : Tick} {allowed : Tick → Prop}
    (run : TimerRun now (PeriodsIn allowed) y) : y.Periods allowed := by
  apply run.invariant (Periods allowed)
  · intro x periodic
    cases periodic
  · intro y event z within meets stepped
    exact within.step meets stepped

/-! ## Periods that do not advance -/

/-- `x` is alone on the list and due, and its period leads nowhere. -/
structure Stuck (x : TimerId) (y : TimerSystem) : Prop where
  alone : y.timers.active.items () = [x]
  periodic : (y.timers.timer x).isPeriodic = true
  futile : ¬Advances (y.timers.timer x).periodTicks
  expiry : (y.timers.timer x).expiryTick = y.now ∨
    (y.timers.timer x).expiryTick = y.now + (y.timers.timer x).periodTicks

theorem Stuck.fires {x : TimerId} (stuck : y.Stuck x) : ∃ z, y.again = some z ∧ z.Stuck x := by
  obtain ⟨due, expiry⟩ := Timer.reload_futile _ y.now stuck.futile stuck.expiry
  obtain ⟨outcome, timers, expired⟩ := Timers.expire_defined y.timers y.now
  simp only [again, expired, Option.bind_eq_bind, Option.bind_some]
  cases Timers.expire_spec expired with
  | rests nothingDue => exact absurd (nothingDue x [] stuck.alone) (Int.not_lt.mpr due)
  | @ends head rest _ shape _ oneShot =>
    rw [stuck.alone] at shape
    cases shape
    rw [stuck.periodic] at oneShot
    cases oneShot
  | @reloads head rest next _ shape _ _ nextIs timer queued =>
    rw [stuck.alone] at shape
    cases shape
    refine ⟨_, rfl, ?_⟩
    constructor
    · exact queued
    · simpa [timer] using stuck.periodic
    · simpa [timer] using stuck.futile
    · simpa [timer, nextIs, Timer.reload] using expiry

/-- The service never leaves the loop again. -/
theorem Stuck.never {x : TimerId} (stuck : y.Stuck x) (n : Nat) : y.pass n = none := by
  rw [pass_eq_rounds]
  exact trapped (fun _ => Stuck.fires) stuck n

/-- A periodic timer started with a period that does not advance. -/
theorem stuck_of_start {x : TimerId} {period : Tick} (futile : ¬Advances period) (now : Tick)
    (callback arg : UInt32) : ∃ y z, (timerBoot now).step (.init x period true callback arg) = some y ∧
      y.step (.start x) = some z ∧ z.Stuck x := by
  have fresh : Timers.init.active.ring x = none := rfl
  let ts := Timers.init.setTimer x { periodTicks := period, isPeriodic := true, callback, arg }
  obtain ⟨becameNewHead, ts', began⟩ := ts.timerStart_defined (.inl fresh) now
  refine ⟨⟨ts, now, []⟩, ⟨ts', now, [.started x now (ts.timer x).periodTicks]⟩, ?_, ?_, ?_⟩
  · simp [step, Timers.timerInit, timerBoot, fresh, ts]
  · simp [step, began]
  · have started := Timers.timerStart_spec began
    have own : ts.timer x = { periodTicks := period, isPeriodic := true, callback, arg } := by
      simp [ts, Timers.setTimer]
    constructor
    · exact started.queued
    · simp [started.timer, own]
    · simpa [started.timer, own] using futile
    · simp [started.timer, own]

/-- The expiry loop ends in every state of every run exactly when the periods
that periodic timers are given advance. -/
theorem loop_ends_iff (allowed : Tick → Prop) :
    (∀ now y, TimerRun now (PeriodsIn allowed) y → y.LoopEnds) ↔
      ∀ period, allowed period → Advances period := by
  constructor
  · intro ends period admitted
    by_contra futile
    obtain ⟨y, z, initialised, started, stuck⟩ := stuck_of_start (x := 0) futile 0 0 0
    have starts : PeriodsIn allowed y (.start 0) := trivial
    have run : TimerRun 0 (PeriodsIn allowed) z :=
      (GuardedRun.Run.refl.next (fun _ => admitted) initialised).next starts started
    obtain ⟨n, _, ended, _⟩ := ends 0 z run
    rw [stuck.never n] at ended
    cases ended
  · intro advance now y run
    have within := periods_of_run run
    exact pass_ends fun x periodic => advance _ (within x periodic)

/-- The calls accept a periodic timer of period 0, and no number of rounds gets
the service past it. -/
theorem zero_period_loops : ∃ y,
    GuardedRun.exec step GuardedRun.Free (timerBoot 0) [.init 0 0 true 1 0, .start 0] = some y ∧
      TimerRun 0 GuardedRun.Free y ∧ ¬y.LoopEnds := by
  have futile : ¬Advances 0 := by decide
  obtain ⟨y, z, initialised, started, stuck⟩ := stuck_of_start (x := 0) futile 0 1 0
  have ran : GuardedRun.exec step GuardedRun.Free (timerBoot 0) [.init 0 0 true 1 0, .start 0] = some z := by
    simp [GuardedRun.exec, GuardedRun.Free, initialised, started]
  refine ⟨z, ran, GuardedRun.run_of_exec ran, ?_⟩
  rintro ⟨n, _, ended, _⟩
  rw [stuck.never n] at ended
  cases ended

end TimerSystem
end NimbleRtos
