import NimbleRtos.ActiveTimers

/-! Whole passes of the expiry loop. Within the window a pass leaves each timer
as that timer's own record and the time determine, whatever else is on the
list; over many passes a periodic timer that is never found more than a period
late fires once for each period that has gone by. -/
namespace NimbleRtos
open NodeRings SerialTime

namespace TimerSystem

/-- The expiry loop of `timer_task_fn` at one tick count, with callbacks that
leave the timers alone; no result if `rounds` rounds do not finish it. -/
def pass : Nat → TimerSystem → Option TimerSystem
  | 0, _ => none
  | rounds + 1, y => do
    let (expiry, timers) ← y.timers.expire y.now
    let z := { y with timers, log := expiry.entries ++ y.log }
    if expiry = .idle then some z else pass rounds z

/-- Ticks since the service was started. -/
def time (y : TimerSystem) : Nat := y.log.count .ticked

/-- How often `x` has fired. -/
def firings (y : TimerSystem) (x : TimerId) : Nat := y.log.count (.fired x)

end TimerSystem

inductive ServiceEvent where
  /-- Anything but the expiry loop. -/
  | op (event : TimerEvent)
  | pass (rounds : Nat)
  deriving DecidableEq, Repr

/-- The timer service whose passes run to completion. -/
def TimerSystem.serve (y : TimerSystem) : ServiceEvent → Option TimerSystem
  | .op event => if event = .expire then none else y.step event
  | .pass rounds => y.pass rounds

/-- Runs of the timer service whose steps all meet `guard`. -/
abbrev ServiceRun (guard : TimerSystem → ServiceEvent → Prop) : TimerSystem → TimerSystem → Prop :=
  GuardedRun.Run TimerSystem.serve guard

/-- The operation is on `x`. -/
def TimerEvent.about (x : TimerId) : TimerEvent → Bool
  | .init x' _ _ _ _ => x' = x
  | .start x' => x' = x
  | .stop x' => x' = x
  | .reset x' _ => x' = x
  | .tick => false
  | .expire => false

def ServiceEvent.about (x : TimerId) : ServiceEvent → Bool
  | .op event => event.about x
  | .pass _ => false

def ServiceEvent.isPass : ServiceEvent → Bool
  | .op _ => false
  | .pass _ => true

/-- What a pass at `now` does to a timer: how often it fires, and the timer
afterwards. -/
def Timer.settle (timer : Timer) (now : Tick) : Nat × Timer :=
  let distance := ahead timer.expiryTick now
  let period := timer.periodTicks
  if timer.isActive = false ∨ 0 < distance then (0, timer)
  else if timer.isPeriodic = false then (1, { timer with isActive := false })
  else if distance + period.toNat = 0 then (2, { timer with expiryTick := now + period })
  else if distance + period.toNat < 0 then (1, { timer with expiryTick := now + period })
  else (1, { timer with expiryTick := timer.expiryTick + period })

namespace Timer
variable (timer : Timer) (now : Tick)

theorem settle_rests (undisturbed : timer.isActive = false ∨ 0 < ahead timer.expiryTick now) :
    timer.settle now = (0, timer) := if_pos undisturbed

/-- A one-shot that is due fires and is done. -/
theorem settle_once (active : timer.isActive = true) (due : ahead timer.expiryTick now ≤ 0)
    (oneShot : timer.isPeriodic = false) :
    timer.settle now = (1, { timer with isActive := false }) := by
  simp [settle, active, Int.not_lt.mpr due, oneShot]

theorem settle_missed (active : timer.isActive = true) (due : ahead timer.expiryTick now ≤ 0)
    (periodic : timer.isPeriodic = true)
    (missed : ahead timer.expiryTick now + timer.periodTicks.toNat < 0) :
    timer.settle now = (1, { timer with expiryTick := now + timer.periodTicks }) := by
  simp [settle, active, Int.not_lt.mpr due, periodic, missed, Int.ne_of_lt missed]

theorem settle_exact (active : timer.isActive = true) (due : ahead timer.expiryTick now ≤ 0)
    (periodic : timer.isPeriodic = true)
    (exact_period : ahead timer.expiryTick now + timer.periodTicks.toNat = 0) :
    timer.settle now = (2, { timer with expiryTick := now + timer.periodTicks }) := by
  simp [settle, active, Int.not_lt.mpr due, periodic, exact_period]

theorem settle_within (active : timer.isActive = true) (due : ahead timer.expiryTick now ≤ 0)
    (periodic : timer.isPeriodic = true)
    (within : 0 < ahead timer.expiryTick now + timer.periodTicks.toNat) :
    timer.settle now = (1, { timer with expiryTick := timer.expiryTick + timer.periodTicks }) := by
  have nonzero : ¬ahead timer.expiryTick now + timer.periodTicks.toNat = 0 := by omega
  have caught : ¬ahead timer.expiryTick now + timer.periodTicks.toNat < 0 := by omega
  simp [settle, active, Int.not_lt.mpr due, periodic, nonzero, caught]

/-- A round that reloads the timer does one firing's share of the pass. -/
theorem settle_reload {next : Tick} (active : timer.isActive = true)
    (due : ahead timer.expiryTick now ≤ 0) (periodic : timer.isPeriodic = true)
    (positive : 0 < timer.periodTicks.toNat) (short : timer.periodTicks.toNat < 2 ^ 31)
    (nextIs : next = if ahead (timer.expiryTick + timer.periodTicks) now < 0
      then now + timer.periodTicks else timer.expiryTick + timer.periodTicks) :
    timer.settle now = (({ timer with expiryTick := next }.settle now).1 + 1,
      ({ timer with expiryTick := next }.settle now).2) := by
  rcases TimerSystem.Ordered.reloaded due short nextIs with
    ⟨missed, nextIs, later⟩ | ⟨caught, nextIs, later⟩
  · have soon : 0 < ahead next now := by omega
    rw [settle_missed timer now active due periodic missed,
      settle_rests { timer with expiryTick := next } now (.inr soon), nextIs]
  · rcases Int.lt_or_eq_of_le caught with within | exact_period
    · have soon : 0 < ahead next now := by omega
      rw [settle_within timer now active due periodic within,
        settle_rests { timer with expiryTick := next } now (.inr soon), nextIs]
    · have again : ahead next now = 0 := later.trans exact_period.symm
      have at_now : next = now := ahead_inj.mp (again.trans (ahead_self now).symm)
      have in_time : 0 < ahead next now + timer.periodTicks.toNat := by omega
      rw [settle_exact timer now active due periodic exact_period.symm,
        settle_within { timer with expiryTick := next } now active (Int.le_of_eq again)
          periodic in_time, at_now]

/-- A periodic timer at most a period late is reloaded until it lies less than
a period ahead, keeping its phase. -/
theorem settle_punctual (active : timer.isActive = true) (periodic : timer.isPeriodic = true)
    (positive : 0 < timer.periodTicks.toNat) (short : timer.periodTicks.toNat < 2 ^ 31)
    (near : ahead timer.expiryTick now ≤ timer.periodTicks.toNat)
    (punctual : -timer.periodTicks.toNat ≤ ahead timer.expiryTick now) :
    ∃ (fires : Nat) (next : Tick), timer.settle now = (fires, { timer with expiryTick := next }) ∧
      ahead next now = ahead timer.expiryTick now + (fires * timer.periodTicks.toNat : Nat) ∧
      0 < ahead next now ∧ ahead next now ≤ timer.periodTicks.toNat := by
  rcases Int.lt_or_le 0 (ahead timer.expiryTick now) with early | due
  · exact ⟨0, timer.expiryTick, settle_rests timer now (.inr early), by simp, early, near⟩
  · have in_reach : 0 ≤ ahead timer.expiryTick now + timer.periodTicks.toNat := by omega
    rcases Int.lt_or_eq_of_le in_reach with within | exact_period
    · have later := ahead_add timer.expiryTick now timer.periodTicks (by omega)
      refine ⟨1, timer.expiryTick + timer.periodTicks, settle_within timer now active due periodic within, ?_⟩
      omega
    · have later := ahead_add now now timer.periodTicks (by rw [ahead_self]; omega)
      rw [ahead_self] at later
      refine ⟨2, now + timer.periodTicks, settle_exact timer now active due periodic exact_period.symm, ?_⟩
      omega

theorem settle_keeps : (timer.settle now).2.periodTicks = timer.periodTicks ∧
    (timer.settle now).2.isPeriodic = timer.isPeriodic ∧
    (timer.isPeriodic = true → (timer.settle now).2.isActive = timer.isActive) := by
  simp only [settle]
  split
  · exact ⟨rfl, rfl, fun _ => rfl⟩
  · split
    · rename_i oneShot
      exact ⟨rfl, rfl, fun periodic => by rw [oneShot] at periodic; cases periodic⟩
    · split
      · exact ⟨rfl, rfl, fun _ => rfl⟩
      · split <;> exact ⟨rfl, rfl, fun _ => rfl⟩

end Timer

namespace TimerSystem
variable {y z : TimerSystem} {x : TimerId}

@[simp] theorem fires_entries {head : TimerId} {callback arg : UInt32} :
    (Expiry.fires head callback arg).entries = [.fired head] := rfl

/-- A round that fires `x` does one firing's share of the pass, and a round
that fires another timer does none of it. -/
theorem settle_round {expiry : Expiry} {timers : Timers} (ordered : y.Ordered)
    (window : y.InWindow) (expired : y.timers.Expires y.now expiry timers)
    (positive : 0 < (y.timers.timer x).periodTicks.toNat) :
    (y.timers.timer x).settle y.now = (((timers.timer x).settle y.now).1 +
      expiry.entries.count (.fired x), ((timers.timer x).settle y.now).2) := by
  cases expired with
  | rests => rfl
  | @reloads head rest next timers shape due periodic nextIs timer queued =>
    by_cases same : x = head
    · subst same
      have listed : x ∈ y.timers.active.items () := by simp [shape]
      have active := (ordered.active x).mp listed
      have inside := window x listed x listed
      simp only [timer, Function.update_self, fires_entries, List.count_cons_self, List.count_nil]
      exact Timer.settle_reload _ _ active due periodic positive (by omega) nextIs
    · have other : TimerEntry.fired head ≠ TimerEntry.fired x := by simpa using Ne.symm same
      simp [timer, Function.update_of_ne same, other]
  | @ends head rest timers shape due oneShot timer items =>
    by_cases same : x = head
    · subst same
      have active := (ordered.active x).mp (by simp [shape])
      rw [timer, Function.update_self, Timer.settle_once _ _ active due oneShot,
        Timer.settle_rests _ _ (.inl rfl), fires_entries, List.count_cons_self, List.count_nil]
    · have other : TimerEntry.fired head ≠ TimerEntry.fired x := by simpa using Ne.symm same
      simp [timer, Function.update_of_ne same, other]

/-- What a pass from `y` leaves behind. -/
structure Settled (y z : TimerSystem) : Prop where
  ordered : z.Ordered
  window : z.InWindow
  now : z.now = y.now
  time : z.time = y.time
  nothingDue : ∀ x, (z.timers.timer x).isActive = true → 0 < z.distance x
  own : ∀ x, 0 < (y.timers.timer x).periodTicks.toNat →
    z.firings x = y.firings x + ((y.timers.timer x).settle y.now).1 ∧
      z.timers.timer x = ((y.timers.timer x).settle y.now).2

theorem pass_settles {rounds : Nat} (ordered : y.Ordered) (window : y.InWindow)
    (passed : y.pass rounds = some z) : y.Settled z := by
  induction rounds generalizing y with
  | zero => cases passed
  | succ rounds ih =>
    simp only [pass, Option.bind_eq_bind, Option.bind_eq_some_iff, Prod.exists] at passed
    obtain ⟨expiry, timers, expired, passed⟩ := passed
    have stepped : y.step .expire = some { y with timers, log := expiry.entries ++ y.log } := by
      simp [TimerSystem.step, expired]
    have expired := Timers.expire_spec expired
    have ordered' := ordered.step (comparable_expire window) stepped
    have window' := Ordered.window_expire window expired
    split at passed
    · rename_i idle
      subst idle
      cases passed
      cases expired with
      | rests nothingDue =>
        have nothingDue : ∀ x, (y.timers.timer x).isActive = true → 0 < y.distance x :=
          fun x active => ordered.rests (.rests nothingDue) active
        refine ⟨ordered', window', rfl, rfl, nothingDue, ?_⟩
        intro x _
        have resting : (y.timers.timer x).settle y.now = (0, y.timers.timer x) := by
          apply Timer.settle_rests
          cases active : (y.timers.timer x).isActive with
          | false => exact .inl rfl
          | true => exact .inr (nothingDue x active)
        rw [resting]
        exact ⟨rfl, rfl⟩
    · have rest := ih ordered' window' passed
      have ticks : expiry.entries.count .ticked = 0 := by cases expiry <;> simp [Expiry.entries]
      refine ⟨rest.ordered, rest.window, rest.now, ?_, rest.nothingDue, ?_⟩
      · rw [rest.time]
        simp [TimerSystem.time, ticks]
      · intro x positive
        have share := settle_round ordered window expired positive
        obtain ⟨count, timer⟩ := rest.own x (by rwa [expired.period])
        rw [share]
        refine ⟨?_, timer⟩
        rw [count]
        simp only [firings, List.count_append]
        omega

/-- Every step of the service that starts and ends within the window keeps
the order. -/
theorem serve_ordered {event : ServiceEvent} (ordered : y.Ordered) (window : y.InWindow)
    (served : y.serve event = some z) (after : z.InWindow) : z.Ordered := by
  cases event with
  | op event =>
    simp only [serve] at served
    split at served
    · cases served
    · exact ordered.step (comparable_of_window window served after) served
  | pass rounds => exact (pass_settles ordered window served).ordered

theorem ordered_of_service {guard : TimerSystem → ServiceEvent → Prop} (run : ServiceRun guard y z)
    (inside : ∀ y event, guard y event → y.InWindow) (ordered : y.InWindow → y.Ordered) :
    z.InWindow → z.Ordered := by
  induction run with
  | refl => exact ordered
  | next _ meets served ih =>
    have before := inside _ _ meets
    exact serve_ordered (ih before) before served

/-- What holds at the start and is kept by steps from ordered states holds
throughout a run within the window. -/
theorem service_invariant {guard : TimerSystem → ServiceEvent → Prop} {Inv : TimerSystem → Prop}
    (run : ServiceRun guard y z) (inside : ∀ y event, guard y event → y.InWindow)
    (ordered : y.InWindow → y.Ordered) (init : y.InWindow → Inv y)
    (kept : ∀ s event t, Inv s → guard s event → s.Ordered → s.serve event = some t → Inv t) :
    z.InWindow → Inv z := by
  induction run with
  | refl => exact init
  | next before meets served ih =>
    intro _
    have window := inside _ _ meets
    exact kept _ _ _ (ih window) meets (ordered_of_service before inside ordered window) served

/-! ## One timer over many passes -/

/-- Steps within the window that are not operations on `x`. -/
def Leaves (x : TimerId) (y : TimerSystem) (event : ServiceEvent) : Prop :=
  y.InWindow ∧ event.about x = false

/-- No pass finds `x` more than a period late. -/
def Punctual (x : TimerId) (y : TimerSystem) (event : ServiceEvent) : Prop :=
  y.Leaves x event ∧ (event.isPass = true → y.overdue x ≤ (y.timers.timer x).periodTicks.toNat)

/-- No pass before `deadline` ticks are over. -/
def Before (deadline : Nat) (x : TimerId) (y : TimerSystem) (event : ServiceEvent) : Prop :=
  y.Leaves x event ∧ (event.isPass = true → y.time < deadline)

instance (x : TimerId) (y : TimerSystem) (event : ServiceEvent) : Decidable (y.Punctual x event) :=
  inferInstanceAs (Decidable ((y.InWindow ∧ event.about x = false) ∧
    (event.isPass = true → y.overdue x ≤ (y.timers.timer x).periodTicks.toNat)))

/-- A step that is not an operation on `x` is a pass or leaves `x` alone. -/
theorem serve_leaves {event : ServiceEvent} (served : y.serve event = some z)
    (other : event.about x = false) :
    (∃ rounds, event = .pass rounds ∧ y.pass rounds = some z) ∨
      z.timers.timer x = y.timers.timer x ∧ z.firings x = y.firings x ∧
        (z.now = y.now ∧ z.time = y.time ∨ z.now = y.now + 1 ∧ z.time = y.time + 1) := by
  cases event with
  | pass rounds => exact .inl ⟨rounds, rfl, served⟩
  | op event =>
    right
    simp only [serve] at served
    split at served
    · cases served
    · rename_i notExpire
      cases step_cases served with
      | expires => exact absurd rfl notExpire
      | ticks => exact ⟨rfl, by simp [firings], .inr ⟨rfl, by simp [time]⟩⟩
      | @inits x' =>
        have other : x ≠ x' := by simpa [ServiceEvent.about, TimerEvent.about, eq_comm] using other
        exact ⟨by simp [Timers.setTimer, other], rfl, .inl ⟨rfl, rfl⟩⟩
      | @starts x' _ _ started =>
        have other : x ≠ x' := by simpa [ServiceEvent.about, TimerEvent.about, eq_comm] using other
        exact ⟨by simp [started.timer, other], by simp [firings], .inl ⟨rfl, by simp [time]⟩⟩
      | @stops x' =>
        have other : x ≠ x' := by simpa [ServiceEvent.about, TimerEvent.about, eq_comm] using other
        refine ⟨?_, rfl, .inl ⟨rfl, rfl⟩⟩
        simp only [Timers.timerStop]
        split <;> simp [Timers.setTimer, other]
      | @resets x' =>
        have other : x ≠ x' := by simpa [ServiceEvent.about, TimerEvent.about, eq_comm] using other
        exact ⟨by simp [Timers.timerReset, Timers.setTimer, other], rfl, .inl ⟨rfl, rfl⟩⟩

/-- A timer and the time gone by since `y` ran `nimble_timer_start` on it. -/
structure Since (y : TimerSystem) (x : TimerId) (w : TimerSystem) : Prop where
  period : (w.timers.timer x).periodTicks = (y.timers.timer x).periodTicks
  kind : (w.timers.timer x).isPeriodic = (y.timers.timer x).isPeriodic
  later : y.time ≤ w.time
  clock : w.now = y.now + .ofNat (w.time - y.time)
  fewer : y.firings x ≤ w.firings x
  armed : (y.timers.timer x).isPeriodic = true → (w.timers.timer x).isActive = true

variable {w : TimerSystem}

theorem Since.step {event : ServiceEvent} (since : y.Since x w) (leaves : w.Leaves x event)
    (ordered : w.Ordered) (positive : 0 < (y.timers.timer x).periodTicks.toNat)
    (served : w.serve event = some z) : y.Since x z := by
  obtain ⟨period, kind, later, clock, fewer, armed⟩ := since
  rcases serve_leaves served leaves.2 with ⟨rounds, _, passed⟩ | ⟨timer, firings, time⟩
  · have settled := pass_settles ordered leaves.1 passed
    obtain ⟨more, timer⟩ := settled.own x (by rwa [period])
    have keeps := (w.timers.timer x).settle_keeps w.now
    rw [← timer] at keeps
    refine ⟨keeps.1.trans period, keeps.2.1.trans kind, ?_, ?_, by omega, ?_⟩
    · rwa [settled.time]
    · rw [settled.now, settled.time, clock]
    · intro periodic
      exact (keeps.2.2 (kind.trans periodic)).trans (armed periodic)
  · refine ⟨by rw [timer, period], by rw [timer, kind], ?_, ?_, by rwa [firings], by rwa [timer]⟩
    · omega
    · rcases time with ⟨now, time⟩ | ⟨now, time⟩
      · rw [now, time, clock]
      · have : z.time - y.time = w.time - y.time + 1 := by omega
        rw [now, this, clock, UInt32.ofNat_add, UInt32.add_assoc]
        rfl

/-- A periodic timer that has kept its phase. -/
structure InPhase (y : TimerSystem) (x : TimerId) (w : TimerSystem) : Prop extends y.Since x w where
  active : (w.timers.timer x).isActive = true
  phase : w.distance x = ((w.firings x - y.firings x + 1) * (y.timers.timer x).periodTicks.toNat : Nat) -
    (w.time - y.time : Nat)
  near : w.distance x ≤ (y.timers.timer x).periodTicks.toNat

/-- The part of a pass in keeping the phase. -/
theorem InPhase.pass {rounds : Nat} (phase : y.InPhase x w) (ordered : w.Ordered) (window : w.InWindow)
    (periodic : (y.timers.timer x).isPeriodic = true)
    (positive : 0 < (y.timers.timer x).periodTicks.toNat)
    (punctual : w.overdue x ≤ (y.timers.timer x).periodTicks.toNat)
    (passed : w.pass rounds = some z) : y.InPhase x z ∧ 0 < z.distance x := by
  have leaves : w.Leaves x (.pass rounds) := ⟨window, rfl⟩
  have since := phase.toSince.step leaves ordered positive passed
  have settled := pass_settles ordered window passed
  obtain ⟨more, timer⟩ := settled.own x (by rwa [phase.period])
  have listed := (ordered.active x).mpr phase.active
  have inside := window x listed x listed
  have late := w.overdue_spec x
  have near := phase.near
  have fewer := phase.fewer
  have at_start := phase.phase
  rw [← phase.period] at near punctual positive at_start
  obtain ⟨fires, next, settles, distance, soon, short⟩ := Timer.settle_punctual _ _ phase.active
    (phase.kind.trans periodic) positive (by omega) near (by unfold TimerSystem.distance at late; omega)
  rw [settles] at more timer
  have distance' : z.distance x = ahead next w.now := by
    rw [TimerSystem.distance, timer, settled.now]
  refine ⟨⟨since, ?_, ?_, ?_⟩, by omega⟩
  · rw [timer]
    exact phase.active
  · rw [distance', distance, settled.time, ← phase.period]
    have count : z.firings x - y.firings x + 1 = w.firings x - y.firings x + 1 + fires := by omega
    rw [count, Nat.add_mul]
    unfold TimerSystem.distance at at_start
    omega
  · rw [distance', ← phase.period]
    exact short

/-- Time passing brings a timer within the window nearer by a tick. -/
theorem distance_leaves {event : ServiceEvent} (served : w.serve event = some z)
    (other : event.about x = false) (operation : event.isPass = false) (window : w.InWindow)
    (ordered : w.Ordered) (active : (w.timers.timer x).isActive = true) :
    z.timers.timer x = w.timers.timer x ∧ z.firings x = w.firings x ∧ w.time ≤ z.time ∧
      z.distance x = w.distance x - (z.time - w.time : Nat) := by
  rcases serve_leaves served other with ⟨rounds, rfl, _⟩ | ⟨timer, firings, time⟩
  · cases operation
  · refine ⟨timer, firings, by omega, ?_⟩
    have listed := (ordered.active x).mpr active
    have inside := window x listed x listed
    have late := w.overdue_spec x
    unfold distance at *
    rcases time with ⟨now, time⟩ | ⟨now, time⟩
    · rw [timer, now]
      omega
    · rw [timer, now, ahead_succ _ w.now (by omega)]
      omega

theorem InPhase.step {event : ServiceEvent} (phase : y.InPhase x w) (meets : w.Punctual x event)
    (ordered : w.Ordered) (periodic : (y.timers.timer x).isPeriodic = true)
    (positive : 0 < (y.timers.timer x).periodTicks.toNat) (served : w.serve event = some z) :
    y.InPhase x z := by
  obtain ⟨⟨window, other⟩, punctual⟩ := meets
  cases event with
  | pass rounds =>
    have punctual := punctual rfl
    rw [phase.period] at punctual
    exact (phase.pass ordered window periodic positive punctual served).1
  | op event =>
    have since := phase.toSince.step ⟨window, other⟩ ordered positive served
    obtain ⟨timer, firings, later, distance⟩ :=
      distance_leaves served other rfl window ordered phase.active
    have at_start := phase.phase
    have near := phase.near
    have earlier := phase.later
    refine ⟨since, by rw [timer, phase.active], ?_, by omega⟩
    rw [firings]
    omega

/-- A one-shot that has not come due in any pass yet. -/
structure Pending (y : TimerSystem) (x : TimerId) (w : TimerSystem) : Prop extends y.Since x w where
  active : (w.timers.timer x).isActive = true
  unfired : w.firings x = y.firings x
  remaining : w.distance x = (y.timers.timer x).periodTicks.toNat - (w.time - y.time : Nat)

theorem Pending.step {event : ServiceEvent} (pending : y.Pending x w)
    (meets : w.Before (y.time + (y.timers.timer x).periodTicks.toNat) x event) (ordered : w.Ordered)
    (positive : 0 < (y.timers.timer x).periodTicks.toNat) (served : w.serve event = some z) :
    y.Pending x z := by
  obtain ⟨⟨window, other⟩, early⟩ := meets
  have since := pending.toSince.step ⟨window, other⟩ ordered positive served
  have remaining := pending.remaining
  cases event with
  | pass rounds =>
    have early := early rfl
    have settled := pass_settles ordered window served
    have soon : 0 < w.distance x := by omega
    obtain ⟨more, timer⟩ := settled.own x (by rwa [pending.period])
    rw [Timer.settle_rests _ _ (.inr soon)] at more timer
    refine ⟨since, by rw [timer, pending.active], more.trans pending.unfired, ?_⟩
    rw [distance, timer, settled.now, settled.time]
    exact remaining
  | op event =>
    obtain ⟨timer, firings, later, distance⟩ :=
      distance_leaves served other rfl window ordered pending.active
    have earlier := pending.later
    refine ⟨since, by rw [timer, pending.active], firings.trans pending.unfired, ?_⟩
    omega

/-- A one-shot that has fired. -/
structure Spent (y : TimerSystem) (x : TimerId) (w : TimerSystem) : Prop where
  period : (w.timers.timer x).periodTicks = (y.timers.timer x).periodTicks
  inactive : (w.timers.timer x).isActive = false
  fired : w.firings x = y.firings x + 1

theorem Spent.step {event : ServiceEvent} (spent : y.Spent x w) (leaves : w.Leaves x event)
    (ordered : w.Ordered) (positive : 0 < (y.timers.timer x).periodTicks.toNat)
    (served : w.serve event = some z) : y.Spent x z := by
  obtain ⟨period, inactive, fired⟩ := spent
  rcases serve_leaves served leaves.2 with ⟨rounds, _, passed⟩ | ⟨timer, firings, _⟩
  · obtain ⟨more, timer⟩ := (pass_settles ordered leaves.1 passed).own x (by rwa [period])
    rw [Timer.settle_rests _ _ (.inl inactive)] at more timer
    exact ⟨by rw [timer, period], by rw [timer, inactive], more.trans fired⟩
  · exact ⟨by rw [timer, period], by rw [timer, inactive], firings.trans fired⟩

/-- `nimble_timer_start` sets the timer a period ahead. -/
theorem start_fresh (served : y.serve (.op (.start x)) = some z) (ordered : y.Ordered)
    (window : z.InWindow) : z.Ordered ∧ y.Since x z ∧ (z.timers.timer x).isActive = true ∧
      z.firings x = y.firings x ∧ z.time = y.time ∧
      z.distance x = (y.timers.timer x).periodTicks.toNat := by
  simp only [serve, reduceCtorEq, if_false] at served
  cases step_cases served with
  | @starts _ becameNewHead timers starting =>
    have ordered := ordered.step (comparable_start served window) served
    have timer : timers.timer x = { y.timers.timer x with
        expiryTick := y.now + (y.timers.timer x).periodTicks, isActive := true } := by
      rw [starting.timer, Function.update_self]
    have active : (timers.timer x).isActive = true := by rw [timer]
    have listed := (ordered.active x).mpr active
    have inside := window x listed x listed
    have distance := ahead_add y.now y.now (y.timers.timer x).periodTicks
    rw [ahead_self] at distance
    simp only [timer] at inside
    refine ⟨ordered, ⟨by simp [timer], by simp [timer], ?_, ?_, ?_, fun _ => active⟩, active, ?_, ?_, ?_⟩
    · simp [time]
    · simp [time]
    · simp [firings]
    · simp [firings]
    · simp [time]
    · simp only [TimerSystem.distance, timer]
      omega

/-- What becomes of a timer that `y` started, `y'` being the state after. -/
structure Scheduled (y y' : TimerSystem) (x : TimerId) : Prop where
  /-- Never found more than a period late, it has fired once for each period. -/
  onTime : (y.timers.timer x).isPeriodic = true → ∀ {w z rounds}, ServiceRun (Punctual x) y' w →
    w.InWindow → w.overdue x ≤ (y.timers.timer x).periodTicks.toNat → w.pass rounds = some z →
    z.firings x = y.firings x + (z.time - y.time) / (y.timers.timer x).periodTicks.toNat ∧
      (z.timers.timer x).expiryTick =
        y.now + .ofNat ((z.firings x - y.firings x + 1) * (y.timers.timer x).periodTicks.toNat) ∧
      0 < z.distance x
  /-- Found later than that it fires once and begins anew from now. -/
  caughtUp : (y.timers.timer x).isPeriodic = true → ∀ {w z rounds}, ServiceRun (Leaves x) y' w →
    w.InWindow → (y.timers.timer x).periodTicks.toNat < w.overdue x → w.pass rounds = some z →
    z.firings x = w.firings x + 1 ∧
      (z.timers.timer x).expiryTick = z.now + (y.timers.timer x).periodTicks
  /-- A one-shot fires in the first pass at which it is due and never again. -/
  once : (y.timers.timer x).isPeriodic = false → ∀ {w z v rounds},
    ServiceRun (Before (y.time + (y.timers.timer x).periodTicks.toNat) x) y' w → w.InWindow →
    y.time + (y.timers.timer x).periodTicks.toNat ≤ w.time → w.pass rounds = some z →
    ServiceRun (Leaves x) z v → v.InWindow →
    w.firings x = y.firings x ∧ z.firings x = y.firings x + 1 ∧ v.firings x = y.firings x + 1 ∧
      (z.timers.timer x).isActive = false ∧ (v.timers.timer x).isActive = false
  /-- What a pass does to it does not depend on the other timers. -/
  alone : ∀ {now w z w' z' rounds rounds'}, ServiceRun (Leaves x) y' w → w.InWindow →
    w.pass rounds = some z → ServiceRun (fun y _ => y.InWindow) (timerBoot now) w' → w'.InWindow →
    w'.pass rounds' = some z' → w'.now = w.now → w'.timers.timer x = w.timers.timer x →
    z'.timers.timer x = z.timers.timer x ∧
      ∃ fires, z.firings x = w.firings x + fires ∧ z'.firings x = w'.firings x + fires

private theorem on_time {y' : TimerSystem} {rounds : Nat} (ordered : y.Ordered)
    (started : y.serve (.op (.start x)) = some y')
    (positive : 0 < (y.timers.timer x).periodTicks.toNat)
    (periodic : (y.timers.timer x).isPeriodic = true) (run : ServiceRun (Punctual x) y' w)
    (window : w.InWindow) (punctual : w.overdue x ≤ (y.timers.timer x).periodTicks.toNat)
    (passed : w.pass rounds = some z) :
    z.firings x = y.firings x + (z.time - y.time) / (y.timers.timer x).periodTicks.toNat ∧
      (z.timers.timer x).expiryTick =
        y.now + .ofNat ((z.firings x - y.firings x + 1) * (y.timers.timer x).periodTicks.toNat) ∧
      0 < z.distance x := by
  have fresh := start_fresh started ordered
  have inside : ∀ s event, Punctual x s event → s.InWindow := fun _ _ meets => meets.1.1
  have ordered' := ordered_of_service run inside (fun window => (fresh window).1) window
  have phase : y.InPhase x w := by
    refine service_invariant run inside (fun window => (fresh window).1) ?_ ?_ window
    · intro window
      obtain ⟨_, since, active, firings, time, distance⟩ := fresh window
      refine ⟨since, active, ?_, by omega⟩
      rw [distance, firings, time]
      simp
    · intro s event t phase meets ordered served
      exact phase.step meets ordered periodic positive served
  obtain ⟨phase', ahead_of_now⟩ := phase.pass ordered' window periodic positive punctual passed
  have at_end := phase'.phase
  have near := phase'.near
  have fewer := phase'.fewer
  have count : (z.time - y.time) / (y.timers.timer x).periodTicks.toNat =
      z.firings x - y.firings x := by
    rw [Nat.add_mul] at at_end
    apply Nat.div_eq_of_lt_le
    · omega
    · rw [Nat.add_mul]
      omega
  refine ⟨by omega, ?_, ahead_of_now⟩
  exact eq_of_ahead phase'.clock at_end

/-- What a timer keeps through a run that leaves it alone. -/
theorem since_of_run {y' : TimerSystem} (ordered : y.Ordered)
    (started : y.serve (.op (.start x)) = some y')
    (positive : 0 < (y.timers.timer x).periodTicks.toNat) (run : ServiceRun (Leaves x) y' w)
    (window : w.InWindow) : w.Ordered ∧ y.Since x w := by
  have fresh := start_fresh started ordered
  have inside : ∀ s event, Leaves x s event → s.InWindow := fun _ _ meets => meets.1
  refine ⟨ordered_of_service run inside (fun window => (fresh window).1) window, ?_⟩
  refine service_invariant run inside (fun window => (fresh window).1)
    (fun window => (fresh window).2.1) ?_ window
  intro s event t since meets ordered served
  exact since.step meets ordered positive served

private theorem caught_up {rounds : Nat} (ordered : w.Ordered) (since : y.Since x w)
    (positive : 0 < (y.timers.timer x).periodTicks.toNat)
    (periodic : (y.timers.timer x).isPeriodic = true)
    (window : w.InWindow) (late : (y.timers.timer x).periodTicks.toNat < w.overdue x)
    (passed : w.pass rounds = some z) :
    z.firings x = w.firings x + 1 ∧
      (z.timers.timer x).expiryTick = z.now + (y.timers.timer x).periodTicks := by
  have settled := pass_settles ordered window passed
  rw [← since.period] at late positive
  obtain ⟨more, timer⟩ := settled.own x positive
  have missed : ahead (w.timers.timer x).expiryTick w.now + (w.timers.timer x).periodTicks.toNat < 0 := by
    unfold overdue distance at late
    omega
  rw [Timer.settle_missed _ _ (since.armed periodic) (by omega) (since.kind.trans periodic) missed]
    at more timer
  refine ⟨more, ?_⟩
  rw [timer, settled.now, ← since.period]

private theorem fires_once {y' v : TimerSystem} {rounds : Nat} (ordered : y.Ordered)
    (started : y.serve (.op (.start x)) = some y')
    (positive : 0 < (y.timers.timer x).periodTicks.toNat)
    (oneShot : (y.timers.timer x).isPeriodic = false)
    (early : ServiceRun (Before (y.time + (y.timers.timer x).periodTicks.toNat) x) y' w)
    (window : w.InWindow) (due : y.time + (y.timers.timer x).periodTicks.toNat ≤ w.time)
    (passed : w.pass rounds = some z) (later : ServiceRun (Leaves x) z v) (after : v.InWindow) :
    w.firings x = y.firings x ∧ z.firings x = y.firings x + 1 ∧ v.firings x = y.firings x + 1 ∧
      (z.timers.timer x).isActive = false ∧ (v.timers.timer x).isActive = false := by
  have fresh := start_fresh started ordered
  have inside : ∀ s event,
      Before (y.time + (y.timers.timer x).periodTicks.toNat) x s event → s.InWindow :=
    fun _ _ meets => meets.1.1
  have ordered' := ordered_of_service early inside (fun window => (fresh window).1) window
  have pending : y.Pending x w := by
    refine service_invariant early inside (fun window => (fresh window).1) ?_ ?_ window
    · intro window
      obtain ⟨_, since, active, firings, time, distance⟩ := fresh window
      refine ⟨since, active, firings, ?_⟩
      rw [distance, time]
      simp
    · intro s event t pending meets ordered served
      exact pending.step meets ordered positive served
  have settled := pass_settles ordered' window passed
  obtain ⟨more, timer⟩ := settled.own x (by rwa [pending.period])
  have remaining := pending.remaining
  have reached : ahead (w.timers.timer x).expiryTick w.now ≤ 0 := by
    unfold distance at remaining
    omega
  rw [Timer.settle_once _ _ pending.active reached (pending.kind.trans oneShot)] at more timer
  have unfired := pending.unfired
  have spent : y.Spent x z := ⟨by rw [timer, pending.period], by rw [timer], by omega⟩
  have still : y.Spent x v := by
    refine service_invariant later (fun _ _ meets => meets.1) (fun _ => settled.ordered)
      (fun _ => spent) ?_ after
    intro s event t spent meets ordered served
    exact spent.step meets ordered positive served
  exact ⟨unfired, spent.fired, still.fired, spent.inactive, still.inactive⟩

/-- In every run of passes within the window a timer keeps its schedule. -/
theorem schedule_kept {now : Tick} {y' : TimerSystem}
    (run : ServiceRun (fun y _ => y.InWindow) (timerBoot now) y) (window : y.InWindow)
    (started : y.serve (.op (.start x)) = some y')
    (positive : 0 < (y.timers.timer x).periodTicks.toNat) : y.Scheduled y' x := by
  have ordered := ordered_of_service run (fun _ _ inside => inside) (fun _ => ordered_boot now) window
  constructor
  · intro periodic w z rounds run window punctual passed
    exact on_time ordered started positive periodic run window punctual passed
  · intro periodic w z rounds run window late passed
    obtain ⟨ordered', since⟩ := since_of_run ordered started positive run window
    exact caught_up ordered' since positive periodic window late passed
  · intro oneShot w z v rounds early window due passed later after
    exact fires_once ordered started positive oneShot early window due passed later after
  · intro now w z w' z' rounds rounds' run window passed run' window' passed' clock same
    obtain ⟨ordered', since⟩ := since_of_run ordered started positive run window
    have other := ordered_of_service run' (fun _ _ inside => inside) (fun _ => ordered_boot now) window'
    obtain ⟨count, timer⟩ := (pass_settles ordered' window passed).own x (by rwa [since.period])
    obtain ⟨count', timer'⟩ := (pass_settles other window' passed').own x (by rwa [same, since.period])
    rw [same, clock] at count' timer'
    exact ⟨timer'.trans timer.symm, _, count, count'⟩

set_option maxRecDepth 20000 in
/-- The first pass comes a whole period late, across the wrap, and makes up for
both periods. -/
theorem schedule_kept_across_wrap : ∃ y y' w z,
    ServiceRun (fun y _ => y.InWindow) (timerBoot 0xFFFFFFFE) y ∧ y.Scheduled y' 0 ∧
      ServiceRun (Punctual 0) y' w ∧ w.pass 3 = some z ∧ z.time = y.time + 6 ∧
      z.firings 0 = y.firings 0 + 2 := by
  obtain ⟨y, run, rest⟩ : ∃ y, ServiceRun (fun y _ => y.InWindow) (timerBoot 0xFFFFFFFE) y ∧
      decide (y.InWindow ∧ (y.timers.timer 0).periodTicks.toNat = 3 ∧
        (y.timers.timer 0).isPeriodic = true ∧
        (y.serve (.op (.start 0))).any fun y' =>
          (GuardedRun.exec serve (Punctual 0) y' (List.replicate 6 (.op .tick))).any fun w =>
            w.InWindow ∧ w.overdue 0 ≤ 3 ∧ (w.pass 3).any fun z => z.time = y.time + 6) = true :=
    GuardedRun.reaches_of_exec [.op (.init 0 3 true 1 0), .op .tick] _ (by decide +kernel)
  obtain ⟨window, period, periodic, rest⟩ := of_decide_eq_true rest
  obtain ⟨y', started, rest⟩ := (Option.any_eq_true _ _).mp rest
  obtain ⟨w, ran, rest⟩ := (Option.any_eq_true _ _).mp rest
  obtain ⟨inside, punctual, rest⟩ := of_decide_eq_true rest
  obtain ⟨z, passed, time⟩ := (Option.any_eq_true _ _).mp rest
  have time : z.time = y.time + 6 := of_decide_eq_true time
  have scheduled := schedule_kept run window started (by omega)
  have waited := GuardedRun.run_of_exec ran
  obtain ⟨firings, _⟩ := scheduled.onTime periodic waited inside (by omega) passed
  refine ⟨y, y', w, z, run, scheduled, waited, passed, time, ?_⟩
  rw [firings, time, period, Nat.add_sub_cancel_left]

end TimerSystem
end NimbleRtos
