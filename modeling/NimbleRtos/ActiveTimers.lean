import NimbleRtos.TimerService

/-! The list of active timers in its order. Expiry ticks are compared by signed
difference, which orders them only while they lie less than half the range
apart; the window keeps them there, and the order is by distance from now,
then by insertion. -/
namespace NimbleRtos
open NodeRings SerialTime Recency

/-- The entry tells that `x` was put on the list. -/
def TimerEntry.inserts (x : TimerId) : TimerEntry → Bool
  | .ticked => false
  | .started x' _ _ => x' = x
  | .fired x' => x' = x

namespace TimerSystem

/-- `(int32_t)(expiry_tick - now)`. -/
def distance (y : TimerSystem) (x : TimerId) : Int := ahead (y.timers.timer x).expiryTick y.now

/-- By how many ticks `x` is late. -/
def overdue (y : TimerSystem) (x : TimerId) : Nat := (-y.distance x).toNat

/-- When `x` was last put on the list. -/
def inserted (y : TimerSystem) (x : TimerId) : Nat := latest (TimerEntry.inserts x) y.log

/-- The oldest overdue timer and the longest period of an active one together
stay within half the range. -/
def InWindow (y : TimerSystem) : Prop :=
  ∀ a ∈ y.timers.active.items (), ∀ x ∈ y.timers.active.items (),
    y.overdue a + (y.timers.timer x).periodTicks.toNat ≤ 2 ^ 31 - 1

instance (y : TimerSystem) : Decidable y.InWindow :=
  inferInstanceAs (Decidable (∀ a ∈ y.timers.active.items (), ∀ x ∈ y.timers.active.items (),
    y.overdue a + (y.timers.timer x).periodTicks.toNat ≤ 2 ^ 31 - 1))

/-- The distance at which a late periodic timer is put back on the list. -/
def reload (y : TimerSystem) (x : TimerId) : Int :=
  if y.distance x + (y.timers.timer x).periodTicks.toNat < 0 then (y.timers.timer x).periodTicks.toNat
  else y.distance x + (y.timers.timer x).periodTicks.toNat

/-- The step compares no two expiry ticks half the range or more apart, and
leaves no listed timer that late. -/
def Comparable (y : TimerSystem) : TimerEvent → Prop
  | .start x => (y.timers.timer x).periodTicks.toNat < 2 ^ 31 ∧
    ∀ a ∈ (y.timers.active.items ()).erase x,
      (y.timers.timer x).periodTicks.toNat - y.distance a < 2 ^ 31
  | .tick => ∀ a ∈ y.timers.active.items (), -2 ^ 31 < y.distance a
  | .expire => match y.timers.active.items () with
    | [] => True
    | head :: rest => y.distance head ≤ 0 → (y.timers.timer head).isPeriodic = true →
      (y.timers.timer head).periodTicks.toNat < 2 ^ 31 ∧ ∀ a ∈ rest, y.reload head - y.distance a < 2 ^ 31
  | _ => True

/-- `a` expires first, or was inserted first when they expire together. -/
def before (y : TimerSystem) (a b : TimerId) : Prop :=
  y.distance a < y.distance b ∨ y.distance a = y.distance b ∧ y.inserted a < y.inserted b

/-- The list holds the active timers. -/
def Enrolled (y : TimerSystem) : Prop :=
  ∀ x, x ∈ y.timers.active.items () ↔ (y.timers.timer x).isActive = true

/-- The list holds the active timers, in order. -/
structure Ordered (y : TimerSystem) : Prop where
  active : y.Enrolled
  sorted : (y.timers.active.items ()).Pairwise y.before

variable {y z : TimerSystem} {x : TimerId}

theorem before_trans {a b c : TimerId} (first : y.before a b) (second : y.before b c) :
    y.before a c := by
  unfold before at *
  omega

/-- Distances shift together as time passes. -/
theorem sorted_shift {l : List TimerId} (shift : Int) (sorted : l.Pairwise y.before)
    (distance : ∀ a ∈ l, z.distance a = y.distance a + shift)
    (inserted : ∀ a ∈ l, z.inserted a = y.inserted a) : l.Pairwise z.before := by
  refine sorted.imp_of_mem ?_
  intro a b first second earlier
  unfold before at *
  rw [distance a first, distance b second, inserted a first, inserted b second]
  omega

/-- A timer less than half the range from all others finds its place. -/
theorem sorted_queued {others : List TimerId} (queued : y.timers.Queued x others)
    (sorted : others.Pairwise y.before) (newest : ∀ a ∈ others, y.inserted a < y.inserted x)
    (near : ∀ a ∈ others, -2 ^ 31 ≤ y.distance x - y.distance a ∧ y.distance x - y.distance a < 2 ^ 31) :
    (y.timers.active.items ()).Pairwise y.before := by
  have walk : ∀ a ∈ others, y.timers.later x a = decide (y.distance x < y.distance a) := by
    intro a member
    have direct : ahead (y.timers.timer x).expiryTick (y.timers.timer a).expiryTick =
        y.distance x - y.distance a := ahead_sub (near a member).1 (near a member).2
    rw [Timers.later, direct, decide_eq_decide]
    omega
  rw [queued]
  refine place_pairwise sorted ?_ ?_ ?_
  · intro a member passed
    rw [walk a member, decide_eq_false_iff_not] at passed
    have := newest a member
    unfold before
    omega
  · intro a member stopped
    rw [walk a member, decide_eq_true_eq] at stopped
    exact .inl stopped
  · intro a _ b _ first second
    exact before_trans first second

theorem inserted_lt (y : TimerSystem) (x : TimerId) : y.inserted x < y.log.length + 1 :=
  Nat.lt_succ_of_le (latest_le _ _)

theorem overdue_spec (y : TimerSystem) (x : TimerId) : -y.distance x ≤ y.overdue x := by
  unfold overdue
  omega

theorem distance_range (y : TimerSystem) (x : TimerId) :
    -2 ^ 31 ≤ y.distance x ∧ y.distance x < 2 ^ 31 := by
  obtain ⟨low, high, _⟩ := ahead_spec (y.timers.timer x).expiryTick y.now
  exact ⟨low, high⟩

/-- A change of one timer keeps the distances of the others. -/
theorem distance_update {timer : Timer} {a : TimerId} (other : a ≠ x)
    (timers : z.timers.timer = Function.update y.timers.timer x timer) (now : z.now = y.now) :
    z.distance a = y.distance a := by
  unfold distance
  rw [timers, now, Function.update_of_ne other]

/-- Members of the list but for its head, or for a timer taken out. -/
theorem other_of_erase {a : TimerId} (member : a ∈ (y.timers.active.items ()).erase x) :
    a ≠ x ∧ a ∈ y.timers.active.items () :=
  ((y.timers.active.nodup ()).mem_erase_iff).mp member

/-- No timer is on the list twice. -/
theorem other_of_rest {head a : TimerId} {rest : List TimerId}
    (shape : y.timers.active.items () = head :: rest) (member : a ∈ rest) : a ≠ head := by
  have nodup := y.timers.active.nodup ()
  rw [shape, List.nodup_cons] at nodup
  rintro rfl
  exact nodup.1 member

theorem Enrolled.step {event : TimerEvent} (enrolled : y.Enrolled) (stepped : y.step event = some z) :
    z.Enrolled := by
  intro a
  have before := enrolled a
  cases step_cases stepped with
  | @inits x _ _ _ _ free =>
    by_cases same : a = x
    · subst same
      have absent : a ∉ y.timers.active.items () := Rings.not_mem_of_free free
      simp [Timers.setTimer, absent]
    · simpa [Timers.setTimer, same] using before
  | @starts x _ timers started =>
    show a ∈ timers.active.items () ↔ (timers.timer a).isActive = true
    rw [started.queued, started.timer, mem_place, (y.timers.active.nodup ()).mem_erase_iff]
    by_cases same : a = x
    · simp [same]
    · simpa [same] using before
  | @stops x =>
    simp only [Timers.timerStop]
    split
    · show a ∈ (y.timers.active.items ()).erase x ↔ _
      rw [(y.timers.active.nodup ()).mem_erase_iff]
      by_cases same : a = x
      · simp [Timers.setTimer, same]
      · simpa [Timers.setTimer, same] using before
    · exact before
  | @resets x =>
    by_cases same : a = x
    · subst same
      simpa [Timers.timerReset, Timers.setTimer] using before
    · simpa [Timers.timerReset, Timers.setTimer, same] using before
  | ticks => exact before
  | @expires expiry timers expired =>
    cases expired with
    | rests => exact before
    | @reloads head rest next timers shape due periodic nextIs timer queued =>
      show a ∈ timers.active.items () ↔ (timers.timer a).isActive = true
      rw [queued, timer, mem_place, ← List.mem_cons, ← shape, before]
      by_cases same : a = head
      · subst same
        simp
      · simp [same]
    | @ends head rest timers shape due oneShot timer items =>
      show a ∈ timers.active.items () ↔ (timers.timer a).isActive = true
      rw [shape, List.mem_cons] at before
      rw [items, timer]
      by_cases same : a = head
      · subst same
        have absent : a ∉ rest := fun member => other_of_rest shape member rfl
        simp [absent]
      · simpa [same] using before

namespace Ordered

private theorem init {timer : Timer} (ordered : y.Ordered) (free : y.timers.active.ring x = none) :
    (y.timers.active.items ()).Pairwise (before { y with timers := y.timers.setTimer x timer }) := by
  refine sorted_shift 0 ordered.sorted ?_ fun _ _ => rfl
  intro a member
  rw [Int.add_zero]
  refine distance_update ?_ rfl rfl
  rintro rfl
  exact Rings.not_mem_of_free free member

private theorem start {becameNewHead : Bool} {timers : Timers} (ordered : y.Ordered)
    (started : y.timers.Started y.now x becameNewHead timers) (comparable : y.Comparable (.start x)) :
    (timers.active.items ()).Pairwise (before
      { y with timers, log := .started x y.now (y.timers.timer x).periodTicks :: y.log }) := by
  obtain ⟨short, near⟩ := comparable
  refine sorted_queued started.queued ?_ ?_ ?_
  · refine sorted_shift 0 (ordered.sorted.sublist List.erase_sublist) ?_ ?_
    · intro a member
      rw [Int.add_zero]
      exact distance_update (other_of_erase member).1 started.timer rfl
    · intro a member
      have other : a ≠ x := (other_of_erase member).1
      simp [inserted, latest_cons, TimerEntry.inserts, Ne.symm other]
  · intro a member
    have other : a ≠ x := (other_of_erase member).1
    simpa [inserted, latest_cons, TimerEntry.inserts, Ne.symm other] using y.inserted_lt a
  · intro a member
    have other : a ≠ x := (other_of_erase member).1
    have near := near a member
    obtain ⟨low, high⟩ := y.distance_range a
    have fresh := ahead_add y.now y.now (y.timers.timer x).periodTicks (by rw [ahead_self]; omega)
    rw [ahead_self, Int.zero_add] at fresh
    simp only [distance, started.timer, Function.update_self, Function.update_of_ne other] at *
    omega

private theorem stop (ordered : y.Ordered) : ((y.timers.timerStop x).active.items ()).Pairwise
    (before { y with timers := y.timers.timerStop x }) := by
  unfold Timers.timerStop
  split
  · refine sorted_shift 0 (ordered.sorted.sublist List.erase_sublist) ?_ fun _ _ => rfl
    intro a member
    rw [Int.add_zero]
    exact distance_update (other_of_erase member).1 rfl rfl
  · exact ordered.sorted

private theorem reset {newPeriodTicks : Tick} (ordered : y.Ordered) :
    (y.timers.active.items ()).Pairwise
      (before { y with timers := y.timers.timerReset x newPeriodTicks }) := by
  refine sorted_shift 0 ordered.sorted ?_ fun _ _ => rfl
  intro a _
  rw [Int.add_zero]
  unfold distance
  by_cases same : a = x <;> simp [Timers.timerReset, Timers.setTimer, same]

private theorem tick (ordered : y.Ordered) (comparable : y.Comparable .tick) :
    (y.timers.active.items ()).Pairwise
      (before { y with now := y.now + 1, log := .ticked :: y.log }) := by
  refine sorted_shift (-1) ordered.sorted ?_ fun _ _ => rfl
  intro a member
  exact ahead_succ (y.timers.timer a).expiryTick y.now (comparable a member)

/-- Where a late timer is reloaded to: a period on from now when that period
has gone by already, else a period on from when it was due. -/
theorem reloaded {expiryTick periodTicks now next : Tick} (late : ahead expiryTick now ≤ 0)
    (short : periodTicks.toNat < 2 ^ 31)
    (nextIs : next = if ahead (expiryTick + periodTicks) now < 0 then now + periodTicks
      else expiryTick + periodTicks) :
    ahead expiryTick now + periodTicks.toNat < 0 ∧ next = now + periodTicks ∧
        ahead next now = periodTicks.toNat ∨
      0 ≤ ahead expiryTick now + periodTicks.toNat ∧ next = expiryTick + periodTicks ∧
        ahead next now = ahead expiryTick now + periodTicks.toNat := by
  have put_off := ahead_add expiryTick now periodTicks (by omega)
  have from_now := ahead_add now now periodTicks (by rw [ahead_self]; omega)
  rw [ahead_self, Int.zero_add] at from_now
  rw [put_off] at nextIs
  by_cases missed : ahead expiryTick now + periodTicks.toNat < 0
  · rw [if_pos missed] at nextIs
    exact .inl ⟨missed, nextIs, by rw [nextIs, from_now]⟩
  · rw [if_neg missed] at nextIs
    exact .inr ⟨Int.not_lt.mp missed, nextIs, by rw [nextIs, put_off]⟩

/-- A firing of the head leaves the timers behind it in order. -/
private theorem sorted_rest {head : TimerId} {rest : List TimerId} {timers : Timers} {timer : Timer}
    {expiry : Expiry} (shape : y.timers.active.items () = head :: rest) (sorted : rest.Pairwise y.before)
    (changed : timers.timer = Function.update y.timers.timer head timer)
    (fired : expiry.entries = [.fired head]) :
    rest.Pairwise (before { y with timers, log := expiry.entries ++ y.log }) := by
  refine sorted_shift 0 sorted ?_ ?_
  · intro a member
    rw [Int.add_zero]
    exact distance_update (other_of_rest shape member) changed rfl
  · intro a member
    have other := other_of_rest shape member
    simp [inserted, fired, latest_cons, TimerEntry.inserts, Ne.symm other]

private theorem expire {expiry : Expiry} {timers : Timers} (ordered : y.Ordered)
    (comparable : y.Comparable .expire) (expired : y.timers.Expires y.now expiry timers) :
    (timers.active.items ()).Pairwise
      (before { y with timers, log := expiry.entries ++ y.log }) := by
  have sorted := ordered.sorted
  cases expired with
  | rests => exact sorted
  | @reloads head rest next timers shape due periodic nextIs timer queued =>
    rw [shape, List.pairwise_cons] at sorted
    refine sorted_queued queued (sorted_rest shape sorted.2 timer rfl) ?_ ?_
    · intro a member
      have other := other_of_rest shape member
      simpa [inserted, Expiry.entries, latest_cons, TimerEntry.inserts, Ne.symm other]
        using y.inserted_lt a
    · intro a member
      have other := other_of_rest shape member
      simp only [Comparable, shape] at comparable
      obtain ⟨short, near⟩ := comparable due periodic
      have near := near a member
      obtain ⟨low, high⟩ := y.distance_range a
      have fresh := reloaded due short nextIs
      unfold reload at near
      unfold distance at *
      simp only [timer, Function.update_self, Function.update_of_ne other]
      split at near <;> omega
  | @ends head rest timers shape due oneShot timer items =>
    rw [shape, List.pairwise_cons] at sorted
    rw [items]
    exact sorted_rest shape sorted.2 timer rfl

/-- A round of the expiry loop makes no timer later than it was. -/
theorem window_expire {expiry : Expiry} {timers : Timers} (window : y.InWindow)
    (expired : y.timers.Expires y.now expiry timers) :
    InWindow { y with timers, log := expiry.entries ++ y.log } := by
  have period := expired.period
  cases expired with
  | rests => exact window
  | @reloads head rest next timers shape due periodic nextIs timer queued =>
    have front : head ∈ y.timers.active.items () := by simp [shape]
    have listed : ∀ a ∈ timers.active.items (), a ∈ y.timers.active.items () := by
      intro a member
      rw [queued, mem_place] at member
      rwa [shape, List.mem_cons]
    have short := window head front head front
    have sooner : ∀ a, overdue { y with timers, log := .fired head :: y.log } a ≤ y.overdue a := by
      intro a
      by_cases same : a = head
      · subst same
        have fresh := reloaded due (by omega) nextIs
        simp only [overdue, distance, timer, Function.update_self]
        omega
      · simp [overdue, distance, timer, same]
    intro a first b second
    have inside := window a (listed a first) b (listed b second)
    have := sooner a
    show overdue { y with timers, log := .fired head :: y.log } a + (timers.timer b).periodTicks.toNat ≤ _
    rw [period]
    omega
  | @ends head rest timers shape due oneShot timer items =>
    have other : ∀ a ∈ timers.active.items (), a ≠ head ∧ a ∈ y.timers.active.items () := by
      intro a member
      rw [items] at member
      exact ⟨other_of_rest shape member, by simp [shape, member]⟩
    intro a first b second
    simpa [overdue, distance, timer, (other a first).1, (other b second).1]
      using window a (other a first).2 b (other b second).2

/-- Every step that compares what can be compared keeps the order. -/
theorem step (ordered : y.Ordered) {event : TimerEvent} (comparable : y.Comparable event)
    (stepped : y.step event = some z) : z.Ordered := by
  refine ⟨ordered.active.step stepped, ?_⟩
  cases step_cases stepped with
  | inits free => exact ordered.init free
  | starts started => exact ordered.start started comparable
  | stops => exact ordered.stop
  | resets => exact ordered.reset
  | ticks => exact ordered.tick comparable
  | expires expired => exact ordered.expire comparable expired

/-- When the expiry loop ends no active timer is due. -/
theorem rests (ordered : y.Ordered) {timers : Timers} (ended : y.timers.Expires y.now .idle timers)
    (active : (y.timers.timer x).isActive = true) : 0 < y.distance x := by
  cases ended with
  | rests nothingDue =>
    have listed := (ordered.active x).mpr active
    obtain ⟨head, rest, shape⟩ := List.exists_cons_of_ne_nil (List.ne_nil_of_mem listed)
    have sorted := ordered.sorted
    have early : 0 < y.distance head := nothingDue head rest shape
    rw [shape, List.pairwise_cons] at sorted
    rw [shape, List.mem_cons] at listed
    rcases listed with rfl | listed
    · exact early
    · have := sorted.1 x listed
      unfold before at this
      omega

end Ordered

theorem comparable_expire (window : y.InWindow) : y.Comparable .expire := by
  simp only [Comparable]
  split
  · trivial
  · rename_i head rest shape
    intro due _
    have front : head ∈ y.timers.active.items () := by simp [shape]
    have short := window head front head front
    refine ⟨by omega, fun a member => ?_⟩
    have inside := window a (by simp [shape, member]) head front
    have late := y.overdue_spec a
    unfold reload
    split <;> omega

theorem comparable_start (stepped : y.step (.start x) = some z) (after : z.InWindow) :
    y.Comparable (.start x) := by
  cases step_cases stepped with
  | @starts _ _ timers started =>
    have listed : ∀ a, a = x ∨ a ∈ (y.timers.active.items ()).erase x → a ∈ timers.active.items () := by
      intro a
      rw [started.queued, mem_place]
      exact id
    have period : (timers.timer x).periodTicks = (y.timers.timer x).periodTicks := by
      rw [started.timer, Function.update_self]
    have inside := fun a member => after a (listed a member) x (listed x (.inl rfl))
    simp only [period] at inside
    have short := inside x (.inl rfl)
    refine ⟨by omega, fun a member => ?_⟩
    have inside := inside a (.inr member)
    have late := overdue_spec
      { y with timers, log := .started x y.now (y.timers.timer x).periodTicks :: y.log } a
    have kept : distance { y with
        timers, log := .started x y.now (y.timers.timer x).periodTicks :: y.log } a = y.distance a :=
      distance_update (other_of_erase member).1 started.timer rfl
    omega

/-- A step that starts and ends within the window compares what can be
compared. -/
theorem comparable_of_window {event : TimerEvent} (window : y.InWindow)
    (stepped : y.step event = some z) (after : z.InWindow) : y.Comparable event := by
  cases event with
  | init | stop | reset => trivial
  | expire => exact comparable_expire window
  | start x => exact comparable_start stepped after
  | tick =>
    intro a member
    have inside := window a member a member
    have late := y.overdue_spec a
    omega

theorem ordered_boot (now : Tick) : (timerBoot now).Ordered :=
  ⟨fun x => by simp [timerBoot, Timers.init], .nil⟩

theorem ordered_of_run {now : Tick} (run : TimerRun now (fun y _ => y.InWindow) y)
    (window : y.InWindow) : y.Ordered := by
  induction run with
  | refl => exact ordered_boot now
  | next _ before stepped ih =>
    exact (ih before).step (comparable_of_window before stepped window) stepped

/-- The list of active timers and what the expiry loop does with it. -/
structure Sound (y : TimerSystem) : Prop where
  once : ∀ x, (y.timers.active.items ()).count x = if (y.timers.timer x).isActive then 1 else 0
  sorted : (y.timers.active.items ()).Pairwise fun a b => y.distance a ≤ y.distance b
  stable : (y.timers.active.items ()).Pairwise fun a b =>
    (y.timers.timer a).expiryTick = (y.timers.timer b).expiryTick → y.inserted a < y.inserted b
  fires : ∀ x callback arg timers, y.timers.expire y.now = some (.fires x callback arg, timers) →
    (y.timers.timer x).isActive = true ∧ y.distance x ≤ 0
  rests : ∀ timers, y.timers.expire y.now = some (.idle, timers) →
    ∀ x, (y.timers.timer x).isActive = true → 0 < y.distance x

/-- In every run that stays within the window the list of active timers is
sound. -/
theorem timers_sound {now : Tick} (run : TimerRun now (fun y _ => y.InWindow) y)
    (window : y.InWindow) : y.Sound := by
  have ordered := ordered_of_run run window
  refine ⟨?_, ?_, ?_, ?_, ?_⟩
  · intro x
    split
    · rename_i active
      exact List.count_eq_one_of_mem (y.timers.active.nodup ()) ((ordered.active x).mpr active)
    · rename_i inactive
      exact List.count_eq_zero_of_not_mem fun listed => inactive ((ordered.active x).mp listed)
  · refine ordered.sorted.imp ?_
    intro a b earlier
    unfold before at earlier
    omega
  · refine ordered.sorted.imp ?_
    intro a b earlier same
    have together : y.distance a = y.distance b := ahead_inj.mpr same
    unfold before at earlier
    omega
  · intro x callback arg timers expired
    cases Timers.expire_spec expired with
    | reloads shape due | ends shape due =>
      exact ⟨(ordered.active x).mp (by simp [shape]), due⟩
  · intro timers expired x active
    exact ordered.rests (Timers.expire_spec expired) active

/-- A periodic and a one-shot timer across the wrap of the tick count. -/
private def acrossWrap : List TimerEvent :=
  [.init 0 3 true 1 0, .init 1 2 false 1 0, .start 0, .start 1, .tick, .tick, .expire, .reset 0 5,
    .start 0, .tick, .expire, .expire]

set_option maxRecDepth 20000 in
theorem timers_sound_across_wrap : ∃ y, TimerRun 0xFFFFFFFE (fun y _ => y.InWindow) y ∧ y.InWindow ∧
    y.now = 1 ∧ y.Sound := by
  obtain ⟨y, run, at_end⟩ : ∃ y, TimerRun 0xFFFFFFFE (fun y _ => y.InWindow) y ∧
      decide (y.InWindow ∧ y.now = 1) = true :=
    GuardedRun.reaches_of_exec acrossWrap _ (by decide +kernel)
  obtain ⟨window, now⟩ := of_decide_eq_true at_end
  exact ⟨y, run, window, now, timers_sound run window⟩

end TimerSystem
end NimbleRtos
