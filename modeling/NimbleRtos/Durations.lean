import NimbleRtos.ActiveTimers
import NimbleRtos.WaitEnds

/-! How long a duration lasts. A wait or delay of `d` ticks is not cut short up
to `d` = 2^31 + 1; a longer one looks overdue to the first tick after it began.
A timer is exact below 2^31, and from there on it is due as soon as it is
started. -/
namespace NimbleRtos
open NodeRings Sched SerialTime NimbleRtos.System

/-- Neither a tick nor a wake-up by one. -/
def Entry.timeless : Entry → Bool
  | .ticked => false
  | .woken _ .tick => false
  | _ => true

/-- A bounded wait that has not been cut short. -/
structure Wait.InTime (w : Wait) : Prop where
  unfinished : w.wakes = [] → w.elapsed < w.call.ticks.toNat
  expired : ∀ k, (.tick, k) ∈ w.wakes → w.call.ticks.toNat ≤ k ∧ k ≤ w.elapsed

/-- The longest duration that no tick takes for one that is over. -/
def longestWait : Nat := 2 ^ 31 + 1

/-- No bounded wait short enough has been cut short. -/
def InTime (t : TaskId) (log : List Entry) : Prop :=
  ∀ w, lastWait t log = some w → w.call.ticks ≠ 0 → w.call.timed = true →
    w.call.ticks.toNat ≤ longestWait → w.InTime

private theorem counted {now start : Tick} {elapsed : Nat} (clock : now = start + .ofNat elapsed) :
    now + 1 = start + .ofNat (elapsed + 1) := by
  rw [clock, UInt32.add_assoc, UInt32.ofNat_add]
  rfl

/-- The next tick finds a short enough duration over exactly when it is. -/
private theorem due_on_time {now wakeTick start d : Tick} {elapsed : Nat}
    (clock : now = start + .ofNat elapsed) (deadline : wakeTick = start + d)
    (short : d.toNat ≤ longestWait) (before : elapsed < d.toNat) :
    reached (now + 1) wakeTick = true ↔ elapsed + 1 = d.toNat := by
  have short : d.toNat ≤ 2 ^ 31 + 1 := short
  have onTime := reached_near start d.toNat (elapsed + 1) (by omega) before
  rwa [UInt32.ofNat_toNat, ← counted clock, ← deadline] at onTime

namespace InTime
variable {t : TaskId} {log : List Entry}

theorem entry {e : Entry} (inTime : InTime t log) (timeless : e.timeless = true) :
    InTime t (e :: log) := by
  intro w told positive timed short
  change e.account t (lastWait t log) = some w at told
  cases e with
  | blocked u b =>
    simp only [Entry.account] at told
    split at told
    · cases told
      have positive : 0 < b.ticks.toNat := by
        rw [Nat.pos_iff_ne_zero, Ne, ← UInt32.toNat_zero, UInt32.toNat_inj]
        exact positive
      exact ⟨fun _ => positive, by simp⟩
    · exact inTime w told positive timed short
  | ticked => cases timeless
  | woken u waker =>
    simp only [Entry.account] at told
    split at told
    · obtain ⟨v, earlier, rfl⟩ := Option.map_eq_some_iff.mp told
      have before := inTime v earlier positive timed short
      cases waker with
      | tick => cases timeless
      | signal h => exact ⟨by simp, by simpa using before.expired⟩
    · exact inTime w told positive timed short
  | returned u c st out =>
    cases c with
    | blocking b =>
      simp only [Entry.account] at told
      split at told
      · obtain ⟨v, earlier, rfl⟩ := Option.map_eq_some_iff.mp told
        have before := inTime v earlier positive timed short
        exact ⟨before.unfinished, before.expired⟩
      · exact inTime w told positive timed short
    | _ => exact inTime w told positive timed short
  | _ => exact inTime w told positive timed short

theorem entries {l : List Entry} (inTime : InTime t log) (timeless : ∀ e ∈ l, e.timeless = true) :
    InTime t (l ++ log) := by
  induction l with
  | nil => exact inTime
  | cons e rest ih =>
    exact (ih fun e member => timeless e (by simp [member])).entry (timeless e (by simp))

/-- The tick that ends a wait is not early, and the one that does not leaves it
time. -/
theorem ticked {y : System} {s : Sched} (inTime : InTime t y.log) (linked : Linked y)
    (accounted : Accounted y) : InTime t (y.ticked s).log := by
  intro w told positive timed short
  have story := accounted t
  rw [lastWait_ticked] at told
  split at told
  · rename_i late
    obtain ⟨threaded, due⟩ := mem_expired.mp late
    obtain ⟨b, waiting, bounded⟩ :=
      linked.delayed_waiting.mp ((y.sched.links.mem_items _ _).mpr threaded)
    rw [waiting] at story
    obtain ⟨_, elapsed, earlier, deadline⟩ := story
    obtain ⟨⟨start, now, wakeTick⟩, _⟩ := deadline bounded
    rw [earlier] at told
    cases told
    have before := (inTime _ earlier positive timed short).unfinished rfl
    have onTime := (due_on_time now wakeTick short before).mp due
    refine ⟨by simp, ?_⟩
    intro k wake
    simp only [List.mem_singleton, Prod.mk.injEq] at wake
    dsimp only
    omega
  · rename_i notLate
    obtain ⟨v, earlier, rfl⟩ := Option.map_eq_some_iff.mp told
    have before := inTime v earlier positive timed short
    refine ⟨?_, fun k wake => ⟨(before.expired k wake).1, Nat.le_succ_of_le (before.expired k wake).2⟩⟩
    intro unfinished
    have unfinished : v.wakes = [] := unfinished
    cases status : y.waitStatus t with
    | awake =>
      rw [status] at story
      obtain ⟨_, _, _, wakes, _⟩ := (story v earlier).once
      simp [unfinished] at wakes
    | woken b result =>
      rw [status] at story
      obtain ⟨_, _, _, told', _⟩ := story
      rw [earlier] at told'
      cases told'
      cases unfinished
    | waiting b =>
      rw [status] at story
      obtain ⟨_, elapsed, told', deadline⟩ := story
      rw [earlier] at told'
      cases told'
      have timed : b.timed = true := timed
      obtain ⟨⟨start, now, wakeTick⟩, _⟩ := deadline timed
      have threaded := linked.delayed_waiting.mpr ⟨b, status, timed⟩
      rw [y.sched.links.mem_items] at threaded
      have early : ¬reached (y.sched.tickCount + 1) (y.sched.tcb t).wakeTick = true :=
        fun due => notLate (mem_expired.mpr ⟨threaded, due⟩)
      have within := before.unfinished rfl
      have notYet := (due_on_time now wakeTick short within).not.mp early
      dsimp only at within ⊢
      omega

theorem timeless_of_call {e : Entry} (ofCall : e.ofCall = true) : e.timeless = true := by
  cases e with
  | woken u waker => cases waker <;> first | rfl | cases ofCall
  | _ => first | rfl | cases ofCall

theorem step {y z : System} {event : Event} (inTime : InTime t y.log) (linked : Linked y)
    (accounted : Accounted y) (stepped : y.step event = some z) : InTime t z.log := by
  cases linked.step_moves stepped with
  | ticks => exact inTime.ticked linked accounted
  | quiet quiet =>
    obtain ⟨entries, log, silent⟩ := quiet.log
    rw [log]
    refine inTime.entries ?_
    intro e member
    have := silent e member
    cases e <;> first | rfl | cases this
  | interrupts =>
    refine InTime.entry (inTime.entries ?_) rfl
    exact fun e member => timeless_of_call (ofCall_woken e member)
  | enters => exact inTime.entries fun e member => timeless_of_call (ofCall_entered e member)
  | finishes => exact inTime.entry rfl

end InTime

theorem in_time_of_run {cfg : Config} {guard : System → Event → Prop} {y : System} {t : TaskId}
    (run : KernelRun cfg guard y) : InTime t y.log := by
  have strong := run.strengthen fun _ before => And.intro (linked_of_run before) (accounted_of_run before)
  refine strong.invariant (fun y => InTime t y.log) ?_ ?_
  · intro w told
    cases told
  · intro s event z inTime meets stepped
    exact inTime.step meets.2.1 meets.2.2 stepped

/-! ## Waits and delays -/

/-- The log after a wait began, as the account of the wait. -/
theorem lastWait_since {t : TaskId} {b : BlockingCall} {log later : List Entry}
    (asleep : lastWait t log = some ⟨b, 0, [], none⟩) (same : ∀ b', Entry.blocked t b' ∉ later) :
    ∃ w, lastWait t (later ++ log) = some w ∧ w.call = b ∧ w.elapsed = later.count .ticked ∧
      (.woken t .tick ∈ later → ∃ k, (.tick, k) ∈ w.wakes) := by
  induction later with
  | nil => exact ⟨_, asleep, rfl, rfl, by simp⟩
  | cons e rest ih =>
    obtain ⟨w, told, call, elapsed, woken⟩ := ih fun b' member => same b' (by simp [member])
    rw [lastWait_append] at told
    rw [List.cons_append, lastWait, List.foldr_cons, ← lastWait, lastWait_append, told]
    cases e with
    | blocked u b' =>
      have other : u ≠ t := by
        rintro rfl
        exact same b' (by simp)
      exact ⟨w, by simp [Entry.account, other], call, by simpa using elapsed, by simpa using woken⟩
    | ticked => exact ⟨_, rfl, call, by simp [elapsed], by simpa using woken⟩
    | woken u waker =>
      by_cases here : u = t
      · subst here
        refine ⟨{ w with wakes := (waker, w.elapsed) :: w.wakes }, by simp [Entry.account], call,
          by simpa using elapsed, ?_⟩
        intro member
        rcases List.mem_cons.mp member with same | member
        · cases same
          exact ⟨w.elapsed, by simp⟩
        · obtain ⟨k, wake⟩ := woken member
          exact ⟨k, by simp [wake]⟩
      · exact ⟨w, by simp [Entry.account, here], call, by simpa using elapsed,
          by simpa [Ne.symm here] using woken⟩
    | returned u c st out =>
      cases c with
      | blocking b' =>
        by_cases here : u = t
        · subst here
          exact ⟨{ w with result := w.result.or (some st) }, by simp [Entry.account], call,
            by simpa using elapsed, by simpa using woken⟩
        · exact ⟨w, by simp [Entry.account, here], call, by simpa using elapsed, by simpa using woken⟩
      | _ => exact ⟨w, rfl, call, by simpa using elapsed, by simpa using woken⟩
    | _ => exact ⟨w, rfl, call, by simpa using elapsed, by simpa using woken⟩

/-- The wait in `b` that `t` has just begun lasts: in every continuation, while
fewer ticks than it was given have been processed, no tick has woken `t`, and
if it is a delay `t` is still blocked. -/
def System.Lasts (z : System) (t : TaskId) (b : BlockingCall) : Prop :=
  ∀ w later, GuardedRun.Run System.step GuardedRun.Free z w → w.log = later ++ z.log →
    (∀ b', Entry.blocked t b' ∉ later) → later.count .ticked < b.ticks.toNat →
    Entry.woken t .tick ∉ later ∧ (b.waitList = none → (w.sched.tcb t).state = .blocked)

/-- A task whose last entry is that it blocked is waiting. -/
theorem waiting_of_asleep {cfg : Config} {z : System} {t : TaskId} {b : BlockingCall}
    (run : KernelRun cfg GuardedRun.Free z) (asleep : z.log.head? = some (.blocked t b)) :
    lastWait t z.log = some ⟨b, 0, [], none⟩ ∧ z.waitStatus t = .waiting b := by
  obtain ⟨older, log⟩ := List.head?_eq_some_iff.mp asleep
  have told : lastWait t z.log = some ⟨b, 0, [], none⟩ := by simp [log, lastWait, Entry.account]
  refine ⟨told, ?_⟩
  have story := accounted_of_run run t
  rw [told] at story
  cases status : z.waitStatus t with
  | awake =>
    rw [status] at story
    obtain ⟨_, _, _, wakes, _⟩ := (story _ rfl).once
    cases wakes
  | waiting b' =>
    rw [status] at story
    obtain ⟨_, _, same, _⟩ := story
    cases same
    rfl
  | woken b' result =>
    rw [status] at story
    obtain ⟨_, _, _, same, _⟩ := story
    cases same

/-- A wait or delay lasts exactly when it is not too long. -/
theorem lasts_iff {cfg : Config} {z : System} {t : TaskId} {b : BlockingCall}
    (run : KernelRun cfg GuardedRun.Free z) (asleep : z.log.head? = some (.blocked t b))
    (finite : b.ticks ≠ waitForever) : z.Lasts t b ↔ b.ticks.toNat ≤ longestWait := by
  obtain ⟨told, waiting⟩ := waiting_of_asleep run asleep
  have story := accounted_of_run run t
  rw [told, waiting] at story
  obtain ⟨positive, elapsed, same, deadline⟩ := story
  cases same
  have timed : b.timed = true := by
    cases b <;> first | rfl | simpa [BlockingCall.timed] using finite
  constructor
  · intro lasts
    by_contra long
    have long : 2 ^ 31 + 1 < b.ticks.toNat := Nat.lt_of_not_le long
    obtain ⟨s, ticked⟩ := z.sched.tick_defined
    have stepped : z.step .tick = some (z.ticked s) := by simp [System.step, System.ticked, ticked]
    obtain ⟨⟨start, now, wakeTick⟩, _⟩ := deadline timed
    have due : reached (z.sched.tickCount + 1) (z.sched.tcb t).wakeTick = true := by
      have far := reached_far start b.ticks.toNat 1 b.ticks.toNat_lt (by omega)
      rwa [UInt32.ofNat_toNat, ← counted now, ← wakeTick] at far
    have threaded := linked_of_run run |>.delayed_waiting.mpr ⟨b, waiting, timed⟩
    rw [z.sched.links.mem_items] at threaded
    have late : t ∈ z.sched.expired := mem_expired.mpr ⟨threaded, due⟩
    have log : (z.ticked s).log = (.requested :: z.sched.expired.map (Entry.woken · .tick) ++ [.ticked]) ++
        z.log := by simp [System.ticked]
    have count : (z.sched.expired.map (Entry.woken · .tick)).count .ticked = 0 :=
      List.count_eq_zero.mpr (by simp)
    obtain ⟨quiet, _⟩ := lasts _ _ (GuardedRun.Run.refl.next trivial stepped) log (by simp)
      (by simp only [List.count_append, List.count_cons, count]; simp; omega)
    exact quiet (by simp [late])
  · intro short w later continued log same early
    have reached := run.trans continued
    obtain ⟨v, told', call, elapsed, woken⟩ := lastWait_since told same
    rw [← log] at told'
    rw [← call] at positive timed short early
    have inTime := in_time_of_run reached v told' positive timed short
    have quiet : ∀ k, (.tick, k) ∉ v.wakes := by
      intro k wake
      have := inTime.expired k wake
      omega
    refine ⟨fun woke => absurd (woken woke).choose_spec (quiet _), ?_⟩
    intro delay
    have signalled : ∀ waker k result, v.wakes = [(waker, k)] → ¬EndedBy v.call waker k result := by
      intro waker k result wakes ended
      cases ended with
      | signal listed => rw [call, delay] at listed; cases listed
      | tick => exact quiet k (by simp [wakes])
    have story := accounted_of_run reached t
    rw [told'] at story
    cases status : w.waitStatus t with
    | awake =>
      rw [status] at story
      obtain ⟨waker, k, result, wakes, ended⟩ := (story v rfl).once
      exact absurd ended (signalled waker k result wakes)
    | waiting b' => exact (Linked.waiting_iff.mp status).1
    | woken b' result =>
      rw [status] at story
      obtain ⟨_, waker, k, same, ended⟩ := story
      cases same
      exact absurd ended (signalled waker k result rfl)

/-! ## Timers -/

namespace TimerSystem
variable {y w z : TimerSystem} {x : TimerId}

/-- The period `d` of the timer `x` just started lasts: in every continuation,
while fewer ticks than that have been processed and `x` has not been started
again, it has not fired. -/
def Lasts (y : TimerSystem) (x : TimerId) (d : Tick) : Prop :=
  ∀ w later, GuardedRun.Run TimerSystem.step GuardedRun.Free y w → w.log = later ++ y.log →
    (∀ now periodTicks, TimerEntry.started x now periodTicks ∉ later) →
    later.count .ticked < d.toNat → TimerEntry.fired x ∉ later

/-- A period that is not over, `later` being the log since it began. -/
structure Running (w : TimerSystem) (x : TimerId) (d : Tick) (later : List TimerEntry) : Prop where
  unfired : TimerEntry.fired x ∉ later
  distance : x ∈ w.timers.active.items () → w.distance x = d.toNat - (later.count .ticked : Nat)

/-- A step that neither puts `x` on the list nor moves it. -/
theorem Running.keep {d : Tick} {later entries : List TimerEntry} (running : w.Running x d later)
    (unfired : TimerEntry.fired x ∉ entries) (silent : entries.count .ticked = 0)
    (same : x ∈ z.timers.active.items () → x ∈ w.timers.active.items () ∧ z.distance x = w.distance x) :
    z.Running x d (entries ++ later) := by
  refine ⟨by simp [unfired, running.unfired], ?_⟩
  intro listed
  obtain ⟨listed, same⟩ := same listed
  rw [same, running.distance listed, List.count_append, silent, Nat.zero_add]

/-- A step keeps the period running until `x` is started again or it is over. -/
theorem Running.step {d : Tick} {later : List TimerEntry} {event : TimerEvent}
    (running : w.Running x d later) (stepped : w.step event = some z) :
    ∃ entries, z.log = entries ++ w.log ∧ ((∀ now periodTicks, .started x now periodTicks ∉ entries) →
      (entries ++ later).count .ticked < d.toNat → z.Running x d (entries ++ later)) := by
  cases step_cases stepped with
  | @inits x' _ _ _ _ free =>
    refine ⟨[], rfl, fun _ _ => running.keep (by simp) rfl ?_⟩
    intro listed
    have other : x ≠ x' := by
      rintro rfl
      exact Rings.not_mem_of_free free listed
    exact ⟨listed, distance_update other rfl rfl⟩
  | @starts x' _ timers started =>
    refine ⟨[_], rfl, fun fresh _ => running.keep (by simp) (by simp) ?_⟩
    have other : x ≠ x' := by
      rintro rfl
      exact fresh w.now (w.timers.timer x).periodTicks (by simp)
    intro listed
    have listed : x ∈ timers.active.items () := listed
    rw [started.queued, mem_place] at listed
    exact ⟨List.mem_of_mem_erase (listed.resolve_left other), distance_update other started.timer rfl⟩
  | @stops x' =>
    refine ⟨[], rfl, fun _ _ => running.keep (by simp) rfl ?_⟩
    unfold Timers.timerStop
    split
    · intro listed
      obtain ⟨other, listed⟩ := other_of_erase listed
      exact ⟨listed, distance_update other rfl rfl⟩
    · exact fun listed => ⟨listed, rfl⟩
  | @resets x' =>
    refine ⟨[], rfl, fun _ _ => running.keep (by simp) rfl ?_⟩
    refine fun listed => ⟨listed, ?_⟩
    unfold TimerSystem.distance
    by_cases same : x = x' <;> simp [Timers.timerReset, Timers.setTimer, same]
  | ticks =>
    refine ⟨[.ticked], rfl, fun _ early => ⟨by simpa using running.unfired, ?_⟩⟩
    intro listed
    have here : ahead (w.timers.timer x).expiryTick w.now = d.toNat - (later.count .ticked : Nat) :=
      running.distance listed
    have early : later.count .ticked + 1 < d.toNat := by simpa using early
    have passed := ahead_succ (w.timers.timer x).expiryTick w.now (by omega)
    have count : ([TimerEntry.ticked] ++ later).count .ticked = later.count .ticked + 1 := by simp
    rw [count]
    refine passed.trans ?_
    omega
  | @expires expiry timers expired =>
    refine ⟨expiry.entries, rfl, fun _ early => ?_⟩
    have silent : expiry.entries.count .ticked = 0 := by cases expiry <;> simp [Expiry.entries]
    rw [List.count_append, silent, Nat.zero_add] at early
    have notDue : x ∈ w.timers.active.items () → 0 < ahead (w.timers.timer x).expiryTick w.now := by
      intro listed
      have here : ahead (w.timers.timer x).expiryTick w.now = _ := running.distance listed
      omega
    have ahead_of_head : ∀ {head : TimerId} {rest : List TimerId}, w.timers.active.items () = head :: rest →
        ahead (w.timers.timer head).expiryTick w.now ≤ 0 → x ≠ head := by
      rintro head rest shape due rfl
      have early := notDue (by simp [shape])
      omega
    cases expired with
    | rests => exact running.keep (by simp [Expiry.entries]) silent fun listed => ⟨listed, rfl⟩
    | @reloads head rest next timers shape due periodic nextIs timer queued =>
      have other := ahead_of_head shape due
      refine running.keep (by simp [Expiry.entries, other]) silent ?_
      intro listed
      have listed : x ∈ timers.active.items () := listed
      rw [queued, mem_place] at listed
      exact ⟨by simp [shape, listed.resolve_left other], distance_update other timer rfl⟩
    | @ends head rest timers shape due oneShot timer items =>
      have other := ahead_of_head shape due
      refine running.keep (by simp [Expiry.entries, other]) silent ?_
      intro listed
      have listed : x ∈ timers.active.items () := listed
      rw [items] at listed
      exact ⟨by simp [shape, listed], distance_update other timer rfl⟩

theorem running_of_run {d : Tick} (run : GuardedRun.Run TimerSystem.step GuardedRun.Free y w)
    (begun : y.Running x d []) : ∃ later, w.log = later ++ y.log ∧
      ((∀ now periodTicks, .started x now periodTicks ∉ later) → later.count .ticked < d.toNat →
        w.Running x d later) := by
  induction run with
  | refl => exact ⟨[], rfl, fun _ _ => begun⟩
  | @next s t event _ _ stepped ih =>
    obtain ⟨later, log, running⟩ := ih
    by_cases early : (∀ now periodTicks, .started x now periodTicks ∉ later) ∧
        later.count .ticked < d.toNat
    · obtain ⟨entries, grown, goes_on⟩ := (running early.1 early.2).step stepped
      refine ⟨entries ++ later, by rw [grown, log, List.append_assoc], ?_⟩
      intro fresh notOver
      exact goes_on (fun now periodTicks member => fresh now periodTicks (by simp [member])) notOver
    · obtain ⟨entries, grown⟩ : ∃ entries, t.log = entries ++ s.log := by
        cases step_cases stepped with
        | starts | ticks => exact ⟨[_], rfl⟩
        | inits | stops | resets => exact ⟨[], rfl⟩
        | expires => exact ⟨_, rfl⟩
      refine ⟨entries ++ later, by rw [grown, log, List.append_assoc], ?_⟩
      intro fresh notOver
      refine absurd ⟨fun now periodTicks member => fresh now periodTicks (by simp [member]), ?_⟩ early
      rw [List.count_append] at notOver
      omega

/-- A timer started with a period in range has its whole period before it. -/
theorem lasts_of_short (started : y.step (.start x) = some z)
    (short : (y.timers.timer x).periodTicks.toNat < 2 ^ 31) :
    z.Lasts x (y.timers.timer x).periodTicks := by
  have begun : z.Running x (y.timers.timer x).periodTicks [] := by
    refine ⟨by simp, fun _ => ?_⟩
    cases step_cases started with
    | @starts _ _ timers starting =>
      have fresh := ahead_add y.now y.now (y.timers.timer x).periodTicks (by rw [ahead_self]; omega)
      rw [ahead_self] at fresh
      simp only [distance, starting.timer, Function.update_self, List.count_nil]
      omega
  intro w later run log fresh early
  obtain ⟨later', log', running⟩ := running_of_run run begun
  have same : later' = later := List.append_cancel_right (log'.symm.trans log)
  subst same
  exact (running fresh early).unfired

/-- Started with a longer period on an empty list, a timer fires at once. -/
theorem fires_at_once (now : Tick) {d : Tick} (long : 2 ^ 31 ≤ d.toNat) :
    ∃ y z, TimerRun now GuardedRun.Free y ∧ y.now = now ∧ (y.timers.timer 0).periodTicks = d ∧
      y.step (.start 0) = some z ∧ ¬z.Lasts 0 d := by
  obtain ⟨y, stepped, clock, period, empty⟩ : ∃ y, (timerBoot now).step (.init 0 d false 0 0) = some y ∧
      y.now = now ∧ (y.timers.timer 0).periodTicks = d ∧ y.timers.active = .empty :=
    ⟨_, rfl, rfl, rfl, rfl⟩
  obtain ⟨z, started⟩ : ∃ z, y.step (.start 0) = some z := by
    have free : y.timers.active.ring 0 = none := by rw [empty]; rfl
    obtain ⟨_, _, started⟩ := Timers.timerStart_defined (.inl free) y.now
    simp [TimerSystem.step, started]
  refine ⟨y, z, GuardedRun.Run.refl.next trivial stepped, clock, period, started, ?_⟩
  cases step_cases started with
  | @starts _ _ timers starting =>
    have items : timers.active.items () = [0] := by
      rw [starting.queued, empty]
      rfl
    have overdue : ahead (timers.timer 0).expiryTick y.now < 0 := by
      simp only [starting.timer, Function.update_self, period]
      obtain ⟨low, high, there⟩ := ahead_spec (y.now + d) y.now
      rw [UInt32.toNat_add] at there
      have := y.now.toNat_lt
      have := d.toNat_lt
      omega
    obtain ⟨expiry, timers', expired⟩ := timers.expire_defined y.now
    obtain ⟨callback, arg, rfl⟩ : ∃ callback arg, expiry = .fires 0 callback arg := by
      cases Timers.expire_spec expired with
      | rests nothingDue =>
        have := nothingDue 0 [] items
        omega
      | reloads shape | ends shape =>
        rw [items] at shape
        cases shape
        exact ⟨_, _, rfl⟩
    intro lasts
    have quiet := lasts _ [.fired 0] (GuardedRun.Run.refl.next trivial
      (show TimerSystem.step _ .expire = some _ by simp [TimerSystem.step, expired]; rfl)) rfl
    exact quiet (by simp) (by simp; omega) (by simp)

/-- Periods are kept from every tick count exactly below half the range. -/
theorem lasts_iff {now d : Tick} : (∀ x now₀ y z, TimerRun now₀ GuardedRun.Free y → y.now = now →
    (y.timers.timer x).periodTicks = d → y.step (.start x) = some z → z.Lasts x d) ↔
      d.toNat < 2 ^ 31 := by
  constructor
  · intro always
    by_contra long
    obtain ⟨y, z, run, clock, period, started, cut⟩ := fires_at_once now (Nat.le_of_not_lt long)
    exact cut (always 0 now y z run clock period started)
  · rintro short x now₀ y z _ _ rfl started
    exact lasts_of_short started short

end TimerSystem

/-- Which durations are kept, at every tick count: waits and delays up to
`longestWait`, timers below half the range. -/
theorem durations_kept {d : Tick} (finite : d ≠ waitForever) :
    (∀ cfg z t b, KernelRun cfg GuardedRun.Free z → z.log.head? = some (.blocked t b) → b.ticks = d →
      (z.Lasts t b ↔ d.toNat ≤ longestWait)) ∧
    ∀ now, (∀ x now₀ y z, TimerRun now₀ GuardedRun.Free y → y.now = now →
      (y.timers.timer x).periodTicks = d → y.step (.start x) = some z → z.Lasts x d) ↔
        d.toNat < 2 ^ 31 := by
  refine ⟨?_, fun now => TimerSystem.lasts_iff⟩
  rintro cfg z t b run asleep rfl
  exact lasts_iff run asleep finite

set_option maxRecDepth 20000 in
/-- The longest wait that is kept, begun by a semaphore take. -/
theorem longest_wait_kept : ∃ z, KernelRun {} GuardedRun.Free z ∧
    z.Lasts 1 (.semaphoreTake 0 0x80000001) := by
  obtain ⟨z, run, asleep⟩ : ∃ z, KernelRun {} GuardedRun.Free z ∧
      decide (z.log.head? = some (.blocked 1 (.semaphoreTake 0 0x80000001))) = true :=
    GuardedRun.reaches_of_exec
      [.create ⟨some 1, 1, 1, 64, 3⟩, .start, .call (.blocking (.semaphoreTake 0 0x80000001))] _
      (by decide +kernel)
  have kept := (durations_kept (by decide)).1 {} z 1 _ run (of_decide_eq_true asleep) rfl
  exact ⟨z, run, kept.mpr (by decide)⟩

set_option maxRecDepth 20000 in
/-- A delay of 2^31 + 2 ticks is over at the first. -/
theorem delay_cut_short : ∃ z w, KernelRun {} GuardedRun.Free z ∧
    z.log.head? = some (.blocked 1 (.taskDelay 0x80000002)) ∧ z.step .tick = some w ∧
    (w.sched.tcb 1).state = .ready := by
  obtain ⟨z, run, asleep⟩ : ∃ z, KernelRun {} GuardedRun.Free z ∧
      decide (z.log.head? = some (.blocked 1 (.taskDelay 0x80000002)) ∧
        (z.step .tick).any fun w => (w.sched.tcb 1).state = .ready) = true :=
    GuardedRun.reaches_of_exec
      [.create ⟨some 1, 1, 1, 64, 3⟩, .start, .call (.blocking (.taskDelay 0x80000002))] _ (by decide +kernel)
  obtain ⟨asleep, woken⟩ := of_decide_eq_true asleep
  obtain ⟨w, stepped, ready⟩ := (Option.any_eq_true _ _).mp woken
  exact ⟨z, w, run, asleep, stepped, of_decide_eq_true ready⟩

end NimbleRtos
