import NimbleRtos.Objects

/-! Conservation of a semaphore's units. A unit is in `count`, or it was
handed to a waiter that has not resumed yet, or a take returned with it. -/
namespace NimbleRtos
open NodeRings Sched NimbleRtos.System

/-- A give that was not dropped. -/
def Entry.keptGive (id : SemaphoreId) : Entry → Bool
  | .gave s kept => s = id && kept
  | _ => false

/-- A take that returned `NIMBLE_OK`. -/
def Entry.tookUnit (id : SemaphoreId) : Entry → Bool
  | .returned _ (.blocking (.semaphoreTake s _)) .ok _ => s = id
  | _ => false

/-- The waiter was handed a unit and has not resumed yet. -/
def WaitStatus.handedUnit (id : SemaphoreId) : WaitStatus → Bool
  | .woken (.semaphoreTake s _) .ok => s = id
  | _ => false

/-- Units are conserved and bounded, and nobody waits while one is left. -/
structure Units (initialCount maxCount : UInt32) (id : SemaphoreId) (y : System) : Prop where
  max : (y.semaphores id).maxCount = maxCount
  balance : initialCount.toNat + y.log.countP (Entry.keptGive id) =
    (y.semaphores id).count.toNat + y.log.countP (Entry.tookUnit id) +
      y.tally (WaitStatus.handedUnit id)
  bound : (y.semaphores id).count.toNat ≤ Nat.max initialCount.toNat maxCount.toNat
  waiters : y.sched.events.items (.semaphore id) ≠ [] → (y.semaphores id).count = 0

theorem keptGive_object {id : SemaphoreId} (e : Entry) (kept : e.keptGive id = true) :
    e.object = some (.semaphore id) := by
  unfold Entry.keptGive at kept
  split at kept
  · simp only [Bool.and_eq_true, decide_eq_true_eq] at kept
    rw [← kept.1]; rfl
  · cases kept

theorem tookUnit_object {id : SemaphoreId} (e : Entry) (took : e.tookUnit id = true) :
    e.object = some (.semaphore id) := by
  unfold Entry.tookUnit at took
  split at took
  · rw [← of_decide_eq_true took]; rfl
  · cases took

theorem handedUnit_on (id : SemaphoreId) (w : WaitStatus) :
    (w.on (.semaphore id)).handedUnit id = w.handedUnit id := by
  cases w with
  | woken b result =>
    cases b with
    | semaphoreTake s d =>
      by_cases same : s = id
      · simp [WaitStatus.on, BlockingCall.object, same]
      · cases result <;> simp [WaitStatus.on, BlockingCall.object, same, WaitStatus.handedUnit]
    | _ => simp [WaitStatus.on, BlockingCall.object, WaitStatus.handedUnit]
  | waiting b => simp only [WaitStatus.on]; split <;> rfl
  | awake => rfl

namespace Units
variable {initialCount maxCount : UInt32} {id : SemaphoreId} {y z : System}

private theorem aside (units : Units initialCount maxCount id y) (linked : Linked y)
    (aside : Aside y z (.semaphore id)) : Units initialCount maxCount id z := by
  have same : z.semaphores id = y.semaphores id := aside.object
  refine ⟨by rw [same, units.max], ?_, by rw [same]; exact units.bound, ?_⟩
  · rw [same, aside.countP keptGive_object, aside.countP tookUnit_object,
      linked.tally_aside aside (handedUnit_on id) rfl]
    exact units.balance
  · rw [same, aside.items _ rfl]
    exact units.waiters

private theorem tick {s : Sched} (units : Units initialCount maxCount id y) (linked : Linked y)
    (tick : y.sched.tick = some s) : Units initialCount maxCount id (y.ticked s) := by
  have scanned := tick_spec tick
  have tally : (y.ticked s).tally (WaitStatus.handedUnit id) =
      y.tally (WaitStatus.handedUnit id) := by
    refine linked.tally_same ?_ rfl (.inl scanned.rest.tasks)
    intro u
    rw [linked.status_ticked tick]
    split
    · exact ended_timeout (fun b => by cases b <;> rfl) _
    · rfl
  refine ⟨units.max, ?_, units.bound, fun waiting => units.waiters fun empty => waiting ?_⟩
  · rw [countP_ticked keptGive_object, countP_ticked tookUnit_object, tally]
    exact units.balance
  · show s.events.items _ = []
    rw [scanned.eventItems]
    exact List.filter_eq_nil_iff.mpr (by simp [show y.sched.events.items _ = [] from empty])

/-- A waiter on the list of `id` is in a take of `id`. -/
theorem taking {b : BlockingCall} (listed : b.waitList = some (.semaphore id)) :
    ∃ timeoutTicks, b = .semaphoreTake id timeoutTicks := by
  cases b <;> cases listed
  exact ⟨_, rfl⟩

private theorem known {t : TaskId} {b : BlockingCall} (waiting : y.waitStatus t = .waiting b) :
    (y.sched.tcb t).state ≠ .deleted := by
  simp [(Linked.waiting_iff.mp waiting).1]

/-- A give, from a task or from an interrupt. -/
private theorem give {woken : Option TaskId} {x : Semaphore} {s : Sched}
    (units : Units initialCount maxCount id y) (linked : Linked y)
    (gives : Semaphore.Gives id (y.semaphores id) y.sched woken x s) (sched : z.sched = s)
    (object : z.semaphores id = x)
    (status : ∀ u, (z.waitStatus u).handedUnit id =
      ((if woken = some u then (y.waitStatus u).ended .ok else y.waitStatus u).handedUnit id))
    (kept : z.log.countP (Entry.keptGive id) = y.log.countP (Entry.keptGive id) +
      if woken = none ∧ x.count = (y.semaphores id).count then 0 else 1)
    (took : z.log.countP (Entry.tookUnit id) = y.log.countP (Entry.tookUnit id)) :
    Units initialCount maxCount id z := by
  have balance := units.balance
  cases gives with
  | @hands t rest _ shape woken =>
    -- the unit goes to the first waiter
    have member : t ∈ y.sched.events.items (.semaphore id) := by simp [shape]
    obtain ⟨b, waiting, listed⟩ := linked.listed_waiting.mp member
    obtain ⟨timeoutTicks, rfl⟩ := taking listed
    have moved := linked.tally_move (z := z) (p := WaitStatus.handedUnit id) (known waiting)
      (fun u other => by rw [status, if_neg (by simpa using Ne.symm other)])
      (by rw [sched, woken.rest.tasks])
    rw [status t, if_pos rfl, waiting] at moved
    simp only [WaitStatus.handedUnit, WaitStatus.ended, decide_true, Bool.toNat_true,
      Bool.toNat_false] at moved
    refine ⟨by rw [object, units.max], ?_, by rw [object]; exact units.bound, fun _ => ?_⟩
    · rw [kept, took, object]
      rw [if_neg (by simp)]
      omega
    · rw [object]; exact units.waiters (by simp [shape])
  | counts empty room =>
    have tally := linked.tally_same (z := z) (p := WaitStatus.handedUnit id)
      (fun u => by rw [status]; rfl) rfl (.inl (by rw [sched]))
    have bounded := UInt32.lt_iff_toNat_lt.mp room
    have raised : ((y.semaphores id).count + 1).toNat = (y.semaphores id).count.toNat + 1 := by
      rw [UInt32.toNat_add, UInt32.toNat_one]
      have := (y.semaphores id).maxCount.toNat_lt
      omega
    have changed : (y.semaphores id).count + 1 ≠ (y.semaphores id).count := fun same => by
      rw [same] at raised; omega
    refine ⟨by rw [object, ← units.max], ?_, ?_, fun waiting => ?_⟩
    · rw [kept, took, object, tally, raised]
      rw [if_neg (by simp [changed])]
      omega
    · rw [object, raised, ← units.max]
      exact Nat.le_trans (Nat.succ_le_of_lt bounded) (Nat.le_max_right _ _)
    · rw [sched] at waiting; exact absurd empty waiting
  | drops empty full =>
    have tally := linked.tally_same (z := z) (p := WaitStatus.handedUnit id)
      (fun u => by rw [status]; rfl) rfl (.inl (by rw [sched]))
    refine ⟨by rw [object, units.max], ?_, by rw [object]; exact units.bound, fun waiting => ?_⟩
    · rw [kept, took, object, tally]
      simpa using balance
    · rw [sched] at waiting; exact absurd empty waiting

/-- The first critical section of a take. -/
private theorem take {self : TaskId} {timeoutTicks : Tick} {st : Option Status} {x : Semaphore}
    {s : Sched} (units : Units initialCount maxCount id y) (linked : Linked y)
    (takes : Semaphore.Takes id (y.semaphores id) y.sched self timeoutTicks st x s)
    (sched : z.sched = s) (object : z.semaphores id = x)
    (status : ∀ u, (z.waitStatus u).handedUnit id = (y.waitStatus u).handedUnit id)
    (kept : z.log.countP (Entry.keptGive id) = y.log.countP (Entry.keptGive id))
    (took : z.log.countP (Entry.tookUnit id) = y.log.countP (Entry.tookUnit id) +
      (decide (st = some .ok)).toNat) : Units initialCount maxCount id z := by
  have balance := units.balance
  cases takes with
  | counted left =>
    have tally := linked.tally_same (z := z) (p := WaitStatus.handedUnit id) status rfl
      (.inl (by rw [sched]))
    have positive := UInt32.lt_iff_toNat_lt.mp left
    have lowered : ((y.semaphores id).count - 1).toNat = (y.semaphores id).count.toNat - 1 := by
      have := (y.semaphores id).count.toNat_lt
      rw [UInt32.toNat_sub, UInt32.toNat_one]
      rw [UInt32.toNat_zero] at positive
      omega
    rw [UInt32.toNat_zero] at positive
    refine ⟨by rw [object, ← units.max], ?_, ?_, fun waiting => ?_⟩
    · rw [kept, took, object, tally, lowered]
      simp only [decide_true, Bool.toNat_true]
      omega
    · rw [object, lowered]
      exact Nat.le_trans (Nat.sub_le _ _) units.bound
    · rw [sched] at waiting
      have none := units.waiters waiting
      rw [none] at positive
      cases positive
  | refused exhausted hurried =>
    have tally := linked.tally_same (z := z) (p := WaitStatus.handedUnit id) status rfl
      (.inl (by rw [sched]))
    refine ⟨by rw [object, units.max], ?_, by rw [object]; exact units.bound, fun waiting => ?_⟩
    · rw [kept, took, object, tally]
      simpa using balance
    · rw [object]; rw [sched] at waiting; exact units.waiters waiting
  | sleeps exhausted _ _ slept =>
    have tally := linked.tally_same (z := z) (p := WaitStatus.handedUnit id) status rfl
      (.inl (by rw [sched, slept.rest.tasks]; rfl))
    refine ⟨by rw [object, units.max], ?_, by rw [object]; exact units.bound, fun _ => ?_⟩
    · rw [kept, took, object, tally]
      simpa using balance
    · rw [object, ← UInt32.toNat_inj]
      simpa [UInt32.lt_iff_toNat_lt] using exhausted

private theorem enter {self : TaskId} {c : Call} {r : CallResult}
    (units : Units initialCount maxCount id y) (linked : Linked y)
    (about : c.object = some (.semaphore id)) (running : y.running = some self)
    (busy : ∀ b, y.pc self ≠ .requesting b) (awake : y.waitStatus self = .awake)
    (allowed : y.allows c = true) (ran : y.toKernel.call self c = some r) :
    Units initialCount maxCount id (y.entered self c r) := by
  have status := linked.status_entered running busy allowed ran
  cases call_spec ran with
  | @takes s timeoutTicks st x sched takes =>
    obtain rfl : s = id := by simpa [Call.object, BlockingCall.object] using about
    refine units.take linked takes rfl (by simp [entered, Kernel.setSemaphore]) (fun u => ?_) ?_ ?_
    · rw [status]
      by_cases caller : u = self
      · subst u
        cases st <;> simp [awake, Kernel.sleepOr, callerStatus, WaitStatus.handedUnit]
      · simp [caller]
    all_goals
      cases takes <;>
        simp [entered, Kernel.sleepOr, outcomeEntries, wokenEntries, gaveEntries, givesTo,
          Entry.keptGive, Entry.tookUnit]
  | @gives s woken x sched gives =>
    obtain rfl : s = id := by simpa [Call.object] using about
    refine units.give linked gives rfl (by simp [entered, Kernel.setSemaphore]) (fun u => ?_) ?_ ?_
    · rw [status]
      by_cases caller : u = self
      · subst u
        cases woken <;> simp [awake, Kernel.sleepOr, callerStatus, WaitStatus.handedUnit,
          WaitStatus.ended]
      · simp [caller]
    all_goals
      cases woken <;>
        simp [entered, Kernel.sleepOr, outcomeEntries, wokenEntries, gaveEntries, givesTo,
          Entry.keptGive, Entry.tookUnit, Call.signals, List.countP_cons, Kernel.setSemaphore]
  | _ => cases about

private theorem interrupt {c : IsrCall} {st : Status} {needsYield : Bool} {woken : Option TaskId}
    {k : Kernel} (units : Units initialCount maxCount id y) (linked : Linked y)
    (about : c.object = .semaphore id)
    (ran : y.toKernel.isrCall c = some (st, needsYield, woken, k)) :
    Units initialCount maxCount id (y.interrupted c st needsYield woken k) := by
  have status := linked.status_interrupted ran
  cases isrCall_spec ran with
  | @gives s _ x sched gives =>
    obtain rfl : s = id := by simpa [IsrCall.object] using about
    refine units.give linked gives rfl (by simp [interrupted, Kernel.setSemaphore])
      (fun u => by rw [status]) ?_ ?_
    all_goals
      cases woken <;>
        simp [interrupted, wokenEntries, gaveEntries, isrGivesTo, Entry.keptGive, Entry.tookUnit,
          IsrCall.signals, List.countP_cons, Kernel.setSemaphore]
  | sends => cases about

private theorem finish {self : TaskId} {b : BlockingCall} {st : Status} {out : Bytes} {k : Kernel}
    (units : Units initialCount maxCount id y) (linked : Linked y)
    (about : b.object = some (.semaphore id)) (running : y.running = some self)
    (here : y.pc self = .parked b) (ran : y.toKernel.resume self b = some (st, out, k)) :
    Units initialCount maxCount id (y.finished self b st out k) := by
  have same : (y.finished self b st out k).sched = y.sched := linked.resume_keeps running here ran
  have status := Linked.status_finished ran
  have parked := linked.status_parked running here
  have state := linked.self_running running (by simp [here])
  have moved := linked.tally_move (z := y.finished self b st out k)
    (p := WaitStatus.handedUnit id) (t := self) (by simp [state])
    (fun u other => by rw [status, if_neg other]) (by rw [same])
  rw [status self, if_pos rfl, parked] at moved
  have object : (y.finished self b st out k).semaphores id = y.semaphores id := by
    cases resume_spec ran <;> rfl
  have balance := units.balance
  refine ⟨by rw [object, units.max], ?_, by rw [object]; exact units.bound, ?_⟩
  · cases resume_spec ran with
    | @takes s =>
      obtain rfl : s = id := by simpa [BlockingCall.object] using about
      rw [object]
      generalize (y.sched.tcb self).lastWaitResult = result at *
      cases result <;>
        simp [finished, Entry.keptGive, Entry.tookUnit, WaitStatus.handedUnit] at moved ⊢ <;> omega
    | _ => cases about
  · rw [object, same]
    exact units.waiters

theorem step (units : Units initialCount maxCount id y) (linked : Linked y) {event : Event}
    (stepped : y.step event = some z) : Units initialCount maxCount id z := by
  cases linked.step_touches stepped (.semaphore id) with
  | aside aside => exact units.aside linked aside
  | ticks ticked => exact units.tick linked ticked
  | interrupts about ran => exact units.interrupt linked about ran
  | enters about _ running busy awake allowed ran =>
    exact units.enter linked about running busy awake allowed ran
  | finishes about running here ran => exact units.finish linked about running here ran

end Units

theorem units_boot (cfg : Config) (id : SemaphoreId) :
    Units (cfg.semaphore id).1 (cfg.semaphore id).2 id (boot cfg) := by
  refine ⟨rfl, ?_, Nat.le_max_left _ _, fun waiting => absurd ?_ waiting⟩
  · have none : (boot cfg).tally (WaitStatus.handedUnit id) = 0 :=
      List.countP_eq_zero.mpr fun t _ => by simp [boot, waitStatus, waitOf, Pc.sleep,
        WaitStatus.handedUnit]
    rw [none]
    rfl
  · show schedulerInit.events.items _ = []
    rw [schedulerInit_spec.events]
    rfl

theorem units_of_run {cfg : Config} {guard : System → Event → Prop} {y : System}
    (run : KernelRun cfg guard y) (id : SemaphoreId) :
    Units (cfg.semaphore id).1 (cfg.semaphore id).2 id y := by
  have strong := run.strengthen fun _ => linked_of_run
  exact strong.invariant _ (units_boot cfg id) fun _ _ _ units meets stepped =>
    units.step meets.2 stepped

/-- What a whole run guarantees for semaphore `id`: conservation in every
state, and for each step what its gives and takes did. -/
structure UnitsConserved (cfg : Config) (id : SemaphoreId) (y : System) : Prop where
  balance : (cfg.semaphore id).1.toNat + y.log.countP (Entry.keptGive id) =
    (y.semaphores id).count.toNat + y.log.countP (Entry.tookUnit id) +
      y.tally (WaitStatus.handedUnit id)
  bound : (y.semaphores id).count.toNat ≤
    Nat.max (cfg.semaphore id).1.toNat (cfg.semaphore id).2.toNat
  waiters : y.sched.events.items (.semaphore id) ≠ [] → (y.semaphores id).count = 0
  dropped : ∀ event z kept, y.step event = some z → Logged y z (.gave id kept) →
    (kept = false ↔ y.sched.events.items (.semaphore id) = [] ∧
      (cfg.semaphore id).2 ≤ (y.semaphores id).count)
  sleeps : ∀ event z t timeoutTicks, y.step event = some z →
    Logged y z (.blocked t (.semaphoreTake id timeoutTicks)) → z.semaphores id = y.semaphores id
  timesOut : ∀ event z t timeoutTicks out, y.step event = some z →
    Logged y z (.returned t (.blocking (.semaphoreTake id timeoutTicks)) .timeout out) →
    z.semaphores id = y.semaphores id ∧
      z.tally (WaitStatus.handedUnit id) = y.tally (WaitStatus.handedUnit id)

/-- How a give is logged. -/
private theorem gives_kept {id : SemaphoreId} {x x' : Semaphore} {s s' : Sched}
    {woken : Option TaskId} (gives : Semaphore.Gives id x s woken x' s') :
    (woken.isSome || decide (x'.count ≠ x.count)) = false ↔
      s.events.items (.semaphore id) = [] ∧ ¬ x.count < x.maxCount := by
  cases gives with
  | hands shape => simp [shape]
  | counts empty room =>
    have changed : x.count + 1 ≠ x.count := by
      intro same
      have := congrArg UInt32.toNat same
      rw [UInt32.toNat_add, UInt32.toNat_one] at this
      have := x.count.toNat_lt
      omega
    simp [changed, room]
  | drops empty full => simp [empty, full]

private theorem step_gave {id : SemaphoreId} {y z : System} (linked : Linked y) {event : Event}
    (stepped : y.step event = some z) {kept : Bool} (logged : Logged y z (.gave id kept)) :
    kept = false ↔ y.sched.events.items (.semaphore id) = [] ∧
      ¬ (y.semaphores id).count < (y.semaphores id).maxCount := by
  cases linked.step_touches stepped (.semaphore id) with
  | aside aside => exact absurd logged (aside.not_logged rfl)
  | ticks => exact absurd logged (ticked_not_logged (o := .semaphore id) rfl)
  | @interrupts _ _ _ woken _ about ran =>
    rw [logged_interrupted] at logged
    cases isrCall_spec ran with
    | @gives s _ x sched gives =>
      obtain rfl : s = id := by simpa [IsrCall.object] using about
      have same : kept = (woken.isSome || decide (x.count ≠ (y.semaphores s).count)) := by
        cases woken <;>
          simpa [wokenEntries, gaveEntries, isrGivesTo, Kernel.setSemaphore, IsrCall.signals]
            using logged
      rw [same]
      exact gives_kept gives
    | sends => cases about
  | enters about _ running busy awake allowed ran =>
    rw [logged_entered] at logged
    cases call_spec ran with
    | @gives s woken x sched gives =>
      obtain rfl : s = id := by simpa [Call.object] using about
      have same : kept = (woken.isSome || decide (x.count ≠ (y.semaphores s).count)) := by
        cases woken <;>
          simpa [wokenEntries, gaveEntries, givesTo, Kernel.setSemaphore, Call.signals,
            Kernel.sleepOr, outcomeEntries] using logged
      rw [same]
      exact gives_kept gives
    | @takes s timeoutTicks st x sched takes =>
      cases takes <;>
        simp [Kernel.sleepOr, outcomeEntries, wokenEntries, gaveEntries, givesTo] at logged
    | _ => cases about
  | finishes about running here ran => simp [logged_finished] at logged

private theorem step_slept {id : SemaphoreId} {y z : System} (linked : Linked y) {event : Event}
    (stepped : y.step event = some z) {t : TaskId} {timeoutTicks : Tick}
    (logged : Logged y z (.blocked t (.semaphoreTake id timeoutTicks))) :
    z.semaphores id = y.semaphores id := by
  cases linked.step_touches stepped (.semaphore id) with
  | aside aside => exact absurd logged (aside.not_logged rfl)
  | ticks => exact absurd logged (ticked_not_logged (o := .semaphore id) rfl)
  | @interrupts c _ _ woken _ about ran =>
    rw [logged_interrupted] at logged
    cases c <;> cases woken <;>
      simp [wokenEntries, gaveEntries, isrGivesTo] at logged
  | enters about _ running busy awake allowed ran =>
    rw [logged_entered] at logged
    cases call_spec ran with
    | @gives s woken x sched gives =>
      cases woken <;>
        simp [wokenEntries, gaveEntries, givesTo, Call.signals, Kernel.sleepOr, outcomeEntries]
          at logged
    | @takes s timeoutTicks st x sched takes =>
      obtain rfl : s = id := by simpa [Call.object, BlockingCall.object] using about
      cases takes with
      | sleeps => simp [entered, Kernel.setSemaphore]
      | _ => simp [Kernel.sleepOr, outcomeEntries, wokenEntries, gaveEntries, givesTo] at logged
    | _ => cases about
  | finishes about running here ran => simp [logged_finished] at logged

private theorem step_timedOut {id : SemaphoreId} {y z : System} (linked : Linked y) {event : Event}
    (stepped : y.step event = some z) {t : TaskId} {timeoutTicks : Tick} {out : Bytes}
    (logged : Logged y z
      (.returned t (.blocking (.semaphoreTake id timeoutTicks)) .timeout out)) :
    z.semaphores id = y.semaphores id ∧
      z.tally (WaitStatus.handedUnit id) = y.tally (WaitStatus.handedUnit id) := by
  cases linked.step_touches stepped (.semaphore id) with
  | aside aside => exact absurd logged (aside.not_logged rfl)
  | ticks => exact absurd logged (ticked_not_logged (o := .semaphore id) rfl)
  | @interrupts c _ _ woken _ about ran =>
    rw [logged_interrupted] at logged
    cases c <;> cases woken <;>
      simp [wokenEntries, gaveEntries, isrGivesTo] at logged
  | enters about _ running busy awake allowed ran =>
    rw [logged_entered] at logged
    have status := linked.status_entered running busy allowed ran
    cases call_spec ran with
    | @gives s woken x sched gives =>
      cases woken <;>
        simp [wokenEntries, gaveEntries, givesTo, Call.signals, Kernel.sleepOr, outcomeEntries]
          at logged
    | @takes s timeoutTicks st x sched takes =>
      obtain rfl : s = id := by simpa [Call.object, BlockingCall.object] using about
      cases takes with
      | refused =>
        refine ⟨by simp [entered, Kernel.setSemaphore],
          linked.tally_same ?_ rfl (.inl rfl)⟩
        intro u
        rw [status]
        split
        · rename_i caller; subst caller; rw [awake]; rfl
        · rfl
      | _ => simp [Kernel.sleepOr, outcomeEntries, wokenEntries, gaveEntries, givesTo] at logged
    | _ => cases about
  | @finishes self b st _ k about running here ran =>
    simp only [logged_finished, Entry.returned.injEq, Call.blocking.injEq] at logged
    obtain ⟨rfl, rfl, timedOut, rfl⟩ := logged
    have parked := linked.status_parked running here
    have status := Linked.status_finished ran
    cases resume_spec ran with
    | takes =>
      rw [← timedOut] at parked
      refine ⟨rfl, linked.tally_same ?_ rfl (.inl rfl)⟩
      intro u
      rw [status]
      split
      · rename_i caller; subst caller; rw [parked]; rfl
      · rfl

/-- Units are conserved in every run: whatever tasks and interrupts take and
give, with whatever timeouts, in whatever order tasks run. -/
theorem units_conserved {cfg : Config} {y : System} (run : KernelRun cfg GuardedRun.Free y)
    (id : SemaphoreId) : UnitsConserved cfg id y := by
  have units := units_of_run run id
  have linked := linked_of_run run
  refine ⟨units.balance, units.bound, units.waiters, ?_,
    fun _ _ _ _ stepped logged => step_slept linked stepped logged,
    fun _ _ _ _ _ stepped logged => step_timedOut linked stepped logged⟩
  intro event z kept stepped logged
  rw [step_gave linked stepped logged, units.max, UInt32.not_lt]

/-- A taker sleeps on semaphore 3 and three gives arrive from interrupts: the
first is handed over, the second counted, the third dropped. -/
def giveThree : List Event :=
  [.create ⟨some 1, 1, 1, 64, 2⟩, .start, .call (.blocking (.semaphoreTake 3 5)), .proceed,
    .isr (.semaphoreGiveFromIsr 3), .isr (.semaphoreGiveFromIsr 3),
    .isr (.semaphoreGiveFromIsr 3), .pendSV, .proceed]

set_option maxRecDepth 10000 in
theorem giveThree_conserved :
    ∃ y, GuardedRun.exec System.step GuardedRun.Free (boot {}) giveThree = some y ∧
      UnitsConserved {} 3 y := by
  obtain ⟨y, ran⟩ := Option.isSome_iff_exists.mp
    (by decide +kernel : (GuardedRun.exec System.step GuardedRun.Free (boot {}) giveThree).isSome = true)
  exact ⟨y, ran, units_conserved (GuardedRun.run_of_exec ran) 3⟩

end NimbleRtos
