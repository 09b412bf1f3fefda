import NimbleRtos.Indexing
import NimbleRtos.Inheritance

/-! Bounded priority inversion: what the boost of a mutex owner means for the
task the scheduler selects. The boost is a priority in the owner's TCB; it
counts for the selection as long as the owner's place in the ready lists
follows it. -/
namespace NimbleRtos
open NodeRings Sched PriorityInheritance NimbleRtos.System

/-- No task of lower priority than a blocked locker is selected while the
owner it waits for could run, the owner itself apart. -/
def InversionBounded (y : System) : Prop :=
  ∀ h m timeoutTicks l t s, y.waitStatus h = .waiting (.mutexLock m timeoutTicks) →
    (y.mutexes m).owner = some l →
    (y.sched.tcb l).state = .ready ∨ (y.sched.tcb l).state = .running →
    y.sched.selectNext = some (t, s) →
    t = l ∨ (y.sched.tcb h).priority ≤ (y.sched.tcb t).priority

/-- The step keeps owners above their waiters and raises no READY owner. -/
def System.Settles (y : System) (event : Event) : Prop := y.Orderly event ∧ Calm y event

/-- The selected task has at least the priority of the owner, and the owner at
least that of everyone who waits for it. -/
theorem bounded_of_covered {y : System} (linked : Linked y) (indexed : Indexed y.sched)
    (covered : y.locks.Covered) : InversionBounded y := by
  intro h m timeoutTicks l t s waiting owned runnable selected
  have listed : h ∈ y.sched.events.items (.mutex m) := linked.listed_waiting.mpr ⟨_, waiting, rfl⟩
  have lent : (y.sched.tcb h).priority ≤ (y.sched.tcb l).priority := covered m l h owned listed
  have highest := (linked.selectNext_highest indexed selected).2 l runnable
  exact .inr (Nat.le_trans lent highest)

/-- Inversion is bounded in every run in which no task blocks on a mutex while
owning another, no unlock drops a boost that another mutex still needs, and no
lock raises the priority of a READY owner. -/
theorem inversion_bounded {cfg : Config} {y : System} (run : KernelRun cfg System.Settles y) :
    InversionBounded y :=
  bounded_of_covered (linked_of_run run) (indexed_of_run (run.weaken fun _ _ meets => meets.2))
    (orderly_of_run (run.weaken fun _ _ meets => meets.1)).covered

/-- A low owner of mutex 0 sleeps while a high task blocks on it; then the
owner and a task of middle priority are ready. -/
def sleepingOwner : List Event :=
  [.create ⟨some 1, 1, 1, 64, 1⟩, .create ⟨some 2, 1, 1, 64, 2⟩, .create ⟨some 3, 1, 1, 64, 3⟩, .start,
    .call (.blocking (.taskDelay 1)), .proceed, .pendSV,
    .call (.blocking (.taskDelay 2)), .proceed, .pendSV,
    .call (.blocking (.mutexLock 0 waitForever)), .call (.blocking (.taskDelay 2)), .proceed, .pendSV,
    .tick, .pendSV, .proceed, .call (.blocking (.mutexLock 0 waitForever)), .proceed, .pendSV, .tick]

set_option maxRecDepth 20000 in
theorem sleepingOwner_bounded :
    ∃ y, GuardedRun.exec System.step (fun y event => OrderlyBelow 1 y event ∧ Calm y event)
        (boot {}) sleepingOwner = some y ∧ InversionBounded y := by
  obtain ⟨y, ran⟩ := Option.isSome_iff_exists.mp
    (by decide +kernel : (GuardedRun.exec System.step
      (fun y event => OrderlyBelow 1 y event ∧ Calm y event) (boot {}) sleepingOwner).isSome = true)
  have run : KernelRun {} _ y := GuardedRun.run_of_exec ran
  exact ⟨y, ran, inversion_bounded
    ((orderly_run run fun _ _ meets => meets.1).weaken fun _ _ meets => ⟨meets.1, meets.2.2⟩)⟩

/-- The classic case: the high task preempts the low owner, which is READY
when it is boosted, and a task of middle priority is ready as well. -/
def preemptedOwner : List Event :=
  [.create ⟨some 1, 1, 1, 64, 1⟩, .create ⟨some 2, 1, 1, 64, 2⟩, .create ⟨some 3, 1, 1, 64, 3⟩, .start,
    .call (.blocking (.taskDelay 1)), .proceed, .pendSV,
    .call (.blocking (.taskDelay 1)), .proceed, .pendSV,
    .call (.blocking (.mutexLock 0 waitForever)), .tick, .pendSV, .proceed,
    .call (.blocking (.mutexLock 0 waitForever)), .proceed]

set_option maxRecDepth 20000 in
/-- The middle task is selected while the high one waits for the READY owner. -/
theorem preemptedOwner_inverts :
    ∃ y, KernelRun {} (fun y event => ¬ y.Chains event) y ∧ y.pendSv = true ∧ ¬ InversionBounded y := by
  obtain ⟨y, run, inverted⟩ := GuardedRun.reaches_of_exec preemptedOwner
    (fun y : System => (y.pendSv : Bool) &&
      (y.waitStatus 3 = .waiting (.mutexLock 0 waitForever) : Bool) &&
      ((y.mutexes 0).owner = some 1 : Bool) && ((y.sched.tcb 1).state = .ready : Bool) &&
      (y.sched.selectNext.map Prod.fst = some 2 : Bool) &&
      ((y.sched.tcb 2).priority < (y.sched.tcb 3).priority : Bool))
    (by decide +kernel : (GuardedRun.exec System.step (UnchainedBelow 1) (boot {}) preemptedOwner).map _ =
      some true)
  simp only [Bool.and_eq_true, decide_eq_true_eq] at inverted
  obtain ⟨⟨⟨⟨⟨pending, waiting⟩, owned⟩, ready⟩, selected⟩, lower⟩ := inverted
  obtain ⟨⟨t, s⟩, selected, rfl⟩ := Option.map_eq_some_iff.mp selected
  refine ⟨y, unchained_run run, pending, ?_⟩
  intro bounded
  rcases bounded 3 0 waitForever 1 2 s waiting owned (.inl ready) selected with same | higher
  · cases same
  · omega

end NimbleRtos
