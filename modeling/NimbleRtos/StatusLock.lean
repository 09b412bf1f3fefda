import NimbleRtos.Callers
import NimbleRtos.DemoCode
import NimbleRtos.MutexOwnership

/-! `g_status_mutex` in the demo. The status functions ignore what
`nimble_mutex_lock` returns; that no two tasks are ever between the lock and
the unlock, and that whoever is there can run, holds all the same. -/
namespace NimbleRtos
open NodeRings Sched NimbleRtos.System

/-- A task that has been created and is not suspended. -/
def Sched.Up (s : Sched) (t : TaskId) : Prop := (s.tcb t).state ≠ .deleted ∧ (s.tcb t).state ≠ .suspended

namespace System
variable {y z : System} {event : Event} {t : TaskId}

/-- A switch leaves a task up. -/
private theorem up_switch {middle s : Sched} {u : TaskId} (linked : Linked y)
    (requeued : y.sched.requeueCurrent = some middle) (selected : Selected middle u s) (up : y.sched.Up t) :
    s.Up t := by
  have before : middle.Up t := by
    rcases (linked.requeued_states requeued t).2 with same | ⟨_, ready⟩
    · simpa only [Sched.Up, same] using up
    · simp [Sched.Up, ready]
  unfold Sched.Up
  rw [selected.tcb]
  by_cases chosen : t = u
  · simp [chosen]
  · rw [Function.update_of_ne chosen]
    exact before

private theorem up_change {self : TaskId} {c : Call} {o : Outcome} {before after : TaskState}
    (change : StateChange self c o t before after) (unsuspending : ∀ u, c ≠ .taskSuspend u)
    (up : before ≠ .deleted ∧ before ≠ .suspended) : after ≠ .deleted ∧ after ≠ .suspended := by
  cases change with
  | same => exact up
  | suspended call => exact absurd call (unsuspending t)
  | slept | readied | created => simp

/-- Only `nimble_task_suspend` takes a task that is up down. -/
theorem up_step (linked : Linked y) (stepped : y.step event = some z)
    (unsuspending : ∀ u, event ≠ .call (.taskSuspend u)) (up : y.sched.Up t) : z.sched.Up t := by
  cases step_cases stepped with
  | creates _ allowed created =>
    rcases taskCreate_spec created with ⟨_, rfl⟩ | ⟨u, named, _, created⟩
    · exact up
    · have other : t ≠ u := by
        rintro rfl
        exact up.1 (fresh_of_allowed allowed named)
      simpa [Sched.Up, created.tcb, other] using up
  | starts _ selected | selects _ selected =>
    obtain ⟨middle, _, requeued, _, _, selected⟩ := selectNext_spec selected
    have kept := up_switch linked requeued selected up
    exact kept
  | dispatches _ switched =>
    obtain ⟨middle, requeued, _, selected⟩ := dispatch_spec switched
    have kept := up_switch linked requeued selected up
    exact kept
  | @ticks s ticked =>
    simp only [Sched.Up, System.ticked]
    rw [(tick_spec ticked).tcb]
    split
    · simp
    · exact up
  | @interrupts _ _ _ _ k ran =>
    simp only [interrupted]
    rcases (isr_effect ran).2 with wakes | ⟨_, same⟩
    · generalize k.sched = s at wakes ⊢
      cases wakes with
      | nobody => exact up
      | @first u _ _ _ woken =>
        unfold Sched.Up
        rw [woken.tcb]
        by_cases first : t = u
        · simp [first]
        · rw [Function.update_of_ne first]
          exact up
    · rw [same]
      exact up
  | isrRequests | requests | fires => exact up
  | calls running _ _ _ ran =>
    have current := (running_iff.mp running).2.2
    exact up_change ((call_effect ran).change linked.placed current t)
      (fun u call => unsuspending u (by rw [call])) up
  | finishes running here ran =>
    simp only [finished]
    rw [linked.resume_keeps running here ran]
    exact up
  | @continues self c _ running here ran =>
    have current := (running_iff.mp running).2.2
    have internal := linked.internal _ _ here
    refine up_change ((call_effect ran).change linked.placed current t) ?_ up
    rintro u rfl
    exact internal.elim

end System

/-- timer.c uses no mutex. -/
theorem internal_object {c : Call} {m : MutexId} (internal : c.Internal) : c.object ≠ some (.mutex m) := by
  intro about
  cases c with
  | blocking b =>
    cases b with
    | mutexLock => exact internal.elim
    | _ => cases about
  | mutexUnlock => exact internal.elim
  | _ => cases about

/-- Every step but an unlock, a lock or a resumption leaves a mutex alone, and
a resumption leaves it as it was. -/
theorem mutex_uncalled {y z : System} {event : Event} {m : MutexId} (linked : Linked y)
    (uncalled : ∀ c, event ≠ .call c) (stepped : y.step event = some z) : z.mutexes m = y.mutexes m := by
  cases linked.step_touches stepped (.mutex m) with
  | aside aside => exact aside.object
  | ticks => rfl
  | @interrupts c _ _ _ _ about => cases c <;> cases about
  | @enters self c r about origin =>
    rcases origin with call | internal
    · exact absurd call (uncalled c)
    · exact absurd about (internal_object internal)
  | @finishes self b st out k about _ _ ran =>
    cases b with
    | mutexLock m' d =>
      simp only [finished]
      cases resume_spec ran <;> rfl
    | _ => cases about

/-- A mutex that its owner has unlocked for the last time goes to the first of
its waiters, if there are any. -/
structure Released (y : System) (u : TaskId) (m : MutexId) (z : System) : Prop where
  owner : (z.mutexes m).owner = (y.sched.events.items (.mutex m)).head?
  single : (z.mutexes m).owner ≠ none → (z.mutexes m).lockCount = 1
  awake : z.waitStatus u = .awake
  others : ∀ t, t ≠ u → z.waitStatus t =
    if (y.sched.events.items (.mutex m)).head? = some t then (y.waitStatus t).ended .ok else y.waitStatus t
  returned : ∀ t c st out, Logged y z (.returned t c st out) → st = .ok

theorem released_of_step {y z : System} {self : TaskId} {m : MutexId} (linked : Linked y)
    (running : y.running = some self) (thread : y.pc self = .thread) (mine : (y.mutexes m).owner = some self)
    (once : (y.mutexes m).lockCount = 1) (stepped : y.step (.call (.mutexUnlock m)) = some z) :
    Released y self m z := by
  have busy : ∀ b, y.pc self ≠ .requesting b := by simp [thread]
  cases step_cases stepped with
  | calls running' _ _ allowed ran =>
    obtain rfl := Option.some.inj (running.symm.trans running')
    have status := linked.status_entered running busy allowed ran
    have own := status self
    rw [if_pos rfl] at own
    cases call_spec ran with
    | @unlocks _ st woken x s unlocks =>
      have answered : ∀ t c st' out, Logged y (y.entered self (.mutexUnlock m)
          ⟨{ y.toKernel with sched := s }.setMutex m x, Kernel.sleepOr (some st) [] woken, woken⟩)
          (.returned t c st' out) → st' = st := by
        intro t c st' out logged
        rw [logged_entered, List.append_assoc] at logged
        rcases List.mem_append.mp logged with outcome | signals
        · unfold Kernel.sleepOr at outcome
          cases woken <;> simp [outcomeEntries] at outcome <;> exact outcome.2.2.1
        · rcases mem_signalEntries signals with ⟨_, _, same⟩ | ⟨_, _, same⟩ <;> cases same
      dsimp only at own status
      rw [callerStatus_sleepOr] at own
      cases unlocks with
      | notOwner other => exact absurd mine other
      | held _ deep =>
        rw [once] at deep
        cases deep
      | frees _ _ empty =>
        refine ⟨by simp [System.entered, Kernel.setMutex, empty], by simp [System.entered, Kernel.setMutex], own, ?_,
          answered⟩
        intro t other
        rw [status, if_neg other, empty]
        simp
      | hands _ _ shape =>
        refine ⟨by simp [System.entered, Kernel.setMutex, shape], by simp [System.entered, Kernel.setMutex], own, ?_,
          answered⟩
        intro t other
        rw [status, if_neg other, shape]
        simp

namespace PowerSupply
open Port (Placement)

/-- Every call about `g_status_mutex` that has returned has returned `NIMBLE_OK`. -/
def Granted (y : System) : Prop :=
  ∀ t c st out, Entry.returned t c st out ∈ y.log → c.object = some (.mutex statusMutex) → st = .ok

theorem Granted.step {y z : System} {event : Event} (granted : Granted y) (linked : Linked y)
    (stepped : y.step event = some z)
    (now : ∀ t c st out, Logged y z (.returned t c st out) → c.object = some (.mutex statusMutex) → st = .ok) :
    Granted z := by
  obtain ⟨entries, log⟩ : ∃ entries, z.log = entries ++ y.log := by
    cases linked.step_touches stepped (.mutex statusMutex) with
    | aside aside => exact ⟨_, aside.log.choose_spec.1⟩
    | ticks =>
      exact ⟨Entry.requested :: y.sched.expired.map (Entry.woken · .tick) ++ [.ticked], by simp [System.ticked]⟩
    | interrupts | enters => exact ⟨_, rfl⟩
    | finishes => exact ⟨[_], rfl⟩
  intro t c st out member about
  rw [log] at member
  rcases List.mem_append.mp member with new | old
  · exact now t c st out ⟨entries, log, new⟩ about
  · exact granted t c st out old about

/-- How a task that stands at a place stands to `g_status_mutex`. -/
inductive Locking {F : Type} (y : System) (t : TaskId) : Place F → Prop where
  | outside {p : Place F} (apart : p.accessing = false) (other : (y.mutexes statusMutex).owner ≠ some t)
      (free : (y.waitStatus t).on (.mutex statusMutex) = .awake) : Locking y t p
  | holds {call : StatusCall F} {rest : List (Access F)} {back : Place F} (thread : y.pc t = .thread)
      (mine : (y.mutexes statusMutex).owner = some t) (up : y.sched.Up t) : Locking y t (.access call rest back)
  | waits {call : StatusCall F} {back : Place F} (dozes : y.Dozes t lockCall) (up : y.sched.Up t) :
      Locking y t (.access call call.body back)

namespace Locking
variable {F : Type} {y z : System} {t : TaskId} {p : Place F} {event : Event}

/-- Between the lock and the unlock a task that runs has the mutex. -/
theorem holder (locking : Locking y t p) (thread : y.pc t = .thread) (accessing : p.accessing = true) :
    (y.mutexes statusMutex).owner = some t ∧ y.sched.Up t := by
  cases locking with
  | outside apart =>
    rw [apart] at accessing
    cases accessing
  | holds _ mine up => exact ⟨mine, up⟩
  | waits dozes => exact absurd thread dozes.busy

/-- A task whose wait is unchanged and that neither gets nor loses the mutex. -/
theorem bystander (locking : Locking y t p) (status : z.waitStatus t = y.waitStatus t)
    (thread : y.pc t = .thread → z.pc t = .thread) (up : y.sched.Up t → z.sched.Up t)
    (owner : (z.mutexes statusMutex).owner = some t ↔ (y.mutexes statusMutex).owner = some t) :
    Locking z t p := by
  cases locking with
  | outside apart other free => exact .outside apart (mt owner.mp other) (by rw [status]; exact free)
  | holds here mine live => exact .holds (thread here) (owner.mpr mine) (up live)
  | waits dozes live => exact .waits (by unfold Dozes; rw [status]; exact dozes) (up live)

/-- Whoever resumes was handed the mutex; the others stay where they are. -/
theorem step (locking : Locking y t p) (linked : Linked y) (owned : Owned statusMutex y)
    (stepped : y.step event = some z) (unsuspending : ∀ u, event ≠ .call (.taskSuspend u))
    (other : ∀ c, event = .call c → y.running ≠ some t)
    (same : z.mutexes statusMutex = y.mutexes statusMutex)
    (away : (y.waitStatus t).on (.mutex statusMutex) = .awake → (z.waitStatus t).on (.mutex statusMutex) = .awake) :
    Locking z t p := by
  have lives := up_step (t := t) linked stepped unsuspending
  cases locking with
  | outside apart notMine free => exact .outside apart (by rw [same]; exact notMine) (away free)
  | holds thread mine up => exact .holds (step_bystander stepped thread other).1 (by rw [same]; exact mine) (lives up)
  | waits dozes up =>
    rcases dozes.step linked rfl rfl stepped with dozes | returns
    · exact .waits dozes (lives up)
    · cases returns with
      | intro _ _ woken => exact .holds (by simp [finished]) (by rw [same]; exact owned.handed t _ woken) (lives up)

/-- Whoever resumes inside a call of the mutex was handed it. -/
theorem resumes_ok {b : BlockingCall} {st : Status} {out : Bytes} {k : Kernel} (locking : Locking y t p)
    (linked : Linked y) (owned : Owned statusMutex y) (running : y.running = some t) (here : y.pc t = .parked b)
    (ran : y.toKernel.resume t b = some (st, out, k)) (about : b.object = some (.mutex statusMutex)) : st = .ok := by
  have parked := linked.status_parked running here
  cases locking with
  | outside _ _ free =>
    rw [parked, WaitStatus.on, if_pos about] at free
    cases free
  | holds thread =>
    rw [thread] at here
    cases here
  | waits dozes =>
    unfold Dozes at dozes
    rw [parked] at dozes
    rcases dozes with waiting | woken
    · cases waiting
    · obtain ⟨rfl, _⟩ := WaitStatus.woken.inj woken
      exact (owned.resumed linked running here ran).2.1.mpr (parked.trans woken)

end Locking

namespace Demo
variable {F : Type} {scaling : Scaling F} {x z : Demo F} {self t : TaskId}

/-- The mutex is locked once at a time, and every task stands to it as its
place says. -/
structure Locked (x : Demo F) : Prop where
  linked : Linked x.system
  coded : x.Coded
  owned : Owned statusMutex x.system
  single : (x.system.mutexes statusMutex).owner ≠ none → (x.system.mutexes statusMutex).lockCount = 1
  granted : Granted x.system
  standing : ∀ t, Locking x.system t (x.place t)

namespace Locked

/-- A step that is no call leaves the mutex and every task's standing. -/
theorem kernel {event : Event} {system : System} (locked : x.Locked) (uncalled : ∀ c, event ≠ .call c)
    (stepped : x.system.step event = some system) : Locked { x with system } := by
  have same : system.mutexes statusMutex = x.system.mutexes statusMutex :=
    mutex_uncalled locked.linked uncalled stepped
  have shallow : x.system.overflowsLock event = false := by
    cases event with
    | call c => exact absurd rfl (uncalled c)
    | _ => rfl
  refine ⟨locked.linked.step stepped, locked.coded, locked.owned.step locked.linked shallow stepped, ?_,
    locked.granted.step locked.linked stepped ?_, ?_⟩
  · rw [same]
    exact locked.single
  · intro t c st out logged about
    cases locked.linked.step_touches stepped (.mutex statusMutex) with
    | aside aside => exact absurd logged (aside.not_logged about)
    | ticks => exact absurd logged (ticked_not_logged (o := .mutex statusMutex) about)
    | @interrupts c _ _ _ _ about => cases c <;> cases about
    | @enters self c r entered origin =>
      rcases origin with call | internal
      · exact absurd call (uncalled c)
      · exact absurd entered (internal_object internal)
    | finishes about running here ran =>
      cases (logged_finished _).mp logged
      exact (locked.standing t).resumes_ok locked.linked locked.owned running here ran about
  · intro t
    have touched : Uncalled x.system event (.mutex statusMutex) system :=
      uncalled_touches locked.linked (fun t c here => internal_object (locked.linked.internal t c here)) uncalled
        stepped
    refine (locked.standing t).step locked.linked locked.owned stepped (fun u => uncalled _)
      (fun c call => absurd call (uncalled c)) same ?_
    intro free
    by_contra engaged
    exact touched.engaged locked.linked engaged free

/-- A call about something else, made outside the status functions. -/
theorem elsewhere {c : Call} {there : Place F} {system : System} (locked : x.Locked)
    (running : x.system.running = some self) (outside : (x.place self).accessing = false)
    (other : ∀ m, c.object ≠ some (.mutex m)) (unsuspending : ∀ t, c ≠ .taskSuspend t)
    (stepped : x.system.step (.call c) = some system) (onward : there.accessing = false)
    (coded : Coded { x with system, place := Function.update x.place self there }) :
    Locked { x with system, place := Function.update x.place self there } := by
  have linked := locked.linked
  have aside : Aside x.system system (.mutex statusMutex) := by
    refine linked.step_aside stepped (by simp) (by simp) ?_ (by simp)
    rintro _ ⟨⟩
    exact other statusMutex
  have same : system.mutexes statusMutex = x.system.mutexes statusMutex := aside.object
  have shallow : x.system.overflowsLock (.call c) = false := by
    unfold overflowsLock
    split
    · rename_i m _ call
      cases call
      exact absurd rfl (other m)
    · rfl
  refine ⟨linked.step stepped, coded, locked.owned.step linked shallow stepped, by rw [same]; exact locked.single,
    locked.granted.step linked stepped fun _ _ _ _ logged about => absurd logged (aside.not_logged about), ?_⟩
  intro t
  by_cases mine : t = self
  · subst mine
    have before := locked.standing t
    generalize x.place t = p at before outside
    cases before with
    | outside _ notMine free =>
      refine .outside (by simpa using onward) (by rw [same]; exact notMine) ?_
      rw [aside.status]
      exact free
    | holds | waits => cases outside
  · simp only [Function.update_of_ne mine]
    refine (locked.standing t).step linked locked.owned stepped (by simpa using unsuspending) ?_ same ?_
    · rintro _ _ again
      exact mine (Option.some.inj (again.symm.trans running))
    · rw [aside.status]
      exact id

/-- Whoever calls for the lock is not in it. -/
theorem locks {call : StatusCall F} {back : Place F} {system : System} (locked : x.Locked)
    (running : x.system.running = some self) (thread : x.system.pc self = .thread)
    (here : x.place self = .lock call back)
    (stepped : x.system.step (.call (.blocking lockCall)) = some system)
    (coded : Coded { x with system, place := Function.update x.place self (.access call call.body back) }) :
    Locked { x with system, place := Function.update x.place self (.access call call.body back) } := by
  have linked := locked.linked
  have busy : ∀ b, x.system.pc self ≠ .requesting b := by simp [thread]
  have state := linked.self_running running busy
  have up : x.system.sched.Up self := by simp [Sched.Up, state]
  have notMine : (x.system.mutexes statusMutex).owner ≠ some self := by
    have before := locked.standing self
    rw [here] at before
    cases before with
    | outside _ other => exact other
  have shallow : x.system.overflowsLock (.call (.blocking lockCall)) = false := by
    simp [overflowsLock, lockCall, running, notMine]
  have owned := locked.owned.step linked shallow stepped
  have bystands : ∀ t, t ≠ self → x.system.pc t = .thread → system.pc t = .thread := by
    intro t other here
    exact (step_bystander stepped here fun _ _ again => other (Option.some.inj (again.symm.trans running))).1
  cases step_cases stepped with
  | @calls self' _ r running' _ _ allowed ran =>
    obtain rfl := Option.some.inj (running.symm.trans running')
    have status := linked.status_entered running busy allowed ran
    refine ⟨linked.step stepped, coded, owned, ?_, locked.granted.step linked stepped ?_, ?_⟩
    · cases call_spec ran with
      | locks locks =>
        cases locks with
        | free => simp [entered, Kernel.setMutex]
        | again mine => exact absurd mine notMine
        | refused | sleeps => simpa [entered, Kernel.setMutex] using locked.single
    · intro t c st out logged _
      rw [logged_entered] at logged
      cases call_spec ran with
      | locks locks =>
        cases locks with
        | free | again => simp_all [Kernel.sleepOr, outcomeEntries, wokenEntries, gaveEntries, givesTo, lockCall]
        | refused _ _ hurried => cases hurried
        | sleeps => simp [Kernel.sleepOr, outcomeEntries, wokenEntries, gaveEntries, givesTo] at logged
    · intro t
      have lives := up_step (t := t) linked stepped (by simp)
      dsimp only
      rw [Function.update_apply]
      by_cases mine : t = self
      · subst mine
        rw [if_pos rfl]
        cases call_spec ran with
        | locks locks =>
          cases locks with
          | free =>
            exact .holds (by simp [entered, Kernel.sleepOr, outcomePc]) (by simp [entered, Kernel.setMutex]) (lives up)
          | again mine => exact absurd mine notMine
          | refused _ _ hurried => cases hurried
          | sleeps => exact .waits (.inl (by rw [status, if_pos rfl]; rfl)) (lives up)
      · rw [if_neg mine]
        have same := status t
        rw [if_neg mine] at same
        refine (locked.standing t).bystander ?_ (bystands t mine) lives ?_
        · rw [same]
          cases call_spec ran with
          | locks => rfl
        · cases call_spec ran with
          | locks locks =>
            cases locks with
            | free unowned => simp [entered, Kernel.setMutex, unowned, Ne.symm mine]
            | again mine => exact absurd mine notMine
            | refused | sleeps => simp [entered, Kernel.setMutex]

/-- The unlock is that of the only lock, and hands the mutex to a waiter if
there is one. -/
theorem unlocks {call : StatusCall F} {back : Place F} {system : System} (locked : x.Locked)
    (running : x.system.running = some self) (thread : x.system.pc self = .thread)
    (here : x.place self = .access call [] back)
    (stepped : x.system.step (.call (.mutexUnlock statusMutex)) = some system)
    (coded : Coded { x with system, place := Function.update x.place self (.leave call back) }) :
    Locked { x with system, place := Function.update x.place self (.leave call back) } := by
  have linked := locked.linked
  obtain ⟨mine, _⟩ := (locked.standing self).holder thread (by rw [here]; rfl)
  have released := released_of_step linked running thread mine (locked.single (by simp [mine])) stepped
  refine ⟨linked.step stepped, coded, locked.owned.step linked rfl stepped, released.single,
    locked.granted.step linked stepped fun t c st out logged _ => released.returned t c st out logged, ?_⟩
  intro t
  have lives := up_step (t := t) linked stepped (by simp)
  have owner := released.owner
  dsimp only
  rw [Function.update_apply]
  by_cases caller : t = self
  · subst caller
    rw [if_pos rfl]
    refine .outside rfl ?_ (by rw [released.awake]; rfl)
    rw [owner]
    intro first
    obtain ⟨b, waiting, _⟩ := linked.listed_waiting.mp (List.mem_of_head? first)
    rw [Linked.status_running (by rw [thread]; rfl)] at waiting
    cases waiting
  · rw [if_neg caller]
    have standing := locked.standing t
    have notMine : (x.system.mutexes statusMutex).owner ≠ some t := by
      rw [mine]
      exact fun same => caller (Option.some.inj same).symm
    have status := released.others t caller
    by_cases first : (x.system.sched.events.items (.mutex statusMutex)).head? = some t
    · -- the waiter that is handed the mutex wakes inside its lock
      have engaged := engaged_of_listed (o := .mutex statusMutex) linked rfl (List.mem_of_head? first)
      generalize x.place t = p at standing
      cases standing with
      | outside _ _ free => exact absurd free engaged
      | holds _ owner => exact absurd owner notMine
      | waits dozes up => exact .waits (dozes.woken status) (lives up)
    · rw [if_neg first] at status
      refine standing.bystander status ?_ lives (iff_of_false (by rw [owner]; exact first) notMine)
      intro here
      exact (step_bystander stepped here fun _ _ again => caller (Option.some.inj (again.symm.trans running))).1

/-- An access is made by the owner. -/
theorem accesses {call : StatusCall F} {access : Access F} {rest more : List (Access F)} {back : Place F}
    {status : PsStatus F} {out : TaskId → PsStatus F} (locked : x.Locked) (thread : x.system.pc self = .thread)
    (here : x.place self = .access call (access :: rest) back)
    (coded : Coded { x with status, out, place := Function.update x.place self (.access call more back) }) :
    Locked { x with status, out, place := Function.update x.place self (.access call more back) } := by
  refine ⟨locked.linked, coded, locked.owned, locked.single, locked.granted, ?_⟩
  intro t
  dsimp only
  rw [Function.update_apply]
  split
  · rename_i same
    subst same
    obtain ⟨mine, up⟩ := (locked.standing t).holder thread (by rw [here]; rfl)
    exact .holds thread mine up
  · exact locked.standing t

theorem does (locked : x.Locked) (does : Does scaling x z) : z.Locked := by
  have coded := locked.coded.does does
  cases does with
  | kernel uncalled stepped => exact locked.kernel uncalled stepped
  | creates | samples => exact ⟨locked.linked, coded, locked.owned, locked.single, locked.granted, locked.standing⟩
  | @states self _ running thread ran =>
    cases (acts_of_statement (locked.coded self) ran).1 with
    | locks here stepped => exact locked.locks running thread here stepped coded
    | unlocks here stepped => exact locked.unlocks running thread here stepped coded
    | accesses here => exact locked.accesses thread here coded
    | takes here stepped =>
      exact locked.elsewhere running (by rw [here]; rfl) (by simp [takeFaultCall, Call.object, BlockingCall.object])
        (by simp) stepped rfl coded
    | receives here stepped =>
      exact locked.elsewhere running (by rw [here]; rfl)
        (by simp [receiveSampleCall, Call.object, BlockingCall.object]) (by simp) stepped rfl coded
    | receivesByte here stepped =>
      exact locked.elsewhere running (by rw [here]; rfl)
        (by simp [receiveByteCall, Call.object, BlockingCall.object]) (by simp) stepped rfl coded
    | calls outside _ apart stepped onward =>
      exact locked.elsewhere running outside apart.mutex apart.unsuspending stepped (Place.plain_iff.mp onward).1 coded
    | goes goes =>
      refine ⟨by rw [goes.system]; exact locked.linked, coded, by rw [goes.system]; exact locked.owned,
        by rw [goes.system]; exact locked.single, by rw [goes.system]; exact locked.granted, ?_⟩
      intro t
      rw [goes.system, goes.place, Function.update_apply]
      split
      · rename_i same
        subst same
        have before := locked.standing t
        have outside := goes.outside
        generalize x.place t = p at before outside
        cases before with
        | outside _ other free => exact .outside goes.onward.1 other free
        | holds | waits => cases outside
      · exact locked.standing t

end Locked

theorem locked_startUp (scaling : Scaling F) (place : Placement) : (startUp scaling place).Locked := by
  refine ⟨linked_boot demoConfig, inCode_entry, owned_boot demoConfig statusMutex,
    by simp [startUp, boot, Mutex.init], ?_, ?_⟩
  · rintro t c st out ⟨⟩
  intro t
  refine .outside ?_ (by simp [startUp, boot, Mutex.init]) rfl
  simp only [startUp, entryPlace]
  split
  · rfl
  split
  · rfl
  split
  · rfl
  split
  · rfl
  split <;> rfl

theorem locked_of_run {place : Placement} {guard : Demo F → DemoEvent → Prop}
    (run : DemoRun scaling place guard x) : x.Locked :=
  invariant_of_does Locked run (locked_startUp scaling place) fun _ _ locked => locked.does

/-- `t` is between the lock and the unlock, and at its own code. -/
def Inside (x : Demo F) (t : TaskId) : Prop := (x.place t).accessing = true ∧ x.system.pc t = .thread

/-- What holds of the status lock in every state of a run. -/
structure StatusLockSafe (x : Demo F) : Prop where
  exclusive : ∀ t u, x.Inside t → x.Inside u → t = u
  owner : ∀ t, x.Inside t → (x.system.mutexes statusMutex).owner = some t
  live : ∀ t, (x.system.mutexes statusMutex).owner = some t →
    (x.system.sched.tcb t).state = .ready ∨ (x.system.sched.tcb t).state = .running
  held : ∀ t b, x.system.waitStatus t = .waiting b → b.object = some (.mutex statusMutex) →
    ∃ u, u ≠ t ∧ (x.system.mutexes statusMutex).owner = some u
  granted : ∀ t c st out, Entry.returned t c st out ∈ x.system.log → c.object = some (.mutex statusMutex) → st = .ok

namespace Locked

theorem inside_owner (locked : x.Locked) (inside : x.Inside t) : (x.system.mutexes statusMutex).owner = some t := by
  obtain ⟨accessing, thread⟩ := inside
  exact ((locked.standing t).holder thread accessing).1

/-- The owner is ready or running: at its accesses, or handed the mutex on its
way there. -/
theorem owner_live (locked : x.Locked) (owner : (x.system.mutexes statusMutex).owner = some t) :
    (x.system.sched.tcb t).state = .ready ∨ (x.system.sched.tcb t).state = .running := by
  obtain ⟨up, awake⟩ : x.system.sched.Up t ∧ (x.system.sched.tcb t).state ≠ .blocked := by
    have standing := locked.standing t
    generalize x.place t = p at standing
    cases standing with
    | outside _ other => exact absurd owner other
    | holds thread _ up =>
      refine ⟨up, ?_⟩
      intro blocked
      obtain ⟨b, asleep, _⟩ := locked.linked.placed.blocked blocked
      rw [thread] at asleep
      cases asleep
    | waits dozes up =>
      refine ⟨up, ?_⟩
      intro blocked
      rcases dozes with waiting | woken
      · exact locked.owned.waiting t _ waiting owner
      · obtain ⟨b, asleep, _⟩ := locked.linked.placed.blocked blocked
        rw [Linked.waiting_iff.mpr ⟨blocked, asleep⟩] at woken
        cases woken
  obtain ⟨created, resumed⟩ := up
  cases state : (x.system.sched.tcb t).state with
  | ready => exact .inl rfl
  | running => exact .inr rfl
  | blocked => exact absurd state awake
  | suspended => exact absurd state resumed
  | deleted => exact absurd state created

end Locked

/-- In every run of the demo, whatever the samples, the bytes received and the
order in which the scheduler runs ready tasks. -/
theorem status_lock_safe {place : Placement} {guard : Demo F → DemoEvent → Prop}
    (run : DemoRun scaling place guard x) : StatusLockSafe x := by
  have locked := locked_of_run run
  refine ⟨?_, fun t => locked.inside_owner, fun t => locked.owner_live, ?_, locked.granted⟩
  · intro t u first second
    exact Option.some.inj ((locked.inside_owner first).symm.trans (locked.inside_owner second))
  · intro t b waiting about
    obtain ⟨d, rfl⟩ : ∃ d, b = .mutexLock statusMutex d := by
      cases b with
      | mutexLock m d => exact ⟨d, by simpa [BlockingCall.object] using about⟩
      | _ => cases about
    have listed : t ∈ x.system.sched.events.items (.mutex statusMutex) :=
      locked.linked.listed_waiting.mpr ⟨_, waiting, rfl⟩
    cases owner : (x.system.mutexes statusMutex).owner with
    | none =>
      rw [locked.owned.unowned owner] at listed
      cases listed
    | some u => exact ⟨u, fun same => locked.owned.waiting t d waiting (by rw [owner, same]), rfl⟩

instance (x : Demo F) (t : TaskId) : Decidable (x.Inside t) := by
  unfold Inside
  infer_instance

/-- A sample comes while LoggerTask copies the status, and ControlTask sleeps
at the mutex until the copy is done. -/
def contended : List DemoEvent :=
  List.replicate 6 DemoEvent.main ++
    [DemoEvent.task, .task, .pendSV, .task, .task, .pendSV, .task, .task, .task, .pendSV, .task, .task, .task,
      .pendSV] ++
    [DemoEvent.task, .task, .adc 5, .pendSV, .task, .task, .task, .task, .pendSV]

set_option maxRecDepth 20000 in
theorem contended_status_lock : ∃ x, DemoRun rawLimit onBoard GuardedRun.Free x ∧ x.Inside Port.logger ∧
    x.system.waitStatus Port.control = .waiting lockCall ∧ StatusLockSafe x := by
  obtain ⟨x, run, reached⟩ : ∃ x, DemoRun rawLimit onBoard GuardedRun.Free x ∧
      decide (x.Inside Port.logger ∧ x.system.waitStatus Port.control = .waiting lockCall) = true :=
    GuardedRun.reaches_of_exec contended _ (by decide +kernel)
  obtain ⟨inside, waits⟩ := of_decide_eq_true reached
  exact ⟨x, run, inside, waits, status_lock_safe run⟩

end Demo
end PowerSupply
end NimbleRtos
