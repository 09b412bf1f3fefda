import NimbleRtos.System

/-! What a kernel call can do to the scheduler, said once for all calls: keep
it, put the caller to sleep, wake a waiter, or create, suspend or resume a
task. Properties of the scheduler alone are proved from these cases. The last
section lists the ways a step of the whole system can go. -/
namespace NimbleRtos
open NodeRings Sched

/-- TCBs differ in their effective priorities at most. -/
structure SameButPriority (s s' : Sched) : Prop where
  state : ∀ t, (s'.tcb t).state = (s.tcb t).state
  wakeTick : ∀ t, (s'.tcb t).wakeTick = (s.tcb t).wakeTick
  result : ∀ t, (s'.tcb t).lastWaitResult = (s.tcb t).lastWaitResult
  base : ∀ t, (s'.tcb t).basePriority = (s.tcb t).basePriority
  links : s'.links = s.links
  bitmap : s'.readyBitmap = s.readyBitmap
  events : s'.events = s.events
  rest : SameRest s s'

@[refl] theorem SameButPriority.refl (s : Sched) : SameButPriority s s :=
  ⟨fun _ => rfl, fun _ => rfl, fun _ => rfl, fun _ => rfl, rfl, rfl, rfl, ⟨rfl, rfl, rfl⟩⟩

theorem same_setPriority (s : Sched) (t : TaskId) (p : Nat) :
    SameButPriority s (s.setPriority t p) := by
  refine ⟨fun u => ?_, fun u => ?_, fun u => ?_, fun u => ?_, rfl, rfl, rfl, ⟨rfl, rfl, rfl⟩⟩ <;>
    by_cases same : u = t <;> simp [setPriority, same]

/-- The priority a call changes before anything else: none, a contended lock
may raise the owner's, a final unlock restores the caller's own. -/
inductive Reprioritised (k : Kernel) (self : TaskId) (c : Call) : Sched → Prop where
  | same : Reprioritised k self c k.sched
  | boosted {m : MutexId} {timeoutTicks : Tick} {owner : TaskId}
      (call : c = .blocking (.mutexLock m timeoutTicks)) (owned : (k.mutexes m).owner = some owner)
      (other : owner ≠ self) (patient : timeoutTicks ≠ noWait)
      (lower : (k.sched.tcb owner).priority < (k.sched.tcb self).priority) :
      Reprioritised k self c (k.sched.setPriority owner (k.sched.tcb self).priority)
  | restored {m : MutexId} (call : c = .mutexUnlock m) (mine : (k.mutexes m).owner = some self)
      (last : (k.mutexes m).lockCount - 1 = 0) :
      Reprioritised k self c (Mutex.restored k.sched self)

theorem Reprioritised.rest {k : Kernel} {self : TaskId} {c : Call} {s : Sched}
    (changed : Reprioritised k self c s) : SameButPriority k.sched s := by
  cases changed with
  | same => exact .refl _
  | boosted | restored => exact same_setPriority _ _ _

theorem reprioritised_boost {k : Kernel} {self owner : TaskId} {m : MutexId} {timeoutTicks : Tick}
    (owned : (k.mutexes m).owner = some owner) (other : owner ≠ self)
    (patient : timeoutTicks ≠ noWait) :
    Reprioritised k self (.blocking (.mutexLock m timeoutTicks))
      (Mutex.boost k.sched owner self) := by
  unfold Mutex.boost
  split
  · exact .boosted rfl owned other patient ‹_›
  · exact .same

/-- The caller's `event_link` was threaded on the list it sleeps on, if any. -/
def Enlisted (s : Sched) (self : TaskId) (list : Option WaitList) (s' : Sched) : Prop :=
  match list with
  | none => s' = s
  | some h => s.events.ring self = none ∧ s' = s.enqueued h self

/-- Threading a waiter leaves everything else alone. -/
theorem Enlisted.tcb {s s' : Sched} {self : TaskId} {list : Option WaitList}
    (enlisted : Enlisted s self list s') : s'.tcb = s.tcb := by
  cases list with
  | none => rw [show s' = s from enlisted]
  | some h => rw [enlisted.2]; rfl

theorem Enlisted.links {s s' : Sched} {self : TaskId} {list : Option WaitList}
    (enlisted : Enlisted s self list s') : s'.links = s.links := by
  cases list with
  | none => rw [show s' = s from enlisted]
  | some h => rw [enlisted.2]; rfl

theorem Enlisted.rest {s s' : Sched} {self : TaskId} {list : Option WaitList}
    (enlisted : Enlisted s self list s') : SameRest s s' := by
  cases list with
  | none => rw [show s' = s from enlisted]; exact ⟨rfl, rfl, rfl⟩
  | some h => rw [enlisted.2]; exact ⟨rfl, rfl, rfl⟩

theorem Enlisted.bitmap {s s' : Sched} {self : TaskId} {list : Option WaitList}
    (enlisted : Enlisted s self list s') : s'.readyBitmap = s.readyBitmap := by
  cases list with
  | none => rw [show s' = s from enlisted]
  | some h => rw [enlisted.2]; rfl

theorem Enlisted.ring {s s' : Sched} {self : TaskId} {list : Option WaitList}
    (enlisted : Enlisted s self list s') (unlisted : s.events.ring self = none) :
    s'.events.ring = Function.update s.events.ring self list := by
  cases list with
  | none => rw [show s' = s from enlisted, Function.update_eq_self_iff.mpr unlisted.symm]
  | some h => rw [enlisted.2]; exact Rings.link_ring unlisted

/-- The tick a sleep ends at by itself. -/
def Sched.wakesAt (s : Sched) (b : BlockingCall) : Option Tick :=
  if b.timed then some (s.tickCount + b.ticks) else none

theorem wakesAt_timeout (s : Sched) {b : BlockingCall} (listed : b.waitList ≠ none) :
    s.wakesAt b = s.deadline b.ticks := by
  cases b <;> simp [Sched.wakesAt, deadline, BlockingCall.timed, BlockingCall.waitList] at *

/-- The ways the first critical section of a call by `self` can end. -/
inductive Calls (k : Kernel) (self : TaskId) : Call → CallResult → Prop where
  | delaysNothing : Calls k self (.blocking (.taskDelay 0)) ⟨k, .returns .ok [], none⟩
  | delays {ticks : Tick} {s : Sched} (positive : ticks ≠ 0)
      (slept : Slept k.sched self (some (k.sched.tickCount + ticks)) s) :
      Calls k self (.blocking (.taskDelay ticks)) ⟨{ k with sched := s }, .blocks, none⟩
  | locks {m : MutexId} {timeoutTicks : Tick} {st : Option Status} {x : Mutex} {s : Sched}
      (locks : Mutex.Locks m (k.mutexes m) k.sched self timeoutTicks st x s) :
      Calls k self (.blocking (.mutexLock m timeoutTicks))
        ⟨{ k with sched := s }.setMutex m x, Kernel.sleepOr st [] none, none⟩
  | takes {id : SemaphoreId} {timeoutTicks : Tick} {st : Option Status} {x : Semaphore} {s : Sched}
      (takes : Semaphore.Takes id (k.semaphores id) k.sched self timeoutTicks st x s) :
      Calls k self (.blocking (.semaphoreTake id timeoutTicks))
        ⟨{ k with sched := s }.setSemaphore id x, Kernel.sleepOr st [] none, none⟩
  | sends {q : QueueId} {item : Bytes} {timeoutTicks : Tick} {st : Option Status}
      {woken : Option TaskId} {x : Queue} {s : Sched}
      (sends : Queue.Sends q (k.queues q) k.sched self item timeoutTicks st woken x s) :
      Calls k self (.blocking (.queueSend q item timeoutTicks))
        ⟨{ k with sched := s }.setQueue q x, Kernel.sleepOr st [] woken, woken⟩
  | receives {q : QueueId} {timeoutTicks : Tick} {st : Option Status} {out : Bytes}
      {woken : Option TaskId} {x : Queue} {s : Sched}
      (receives : Queue.Receives q (k.queues q) k.sched self timeoutTicks st out woken x s) :
      Calls k self (.blocking (.queueReceive q timeoutTicks))
        ⟨{ k with sched := s }.setQueue q x, Kernel.sleepOr st out woken, woken⟩
  | creates {a : TaskArgs} {st : Status} {s : Sched}
      (created : k.sched.taskCreate a = some (st, s)) :
      Calls k self (.taskCreate a) ⟨{ k with sched := s }, .returns st [], none⟩
  | yields : Calls k self .taskYield ⟨k, .switches .ok [], none⟩
  | suspends {t : TaskId} :
      Calls k self (.taskSuspend t)
        ⟨{ k with sched := (k.sched.taskSuspend t).2 },
          if (k.sched.taskSuspend t).1 then .switches .ok [] else .returns .ok [], none⟩
  | resumes {t : TaskId} {s : Sched} (resumed : k.sched.taskResume t = some s) :
      Calls k self (.taskResume t) ⟨{ k with sched := s }, .returns .ok [], none⟩
  | unlocks {m : MutexId} {st : Status} {woken : Option TaskId} {x : Mutex} {s : Sched}
      (unlocks : Mutex.Unlocks m (k.mutexes m) k.sched self st woken x s) :
      Calls k self (.mutexUnlock m)
        ⟨{ k with sched := s }.setMutex m x, Kernel.sleepOr (some st) [] woken, woken⟩
  | gives {id : SemaphoreId} {woken : Option TaskId} {x : Semaphore} {s : Sched}
      (gives : Semaphore.Gives id (k.semaphores id) k.sched woken x s) :
      Calls k self (.semaphoreGive id)
        ⟨{ k with sched := s }.setSemaphore id x, Kernel.sleepOr (some .ok) [] woken, woken⟩
  | timerInits {x : TimerId} {periodTicks : Tick} {isPeriodic : Bool} {callback arg : UInt32}
      {timers : Timers}
      (initialised : k.timers.timerInit x periodTicks isPeriodic callback arg = some timers) :
      Calls k self (.timerInit x periodTicks isPeriodic callback arg)
        ⟨{ k with timers }, .returns .ok [], none⟩
  | timerStarts {x : TimerId} {becameNewHead : Bool} {timers : Timers}
      (started : k.timers.timerStart k.sched.tickCount x = some (becameNewHead, timers)) :
      Calls k self (.timerStart x)
        ⟨{ k with timers },
          if becameNewHead then .calls (.semaphoreGive timerWakeSem) else .returns .ok [], none⟩
  | timerStops {x : TimerId} :
      Calls k self (.timerStop x)
        ⟨{ k with timers := k.timers.timerStop x }, .returns .ok [], none⟩
  | timerResets {x : TimerId} {newPeriodTicks : Tick} :
      Calls k self (.timerReset x newPeriodTicks)
        ⟨{ k with timers := k.timers.timerReset x newPeriodTicks }, .calls (.timerStart x), none⟩
  | timerSleeps :
      Calls k self .timerSleep
        ⟨k, .calls (.blocking (.semaphoreTake timerWakeSem
          (k.timers.waitTicks k.sched.tickCount))), none⟩
  | timerRests {timers : Timers}
      (expired : k.timers.expire k.sched.tickCount = some (.idle, timers)) :
      Calls k self .timerExpire ⟨{ k with timers }, .returns .ok [], none⟩
  | timerFires {x : TimerId} {callback arg : UInt32} {timers : Timers}
      (expired : k.timers.expire k.sched.tickCount = some (.fires x callback arg, timers)) :
      Calls k self .timerExpire ⟨{ k with timers }, .fires x callback arg, none⟩

private theorem block_spec {k : Kernel} {self : TaskId} {b : BlockingCall} {r : CallResult}
    (ran : k.block self b = some r) : Calls k self (.blocking b) r := by
  cases b with
  | taskDelay ticks =>
    simp only [Kernel.block] at ran
    split at ran
    · rename_i zero
      cases ran; subst zero; exact .delaysNothing
    · rename_i positive
      simp only [Option.bind_eq_bind, Option.bind_eq_some_iff, Option.some.injEq] at ran
      obtain ⟨_, delayed, rfl⟩ := ran
      exact .delays positive (blockCurrentDelay_spec delayed)
  | mutexLock m timeoutTicks =>
    simp only [Kernel.block, Option.bind_eq_bind, Option.bind_eq_some_iff, Prod.exists,
      Option.some.injEq] at ran
    obtain ⟨_, _, _, locked, rfl⟩ := ran
    exact .locks (Mutex.lock_spec locked)
  | semaphoreTake id timeoutTicks =>
    simp only [Kernel.block, Option.bind_eq_bind, Option.bind_eq_some_iff, Prod.exists,
      Option.some.injEq] at ran
    obtain ⟨_, _, _, taken, rfl⟩ := ran
    exact .takes (Semaphore.take_spec taken)
  | queueSend q item timeoutTicks =>
    simp only [Kernel.block, Option.bind_eq_bind, Option.bind_eq_some_iff, Prod.exists,
      Option.some.injEq] at ran
    obtain ⟨_, _, _, _, sent, rfl⟩ := ran
    exact .sends (Queue.send_spec sent)
  | queueReceive q timeoutTicks =>
    simp only [Kernel.block, Option.bind_eq_bind, Option.bind_eq_some_iff, Prod.exists,
      Option.some.injEq] at ran
    obtain ⟨_, _, _, _, _, received, rfl⟩ := ran
    exact .receives (Queue.receive_spec received)

theorem call_spec {k : Kernel} {self : TaskId} {c : Call} {r : CallResult}
    (ran : k.call self c = some r) : Calls k self c r := by
  cases c with
  | blocking b => exact block_spec ran
  | taskCreate a =>
    simp only [Kernel.call, Option.bind_eq_bind, Option.bind_eq_some_iff, Prod.exists,
      Option.some.injEq] at ran
    obtain ⟨_, _, created, rfl⟩ := ran
    exact .creates created
  | taskYield => cases ran; exact .yields
  | taskSuspend t => cases ran; exact .suspends
  | taskResume t =>
    simp only [Kernel.call, Option.bind_eq_bind, Option.bind_eq_some_iff, Option.some.injEq] at ran
    obtain ⟨_, resumed, rfl⟩ := ran
    exact .resumes resumed
  | mutexUnlock m =>
    simp only [Kernel.call, Option.bind_eq_bind, Option.bind_eq_some_iff, Prod.exists,
      Option.some.injEq] at ran
    obtain ⟨_, _, _, _, unlocked, rfl⟩ := ran
    exact .unlocks (Mutex.unlock_spec unlocked)
  | semaphoreGive id =>
    simp only [Kernel.call, Semaphore.give, Option.bind_eq_bind, Option.bind_eq_some_iff,
      Prod.exists, Option.some.injEq] at ran
    obtain ⟨_, _, _, gave, rfl⟩ := ran
    exact .gives (Semaphore.giveUnit_spec gave)
  | timerInit =>
    simp only [Kernel.call, Option.bind_eq_bind, Option.bind_eq_some_iff, Option.some.injEq] at ran
    obtain ⟨_, initialised, rfl⟩ := ran
    exact .timerInits initialised
  | timerStart =>
    simp only [Kernel.call, Option.bind_eq_bind, Option.bind_eq_some_iff, Prod.exists,
      Option.some.injEq] at ran
    obtain ⟨_, _, started, rfl⟩ := ran
    exact .timerStarts started
  | timerStop => cases ran; exact .timerStops
  | timerReset => cases ran; exact .timerResets
  | timerSleep => cases ran; exact .timerSleeps
  | timerExpire =>
    simp only [Kernel.call, Option.bind_eq_bind, Option.bind_eq_some_iff, Prod.exists,
      Option.some.injEq] at ran
    obtain ⟨expiry, _, expired, rfl⟩ := ran
    cases expiry with
    | idle => exact .timerRests expired
    | fires => exact .timerFires expired

/-- How the first critical section of call `c` by `self` changes the
scheduler, with the way the call goes on and the task it woke. -/
inductive Effect (k : Kernel) (self : TaskId) (c : Call) :
    Outcome → Option TaskId → Sched → Prop where
  | keeps {o : Outcome} {s' : Sched} (awake : o ≠ .blocks)
      (changed : Reprioritised k self c s') : Effect k self c o none s'
  | sleeps {b : BlockingCall} {s₁ s₂ s' : Sched} (call : c = .blocking b)
      (positive : b.ticks ≠ 0) (changed : Reprioritised k self c s₁)
      (enlisted : Enlisted s₁ self b.waitList s₂) (slept : Slept s₂ self (k.sched.wakesAt b) s') :
      Effect k self c .blocks none s'
  | wakes {h : WaitList} {t : TaskId} {rest : List TaskId} {s₁ s' : Sched} {st : Status}
      {out : Bytes} (signals : c.signals = some h) (shape : k.sched.events.items h = t :: rest)
      (changed : Reprioritised k self c s₁) (woken : Woken s₁ t .ok s') :
      Effect k self c (.switches st out) (some t) s'
  | creates {a : TaskArgs} {t : TaskId} {s' : Sched} (call : c = .taskCreate a)
      (named : a.tcb = some t) (created : Created k.sched t a.priority s') :
      Effect k self c (.returns .ok []) none s'
  | suspends {t : TaskId} {s' : Sched} (call : c = .taskSuspend t)
      (suspended : Suspended k.sched t s') :
      Effect k self c (if k.sched.current = some t then .switches .ok [] else .returns .ok [])
        none s'
  | resumes {t : TaskId} {s' : Sched} (call : c = .taskResume t)
      (suspended : (k.sched.tcb t).state = .suspended) (readied : Readied k.sched t s') :
      Effect k self c (.returns .ok []) none s'

private theorem effect_of_wakes {k : Kernel} {s' : Sched} {self : TaskId} {c : Call} {h : WaitList}
    {woken : Option TaskId} {st : Status} {out : Bytes} (signals : c.signals = some h)
    (wakes : Wakes k.sched h woken s') :
    Effect k self c (Kernel.sleepOr (some st) out woken) woken s' := by
  cases wakes with
  | nobody empty => exact .keeps (by simp [Kernel.sleepOr]) .same
  | first shape woken => exact .wakes signals shape .same woken

/-- Every call has one of the effects. -/
theorem call_effect {k : Kernel} {self : TaskId} {c : Call} {r : CallResult}
    (ran : k.call self c = some r) :
    Effect k self c r.outcome r.woken r.kernel.sched := by
  cases call_spec ran with
  | delaysNothing | yields | timerInits | timerStops | timerResets | timerSleeps | timerRests
  | timerFires => exact .keeps (by simp) .same
  | delays positive slept => exact .sleeps rfl positive .same rfl slept
  | locks locks =>
    cases locks with
    | free | again | refused => exact .keeps (by simp [Kernel.sleepOr]) .same
    | sleeps owned other patient unlisted slept =>
      exact .sleeps rfl patient (reprioritised_boost owned other patient) ⟨by simpa using unlisted, rfl⟩
        (by rw [wakesAt_timeout _ (by simp [BlockingCall.waitList])]; exact slept)
  | takes takes =>
    cases takes with
    | counted | refused => exact .keeps (by simp [Kernel.sleepOr]) .same
    | sleeps _ patient unlisted slept =>
      exact .sleeps rfl patient .same ⟨unlisted, rfl⟩
        (by rw [wakesAt_timeout _ (by simp [BlockingCall.waitList])]; exact slept)
  | sends sends =>
    cases sends with
    | copies _ _ wakes => exact effect_of_wakes rfl wakes
    | refused => exact .keeps (by simp [Kernel.sleepOr]) .same
    | sleeps _ patient unlisted slept =>
      exact .sleeps rfl patient .same ⟨unlisted, rfl⟩
        (by rw [wakesAt_timeout _ (by simp [BlockingCall.waitList])]; exact slept)
  | receives receives =>
    cases receives with
    | copies _ _ wakes => exact effect_of_wakes rfl wakes
    | refused => exact .keeps (by simp [Kernel.sleepOr]) .same
    | sleeps _ patient unlisted slept =>
      exact .sleeps rfl patient .same ⟨unlisted, rfl⟩
        (by rw [wakesAt_timeout _ (by simp [BlockingCall.waitList])]; exact slept)
  | creates created =>
    rcases taskCreate_spec created with ⟨rfl, rfl⟩ | ⟨t, named, rfl, made⟩
    · exact .keeps (by simp) .same
    · exact .creates rfl named made
  | @suspends t =>
    rcases taskSuspend_spec (s := k.sched) (t := t) with ⟨isSelf, suspended⟩ | ⟨notSelf, same⟩
    · have suspends : Effect k self (.taskSuspend t) _ none _ := .suspends rfl suspended
      simpa [isSelf] using suspends
    · have keeps : Effect k self (.taskSuspend t) (.returns .ok []) none k.sched :=
        .keeps (by simp) .same
      simpa [notSelf, same] using keeps
  | resumes resumed =>
    rcases taskResume_spec resumed with ⟨suspended, readied⟩ | rfl
    · exact .resumes rfl suspended readied
    · exact .keeps (by simp) .same
  | unlocks unlocks =>
    cases unlocks with
    | notOwner | held => exact .keeps (by simp [Kernel.sleepOr]) .same
    | frees mine last => exact .keeps (by simp [Kernel.sleepOr]) (.restored rfl mine last)
    | hands mine last shape woken => exact .wakes rfl shape (.restored rfl mine last) woken
  | gives gives =>
    cases gives with
    | hands shape woken => exact .wakes rfl shape .same woken
    | counts | drops => exact .keeps (by simp [Kernel.sleepOr]) .same
  | timerStarts => exact .keeps (by dsimp only; split <;> simp) .same

/-- The calls a call may continue with. -/
def Call.Internal : Call → Prop
  | .semaphoreGive _ => True
  | .timerStart _ => True
  | .blocking (.semaphoreTake _ _) => True
  | _ => False

theorem sleepOr_calls {st : Option Status} {out : Bytes} {woken : Option TaskId}
    {c : Call} : Kernel.sleepOr st out woken ≠ .calls c := by
  cases st <;> cases woken <;> simp [Kernel.sleepOr]

theorem sleepOr_fires {st : Option Status} {out : Bytes} {woken : Option TaskId} {x : TimerId}
    {callback arg : UInt32} : Kernel.sleepOr st out woken ≠ .fires x callback arg := by
  cases st <;> cases woken <;> simp [Kernel.sleepOr]

/-- What a call can go on with. -/
theorem outcome_calls {k : Kernel} {self : TaskId} {c c' : Call} {r : CallResult}
    (ran : k.call self c = some r) (calls : r.outcome = .calls c') :
    c' = .semaphoreGive timerWakeSem ∧ (∃ x, c = .timerStart x) ∨ (∃ x, c' = .timerStart x) ∨
      c = .timerSleep ∧
        c' = .blocking (.semaphoreTake timerWakeSem (k.timers.waitTicks k.sched.tickCount)) := by
  cases call_spec ran with
  | locks | takes | sends | receives | unlocks | gives => exact absurd calls sleepOr_calls
  | suspends => dsimp only at calls; split at calls <;> cases calls
  | timerStarts =>
    dsimp only at calls
    split at calls <;> cases calls
    exact .inl ⟨rfl, _, rfl⟩
  | timerResets => cases calls; exact .inr (.inl ⟨_, rfl⟩)
  | timerSleeps => cases calls; exact .inr (.inr ⟨rfl, rfl⟩)
  | _ => cases calls

theorem call_continues {k : Kernel} {self : TaskId} {c c' : Call} {r : CallResult}
    (ran : k.call self c = some r) (calls : r.outcome = .calls c') : c'.Internal := by
  rcases outcome_calls ran calls with ⟨rfl, _⟩ | ⟨_, rfl⟩ | ⟨_, rfl⟩ <;> trivial

/-- The ways a call from an interrupt can end. -/
inductive Interrupts (k : Kernel) : IsrCall → Status → Bool → Option TaskId → Kernel → Prop where
  | gives {id : SemaphoreId} {woken : Option TaskId} {x : Semaphore} {s : Sched}
      (gives : Semaphore.Gives id (k.semaphores id) k.sched woken x s) :
      Interrupts k (.semaphoreGiveFromIsr id) .ok woken.isSome woken
        ({ k with sched := s }.setSemaphore id x)
  | sends {q : QueueId} {item : Bytes} {st : Status} {woken : Option TaskId} {x : Queue} {s : Sched}
      (sends : Queue.IsrSends q (k.queues q) k.sched item st woken x s) :
      Interrupts k (.queueSendFromIsr q item) st woken.isSome woken
        ({ k with sched := s }.setQueue q x)

theorem isrCall_spec {k k' : Kernel} {c : IsrCall} {st : Status} {needsYield : Bool}
    {woken : Option TaskId} (ran : k.isrCall c = some (st, needsYield, woken, k')) :
    Interrupts k c st needsYield woken k' := by
  cases c with
  | semaphoreGiveFromIsr id =>
    simp only [Kernel.isrCall, Option.bind_eq_bind, Option.bind_eq_some_iff, Prod.exists,
      Option.some.injEq, Prod.mk.injEq] at ran
    obtain ⟨_, _, _, _, gave, rfl, rfl, rfl, rfl⟩ := ran
    obtain ⟨rfl, gives⟩ := Semaphore.giveFromIsr_spec gave
    exact .gives gives
  | queueSendFromIsr q item =>
    simp only [Kernel.isrCall, Option.bind_eq_bind, Option.bind_eq_some_iff, Prod.exists,
      Option.some.injEq, Prod.mk.injEq] at ran
    obtain ⟨_, _, _, _, _, sent, rfl, rfl, rfl, rfl⟩ := ran
    obtain ⟨rfl, sends⟩ := Queue.sendFromIsr_spec sent
    exact .sends sends

/-- A call from an interrupt wakes a waiter, and then says so, or leaves the
scheduler alone. -/
theorem isr_effect {k k' : Kernel} {c : IsrCall} {st : Status} {needsYield : Bool}
    {woken : Option TaskId} (ran : k.isrCall c = some (st, needsYield, woken, k')) :
    needsYield = woken.isSome ∧
      (Wakes k.sched c.signals woken k'.sched ∨ (woken = none ∧ k'.sched = k.sched)) := by
  cases isrCall_spec ran with
  | gives gives =>
    cases gives with
    | hands shape woken => exact ⟨rfl, .inl (.first shape woken)⟩
    | counts | drops => exact ⟨rfl, .inr ⟨rfl, rfl⟩⟩
  | sends sends =>
    cases sends with
    | refused => exact ⟨rfl, .inr ⟨rfl, rfl⟩⟩
    | copies _ _ wakes => exact ⟨rfl, .inl wakes⟩

/-- The scheduler with the caller's own `event_link` taken off its list. -/
def Sched.detached (s : Sched) (self : TaskId) : Sched := { s with events := s.events.remove self }

/-- The ways the second critical section of a blocking call can end. -/
inductive Resumes (k : Kernel) (self : TaskId) :
    BlockingCall → Status → Bytes → Kernel → Prop where
  | delayed {ticks : Tick} : Resumes k self (.taskDelay ticks) .ok [] k
  | owns {m : MutexId} {timeoutTicks : Tick} (mine : (k.mutexes m).owner = some self) :
      Resumes k self (.mutexLock m timeoutTicks) .ok [] k
  | givesUp {m : MutexId} {timeoutTicks : Tick} (other : (k.mutexes m).owner ≠ some self) :
      Resumes k self (.mutexLock m timeoutTicks) .timeout []
        { k with sched := k.sched.detached self }
  | takes {id : SemaphoreId} {timeoutTicks : Tick} :
      Resumes k self (.semaphoreTake id timeoutTicks) (k.sched.tcb self).lastWaitResult []
        { k with sched := k.sched.detached self }
  | sends {q : QueueId} {item : Bytes} {timeoutTicks : Tick} {st : Status} {x : Queue}
      (resumes : Queue.SendResumes (k.queues q) k.sched self item st x) :
      Resumes k self (.queueSend q item timeoutTicks) st []
        ({ k with sched := k.sched.detached self }.setQueue q x)
  | receives {q : QueueId} {timeoutTicks : Tick} {st : Status} {out : Bytes} {x : Queue}
      (resumes : Queue.ReceiveResumes (k.queues q) k.sched self st out x) :
      Resumes k self (.queueReceive q timeoutTicks) st out
        ({ k with sched := k.sched.detached self }.setQueue q x)

theorem resume_spec {k k' : Kernel} {self : TaskId} {b : BlockingCall} {st : Status} {out : Bytes}
    (ran : k.resume self b = some (st, out, k')) : Resumes k self b st out k' := by
  cases b with
  | taskDelay => cases ran; exact .delayed
  | mutexLock =>
    simp only [Kernel.resume, Mutex.lockResumed, Option.some.injEq, Prod.mk.injEq] at ran
    obtain ⟨rfl, rfl, rfl⟩ := ran
    split
    · exact .owns ‹_›
    · exact .givesUp ‹_›
  | semaphoreTake => cases ran; exact .takes
  | queueSend =>
    simp only [Kernel.resume, Option.bind_eq_bind, Option.bind_eq_some_iff, Prod.exists,
      Option.some.injEq, Prod.mk.injEq] at ran
    obtain ⟨_, _, _, resumed, rfl, rfl, rfl⟩ := ran
    obtain ⟨rfl, resumes⟩ := Queue.sendResumed_spec resumed
    exact .sends resumes
  | queueReceive =>
    simp only [Kernel.resume, Option.bind_eq_bind, Option.bind_eq_some_iff, Prod.exists,
      Option.some.injEq, Prod.mk.injEq] at ran
    obtain ⟨_, _, _, _, resumed, rfl, rfl, rfl⟩ := ran
    obtain ⟨rfl, resumes⟩ := Queue.receiveResumed_spec resumed
    exact .receives resumes

/-- The second half of a call only detaches the caller's own `event_link`. -/
theorem resume_effect {k k' : Kernel} {self : TaskId} {b : BlockingCall} {st : Status} {out : Bytes}
    (ran : k.resume self b = some (st, out, k')) :
    k'.sched = k.sched ∨ k'.sched = k.sched.detached self := by
  cases resume_spec ran with
  | delayed | owns => exact .inl rfl
  | givesUp | takes | sends | receives => exact .inr rfl

/-! ## Steps of the system -/

namespace System

/-- The entries that follow a call's own are a wake-up and a give. -/
theorem mem_signalEntries {k k' : Kernel} {woken : Option TaskId} {h : Option WaitList} {given : Option SemaphoreId}
    {e : Entry} (member : e ∈ wokenEntries woken h ++ gaveEntries k k' woken given) :
    (∃ t h', e = .woken t (.signal h')) ∨ ∃ s kept, e = .gave s kept := by
  rcases List.mem_append.mp member with member | member
  · cases woken <;> cases h <;> simp [wokenEntries] at member
    exact .inl ⟨_, _, member⟩
  · cases given <;> simp [gaveEntries] at member
    exact .inr ⟨_, _, member⟩

/-- The system after `self` ran the first critical section of `c` to `r`. -/
def entered (y : System) (self : TaskId) (c : Call) (r : CallResult) : System :=
  { y with
    toKernel := r.kernel
    pc := Function.update y.pc self (outcomePc c r.outcome)
    log := outcomeEntries self c r.outcome ++ wokenEntries r.woken c.signals ++
      gaveEntries y.toKernel r.kernel r.woken (givesTo c) ++ y.log }

/-- The system after a tick left the scheduler at `s`. -/
def ticked (y : System) (s : Sched) : System :=
  { y with
    sched := s
    pendSv := true
    log := .requested :: y.sched.expired.map (.woken · .tick) ++ .ticked :: y.log }

/-- The system after call `c` from an interrupt left the memory at `k`. -/
def interrupted (y : System) (c : IsrCall) (st : Status) (needsYield : Bool)
    (woken : Option TaskId) (k : Kernel) : System :=
  { y with
    toKernel := k
    log := .isrReturned c st needsYield :: wokenEntries woken (some c.signals) ++
      gaveEntries y.toKernel k woken (isrGivesTo c) ++ y.log }

/-- The system after `self` returned from `b`, leaving the memory at `k`. -/
def finished (y : System) (self : TaskId) (b : BlockingCall) (st : Status) (out : Bytes)
    (k : Kernel) : System :=
  { y with
    toKernel := k
    pc := Function.update y.pc self .thread
    log := .returned self (.blocking b) st out :: y.log }

/-- Every step is one of these. -/
inductive Steps (y : System) : Event → System → Prop where
  | creates {a : TaskArgs} {st : Status} {s : Sched} (unstarted : y.started = false)
      (allowed : y.allows (.taskCreate a) = true)
      (created : y.sched.taskCreate a = some (st, s)) :
      Steps y (.create a) { y with sched := s }
  | starts {t : TaskId} {s : Sched} (unstarted : y.started = false)
      (selected : y.sched.selectNext = some (t, s)) :
      Steps y .start { y.switchTo t s with started := true, pendSv := y.pendSv }
  | ticks {s : Sched} (ticked : y.sched.tick = some s) :
      Steps y .tick (y.ticked s)
  | interrupts {c : IsrCall} {st : Status} {needsYield : Bool} {woken : Option TaskId}
      {k : Kernel} (ran : y.toKernel.isrCall c = some (st, needsYield, woken, k)) :
      Steps y (.isr c) (y.interrupted c st needsYield woken k)
  | isrRequests : Steps y .isrRequest { y with pendSv := true, log := .requested :: y.log }
  | selects {t : TaskId} {s : Sched} (pending : y.pendSv = true)
      (selected : y.sched.selectNext = some (t, s)) : Steps y .pendSV (y.switchTo t s)
  | dispatches {t : TaskId} {s : Sched} (pending : y.pendSv = true)
      (switched : y.sched.dispatch t = some s) : Steps y (.dispatch t) (y.switchTo t s)
  | calls {self : TaskId} {c : Call} {r : CallResult} (running : y.running = some self)
      (application : self ≠ idle) (here : y.pc self = .thread) (allowed : y.allows c = true)
      (ran : y.toKernel.call self c = some r) : Steps y (.call c) (y.entered self c r)
  | requests {self : TaskId} {b : Option BlockingCall} (running : y.running = some self)
      (here : y.pc self = .requesting b) :
      Steps y .proceed
        { y with
          pendSv := true
          pc := Function.update y.pc self ((b.map Pc.parked).getD .thread)
          log := .requested :: y.log }
  | finishes {self : TaskId} {b : BlockingCall} {st : Status} {out : Bytes} {k : Kernel}
      (running : y.running = some self) (here : y.pc self = .parked b)
      (ran : y.toKernel.resume self b = some (st, out, k)) :
      Steps y .proceed (y.finished self b st out k)
  | continues {self : TaskId} {c : Call} {r : CallResult} (running : y.running = some self)
      (here : y.pc self = .calling c) (ran : y.toKernel.call self c = some r) :
      Steps y .proceed (y.entered self c r)
  | fires {self : TaskId} {x : TimerId} {callback arg : UInt32} (running : y.running = some self)
      (here : y.pc self = .firing x callback arg) :
      Steps y .proceed
        { y with
          pc := Function.update y.pc self .thread
          log := if callback ≠ 0 then .invoked x callback arg :: y.log else y.log }

theorem enter_eq_some {y y' : System} {self : TaskId} {c : Call} :
    y.enter self c = some y' ↔
      ∃ r, y.toKernel.call self c = some r ∧ y' = y.entered self c r := by
  simp only [enter, entered, Option.bind_eq_bind, Option.bind_eq_some_iff, Option.some.injEq]
  exact exists_congr fun r => and_congr_right fun _ => ⟨Eq.symm, Eq.symm⟩

private theorem proceed_steps {y y' : System} {self : TaskId} (running : y.running = some self)
    (proceeded : y.proceed self = some y') : Steps y .proceed y' := by
  unfold proceed at proceeded
  split at proceeded
  · cases proceeded
  · rename_i here
    cases proceeded
    exact .requests running here
  · rename_i here
    simp only [finish, Option.bind_eq_bind, Option.bind_eq_some_iff, Prod.exists,
      Option.some.injEq] at proceeded
    obtain ⟨_, _, _, ran, rfl⟩ := proceeded
    exact .finishes running here ran
  · rename_i here
    obtain ⟨_, ran, rfl⟩ := enter_eq_some.mp proceeded
    exact .continues running here ran
  · rename_i here
    cases proceeded
    exact .fires running here

theorem step_cases {y y' : System} {event : Event} (stepped : y.step event = some y') :
    Steps y event y' := by
  cases event with
  | create a =>
    simp only [step] at stepped
    split at stepped
    · rename_i meets
      simp only [Option.bind_eq_bind, Option.bind_eq_some_iff, Prod.exists,
        Option.some.injEq] at stepped
      obtain ⟨_, _, created, rfl⟩ := stepped
      exact .creates meets.1 meets.2 created
    · cases stepped
  | start =>
    simp only [step] at stepped
    split at stepped
    · cases stepped
    · rename_i unstarted
      simp only [Option.bind_eq_bind, Option.bind_eq_some_iff, Prod.exists,
        Option.some.injEq] at stepped
      obtain ⟨_, _, selected, rfl⟩ := stepped
      exact .starts (by simpa using unstarted) selected
  | tick =>
    simp only [step, Option.bind_eq_bind, Option.bind_eq_some_iff, Option.some.injEq] at stepped
    obtain ⟨_, ticked, rfl⟩ := stepped
    exact .ticks ticked
  | isr c =>
    simp only [step, isr, Option.bind_eq_bind, Option.bind_eq_some_iff, Prod.exists,
      Option.some.injEq] at stepped
    obtain ⟨_, _, _, _, ran, rfl⟩ := stepped
    exact .interrupts ran
  | isrRequest => cases stepped; exact .isrRequests
  | pendSV =>
    simp only [step] at stepped
    split at stepped
    · rename_i pending
      simp only [Option.bind_eq_bind, Option.bind_eq_some_iff, Prod.exists,
        Option.some.injEq] at stepped
      obtain ⟨_, _, selected, rfl⟩ := stepped
      exact .selects pending selected
    · cases stepped
  | dispatch t =>
    simp only [step] at stepped
    split at stepped
    · rename_i pending
      simp only [Option.bind_eq_bind, Option.bind_eq_some_iff, Option.some.injEq] at stepped
      obtain ⟨_, switched, rfl⟩ := stepped
      exact .dispatches pending switched
    · cases stepped
  | call c =>
    simp only [step, Option.bind_eq_bind, Option.bind_eq_some_iff] at stepped
    obtain ⟨_, running, stepped⟩ := stepped
    split at stepped
    · rename_i meets
      obtain ⟨_, ran, rfl⟩ := enter_eq_some.mp stepped
      exact .calls running meets.1 meets.2.1 meets.2.2 ran
    · cases stepped
  | proceed =>
    simp only [step, Option.bind_eq_bind, Option.bind_eq_some_iff] at stepped
    obtain ⟨_, running, proceeded⟩ := stepped
    exact proceed_steps running proceeded

end System
end NimbleRtos
