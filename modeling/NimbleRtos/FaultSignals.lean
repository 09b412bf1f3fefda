import NimbleRtos.Demo
import NimbleRtos.Foundation.Responses
import NimbleRtos.SemaphoreUnits

/-! No fault signal is lost between ADC_IRQHandler and ProtectionTask. While a
sample over the limit has not been answered by a note begun after it, its unit
is in the semaphore's count, in ProtectionTask's wait, or in its hands. -/
namespace NimbleRtos
open NodeRings Sched NimbleRtos.System

/-- `t` sleeps in a take of `id`, or was woken from it and has not resumed. -/
def System.Engaged (y : System) (id : SemaphoreId) (t : TaskId) : Prop :=
  (y.waitStatus t).on (.semaphore id) ≠ .awake

/-- A step in which no unit of `id` moves and nobody's wait for one begins or
is given one. -/
structure UnitsRest (id : SemaphoreId) (y z : System) : Prop where
  semaphore : z.semaphores id = y.semaphores id
  kept : z.log.countP (Entry.keptGive id) = y.log.countP (Entry.keptGive id)
  took : z.log.countP (Entry.tookUnit id) = y.log.countP (Entry.tookUnit id)
  handed : ∀ t, (z.waitStatus t).handedUnit id = (y.waitStatus t).handedUnit id
  engaged : ∀ t, z.Engaged id t ↔ y.Engaged id t

/-- The end of a wait does not yet end the call. -/
theorem ended_on_awake {o : Object} {result : Status} {w : WaitStatus} :
    (w.ended result).on o = .awake ↔ w.on o = .awake := by
  cases w with
  | waiting b => by_cases about : b.object = some o <;> simp [WaitStatus.ended, WaitStatus.on, about]
  | _ => rfl

namespace UnitsRest
variable {id : SemaphoreId} {y z : System}

theorem refl (id : SemaphoreId) (y : System) : UnitsRest id y y :=
  ⟨rfl, rfl, rfl, fun _ => rfl, fun _ => .rfl⟩

theorem of_aside (aside : Aside y z (.semaphore id)) : UnitsRest id y z := by
  refine ⟨aside.object, aside.countP keptGive_object, aside.countP tookUnit_object, ?_, ?_⟩
  · intro t
    rw [← handedUnit_on, aside.status, handedUnit_on]
  · intro t
    unfold Engaged
    rw [aside.status]

theorem of_tick {s : Sched} (linked : Linked y) (tick : y.sched.tick = some s) :
    UnitsRest id y (y.ticked s) := by
  refine ⟨rfl, countP_ticked keptGive_object, countP_ticked tookUnit_object, ?_, ?_⟩
  · intro t
    rw [linked.status_ticked tick]
    split
    · exact ended_timeout (fun b => by cases b <;> rfl) _
    · rfl
  · intro t
    unfold Engaged
    rw [linked.status_ticked tick]
    split
    · rw [ne_eq, ended_on_awake]
    · rfl

end UnitsRest

/-- A task asleep in a kernel call is not in its own code. -/
theorem Engaged.busy {y : System} {id : SemaphoreId} {t : TaskId} (engaged : y.Engaged id t) :
    y.pc t ≠ .thread := by
  intro thread
  refine engaged ?_
  rw [Linked.status_running (by rw [thread]; rfl)]
  rfl

theorem returned_append {y z : System} {t : TaskId} (entries : List Entry) (log : z.log = entries ++ y.log)
    (others : ∀ c st out, .returned t c st out ∉ entries) : z.returned t = y.returned t := by
  unfold System.returned
  rw [log, List.findSome?_append, List.findSome?_eq_none_iff.mpr, Option.none_or]
  intro e member
  split
  · rename_i u c st out
    split
    · rename_i same
      subst same
      exact absurd member (others c st out)
    · rfl
  · rfl

/-- What a task in its own code was given back does not change, whatever the
others and the interrupts do. -/
theorem step_bystander {y z : System} {event : Event} (stepped : y.step event = some z) {t : TaskId}
    (thread : y.pc t = .thread) (other : ∀ c, event = .call c → y.running ≠ some t) :
    z.pc t = .thread ∧ z.returned t = y.returned t := by
  have elsewhere : ∀ {self : TaskId}, y.pc self ≠ .thread → t ≠ self := by
    rintro self busy rfl
    exact busy thread
  have outcome : ∀ {self : TaskId} {c : Call} {o : Outcome}, t ≠ self → ∀ c' st out,
      .returned t c' st out ∉ outcomeEntries self c o := by
    intro self c o distinct c' st out member
    cases o <;> cases c <;> simp [outcomeEntries, distinct] at member
  have signalled : ∀ {k k' : Kernel} {woken : Option TaskId} {h : Option WaitList}
      {given : Option SemaphoreId} c' st out,
      .returned t c' st out ∉ wokenEntries woken h ++ gaveEntries k k' woken given := by
    intro k k' woken h given c' st out member
    rcases mem_signalEntries member with ⟨_, _, same⟩ | ⟨_, _, same⟩ <;> cases same
  have entered : ∀ {self : TaskId} {c : Call} {r : CallResult}, t ≠ self →
      (y.entered self c r).pc t = .thread ∧ (y.entered self c r).returned t = y.returned t := by
    intro self c r distinct
    refine ⟨by simp [System.entered, distinct, thread], returned_append _ rfl ?_⟩
    intro c' st out member
    rw [List.append_assoc] at member
    rcases List.mem_append.mp member with member | member
    · exact outcome distinct c' st out member
    · exact signalled c' st out member
  cases step_cases stepped with
  | creates => exact ⟨thread, rfl⟩
  | starts | selects | dispatches | isrRequests =>
    exact ⟨thread, returned_append [_] rfl (by simp)⟩
  | ticks =>
    refine ⟨thread, returned_append (.requested :: y.sched.expired.map (.woken · .tick) ++ [.ticked])
      (by simp [ticked]) (by simp)⟩
  | interrupts =>
    refine ⟨thread, returned_append _ rfl ?_⟩
    intro c' st out member
    rcases List.mem_cons.mp member with same | member
    · cases same
    · exact signalled c' st out member
  | calls running => exact entered fun same => other _ rfl (same ▸ running)
  | continues _ here => exact entered (elsewhere (by simp [here]))
  | @requests self b _ here =>
    have distinct := @elsewhere self (by simp [here])
    exact ⟨by simp [distinct, thread], returned_append [.requested] rfl (by simp)⟩
  | @finishes self b st out _ _ here =>
    have distinct := @elsewhere self (by simp [here])
    exact ⟨by simp [finished, distinct, thread],
      returned_append [.returned self (.blocking b) st out] rfl (by simp [distinct])⟩
  | @fires self x callback arg _ here =>
    have distinct := @elsewhere self (by simp [here])
    refine ⟨by simp [distinct, thread], returned_append
      (if callback ≠ 0 then [.invoked x callback arg] else []) ?_ ?_⟩
    · dsimp only
      split <;> rfl
    · split <;> simp

/-- The calls inside other calls are about timers and their semaphore. -/
def ContinuesAside (id : SemaphoreId) (y : System) : Prop :=
  ∀ t c, y.pc t = .calling c → c.object ≠ some (.semaphore id)

theorem ContinuesAside.step {id : SemaphoreId} {y z : System} {event : Event}
    (inner : ContinuesAside id y) (other : id ≠ timerWakeSem) (stepped : y.step event = some z) :
    ContinuesAside id z := by
  have entered : ∀ {self : TaskId} {c : Call} {r : CallResult}, y.toKernel.call self c = some r →
      ContinuesAside id (y.entered self c r) := by
    intro self c r ran t c' calling
    simp only [System.entered, Function.update_apply] at calling
    split at calling
    · have away : some (Object.semaphore timerWakeSem) ≠ some (.semaphore id) := by simpa using Ne.symm other
      rcases outcome_calls ran (outcomePc_calls calling) with ⟨rfl, _⟩ | ⟨_, rfl⟩ | ⟨_, rfl⟩
      · exact away
      · simp [Call.object]
      · exact away
    · exact inner t c' calling
  have moved : ∀ {self : TaskId} {here : Pc}, (∀ c, here ≠ .calling c) →
      ∀ t c, Function.update y.pc self here t = .calling c → c.object ≠ some (.semaphore id) := by
    intro self here silent t c calling
    rw [Function.update_apply] at calling
    split at calling
    · exact absurd calling (silent c)
    · exact inner t c calling
  cases step_cases stepped with
  | creates | starts | ticks | interrupts | isrRequests | selects | dispatches => exact inner
  | calls _ _ _ _ ran | continues _ _ ran => exact entered ran
  | @requests _ b => exact moved fun c => by cases b <;> simp
  | finishes | fires => exact moved fun c => by simp

/-- What is known of every kernel run about the units of `id`. -/
structure Accountable (id : SemaphoreId) (initialCount maxCount : UInt32) (y : System) : Prop where
  linked : Linked y
  units : Units initialCount maxCount id y
  inner : ContinuesAside id y

theorem Accountable.step {id : SemaphoreId} {initialCount maxCount : UInt32} {y z : System} {event : Event}
    (known : Accountable id initialCount maxCount y) (other : id ≠ timerWakeSem)
    (stepped : y.step event = some z) : Accountable id initialCount maxCount z :=
  ⟨known.linked.step stepped, known.units.step known.linked stepped, known.inner.step other stepped⟩

theorem UnitsRest.of_step {id : SemaphoreId} {y z : System} {event : Event} (linked : Linked y)
    (inner : ContinuesAside id y) (stepped : y.step event = some z)
    (interrupts : event ≠ .isr (.semaphoreGiveFromIsr id))
    (calls : ∀ c, event = .call c → c.object ≠ some (.semaphore id))
    (finishes : ∀ self b, event = .proceed → y.running = some self → y.pc self = .parked b →
      b.object ≠ some (.semaphore id)) : UnitsRest id y z := by
  by_cases timed : event = .tick
  · subst timed
    cases step_cases stepped with
    | ticks ticked => exact of_tick linked ticked
  · refine of_aside (linked.step_aside stepped timed ?_ calls ?_)
    · rintro c rfl about
      cases c with
      | semaphoreGiveFromIsr s => cases about; exact interrupts rfl
      | queueSendFromIsr => cases about
    · intro self proceeds running
      exact ⟨inner self, fun b => finishes self b proceeds running⟩

/-- What a give from an interrupt does. -/
structure UnitGiven (id : SemaphoreId) (y z : System) : Prop where
  pc : z.pc = y.pc
  took : z.log.countP (Entry.tookUnit id) = y.log.countP (Entry.tookUnit id)
  kept : z.log.countP (Entry.keptGive id) ≤ y.log.countP (Entry.keptGive id) + 1
  engaged : ∀ t, z.Engaged id t ↔ y.Engaged id t
  available : (z.semaphores id).count ≠ 0 ∨
    ∃ t, y.Engaged id t ∧ (z.waitStatus t).handedUnit id = true

theorem UnitGiven.of_step {id : SemaphoreId} {initialCount maxCount : UInt32} {y z : System}
    (known : Accountable id initialCount maxCount y) (holds : maxCount ≠ 0)
    (stepped : y.step (.isr (.semaphoreGiveFromIsr id)) = some z) : UnitGiven id y z := by
  have linked := known.linked
  cases step_cases stepped with
  | @interrupts _ _ _ woken _ ran =>
    have status := linked.status_interrupted ran
    cases isrCall_spec ran with
    | @gives _ _ s x gives =>
      refine ⟨rfl, ?_, ?_, ?_, ?_⟩
      · cases woken <;> simp [interrupted, wokenEntries, gaveEntries, isrGivesTo, Entry.tookUnit, IsrCall.signals]
      · cases woken <;> simp only [interrupted, wokenEntries, gaveEntries, isrGivesTo, IsrCall.signals,
          List.cons_append, List.nil_append, List.countP_cons, Entry.keptGive]
        all_goals
          split <;> simp
      · intro t
        simp only [Engaged, status]
        split
        · rw [ne_eq, ended_on_awake]
        · rfl
      · cases gives with
        | @hands t rest _ shape woken =>
          have member : t ∈ y.sched.events.items (.semaphore id) := by simp [shape]
          obtain ⟨b, waiting, listed⟩ := linked.listed_waiting.mp member
          obtain ⟨timeoutTicks, rfl⟩ := Units.taking listed
          refine .inr ⟨t, ?_, ?_⟩
          · rw [Engaged, waiting]
            simp [WaitStatus.on, BlockingCall.object]
          · rw [status, if_pos rfl, waiting]
            simp [WaitStatus.ended, WaitStatus.handedUnit]
        | counts empty room =>
          left
          simp only [interrupted, Kernel.setSemaphore, Function.update_self]
          intro wrapped
          have raised := congrArg UInt32.toNat wrapped
          rw [UInt32.toNat_add, UInt32.toNat_one, UInt32.toNat_zero] at raised
          have bounded := UInt32.lt_iff_toNat_lt.mp room
          have limit := (y.semaphores id).maxCount.toNat_lt
          omega
        | drops empty full =>
          left
          simp only [interrupted, Kernel.setSemaphore, Function.update_self]
          intro none
          rw [none, known.units.max, UInt32.lt_iff_toNat_lt, UInt32.toNat_zero] at full
          exact holds (UInt32.toNat_inj.mp (Nat.eq_zero_of_not_pos full))

/-- How an unlimited take ends its first critical section. -/
inductive UnitTaken (id : SemaphoreId) (self : TaskId) (y z : System) : Prop where
  | now (kept : z.log.countP (Entry.keptGive id) = y.log.countP (Entry.keptGive id))
      (took : z.log.countP (Entry.tookUnit id) = y.log.countP (Entry.tookUnit id) + 1)
      (thread : z.pc self = .thread) (returned : z.returned self = some (.ok, []))
      (engaged : ∀ t, z.Engaged id t ↔ y.Engaged id t)
  | sleeps (kept : z.log.countP (Entry.keptGive id) = y.log.countP (Entry.keptGive id))
      (took : z.log.countP (Entry.tookUnit id) = y.log.countP (Entry.tookUnit id))
      (exhausted : (y.semaphores id).count = 0)
      (engaged : ∀ t, z.Engaged id t ↔ t = self ∨ y.Engaged id t)

theorem UnitTaken.of_step {id : SemaphoreId} {y z : System} {self : TaskId} (linked : Linked y)
    (running : y.running = some self)
    (stepped : y.step (.call (.blocking (.semaphoreTake id waitForever))) = some z) :
    UnitTaken id self y z := by
  cases step_cases stepped with
  | calls running' _ here allowed ran =>
    obtain rfl := Option.some.inj (running.symm.trans running')
    have status := linked.status_entered running (by simp [here]) allowed ran
    have awake : y.waitStatus self = .awake := Linked.status_running (by rw [here]; rfl)
    cases call_spec ran with
    | takes takes =>
      cases takes with
      | counted left =>
        refine .now ?_ ?_ ?_ ?_ ?_
        · simp [entered, Kernel.sleepOr, outcomeEntries, wokenEntries, gaveEntries, givesTo, Entry.keptGive]
        · simp [entered, Kernel.sleepOr, outcomeEntries, wokenEntries, gaveEntries, givesTo, Entry.tookUnit]
        · simp [entered, Kernel.sleepOr, outcomePc]
        · simp [entered, Kernel.sleepOr, outcomeEntries, System.returned]
        · intro t
          simp only [Engaged, status]
          split
          · rename_i caller
            simp [caller, awake, WaitStatus.on]
          · simp
      | refused _ hurried => cases hurried
      | sleeps exhausted =>
        refine .sleeps ?_ ?_ ?_ ?_
        · simp [entered, Kernel.sleepOr, outcomeEntries, wokenEntries, gaveEntries, givesTo, Entry.keptGive]
        · simp [entered, Kernel.sleepOr, outcomeEntries, wokenEntries, gaveEntries, givesTo, Entry.tookUnit]
        · rw [← UInt32.toNat_inj]
          simpa [UInt32.lt_iff_toNat_lt] using exhausted
        · intro t
          simp only [Engaged, status]
          split
          · rename_i caller
            simp [caller, Kernel.sleepOr, WaitStatus.on, BlockingCall.object]
          · rename_i other
            simp [other]

namespace PowerSupply
open Responses
open Port (Placement protection control comms logger timerSvc)

/-- A sample over the limit is a signal, a call of ps_status_note_fault its
answer. -/
def DemoEntry.kind {F : Type} (scaling : Scaling F) : DemoEntry F → Kind
  | .sampled sample => if scaling.exceeds sample then .signal else .other
  | .began _ .noteFault => .begins
  | .completed _ .noteFault => .ends
  | _ => .other

namespace Place
variable {F : Type}

/-- In ps_status_note_fault. -/
def noting : Place F → Bool
  | .lock .noteFault _ => true
  | .access .noteFault _ _ => true
  | .leave .noteFault _ => true
  | _ => false

/-- In ps_status_note_fault, past its write of `fault_count`. -/
def counted : Place F → Bool
  | .access .noteFault [] _ => true
  | .leave .noteFault _ => true
  | _ => false

/-- The code of protection_task_fn, where `fault_count` is `faultCount`. -/
inductive Protecting (faultCount : UInt32) : Place F → Prop where
  | takeFault : Protecting faultCount .takeFault
  | faultTaken : Protecting faultCount .faultTaken
  | disableOutput : Protecting faultCount .disableOutput
  | lock : Protecting faultCount (.lock .noteFault .takeFault)
  | writesState : Protecting faultCount (.access .noteFault [.writeState .fault, .readCount] .takeFault)
  | reads : Protecting faultCount (.access .noteFault [.readCount] .takeFault)
  | writesCount : Protecting faultCount (.access .noteFault [.writeCount (faultCount + 1)] .takeFault)
  | unlocks : Protecting faultCount (.access .noteFault [] .takeFault)
  | leaves : Protecting faultCount (.leave .noteFault .takeFault)

/-- Code of the other tasks: it notes no fault. -/
inductive Elsewhere : Place F → Prop where
  | receiveSample : Elsewhere .receiveSample
  | sampleReceived : Elsewhere .sampleReceived
  | runStateMachine : Elsewhere .runStateMachine
  | resynced : Elsewhere .resynced
  | logStatus : Elsewhere .logStatus
  | statusLogged : Elsewhere .statusLogged
  | uartBridgeInit : Elsewhere .uartBridgeInit
  | receiveByte : Elsewhere .receiveByte
  | byteReceived : Elsewhere .byteReceived
  | answered : Elsewhere .answered
  | timerWait : Elsewhere .timerWait
  | timerExpire : Elsewhere .timerExpire
  | lock {call : StatusCall F} {back : Place F} (other : call ≠ .noteFault) (after : Elsewhere back) :
      Elsewhere (.lock call back)
  | access {call : StatusCall F} {rest : List (Access F)} {back : Place F} (other : call ≠ .noteFault)
      (uncounted : ∀ a ∈ rest, a ≠ .readCount ∧ ∀ faultCount, a ≠ .writeCount faultCount)
      (after : Elsewhere back) : Elsewhere (.access call rest back)
  | leave {call : StatusCall F} {back : Place F} (other : call ≠ .noteFault) (after : Elsewhere back) :
      Elsewhere (.leave call back)
  | idling : Elsewhere .idling

theorem elsewhere_entry {t : TaskId} (other : t ≠ protection) : Elsewhere (entryPlace (F := F) t) := by
  unfold entryPlace
  rw [if_neg other]
  split
  · exact .receiveSample
  · split
    · exact .uartBridgeInit
    · split
      · exact .logStatus
      · split
        · exact .timerWait
        · exact .idling

end Place

namespace Demo
variable {F : Type} {scaling : Scaling F} {x z : Demo F}

/-- ProtectionTask is blocked in `nimble_semaphore_take(&g_fault_semaphore, …)`. -/
def AwaitsFault (x : Demo F) : Prop :=
  (x.system.sched.tcb protection).state = .blocked ∧
    (x.system.pc protection).sleep = some (.semaphoreTake faultSemaphore waitForever)

/-- ProtectionTask is in the take, or in what remains of it. -/
def InTake (x : Demo F) : Prop := x.place protection = .faultTaken ∧ x.system.pc protection ≠ .thread

/-- ProtectionTask has a unit in hand for which it has called no note yet. -/
def holding (x : Demo F) : Bool :=
  match x.place protection with
  | .faultTaken => x.system.pc protection = .thread && x.succeeded protection
  | .disableOutput => true
  | _ => false

instance (x : Demo F) : Decidable x.AwaitsFault := inferInstanceAs (Decidable (_ ∧ _))

/-- The signals of faults, their answers, and the units that stand for them. -/
structure Tracked (scaling : Scaling F) (x : Demo F) : Prop where
  kernel : Accountable faultSemaphore 0 1 x.system
  mine : (x.place protection).Protecting x.status.faultCount
  others : ∀ t, t ≠ protection → (x.place t).Elsewhere
  engaged : ∀ t, x.system.Engaged faultSemaphore t ↔ t = protection ∧ x.InTake
  took : x.system.log.countP (Entry.tookUnit faultSemaphore) =
    count (DemoEntry.kind scaling) .begins x.log + x.holding.toNat
  kept : x.system.log.countP (Entry.keptGive faultSemaphore) ≤ count (DemoEntry.kind scaling) .signal x.log
  begun : count (DemoEntry.kind scaling) .begins x.log =
    count (DemoEntry.kind scaling) .ends x.log + (x.place protection).noting.toNat
  counted : x.status.faultCount =
    UInt32.ofNat (count (DemoEntry.kind scaling) .ends x.log + (x.place protection).counted.toNat)
  raised : phase (DemoEntry.kind scaling) x.log = .raised → (x.system.semaphores faultSemaphore).count ≠ 0 ∨
    (x.system.waitStatus protection).handedUnit faultSemaphore = true ∨ x.holding = true
  answering : phase (DemoEntry.kind scaling) x.log = .answering → (x.place protection).noting = true

namespace Tracked

/-- A step that moves no unit, and that leaves ProtectionTask where it is as
far as signals and answers go. -/
theorem rest (tracked : Tracked scaling x) (kernel : Accountable faultSemaphore 0 1 z.system)
    (rest : UnitsRest faultSemaphore x.system z.system)
    (mine : (z.place protection).Protecting z.status.faultCount)
    (others : ∀ t, t ≠ protection → (z.place t).Elsewhere) (inTake : z.InTake ↔ x.InTake)
    (holding : z.holding = x.holding) (faultCount : z.status.faultCount = x.status.faultCount)
    (noting : (z.place protection).noting = (x.place protection).noting)
    (counted : (z.place protection).counted = (x.place protection).counted)
    (log : ∃ entries, z.log = entries ++ x.log ∧ ∀ e ∈ entries, e.kind scaling = .other) :
    Tracked scaling z := by
  obtain ⟨entries, log, silent⟩ := log
  have signals : count (DemoEntry.kind scaling) .signal z.log = count (DemoEntry.kind scaling) .signal x.log := by
    rw [log, count_append silent (by simp)]
  have begins : count (DemoEntry.kind scaling) .begins z.log = count (DemoEntry.kind scaling) .begins x.log := by
    rw [log, count_append silent (by simp)]
  have ends : count (DemoEntry.kind scaling) .ends z.log = count (DemoEntry.kind scaling) .ends x.log := by
    rw [log, count_append silent (by simp)]
  have phase : phase (DemoEntry.kind scaling) z.log = phase (DemoEntry.kind scaling) x.log := by
    rw [log, phase_append silent]
  refine ⟨kernel, mine, others, ?_, ?_, ?_, ?_, ?_, ?_, ?_⟩
  · intro t
    rw [rest.engaged, tracked.engaged, inTake]
  · rw [rest.took, begins, holding, tracked.took]
  · rw [rest.kept, signals]
    exact tracked.kept
  · rw [begins, ends, noting, tracked.begun]
  · rw [faultCount, ends, counted, tracked.counted]
  · rw [phase, rest.semaphore, rest.handed, holding]
    exact tracked.raised
  · rw [phase, noting]
    exact tracked.answering

/-- Before the wait of ProtectionTask is over it holds nothing. -/
theorem holding_busy (busy : x.InTake) : x.holding = false := by
  simp [holding, busy.1, busy.2]

/-- What others do in the kernel leaves ProtectionTask in its take, or in its
own code with the same result. -/
theorem stays (tracked : Tracked scaling x) {event : Event} (stepped : x.system.step event = some z.system)
    (other : ∀ c, event = .call c → x.system.running ≠ some protection)
    (rest : UnitsRest faultSemaphore x.system z.system)
    (place : z.place protection = x.place protection) : (z.InTake ↔ x.InTake) ∧ z.holding = x.holding := by
  have same := fun thread : x.system.pc protection = .thread => step_bystander stepped thread other
  have inTake : z.InTake ↔ x.InTake := by
    constructor
    · rintro ⟨here, busy⟩
      exact ⟨place ▸ here, fun thread => busy (same thread).1⟩
    · rintro busy
      have engaged := (rest.engaged protection).mpr ((tracked.engaged protection).mpr ⟨rfl, busy⟩)
      exact ⟨place ▸ busy.1, Engaged.busy engaged⟩
  refine ⟨inTake, ?_⟩
  by_cases busy : x.InTake
  · rw [holding_busy busy, holding_busy (inTake.mpr busy)]
  · unfold holding
    rw [place]
    split
    · rename_i here
      have thread : x.system.pc protection = .thread := by
        by_contra asleep
        exact busy ⟨here, asleep⟩
      simp only [succeeded, (same thread).1, (same thread).2, thread]
    · rfl
    · rfl

/-- The kernel moves on without touching the fault semaphore. -/
theorem spared (tracked : Tracked scaling x) {event : Event} {system : System}
    (stepped : x.system.step event = some system) (called : ∀ c, event ≠ .call c)
    (rest : UnitsRest faultSemaphore x.system system) : Tracked scaling { x with system } := by
  obtain ⟨inTake, holding⟩ := tracked.stays (z := { x with system }) stepped
    (fun c call => absurd call (called c)) rest rfl
  exact tracked.rest (tracked.kernel.step (by decide) stepped) rest tracked.mine tracked.others inTake holding
    rfl rfl rfl ⟨[], rfl, by simp⟩

/-- ProtectionTask resumes from its take. -/
theorem resumes (tracked : Tracked scaling x) {self : TaskId} {b : BlockingCall} {st : Status}
    {out : Bytes} {k : Kernel} (about : b.object = some (.semaphore faultSemaphore))
    (running : x.system.running = some self) (here : x.system.pc self = .parked b)
    (ran : x.system.toKernel.resume self b = some (st, out, k))
    (kernel : Accountable faultSemaphore 0 1 (x.system.finished self b st out k)) :
    Tracked scaling { x with system := x.system.finished self b st out k } := by
  have linked := tracked.kernel.linked
  have parked := linked.status_parked running here
  have status := Linked.status_finished ran
  have mine : x.system.Engaged faultSemaphore self := by
    rw [Engaged, parked]
    simp [WaitStatus.on, about]
  obtain ⟨rfl, busy⟩ := (tracked.engaged self).mp mine
  obtain ⟨timeoutTicks, taking⟩ : ∃ timeoutTicks, b = .semaphoreTake faultSemaphore timeoutTicks := by
    cases b <;> cases about
    exact ⟨_, rfl⟩
  have semaphore : k.semaphores = x.system.semaphores := by
    subst taking
    cases resume_spec ran
    rfl
  have result : st = (x.system.sched.tcb protection).lastWaitResult := by
    subst taking
    cases resume_spec ran
    rfl
  have place := busy.1
  have holding : ({ x with system := x.system.finished protection b st out k } : Demo F).holding =
      decide (st = .ok) := by
    simp [Demo.holding, place, finished, succeeded, System.returned]
  have before := holding_busy busy
  refine ⟨kernel, tracked.mine, tracked.others, ?_, ?_, ?_, tracked.begun, tracked.counted, ?_,
    tracked.answering⟩
  · intro t
    have asleep : ({ x with system := x.system.finished protection b st out k } : Demo F).InTake ↔ False := by
      simp [InTake, finished]
    rw [asleep, and_false, iff_false, Engaged, status]
    split
    · simp [WaitStatus.on]
    · rename_i other
      exact fun engaged => other ((tracked.engaged t).mp engaged).1
  · rw [holding]
    have took := tracked.took
    rw [before] at took
    cases st <;> simpa [finished, Entry.tookUnit, taking] using took
  · simpa [finished, Entry.keptGive] using tracked.kept
  · intro raised
    rw [holding]
    rcases tracked.raised raised with counted | handed | held
    · left
      simpa [finished, semaphore] using counted
    · right; right
      rw [parked, ← result, taking] at handed
      cases st <;> first | rfl | cases handed
    · rw [before] at held
      cases held

/-- The kernel moves on with no call begun and no fault signalled. -/
theorem proceeds (tracked : Tracked scaling x) {event : Event} (ran : x.kernel event = some z)
    (called : ∀ c, event ≠ .call c) (signals : event ≠ .isr (.semaphoreGiveFromIsr faultSemaphore)) :
    Tracked scaling z := by
  obtain ⟨system, stepped, rfl⟩ := Option.map_eq_some_iff.mp ran
  by_cases finishing : ∃ self b, event = .proceed ∧ x.system.running = some self ∧
      x.system.pc self = .parked b ∧ b.object = some (.semaphore faultSemaphore)
  · obtain ⟨self, b, rfl, running, here, about⟩ := finishing
    have kernel := tracked.kernel.step (by decide) stepped
    cases step_cases stepped with
    | requests running' here' | continues running' here' | fires running' here' =>
      obtain rfl := Option.some.inj (running.symm.trans running')
      rw [here] at here'
      cases here'
    | finishes running' here' resumed =>
      obtain rfl := Option.some.inj (running.symm.trans running')
      rw [here] at here'
      cases here'
      exact tracked.resumes about running here resumed kernel
  · exact tracked.spared stepped called (.of_step tracked.kernel.linked tracked.kernel.inner stepped signals
      (fun c call => absurd call (called c))
      fun self b proceeds running here about => finishing ⟨self, b, proceeds, running, here, about⟩)

/-- ADC_IRQHandler signals a sample over the limit. -/
theorem signals (tracked : Tracked scaling x) {sample : AdcSample} (exceeds : scaling.exceeds sample = true)
    (ran : { x with log := .sampled sample :: x.log }.kernel (.isr (.semaphoreGiveFromIsr faultSemaphore)) =
      some z) : Tracked scaling z := by
  obtain ⟨system, stepped, rfl⟩ := Option.map_eq_some_iff.mp ran
  dsimp only at stepped ⊢
  have given := UnitGiven.of_step tracked.kernel (by decide) stepped
  have same := fun thread : x.system.pc protection = .thread => step_bystander stepped thread (by simp)
  have signal : DemoEntry.kind scaling (.sampled sample) = .signal := by simp [DemoEntry.kind, exceeds]
  have holding : ({ x with system, log := .sampled sample :: x.log } : Demo F).holding = x.holding := by
    simp only [Demo.holding, given.pc, succeeded]
    split
    · by_cases thread : x.system.pc protection = .thread
      · rw [(same thread).2]
      · simp [thread]
    · rfl
    · rfl
  refine ⟨tracked.kernel.step (by decide) stepped, tracked.mine, tracked.others, ?_, ?_, ?_, ?_, ?_, ?_, ?_⟩
  · intro t
    rw [given.engaged, tracked.engaged]
    simp only [InTake, given.pc]
  · rw [holding, count_cons, signal, if_neg (by simp), Nat.add_zero, given.took]
    exact tracked.took
  · rw [count_cons, signal, if_pos rfl]
    exact Nat.le_trans given.kept (Nat.succ_le_succ tracked.kept)
  · rw [count_cons, count_cons, signal, if_neg (by simp), if_neg (by simp)]
    exact tracked.begun
  · rw [count_cons, signal, if_neg (by simp)]
    exact tracked.counted
  · intro _
    rcases given.available with left | ⟨t, engaged, handed⟩
    · exact .inl left
    · obtain ⟨rfl, _⟩ := (tracked.engaged t).mp engaged
      exact .inr (.inl handed)
  · intro answering
    rw [phase_cons, signal, Phase.next_eq_answering] at answering
    simp at answering

/-- A task elsewhere than in a wait for the semaphore. -/
theorem nobody_engaged (tracked : Tracked scaling x) (outside : ¬ x.InTake) (t : TaskId) :
    ¬ x.system.Engaged faultSemaphore t :=
  fun engaged => outside ((tracked.engaged t).mp engaged).2

/-- A step of ProtectionTask's own code changes no other task's place. -/
theorem others_update (tracked : Tracked scaling x) (there : Place F) :
    ∀ t, t ≠ protection → (Function.update x.place protection there t).Elsewhere := by
  intro t other
  rw [Function.update_of_ne other]
  exact tracked.others t other

/-- ProtectionTask takes a unit or goes to sleep. -/
theorem takes (tracked : Tracked scaling x) (running : x.system.running = some protection)
    (here : x.place protection = .takeFault)
    (ran : x.enter protection (.blocking (.semaphoreTake faultSemaphore waitForever)) .faultTaken = some z) :
    Tracked scaling z := by
  obtain ⟨system, stepped, rfl⟩ := Option.map_eq_some_iff.mp ran
  have kernel := tracked.kernel.step (by decide) stepped
  have empty : x.holding = false := by simp [holding, here]
  have outside : ¬ x.InTake := fun busy => by simp [InTake, here] at busy
  have unnoted : phase (DemoEntry.kind scaling) x.log ≠ .answering := by
    intro answering
    have noting := tracked.answering answering
    rw [here] at noting
    cases noting
  have others := tracked.others_update (.faultTaken : Place F)
  have took := tracked.took
  have begun := tracked.begun
  have counted := tracked.counted
  rw [empty] at took
  rw [here] at begun counted
  cases UnitTaken.of_step tracked.kernel.linked running stepped with
  | now kept tookOne thread returned engaged =>
    have holding : ({ x with system, place := Function.update x.place protection .faultTaken } :
        Demo F).holding = true := by
      simp [Demo.holding, thread, succeeded, returned]
    refine ⟨kernel, by simpa using .faultTaken, others, ?_, ?_, ?_, ?_, ?_, ?_, ?_⟩
    · intro t
      rw [engaged]
      simp [nobody_engaged tracked outside t, InTake, thread]
    · rw [holding, tookOne, took]
      simp
    · rw [kept]
      exact tracked.kept
    · simpa [Place.noting] using begun
    · simpa [Place.counted] using counted
    · exact fun _ => .inr (.inr holding)
    · exact fun answering => absurd answering unnoted
  | sleeps kept tookNone exhausted engaged =>
    have asleep : system.pc protection ≠ .thread := Engaged.busy ((engaged protection).mpr (.inl rfl))
    have inTake : ({ x with system, place := Function.update x.place protection .faultTaken } :
        Demo F).InTake := ⟨by simp, asleep⟩
    refine ⟨kernel, by simpa using .faultTaken, others, ?_, ?_, ?_, ?_, ?_, ?_, ?_⟩
    · intro t
      rw [engaged]
      simp [nobody_engaged tracked outside t, inTake]
    · rw [holding_busy inTake, tookNone, took]
    · rw [kept]
      exact tracked.kept
    · simpa [Place.noting] using begun
    · simpa [Place.counted] using counted
    · -- a signal not yet answered has its unit in the count, which is empty
      intro raised
      rcases tracked.raised raised with left | handed | held
      · exact absurd exhausted left
      · exact absurd (nobody_engaged tracked outside protection) fun idle => by
          refine idle ?_
          intro awake
          rw [← handedUnit_on, awake] at handed
          cases handed
      · rw [empty] at held
        cases held
    · exact fun answering => absurd answering unnoted

/-- ProtectionTask calls ps_status_note_fault. -/
theorem begins (tracked : Tracked scaling x) (here : x.place protection = .disableOutput) :
    Tracked scaling (x.goTo protection (.lock .noteFault .takeFault)) := by
  have took := tracked.took
  have begun := tracked.begun
  have counted := tracked.counted
  rw [show x.holding = true by simp [holding, here]] at took
  rw [here] at begun counted
  refine ⟨tracked.kernel, by simpa [goTo] using .lock, tracked.others_update _, ?_, ?_, ?_, ?_, ?_, ?_, ?_⟩
  · intro t
    rw [show (x.goTo protection (.lock .noteFault .takeFault)).system = x.system from rfl, tracked.engaged]
    simp [InTake, goTo, here]
  · simpa [goTo, holding, DemoEntry.kind] using took
  · simpa [goTo, DemoEntry.kind] using tracked.kept
  · simpa [goTo, DemoEntry.kind, Place.noting] using begun
  · simpa [goTo, DemoEntry.kind, Place.counted] using counted
  · intro raised
    simp [goTo, DemoEntry.kind, Phase.next_eq_raised] at raised
  · intro _
    simp [goTo, Place.noting]

/-- ProtectionTask writes `fault_count`. -/
theorem counts (tracked : Tracked scaling x)
    (here : x.place protection = .access .noteFault [.writeCount (x.status.faultCount + 1)] .takeFault) :
    Tracked scaling { x with
      status := { x.status with faultCount := x.status.faultCount + 1 }
      out := Function.update x.out protection (x.out protection)
      place := Function.update x.place protection (.access .noteFault [] .takeFault) } := by
  have took := tracked.took
  have begun := tracked.begun
  have counted := tracked.counted
  rw [show x.holding = false by simp [holding, here]] at took
  rw [here] at begun counted
  refine ⟨tracked.kernel, by simpa using .unlocks, tracked.others_update _, ?_, ?_, tracked.kept, ?_, ?_, ?_, ?_⟩
  · intro t
    rw [tracked.engaged]
    simp [InTake, here]
  · simpa [holding] using took
  · simpa [Place.noting] using begun
  · rw [counted]
    simp [Place.counted, UInt32.ofNat_add]
  · intro raised
    simpa [holding, here] using tracked.raised raised
  · intro _
    simp [Place.noting]

/-- ProtectionTask returns from ps_status_note_fault. -/
theorem completes (tracked : Tracked scaling x) (here : x.place protection = .leave .noteFault .takeFault) :
    Tracked scaling
      ({ x with log := .completed protection .noteFault :: x.log }.goTo protection .takeFault) := by
  have took := tracked.took
  have begun := tracked.begun
  have counted := tracked.counted
  rw [show x.holding = false by simp [holding, here]] at took
  rw [here] at begun counted
  refine ⟨tracked.kernel, by simpa [goTo] using .takeFault, tracked.others_update _, ?_, ?_, ?_, ?_, ?_, ?_, ?_⟩
  · intro t
    rw [show (({ x with log := .completed protection .noteFault :: x.log } : Demo F).goTo protection
      .takeFault).system = x.system from rfl, tracked.engaged]
    simp [InTake, goTo, here]
  · simpa [goTo, holding, DemoEntry.kind] using took
  · simpa [goTo, DemoEntry.kind] using tracked.kept
  · simpa [goTo, DemoEntry.kind, Place.noting] using begun
  · simpa [goTo, DemoEntry.kind, Place.counted] using counted
  · intro raised
    have before : phase (DemoEntry.kind scaling) x.log = .raised := by
      simpa [goTo, DemoEntry.kind, Phase.next_eq_raised] using raised
    simpa [goTo, holding, here] using tracked.raised before
  · intro answering
    simp [goTo, DemoEntry.kind, Phase.next_eq_answering] at answering

/-- ProtectionTask locks or unlocks the status. -/
theorem guards (tracked : Tracked scaling x) {c : Call} {there : Place F}
    (ran : x.enter protection c there = some z) (spares : c.object ≠ some (.semaphore faultSemaphore))
    (mine : there.Protecting x.status.faultCount) (before : (x.place protection).noting = true)
    (after : there.noting = true) (counted : there.counted = (x.place protection).counted) :
    Tracked scaling z := by
  obtain ⟨system, stepped, rfl⟩ := Option.map_eq_some_iff.mp ran
  have rest : UnitsRest faultSemaphore x.system system :=
    .of_step tracked.kernel.linked tracked.kernel.inner stepped (by simp)
      (by rintro _ ⟨⟩; exact spares) (by simp)
  have elsewhere : ∀ {p : Place F}, p.noting = true → p ≠ .faultTaken ∧ p ≠ .disableOutput := by
    intro p noting
    constructor <;> rintro rfl <;> cases noting
  have idle : ∀ {w : Demo F}, (w.place protection).noting = true → w.holding = false := by
    intro w noting
    unfold holding
    split
    · rename_i here; exact absurd here (elsewhere noting).1
    · rename_i here; exact absurd here (elsewhere noting).2
    · rfl
  refine tracked.rest (tracked.kernel.step (by decide) stepped) rest (by simpa using mine)
    (tracked.others_update _) ?_ ?_ rfl (by simp [before, after]) (by simp [counted]) ⟨[], rfl, by simp⟩
  · simp [InTake, (elsewhere before).1, (elsewhere after).1]
  · rw [idle before, idle (by simpa using after)]

/-- ProtectionTask moves on in its own code, and neither the signals nor the
answers are told. -/
theorem advances (tracked : Tracked scaling x) {there : Place F} {status : PsStatus F} {out : TaskId → PsStatus F}
    (thread : x.system.pc protection = .thread) (faultCount : status.faultCount = x.status.faultCount)
    (mine : there.Protecting x.status.faultCount)
    (holding : ({ x with status, out, place := Function.update x.place protection there } : Demo F).holding =
      x.holding)
    (noting : there.noting = (x.place protection).noting) (counted : there.counted = (x.place protection).counted) :
    Tracked scaling { x with status, out, place := Function.update x.place protection there } := by
  refine tracked.rest tracked.kernel (.refl _ _) (by simpa [faultCount] using mine) (tracked.others_update _) ?_
    holding faultCount (by simpa using noting) (by simpa using counted) ⟨[], rfl, by simp⟩
  simp [InTake, thread]

/-- A statement of ProtectionTask. -/
theorem own (tracked : Tracked scaling x) (running : x.system.running = some protection)
    (thread : x.system.pc protection = .thread) (ran : x.statement protection scaling = some z) :
    Tracked scaling z := by
  have mine := tracked.mine
  generalize here : x.place protection = place at mine
  cases mine with
  | takeFault =>
    simp only [statement, here] at ran
    exact tracked.takes running here ran
  | faultTaken =>
    simp only [statement, here, Option.some.injEq] at ran
    subst ran
    by_cases succeeded : x.succeeded protection = true
    · rw [if_pos succeeded]
      exact tracked.advances thread rfl .disableOutput (by simp [holding, here, thread, succeeded])
        (by simp [here, Place.noting]) (by simp [here, Place.counted])
    · rw [if_neg succeeded]
      exact tracked.advances thread rfl .takeFault (by simp [holding, here, succeeded])
        (by simp [here, Place.noting]) (by simp [here, Place.counted])
  | disableOutput =>
    simp only [statement, here, Option.some.injEq] at ran
    subst ran
    exact tracked.begins here
  | lock =>
    simp only [statement, here] at ran
    exact tracked.guards ran (by simp [Call.object, BlockingCall.object]) .writesState
      (by rw [here]; rfl) rfl (by rw [here]; rfl)
  | writesState =>
    simp only [statement, here, Option.some.injEq] at ran
    subst ran
    exact tracked.advances thread rfl .reads (by simp [holding, here]) (by rw [here]; rfl) (by rw [here]; rfl)
  | reads =>
    simp only [statement, here, Option.some.injEq] at ran
    subst ran
    exact tracked.advances thread rfl .writesCount (by simp [holding, here]) (by rw [here]; rfl)
      (by rw [here]; rfl)
  | writesCount =>
    simp only [statement, here, Option.some.injEq] at ran
    subst ran
    exact tracked.counts here
  | unlocks =>
    simp only [statement, here] at ran
    exact tracked.guards ran (by simp [Call.object]) .leaves (by rw [here]; rfl) rfl (by rw [here]; rfl)
  | leaves =>
    simp only [statement, here, Option.some.injEq] at ran
    subst ran
    exact tracked.completes here

/-- Another task calls the kernel. -/
theorem enters (tracked : Tracked scaling x) {t : TaskId} {c : Call} {there : Place F} (other : t ≠ protection)
    (running : x.system.running = some t) (ran : x.enter t c there = some z)
    (spares : c.object ≠ some (.semaphore faultSemaphore)) (elsewhere : there.Elsewhere) : Tracked scaling z := by
  obtain ⟨system, stepped, rfl⟩ := Option.map_eq_some_iff.mp ran
  have rest : UnitsRest faultSemaphore x.system system :=
    .of_step tracked.kernel.linked tracked.kernel.inner stepped (by simp)
      (by rintro _ ⟨⟩; exact spares) (by simp)
  have same : Function.update x.place t there protection = x.place protection :=
    Function.update_of_ne other.symm _ _
  obtain ⟨inTake, holding⟩ := tracked.stays (z := { x with system, place := Function.update x.place t there })
    stepped (fun _ _ mine => other (Option.some.inj (running.symm.trans mine))) rest same
  refine tracked.rest (tracked.kernel.step (by decide) stepped) rest (by simpa [same] using tracked.mine) ?_ inTake
    holding rfl (by simp [same]) (by simp [same]) ⟨[], rfl, by simp⟩
  intro u distinct
  dsimp only
  rw [Function.update_apply]
  split
  · exact elsewhere
  · exact tracked.others u distinct

/-- Another task moves on in its own code. -/
theorem wanders (tracked : Tracked scaling x) {t : TaskId} {there : Place F} (other : t ≠ protection)
    (elsewhere : there.Elsewhere) (system : z.system = x.system)
    (faultCount : z.status.faultCount = x.status.faultCount) (place : z.place = Function.update x.place t there)
    (log : ∃ entries, z.log = entries ++ x.log ∧ ∀ e ∈ entries, e.kind scaling = .other) : Tracked scaling z := by
  have same : z.place protection = x.place protection := by
    rw [place, Function.update_of_ne other.symm]
  refine tracked.rest (by rw [system]; exact tracked.kernel) (by rw [system]; exact .refl _ _)
    (by rw [same, faultCount]; exact tracked.mine) ?_ (by rw [InTake, InTake, same, system])
    (by simp only [holding, same, succeeded, system]) faultCount (by rw [same]) (by rw [same]) log
  intro u distinct
  rw [place, Function.update_apply]
  split
  · exact elsewhere
  · exact tracked.others u distinct

/-- Another task goes on to `there`, after a change of the statics. -/
theorem goesTo (tracked : Tracked scaling x) {t : TaskId} {there : Place F} {w : Demo F} (other : t ≠ protection)
    (elsewhere : there.Elsewhere) (system : w.system = x.system)
    (faultCount : w.status.faultCount = x.status.faultCount) (place : w.place = x.place)
    (log : ∃ entries, w.log = entries ++ x.log ∧ ∀ e ∈ entries, e.kind scaling = .other) :
    Tracked scaling (w.goTo t there) := by
  obtain ⟨entries, log, silent⟩ := log
  refine tracked.wanders other elsewhere system faultCount (by rw [← place]; rfl) ?_
  cases elsewhere with
  | @lock call back unnoted =>
    refine ⟨.began t call :: entries, by simp [goTo, log], List.forall_mem_cons.mpr ⟨?_, silent⟩⟩
    cases call <;> first | rfl | exact absurd rfl unnoted
  | _ => exact ⟨entries, log, silent⟩

/-- An access of another task leaves `fault_count` as it is. -/
theorem perform_spares {a : Access F} (g out : PsStatus F)
    (uncounted : a ≠ .readCount ∧ ∀ faultCount, a ≠ .writeCount faultCount) :
    (a.perform g out).1.faultCount = g.faultCount ∧ (a.perform g out).2.2 = [] := by
  cases a with
  | readCount => exact absurd rfl uncounted.1
  | writeCount faultCount => exact absurd rfl (uncounted.2 faultCount)
  | _ => exact ⟨rfl, rfl⟩

/-- A statement of another task. -/
theorem foreign (tracked : Tracked scaling x) {t : TaskId} (other : t ≠ protection)
    (running : x.system.running = some t) (ran : x.statement t scaling = some z) : Tracked scaling z := by
  have elsewhere := tracked.others t other
  have silent : ∃ entries, x.log = entries ++ x.log ∧ ∀ e ∈ entries, e.kind scaling = .other :=
    ⟨[], rfl, by simp⟩
  have readsStatus : ∀ {back : Place F}, back.Elsewhere → (Place.lock .get back).Elsewhere :=
    fun back => .lock (by simp) back
  generalize here : x.place t = place at elsewhere
  cases elsewhere with
  | receiveSample =>
    simp only [statement, here] at ran
    exact tracked.enters other running ran (by simp [Call.object, BlockingCall.object]) .sampleReceived
  | sampleReceived =>
    simp only [statement, here] at ran
    split at ran <;> cases ran
    · exact tracked.goesTo other (.lock (by simp) .runStateMachine) rfl rfl rfl silent
    · exact tracked.goesTo other .receiveSample rfl rfl rfl silent
  | runStateMachine =>
    simp only [statement, here, Option.some.injEq] at ran
    subst ran
    unfold Demo.runStateMachine
    dsimp only
    split
    · exact tracked.goesTo other (.lock (by simp) (readsStatus .resynced)) rfl rfl rfl silent
    · exact tracked.goesTo other (readsStatus .resynced) rfl rfl rfl silent
  | resynced =>
    simp only [statement, here, Option.some.injEq] at ran
    subst ran
    exact tracked.goesTo other .receiveSample rfl rfl rfl silent
  | logStatus =>
    simp only [statement, here, Option.some.injEq] at ran
    subst ran
    exact tracked.goesTo other (readsStatus .statusLogged) rfl rfl rfl silent
  | statusLogged =>
    simp only [statement, here] at ran
    exact tracked.enters other running ran (by simp [Call.object, BlockingCall.object]) .logStatus
  | uartBridgeInit =>
    simp only [statement, here, Option.some.injEq] at ran
    subst ran
    exact tracked.goesTo other .receiveByte rfl rfl rfl silent
  | receiveByte =>
    simp only [statement, here] at ran
    exact tracked.enters other running ran (by simp [Call.object, BlockingCall.object]) .byteReceived
  | byteReceived =>
    simp only [statement, here] at ran
    split at ran <;> cases ran
    · unfold lineByte
      split
      · split
        · exact tracked.goesTo other (readsStatus .answered) rfl rfl rfl silent
        · exact tracked.goesTo other .receiveByte rfl rfl rfl silent
      · split <;> exact tracked.goesTo other .receiveByte rfl rfl rfl silent
    · exact tracked.goesTo other .receiveByte rfl rfl rfl silent
  | answered =>
    simp only [statement, here, Option.some.injEq] at ran
    subst ran
    exact tracked.goesTo other .receiveByte rfl rfl rfl silent
  | timerWait =>
    simp only [statement, here] at ran
    exact tracked.enters other running ran (by simp [Call.object]) .timerExpire
  | timerExpire =>
    simp only [statement, here] at ran
    exact tracked.enters other running ran (by simp [Call.object])
      (by split; exacts [.timerWait, .timerExpire])
  | @lock call back unnoted after =>
    simp only [statement, here] at ran
    refine tracked.enters other running ran (by simp [Call.object, BlockingCall.object])
      (.access unnoted ?_ after)
    cases call <;> first | exact absurd rfl unnoted | simp [StatusCall.body]
  | @access call rest back unnoted uncounted after =>
    cases rest with
    | nil =>
      simp only [statement, here] at ran
      exact tracked.enters other running ran (by simp [Call.object]) (.leave unnoted after)
    | cons a rest =>
      simp only [statement, here, Option.some.injEq] at ran
      subst ran
      obtain ⟨first, later⟩ := List.forall_mem_cons.mp uncounted
      obtain ⟨kept, done⟩ := perform_spares x.status (x.out t) first
      refine tracked.wanders other (.access unnoted ?_ after) rfl kept rfl silent
      simpa [done] using later
  | @leave call back unnoted after =>
    simp only [statement, here, Option.some.injEq] at ran
    subst ran
    refine tracked.goesTo other after rfl rfl rfl ⟨[.completed t call], rfl, ?_⟩
    cases call <;> first | exact absurd rfl unnoted | simp [DemoEntry.kind]
  | idling => simp [statement, here] at ran

theorem yields (tracked : Tracked scaling x) {needsYield : Bool} (ran : x.yieldFromIsr needsYield = some z) :
    Tracked scaling z := by
  unfold yieldFromIsr at ran
  split at ran
  · exact tracked.proceeds ran (by simp) (by simp)
  · cases ran
    exact tracked

/-- A sample within the limits is no signal. -/
theorem samples (tracked : Tracked scaling x) {sample : AdcSample} (within : scaling.exceeds sample = false) :
    Tracked scaling { x with log := .sampled sample :: x.log } :=
  tracked.rest tracked.kernel (.refl _ _) tracked.mine tracked.others .rfl rfl rfl rfl rfl
    ⟨[.sampled sample], rfl, by simp [DemoEntry.kind, within]⟩

theorem interrupts (tracked : Tracked scaling x) {dataRegister : UInt32}
    (ran : x.adcIrqHandler scaling dataRegister = some z) : Tracked scaling z := by
  simp only [adcIrqHandler, Option.bind_eq_bind, Option.bind_eq_some_iff, Prod.exists] at ran
  obtain ⟨w, sent, _, y, signalled, ran⟩ := ran
  have queued := tracked.proceeds sent (by simp) (by simp)
  refine yields ?_ ran
  unfold signalFault at signalled
  split at signalled
  · rename_i exceeds
    obtain ⟨_, gave, same⟩ := Option.map_eq_some_iff.mp signalled
    cases same
    exact queued.signals exceeds gave
  · rename_i within
    cases signalled
    exact queued.samples (by simpa using within)

theorem step (tracked : Tracked scaling x) {event : DemoEvent} (stepped : x.step scaling event = some z) :
    Tracked scaling z := by
  cases event with
  | main =>
    simp only [Demo.step, mainStep] at stepped
    split at stepped
    · exact tracked.proceeds stepped (by simp) (by simp)
    · rename_i a todo _
      have advanced : Tracked scaling { x with todo } :=
        tracked.rest tracked.kernel (.refl _ _) tracked.mine tracked.others .rfl rfl rfl rfl rfl ⟨[], rfl, by simp⟩
      exact advanced.proceeds stepped (by simp) (by simp)
  | adc dataRegister => exact tracked.interrupts stepped
  | usart byte =>
    simp only [Demo.step, usart1IrqHandler] at stepped
    split at stepped
    · obtain ⟨_, sent, ran⟩ := Option.bind_eq_some_iff.mp stepped
      exact (tracked.proceeds sent (by simp) (by simp [faultSemaphore])).yields ran
    · cases stepped
      exact tracked
  | sysTick | pendSV | dispatch => exact tracked.proceeds stepped (by simp) (by simp)
  | task =>
    simp only [Demo.step, task, Option.bind_eq_bind, Option.bind_eq_some_iff] at stepped
    obtain ⟨self, running, ran⟩ := stepped
    split at ran
    · rename_i thread
      by_cases mine : self = protection
      · subst mine
        exact tracked.own running thread ran
      · exact tracked.foreign mine running ran
    · exact tracked.proceeds ran (by simp) (by simp)

end Tracked

theorem tracked_startUp (scaling : Scaling F) (place : Placement) : Tracked scaling (startUp scaling place) := by
  have linked : Linked (boot demoConfig) := linked_boot demoConfig
  refine ⟨⟨linked, units_boot demoConfig faultSemaphore, by simp [ContinuesAside, startUp, boot]⟩, .takeFault,
    fun t other => Place.elsewhere_entry other, ?_, rfl, Nat.le_refl 0, rfl, rfl, ?_, ?_⟩
  · intro t
    simp [Engaged, InTake, startUp, boot, waitStatus, waitOf, Pc.sleep, WaitStatus.on]
  · intro raised
    cases raised
  · intro answering
    cases answering

theorem tracked_of_run {place : Placement} {guard : Demo F → DemoEvent → Prop}
    (run : DemoRun scaling place guard x) : Tracked scaling x :=
  run.invariant _ (tracked_startUp scaling place) fun _ _ _ tracked _ stepped => tracked.step stepped

/-- The completed calls of ps_status_note_fault. -/
def completedNotes (scaling : Scaling F) (x : Demo F) : Nat := count (DemoEntry.kind scaling) .ends x.log

/-- The samples over the limit. -/
def faults (scaling : Scaling F) (x : Demo F) : Nat := count (DemoEntry.kind scaling) .signal x.log

/-- What a state of a run says of the faults since start-up: whether the newest
has been answered, and how many were counted. A call that has written
`fault_count` and not returned yet is counted and not completed. -/
structure FaultsAnswered (scaling : Scaling F) (x : Demo F) : Prop where
  answered : x.AwaitsFault → (∃ sample, .sampled sample ∈ x.log ∧ scaling.exceeds sample = true) →
    Answered (DemoEntry.kind scaling) x.log
  settled : x.AwaitsFault → x.status.faultCount = UInt32.ofNat (x.completedNotes scaling)
  counted : x.status.faultCount =
    UInt32.ofNat (x.completedNotes scaling + (x.place protection).counted.toNat)
  bounded : x.completedNotes scaling + (x.place protection).counted.toNat ≤ x.faults scaling

/-- A counted call is under way. -/
theorem noting_of_counted (p : Place F) : p.counted.toNat ≤ p.noting.toNat := by
  cases p with
  | access call rest =>
    cases call <;> simp [Place.counted, Place.noting]
    cases rest <;> simp
  | leave call => cases call <;> simp [Place.counted, Place.noting]
  | _ => simp [Place.counted]

/-- Blocked in the take, ProtectionTask stands in it, with no unit left. -/
theorem Tracked.asleep (tracked : Tracked scaling x) (awaits : x.AwaitsFault) :
    x.InTake ∧ (x.system.semaphores faultSemaphore).count = 0 ∧
      (x.system.waitStatus protection).handedUnit faultSemaphore = false := by
  have waiting : x.system.waitStatus protection = .waiting (.semaphoreTake faultSemaphore waitForever) :=
    Linked.waiting_iff.mpr awaits
  refine ⟨((tracked.engaged protection).mp ?_).2, ?_, ?_⟩
  · rw [Engaged, waiting]
    simp [WaitStatus.on, BlockingCall.object]
  · apply tracked.kernel.units.waiters
    have listed : protection ∈ x.system.sched.events.items (.semaphore faultSemaphore) :=
      tracked.kernel.linked.listed_waiting.mpr ⟨_, waiting, rfl⟩
    exact List.ne_nil_of_mem listed
  · rw [waiting]
    rfl

/-- No fault signal is lost by coalescing, in any run of the demo. -/
theorem fault_signals_kept {place : Placement} (run : DemoRun scaling place GuardedRun.Free x) :
    FaultsAnswered scaling x := by
  have tracked := tracked_of_run run
  refine ⟨?_, ?_, tracked.counted, ?_⟩
  · intro awaits above
    obtain ⟨busy, exhausted, unhanded⟩ := tracked.asleep awaits
    apply answered_of_phase
    cases now : phase (DemoEntry.kind scaling) x.log with
    | quiet =>
      obtain ⟨sample, member, exceeds⟩ := above
      exact absurd (by simp [DemoEntry.kind, exceeds]) (phase_quiet.mp now _ member)
    | raised =>
      rcases tracked.raised now with left | handed | held
      · exact absurd exhausted left
      · rw [unhanded] at handed
        cases handed
      · rw [Tracked.holding_busy busy] at held
        cases held
    | answering =>
      have noting := tracked.answering now
      rw [busy.1] at noting
      cases noting
    | answered => rfl
  · intro awaits
    have counted := tracked.counted
    rw [(tracked.asleep awaits).1.1] at counted
    exact counted
  · have balance := tracked.kernel.units.balance
    have kept := tracked.kept
    have took := tracked.took
    have begun := tracked.begun
    have under := noting_of_counted (x.place protection)
    rw [UInt32.toNat_zero] at balance
    unfold completedNotes faults
    omega

/-- A voltage limit on the raw value. -/
def rawLimit : Scaling UInt16 := ⟨0, id, id, fun voltageRaw _ => 3000 < voltageRaw⟩

def onBoard : Placement := ⟨fun t => t.toUInt32 + 1, fun _ => 1, fun _ => 1, 1⟩

/-- One sample over the limit wakes ProtectionTask, and two more come while it
is on its way to the note: the first of them is counted, the second dropped. -/
def threeFaults : List DemoEvent :=
  List.replicate 6 DemoEvent.main ++
    [DemoEvent.task, .task, .pendSV, .adc 4000, .pendSV, .task, .task, .task] ++
    [DemoEvent.adc 4001, .adc 4002] ++ List.replicate 17 DemoEvent.task

set_option maxRecDepth 20000 in
theorem fault_signals_kept_thrice : ∃ x, DemoRun rawLimit onBoard GuardedRun.Free x ∧ x.AwaitsFault ∧
    x.faults rawLimit = 3 ∧ x.completedNotes rawLimit = 2 ∧ FaultsAnswered rawLimit x := by
  obtain ⟨x, run, reached⟩ : ∃ x, DemoRun rawLimit onBoard GuardedRun.Free x ∧
      decide (x.AwaitsFault ∧ x.faults rawLimit = 3 ∧ x.completedNotes rawLimit = 2) = true :=
    GuardedRun.reaches_of_exec threeFaults _ (by decide +kernel)
  obtain ⟨awaits, faults, notes⟩ := of_decide_eq_true reached
  exact ⟨x, run, awaits, faults, notes, fault_signals_kept run⟩

end Demo
end PowerSupply
end NimbleRtos
