import NimbleRtos.DemoView

/-! The samples on their way from ADC_IRQHandler to `g_status`. ControlTask
measures each sample that found room in the queue once, and in order; what the
other tasks read of a measurement is the whole of one. -/
namespace NimbleRtos
open NodeRings Sched NimbleRtos.System GuardedRun

namespace PowerSupply
open Port (Placement protection control comms logger timerSvc)

section
variable {F : Type}

/-- The measurement that is shown. -/
def PsStatus.measured (g : PsStatus F) : F × F := (g.voltageMv, g.currentMa)

namespace Place

/-- The accesses still to come of a call that has begun. -/
def due : Place F → List (Access F)
  | .lock call _ => call.body
  | .access _ rest _ => rest
  | _ => []

/-- Between the writes of ps_status_set_measurement. -/
def torn : Place F → Bool
  | .access _ [.writeCurrent _] _ => true
  | _ => false

theorem torn_accessing {p : Place F} (torn : p.torn = true) : p.accessing = true := by
  cases p <;> first | rfl | cases torn

end Place

theorem measured_complete {g g' : PsStatus F} (same : g.measured = g'.measured) (access : Access F) :
    (access.complete g).measured = (access.complete g').measured := by
  obtain ⟨voltage, current⟩ := Prod.mk.inj same
  cases access <;> simp [Access.complete, PsStatus.measured, voltage, current]

theorem measured_foldl {g g' : PsStatus F} (same : g.measured = g'.measured) (accesses : List (Access F)) :
    (accesses.foldl Access.complete g).measured = (accesses.foldl Access.complete g').measured := by
  induction accesses generalizing g g' with
  | nil => exact same
  | cons access accesses ih => exact ih (measured_complete same access)

/-- Only ps_status_set_measurement changes it. -/
theorem measured_due {g : PsStatus F} {p : Place F} (outside : p.accessing = false)
    (other : ∀ voltageMv currentMa, p.begins ≠ some (.setMeasurement voltageMv currentMa)) :
    (p.due.foldl Access.complete g).measured = g.measured := by
  cases p with
  | lock call =>
    cases call with
    | setMeasurement voltageMv currentMa => exact absurd rfl (other voltageMv currentMa)
    | _ => rfl
  | access => cases outside
  | _ => rfl

/-- Only ControlTask measures. -/
theorem call_elsewhere {t : TaskId} {call : StatusCall F} {rest : List (Access F)} {back : Place F}
    (code : InCode t (.access call rest back)) (other : t ≠ control) : call = .get ∨ call = .noteFault := by
  have during : ∀ {call' back'}, During call' back' (.access call rest back) → call = call' := by
    intro call' back' during
    cases during
    rfl
  cases code with
  | control => exact absurd rfl other
  | protection code =>
    cases code
    exact .inr (during ‹_›)
  | comms code | logger code =>
    cases code
    exact .inl (during ‹_›)
  | timerSvc code => cases code

theorem measured_other {t : TaskId} {call : StatusCall F} {access : Access F} {rest : List (Access F)} {back : Place F}
    (code : InCode t (.access call (access :: rest) back)) (other : t ≠ control) (g out : PsStatus F) :
    (access.perform g out).1.measured = g.measured := by
  have left := code.left
  generalize shape : access :: rest = accesses at left
  rcases call_elsewhere code other with rfl | rfl <;> cases left <;> cases shape <;> rfl

/-- Whoever moves on has no access due. -/
theorem Goes.idle {scaling : Scaling F} {x z : Demo F} {self : TaskId} {there : Place F} (goes : Goes x self there z)
    (ran : x.statement self scaling = some z) : (x.place self).due = [] := by
  cases here : x.place self with
  | lock call back =>
    simp only [Demo.statement, here] at ran
    obtain ⟨system, _, rfl⟩ := Option.map_eq_some_iff.mp ran
    have place := congrFun goes.place self
    have onward := goes.onward.1
    simp only [Function.update_self] at place
    rw [← place] at onward
    cases onward
  | access =>
    have outside := goes.outside
    rw [here] at outside
    cases outside
  | _ => rfl

end

namespace Demo
variable {F : Type} {scaling : Scaling F} {x z : Demo F} {self t : TaskId}

/-- The samples ADC_IRQHandler took, oldest first. -/
def sampled (x : Demo F) : List AdcSample :=
  (x.log.filterMap fun | .sampled sample => some sample | _ => none).reverse

/-- Those that found room in the queue. -/
def kept (x : Demo F) : List AdcSample := (x.system.sent adcSampleQueue).map AdcSample.ofBytes

/-- The measurements ControlTask has begun to set, oldest first. -/
def measurements (x : Demo F) : List (F × F) :=
  x.begun.filterMap fun
    | (_, .setMeasurement voltageMv currentMa) => some (voltageMv, currentMa)
    | _ => none

/-- What start-up and the measurements make there is to show. -/
def shown (scaling : Scaling F) (x : Demo F) : List (F × F) := (scaling.zero, scaling.zero) :: x.measurements

/-- The samples received are measured or in hand; the last measurement is the
one that is or will be in `g_status`; and nobody reads half of one. -/
structure Measured (scaling : Scaling F) (x : Demo F) : Prop where
  flow : (x.system.received adcSampleQueue).map scaling.measure =
    x.measurements ++ (x.hand sampleReader).map scaling.measure
  last : ((x.place control).due.foldl Access.complete x.status).measured =
    x.measurements.getLastD (scaling.zero, scaling.zero)
  whole : (x.place control).torn = false → x.status.measured ∈ x.shown scaling
  reads : ∀ t, (x.out t).measured ∈ x.shown scaling

theorem measurements_of_begun {new : List (TaskId × StatusCall F)} (begun : z.begun = x.begun ++ new)
    (other : ∀ t voltageMv currentMa, (t, .setMeasurement voltageMv currentMa) ∉ new) :
    z.measurements = x.measurements := by
  rw [measurements, measurements, begun, List.filterMap_append]
  refine List.append_right_eq_self.mpr (List.filterMap_eq_nil_iff.mpr ?_)
  rintro ⟨t, call⟩ member
  cases call with
  | setMeasurement voltageMv currentMa => exact absurd member (other t voltageMv currentMa)
  | _ => rfl

/-- ControlTask measures the sample in its hand, and nobody measures otherwise. -/
inductive Measures (scaling : Scaling F) (x : Demo F) (self : TaskId) (z : Demo F) : Prop where
  | not (same : z.measurements = x.measurements)
      (other : ∀ voltageMv currentMa, (z.place self).begins ≠ some (.setMeasurement voltageMv currentMa))
  | measures (mine : self = control) (here : x.place control = .sampleReceived)
      (begins : (z.place control).begins = some (.setMeasurement (scaling.measure (x.received control)).1
        (scaling.measure (x.received control)).2))
      (appended : z.measurements = x.measurements ++ [scaling.measure (x.received control)])

theorem measures_of_statement (code : InCode self (x.place self)) (ran : x.statement self scaling = some z) :
    Measures scaling x self z := by
  have begun := begun_of_statement ran
  cases head : (z.place self).begins with
  | none =>
    rw [head] at begun
    exact .not (measurements_of_begun begun (by simp)) (by simp [head])
  | some call =>
    rw [head] at begun
    cases begins_of_statement code ran head with
    | measures here =>
      have mine : self = control := code.owner (by rw [here]; rfl)
      subst mine
      exact .measures rfl here head (by simp [measurements, begun])
    | _ => exact .not (measurements_of_begun begun (by simp)) (by simp [head])

theorem Measures.grows (measures : Measures scaling x self z) : ∃ new, z.measurements = x.measurements ++ new := by
  cases measures with
  | not same => exact ⟨[], by rw [same, List.append_nil]⟩
  | measures _ _ _ appended => exact ⟨_, appended⟩

theorem Measures.same (measures : Measures scaling x self z)
    (elsewhere : self = control → x.place self ≠ .sampleReceived) : z.measurements = x.measurements := by
  cases measures with
  | not same => exact same
  | measures mine here => exact absurd (mine ▸ here) (elsewhere mine)

theorem shown_grows {m : F × F} (grows : ∃ new, z.measurements = x.measurements ++ new)
    (before : m ∈ x.shown scaling) : m ∈ z.shown scaling := by
  obtain ⟨new, grows⟩ := grows
  rw [shown, grows, ← List.cons_append]
  exact List.mem_append_left new before

/-- Who is between the two writes has the mutex. -/
theorem inside_of_torn (locked : x.Locked) (torn : (x.place self).torn = true) : x.Inside self := by
  refine ⟨Place.torn_accessing torn, ?_⟩
  have standing := locked.standing self
  generalize x.place self = p at standing torn
  cases standing with
  | outside apart =>
    rw [Place.torn_accessing torn] at apart
    cases apart
  | holds thread => exact thread
  | @waits call => cases call <;> cases torn

namespace Measured

theorem startUp (scaling : Scaling F) (place : Placement) : Measured scaling (startUp scaling place) := by
  refine ⟨?_, rfl, ?_, ?_⟩
  · rfl
  · exact fun _ => List.mem_cons_self
  · exact fun _ => List.mem_cons_self

/-- A step that is no call hands ControlTask a sample at most. -/
theorem kernel {event : Event} {system : System} (measured : Measured scaling x) (orderly : x.Orderly)
    (uncalled : ∀ c, event ≠ .call c) (stepped : x.system.step event = some system) :
    Measured scaling { x with system } := by
  refine ⟨?_, measured.last, measured.whole, measured.reads⟩
  obtain ⟨new, received, hand⟩ := orderly.samples.flow_kernel orderly.linked uncalled stepped
  have before := measured.flow
  dsimp only [sampleReader] at received
  dsimp only
  rw [received, hand, List.map_append, List.map_append, before, List.append_assoc]
  rfl

/-- Whatever a statement does with the kernel, what was received is measured or
in hand. -/
theorem flows (measured : Measured scaling x) (orderly : x.Orderly) (running : x.system.running = some self)
    (thread : x.system.pc self = .thread) (ran : x.statement self scaling = some z) :
    (z.system.received adcSampleQueue).map scaling.measure =
      z.measurements ++ (z.hand sampleReader).map scaling.measure := by
  have measures := measures_of_statement (orderly.locked.coded self) ran
  have before := measured.flow
  cases orderly.flow_statement (.inl rfl) running thread ran with
  | gives received hand elsewhere =>
    dsimp only [sampleReader] at received
    rw [received, hand, List.map_append, List.map_append, before, measures.same elsewhere, List.append_assoc]
  | handles mine here succeeded same hand nothing =>
    obtain rfl : self = control := mine
    have here : x.place control = .sampleReceived := here
    rw [hand] at before
    dsimp only [sampleReader] at same before
    rw [same, nothing, before]
    cases measures with
    | not _ other =>
      simp only [statement, here, succeeded, if_true, Option.some.injEq] at ran
      subst ran
      simp [goTo, Place.begins] at other
    | measures _ _ _ appended => simp [appended]

/-- The accesses of the other tasks leave the measurement alone. -/
theorem steadies (orderly : x.Orderly) (ran : x.statement self scaling = some z) (other : self ≠ control) :
    z.status.measured = x.status.measured := by
  have code := orderly.locked.coded self
  cases (acts_of_statement code ran).1 with
  | accesses here =>
    rw [here] at code
    exact measured_other code other _ _
  | goes goes => rw [goes.status]
  | _ => rfl

/-- What is due of the calls under way makes the last measurement of all. -/
theorem lasts (measured : Measured scaling x) (orderly : x.Orderly) (ran : x.statement self scaling = some z) :
    ((z.place control).due.foldl Access.complete z.status).measured =
      z.measurements.getLastD (scaling.zero, scaling.zero) := by
  have code := orderly.locked.coded self
  have measures := measures_of_statement code ran
  have acts := (acts_of_statement code ran).1
  have before := measured.last
  by_cases mine : self = control
  · subst mine
    cases acts with
    | locks here | unlocks here | receives here =>
      rw [measures.same (by simp [here]), ← before, here]
      simp [Place.due]
    | accesses here =>
      rw [measures.same (by simp [here]), ← before, here]
      simp only [Place.due, Function.update_self, List.foldl_append, List.foldl_cons, complete_perform]
    | takes here => cases orderly.owner here rfl
    | receivesByte here => cases orderly.owner here rfl
    | calls _ other => exact absurd rfl other.2
    | goes goes =>
      rw [goes.idle ran, List.foldl_nil] at before
      cases measures with
      | not same other =>
        have outside : (z.place control).accessing = false := by
          rw [goes.place, Function.update_self]
          exact goes.onward.1
        rw [same, ← before, goes.status, measured_due outside other]
      | measures _ _ begins appended =>
        rw [appended, List.getLastD_concat]
        generalize z.place control = p at begins
        cases p with
        | lock =>
          cases begins
          rfl
        | _ => cases begins
  · rw [acts_others acts (Ne.symm mine), measures.same (absurd · mine), ← before]
    exact measured_foldl (steadies orderly ran mine) _

/-- Unless ControlTask is between its two writes, what is shown is whole. -/
theorem wholes (measured : Measured scaling x) (orderly : x.Orderly) (ran : x.statement self scaling = some z)
    (untorn : (z.place control).torn = false) : z.status.measured ∈ z.shown scaling := by
  have code := orderly.locked.coded self
  have acts := (acts_of_statement code ran).1
  have written : (z.place control).due = [] → z.status.measured ∈ z.shown scaling := by
    intro idle
    have last := measured.lasts orderly ran
    rw [idle, List.foldl_nil] at last
    rw [shown, last]
    exact List.getLastD_mem_cons
  have spared : (x.place control).torn = false → x.status.measured ∈ z.shown scaling :=
    fun untorn => shown_grows (measures_of_statement code ran).grows (measured.whole untorn)
  by_cases mine : self = control
  · subst mine
    cases acts with
    | locks here | unlocks here | receives here => exact spared (by rw [here]; rfl)
    | @accesses call access rest back here =>
      rw [here] at code
      have left := code.left
      generalize shape : access :: rest = accesses at left
      cases left with
      | all =>
        cases call with
        | setMeasurement =>
          cases shape
          simp [Access.perform, Place.torn] at untorn
        | _ =>
          cases shape
          exact spared (by rw [here]; rfl)
      | current =>
        cases shape
        exact written (by simp [Place.due, Access.perform])
      | count | counted =>
        cases shape
        exact spared (by rw [here]; rfl)
      | none => cases shape
    | takes here => cases orderly.owner here rfl
    | receivesByte here => cases orderly.owner here rfl
    | calls _ other => exact absurd rfl other.2
    | goes goes =>
      rw [goes.status]
      refine spared ?_
      by_contra torn
      have accessing := Place.torn_accessing (Bool.not_eq_false _ ▸ torn)
      rw [goes.outside] at accessing
      cases accessing
  · rw [steadies orderly ran mine]
    exact spared (by rw [← acts_others acts (Ne.symm mine)]; exact untorn)

/-- A task reads while it has the mutex, which ControlTask has between its two
writes. -/
theorem reads_whole (measured : Measured scaling x) (orderly : x.Orderly) (thread : x.system.pc self = .thread)
    (ran : x.statement self scaling = some z) (t : TaskId) : (z.out t).measured ∈ z.shown scaling := by
  have code := orderly.locked.coded self
  have kept : (x.out t).measured ∈ z.shown scaling :=
    shown_grows (measures_of_statement code ran).grows (measured.reads t)
  have spared : (x.place control).torn = false → x.status.measured ∈ z.shown scaling :=
    fun untorn => shown_grows (measures_of_statement code ran).grows (measured.whole untorn)
  cases (acts_of_statement code ran).1 with
  | @accesses call access rest back here =>
    dsimp only
    by_cases mine : t = self
    · subst mine
      rw [Function.update_self]
      cases access with
      | copyOut =>
        refine spared ?_
        by_contra torn
        have torn : (x.place control).torn = true := by simpa using torn
        have owner := orderly.locked.inside_owner (inside_of_torn orderly.locked torn)
        rw [orderly.locked.inside_owner ⟨by rw [here]; rfl, thread⟩] at owner
        obtain rfl := Option.some.inj owner
        rw [here] at torn
        cases torn
      | _ => exact kept
    · rw [Function.update_of_ne mine]
      exact kept
  | goes goes =>
    rw [goes.out]
    exact kept
  | _ => exact kept

theorem does (measured : Measured scaling x) (orderly : x.Orderly) (does : Does scaling x z) : Measured scaling z := by
  cases does with
  | kernel uncalled stepped => exact measured.kernel orderly uncalled stepped
  | creates | samples => exact ⟨measured.flow, measured.last, measured.whole, measured.reads⟩
  | states running thread ran =>
    exact ⟨measured.flows orderly running thread ran, measured.lasts orderly ran, measured.wholes orderly ran,
      measured.reads_whole orderly thread ran⟩

end Measured

/-! ## Into the queue -/

/-- The sample queue is not full. -/
def Roomy (x : Demo F) : Prop := (x.system.queues adcSampleQueue).items.length < adcQueueDepth

instance (x : Demo F) : Decidable x.Roomy := inferInstanceAs (Decidable (_ < _))

theorem Orderly.roomy_iff (orderly : x.Orderly) :
    (x.system.queues adcSampleQueue).count < (x.system.queues adcSampleQueue).capacity ↔ x.Roomy := by
  have capacity : (x.system.queues adcSampleQueue).capacity = 8 := orderly.samples.fifo.shape.capacity
  have length : (x.system.queues adcSampleQueue).items.length = (x.system.queues adcSampleQueue).count.toNat :=
    CircularBuffer.contents_length
  rw [capacity, UInt32.lt_iff_toNat_lt, Roomy, length]
  rfl

/-- The step takes no sample. -/
structure Untaken (x z : Demo F) : Prop where
  kept : z.kept = x.kept
  sampled : z.sampled = x.sampled

theorem untaken_kernel {event : Event} (orderly : x.Orderly) (uncalled : ∀ c, event ≠ .call c)
    (silent : ∀ item, event ≠ .isr (.queueSendFromIsr adcSampleQueue item)) (ran : x.kernel event = some z) :
    Untaken x z ∧ z.Orderly := by
  obtain ⟨system, stepped, rfl⟩ := Option.map_eq_some_iff.mp ran
  have sent : system.sent adcSampleQueue = x.system.sent adcSampleQueue :=
    orderly.samples.sent_kernel orderly.linked uncalled silent stepped
  exact ⟨⟨congrArg (List.map AdcSample.ofBytes) sent, rfl⟩, orderly.kernel uncalled stepped⟩

theorem untaken_yield {needsYield : Bool} (orderly : x.Orderly) (ran : x.yieldFromIsr needsYield = some z) :
    Untaken x z := by
  unfold yieldFromIsr at ran
  split at ran
  · exact (untaken_kernel orderly (by simp) (by simp) ran).1
  · cases ran
    exact ⟨rfl, rfl⟩

theorem untaken_statement (orderly : x.Orderly) (ran : x.statement self scaling = some z) : Untaken x z := by
  refine ⟨?_, ?_⟩
  · refine congrArg (List.map AdcSample.ofBytes) ?_
    cases (acts_of_statement (orderly.locked.coded self) ran).1 with
    | locks _ stepped | takes _ stepped | receives _ stepped | receivesByte _ stepped =>
      exact sent_called stepped (by rintro _ _ ⟨⟩)
    | unlocks _ stepped => exact sent_called stepped (by simp)
    | calls _ _ apart stepped =>
      refine sent_called stepped ?_
      rintro item timeoutTicks rfl
      exact apart.samples rfl
    | accesses => rfl
    | goes goes => rw [goes.system]
  · rw [sampled, sampled, log_of_statement ran]
    cases (z.place self).begins <;> cases (x.place self).ends <;> simp

/-- ADC_IRQHandler takes a sample, and drops it if the queue is full. -/
theorem taken (orderly : x.Orderly) {dataRegister : UInt32} (ran : x.adcIrqHandler scaling dataRegister = some z) :
    z.sampled = x.sampled ++ [.read dataRegister] ∧
      z.kept = x.kept ++ if x.Roomy then [.read dataRegister] else [] := by
  simp only [adcIrqHandler, Option.bind_eq_bind, Option.bind_eq_some_iff, Prod.exists] at ran
  obtain ⟨w, sends, _, y, signalled, yields⟩ := ran
  obtain ⟨system, stepped, rfl⟩ := Option.map_eq_some_iff.mp sends
  have sent := sent_interrupt stepped
  have notes : Does scaling { x with system } { x with system, log := .sampled (.read dataRegister) :: x.log } :=
    .samples (.read dataRegister)
  have queued := (orderly.kernel (by simp) stepped).does notes
  have signals : Untaken { x with system, log := .sampled (.read dataRegister) :: x.log } y ∧ y.Orderly := by
    unfold signalFault at signalled
    split at signalled
    · obtain ⟨_, gave, same⟩ := Option.map_eq_some_iff.mp signalled
      cases same
      exact untaken_kernel queued (by simp) (by simp) gave
    · cases signalled
      exact ⟨⟨rfl, rfl⟩, queued⟩
  have last := untaken_yield signals.2 yields
  refine ⟨?_, ?_⟩
  · rw [last.sampled, signals.1.sampled]
    simp [sampled]
  · rw [last.kept, signals.1.kept, kept, kept, show system.sent adcSampleQueue = _ from sent, List.map_append]
    simp only [orderly.roomy_iff]
    split <;> simp [ofBytes_bytes]

/-- Nothing else does. -/
theorem untaken {event : DemoEvent} (orderly : x.Orderly) (stepped : x.step scaling event = some z)
    (other : ∀ dataRegister, event ≠ .adc dataRegister) : Untaken x z := by
  cases event with
  | main =>
    simp only [Demo.step, mainStep] at stepped
    split at stepped
    · exact (untaken_kernel orderly (by simp) (by simp) stepped).1
    · rename_i todo _
      have creates : Does scaling x { x with todo } := .creates todo
      obtain ⟨kept, sampled⟩ := (untaken_kernel (orderly.does creates) (by simp) (by simp) stepped).1
      exact ⟨kept, sampled⟩
  | adc dataRegister => exact absurd rfl (other dataRegister)
  | usart byte =>
    simp only [Demo.step, usart1IrqHandler] at stepped
    split at stepped
    · obtain ⟨w, sends, yields⟩ := Option.bind_eq_some_iff.mp stepped
      obtain ⟨first, middle⟩ := untaken_kernel orderly (by simp) (by simp [uartRxQueue, adcSampleQueue]) sends
      have last := untaken_yield middle yields
      exact ⟨last.kept.trans first.kept, last.sampled.trans first.sampled⟩
    · cases stepped
      exact ⟨rfl, rfl⟩
  | sysTick | pendSV | dispatch => exact (untaken_kernel orderly (by simp) (by simp) stepped).1
  | task =>
    simp only [Demo.step, task, Option.bind_eq_bind, Option.bind_eq_some_iff] at stepped
    obtain ⟨self, _, ran⟩ := stepped
    split at ran
    · exact untaken_statement orderly ran
    · exact (untaken_kernel orderly (by simp) (by simp) ran).1

/-! ## Runs -/

/-- The samples kept that have no measurement yet: ControlTask has the first in
hand, or none of them. -/
def pending (x : Demo F) : List AdcSample :=
  (x.hand sampleReader ++ (x.system.queues adcSampleQueue).items).map AdcSample.ofBytes

/-- ControlTask is blocked in `nimble_queue_receive(&g_adc_sample_queue, …)`. -/
def AwaitsSample (x : Demo F) : Prop :=
  (x.system.sched.tcb control).state = .blocked ∧ (x.system.pc control).sleep = some receiveSampleCall

/-- What a state of a run says of the samples since start-up. -/
structure SampleFlow (scaling : Scaling F) (guard : Demo F → DemoEvent → Prop) (x : Demo F) : Prop where
  kept : x.kept.Sublist x.sampled
  next : ∀ dataRegister z, x.step scaling (.adc dataRegister) = some z →
    z.kept = x.kept ++ if x.Roomy then [.read dataRegister] else []
  all : (∀ y dataRegister, guard y (.adc dataRegister) → y.Roomy) → x.kept = x.sampled
  measured : x.kept.map scaling.scale = x.measurements ++ x.pending.map scaling.scale
  pending : x.pending.length ≤ adcQueueDepth + 1
  settled : x.AwaitsSample → x.pending = [] ∧ x.status.measured = x.measurements.getLastD (scaling.zero, scaling.zero)
  reads : ∀ t, (x.out t).measured ∈ x.shown scaling

theorem map_scale (items : List Bytes) :
    (items.map AdcSample.ofBytes).map scaling.scale = items.map scaling.measure := by
  rw [List.map_map]
  rfl

theorem items_length (x : Demo F) :
    (x.system.queues adcSampleQueue).items.length = (x.system.queues adcSampleQueue).count.toNat :=
  CircularBuffer.contents_length

theorem hand_le_one {r : Reader F} : (x.hand r).length ≤ 1 := by
  unfold hand
  split <;> simp

theorem measured_of_run {place : Placement} {guard : Demo F → DemoEvent → Prop}
    (run : DemoRun scaling place guard x) : Measured scaling x := by
  refine (invariant_of_does (fun x => x.Orderly ∧ Measured scaling x) run
    ⟨orderly_startUp scaling place, .startUp scaling place⟩ ?_).2
  rintro x z ⟨orderly, measured⟩ does
  exact ⟨orderly.does does, measured.does orderly does⟩

theorem kept_of_run {place : Placement} {guard : Demo F → DemoEvent → Prop} (run : DemoRun scaling place guard x) :
    x.kept.Sublist x.sampled ∧ ((∀ y dataRegister, guard y (.adc dataRegister) → y.Roomy) → x.kept = x.sampled) := by
  have strong := run.strengthen fun _ => orderly_of_run
  refine strong.invariant (fun x => x.kept.Sublist x.sampled ∧
    ((∀ y dataRegister, guard y (.adc dataRegister) → y.Roomy) → x.kept = x.sampled)) ⟨.refl [], fun _ => rfl⟩ ?_
  rintro x event z ⟨sublist, all⟩ ⟨guarded, orderly⟩ stepped
  by_cases sampling : ∃ dataRegister, event = .adc dataRegister
  · obtain ⟨dataRegister, rfl⟩ := sampling
    obtain ⟨sampled, kept⟩ := taken orderly stepped
    rw [sampled, kept]
    refine ⟨sublist.append ?_, fun roomy => ?_⟩
    · split
      · exact .refl _
      · exact List.nil_sublist _
    · rw [all roomy, if_pos (roomy x dataRegister guarded)]
  · obtain ⟨kept, sampled⟩ := untaken orderly stepped (not_exists.mp sampling)
    rw [kept, sampled]
    exact ⟨sublist, all⟩

/-- Whatever the samples, the bytes and the order in which ready tasks run,
ControlTask measures every sample that found room once and in order, at most
nine behind; while it waits for the next, `g_status` shows the last of them;
and no task ever reads a voltage and a current of different samples. -/
theorem samples_flow {place : Placement} {guard : Demo F → DemoEvent → Prop} (run : DemoRun scaling place guard x) :
    SampleFlow scaling guard x := by
  have orderly := orderly_of_run run
  have measured := measured_of_run run
  obtain ⟨kept, all⟩ := kept_of_run run
  refine ⟨kept, fun _ _ stepped => (taken orderly stepped).2, all, ?_, ?_, ?_, measured.reads⟩
  · calc x.kept.map scaling.scale = (x.system.sent adcSampleQueue).map scaling.measure := map_scale _
      _ = (x.system.received adcSampleQueue ++ (x.system.queues adcSampleQueue).items).map scaling.measure :=
        congrArg _ orderly.fifo.balance
      _ = x.measurements ++ (x.hand sampleReader ++ (x.system.queues adcSampleQueue).items).map scaling.measure := by
        rw [List.map_append, measured.flow, List.append_assoc, ← List.map_append]
      _ = x.measurements ++ x.pending.map scaling.scale := by rw [Demo.pending, map_scale]
  · have bound := UInt32.le_iff_toNat_le.mp orderly.fifo.formed.bound
    rw [show (x.system.queues adcSampleQueue).capacity = 8 from orderly.fifo.shape.capacity] at bound
    rw [Demo.pending, List.length_map, List.length_append, Nat.add_comm, x.items_length]
    exact Nat.add_le_add bound hand_le_one
  · intro awaits
    have waiting : x.system.waitStatus control = .waiting receiveSampleCall := Linked.waiting_iff.mpr awaits
    obtain ⟨here, idle⟩ := orderly.samples.idle waiting
    refine ⟨congrArg (List.map AdcSample.ofBytes) idle, ?_⟩
    have last := measured.last
    rw [show x.place control = .sampleReceived from here] at last
    exact last

/-- Nine samples come before ControlTask runs, and the last finds the queue full. -/
def nineSamples : List DemoEvent :=
  List.replicate 6 .main ++ List.replicate 9 (.adc 5) ++ List.replicate 2 .task ++ [.pendSV] ++
    List.replicate 10 .task

set_option maxRecDepth 20000 in
theorem nineSamples_flow : ∃ x, DemoRun rawLimit onBoard Free x ∧ x.sampled.length = 9 ∧ x.kept.length = 8 ∧
    x.measurements = [(5, 5)] ∧ SampleFlow rawLimit Free x := by
  obtain ⟨x, run, reached⟩ : ∃ x, DemoRun rawLimit onBoard Free x ∧
      decide (x.sampled.length = 9 ∧ x.kept.length = 8 ∧ x.measurements = [(5, 5)]) = true :=
    reaches_of_exec nineSamples _ (by decide +kernel)
  obtain ⟨sampled, kept, measurements⟩ := of_decide_eq_true reached
  exact ⟨x, run, sampled, kept, measurements, samples_flow run⟩

end Demo
end PowerSupply
end NimbleRtos
