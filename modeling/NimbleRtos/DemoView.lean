import NimbleRtos.FaultLatch
import NimbleRtos.Readers

/-! The demo on the kernel, seen from its application: the application's state
that a state of the demo stands for, and where the demo's tasks are with the
kernel meanwhile. -/
namespace NimbleRtos
open NodeRings Sched NimbleRtos.System GuardedRun

namespace PowerSupply
open Port (Placement protection control comms logger timerSvc)

section
variable {F : Type}

/-- The status after an access, the write that follows its read included. -/
def Access.complete (g : PsStatus F) : Access F → PsStatus F
  | .copyOut => g
  | .writeVoltage voltageMv => { g with voltageMv }
  | .writeCurrent currentMa => { g with currentMa }
  | .writeState state => { g with state }
  | .readCount => { g with faultCount := g.faultCount + 1 }
  | .writeCount faultCount => { g with faultCount }

theorem complete_perform (g out : PsStatus F) (access : Access F) :
    (access.perform g out).2.2.foldl Access.complete (access.perform g out).1 = access.complete g := by
  cases access <;> rfl

/-- What a function of power_supply.c makes of the status. -/
def StatusCall.effect (g : PsStatus F) : StatusCall F → PsStatus F
  | .get => g
  | .setMeasurement voltageMv currentMa => g.setMeasurement voltageMv currentMa
  | .setState state => g.setState state
  | .noteFault => g.noteFault

theorem foldl_body (g : PsStatus F) (call : StatusCall F) :
    call.body.foldl Access.complete g = call.effect g := by
  cases call <;> rfl

private theorem halves (v : UInt16) : v.toUInt8.toUInt16 ||| ((v >>> 8).toUInt8.toUInt16 <<< 8) = v := by
  apply UInt16.toNat_inj.mp
  have bound := v.toNat_lt
  have low : v.toNat % 2 ^ 8 < 2 ^ 8 := Nat.mod_lt _ (by decide)
  have high : (v.toNat >>> 8 % 2 ^ 8) <<< 8 % 2 ^ 16 = (v.toNat / 256) <<< 8 := by
    rw [Nat.shiftRight_eq_div_pow, Nat.shiftLeft_eq, Nat.shiftLeft_eq]
    omega
  simp only [UInt16.toNat_or, UInt8.toNat_toUInt16, UInt16.toNat_toUInt8, UInt16.toNat_shiftLeft,
    UInt16.toNat_shiftRight]
  rw [show UInt16.toNat 8 % 16 = 8 from rfl, Nat.or_comm, high, ← Nat.shiftLeft_add_eq_or_of_lt low,
    Nat.shiftLeft_eq]
  omega

/-- A sample survives the copy through the queue. -/
theorem ofBytes_bytes (sample : AdcSample) : AdcSample.ofBytes sample.bytes = sample := by
  simp only [AdcSample.ofBytes, AdcSample.bytes, List.getD_cons_zero, List.getD_cons_succ, halves]

namespace Place

/-- The accesses still to come before the unlock. -/
def rest : Place F → List (Access F)
  | .access _ rest _ => rest
  | _ => []

theorem rest_outside {p : Place F} (outside : p.accessing = false) : p.rest = [] := by
  cases p <;> first | rfl | cases outside

end Place

namespace Demo
variable (x : Demo F)

/-- `g_status` once the owner of the mutex is through with its accesses. -/
def settled : PsStatus F :=
  match (x.system.mutexes statusMutex).owner with
  | some t => if x.system.pc t = .thread then (x.place t).rest.foldl Access.complete x.status else x.status
  | none => x.status

/-- ControlTask before `call` has got the mutex. -/
def controlBefore : StatusCall F → Control F
  | .setMeasurement voltageMv currentMa => ⟨.measured voltageMv currentMa, x.localState, x.softStartStep⟩
  | .setState _ => ⟨.publishing, x.localState, x.softStartStep⟩
  | _ => ⟨.resyncing, x.localState, x.softStartStep⟩

/-- ControlTask once `call` has got it; `status` is what a read gives. -/
def controlAfter (status : PsStatus F) : StatusCall F → Control F
  | .setMeasurement _ _ => ⟨.deciding, x.localState, x.softStartStep⟩
  | .setState _ => ⟨.resyncing, x.localState, x.softStartStep⟩
  | _ => Control.resync ⟨.resyncing, x.localState, x.softStartStep⟩ status

/-- The status that a read of `t` gives. -/
def reads (t : TaskId) : PsStatus F := if (x.place t).rest.isEmpty then x.out t else x.status

/-- ControlTask as the application's model has it. -/
def controlView (scaling : Scaling F) : Control F :=
  match x.place control with
  | .sampleReceived =>
    if x.system.pc control = .thread then
      let sample := AdcSample.ofBytes (x.received control)
      let pc := .measured (scaling.millivolts sample.voltageRaw) (scaling.milliamps sample.currentRaw)
      ⟨pc, x.localState, x.softStartStep⟩
    else ⟨.receiving, x.localState, x.softStartStep⟩
  | .runStateMachine => ⟨.deciding, x.localState, x.softStartStep⟩
  | .lock call _ => x.controlBefore call
  | .access call _ _ =>
    if x.system.pc control = .thread then x.controlAfter (x.reads control) call else x.controlBefore call
  | .leave call _ => x.controlAfter (x.out control) call
  | .resynced => Control.resync ⟨.resyncing, x.localState, x.softStartStep⟩ (x.out control)
  | _ => ⟨.receiving, x.localState, x.softStartStep⟩

/-- ProtectionTask as the application's model has it. -/
def protectionView : Protection :=
  match x.place protection with
  | .faultTaken => if x.system.waitStatus protection = .waiting takeFaultCall then .blocked else .noting
  | .disableOutput => .noting
  | .lock _ _ => .noting
  | .access _ _ _ => if x.system.pc protection = .thread then .taking else .noting
  | _ => .taking

/-- The demo as the application's model has it, next to the status that
LoggerTask or CommsTask read last. -/
def view (scaling : Scaling F) (snapshot : Option (PsStatus F)) : App F where
  status := x.settled
  samples := (x.system.queues adcSampleQueue).items.map AdcSample.ofBytes
  faultUnits := (x.system.semaphores faultSemaphore).count
  control := x.controlView scaling
  protection := x.protectionView
  snapshot := snapshot

end Demo
end

namespace Demo
variable {F : Type} {scaling : Scaling F} {x z : Demo F} {self t : TaskId}

/-! ## Where the tasks are with the kernel -/

/-- Each task is with the kernel where its code has called it. -/
structure Orderly (x : Demo F) : Prop where
  locked : x.Locked
  samples : x.Reading sampleReader
  bytes : x.Reading byteReader
  units : Accountable faultSemaphore 0 1 x.system
  takers : ∀ t, (x.system.waitStatus t).on (.semaphore faultSemaphore) ≠ .awake →
    t = protection ∧ x.place protection = .faultTaken
  taking : x.place protection = .faultTaken → x.system.Asked protection takeFaultCall
  published : ∀ state, (x.place control).publishes = some state → state = x.localState

namespace Orderly

theorem linked (orderly : x.Orderly) : Linked x.system := orderly.locked.linked

/-- A take that ends was handed its unit. -/
theorem takes_ok {st : Status} {out : Bytes} {k : Kernel}
    (woken : x.system.waitStatus protection = .woken takeFaultCall .ok)
    (ran : x.system.toKernel.resume protection takeFaultCall = some (st, out, k)) : st = .ok := by
  cases resume_spec ran with
  | takes => exact woken_result woken

theorem fifo (orderly : x.Orderly) : Fifo ((boot demoConfig).queues adcSampleQueue) adcSampleQueue x.system :=
  orderly.samples.fifo

theorem receivers (orderly : x.Orderly) (engaged : (x.system.waitStatus t).on (.queue adcSampleQueue) ≠ .awake) :
    t = control ∧ x.place control = .sampleReceived := orderly.samples.sole t engaged

theorem receiving (orderly : x.Orderly) (here : x.place control = .sampleReceived) :
    x.system.Asked control receiveSampleCall := orderly.samples.asked here

theorem available (orderly : x.Orderly) (woken : x.system.waitStatus control = .woken receiveSampleCall .ok) :
    0 < (x.system.queues adcSampleQueue).count := orderly.samples.available woken

theorem uncalled_faults {event : Event} {system : System} (orderly : x.Orderly)
    (uncalled : ∀ c, event ≠ .call c) (stepped : x.system.step event = some system) :
    Uncalled x.system event (.semaphore faultSemaphore) system :=
  uncalled_touches orderly.linked orderly.units.inner uncalled stepped

/-- A step that is no call leaves all in order. -/
theorem kernel {event : Event} {system : System} (orderly : x.Orderly) (uncalled : ∀ c, event ≠ .call c)
    (stepped : x.system.step event = some system) : Orderly { x with system } := by
  have linked := orderly.linked
  have faults := orderly.uncalled_faults uncalled stepped
  refine ⟨orderly.locked.kernel uncalled stepped, orderly.samples.kernel linked uncalled stepped,
    orderly.bytes.kernel linked uncalled stepped, orderly.units.step (by decide) stepped, ?_, ?_, orderly.published⟩
  · exact fun t engaged => orderly.takers t (faults.engaged linked engaged)
  · intro here
    exact (orderly.taking here).step linked rfl rfl stepped (fun _ call => absurd call (uncalled _))
      fun _ _ _ => takes_ok

/-- A statement of `self` that takes no fault signal. -/
theorem moved (orderly : x.Orderly) (thread : x.system.pc self = .thread) (locked : z.Locked)
    (samples : z.Reading sampleReader) (bytes : z.Reading byteReader) (units : Accountable faultSemaphore 0 1 z.system)
    (faults : Aside x.system z.system (.semaphore faultSemaphore))
    (bystands : ∀ t, t ≠ self → x.system.pc t = .thread →
      z.system.pc t = .thread ∧ z.system.returned t = x.system.returned t)
    (place : ∀ t, t ≠ self → z.place t = x.place t) (untaken : z.place self ≠ .faultTaken)
    (published : ∀ state, (z.place control).publishes = some state → state = z.localState) : z.Orderly := by
  have awake : x.system.waitStatus self = .awake := Linked.status_running (by rw [thread]; rfl)
  refine ⟨locked, samples, bytes, units, ?_, ?_, published⟩
  · intro t engaged
    rw [faults.status] at engaged
    obtain ⟨rfl, here⟩ := orderly.takers t engaged
    have other : protection ≠ self := by
      intro same
      rw [same, awake] at engaged
      exact engaged rfl
    exact ⟨rfl, (place _ other).trans here⟩
  · intro here
    have apart : protection ≠ self := fun same => untaken (same ▸ here)
    exact (orderly.taking ((place _ apart).symm.trans here)).aside rfl faults (bystands _ apart)

end Orderly

/-! ## The calls -/

/-- How ProtectionTask's call begins. -/
inductive Takes (y : System) (self : TaskId) (z : System) : Prop where
  | takes (left : 0 < (y.semaphores faultSemaphore).count)
      (lowered : (z.semaphores faultSemaphore).count = (y.semaphores faultSemaphore).count - 1)
      (thread : z.pc self = .thread) (returned : z.returned self = some (.ok, []))
  | sleeps (exhausted : ¬ 0 < (y.semaphores faultSemaphore).count)
      (same : (z.semaphores faultSemaphore).count = (y.semaphores faultSemaphore).count)
      (waiting : z.waitStatus self = .waiting takeFaultCall)

theorem takes_of_step {y z : System} (linked : Linked y) (running : y.running = some self)
    (thread : y.pc self = .thread) (stepped : y.step (.call (.blocking takeFaultCall)) = some z) :
    Takes y self z ∧ ∀ u, u ≠ self → z.waitStatus u = y.waitStatus u := by
  have busy : ∀ b, y.pc self ≠ .requesting b := by simp [thread]
  cases step_cases stepped with
  | calls running' _ _ allowed ran =>
    obtain rfl := Option.some.inj (running.symm.trans running')
    have status := linked.status_entered running busy allowed ran
    cases call_spec ran with
    | takes takes =>
      refine ⟨?_, fun u other => by rw [status, if_neg other]; rfl⟩
      cases takes with
      | counted left =>
        exact .takes left (by simp [entered, Kernel.setSemaphore]) (by simp [entered, Kernel.sleepOr, outcomePc])
          (by simp [entered, Kernel.sleepOr, outcomeEntries, System.returned])
      | refused _ hurried => cases hurried
      | sleeps exhausted =>
        refine .sleeps exhausted (by simp [entered, Kernel.setSemaphore]) ?_
        rw [status, if_pos rfl]
        rfl

/-- How the interrupt's give ends. -/
theorem give_cases {y z : System} {id : SemaphoreId} (linked : Linked y)
    (stepped : y.step (.isr (.semaphoreGiveFromIsr id)) = some z) :
    (∃ t rest, y.sched.events.items (.semaphore id) = t :: rest ∧ z.semaphores id = y.semaphores id ∧
        z.waitStatus t = (y.waitStatus t).ended .ok) ∨
      (y.sched.events.items (.semaphore id) = [] ∧ (∀ u, z.waitStatus u = y.waitStatus u) ∧
        (z.semaphores id).count = if (y.semaphores id).count < (y.semaphores id).maxCount then
          (y.semaphores id).count + 1 else (y.semaphores id).count) := by
  cases step_cases stepped with
  | interrupts ran =>
    have status := linked.status_interrupted ran
    cases isrCall_spec ran with
    | gives gives =>
      cases gives with
      | hands shape =>
        refine .inl ⟨_, _, shape, by simp [interrupted, Kernel.setSemaphore], ?_⟩
        rw [status, if_pos rfl]
      | counts empty room =>
        exact .inr ⟨empty, fun u => by rw [status, if_neg (by simp)], by simp [interrupted, Kernel.setSemaphore, room]⟩
      | drops empty full =>
        exact .inr ⟨empty, fun u => by rw [status, if_neg (by simp)], by simp [interrupted, Kernel.setSemaphore, full]⟩

namespace Orderly

theorem takes {system : System} (orderly : x.Orderly) (running : x.system.running = some protection)
    (thread : x.system.pc protection = .thread)
    (stepped : x.system.step (.call (.blocking takeFaultCall)) = some system)
    (locked : Locked { x with system, place := Function.update x.place protection .faultTaken }) :
    Orderly { x with system, place := Function.update x.place protection .faultTaken } := by
  have linked := orderly.linked
  obtain ⟨takes, others⟩ := takes_of_step linked running thread stepped
  have apart : ∀ q, (Call.blocking takeFaultCall).object ≠ some (.queue q) := by
    simp [takeFaultCall, Call.object, BlockingCall.object]
  refine ⟨locked, orderly.samples.called linked running thread (apart _) stepped (by simp [sampleReader]),
    orderly.bytes.called linked running thread (apart _) stepped (by simp [byteReader]),
    orderly.units.step (by decide) stepped, ?_, ?_, orderly.published⟩
  · intro t engaged
    by_cases mine : t = protection
    · exact ⟨mine, by simp⟩
    · rw [others t mine] at engaged
      exact absurd (orderly.takers t engaged).1 mine
  · intro _
    cases takes with
    | takes _ _ thread returned => exact .answered thread returned
    | sleeps _ _ waiting => exact .dozes (.inl waiting)

/-- A call that is not about the fault signals. -/
theorem called {c : Call} {there : Place F} {system : System} (orderly : x.Orderly)
    (running : x.system.running = some self) (thread : x.system.pc self = .thread)
    (faults : c.object ≠ some (.semaphore faultSemaphore))
    (samples : Reading sampleReader { x with system, place := Function.update x.place self there })
    (bytes : Reading byteReader { x with system, place := Function.update x.place self there })
    (stepped : x.system.step (.call c) = some system) (untaken : there ≠ .faultTaken)
    (published : self = control → ∀ state, there.publishes = some state → state = x.localState)
    (locked : Locked { x with system, place := Function.update x.place self there }) :
    Orderly { x with system, place := Function.update x.place self there } := by
  refine orderly.moved thread locked samples bytes (orderly.units.step (by decide) stepped)
    (orderly.linked.step_aside stepped (by simp) (by simp) (by rintro _ ⟨⟩; exact faults) (by simp)) ?_
    (fun t other => Function.update_of_ne other _ _) (by simpa using untaken) ?_
  · intro t other thread
    refine step_bystander stepped thread ?_
    rintro _ _ again
    exact other (Option.some.inj (again.symm.trans running))
  · intro state publishes
    by_cases mine : control = self
    · subst mine
      simp only [Function.update_self] at publishes
      exact published rfl state publishes
    · simp only [Function.update_of_ne mine] at publishes
      exact orderly.published state publishes

/-- A call that is not about the two queues either. -/
theorem aside {c : Call} {there : Place F} {system : System} (orderly : x.Orderly)
    (running : x.system.running = some self) (thread : x.system.pc self = .thread)
    (faults : c.object ≠ some (.semaphore faultSemaphore)) (samples : c.object ≠ some (.queue adcSampleQueue))
    (bytes : c.object ≠ some (.queue uartRxQueue)) (stepped : x.system.step (.call c) = some system)
    (early : there.returning = false)
    (published : self = control → ∀ state, there.publishes = some state → state = x.localState)
    (locked : Locked { x with system, place := Function.update x.place self there }) :
    Orderly { x with system, place := Function.update x.place self there } := by
  have linked := orderly.linked
  refine orderly.called running thread faults (orderly.samples.called linked running thread samples stepped ?_)
    (orderly.bytes.called linked running thread bytes stepped ?_) stepped ?_ published locked
  all_goals
    rintro rfl
    cases early

/-- A task is where its own code is. -/
theorem owner {u : TaskId} {p : Place F} (orderly : x.Orderly) (here : x.place self = p) (own : p.owner = some u) :
    self = u := (orderly.locked.coded self).owner (by rw [here, own])

theorem does (orderly : x.Orderly) (does : Does scaling x z) : z.Orderly := by
  have locked := orderly.locked.does does
  have linked := orderly.linked
  cases does with
  | kernel uncalled stepped => exact orderly.kernel uncalled stepped
  | creates | samples =>
    exact ⟨locked, ⟨orderly.samples.fifo, orderly.samples.sole, orderly.samples.asked, orderly.samples.available,
        orderly.samples.empty⟩,
      ⟨orderly.bytes.fifo, orderly.bytes.sole, orderly.bytes.asked, orderly.bytes.available, orderly.bytes.empty⟩,
      orderly.units, orderly.takers, orderly.taking, orderly.published⟩
  | @states self _ running thread ran =>
    cases (acts_of_statement (orderly.locked.coded _) ran).1 with
    | @locks call _ _ here stepped =>
      have about : ∀ o, o ≠ .mutex statusMutex → (Call.blocking lockCall).object ≠ some o := by
        rintro o other ⟨⟩
        exact other rfl
      refine orderly.aside running thread (about _ (by simp)) (about _ (by simp)) (about _ (by simp)) stepped rfl ?_
        locked
      rintro rfl state publishes
      refine orderly.published state ?_
      rw [here]
      cases call <;> exact publishes
    | unlocks here stepped =>
      exact orderly.aside running thread (by simp [Call.object]) (by simp [Call.object]) (by simp [Call.object])
        stepped rfl (by simp [Place.publishes]) locked
    | @accesses call _ _ _ here =>
      refine orderly.moved thread locked
        (orderly.samples.stayed thread rfl (fun t other => Function.update_of_ne other _ _) (by simp [sampleReader]))
        (orderly.bytes.stayed thread rfl (fun t other => Function.update_of_ne other _ _) (by simp [byteReader]))
        orderly.units (.refl _ _) (fun _ _ thread => ⟨thread, rfl⟩) (fun t other => Function.update_of_ne other _ _)
        (by simp) ?_
      intro state publishes
      refine orderly.published state ?_
      dsimp only at publishes
      rw [Function.update_apply] at publishes
      split at publishes
      · rename_i mine
        rw [mine, here]
        cases call <;> exact publishes
      · exact publishes
    | takes here stepped =>
      obtain rfl := orderly.owner here rfl
      exact orderly.takes running thread stepped locked
    | receives here stepped =>
      obtain rfl := orderly.owner here rfl
      have bytes : (Call.blocking receiveSampleCall).object ≠ some (.queue uartRxQueue) := by decide
      exact orderly.called running thread (by simp [receiveSampleCall, Call.object, BlockingCall.object])
        (orderly.samples.receives linked running thread stepped)
        (orderly.bytes.called linked running thread bytes stepped (by simp [byteReader])) stepped (by simp)
        (by simp [Place.publishes]) locked
    | receivesByte here stepped =>
      obtain rfl := orderly.owner here rfl
      have samples : (Call.blocking receiveByteCall).object ≠ some (.queue adcSampleQueue) := by decide
      exact orderly.called running thread (by simp [receiveByteCall, Call.object, BlockingCall.object])
        (orderly.samples.called linked running thread samples stepped (by simp [sampleReader]))
        (orderly.bytes.receives linked running thread stepped) stepped (by simp) (by simp [Place.publishes]) locked
    | calls _ _ apart stepped onward =>
      obtain ⟨_, silent, early⟩ := Place.plain_iff.mp onward
      exact orderly.aside running thread apart.faults apart.samples apart.bytes stepped early (by simp [silent]) locked
    | @goes _ there goes =>
      have place : ∀ t, t ≠ self → z.place t = x.place t := fun t other => by
        rw [goes.place, Function.update_of_ne other]
      have moved : z.place self = there := by rw [goes.place, Function.update_self]
      have onward : ∀ p : Place F, p.returning = true → z.place self ≠ p := by
        rintro p late same
        rw [← same, moved, goes.onward.2] at late
        cases late
      refine orderly.moved thread locked (orderly.samples.stayed thread goes.system place (onward _ rfl))
        (orderly.bytes.stayed thread goes.system place (onward _ rfl)) (by rw [goes.system]; exact orderly.units)
        (by rw [goes.system]; exact .refl _ _) (fun _ _ thread => by rw [goes.system]; exact ⟨thread, rfl⟩) place
        (onward _ rfl) ?_
      intro state publishes
      rw [goes.place, Function.update_apply] at publishes
      split at publishes
      · exact goes.published state publishes
      · rename_i other
        rw [(goes.cached (Ne.symm other)).1]
        exact orderly.published state publishes

end Orderly

/-- How a statement moves the items of a reader: into its hand, where one may be
given to it, or out of it, where the reader goes on with the one it has. -/
inductive Flow (r : Reader F) (x : Demo F) (self : TaskId) (z : Demo F) : Prop where
  | gives {new : List Bytes} (received : z.system.received r.queue = x.system.received r.queue ++ new)
      (hand : z.hand r = x.hand r ++ new) (elsewhere : self = r.task → x.place self ≠ r.after)
  | handles (mine : self = r.task) (here : x.place self = r.after) (succeeded : x.succeeded self = true)
      (same : z.system.received r.queue = x.system.received r.queue) (hand : x.hand r = [x.received self])
      (nothing : z.hand r = [])

theorem Flow.same {r : Reader F} (elsewhere : x.place self ≠ r.after)
    (same : z.system.received r.queue = x.system.received r.queue ∧ z.hand r = x.hand r) : Flow r x self z :=
  .gives (by rw [same.1, List.append_nil]) (by rw [same.2, List.append_nil]) fun _ => elsewhere

/-- What a task does with the result of its call is done without the kernel. -/
theorem returned_statement (late : (x.place self).returning = true) (ran : x.statement self scaling = some z) :
    z.system = x.system ∧ (z.place self).returning = false := by
  cases here : x.place self with
  | faultTaken =>
    simp only [statement, here, Option.some.injEq] at ran
    subst ran
    exact ⟨rfl, by simp only [goTo, Function.update_self]; split <;> rfl⟩
  | sampleReceived =>
    simp only [statement, here] at ran
    split at ran <;> cases ran <;> exact ⟨rfl, by simp [goTo, Place.returning]⟩
  | byteReceived =>
    simp only [statement, here] at ran
    split at ran <;> cases ran
    · unfold lineByte
      split
      · split <;> exact ⟨rfl, by simp [goTo, Place.returning]⟩
      · split <;> exact ⟨rfl, by simp [goTo, Place.returning]⟩
    · exact ⟨rfl, by simp [goTo, Place.returning]⟩
  | _ =>
    rw [here] at late
    cases late

namespace Orderly

theorem flow_statement {r : Reader F} (reader : r = sampleReader ∨ r = byteReader) (orderly : x.Orderly)
    (running : x.system.running = some self) (thread : x.system.pc self = .thread)
    (ran : x.statement self scaling = some z) : Flow r x self z := by
  have linked := orderly.linked
  have code := orderly.locked.coded self
  have reading : x.Reading r := by
    rcases reader with rfl | rfl
    exacts [orderly.samples, orderly.bytes]
  have late : r.after.returning = true := by rcases reader with rfl | rfl <;> rfl
  have unlate : ∀ {p : Place F}, p.returning = false → p ≠ r.after := by
    rintro _ early rfl
    rw [late] at early
    cases early
  by_cases here : x.place self = r.after
  · have mine : self = r.task := by rcases reader with rfl | rfl <;> exact orderly.owner here rfl
    obtain ⟨system, onward⟩ := returned_statement (here ▸ late) ran
    subst mine
    obtain ⟨succeeded, hand⟩ := reading.given here thread
    exact .handles rfl here succeeded (by rw [system]) hand (hand_elsewhere (unlate onward))
  · cases (acts_of_statement code ran).1 with
    | takes _ stepped =>
      refine .same here (reading.flow_called linked running
        (by simp [takeFaultCall, Call.object, BlockingCall.object]) stepped (fun _ => here) ?_)
      rcases reader with rfl | rfl <;> simp [sampleReader, byteReader]
    | locks _ stepped | unlocks _ stepped =>
      exact .same here (reading.flow_called linked running
        (by simp [lockCall, Call.object, BlockingCall.object]) stepped (fun _ => here) (unlate rfl))
    | calls _ _ apart stepped onward =>
      refine .same here (reading.flow_called linked running ?_ stepped (fun _ => here)
        (unlate (Place.plain_iff.mp onward).2.2))
      rcases reader with rfl | rfl
      exacts [apart.samples, apart.bytes]
    | receives calls stepped =>
      obtain rfl := orderly.owner calls rfl
      rcases reader with rfl | rfl
      · obtain ⟨new, received, hand⟩ := orderly.samples.flow_receives linked running thread stepped
        exact .gives received (by rw [hand_elsewhere (x := x) here]; exact hand) fun _ => here
      · have bytes : (Call.blocking receiveSampleCall).object ≠ some (.queue uartRxQueue) := by decide
        exact .same here (orderly.bytes.flow_called linked running bytes stepped (fun _ => here) (by simp [byteReader]))
    | receivesByte calls stepped =>
      obtain rfl := orderly.owner calls rfl
      rcases reader with rfl | rfl
      · have samples : (Call.blocking receiveByteCall).object ≠ some (.queue adcSampleQueue) := by decide
        exact .same here (orderly.samples.flow_called linked running samples stepped (fun _ => here)
          (by simp [sampleReader]))
      · obtain ⟨new, received, hand⟩ := orderly.bytes.flow_receives linked running thread stepped
        exact .gives received (by rw [hand_elsewhere (x := x) here]; exact hand) fun _ => here
    | accesses =>
      exact .same here ⟨rfl, Reading.hand_stayed rfl (fun t other => Function.update_of_ne other _ _) (fun _ => here)
        (by simpa using unlate rfl)⟩
    | goes goes =>
      refine .same here ⟨by rw [goes.system], Reading.hand_stayed goes.system ?_ (fun _ => here) ?_⟩
      · exact fun t other => by rw [goes.place, Function.update_of_ne other]
      · rw [goes.place, Function.update_self]
        exact unlate goes.onward.2

end Orderly

theorem orderly_startUp (scaling : Scaling F) (place : Placement) : (startUp scaling place).Orderly := by
  have samples : Queue.Fits (demoConfig.queue adcSampleQueue).1 (demoConfig.queue adcSampleQueue).2.1
      (demoConfig.queue adcSampleQueue).2.2 := ⟨by decide, by decide⟩
  have bytes : Queue.Fits (demoConfig.queue uartRxQueue).1 (demoConfig.queue uartRxQueue).2.1
      (demoConfig.queue uartRxQueue).2.2 := ⟨by decide, by decide⟩
  refine ⟨locked_startUp scaling place, .startUp scaling place samples ?_, .startUp scaling place bytes ?_,
    ⟨linked_boot demoConfig, units_boot demoConfig faultSemaphore, ?_⟩, ?_, ?_, ?_⟩
  · rintro ⟨⟩
  · rintro ⟨⟩
  · rintro t c ⟨⟩
  · exact fun t engaged => absurd rfl engaged
  · rintro ⟨⟩
  · rintro state ⟨⟩

theorem orderly_of_run {place : Placement} {guard : Demo F → DemoEvent → Prop}
    (run : DemoRun scaling place guard x) : x.Orderly :=
  invariant_of_does Orderly run (orderly_startUp scaling place) fun _ _ orderly => orderly.does

/-! ## What a step changes of the view -/

theorem settled_inside (locked : x.Locked) (inside : x.Inside t) :
    x.settled = (x.place t).rest.foldl Access.complete x.status := by
  simp [settled, locked.inside_owner inside, inside.2]

theorem settled_outside (nobody : ∀ t, ¬ x.Inside t) : x.settled = x.status := by
  unfold settled
  split
  · rename_i t _
    split
    · rename_i thread
      have outside : (x.place t).accessing = false := by
        by_contra accessing
        exact nobody t ⟨by simpa using accessing, thread⟩
      rw [Place.rest_outside outside, List.foldl_nil]
    · rfl
  · rfl

/-- While the same task is inside with the same accesses to come, nothing
changes of the status. -/
theorem settled_congr (locked : x.Locked) (locked' : z.Locked) (inside : ∀ t, z.Inside t ↔ x.Inside t)
    (place : ∀ t, x.Inside t → z.place t = x.place t) (status : z.status = x.status) : z.settled = x.settled := by
  by_cases somebody : ∃ t, x.Inside t
  · obtain ⟨t, here⟩ := somebody
    rw [settled_inside locked here, settled_inside locked' ((inside t).mpr here), place t here, status]
  · have nobody := not_exists.mp somebody
    rw [settled_outside nobody, settled_outside fun t => mt (inside t).mp (nobody t), status]

theorem protectionView_congr (place : z.place protection = x.place protection)
    (waiting : x.place protection = .faultTaken → (z.system.waitStatus protection = .waiting takeFaultCall ↔
      x.system.waitStatus protection = .waiting takeFaultCall))
    (inside : z.Inside protection ↔ x.Inside protection) : z.protectionView = x.protectionView := by
  unfold protectionView
  rw [place]
  unfold Inside at inside
  rw [place] at inside
  generalize x.place protection = p at waiting inside
  cases p with
  | faultTaken => simp only [waiting rfl]
  | access => simpa only [Place.accessing, true_and] using if_congr inside rfl rfl
  | _ => rfl

theorem controlView_congr (place : z.place control = x.place control) (localState : z.localState = x.localState)
    (softStartStep : z.softStartStep = x.softStartStep) (out : z.out control = x.out control)
    (thread : x.place control = .sampleReceived → (z.system.pc control = .thread ↔ x.system.pc control = .thread))
    (received : x.system.pc control = .thread → z.system.returned control = x.system.returned control)
    (inside : z.Inside control ↔ x.Inside control) (status : x.Inside control → z.status = x.status) :
    z.controlView scaling = x.controlView scaling := by
  unfold controlView
  rw [place, localState, softStartStep, out]
  unfold Inside at inside status
  rw [place] at inside
  have before : z.controlBefore = x.controlBefore := by
    funext call
    cases call <;> simp [controlBefore, localState, softStartStep]
  have after : z.controlAfter = x.controlAfter := by
    funext status call
    cases call <;> simp [controlAfter, localState, softStartStep]
  rw [before, after]
  cases here : x.place control with
  | sampleReceived =>
    by_cases now : x.system.pc control = .thread
    · have same : z.received control = x.received control := by rw [Demo.received, Demo.received, received now]
      simp only [(thread here).mpr now, now, same, ↓reduceIte]
    · simp only [mt (thread here).mp now, now, ↓reduceIte]
  | access call rest back =>
    rw [here] at inside status
    by_cases now : x.system.pc control = .thread
    · have reads : z.reads control = x.reads control := by
        unfold Demo.reads
        rw [place, out, status ⟨rfl, now⟩]
      simp only [(inside.mpr ⟨rfl, now⟩).2, now, reads, ↓reduceIte]
    · simp only [mt (fun thread => (inside.mp ⟨rfl, thread⟩).2) now, now, ↓reduceIte]
  | _ => rfl

/-- A step that is not the task's own, nor the end of its lock, leaves it in or
out. -/
theorem inside_iff {event : Event} (locked : x.Locked) (stepped : x.system.step event = some z.system)
    (place : z.place t = x.place t) (other : ∀ c, event = .call c → x.system.running ≠ some t)
    (unreturned : ¬ Returns x.system t lockCall event z.system) : z.Inside t ↔ x.Inside t := by
  have standing := locked.standing t
  unfold Inside
  rw [place]
  generalize x.place t = p at standing
  cases standing with
  | outside apart => simp [apart]
  | holds thread => simp [thread, (step_bystander stepped thread other).1]
  | waits dozes =>
    rcases dozes.step locked.linked rfl rfl stepped with still | returns
    · simp [dozes.busy, still.busy]
    · exact absurd returns unreturned

/-- So for the receive of ControlTask. -/
theorem received_iff {event : Event} (orderly : x.Orderly) (stepped : x.system.step event = some z.system)
    (here : x.place control = .sampleReceived) (other : ∀ c, event = .call c → x.system.running ≠ some control)
    (unreturned : ¬ Returns x.system control receiveSampleCall event z.system) :
    z.system.pc control = .thread ↔ x.system.pc control = .thread := by
  cases orderly.receiving here with
  | dozes dozes =>
    rcases dozes.step orderly.linked rfl rfl stepped with still | returns
    · exact iff_of_false still.busy dozes.busy
    · exact absurd returns unreturned
  | answered thread => exact iff_of_true (step_bystander stepped thread other).1 thread

/-- The statics and ControlTask's place are untouched. -/
structure ControlRests (x z : Demo F) : Prop where
  place : z.place control = x.place control
  localState : z.localState = x.localState
  softStartStep : z.softStartStep = x.softStartStep
  out : z.out control = x.out control
  status : x.Inside control → z.status = x.status

theorem controlView_step {event : Event} (orderly : x.Orderly) (stepped : x.system.step event = some z.system)
    (rests : ControlRests x z) (other : ∀ c, event = .call c → x.system.running ≠ some control)
    (unlocked : ¬ Returns x.system control lockCall event z.system)
    (unreceived : ¬ Returns x.system control receiveSampleCall event z.system) :
    z.controlView scaling = x.controlView scaling :=
  controlView_congr rests.place rests.localState rests.softStartStep rests.out
    (fun here => received_iff orderly stepped here other unreceived)
    (fun thread => (step_bystander stepped thread other).2)
    (inside_iff orderly.locked stepped rests.place other unlocked) rests.status

theorem protectionView_step {event : Event} (orderly : x.Orderly) (stepped : x.system.step event = some z.system)
    (place : z.place protection = x.place protection)
    (other : ∀ c, event = .call c → x.system.running ≠ some protection)
    (unlocked : ¬ Returns x.system protection lockCall event z.system)
    (waiting : z.system.waitStatus protection = .waiting takeFaultCall ↔
      x.system.waitStatus protection = .waiting takeFaultCall) : z.protectionView = x.protectionView :=
  protectionView_congr place (fun _ => waiting) (inside_iff orderly.locked stepped place other unlocked)

end Demo
end PowerSupply
end NimbleRtos
