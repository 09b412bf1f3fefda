import NimbleRtos.FaultSignals

/-! Where each task of the demo can stand in its code, and what a step of the
demo does to it, said once for the results about the demo that follow. -/
namespace NimbleRtos
open NimbleRtos.System

namespace PowerSupply
open Port (Placement protection control comms logger timerSvc)

/-- What can be left of the accesses of a function of power_supply.c. -/
inductive Left {F : Type} : StatusCall F → List (Access F) → Prop where
  | all (call : StatusCall F) : Left call call.body
  | current (voltageMv currentMa : F) : Left (.setMeasurement voltageMv currentMa) [.writeCurrent currentMa]
  | count : Left .noteFault [.readCount]
  | counted (faultCount : UInt32) : Left .noteFault [.writeCount faultCount]
  | none (call : StatusCall F) : Left call []

theorem Left.perform {F : Type} {call : StatusCall F} {access : Access F} {rest : List (Access F)}
    (left : Left call (access :: rest)) (g out : PsStatus F) : Left call ((access.perform g out).2.2 ++ rest) := by
  generalize shape : access :: rest = accesses at left
  cases left with
  | all =>
    cases call with
    | get | setState =>
      cases shape
      exact .none _
    | setMeasurement =>
      cases shape
      exact .current _ _
    | noteFault =>
      cases shape
      exact .count
  | current | counted =>
    cases shape
    exact .none _
  | count =>
    cases shape
    exact .counted _
  | none => cases shape

/-- From the head of a function of power_supply.c to its return to `back`. -/
inductive During {F : Type} (call : StatusCall F) (back : Place F) : Place F → Prop where
  | lock : During call back (.lock call back)
  | access {rest : List (Access F)} (left : Left call rest) : During call back (.access call rest back)
  | leave : During call back (.leave call back)

section
variable {F : Type}

/-- The code of protection_task_fn. -/
inductive InProtection : Place F → Prop where
  | takeFault : InProtection .takeFault
  | faultTaken : InProtection .faultTaken
  | disableOutput : InProtection .disableOutput
  | noteFault {p : Place F} (during : During .noteFault .takeFault p) : InProtection p

/-- The code of control_task_fn. -/
inductive InControl : Place F → Prop where
  | receiveSample : InControl .receiveSample
  | sampleReceived : InControl .sampleReceived
  | setMeasurement {voltageMv currentMa : F} {p : Place F}
      (during : During (.setMeasurement voltageMv currentMa) .runStateMachine p) : InControl p
  | runStateMachine : InControl .runStateMachine
  | setState {state : PsState} {p : Place F} (during : During (.setState state) (.lock .get .resynced) p) :
      InControl p
  | get {p : Place F} (during : During .get .resynced p) : InControl p
  | resynced : InControl .resynced

/-- The code of comms_task_fn. -/
inductive InComms : Place F → Prop where
  | uartBridgeInit : InComms .uartBridgeInit
  | receiveByte : InComms .receiveByte
  | byteReceived : InComms .byteReceived
  | get {p : Place F} (during : During .get .answered p) : InComms p
  | answered : InComms .answered

/-- The code of logger_task_fn. -/
inductive InLogger : Place F → Prop where
  | logStatus : InLogger .logStatus
  | get {p : Place F} (during : During .get .statusLogged p) : InLogger p
  | statusLogged : InLogger .statusLogged

/-- The code of `timer_task_fn`. -/
inductive InTimer : Place F → Prop where
  | timerWait : InTimer .timerWait
  | timerExpire : InTimer .timerExpire

/-- The code of task `t`. -/
inductive InCode : TaskId → Place F → Prop where
  | protection {p : Place F} (here : InProtection p) : InCode protection p
  | control {p : Place F} (here : InControl p) : InCode control p
  | comms {p : Place F} (here : InComms p) : InCode comms p
  | logger {p : Place F} (here : InLogger p) : InCode logger p
  | timerSvc {p : Place F} (here : InTimer p) : InCode timerSvc p
  | idling (t : TaskId) : InCode t .idling

theorem InCode.left {t : TaskId} {call : StatusCall F} {rest : List (Access F)} {back : Place F}
    (code : InCode t (.access call rest back)) : Left call rest := by
  have during : ∀ {call' back'}, During call' back' (.access call rest back) → Left call rest := by
    intro call' back' during
    cases during
    assumption
  cases code with
  | protection code | control code | comms code | logger code => cases code <;> exact during ‹_›
  | timerSvc code => cases code

/-- The task whose code this is, outside the status functions. -/
def Place.owner : Place F → Option TaskId
  | .takeFault | .faultTaken | .disableOutput => some protection
  | .receiveSample | .sampleReceived | .runStateMachine | .resynced => some control
  | .logStatus | .statusLogged => some logger
  | .uartBridgeInit | .receiveByte | .byteReceived | .answered => some comms
  | .timerWait | .timerExpire => some timerSvc
  | .lock _ _ | .access _ _ _ | .leave _ _ | .idling => none

theorem InCode.owner {t u : TaskId} {p : Place F} (code : InCode t p) (own : p.owner = some u) : t = u := by
  have during : ∀ {call : StatusCall F} {back : Place F}, During call back p → t = u := by
    rintro _ _ ⟨⟩ <;> cases own
  cases code with
  | protection code | control code | comms code | logger code =>
    cases code <;> first | exact Option.some.inj own | exact during ‹_›
  | timerSvc code => cases code <;> exact Option.some.inj own
  | idling => cases own

theorem inCode_entry (t : TaskId) : InCode t (entryPlace (F := F) t) := by
  unfold entryPlace
  split
  · rename_i same
    exact same ▸ .protection .takeFault
  split
  · rename_i same
    exact same ▸ .control .receiveSample
  split
  · rename_i same
    exact same ▸ .comms .uartBridgeInit
  split
  · rename_i same
    exact same ▸ .logger .logStatus
  split
  · rename_i same
    exact same ▸ .timerSvc .timerWait
  · exact .idling t

namespace Place

/-- Between the lock and the unlock of `g_status_mutex`, or on the way in. -/
def accessing : Place F → Bool
  | .access _ _ _ => true
  | _ => false

/-- The argument of a `ps_status_set_state` on its way. -/
def publishes : Place F → Option PsState
  | .lock (.setState state) _ => some state
  | .access (.setState state) _ _ => some state
  | _ => none

/-- The call at whose head this is. -/
def begins : Place F → Option (StatusCall F)
  | .lock call _ => some call
  | _ => none

/-- The call that ends here. -/
def ends : Place F → Option (StatusCall F)
  | .leave call _ => some call
  | _ => none

/-- Past the call of ProtectionTask, ControlTask or CommsTask, whose result comes
next. -/
def returning : Place F → Bool
  | .faultTaken => true
  | .sampleReceived => true
  | .byteReceived => true
  | _ => false

/-- None of these. -/
def plain (p : Place F) : Bool := !p.accessing && p.publishes.isNone && !p.returning

theorem plain_iff {p : Place F} :
    p.plain = true ↔ p.accessing = false ∧ p.publishes = none ∧ p.returning = false := by
  simp [plain, and_assoc]

end Place
end

/-- The measurement control_task_fn makes of a sample. -/
def Scaling.scale {F : Type} (scaling : Scaling F) (sample : AdcSample) : F × F :=
  (scaling.millivolts sample.voltageRaw, scaling.milliamps sample.currentRaw)

/-- The same, of the bytes that `nimble_queue_receive` gives it. -/
def Scaling.measure {F : Type} (scaling : Scaling F) (bytes : Bytes) : F × F := scaling.scale (.ofBytes bytes)

/-- The call the status functions lock with. -/
def lockCall : BlockingCall := .mutexLock statusMutex waitForever

/-- ProtectionTask's call. -/
def takeFaultCall : BlockingCall := .semaphoreTake faultSemaphore waitForever

/-- ControlTask's call. -/
def receiveSampleCall : BlockingCall := .queueReceive adcSampleQueue waitForever

/-- CommsTask's call. -/
def receiveByteCall : BlockingCall := .queueReceive uartRxQueue waitForever

/-- A call that has nothing to do with the shared status, the fault signals, the
samples and the bytes. -/
structure Apart (c : Call) : Prop where
  mutex : ∀ m, c.object ≠ some (.mutex m)
  faults : c.object ≠ some (.semaphore faultSemaphore)
  samples : c.object ≠ some (.queue adcSampleQueue)
  bytes : c.object ≠ some (.queue uartRxQueue)
  unsuspending : ∀ t, c ≠ .taskSuspend t

/-- `t` moves on without the kernel and without the status. Only ControlTask
changes what it caches, and publishes what it has cached. -/
structure Goes {F : Type} (x : Demo F) (t : TaskId) (there : Place F) (z : Demo F) : Prop where
  outside : (x.place t).accessing = false
  system : z.system = x.system
  status : z.status = x.status
  out : z.out = x.out
  place : z.place = Function.update x.place t there
  cached : t ≠ control → z.localState = x.localState ∧ z.softStartStep = x.softStartStep
  published : ∀ state, there.publishes = some state → state = z.localState
  onward : there.accessing = false ∧ there.returning = false

/-- What a statement of `self` does: it locks or unlocks the status, accesses
it, takes a fault signal, receives a sample or a byte, makes another call, or
moves on. -/
inductive Acts {F : Type} (x : Demo F) (self : TaskId) : Demo F → Prop where
  | locks {call : StatusCall F} {back : Place F} {system : System} (here : x.place self = .lock call back)
      (stepped : x.system.step (.call (.blocking lockCall)) = some system) :
      Acts x self { x with system, place := Function.update x.place self (.access call call.body back) }
  | unlocks {call : StatusCall F} {back : Place F} {system : System} (here : x.place self = .access call [] back)
      (stepped : x.system.step (.call (.mutexUnlock statusMutex)) = some system) :
      Acts x self { x with system, place := Function.update x.place self (.leave call back) }
  | accesses {call : StatusCall F} {access : Access F} {rest : List (Access F)} {back : Place F}
      (here : x.place self = .access call (access :: rest) back) :
      Acts x self { x with
        status := (access.perform x.status (x.out self)).1
        out := Function.update x.out self (access.perform x.status (x.out self)).2.1
        place := Function.update x.place self
          (.access call ((access.perform x.status (x.out self)).2.2 ++ rest) back) }
  | takes {system : System} (here : x.place self = .takeFault)
      (stepped : x.system.step (.call (.blocking takeFaultCall)) = some system) :
      Acts x self { x with system, place := Function.update x.place self .faultTaken }
  | receives {system : System} (here : x.place self = .receiveSample)
      (stepped : x.system.step (.call (.blocking receiveSampleCall)) = some system) :
      Acts x self { x with system, place := Function.update x.place self .sampleReceived }
  | receivesByte {system : System} (here : x.place self = .receiveByte)
      (stepped : x.system.step (.call (.blocking receiveByteCall)) = some system) :
      Acts x self { x with system, place := Function.update x.place self .byteReceived }
  | calls {c : Call} {there : Place F} {system : System} (outside : (x.place self).accessing = false)
      (other : self ≠ protection ∧ self ≠ control) (apart : Apart c)
      (stepped : x.system.step (.call c) = some system) (onward : there.plain = true) :
      Acts x self { x with system, place := Function.update x.place self there }
  | goes {z : Demo F} {there : Place F} (goes : Goes x self there z) : Acts x self z

/-- One kernel step, one statement, or a note of `main` or of the ADC interrupt. -/
inductive Does {F : Type} (scaling : Scaling F) (x : Demo F) : Demo F → Prop where
  | kernel {event : Event} {system : System} (uncalled : ∀ c, event ≠ .call c)
      (stepped : x.system.step event = some system) : Does scaling x { x with system }
  | states {self : TaskId} {z : Demo F} (running : x.system.running = some self)
      (thread : x.system.pc self = .thread) (ran : x.statement self scaling = some z) : Does scaling x z
  | creates (todo : List Sched.TaskArgs) : Does scaling x { x with todo }
  | samples (sample : AdcSample) : Does scaling x { x with log := .sampled sample :: x.log }

namespace Demo
variable {F : Type} {scaling : Scaling F} {x z : Demo F} {self : TaskId}

section
variable {p : Place F}

private theorem apart_none {c : Call} (about : c.object = none) (unsuspending : ∀ t, c ≠ .taskSuspend t) : Apart c :=
  ⟨by simp [about], by simp [about], by simp [about], by simp [about], unsuspending⟩

private theorem apart_blocking {b : BlockingCall} (faults : b.object ≠ some (.semaphore faultSemaphore))
    (samples : b.object ≠ some (.queue adcSampleQueue)) (bytes : b.object ≠ some (.queue uartRxQueue))
    (mutex : ∀ m, b.object ≠ some (.mutex m)) : Apart (.blocking b) :=
  ⟨mutex, faults, samples, bytes, by simp⟩

/-- A call apart, from outside the status functions to outside. -/
private theorem acts_call {c : Call} {there : Place F} (code : InCode self there)
    (outside : (x.place self).accessing = false) (ran : x.enter self c there = some z)
    (other : self ≠ protection ∧ self ≠ control) (apart : Apart c) (onward : there.plain = true) :
    Acts x self z ∧ InCode self (z.place self) := by
  obtain ⟨system, stepped, rfl⟩ := Option.map_eq_some_iff.mp ran
  exact ⟨.calls outside other apart stepped onward, by simpa using code⟩

/-- What a move may change but for ControlTask's. -/
structure Unmoved (x w : Demo F) : Prop where
  system : w.system = x.system
  status : w.status = x.status
  out : w.out = x.out
  place : w.place = x.place
  localState : w.localState = x.localState
  softStartStep : w.softStartStep = x.softStartStep

private theorem acts_move {w : Demo F} {there : Place F} (code : InCode self there)
    (outside : (x.place self).accessing = false) (unmoved : Unmoved x w) (onward : there.plain = true) :
    Acts x self (w.goTo self there) ∧ InCode self ((w.goTo self there).place self) := by
  obtain ⟨inside, silent, early⟩ := Place.plain_iff.mp onward
  refine ⟨.goes ⟨outside, unmoved.system, unmoved.status, unmoved.out, ?_, ?_, ?_, ⟨inside, early⟩⟩,
    by simpa [goTo] using code⟩
  · rw [← unmoved.place]
    rfl
  · exact fun _ => ⟨unmoved.localState, unmoved.softStartStep⟩
  · simp [silent]

/-- ControlTask moves on, with what it caches. -/
private theorem acts_control {w : Demo F} {there : Place F} (code : InControl there)
    (outside : (x.place control).accessing = false) (system : w.system = x.system) (status : w.status = x.status)
    (out : w.out = x.out) (place : w.place = x.place)
    (published : ∀ state, there.publishes = some state → state = w.localState)
    (onward : there.accessing = false ∧ there.returning = false) :
    Acts x control (w.goTo control there) ∧ InCode control ((w.goTo control there).place control) := by
  refine ⟨.goes ⟨outside, system, status, out, ?_, fun other => absurd rfl other, published, onward⟩,
    by simpa [goTo] using InCode.control code⟩
  rw [← place]
  rfl

/-- In a status function, which returns to `back`. -/
private theorem acts_during {call : StatusCall F} {back : Place F} (during : During call back p)
    (here : x.place self = p) (inside : ∀ p, During call back p → InCode self p) (code : InCode self back)
    (onward : back.plain = true) (ran : x.statement self scaling = some z) :
    Acts x self z ∧ InCode self (z.place self) := by
  cases during with
  | lock =>
    simp only [statement, here] at ran
    obtain ⟨system, stepped, rfl⟩ := Option.map_eq_some_iff.mp ran
    exact ⟨.locks here stepped, by simpa using inside _ (.access (.all call))⟩
  | @access rest left =>
    cases rest with
    | nil =>
      simp only [statement, here] at ran
      obtain ⟨system, stepped, rfl⟩ := Option.map_eq_some_iff.mp ran
      exact ⟨.unlocks here stepped, by simpa using inside _ .leave⟩
    | cons access rest =>
      simp only [statement, here, Option.some.injEq] at ran
      subst ran
      exact ⟨.accesses here, by simpa using inside _ (.access (left.perform _ _))⟩
  | leave =>
    simp only [statement, here, Option.some.injEq] at ran
    subst ran
    exact acts_move code (by rw [here]; rfl) ⟨rfl, rfl, rfl, rfl, rfl, rfl⟩ onward

end

/-- What a statement of a task in its own code does, and where it leads. -/
theorem acts_of_statement (code : InCode self (x.place self)) (ran : x.statement self scaling = some z) :
    Acts x self z ∧ InCode self (z.place self) := by
  generalize here : x.place self = p at code
  have outside : ∀ {q : Place F}, p = q → q.accessing = false → (x.place self).accessing = false := by
    rintro _ rfl apart
    rw [here, apart]
  cases code with
  | protection code =>
    cases code with
    | noteFault during =>
      exact acts_during during here (fun _ during => .protection (.noteFault during)) (.protection .takeFault) rfl ran
    | takeFault =>
      simp only [statement, here] at ran
      obtain ⟨system, stepped, rfl⟩ := Option.map_eq_some_iff.mp ran
      exact ⟨.takes here stepped, by simpa using InCode.protection .faultTaken⟩
    | faultTaken =>
      simp only [statement, here, Option.some.injEq] at ran
      subst ran
      split
      · exact acts_move (.protection .disableOutput) (outside rfl rfl) ⟨rfl, rfl, rfl, rfl, rfl, rfl⟩ rfl
      · exact acts_move (.protection .takeFault) (outside rfl rfl) ⟨rfl, rfl, rfl, rfl, rfl, rfl⟩ rfl
    | disableOutput =>
      simp only [statement, here, Option.some.injEq] at ran
      subst ran
      exact acts_move (.protection (.noteFault .lock)) (outside rfl rfl) ⟨rfl, rfl, rfl, rfl, rfl, rfl⟩ rfl
  | control code =>
    cases code with
    | setMeasurement during =>
      exact acts_during during here (fun _ during => .control (.setMeasurement during)) (.control .runStateMachine)
        rfl ran
    | setState during =>
      exact acts_during during here (fun _ during => .control (.setState during)) (.control (.get .lock)) rfl ran
    | get during =>
      exact acts_during during here (fun _ during => .control (.get during)) (.control .resynced) rfl ran
    | receiveSample =>
      simp only [statement, here] at ran
      obtain ⟨system, stepped, rfl⟩ := Option.map_eq_some_iff.mp ran
      exact ⟨.receives here stepped, by simpa using InCode.control .sampleReceived⟩
    | sampleReceived =>
      simp only [statement, here] at ran
      split at ran <;> cases ran
      · exact acts_move (.control (.setMeasurement .lock)) (outside rfl rfl) ⟨rfl, rfl, rfl, rfl, rfl, rfl⟩ rfl
      · exact acts_move (.control .receiveSample) (outside rfl rfl) ⟨rfl, rfl, rfl, rfl, rfl, rfl⟩ rfl
    | runStateMachine =>
      simp only [statement, here, Option.some.injEq] at ran
      subst ran
      unfold Demo.runStateMachine
      dsimp only
      split
      · exact acts_control (.setState .lock) (outside rfl rfl) rfl rfl rfl rfl (by simp [Place.publishes]) ⟨rfl, rfl⟩
      · exact acts_control (.get .lock) (outside rfl rfl) rfl rfl rfl rfl (by simp [Place.publishes]) ⟨rfl, rfl⟩
    | resynced =>
      simp only [statement, here, Option.some.injEq] at ran
      subst ran
      exact acts_control .receiveSample (outside rfl rfl) rfl rfl rfl rfl (by simp [Place.publishes]) ⟨rfl, rfl⟩
  | comms code =>
    cases code with
    | get during =>
      exact acts_during during here (fun _ during => .comms (.get during)) (.comms .answered) rfl ran
    | uartBridgeInit =>
      simp only [statement, here, Option.some.injEq] at ran
      subst ran
      exact acts_move (.comms .receiveByte) (outside rfl rfl) ⟨rfl, rfl, rfl, rfl, rfl, rfl⟩ rfl
    | receiveByte =>
      simp only [statement, here] at ran
      obtain ⟨system, stepped, rfl⟩ := Option.map_eq_some_iff.mp ran
      exact ⟨.receivesByte here stepped, by simpa using InCode.comms .byteReceived⟩
    | byteReceived =>
      simp only [statement, here] at ran
      split at ran <;> cases ran
      · unfold lineByte
        split
        · split
          · exact acts_move (.comms (.get .lock)) (outside rfl rfl) ⟨rfl, rfl, rfl, rfl, rfl, rfl⟩ rfl
          · exact acts_move (.comms .receiveByte) (outside rfl rfl) ⟨rfl, rfl, rfl, rfl, rfl, rfl⟩ rfl
        · split <;> exact acts_move (.comms .receiveByte) (outside rfl rfl) ⟨rfl, rfl, rfl, rfl, rfl, rfl⟩ rfl
      · exact acts_move (.comms .receiveByte) (outside rfl rfl) ⟨rfl, rfl, rfl, rfl, rfl, rfl⟩ rfl
    | answered =>
      simp only [statement, here, Option.some.injEq] at ran
      subst ran
      exact acts_move (.comms .receiveByte) (outside rfl rfl) ⟨rfl, rfl, rfl, rfl, rfl, rfl⟩ rfl
  | logger code =>
    cases code with
    | get during =>
      exact acts_during during here (fun _ during => .logger (.get during)) (.logger .statusLogged) rfl ran
    | logStatus =>
      simp only [statement, here, Option.some.injEq] at ran
      subst ran
      exact acts_move (.logger (.get .lock)) (outside rfl rfl) ⟨rfl, rfl, rfl, rfl, rfl, rfl⟩ rfl
    | statusLogged =>
      simp only [statement, here] at ran
      exact acts_call (.logger .logStatus) (outside rfl rfl) ran (by decide) (apart_blocking (by decide) (by decide)
        (by decide) (by simp [BlockingCall.object])) rfl
  | timerSvc code =>
    cases code with
    | timerWait =>
      simp only [statement, here] at ran
      exact acts_call (.timerSvc .timerExpire) (outside rfl rfl) ran (by decide) (apart_none rfl (by simp)) rfl
    | timerExpire =>
      simp only [statement, here] at ran
      split at ran
      · exact acts_call (.timerSvc .timerWait) (outside rfl rfl) ran (by decide) (apart_none rfl (by simp)) rfl
      · exact acts_call (.timerSvc .timerExpire) (outside rfl rfl) ran (by decide) (apart_none rfl (by simp)) rfl
  | idling => simp [statement, here] at ran

/-- A statement moves its own task only. -/
theorem acts_others (acts : Acts x self z) {t : TaskId} (other : t ≠ self) : z.place t = x.place t := by
  cases acts with
  | locks | unlocks | accesses | takes | receives | receivesByte | calls => exact Function.update_of_ne other _ _
  | goes goes => rw [goes.place, Function.update_of_ne other]

/-! ## The calls begun -/

/-- The calls of the status functions, oldest first. -/
def begun (x : Demo F) : List (TaskId × StatusCall F) :=
  (x.log.filterMap fun | .began t call => some (t, call) | _ => none).reverse

theorem log_goTo (x : Demo F) (self : TaskId) (there : Place F) : (x.goTo self there).log =
    (((x.goTo self there).place self).begins.map (DemoEntry.began self)).toList ++ x.log := by
  cases there <;> simp [goTo, Place.begins]

theorem log_enter {c : Call} {there : Place F} (ran : x.enter self c there = some z) (silent : there.begins = none) :
    z.log = ((z.place self).begins.map (DemoEntry.began self)).toList ++ x.log := by
  obtain ⟨system, _, rfl⟩ := Option.map_eq_some_iff.mp ran
  simp [silent]

/-- What a statement logs: the end of a call and, where it reaches one, the head
of the next. -/
theorem log_of_statement (ran : x.statement self scaling = some z) :
    z.log = ((z.place self).begins.map (DemoEntry.began self)).toList ++
      ((x.place self).ends.map (DemoEntry.completed self)).toList ++ x.log := by
  cases here : x.place self with
  | takeFault | receiveSample | receiveByte | statusLogged | timerWait | lock =>
    simp only [statement, here] at ran
    simpa [Place.ends] using log_enter ran rfl
  | timerExpire =>
    simp only [statement, here] at ran
    simpa [Place.ends] using log_enter ran (by split <;> rfl)
  | faultTaken | disableOutput | logStatus | uartBridgeInit | resynced | answered =>
    simp only [statement, here, Option.some.injEq] at ran
    subst ran
    simpa [Place.ends] using log_goTo _ _ _
  | leave call back =>
    simp only [statement, here, Option.some.injEq] at ran
    subst ran
    simpa [Place.ends] using log_goTo { x with log := .completed self call :: x.log } self back
  | sampleReceived =>
    simp only [statement, here] at ran
    split at ran <;> cases ran <;> simpa [Place.ends] using log_goTo _ _ _
  | runStateMachine =>
    simp only [statement, here, Option.some.injEq] at ran
    subst ran
    unfold Demo.runStateMachine
    dsimp only
    split <;> simpa [Place.ends] using log_goTo _ _ _
  | byteReceived =>
    simp only [statement, here] at ran
    split at ran <;> cases ran
    · unfold lineByte
      split
      · split <;> simpa [Place.ends] using log_goTo _ _ _
      · split <;> simpa [Place.ends] using log_goTo _ _ _
    · simpa [Place.ends] using log_goTo _ _ _
  | access _ rest =>
    cases rest with
    | nil =>
      simp only [statement, here] at ran
      simpa [Place.ends] using log_enter ran rfl
    | cons =>
      simp only [statement, here, Option.some.injEq] at ran
      subst ran
      simp [Place.begins, Place.ends]
  | idling => simp [statement, here] at ran

/-- A call begins where its head is reached. -/
theorem begun_of_statement (ran : x.statement self scaling = some z) :
    z.begun = x.begun ++ ((z.place self).begins.map (self, ·)).toList := by
  rw [begun, begun, log_of_statement ran]
  cases (z.place self).begins <;> cases (x.place self).ends <;> simp

/-- Where a call begins. -/
inductive Begins (scaling : Scaling F) (x : Demo F) (self : TaskId) : StatusCall F → Prop where
  | notes (here : x.place self = .disableOutput) : Begins scaling x self .noteFault
  | measures (here : x.place self = .sampleReceived) : Begins scaling x self
      (.setMeasurement (scaling.measure (x.received self)).1 (scaling.measure (x.received self)).2)
  | publishes {state : PsState} (here : x.place self = .runStateMachine) : Begins scaling x self (.setState state)
  | resyncs (here : x.place self = .runStateMachine) : Begins scaling x self .get
  | published {state : PsState} {back : Place F} (here : x.place self = .leave (.setState state) back) :
      Begins scaling x self .get
  | logs (here : x.place self = .logStatus) : Begins scaling x self .get
  | answers (here : x.place self = .byteReceived) (succeeded : x.succeeded self = true)
      (ended : (x.received self).getD 0 0 = 13 ∨ (x.received self).getD 0 0 = 10)
      (status : isStatusCommand x.line = true) : Begins scaling x self .get

theorem begins_of_statement {call : StatusCall F} (code : InCode self (x.place self))
    (ran : x.statement self scaling = some z) (begins : (z.place self).begins = some call) :
    Begins scaling x self call := by
  have entered : ∀ {c : Call} {there : Place F}, x.enter self c there = some z → there.begins ≠ none := by
    rintro c there ran silent
    obtain ⟨system, _, rfl⟩ := Option.map_eq_some_iff.mp ran
    simp [silent] at begins
  cases here : x.place self with
  | takeFault | receiveSample | receiveByte | statusLogged | timerWait | lock =>
    simp only [statement, here] at ran
    exact absurd rfl (entered ran)
  | timerExpire =>
    simp only [statement, here] at ran
    exact absurd (by split <;> rfl) (entered ran)
  | faultTaken =>
    simp only [statement, here, Option.some.injEq] at ran
    subst ran
    split at begins <;> simp [goTo, Place.begins] at begins
  | uartBridgeInit | resynced | answered =>
    simp only [statement, here, Option.some.injEq] at ran
    subst ran
    simp [goTo, Place.begins] at begins
  | disableOutput | logStatus =>
    simp only [statement, here, Option.some.injEq] at ran
    subst ran
    obtain rfl := by simpa [goTo, Place.begins] using begins
    first | exact .notes here | exact .logs here
  | leave call' back =>
    simp only [statement, here, Option.some.injEq] at ran
    subst ran
    have inside : ∀ {call'' : StatusCall F} {back' : Place F}, During call'' back' (.leave call' back) →
        call'' = call' ∧ back' = back := by
      rintro _ _ ⟨⟩
      exact ⟨rfl, rfl⟩
    rw [here] at code
    simp only [goTo, Function.update_self] at begins
    cases code with
    | protection code | comms code | logger code =>
      cases code
      rename_i during
      obtain ⟨-, rfl⟩ := inside during
      cases begins
    | control code =>
      cases code with
      | setMeasurement during | get during =>
        obtain ⟨-, rfl⟩ := inside during
        cases begins
      | setState during =>
        obtain ⟨rfl, rfl⟩ := inside during
        cases begins
        exact .published here
    | timerSvc code => cases code
  | sampleReceived =>
    simp only [statement, here] at ran
    split at ran <;> cases ran
    · obtain rfl := by simpa [goTo, Place.begins] using begins
      exact .measures here
    · simp [goTo, Place.begins] at begins
  | runStateMachine =>
    simp only [statement, here, Option.some.injEq] at ran
    subst ran
    unfold Demo.runStateMachine at begins
    dsimp only at begins
    split at begins
    · obtain rfl := by simpa [goTo, Place.begins] using begins
      exact .publishes here
    · obtain rfl := by simpa [goTo, Place.begins] using begins
      exact .resyncs here
  | byteReceived =>
    simp only [statement, here] at ran
    split at ran <;> cases ran
    · rename_i given
      unfold lineByte at begins
      split at begins
      · rename_i ended
        split at begins
        · rename_i status
          obtain rfl := by simpa [goTo, Place.begins] using begins
          exact .answers here given ended status
        · simp [goTo, Place.begins] at begins
      · split at begins <;> simp [goTo, Place.begins] at begins
    · simp [goTo, Place.begins] at begins
  | access _ rest =>
    cases rest with
    | nil =>
      simp only [statement, here] at ran
      exact absurd rfl (entered ran)
    | cons =>
      simp only [statement, here, Option.some.injEq] at ran
      subst ran
      simp [Place.begins] at begins
  | idling => simp [statement, here] at ran

/-! ## Steps -/

theorem does_kernel {event : Event} (uncalled : ∀ c, event ≠ .call c) (ran : x.kernel event = some z) :
    Does scaling x z := by
  obtain ⟨system, stepped, rfl⟩ := Option.map_eq_some_iff.mp ran
  exact .kernel uncalled stepped

private theorem does_yield {needsYield : Bool} (ran : x.yieldFromIsr needsYield = some z) :
    Relation.ReflTransGen (Does scaling) x z := by
  unfold yieldFromIsr at ran
  split at ran
  · exact .single (does_kernel (by simp) ran)
  · cases ran
    exact .refl

/-- A step of the demo is made of such steps. -/
theorem does_of_step {event : DemoEvent} (stepped : x.step scaling event = some z) :
    Relation.ReflTransGen (Does scaling) x z := by
  cases event with
  | main =>
    simp only [Demo.step, mainStep] at stepped
    split at stepped
    · exact .single (does_kernel (by simp) stepped)
    · exact .tail (.single (.creates _)) (does_kernel (by simp) stepped)
  | adc dataRegister =>
    simp only [Demo.step, adcIrqHandler, Option.bind_eq_bind, Option.bind_eq_some_iff, Prod.exists] at stepped
    obtain ⟨w, sent, _, y, signalled, yields⟩ := stepped
    have queued : Does scaling x w := does_kernel (by simp) sent
    refine .head queued (.head (.samples (.read dataRegister)) ?_)
    unfold signalFault at signalled
    split at signalled
    · obtain ⟨_, gave, same⟩ := Option.map_eq_some_iff.mp signalled
      cases same
      exact .head (does_kernel (by simp) gave) (does_yield yields)
    · cases signalled
      exact does_yield yields
  | usart byte =>
    simp only [Demo.step, usart1IrqHandler] at stepped
    split at stepped
    · obtain ⟨_, sent, yields⟩ := Option.bind_eq_some_iff.mp stepped
      exact .head (does_kernel (by simp) sent) (does_yield yields)
    · cases stepped
      exact .refl
  | sysTick | pendSV | dispatch => exact .single (does_kernel (by simp) stepped)
  | task =>
    simp only [Demo.step, task, Option.bind_eq_bind, Option.bind_eq_some_iff] at stepped
    obtain ⟨self, running, ran⟩ := stepped
    split at ran
    · rename_i thread
      exact .single (.states running thread ran)
    · exact .single (does_kernel (by simp) ran)

/-- What start-up satisfies and each of these keeps, every state of a run
satisfies. -/
theorem invariant_of_does {place : Placement} {guard : Demo F → DemoEvent → Prop} (Inv : Demo F → Prop)
    (run : DemoRun scaling place guard x) (init : Inv (startUp scaling place))
    (preserved : ∀ x z, Inv x → Does scaling x z → Inv z) : Inv x := by
  refine run.invariant Inv init ?_
  intro x event z holds _ stepped
  have does := does_of_step stepped
  clear stepped
  induction does with
  | refl => exact holds
  | tail _ last ih => exact preserved _ _ ih last

/-- Every task is somewhere in its own code. -/
def Coded (x : Demo F) : Prop := ∀ t, InCode t (x.place t)

theorem Coded.does (coded : x.Coded) (does : Does scaling x z) : z.Coded := by
  cases does with
  | kernel | creates | samples => exact coded
  | @states self _ _ _ ran =>
    obtain ⟨acts, code⟩ := acts_of_statement (coded self) ran
    intro t
    by_cases mine : t = self
    · exact mine ▸ code
    · rw [acts_others acts mine]
      exact coded t

end Demo
end PowerSupply
end NimbleRtos
