import NimbleRtos.Foundation.GuardedRun

/-! The demo application of app/power_supply: four tasks and the ADC interrupt
around one status record. A step is one critical section of `g_status_mutex`,
one kernel call, or what a task computes between two of them. The kernel
objects appear as what they guarantee: the sample queue as a bounded FIFO, the
fault semaphore as its count. -/
namespace NimbleRtos.PowerSupply

/-- `ps_state_t`. -/
inductive PsState where
  | idle | softStart | running | fault
  deriving DecidableEq, Repr

/-- `ps_adc_sample_t`. -/
structure AdcSample where
  voltageRaw : UInt16
  currentRaw : UInt16
  deriving DecidableEq, Repr

/-- What the code computes in `float`: the zero of `memset`, `ADC_TO_MILLIVOLTS`,
`ADC_TO_MILLIAMPS`, and the comparison with `PS_OVERVOLTAGE_LIMIT_MV` and
`PS_OVERCURRENT_LIMIT_MA`. -/
structure Scaling (F : Type) where
  zero : F
  millivolts : UInt16 → F
  milliamps : UInt16 → F
  overLimit : F → F → Bool

/-- `ps_status_t`. -/
structure PsStatus (F : Type) where
  state : PsState
  voltageMv : F
  currentMa : F
  faultCount : UInt32
  deriving DecidableEq, Repr

/-- `ADC_QUEUE_DEPTH`. -/
def adcQueueDepth : Nat := 8

/-- `SOFT_START_RAMP_STEPS`. -/
def softStartRampSteps : UInt32 := 50

/-- Where ControlTask stands in its loop. -/
inductive ControlPc (F : Type) where
  /-- At `nimble_queue_receive`, waiting or about to call it. -/
  | receiving
  /-- Before `ps_status_set_measurement`. -/
  | measured (voltageMv currentMa : F)
  /-- Before the `switch` of `run_state_machine`. -/
  | deciding
  /-- Before `ps_status_set_state(local_state)`. -/
  | publishing
  /-- Before the `ps_status_get` at the end of `run_state_machine`. -/
  | resyncing
  deriving DecidableEq, Repr

/-- ControlTask with `local_state` and `soft_start_step`. -/
structure Control (F : Type) where
  pc : ControlPc F
  localState : PsState
  softStartStep : UInt32
  deriving DecidableEq, Repr

/-- Where ProtectionTask stands in its loop. -/
inductive Protection where
  | taking
  | blocked
  /-- Before `ps_status_note_fault`. -/
  | noting
  deriving DecidableEq, Repr

/-- The shared objects and the tasks. `snapshot` is the status LoggerTask or
CommsTask read last. -/
structure App (F : Type) where
  status : PsStatus F
  samples : List AdcSample
  faultUnits : UInt32
  control : Control F
  protection : Protection
  snapshot : Option (PsStatus F)
  deriving DecidableEq, Repr

namespace PsStatus
variable {F : Type} (g : PsStatus F)

/-- `ps_status_set_measurement`. -/
def setMeasurement (voltageMv currentMa : F) : PsStatus F := { g with voltageMv, currentMa }

/-- `ps_status_set_state`. -/
def setState (state : PsState) : PsStatus F := { g with state }

/-- `ps_status_note_fault`. -/
def noteFault : PsStatus F := { g with state := .fault, faultCount := g.faultCount + 1 }

end PsStatus

namespace Control
variable {F : Type} (x : Control F)

/-- The `switch` of `run_state_machine`. -/
def runSwitch : Control F :=
  match x.localState with
  | .idle => { pc := .publishing, localState := .softStart, softStartStep := 0 }
  | .softStart =>
    let softStartStep := x.softStartStep + 1
    if softStartRampSteps ≤ softStartStep then { pc := .publishing, localState := .running, softStartStep }
    else { x with pc := .resyncing, softStartStep }
  | .running => { x with pc := .resyncing }
  | .fault => { x with pc := .resyncing }

/-- The end of `run_state_machine`, on the status it read. -/
def resync (status : PsStatus F) : Control F :=
  { x with
    pc := .receiving
    localState := if status.state = .fault then .fault else x.localState }

end Control

inductive AppEvent where
  /-- `ADC_IRQHandler`, on the data register. -/
  | adc (dataRegister : UInt32)
  | control
  | protection
  /-- LoggerTask, or CommsTask on a `status` command, reads the status. -/
  | read
  deriving DecidableEq, Repr

namespace App
variable {F : Type} (y : App F)

/-- `nimble_semaphore_give_from_isr(&g_fault_semaphore, …)`. -/
def giveFault : App F :=
  if y.protection = .blocked then { y with protection := .noting }
  else if y.faultUnits < 1 then { y with faultUnits := y.faultUnits + 1 }
  else y

/-- `nimble_queue_send_from_isr(&g_adc_sample_queue, …)`: a full queue drops the
sample. -/
def sendSample (sample : AdcSample) : App F :=
  if y.samples.length < adcQueueDepth then { y with samples := y.samples ++ [sample] } else y

/-- `ADC_IRQHandler`. -/
def adcIrqHandler (scaling : Scaling F) (dataRegister : UInt32) : App F :=
  let raw := (dataRegister &&& 0xFFF).toUInt16
  let y := y.sendSample ⟨raw, raw⟩
  if scaling.overLimit (scaling.millivolts raw) (scaling.milliamps raw) then y.giveFault else y

/-- The next step of ControlTask, none while it waits for a sample. -/
def controlStep (scaling : Scaling F) : Option (App F) :=
  match y.control.pc with
  | .receiving => match y.samples with
    | [] => none
    | sample :: samples =>
      let pc := .measured (scaling.millivolts sample.voltageRaw) (scaling.milliamps sample.currentRaw)
      some { y with samples, control := { y.control with pc } }
  | .measured voltageMv currentMa =>
    some { y with
      status := y.status.setMeasurement voltageMv currentMa
      control := { y.control with pc := .deciding } }
  | .deciding => some { y with control := y.control.runSwitch }
  | .publishing =>
    some { y with
      status := y.status.setState y.control.localState
      control := { y.control with pc := .resyncing } }
  | .resyncing => some { y with control := y.control.resync y.status }

/-- The next step of ProtectionTask, none while it is blocked. -/
def protectionStep : Option (App F) :=
  match y.protection with
  | .taking =>
    if 0 < y.faultUnits then
      some { y with faultUnits := y.faultUnits - 1, protection := .noting }
    else some { y with protection := .blocked }
  | .blocked => none
  | .noting => some { y with status := y.status.noteFault, protection := .taking }

def step (scaling : Scaling F) (y : App F) : AppEvent → Option (App F)
  | .adc dataRegister => some (y.adcIrqHandler scaling dataRegister)
  | .control => y.controlStep scaling
  | .protection => y.protectionStep
  | .read => some { y with snapshot := some y.status }

end App

/-- The state after `ps_shared_init`. -/
def sharedInit {F : Type} (scaling : Scaling F) : App F where
  status := ⟨.idle, scaling.zero, scaling.zero, 0⟩
  samples := []
  faultUnits := 0
  control := ⟨.receiving, .idle, 0⟩
  protection := .taking
  snapshot := none

/-- Runs of the application whose steps all meet `guard`. -/
abbrev AppRun {F : Type} (scaling : Scaling F) (guard : App F → AppEvent → Prop) :
    App F → App F → Prop :=
  GuardedRun.Run (App.step scaling) guard

end NimbleRtos.PowerSupply
