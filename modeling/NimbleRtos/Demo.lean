import NimbleRtos.Boot
import NimbleRtos.PowerSupply

/-! The demo of app/power_supply on the kernel. A task's own code runs one
statement or one access to the shared status at a time, while the scheduler
lets the task run; inside a kernel call the kernel's model goes on. The log
tells of the samples and of the calls around the status. -/
namespace NimbleRtos
open Port (Placement protection control comms logger timerSvc stackWords)

/-- What the newest call of `t` that has returned gave back. -/
def System.returned (y : System) (t : TaskId) : Option (Status × Bytes) :=
  y.log.findSome? fun
    | .returned u _ st out => if u = t then some (st, out) else none
    | _ => none

/-- The `*needs_yield` of the interrupt call that was just made. -/
def System.needsYield (y : System) : Bool :=
  match y.log with
  | .isrReturned _ _ needsYield :: _ => needsYield
  | _ => false

namespace PowerSupply

/-- `g_status_mutex`. -/
def statusMutex : MutexId := 0

/-- `g_fault_semaphore`. -/
def faultSemaphore : SemaphoreId := 1

/-- `g_adc_sample_queue`. -/
def adcSampleQueue : QueueId := 0

/-- `g_uart_rx_queue`. -/
def uartRxQueue : QueueId := 1

/-- `UART_RX_QUEUE_DEPTH`. -/
def uartRxQueueDepth : Nat := 64

/-- `CLI_LINE_BUF_LEN`. -/
def cliLineBufLen : Nat := 64

/-- `LOGGER_PERIOD_TICKS`, one second. -/
def loggerPeriodTicks : Tick := 1000

/-- The objects as ps_shared_init, uart_bridge_init and
nimble_timer_service_start initialise them. -/
def demoConfig : Config where
  semaphore _ := (0, 1)
  queue q :=
    if q = adcSampleQueue then (List.replicate (4 * adcQueueDepth) 0, 4, adcQueueDepth.toUInt32)
    else (List.replicate uartRxQueueDepth 0, 1, uartRxQueueDepth.toUInt32)

/-- The bytes of a `ps_adc_sample_t`. -/
def AdcSample.bytes (sample : AdcSample) : Bytes :=
  [sample.voltageRaw.toUInt8, (sample.voltageRaw >>> 8).toUInt8,
    sample.currentRaw.toUInt8, (sample.currentRaw >>> 8).toUInt8]

/-- The `ps_adc_sample_t` of four bytes. -/
def AdcSample.ofBytes (bytes : Bytes) : AdcSample :=
  let half (low high : UInt8) : UInt16 := low.toUInt16 ||| (high.toUInt16 <<< 8)
  ⟨half (bytes.getD 0 0) (bytes.getD 1 0), half (bytes.getD 2 0) (bytes.getD 3 0)⟩

/-- What ADC_IRQHandler reads into both fields of its sample. -/
def AdcSample.read (dataRegister : UInt32) : AdcSample :=
  let raw := (dataRegister &&& 0xFFF).toUInt16
  ⟨raw, raw⟩

/-- The limit test of ADC_IRQHandler. -/
def Scaling.exceeds {F : Type} (scaling : Scaling F) (sample : AdcSample) : Bool :=
  scaling.overLimit (scaling.millivolts sample.voltageRaw) (scaling.milliamps sample.currentRaw)

/-- The functions of power_supply.c around `g_status`, with their arguments. -/
inductive StatusCall (F : Type) where
  | get
  | setMeasurement (voltageMv currentMa : F)
  | setState (state : PsState)
  | noteFault
  deriving DecidableEq, Repr

/-- One access to `g_status`. `fault_count++` reads first and writes then. -/
inductive Access (F : Type) where
  | copyOut
  | writeVoltage (voltageMv : F)
  | writeCurrent (currentMa : F)
  | writeState (state : PsState)
  | readCount
  | writeCount (faultCount : UInt32)
  deriving DecidableEq, Repr

/-- The next statement of a task's own code. -/
inductive Place (F : Type) where
  /-- `nimble_semaphore_take(&g_fault_semaphore, NIMBLE_WAIT_FOREVER)`. -/
  | takeFault
  /-- `if (result != NIMBLE_OK)` of protection_task_fn. -/
  | faultTaken
  /-- `ps_disable_output_hw()` and the call of ps_status_note_fault. -/
  | disableOutput
  /-- `nimble_queue_receive(&g_adc_sample_queue, …)`. -/
  | receiveSample
  /-- `if (result != NIMBLE_OK)` of control_task_fn, and the scaling. -/
  | sampleReceived
  /-- The `switch` of run_state_machine. -/
  | runStateMachine
  /-- `if (status.state == PS_STATE_FAULT)` at the end of run_state_machine. -/
  | resynced
  /-- The head of the loop of logger_task_fn. -/
  | logStatus
  /-- `nimble_task_delay(LOGGER_PERIOD_TICKS)`, after the output. -/
  | statusLogged
  /-- `uart_bridge_init()`. -/
  | uartBridgeInit
  /-- `nimble_queue_receive(&g_uart_rx_queue, …)`. -/
  | receiveByte
  /-- `if (result != NIMBLE_OK)` of comms_task_fn, and what it does with a byte. -/
  | byteReceived
  /-- `line_len = 0` after a `status` command was answered. -/
  | answered
  /-- `timer_task_fn` up to the end of its `nimble_semaphore_take`. -/
  | timerWait
  /-- The expiry loop of `timer_task_fn`. -/
  | timerExpire
  /-- At the head of `call`, which returns to `back`. -/
  | lock (call : StatusCall F) (back : Place F)
  /-- In `call`, with the mutex locked and `rest` of its accesses to come. -/
  | access (call : StatusCall F) (rest : List (Access F)) (back : Place F)
  /-- `call` has unlocked the mutex. -/
  | leave (call : StatusCall F) (back : Place F)
  /-- The idle task, or no task at all. -/
  | idling
  deriving DecidableEq, Repr

inductive DemoEntry (F : Type) where
  | sampled (sample : AdcSample)
  | began (t : TaskId) (call : StatusCall F)
  | completed (t : TaskId) (call : StatusCall F)
  deriving DecidableEq, Repr

/-- The kernel, the statics of the application, each task's own code and local
`status`, the tasks main has still to create, and the log, newest entry first. -/
structure Demo (F : Type) where
  system : System
  /-- `g_status`. -/
  status : PsStatus F
  localState : PsState
  softStartStep : UInt32
  /-- `line_buf` up to `line_len`. -/
  line : Bytes
  uartReady : Bool
  place : TaskId → Place F
  out : TaskId → PsStatus F
  todo : List Sched.TaskArgs
  log : List (DemoEntry F)

inductive DemoEvent where
  /-- `main` goes on. -/
  | main
  /-- `ADC_IRQHandler`, on the data register. -/
  | adc (dataRegister : UInt32)
  /-- `USART1_IRQHandler`, on a byte received. -/
  | usart (byte : UInt8)
  | sysTick
  | pendSV
  /-- A context switch to any ready task, as in the kernel's model. -/
  | dispatch (t : TaskId)
  /-- The running task goes on. -/
  | task
  deriving DecidableEq, Repr

/-- The accesses between the lock and the unlock. -/
def StatusCall.body {F : Type} : StatusCall F → List (Access F)
  | .get => [.copyOut]
  | .setMeasurement voltageMv currentMa => [.writeVoltage voltageMv, .writeCurrent currentMa]
  | .setState state => [.writeState state]
  | .noteFault => [.writeState .fault, .readCount]

/-- `g_status` and the caller's `*out` after an access, and what is left of it. -/
def Access.perform {F : Type} (g out : PsStatus F) : Access F → PsStatus F × PsStatus F × List (Access F)
  | .copyOut => (g, g, [])
  | .writeVoltage voltageMv => ({ g with voltageMv }, out, [])
  | .writeCurrent currentMa => ({ g with currentMa }, out, [])
  | .writeState state => ({ g with state }, out, [])
  | .readCount => (g, out, [.writeCount (g.faultCount + 1)])
  | .writeCount faultCount => ({ g with faultCount }, out, [])

/-- `strcmp(line, "status") == 0`. -/
def isStatusCommand (line : Bytes) : Bool := line.takeWhile (· ≠ 0) = [115, 116, 97, 116, 117, 115]

namespace Demo
variable {F : Type} (x : Demo F) (self : TaskId)

/-- `result` is `NIMBLE_OK`. -/
def succeeded : Bool := (x.system.returned self).map Prod.fst = some .ok

/-- The bytes behind the pointer of the newest receive. -/
def received : Bytes := ((x.system.returned self).map Prod.snd).getD []

/-- `self` calls the kernel and then stands at `after`. -/
def enter (c : Call) (after : Place F) : Option (Demo F) :=
  (x.system.step (.call c)).map fun system =>
    { x with system, place := Function.update x.place self after }

/-- `self` moves on to `there`, which may be the head of a call. -/
def goTo (there : Place F) : Demo F :=
  { x with
    place := Function.update x.place self there
    log := match there with
      | .lock call _ => .began self call :: x.log
      | _ => x.log }

/-- The `switch` of run_state_machine and what follows it. -/
def runStateMachine : Demo F :=
  let switched := Control.runSwitch (F := F) ⟨.deciding, x.localState, x.softStartStep⟩
  let x := { x with localState := switched.localState, softStartStep := switched.softStartStep }
  let resync := .lock .get .resynced
  match switched.pc with
  | .publishing => x.goTo self (.lock (.setState switched.localState) resync)
  | _ => x.goTo self resync

/-- What comms_task_fn does with a byte. -/
def lineByte (byte : UInt8) : Demo F :=
  if byte = 13 ∨ byte = 10 then
    if isStatusCommand x.line then x.goTo self (.lock .get .answered)
    else { x with line := [] }.goTo self .receiveByte
  else if x.line.length < cliLineBufLen - 1 then { x with line := x.line ++ [byte] }.goTo self .receiveByte
  else x.goTo self .receiveByte

/-- Whether the expiry loop of `timer_task_fn` would break now. -/
def nothingDue : Bool :=
  match x.system.timers.expire x.system.sched.tickCount with
  | some (.idle, _) => true
  | _ => false

/-- The next statement of `self`'s own code. -/
def statement (scaling : Scaling F) : Option (Demo F) :=
  match x.place self with
  | .takeFault => x.enter self (.blocking (.semaphoreTake faultSemaphore waitForever)) .faultTaken
  | .faultTaken => some (x.goTo self (if x.succeeded self then .disableOutput else .takeFault))
  | .disableOutput => some (x.goTo self (.lock .noteFault .takeFault))
  | .receiveSample => x.enter self (.blocking (.queueReceive adcSampleQueue waitForever)) .sampleReceived
  | .sampleReceived =>
    if x.succeeded self then
      let sample := AdcSample.ofBytes (x.received self)
      let voltageMv := scaling.millivolts sample.voltageRaw
      let currentMa := scaling.milliamps sample.currentRaw
      some (x.goTo self (.lock (.setMeasurement voltageMv currentMa) .runStateMachine))
    else some (x.goTo self .receiveSample)
  | .runStateMachine => some (x.runStateMachine self)
  | .resynced =>
    let localState := if (x.out self).state = .fault then .fault else x.localState
    some ({ x with localState }.goTo self .receiveSample)
  | .logStatus => some (x.goTo self (.lock .get .statusLogged))
  | .statusLogged => x.enter self (.blocking (.taskDelay loggerPeriodTicks)) .logStatus
  | .uartBridgeInit => some ({ x with uartReady := true }.goTo self .receiveByte)
  | .receiveByte => x.enter self (.blocking (.queueReceive uartRxQueue waitForever)) .byteReceived
  | .byteReceived =>
    if x.succeeded self then some (x.lineByte self ((x.received self).getD 0 0))
    else some (x.goTo self .receiveByte)
  | .answered => some ({ x with line := [] }.goTo self .receiveByte)
  | .timerWait => x.enter self .timerSleep .timerExpire
  | .timerExpire => x.enter self .timerExpire (if x.nothingDue then .timerWait else .timerExpire)
  | .lock call back =>
    x.enter self (.blocking (.mutexLock statusMutex waitForever)) (.access call call.body back)
  | .access call (access :: rest) back =>
    let (status, out, more) := access.perform x.status (x.out self)
    some { x with
      status
      out := Function.update x.out self out
      place := Function.update x.place self (.access call (more ++ rest) back) }
  | .access call [] back => x.enter self (.mutexUnlock statusMutex) (.leave call back)
  | .leave call back => some ({ x with log := .completed self call :: x.log }.goTo self back)
  | .idling => none

/-- A step of the kernel alone. -/
def kernel (event : Event) : Option (Demo F) :=
  (x.system.step event).map fun system => { x with system }

/-- The running task goes on, in a kernel call or in its own code. -/
def task (scaling : Scaling F) : Option (Demo F) := do
  let self ← x.system.running
  if x.system.pc self = .thread then x.statement self scaling else x.kernel .proceed

/-- `nimble_port_request_context_switch()` at the end of a handler. -/
def yieldFromIsr (needsYield : Bool) : Option (Demo F) :=
  if needsYield then x.kernel .isrRequest else some x

/-- `nimble_semaphore_give_from_isr(&g_fault_semaphore, &fault_needs_yield)` on a
sample over the limit. -/
def signalFault (scaling : Scaling F) (sample : AdcSample) : Option (Bool × Demo F) :=
  if scaling.exceeds sample then
    (x.kernel (.isr (.semaphoreGiveFromIsr faultSemaphore))).map fun x => (x.system.needsYield, x)
  else some (false, x)

/-- `ADC_IRQHandler`. -/
def adcIrqHandler (scaling : Scaling F) (dataRegister : UInt32) : Option (Demo F) := do
  let sample := AdcSample.read dataRegister
  let x ← x.kernel (.isr (.queueSendFromIsr adcSampleQueue sample.bytes))
  let needsYield := x.system.needsYield
  let (faultNeedsYield, x) ← { x with log := .sampled sample :: x.log }.signalFault scaling sample
  x.yieldFromIsr (needsYield || faultNeedsYield)

/-- `USART1_IRQHandler`. Before uart_bridge_init the queue has no slots, and
drops the byte. -/
def usart1IrqHandler (byte : UInt8) : Option (Demo F) :=
  if x.uartReady then do
    let x ← x.kernel (.isr (.queueSendFromIsr uartRxQueue [byte]))
    x.yieldFromIsr x.system.needsYield
  else some x

/-- `main` after ps_shared_init: it creates the tasks and starts the scheduler. -/
def mainStep : Option (Demo F) :=
  match x.todo with
  | [] => x.kernel .start
  | a :: todo => { x with todo }.kernel (.create a)

def step (scaling : Scaling F) (x : Demo F) : DemoEvent → Option (Demo F)
  | .main => x.mainStep
  | .adc dataRegister => x.adcIrqHandler scaling dataRegister
  | .usart byte => x.usart1IrqHandler byte
  | .sysTick => x.kernel .tick
  | .pendSV => x.kernel .pendSV
  | .dispatch t => x.kernel (.dispatch t)
  | .task => x.task scaling

end Demo

/-- The tasks main creates. -/
def mainTasks (place : Placement) : List Sched.TaskArgs :=
  let args (t : TaskId) (words : UInt32) (priority : Nat) : Sched.TaskArgs :=
    ⟨some t, place.fn t, place.stack t, words, priority⟩
  [args protection (stackWords 512) 4, args control (stackWords 1024) 3, args comms (stackWords 1024) 2,
    args logger (stackWords 768) 1, args timerSvc (stackWords 512) 3]

/-- Where each task begins. -/
def entryPlace {F : Type} (t : TaskId) : Place F :=
  if t = protection then .takeFault
  else if t = control then .receiveSample
  else if t = comms then .uartBridgeInit
  else if t = logger then .logStatus
  else if t = timerSvc then .timerWait
  else .idling

/-- The state after ps_shared_init. -/
def startUp {F : Type} (scaling : Scaling F) (place : Placement) : Demo F where
  system := boot demoConfig
  status := ⟨.idle, scaling.zero, scaling.zero, 0⟩
  localState := .idle
  softStartStep := 0
  line := []
  uartReady := false
  place := entryPlace
  out _ := ⟨.idle, scaling.zero, scaling.zero, 0⟩
  todo := mainTasks place
  log := []

/-- Runs of the demo from start-up whose steps all meet `guard`. -/
abbrev DemoRun {F : Type} (scaling : Scaling F) (place : Placement)
    (guard : Demo F → DemoEvent → Prop) : Demo F → Prop :=
  GuardedRun.Run (Demo.step scaling) guard (startUp scaling place)

end PowerSupply
end NimbleRtos
