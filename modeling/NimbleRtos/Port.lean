import Mathlib.Data.UInt
import NimbleRtos.Foundation.DescendingStack
import NimbleRtos.Foundation.GuardedRun
import NimbleRtos.Scheduler

/-! The Cortex-M4 port: the stack frame nimble_port_init_task_stack builds and
the two handlers of context_switch.S that take it apart, with the exception
entry and return the hardware does around them. Memory holds the task stacks
and the first word of each TCB, `sp`. The main stack is kept apart from it. -/
namespace NimbleRtos.Port
open DescendingStack

abbrev Word := UInt32

/-- A word is four bytes; addresses count bytes. -/
def wordBytes : Word := 4

/-- What a thread sees of the register file besides its stack pointer. -/
inductive Reg where
  | r0 | r1 | r2 | r3 | r4 | r5 | r6 | r7 | r8 | r9 | r10 | r11 | r12 | lr | pc | xpsr
  deriving DecidableEq, Repr

/-- `{r4-r11}`: the handlers save them, and C functions leave them as they were. -/
def calleeSaved : List Reg := [.r4, .r5, .r6, .r7, .r8, .r9, .r10, .r11]

/-- What the hardware stacks, lowest address first. -/
def hardwareSaved : List Reg := [.r0, .r1, .r2, .r3, .r12, .lr, .pc, .xpsr]

/-- The processor, the memory and the two globals of scheduler.c the handlers
use. `onPsp` is the stack thread mode runs on; `mainStack` is listed top first. -/
structure Cpu where
  regs : Reg → Word
  psp : Word
  onPsp : Bool
  mainStack : List Word
  memory : Word → Word
  currentTcb : Word
  nextTcb : Word

/-- `EXC_RETURN` to thread mode on the process stack. -/
def excReturnPsp : Word := 0xFFFFFFFD

/-- `EXC_RETURN` to thread mode on the main stack. -/
def excReturnMsp : Word := 0xFFFFFFF9

namespace Cpu

def set (c : Cpu) (r : Reg) (v : Word) : Cpu := { c with regs := Function.update c.regs r v }

/-- Stores registers below a pointer, the first named at the lowest address,
and moves the pointer down to it. -/
def storeBelow (c : Cpu) (pointer : Word) (names : List Reg) : (Word → Word) × Word :=
  let pointer := pointer - names.length • wordBytes
  (storeAll wordBytes c.memory pointer (names.map c.regs), pointer)

/-- `stmdb base!, {names}`. -/
def stmdb (c : Cpu) (base : Reg) (names : List Reg) : Cpu :=
  let (memory, pointer) := c.storeBelow (c.regs base) names
  { c with memory }.set base pointer

/-- `ldmia base!, {names}`. -/
def ldmia (c : Cpu) (base : Reg) (names : List Reg) : Cpu :=
  { c with regs := loadRegisters wordBytes c.memory (c.regs base) c.regs names }.set base
    (c.regs base + names.length • wordBytes)

/-- `push {names}` in handler mode. -/
def pushMain (c : Cpu) (names : List Reg) : Cpu :=
  { c with mainStack := names.map c.regs ++ c.mainStack }

/-- `pop {names}` in handler mode. -/
def popMain : Cpu → List Reg → Option Cpu
  | c, [] => some c
  | c, r :: rest =>
    match c.mainStack with
    | [] => none
    | v :: mainStack => ({ c with mainStack }.set r v).popMain rest

/-- Exception entry from thread mode. -/
def exceptionEntry (c : Cpu) : Cpu :=
  if c.onPsp then
    let (memory, psp) := c.storeBelow c.psp hardwareSaved
    { c with memory, psp }.set .lr excReturnPsp
  else (c.pushMain hardwareSaved).set .lr excReturnMsp

/-- `bx` to an `EXC_RETURN` value. -/
def exceptionReturn (c : Cpu) (excReturn : Word) : Option Cpu :=
  if excReturn = excReturnPsp then
    some { c with
      regs := loadRegisters wordBytes c.memory c.psp c.regs hardwareSaved
      psp := c.psp + hardwareSaved.length • wordBytes
      onPsp := true }
  else if excReturn = excReturnMsp then
    (c.popMain hardwareSaved).map fun c => { c with onPsp := false }
  else none

end Cpu

/-- `PendSV_Handler` down to `pendsv_skip_save`. -/
def saveOutgoing (c : Cpu) : Cpu :=
  let c := c.set .r0 c.psp
  let c := c.set .r2 c.currentTcb
  if c.regs .r2 = 0 then c
  else
    let c := c.stmdb .r0 calleeSaved
    { c with memory := Function.update c.memory (c.regs .r2) (c.regs .r0) }

/-- `PendSV_Handler` from the reload of `nimble_next_tcb` on. -/
def restoreIncoming (c : Cpu) : Option Cpu :=
  let c := c.set .r2 c.nextTcb
  let c := { c with currentTcb := c.regs .r2 }
  let c := c.set .r0 (c.memory (c.regs .r2))
  let c := c.ldmia .r0 calleeSaved
  let c := { c with psp := c.regs .r0 }
  c.exceptionReturn (c.regs .lr)

/-- `PendSV_Handler`. `r3` holds the address of `nimble_current_tcb`; like `lr`
it is kept on the main stack across the call of nimble_scheduler_select_next. -/
def pendSvHandler (selectNext : Cpu → Option Cpu) (c : Cpu) : Option Cpu := do
  let c ← selectNext ((saveOutgoing c).pushMain [.r3, .lr])
  let c ← c.popMain [.r3, .lr]
  restoreIncoming c

/-- `SVC_Handler`, less BASEPRI. -/
def svcHandler (c : Cpu) : Option Cpu :=
  let c := c.set .r2 c.currentTcb
  let c := c.set .r1 (c.memory (c.regs .r2))
  let c := c.ldmia .r1 calleeSaved
  let c := { c with psp := c.regs .r1 }
  let c := c.set .r0 excReturnPsp
  c.exceptionReturn (c.regs .r0)

/-- `NIMBLE_STACK_CANARY`. -/
def stackCanary : Word := 0xA5A5A5A5

/-- The values `nimble_port_init_task_stack` stores, in the order of its stores. -/
def frameStores (taskExitTrap fn arg : Word) : List Word :=
  [0x01000000, fn, taskExitTrap, 0x12121212, 0x03030303, 0x02020202, 0x01010101, arg,
    0x11111111, 0x10101010, 0x09090909, 0x08080808, 0x07070707, 0x06060606, 0x05050505, 0x04040404]

/-- `nimble_port_init_task_stack`, with the memory it leaves and the stack pointer it returns. -/
def initTaskStack (taskExitTrap : Word) (memory : Word → Word) (stackTop fn arg : Word) :
    (Word → Word) × Word :=
  (frameStores taskExitTrap fn arg).foldl (push wordBytes) (memory, stackTop)

/-- The arguments of `nimble_task_create` as addresses and numbers, less the name. -/
structure Creation where
  tcb : Word
  fn : Word
  arg : Word
  stackBase : Word
  stackWords : UInt32
  priority : Nat
  deriving DecidableEq, Repr

namespace Creation

/-- `nimble_task_create`, on the stacks and `sp` fields. -/
def taskCreate (taskExitTrap : Word) (memory : Word → Word) (t : Creation) : Status × (Word → Word) :=
  if t.tcb = 0 ∨ t.fn = 0 ∨ t.stackBase = 0 then (.invalidArg, memory)
  else if t.stackWords < minStackWords then (.invalidArg, memory)
  else if maxPriorities ≤ t.priority then (.invalidArg, memory)
  else
    let memory := Function.update memory t.tcb 0
    let memory := storeAll wordBytes memory t.stackBase
      (List.replicate t.stackWords.toNat stackCanary)
    let stackTop := above wordBytes t.stackBase t.stackWords.toNat
    let (memory, sp) := initTaskStack taskExitTrap memory stackTop t.fn t.arg
    (.ok, Function.update memory t.tcb sp)

/-- The checks of `nimble_task_create`. -/
def accepted (t : Creation) : Bool :=
  t.tcb ≠ 0 && t.fn ≠ 0 && t.stackBase ≠ 0 && !(t.stackWords < minStackWords) && t.priority < maxPriorities

/-- The words of the stack. -/
def Owns (t : Creation) (a : Word) : Prop := ∃ i < t.stackWords.toNat, a = above wordBytes t.stackBase i

end Creation

/-- A task's registers and stack pointer. -/
structure Context where
  regs : Reg → Word
  sp : Word

/-- What the interrupted thread on the process stack sees. -/
def Cpu.context (c : Cpu) : Context := ⟨c.regs, c.psp⟩

/-- The processor, and for each switch away from a task the address of its TCB
with what it was interrupted in, newest first. -/
structure Switching where
  cpu : Cpu
  log : List (Word × Context)

inductive SwitchEvent where
  /-- `svc 0` in `nimble_port_start_first_task`. -/
  | svc
  /-- The running task computes, up to its next interruption. -/
  | execute (c : Cpu)
  /-- PendSV, with the nimble_scheduler_select_next it calls. -/
  | pendSV (selectNext : Cpu → Option Cpu)

/-- Whether the event switches to a task. -/
def SwitchEvent.switches : SwitchEvent → Bool
  | .execute _ => false
  | _ => true

namespace Switching

def step (x : Switching) : SwitchEvent → Option Switching
  | .svc => if x.cpu.onPsp then none else (svcHandler x.cpu.exceptionEntry).map fun cpu => { x with cpu }
  | .execute cpu => if x.cpu.onPsp then some { x with cpu } else none
  | .pendSV selectNext =>
    if x.cpu.onPsp then
      (pendSvHandler selectNext x.cpu.exceptionEntry).map fun cpu =>
        { cpu, log := (x.cpu.currentTcb, x.cpu.context) :: x.log }
    else none

end Switching

/-- The memory after a sequence of creations. -/
def createAll (taskExitTrap : Word) (memory : Word → Word) (creations : List Creation) : Word → Word :=
  creations.foldl (fun memory t => (t.taskCreate taskExitTrap memory).2) memory

/-- The tasks `nimble_task_create` accepts. -/
def created (creations : List Creation) : List Creation := creations.filter Creation.accepted

end NimbleRtos.Port
