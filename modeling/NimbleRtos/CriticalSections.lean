import Mathlib.Data.UInt
import NimbleRtos.Foundation.GuardedRun
import NimbleRtos.Foundation.WholePieces
import NimbleRtos.Types

/-! Exceptions and critical sections. A task or SysTick_Handler is in the kernel
between `nimble_port_enter_critical` and `nimble_port_exit_critical`, which mask
interrupts with BASEPRI; PendSV_Handler, and an interrupt handler in a `_from_isr`
call, are in it without. One such stretch is a piece, and the log has the accesses
each piece makes to the kernel's data. The kernel's model takes a piece as one
step, which is right where the log is the pieces one after the other. -/
namespace NimbleRtos.Port
open GuardedRun WholePieces

/-- `NIMBLE_KERNEL_SYSCALL_BASEPRI`. -/
def kernelSyscallBasepri : UInt32 := (5 : UInt32) <<< 4

/-- `NVIC_PRIO_PENDSV_SYSTICK`. -/
def nvicPrioPendSvSysTick : UInt32 := 0xF0

/-- `nimble_stm32f4_nvic_priority_init`, on SCB_SHPR3. -/
def nvicPriorityInit (shpr3 : UInt32) : UInt32 :=
  let shpr3 := shpr3 &&& ~~~((0xFF : UInt32) <<< 16)
  let shpr3 := shpr3 &&& ~~~((0xFF : UInt32) <<< 24)
  let shpr3 := shpr3 ||| (nvicPrioPendSvSysTick <<< 16)
  shpr3 ||| (nvicPrioPendSvSysTick <<< 24)

inductive Exception where
  | sysTick
  | pendSV
  /-- The interrupt of a peripheral. -/
  | irq (n : Nat)
  deriving DecidableEq, Repr

/-- The priority registers, and the interrupts whose handlers call the kernel. -/
structure Nvic where
  shpr3 : UInt32
  ipr : Nat → UInt8
  calls : Nat → Bool

/-- The priority of an exception, of whose eight bits the STM32F4 has the upper
four. The smaller is the more urgent. -/
def Nvic.priority (nvic : Nvic) : Exception → Nat
  | .sysTick => ((nvic.shpr3 >>> 24) &&& 0xF0).toNat
  | .pendSV => ((nvic.shpr3 >>> 16) &&& 0xF0).toNat
  | .irq n => (nvic.ipr n &&& 0xF0).toNat

/-- The priority of the code that runs: a handler's, or a task's. -/
def Nvic.urgency (nvic : Nvic) : Option Exception → Nat
  | some e => nvic.priority e
  | none => 256

/-- The code that uses critical sections: a task, or SysTick_Handler. -/
def usesSections : Option Exception → Bool
  | none | some .sysTick => true
  | _ => false

/-- The code that enters the kernel without: PendSV_Handler, or a handler that
makes a `_from_isr` call. -/
def Nvic.exempt (nvic : Nvic) : Option Exception → Bool
  | some .pendSV => true
  | some (.irq n) => nvic.calls n
  | _ => false

/-- What a task or a handler has entered of the kernel: the values that
`nimble_port_enter_critical` gave it, newest first, and the piece it is in. -/
@[ext] structure Entered where
  saved : List UInt32
  piece : Option Nat
  deriving DecidableEq, Repr

/-- Outside the kernel. -/
def Entered.nothing : Entered := ⟨[], none⟩

/-- An access to the kernel's data, in or out of a critical section. -/
structure Access where
  piece : Nat
  masked : Bool
  deriving DecidableEq, Repr

/-- `handlers` are the active ones, the running one first. `pieces` counts those
begun so far. -/
structure Core where
  basepri : UInt32
  handlers : List (Exception × Entered)
  tasks : TaskId → Entered
  running : TaskId
  pendSvSet : Bool
  pieces : Nat
  log : List Access

inductive CoreEvent where
  | enterCritical
  | exitCritical
  /-- PendSV_Handler or a `_from_isr` call begins. -/
  | enterKernel
  | leaveKernel
  | access
  | requestContextSwitch
  /-- PendSV_Handler loads the stack pointer of the task it goes on with. -/
  | switchTo (t : TaskId)
  | exception (e : Exception)
  | exceptionReturn
  deriving DecidableEq, Repr

namespace Core
variable (nvic : Nvic) (x : Core)

/-- The code that runs: the newest handler, or else the task. -/
def entered : Entered :=
  match x.handlers with
  | [] => x.tasks x.running
  | (_, entered) :: _ => entered

def setEntered (entered : Entered) : Core :=
  match x.handlers with
  | [] => { x with tasks := Function.update x.tasks x.running entered }
  | (e, _) :: handlers => { x with handlers := (e, entered) :: handlers }

/-- Whose code runs. -/
def role : Option Exception := x.handlers.head?.map Prod.fst

/-- What is more urgent than all that is active, and than BASEPRI, may interrupt. -/
def executionPriority : Nat :=
  let active := (x.handlers.map fun handler => nvic.priority handler.1).foldr min (nvic.urgency none)
  if x.basepri = 0 then active else min x.basepri.toNat active

/-- `nimble_port_enter_critical`. -/
def enterCritical : Core :=
  let piece := x.entered.piece.getD x.pieces
  { x.setEntered ⟨x.basepri :: x.entered.saved, some piece⟩ with
    basepri := kernelSyscallBasepri
    pieces := max x.pieces (piece + 1) }

/-- `nimble_port_exit_critical`. -/
def exitCritical : Option Core :=
  match x.entered with
  | ⟨savedState :: saved, piece⟩ =>
    some { x.setEntered ⟨saved, if saved = [] then none else piece⟩ with basepri := savedState }
  | _ => none

def step (x : Core) : CoreEvent → Option Core
  | .enterCritical => if usesSections x.role then some x.enterCritical else none
  | .exitCritical => x.exitCritical
  | .enterKernel =>
    if nvic.exempt x.role ∧ x.entered.piece = none then
      some { x.setEntered ⟨[], some x.pieces⟩ with pieces := x.pieces + 1 }
    else none
  | .leaveKernel => if nvic.exempt x.role then some (x.setEntered .nothing) else none
  | .access => x.entered.piece.map fun piece =>
    { x with log := ⟨piece, x.entered.saved ≠ []⟩ :: x.log }
  | .requestContextSwitch => some { x with pendSvSet := true }
  | .switchTo t => if x.role = some .pendSV then some { x with running := t } else none
  | .exception e =>
    if nvic.priority e < x.executionPriority nvic ∧ (e = .pendSV → x.pendSvSet) then
      some { x with
        handlers := (e, .nothing) :: x.handlers
        pendSvSet := x.pendSvSet && e ≠ .pendSV }
    else none
  | .exceptionReturn =>
    match x.handlers with
    | (_, entered) :: handlers => if entered = .nothing then some { x with handlers } else none
    | [] => none

end Core

/-- SVC_Handler has cleared BASEPRI and starts the first task. -/
def firstTask (running : TaskId) : Core where
  basepri := 0
  handlers := []
  tasks _ := .nothing
  running := running
  pendSvSet := false
  pieces := 0
  log := []

abbrev CoreRun (nvic : Nvic) (running : TaskId) : Core → Prop :=
  Run (Core.step nvic) Free (firstTask running)

/-! ## Priorities -/

section
variable {nvic : Nvic}

/-- Whatever SCB_SHPR3 was before. -/
theorem priority_sysTick (init : ∃ shpr3, nvic.shpr3 = nvicPriorityInit shpr3) : nvic.priority .sysTick = 0xF0 := by
  obtain ⟨shpr3, init⟩ := init
  have field : (nvicPriorityInit shpr3 >>> 24) &&& 0xF0 = 0xF0 := by
    have bits : ∀ i < 32, (240#32).getLsbD i = true → (4026531840#32).getLsbD (24 + i) = true := by decide
    apply UInt32.toBitVec_inj.mp
    apply BitVec.eq_of_getLsbD_eq
    intro i small
    simpa [nvicPriorityInit, nvicPrioPendSvSysTick] using fun set => .inr (bits i small set)
  rw [Nvic.priority, init, field]
  rfl

theorem priority_pendSV (init : ∃ shpr3, nvic.shpr3 = nvicPriorityInit shpr3) : nvic.priority .pendSV = 0xF0 := by
  obtain ⟨shpr3, init⟩ := init
  have field : (nvicPriorityInit shpr3 >>> 16) &&& 0xF0 = 0xF0 := by
    have bits : ∀ i < 32, (240#32).getLsbD i = true → (15728640#32).getLsbD (16 + i) = true := by decide
    apply UInt32.toBitVec_inj.mp
    apply BitVec.eq_of_getLsbD_eq
    intro i small
    simpa [nvicPriorityInit, nvicPrioPendSvSysTick] using fun set => .inl (.inr (bits i small set))
  rw [Nvic.priority, init, field]
  rfl

theorem priority_irq (n : Nat) : nvic.priority (.irq n) ≤ 0xF0 := by
  simp only [Nvic.priority, UInt8.toNat_and]
  exact Nat.and_le_right

end

/-! ## What is active -/

namespace Core
variable {nvic : Nvic} {x z : Core}

/-- All that is active, the newest first and the task last. -/
def stack (x : Core) : List (Option Exception × Entered) :=
  x.handlers.map (fun handler => (some handler.1, handler.2)) ++ [(none, x.tasks x.running)]

theorem stack_cons (x : Core) : ∃ rest, x.stack = (x.role, x.entered) :: rest ∧
    ∀ entered, (x.setEntered entered).stack = (x.role, entered) :: rest := by
  unfold stack role entered setEntered
  cases x.handlers with
  | nil => exact ⟨[], rfl, fun _ => by simp⟩
  | cons handler handlers => exact ⟨_, rfl, fun _ => rfl⟩

@[simp] theorem setEntered_running (x : Core) (entered : Entered) :
    (x.setEntered entered).running = x.running := by
  unfold setEntered
  split <;> rfl

@[simp] theorem setEntered_log (x : Core) (entered : Entered) : (x.setEntered entered).log = x.log := by
  unfold setEntered
  split <;> rfl

@[simp] theorem setEntered_basepri (x : Core) (entered : Entered) : (x.setEntered entered).basepri = x.basepri := by
  unfold setEntered
  split <;> rfl

@[simp] theorem setEntered_pieces (x : Core) (entered : Entered) : (x.setEntered entered).pieces = x.pieces := by
  unfold setEntered
  split <;> rfl

theorem setEntered_tasks (x : Core) (entered : Entered) {t : TaskId} (other : t ≠ x.running) :
    (x.setEntered entered).tasks t = x.tasks t := by
  unfold setEntered
  split
  · exact Function.update_of_ne other _ _
  · rfl

/-- The kernel code that a task or a handler can be in. -/
structure Proper (nvic : Nvic) (active : Option Exception × Entered) : Prop where
  saves : active.2.saved ≠ [] → usesSections active.1
  sections : usesSections active.1 → (active.2.saved = [] ↔ active.2.piece = none)
  enters : active.2.piece ≠ none → usesSections active.1 ∨ nvic.exempt active.1

theorem proper_nothing (role : Option Exception) : Proper nvic (role, .nothing) :=
  ⟨fun saves => absurd rfl saves, fun _ => ⟨fun _ => rfl, fun _ => rfl⟩, fun enters => absurd rfl enters⟩

/-- What may interrupt a task or a handler is more urgent than this. -/
def limit (nvic : Nvic) (active : Option Exception × Entered) : Nat :=
  if active.2.saved = [] then nvic.urgency active.1 else min (nvic.urgency active.1) 0x50

/-- BASEPRI with critical sections open in which it had the values `saved`. -/
inductive Levels : List UInt32 → UInt32 → Prop where
  | free : Levels [] 0
  | inside {saved : List UInt32} {basepri : UInt32} (outer : Levels saved basepri) :
      Levels (basepri :: saved) kernelSyscallBasepri

structure Sound (nvic : Nvic) (x : Core) : Prop where
  levels : Levels (x.stack.flatMap (·.2.saved)) x.basepri
  nested : x.stack.Pairwise fun above below => nvic.urgency above.1 < limit nvic below
  proper : ∀ active ∈ x.stack, Proper nvic active
  suspended : ∀ t, t ≠ x.running → x.tasks t = .nothing
  begun : ∀ active ∈ x.stack, ∀ n, active.2.piece = some n → n < x.pieces
  logged : ∀ access ∈ x.log, access.piece < x.pieces

theorem executionPriority_le (levels : Levels (x.stack.flatMap (·.2.saved)) x.basepri)
    {active : Option Exception × Entered} (member : active ∈ x.stack) :
    x.executionPriority nvic ≤ limit nvic active := by
  have folded : ∀ (ps : List Nat) (bound p : Nat), p ∈ ps ∨ bound = p → ps.foldr min bound ≤ p := by
    intro ps bound p among
    induction ps with
    | nil => exact (among.resolve_left (by simp)).le
    | cons q ps ih =>
      rcases among with among | same
      · rcases List.mem_cons.mp among with rfl | among
        · exact min_le_left _ _
        · exact (min_le_right _ _).trans (ih (.inl among))
      · exact (min_le_right _ _).trans (ih (.inr same))
  have urgency : (x.handlers.map fun handler => nvic.priority handler.1).foldr min (nvic.urgency none) ≤
      nvic.urgency active.1 := by
    refine folded _ _ _ ?_
    rcases List.mem_append.mp member with member | member
    · obtain ⟨handler, listed, rfl⟩ := List.mem_map.mp member
      exact .inl (List.mem_map.mpr ⟨handler, listed, rfl⟩)
    · obtain rfl := List.mem_singleton.mp member
      exact .inr rfl
  unfold executionPriority limit
  by_cases outside : active.2.saved = []
  · rw [if_pos outside]
    split
    · exact urgency
    · exact (min_le_right _ _).trans urgency
  · have masked : x.basepri = kernelSyscallBasepri := by
      generalize saved : x.stack.flatMap (·.2.saved) = values at levels
      generalize x.basepri = basepri at levels
      cases levels with
      | free => exact absurd (List.flatMap_eq_nil_iff.mp saved active member) outside
      | inside => rfl
    rw [if_neg outside, masked, if_neg (by decide)]
    exact le_min ((min_le_right _ _).trans urgency) (min_le_left _ _)

namespace Sound

/-- The code that runs enters the kernel, or leaves it. -/
theorem moves {entered : Entered} (sound : Sound nvic x) (stack : z.stack = (x.setEntered entered).stack)
    (levels : ∀ outer, Levels (x.entered.saved ++ outer) x.basepri → Levels (entered.saved ++ outer) z.basepri)
    (proper : Proper nvic (x.role, entered))
    (running : z.running = x.running) (tasks : ∀ t, t ≠ x.running → z.tasks t = x.tasks t)
    (begun : ∀ n, entered.piece = some n → n < z.pieces) (pieces : x.pieces ≤ z.pieces) (log : z.log = x.log) :
    Sound nvic z := by
  obtain ⟨rest, before, after⟩ := x.stack_cons
  have after : z.stack = (x.role, entered) :: rest := stack.trans (after entered)
  have nested := sound.nested
  have sane := sound.proper
  have earlier := sound.begun
  have outer := sound.levels
  rw [before] at nested sane earlier outer
  refine ⟨?_, ?_, ?_, ?_, ?_, ?_⟩
  · rw [after]
    exact levels _ outer
  · rw [after]
    exact List.pairwise_cons.mpr (List.pairwise_cons.mp nested)
  · rw [after]
    exact List.forall_mem_cons.mpr ⟨proper, (List.forall_mem_cons.mp sane).2⟩
  · intro t other
    rw [running] at other
    rw [tasks t other, sound.suspended t other]
  · rw [after]
    refine List.forall_mem_cons.mpr ⟨begun, ?_⟩
    exact fun active member n here => ((List.forall_mem_cons.mp earlier).2 active member n here).trans_le pieces
  · rw [log]
    exact fun access member => (sound.logged access member).trans_le pieces

theorem current (sound : Sound nvic x) : Proper nvic (x.role, x.entered) := by
  obtain ⟨rest, stack, _⟩ := x.stack_cons
  exact sound.proper _ (by simp [stack])

theorem current_begun (sound : Sound nvic x) {n : Nat} (here : x.entered.piece = some n) : n < x.pieces := by
  obtain ⟨rest, stack, _⟩ := x.stack_cons
  exact sound.begun (x.role, x.entered) (by simp [stack]) n here

theorem enterCritical (sound : Sound nvic x) (uses : usesSections x.role) : Sound nvic x.enterCritical := by
  refine sound.moves rfl (fun _ => .inside) ⟨fun _ => uses, fun _ => by simp, fun _ => .inl uses⟩
    (setEntered_running x _) (fun t other => setEntered_tasks x _ other) ?_ (le_max_left _ _) (setEntered_log x _)
  rintro n ⟨⟩
  exact lt_max_of_lt_right (Nat.lt_succ_self _)

theorem exitCritical (sound : Sound nvic x) (stepped : x.exitCritical = some z) : Sound nvic z := by
  unfold Core.exitCritical at stepped
  split at stepped
  · rename_i savedState saved piece here
    obtain rfl := Option.some.inj stepped
    have proper := sound.current
    rw [here] at proper
    have uses : usesSections x.role := proper.saves (by simp)
    refine sound.moves rfl ?_ ⟨fun _ => uses, fun _ => ?_, fun _ => .inl uses⟩ (setEntered_running x _)
      (fun t other => setEntered_tasks x _ other) ?_ (setEntered_pieces x _).ge (setEntered_log x _)
    · intro outer levels
      rw [here] at levels
      generalize x.basepri = basepri at levels
      cases levels with
      | inside outer => exact outer
    · have entered := mt (proper.sections uses).mpr (by simp)
      by_cases last : saved = []
      · simp [last]
      · simpa [last] using entered
    · intro n same
      rw [setEntered_pieces]
      dsimp only at same
      split at same
      · cases same
      · exact sound.current_begun (by rw [here]; exact same)
  · cases stepped

/-- Code that uses no critical sections enters the kernel, or leaves it. -/
theorem exempt {piece : Option Nat} {pieces : Nat} (sound : Sound nvic x) (exempt : nvic.exempt x.role)
    (begun : ∀ n, piece = some n → n < pieces) (more : x.pieces ≤ pieces) :
    Sound nvic { x.setEntered ⟨[], piece⟩ with pieces } := by
  have other : ¬ usesSections x.role := by
    unfold Nvic.exempt at exempt
    unfold usesSections
    split at exempt <;> simp_all
  have unsaved : x.entered.saved = [] := by
    by_contra saved
    exact other (sound.current.saves saved)
  refine sound.moves rfl ?_ ⟨fun saves => absurd rfl saves, fun uses => absurd uses other, fun _ => .inr exempt⟩
    (setEntered_running x _) (fun t other => setEntered_tasks x _ other) begun more (setEntered_log x _)
  intro outer levels
  rw [unsaved] at levels
  simpa using levels

/-- PendSV interrupts a task outside the kernel only. -/
theorem outside (sound : Sound nvic x) (init : ∃ shpr3, nvic.shpr3 = nvicPriorityInit shpr3)
    (here : x.role = some .pendSV) : x.tasks x.running = .nothing := by
  have member : (none, x.tasks x.running) ∈ x.stack := by simp [stack]
  have proper := sound.proper _ member
  obtain ⟨rest, stack, _⟩ := x.stack_cons
  have nested := sound.nested
  rw [stack] at nested member
  have below : (none, x.tasks x.running) ∈ rest := by
    rcases List.mem_cons.mp member with same | below
    · rw [here] at same
      cases same
    · exact below
  have urgent := (List.pairwise_cons.mp nested).1 _ below
  rw [here, Nvic.urgency, priority_pendSV init] at urgent
  have unsaved : (x.tasks x.running).saved = [] := by
    by_contra saved
    rw [limit, if_neg saved] at urgent
    omega
  exact Entered.ext unsaved ((proper.sections rfl).mp unsaved)

theorem all_outside (sound : Sound nvic x) (init : ∃ shpr3, nvic.shpr3 = nvicPriorityInit shpr3)
    (here : x.role = some .pendSV) (t : TaskId) : x.tasks t = .nothing := by
  by_cases same : t = x.running
  · rw [same, sound.outside init here]
  · exact sound.suspended t same

/-- So it makes no difference to what is active which task goes on. -/
theorem stack_switchTo (sound : Sound nvic x) (init : ∃ shpr3, nvic.shpr3 = nvicPriorityInit shpr3)
    (here : x.role = some .pendSV) (t : TaskId) : Core.stack { x with running := t } = x.stack := by
  simp [Core.stack, sound.all_outside init here]

theorem step {event : CoreEvent} (sound : Sound nvic x) (init : ∃ shpr3, nvic.shpr3 = nvicPriorityInit shpr3)
    (stepped : x.step nvic event = some z) : Sound nvic z := by
  cases event with
  | enterCritical =>
    simp only [Core.step, Option.ite_none_right_eq_some, Option.some.injEq] at stepped
    obtain ⟨uses, rfl⟩ := stepped
    exact sound.enterCritical uses
  | exitCritical => exact sound.exitCritical stepped
  | enterKernel =>
    simp only [Core.step, Option.ite_none_right_eq_some, Option.some.injEq] at stepped
    obtain ⟨⟨exempt, _⟩, rfl⟩ := stepped
    exact sound.exempt exempt (by simp) (Nat.le_succ _)
  | leaveKernel =>
    simp only [Core.step, Option.ite_none_right_eq_some, Option.some.injEq] at stepped
    obtain ⟨exempt, rfl⟩ := stepped
    have same : { x.setEntered ⟨[], none⟩ with pieces := x.pieces } = x.setEntered .nothing := by
      unfold Core.setEntered
      split <;> rfl
    exact same ▸ sound.exempt exempt (by simp) le_rfl
  | access =>
    obtain ⟨piece, here, rfl⟩ := Option.map_eq_some_iff.mp stepped
    refine ⟨sound.levels, sound.nested, sound.proper, sound.suspended, sound.begun, ?_⟩
    exact List.forall_mem_cons.mpr ⟨sound.current_begun here, sound.logged⟩
  | requestContextSwitch =>
    cases stepped
    exact ⟨sound.levels, sound.nested, sound.proper, sound.suspended, sound.begun, sound.logged⟩
  | switchTo t =>
    simp only [Core.step, Option.ite_none_right_eq_some, Option.some.injEq] at stepped
    obtain ⟨here, rfl⟩ := stepped
    have stack := sound.stack_switchTo init here t
    refine ⟨by rw [stack]; exact sound.levels, by rw [stack]; exact sound.nested, by rw [stack]; exact sound.proper,
      fun u _ => sound.all_outside init here u, by rw [stack]; exact sound.begun, sound.logged⟩
  | exception e =>
    simp only [Core.step, Option.ite_none_right_eq_some, Option.some.injEq] at stepped
    obtain ⟨⟨urgent, _⟩, rfl⟩ := stepped
    refine ⟨sound.levels, List.pairwise_cons.mpr ⟨?_, sound.nested⟩,
      List.forall_mem_cons.mpr ⟨proper_nothing _, sound.proper⟩, sound.suspended,
      List.forall_mem_cons.mpr ⟨by rintro n ⟨⟩, sound.begun⟩, sound.logged⟩
    exact fun below member => urgent.trans_le (executionPriority_le sound.levels member)
  | exceptionReturn =>
    simp only [Core.step] at stepped
    split at stepped
    · rename_i e entered handlers shape
      simp only [Option.ite_none_right_eq_some, Option.some.injEq] at stepped
      obtain ⟨rfl, rfl⟩ := stepped
      have stack : x.stack = (some e, .nothing) :: Core.stack { x with handlers } := by simp [Core.stack, shape]
      obtain ⟨levels, nested, proper, suspended, begun, logged⟩ := sound
      rw [stack] at levels nested proper begun
      exact ⟨levels, (List.pairwise_cons.mp nested).2, (List.forall_mem_cons.mp proper).2, suspended,
        (List.forall_mem_cons.mp begun).2, logged⟩
    · cases stepped

end Sound

/-! ## Whole pieces -/

/-- The pieces in question: those in critical sections, or `all`. -/
def Guarded (all : Bool) (entered : Entered) : Prop := all ∨ entered.saved ≠ []

/-- The least urgent priority at which a piece in question runs. -/
def level (all : Bool) : Nat := if all then 0xF0 else 0x50

/-- No interrupt handler that calls the kernel is more urgent. -/
def Calm (nvic : Nvic) (all : Bool) : Prop := ∀ n, nvic.calls n → level all ≤ nvic.priority (.irq n)

section
variable {all : Bool}

theorem level_le_lowest (all : Bool) : level all ≤ 0xF0 := by
  unfold level
  split <;> decide

theorem basepri_le_level (all : Bool) : 0x50 ≤ level all := by
  unfold level
  split <;> decide

/-- Kernel code runs at no more urgent priority. -/
theorem Proper.level_le {active : Option Exception × Entered} (proper : Proper nvic active)
    (init : ∃ shpr3, nvic.shpr3 = nvicPriorityInit shpr3) (calm : Calm nvic all) (inside : active.2.piece ≠ none) :
    level all ≤ nvic.urgency active.1 := by
  obtain ⟨role, entered⟩ := active
  have kernel := proper.enters inside
  have least := level_le_lowest all
  match role with
  | none => exact least.trans (show 240 ≤ 256 by decide)
  | some .sysTick => exact least.trans_eq (priority_sysTick init).symm
  | some .pendSV => exact least.trans_eq (priority_pendSV init).symm
  | some (.irq n) => exact calm n (kernel.resolve_left (by simp [usesSections]))

/-- A piece in question is interrupted at more urgent priorities only. -/
theorem Proper.limit_le {active : Option Exception × Entered} (proper : Proper nvic active)
    (init : ∃ shpr3, nvic.shpr3 = nvicPriorityInit shpr3) (guarded : Guarded all active.2)
    (inside : active.2.piece ≠ none) : limit nvic active ≤ level all := by
  obtain ⟨role, entered⟩ := active
  unfold limit
  by_cases unsaved : entered.saved = []
  · rw [if_pos unsaved]
    have every : all = true := guarded.resolve_right (not_not.mpr unsaved)
    subst every
    have uses : ¬ usesSections role := fun uses => inside ((proper.sections uses).mp unsaved)
    match role with
    | none | some .sysTick => exact absurd rfl uses
    | some .pendSV => exact (priority_pendSV init).le
    | some (.irq n) => exact priority_irq n
  · rw [if_neg unsaved]
    exact (min_le_right _ _).trans (basepri_le_level all)

/-- Nothing that interrupts a piece in question is in the kernel. -/
theorem Sound.alone (sound : Sound nvic x) (init : ∃ shpr3, nvic.shpr3 = nvicPriorityInit shpr3)
    (calm : Calm nvic all) : x.stack.Pairwise fun above below =>
      Guarded all below.2 → below.2.piece ≠ none → above.2.piece = none := by
  refine sound.nested.imp_of_mem ?_
  intro above below first second urgent guarded inside
  by_contra kernel
  have least := (sound.proper above first).level_le init calm kernel
  have most := (sound.proper below second).limit_le init guarded inside
  omega

/-- The pieces in question are whole, and the one that is not through is the
latest. -/
structure Undisturbed (all : Bool) (x : Core) : Prop where
  whole : Whole Access.piece (fun access => all ∨ access.masked) x.log
  latest : ∀ active ∈ x.stack, Guarded all active.2 → ∀ n, active.2.piece = some n →
    Latest Access.piece n x.log

namespace Undisturbed

theorem moves {entered : Entered} (undisturbed : Undisturbed all x) (stack : z.stack = (x.setEntered entered).stack)
    (log : z.log = x.log) (latest : Guarded all entered → ∀ n, entered.piece = some n →
      Latest Access.piece n x.log) : Undisturbed all z := by
  obtain ⟨rest, before, after⟩ := x.stack_cons
  have earlier := undisturbed.latest
  rw [before] at earlier
  refine ⟨by rw [log]; exact undisturbed.whole, ?_⟩
  rw [stack, after, log]
  exact List.forall_mem_cons.mpr ⟨latest, (List.forall_mem_cons.mp earlier).2⟩

theorem current (undisturbed : Undisturbed all x) {n : Nat} (guarded : Guarded all x.entered)
    (here : x.entered.piece = some n) : Latest Access.piece n x.log := by
  obtain ⟨rest, stack, _⟩ := x.stack_cons
  exact undisturbed.latest (x.role, x.entered) (by simp [stack]) guarded n here

theorem step {event : CoreEvent} (undisturbed : Undisturbed all x) (sound : Sound nvic x)
    (init : ∃ shpr3, nvic.shpr3 = nvicPriorityInit shpr3) (calm : Calm nvic all)
    (stepped : x.step nvic event = some z) : Undisturbed all z := by
  have fresh : Latest Access.piece x.pieces x.log :=
    latest_of_absent fun access member => (sound.logged access member).ne
  cases event with
  | enterCritical =>
    simp only [Core.step, Option.ite_none_right_eq_some, Option.some.injEq] at stepped
    obtain ⟨uses, rfl⟩ := stepped
    refine undisturbed.moves rfl (setEntered_log x _) ?_
    rintro _ n ⟨⟩
    cases here : x.entered.piece with
    | none => exact fresh
    | some m =>
      have saved : x.entered.saved ≠ [] := by
        intro unsaved
        rw [(sound.current.sections uses).mp unsaved] at here
        cases here
      exact undisturbed.current (.inr saved) here
  | exitCritical =>
    simp only [Core.step, Core.exitCritical] at stepped
    split at stepped
    · rename_i here
      obtain rfl := Option.some.inj stepped
      refine undisturbed.moves rfl (setEntered_log x _) ?_
      intro _ n same
      dsimp only at same
      split at same
      · cases same
      · exact undisturbed.current (.inr (by simp [here])) (by rw [here]; exact same)
    · cases stepped
  | enterKernel =>
    simp only [Core.step, Option.ite_none_right_eq_some, Option.some.injEq] at stepped
    obtain ⟨_, rfl⟩ := stepped
    refine undisturbed.moves rfl (setEntered_log x _) ?_
    rintro _ n ⟨⟩
    exact fresh
  | leaveKernel =>
    simp only [Core.step, Option.ite_none_right_eq_some, Option.some.injEq] at stepped
    obtain ⟨_, rfl⟩ := stepped
    exact undisturbed.moves rfl (setEntered_log x _) (by rintro _ n ⟨⟩)
  | access =>
    obtain ⟨piece, here, rfl⟩ := Option.map_eq_some_iff.mp stepped
    obtain ⟨rest, stack, _⟩ := x.stack_cons
    have alone := sound.alone init calm
    have earlier := undisturbed.latest
    rw [stack] at alone earlier
    refine ⟨undisturbed.whole.cons ?_, ?_⟩
    · intro among
      exact undisturbed.current (by simpa [Guarded] using among) here
    · show ∀ active ∈ x.stack, _
      rw [stack]
      refine List.forall_mem_cons.mpr ⟨?_, ?_⟩
      · intro guarded n same
        obtain rfl := Option.some.inj (here.symm.trans same)
        exact (undisturbed.current guarded here).cons rfl
      · -- Whatever the running code has interrupted is in no piece in question.
        intro active below guarded n inside
        have idle := (List.pairwise_cons.mp alone).1 active below guarded (by simp [inside])
        rw [here] at idle
        cases idle
  | requestContextSwitch =>
    cases stepped
    exact ⟨undisturbed.whole, undisturbed.latest⟩
  | switchTo t =>
    simp only [Core.step, Option.ite_none_right_eq_some, Option.some.injEq] at stepped
    obtain ⟨here, rfl⟩ := stepped
    exact ⟨undisturbed.whole, by rw [sound.stack_switchTo init here t]; exact undisturbed.latest⟩
  | exception e =>
    simp only [Core.step, Option.ite_none_right_eq_some, Option.some.injEq] at stepped
    obtain ⟨_, rfl⟩ := stepped
    exact ⟨undisturbed.whole, List.forall_mem_cons.mpr ⟨by rintro _ n ⟨⟩, undisturbed.latest⟩⟩
  | exceptionReturn =>
    simp only [Core.step] at stepped
    split at stepped
    · rename_i e entered handlers shape
      simp only [Option.ite_none_right_eq_some, Option.some.injEq] at stepped
      obtain ⟨rfl, rfl⟩ := stepped
      have stack : x.stack = (some e, .nothing) :: Core.stack { x with handlers } := by simp [Core.stack, shape]
      have latest := undisturbed.latest
      rw [stack] at latest
      exact ⟨undisturbed.whole, (List.forall_mem_cons.mp latest).2⟩
    · cases stepped

end Undisturbed
end

/-! ## Runs -/

theorem sound_firstTask (running : TaskId) : Sound nvic (firstTask running) := by
  refine ⟨.free, List.pairwise_singleton _ _, ?_, fun _ _ => rfl, ?_, ?_⟩
  · rintro active (_ | ⟨_, ⟨⟩⟩)
    exact proper_nothing none
  · rintro active (_ | ⟨_, ⟨⟩⟩) n ⟨⟩
  · rintro access ⟨⟩

theorem undisturbed_of_run (all : Bool) {running : TaskId} (init : ∃ shpr3, nvic.shpr3 = nvicPriorityInit shpr3)
    (calm : Calm nvic all) (run : CoreRun nvic running x) : Undisturbed all x := by
  have both : Sound nvic x ∧ Undisturbed all x := by
    refine run.invariant (fun x => Sound nvic x ∧ Undisturbed all x) ⟨sound_firstTask running, whole_nil, ?_⟩ ?_
    · rintro active (_ | ⟨_, ⟨⟩⟩) _ n ⟨⟩
    · rintro x event z ⟨sound, undisturbed⟩ _ stepped
      exact ⟨sound.step init stepped, undisturbed.step sound init calm stepped⟩
  exact both.2

end Core

/-- A task in a critical section is interrupted by a handler that calls the kernel. -/
def sectionInterrupted (n : Nat) : List CoreEvent :=
  [.enterCritical, .access, .exception (.irq n), .enterKernel, .access, .leaveKernel, .exceptionReturn, .access]

/-- PendSV_Handler is interrupted so. -/
def selectionInterrupted (n : Nat) : List CoreEvent :=
  [.requestContextSwitch, .exception .pendSV, .enterKernel, .access, .exception (.irq n), .enterKernel, .access,
    .leaveKernel, .exceptionReturn, .access]

section
variable {nvic : Nvic} {n : Nat}

private theorem sectionInterrupted_log (running : TaskId) (caller : nvic.calls n)
    (urgent : nvic.priority (.irq n) < 0x50) : ∃ x, CoreRun nvic running x ∧
      x.log = [⟨0, true⟩, ⟨1, false⟩, ⟨0, true⟩] := by
  have masked : (5 : UInt32) <<< 4 ≠ 0 := by decide
  obtain ⟨x, ran, log⟩ : ∃ x, exec (Core.step nvic) Free (firstTask running) (sectionInterrupted n) = some x ∧
      x.log = [⟨0, true⟩, ⟨1, false⟩, ⟨0, true⟩] := by
    simp [sectionInterrupted, exec, Free, Core.step, Core.role, Core.entered, Core.setEntered, Core.enterCritical,
      firstTask, usesSections, Entered.nothing, Core.executionPriority, Nvic.exempt, Nvic.urgency,
      kernelSyscallBasepri, masked, caller, urgent]
  exact ⟨x, run_of_exec ran, log⟩

private theorem selectionInterrupted_log (running : TaskId) (init : ∃ shpr3, nvic.shpr3 = nvicPriorityInit shpr3)
    (caller : nvic.calls n) (urgent : nvic.priority (.irq n) < 0xF0) : ∃ x, CoreRun nvic running x ∧
      x.log = [⟨0, false⟩, ⟨1, false⟩, ⟨0, false⟩] := by
  have lowest := priority_pendSV init
  obtain ⟨x, ran, log⟩ : ∃ x, exec (Core.step nvic) Free (firstTask running) (selectionInterrupted n) = some x ∧
      x.log = [⟨0, false⟩, ⟨1, false⟩, ⟨0, false⟩] := by
    simp [selectionInterrupted, exec, Free, Core.step, Core.role, Core.entered, Core.setEntered,
      firstTask, Entered.nothing, Core.executionPriority, Nvic.exempt, Nvic.urgency, caller, urgent, lowest]
  exact ⟨x, run_of_exec ran, log⟩

end

/-- The registers as nimble_stm32f4_nvic_priority_init leaves them. -/
def nvicAfterInit (shpr3 : UInt32) (ipr : Nat → UInt8) (calls : Nat → Bool) : Nvic :=
  ⟨nvicPriorityInit shpr3, ipr, calls⟩

section
variable (shpr3 : UInt32) (ipr : Nat → UInt8) (calls : Nat → Bool) (running : TaskId)

/-- Critical sections do what they are for exactly if no interrupt handler that
calls the kernel is more urgent than BASEPRI in them. -/
theorem sections_whole_iff :
    (∀ x, CoreRun (nvicAfterInit shpr3 ipr calls) running x →
        Whole Access.piece (fun access => access.masked) x.log) ↔
      ∀ n, calls n → kernelSyscallBasepri.toNat ≤ (nvicAfterInit shpr3 ipr calls).priority (.irq n) := by
  constructor
  · intro whole n caller
    by_contra urgent
    obtain ⟨x, run, log⟩ := sectionInterrupted_log running caller (not_le.mp urgent)
    have disturbed := whole x run ⟨0, true⟩ ⟨1, false⟩ ⟨0, true⟩ (by rw [log]) rfl rfl rfl
    cases disturbed
  · intro calm x run
    have calm : Core.Calm (nvicAfterInit shpr3 ipr calls) false := calm
    have undisturbed := Core.undisturbed_of_run false ⟨shpr3, rfl⟩ calm run
    simpa using undisturbed.whole

/-- Whatever is interrupted when, the kernel's code runs one piece after the other,
exactly if every interrupt handler that calls the kernel has the priority of
PendSV and SysTick. -/
theorem kernel_serial_iff :
    (∀ x, CoreRun (nvicAfterInit shpr3 ipr calls) running x → Serial Access.piece x.log) ↔
      ∀ n, calls n → (nvicAfterInit shpr3 ipr calls).priority (.irq n) = nvicPrioPendSvSysTick.toNat := by
  constructor
  · intro serial n caller
    refine (priority_irq n).antisymm ?_
    by_contra urgent
    obtain ⟨x, run, log⟩ := selectionInterrupted_log running ⟨shpr3, rfl⟩ caller (not_le.mp urgent)
    have disturbed := serial x run
    rw [log] at disturbed
    exact absurd disturbed (by unfold Serial; decide)
  · intro lowest x run
    have calm : Core.Calm (nvicAfterInit shpr3 ipr calls) true := fun n caller => (lowest n caller).ge
    have undisturbed := Core.undisturbed_of_run true ⟨shpr3, rfl⟩ calm run
    exact serial_of_whole (by simpa using undisturbed.whole)

end
end NimbleRtos.Port
