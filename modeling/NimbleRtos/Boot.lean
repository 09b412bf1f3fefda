import NimbleRtos.ContextSwitch
import NimbleRtos.Indexing

/-! The boot of the demo, from the return of nimble_stm32f4_system_init in main
to the `svc` of nimble_port_start_first_task, one statement of main,
nimble_scheduler_init and nimble_scheduler_start at a time. SysTick runs from
the first of these statements on, and PendSV follows each tick at once. -/
namespace NimbleRtos.Port
open DescendingStack GuardedRun NodeRings Sched

/-- Where the linker put the TCBs, the entry points and the stacks. -/
structure Placement where
  tcb : TaskId → Word
  fn : TaskId → Word
  stack : TaskId → Word
  taskExitTrap : Word

def protection : TaskId := 1
def control : TaskId := 2
def comms : TaskId := 3
def logger : TaskId := 4
def timerSvc : TaskId := 5

/-- `STACK_WORDS`. -/
def stackWords (bytes : UInt32) : UInt32 := bytes / 4

inductive Statement where
  /-- `nimble_list_init(&ready_lists[i])`. -/
  | initReadyList (i : Nat)
  /-- `nimble_list_init(&delayed_list)`. -/
  | initDelayedList
  /-- `ready_bitmap = 0`. -/
  | clearBitmap
  /-- `g_tick_count = 0`. -/
  | clearTickCount
  /-- `nimble_current_tcb = NULL`. -/
  | clearCurrent
  /-- `nimble_next_tcb = NULL`. -/
  | clearNext
  /-- `nimble_task_create` with argument `NULL`. -/
  | taskCreate (t : TaskId) (words : UInt32) (priority : Nat)
  | psSharedInit
  /-- `nimble_timer_service_start`. -/
  | timerServiceStart (priority : Nat) (words : UInt32)
  /-- `nimble_next_tcb = nimble_scheduler_select_next()`. -/
  | selectNext
  /-- `nimble_current_tcb = nimble_next_tcb`. -/
  | setCurrent
  /-- `cpsie i`. -/
  | enableInterrupts
  deriving DecidableEq, Repr

/-- `nimble_scheduler_init`. -/
def schedulerInit : List Statement :=
  (List.range maxPriorities).map .initReadyList ++
    [.initDelayedList, .clearBitmap, .clearTickCount, .clearCurrent, .clearNext, .taskCreate idle 128 0]

/-- `nimble_scheduler_start` up to the `svc`. -/
def schedulerStart : List Statement := [.selectNext, .setCurrent, .enableInterrupts]

/-- `main` after nimble_stm32f4_system_init. -/
def main : List Statement :=
  schedulerInit ++
    [.psSharedInit, .taskCreate protection (stackWords 512) 4, .taskCreate control (stackWords 1024) 3,
      .taskCreate comms (stackWords 1024) 2, .taskCreate logger (stackWords 768) 1,
      .timerServiceStart 3 (stackWords 512)] ++
    schedulerStart

/-- The system while it boots. `readyLists` and `delayedList` say which list
heads have been initialised, `pspSet` whether PSP has ever been written, and
`rest` is what the boot code has still to run. -/
structure Boot where
  sched : Sched
  readyLists : List Nat
  delayedList : Bool
  created : List (TaskId × Creation)
  cpu : Cpu
  pspSet : Bool
  rest : List Statement

namespace Placement

/-- The task `t` with the arguments its creation is given. -/
def creation (place : Placement) (t : TaskId) (words : UInt32) (priority : Nat) : Creation :=
  ⟨place.tcb t, place.fn t, 0, place.stack t, words, priority⟩

/-- `nimble_task_create`. There is no telling what a node linked to a list head
that was never initialised does. -/
def taskCreate (place : Placement) (b : Boot) (t : TaskId) (words : UInt32) (priority : Nat) :
    Option Boot := do
  let a := place.creation t words priority
  if priority ∈ b.readyLists then do
    let tcb := if a.tcb = 0 then none else some t
    let (_, sched) ← b.sched.taskCreate ⟨tcb, a.fn, a.stackBase, a.stackWords, a.priority⟩
    some { b with
      sched
      cpu := { b.cpu with memory := (a.taskCreate place.taskExitTrap b.cpu.memory).2 }
      created := if a.accepted then b.created ++ [(t, a)] else b.created }
  else none

/-- One statement of the boot code. -/
def execute (place : Placement) (b : Boot) : Statement → Option Boot
  | .initReadyList i => some { b with readyLists := i :: b.readyLists }
  | .initDelayedList => some { b with delayedList := true }
  | .clearBitmap => some { b with sched := { b.sched with readyBitmap := 0 } }
  | .clearTickCount => some { b with sched := { b.sched with tickCount := 0 } }
  | .clearCurrent =>
    some { b with sched := { b.sched with current := none }, cpu := { b.cpu with currentTcb := 0 } }
  | .clearNext => some { b with sched := { b.sched with next := none }, cpu := { b.cpu with nextTcb := 0 } }
  | .taskCreate t words priority => place.taskCreate b t words priority
  | .psSharedInit => some b
  | .timerServiceStart priority words => place.taskCreate b timerSvc words priority
  | .selectNext => do
    let (t, sched) ← b.sched.selectNext
    some { b with sched, cpu := { b.cpu with nextTcb := place.tcb t } }
  | .setCurrent =>
    some { b with
      sched := { b.sched with current := b.sched.next }
      cpu := { b.cpu with currentTcb := b.cpu.nextTcb } }
  | .enableInterrupts => some b

/-- `SysTick_Handler`. Before `delayed_list` is initialised its scan follows
whatever the memory holds. -/
def sysTick (b : Boot) : Option Boot :=
  if b.delayedList then do
    let sched ← b.sched.tick
    some { b with sched }
  else none

/-- `PendSV_Handler` on the boot code. -/
def pendSV (place : Placement) (b : Boot) : Option Boot := do
  let (t, sched) ← b.sched.selectNext
  let cpu ← pendSvHandler (fun c => some { c with nextTcb := place.tcb t }) b.cpu.exceptionEntry
  some { b with sched := { sched with current := some t }, cpu, pspSet := true }

/-- A tick, with the context switch it requests. -/
def tick (place : Placement) (b : Boot) : Option Boot := do
  let b ← sysTick b
  place.pendSV b

end Placement

inductive Moment where
  | statement
  | tick
  deriving DecidableEq, Repr

namespace Boot

/-- The boot code goes on by a statement, which leaves in the registers what
`left` says for the number of statements to go, or a tick arrives. -/
def step (place : Placement) (left : Nat → Reg → Word) (b : Boot) : Moment → Option Boot
  | .statement =>
    match b.rest with
    | [] => none
    | s :: rest =>
      (place.execute b s).map fun b => { b with cpu := { b.cpu with regs := left rest.length }, rest }
  | .tick => place.tick b

/-- The tick follows initialised list nodes only and leaves the boot code its
r4-r11, and no frame is saved through a PSP that was never set. -/
def Harmless (place : Placement) (b : Boot) : Prop :=
  (b.cpu.currentTcb ≠ 0 → b.pspSet = true) ∧
    (place.tick b).any (fun b' => calleeSaved.all fun r => b'.cpu.regs r = b.cpu.regs r) = true

instance (place : Placement) (b : Boot) : Decidable (Harmless place b) := inferInstanceAs (Decidable (_ ∧ _))

/-- Steps of the boot code, and harmless ticks. -/
def Unharmed (place : Placement) (b : Boot) (m : Moment) : Prop := m = .tick → Harmless place b

instance (place : Placement) (b : Boot) (m : Moment) : Decidable (Unharmed place b m) :=
  inferInstanceAs (Decidable (_ → _))

/-- `main` after the return of nimble_stm32f4_system_init: variables without an
initial value are zero. -/
def atMain (c : Cpu) : Boot where
  sched := .blank
  readyLists := []
  delayedList := false
  created := []
  cpu := { c with onPsp := false, currentTcb := 0, nextTcb := 0 }
  pspSet := false
  rest := main

/-- What SVC_Handler relies on: intact initial frames, and of the created tasks
the current one RUNNING and each other one in its ready list. -/
structure ReadyToStart (place : Placement) (b : Boot) : Prop where
  frames : ∀ p ∈ b.created, Suspended b.cpu.memory p.2 (p.2.initial place.taskExitTrap)
  running : ∃ p ∈ b.created, b.sched.current = some p.1 ∧ b.cpu.currentTcb = p.2.tcb ∧
    ∀ q ∈ b.created, ((b.sched.tcb q.1).state = .running ↔ q.1 = p.1) ∧
      (q.1 ≠ p.1 → (b.sched.tcb q.1).state = .ready ∧ q.1 ∈ b.sched.links.items (.ready q.2.priority))

/-- Whatever the memory and the registers hold, the boot code runs to the `svc`
with every tick harmless on the way. -/
def BootsSafely (place : Placement) (schedule : List Moment) : Prop :=
  ∀ (c : Cpu) (left : Nat → Reg → Word), ∃ b,
    exec (step place left) (Unharmed place) (atMain c) schedule = some b ∧ b.rest = [] ∧ ReadyToStart place b

end Boot

/-! ### The order of the statements -/

namespace Statement

/-- The task the statement creates. -/
def creation (place : Placement) : Statement → Option (TaskId × Creation)
  | .taskCreate t words priority => some (t, place.creation t words priority)
  | .timerServiceStart priority words => some (timerSvc, place.creation timerSvc words priority)
  | _ => none

/-- The task the statement creates, by name. -/
def names : Statement → Option TaskId
  | .taskCreate t _ _ => some t
  | .timerServiceStart _ _ => some timerSvc
  | _ => none

/-- What a statement needs to have been executed before it, and not. -/
def Enabled (executed : List Statement) : Statement → Prop
  | .clearBitmap => executed.filterMap names = []
  | .clearCurrent => .selectNext ∉ executed ∧ .setCurrent ∉ executed
  | .clearNext => .selectNext ∉ executed
  | .taskCreate t _ priority =>
    .initReadyList priority ∈ executed ∧ t ∉ executed.filterMap names ∧ .selectNext ∉ executed
  | .timerServiceStart priority _ =>
    .initReadyList priority ∈ executed ∧ timerSvc ∉ executed.filterMap names ∧ .selectNext ∉ executed
  | .selectNext => .selectNext ∉ executed ∧ .setCurrent ∉ executed ∧ executed.filterMap names ≠ []
  | .setCurrent => .selectNext ∈ executed
  | _ => True

instance (executed : List Statement) : (s : Statement) → Decidable (s.Enabled executed)
  | .clearBitmap => inferInstanceAs (Decidable (_ = _))
  | .clearCurrent => inferInstanceAs (Decidable (_ ∧ _))
  | .clearNext => inferInstanceAs (Decidable (_ ∉ _))
  | .taskCreate _ _ _ => inferInstanceAs (Decidable (_ ∧ _))
  | .timerServiceStart _ _ => inferInstanceAs (Decidable (_ ∧ _))
  | .selectNext => inferInstanceAs (Decidable (_ ∧ _))
  | .setCurrent => inferInstanceAs (Decidable (_ ∈ _))
  | .initReadyList _ | .initDelayedList | .clearTickCount | .psSharedInit | .enableInterrupts => .isTrue trivial

end Statement

/-- The boot code executes its statements in an order that suits them. -/
theorem main_enabled : ∀ i, (below : i < main.length) → (main[i]).Enabled (main.take i) := by
  decide +kernel

theorem enabled_of_split {executed rest : List Statement} {s : Statement}
    (program : main = executed ++ s :: rest) : s.Enabled executed := by
  have enabled := main_enabled executed.length (by simp [program])
  simpa [program] using enabled

/-- The tasks the statements create. -/
def Placement.creations (place : Placement) (program : List Statement) : List (TaskId × Creation) :=
  program.filterMap (Statement.creation place)

/-- What the linker guarantees: no object is at address 0, and the stacks meet
neither each other nor a TCB. -/
structure Placement.Valid (place : Placement) : Prop where
  nonnull : ∀ p ∈ place.creations main, p.2.tcb ≠ 0 ∧ p.2.fn ≠ 0 ∧ p.2.stackBase ≠ 0
  laid : Layout ((place.creations main).map Prod.snd)

variable {place : Placement} {executed rest : List Statement} {b b' : Boot} {s : Statement} {c : Cpu}

theorem names_of_creation {p : TaskId × Creation} (creates : s.creation place = some p) :
    s.names = some p.1 ∧ p.2.tcb = place.tcb p.1 := by
  cases s <;> simp_all [Statement.creation, Statement.names] <;> subst creates <;> exact ⟨rfl, rfl⟩

theorem creation_of_names {t : TaskId} (named : s.names = some t) :
    ∃ p, s.creation place = some p ∧ p.1 = t := by
  cases s <;> simp_all [Statement.creation, Statement.names]

theorem mem_names {t : TaskId} :
    t ∈ executed.filterMap Statement.names ↔ ∃ p ∈ place.creations executed, p.1 = t := by
  simp only [Placement.creations, List.mem_filterMap]
  constructor
  · rintro ⟨s, member, named⟩
    obtain ⟨p, creates, same⟩ := creation_of_names named
    exact ⟨p, ⟨s, member, creates⟩, same⟩
  · rintro ⟨p, ⟨s, member, creates⟩, rfl⟩
    exact ⟨s, member, (names_of_creation creates).1⟩

theorem creations_main (place : Placement) : place.creations main =
    [(idle, place.creation idle 128 0), (protection, place.creation protection 128 4),
      (control, place.creation control 256 3), (comms, place.creation comms 256 2),
      (logger, place.creation logger 192 1), (timerSvc, place.creation timerSvc 128 3)] :=
  rfl

/-- The stacks and priorities `main` asks for pass the checks of `nimble_task_create`. -/
theorem Placement.Valid.accepted (valid : place.Valid) {p : TaskId × Creation}
    (member : p ∈ place.creations main) : p.2.accepted = true := by
  obtain ⟨tcb, fn, stack⟩ := valid.nonnull p member
  obtain ⟨words, priority⟩ : ¬ p.2.stackWords < minStackWords ∧ p.2.priority < maxPriorities := by
    rw [creations_main] at member
    simp only [List.mem_cons, List.not_mem_nil, or_false] at member
    rcases member with rfl | rfl | rfl | rfl | rfl | rfl <;>
      simp [Placement.creation, minStackWords, maxPriorities]
  simp only [Creation.accepted, Bool.and_eq_true, decide_eq_true_eq, Bool.not_eq_true', decide_eq_false_iff_not]
  exact ⟨⟨⟨⟨tcb, fn⟩, stack⟩, words⟩, priority⟩

/-- A valid creation of a fresh task goes through. -/
theorem Placement.taskCreate_spec (valid : place.Valid) {t : TaskId} {words : UInt32} {priority : Nat}
    (member : (t, place.creation t words priority) ∈ place.creations main)
    (list : priority ∈ b.readyLists) (free : b.sched.links.ring t = none) :
    ∃ sched, Created b.sched t priority sched ∧
      place.taskCreate b t words priority = some { b with
        sched
        cpu := { b.cpu with
          memory := ((place.creation t words priority).taskCreate place.taskExitTrap b.cpu.memory).2 }
        created := b.created ++ [(t, place.creation t words priority)] } := by
  obtain ⟨tcb, fn, stack⟩ := valid.nonnull _ member
  have accepted := valid.accepted member
  let args : TaskArgs := ⟨some t, place.fn t, place.stack t, words, priority⟩
  have checked : args.valid = true := by
    simp only [Creation.accepted, Bool.and_eq_true, decide_eq_true_eq, Bool.not_eq_true',
      decide_eq_false_iff_not] at accepted
    simp only [TaskArgs.valid, Bool.and_eq_true, decide_eq_true_eq]
    exact ⟨⟨⟨fn, stack⟩, UInt32.not_lt.mp accepted.1.2⟩, accepted.2⟩
  obtain ⟨st, sched, made⟩ := taskCreate_defined (a := args) rfl free
  obtain ⟨rfl, created⟩ := taskCreate_of_valid checked rfl made
  refine ⟨sched, created, ?_⟩
  simp only [taskCreate, list, if_true, accepted]
  rw [if_neg tcb]
  change (b.sched.taskCreate args).bind _ = _
  rw [made]
  rfl

namespace Boot

/-- `q` waits in its ready list. -/
def Waits (b : Boot) (q : TaskId × Creation) : Prop :=
  (b.sched.tcb q.1).state = .ready ∧ b.sched.links.ring q.1 = some (.ready q.2.priority)

/-- What the executed statements have led to, when no tick came. -/
structure OnTrack (place : Placement) (executed : List Statement) (b : Boot) : Prop where
  program : main = executed ++ b.rest
  thread : b.cpu.onPsp = false
  unset : b.pspSet = false
  lists : ∀ i, .initReadyList i ∈ executed → i ∈ b.readyLists
  created : b.created = place.creations executed
  frames : ∀ p ∈ b.created, Suspended b.cpu.memory p.2 (p.2.initial place.taskExitTrap)
  linked : ∀ t h, b.sched.links.ring t = some h → ∃ p ∈ b.created, p.1 = t
  indexed : Indexed b.sched
  waiting : .selectNext ∉ executed → ∀ p ∈ b.created, b.Waits p
  chosen : .selectNext ∈ executed → ∃ p ∈ b.created, b.sched.next = some p.1 ∧ b.cpu.nextTcb = p.2.tcb ∧
    (b.sched.tcb p.1).state = .running ∧ ∀ q ∈ b.created, q.1 ≠ p.1 → b.Waits q
  idle : .setCurrent ∉ executed → b.sched.current = none ∧ b.cpu.currentTcb = 0
  current : .setCurrent ∈ executed → .selectNext ∈ executed ∧ b.sched.current = b.sched.next ∧
    b.cpu.currentTcb = b.cpu.nextTcb

/-- A statement that creates and selects nothing leaves the tasks alone. -/
structure Undisturbed (b b' : Boot) : Prop where
  thread : b'.cpu.onPsp = b.cpu.onPsp
  memory : b'.cpu.memory = b.cpu.memory
  currentTcb : b'.cpu.currentTcb = b.cpu.currentTcb
  unset : b'.pspSet = b.pspSet
  created : b'.created = b.created
  tcb : b'.sched.tcb = b.sched.tcb
  links : b'.sched.links = b.sched.links
  current : b'.sched.current = b.sched.current
  lists : ∀ i ∈ b.readyLists, i ∈ b'.readyLists

namespace OnTrack

theorem passive (track : OnTrack place executed b) (program : b.rest = s :: b'.rest)
    (creates : s.creation place = none) (select : s ≠ .selectNext) (set : s ≠ .setCurrent)
    (same : Undisturbed b b') (initialised : ∀ i, s = .initReadyList i → i ∈ b'.readyLists)
    (next : .selectNext ∈ executed → b'.sched.next = b.sched.next ∧ b'.cpu.nextTcb = b.cpu.nextTcb)
    (indexed : Indexed b'.sched) : OnTrack place (executed ++ [s]) b' := by
  have waits : ∀ p, b'.Waits p ↔ b.Waits p := by
    intro p
    simp only [Waits, same.tcb, same.links]
  have notSelect : (.selectNext ∈ executed ++ [s]) ↔ .selectNext ∈ executed := by
    simp [Ne.symm select]
  have notSet : (.setCurrent ∈ executed ++ [s]) ↔ .setCurrent ∈ executed := by
    simp [Ne.symm set]
  refine ⟨?_, ?_, ?_, ?_, ?_, ?_, ?_, indexed, ?_, ?_, ?_, ?_⟩
  · rw [track.program, program, List.append_assoc]
    rfl
  · rw [same.thread, track.thread]
  · rw [same.unset, track.unset]
  · intro i member
    rcases List.mem_append.mp member with earlier | last
    · exact same.lists i (track.lists i earlier)
    · exact initialised i (List.mem_singleton.mp last).symm
  · rw [same.created, track.created, Placement.creations, Placement.creations, List.filterMap_append]
    simp [creates]
  · rw [same.created, same.memory]
    exact track.frames
  · rw [same.created, same.links]
    exact track.linked
  · simp only [notSelect, same.created, waits]
    exact track.waiting
  · simp only [notSelect, same.created, same.tcb, waits]
    intro selected
    rw [(next selected).1, (next selected).2]
    exact track.chosen selected
  · simp only [notSet, same.current, same.currentTcb]
    exact track.idle
  · simp only [notSet, notSelect, same.current, same.currentTcb]
    intro set
    obtain ⟨selected, current⟩ := track.current set
    rw [(next selected).1, (next selected).2]
    exact ⟨selected, current⟩

/-- A creation joins a task to those that wait. -/
theorem creates (valid : place.Valid) (track : OnTrack place executed b) {t : TaskId} {words : UInt32}
    {priority : Nat} (program : b.rest = s :: rest)
    (creates : s.creation place = some (t, place.creation t words priority))
    (list : .initReadyList priority ∈ executed) (fresh : t ∉ executed.filterMap Statement.names)
    (early : .selectNext ∉ executed) (regs : Reg → Word) :
    ∃ b₁, place.taskCreate b t words priority = some b₁ ∧
      OnTrack place (executed ++ [s]) { b₁ with cpu := { b₁.cpu with regs }, rest } := by
  have split : main = (executed ++ [s]) ++ rest := by
    rw [track.program, program, List.append_assoc]
    rfl
  have within : ∀ p ∈ place.creations (executed ++ [s]), p ∈ place.creations main := by
    intro p member
    rw [split]
    simp only [Placement.creations, List.filterMap_append, List.mem_append] at member ⊢
    exact .inl member
  have extended : place.creations (executed ++ [s]) = b.created ++ [(t, place.creation t words priority)] := by
    rw [track.created]
    simp [Placement.creations, List.filterMap_append, creates]
  have member : (t, place.creation t words priority) ∈ place.creations main :=
    within _ (by simp [extended])
  have unnamed : ∀ p ∈ b.created, p.1 ≠ t := by
    intro p listed same
    exact fresh (mem_names.mpr ⟨p, track.created ▸ listed, same⟩)
  have free : b.sched.links.ring t = none := by
    apply Option.eq_none_iff_forall_ne_some.mpr
    intro h threaded
    obtain ⟨p, listed, same⟩ := track.linked t h threaded
    exact unnamed p listed same
  obtain ⟨sched, made, result⟩ := Placement.taskCreate_spec valid member (track.lists _ list) free
  have notSelect : .selectNext ∉ executed ++ [s] := by
    intro listed
    rcases List.mem_append.mp listed with earlier | last
    · exact early earlier
    · cases List.mem_singleton.mp last
      cases creates
  have notSet : .setCurrent ∉ executed ++ [s] := by
    intro listed
    rcases List.mem_append.mp listed with earlier | last
    · exact early (track.current earlier).1
    · cases List.mem_singleton.mp last
      cases creates
  refine ⟨_, result, split, track.thread, track.unset, ?_, extended.symm, ?_, ?_, track.indexed.created made, ?_,
    fun selected => absurd selected notSelect, ?_, fun set => absurd set notSet⟩
  · intro i listed
    rcases List.mem_append.mp listed with earlier | last
    · exact track.lists i earlier
    · cases List.mem_singleton.mp last
      cases creates
  · have laid := valid.laid
    have second := List.mem_map_of_mem (f := Prod.snd) member
    obtain ⟨framed, elsewhere⟩ := Creation.taskCreate_spec place.taskExitTrap b.cpu.memory
      (valid.accepted member) (laid.fits _ second) (laid.apart _ second _ second)
    intro p listed
    rcases List.mem_append.mp listed with earlier | last
    · by_cases same : p.2 = place.creation t words priority
      · rw [same]
        exact framed.suspended
      · have first : p.2 ∈ (place.creations main).map Prod.snd :=
          List.mem_map_of_mem (within p (extended ▸ listed))
        exact laid.keeps first second same (track.frames p earlier) elsewhere
    · cases List.mem_singleton.mp last
      exact framed.suspended
  · intro u h threaded
    dsimp only at threaded ⊢
    rw [made.ring] at threaded
    by_cases same : u = t
    · exact ⟨_, List.mem_append_right _ (List.mem_singleton_self _), same.symm⟩
    · rw [Function.update_of_ne same] at threaded
      obtain ⟨p, listed, named⟩ := track.linked u h threaded
      exact ⟨p, List.mem_append_left _ listed, named⟩
  · intro _ p listed
    simp only [Waits, made.tcb, made.ring]
    rcases List.mem_append.mp listed with earlier | last
    · rw [Function.update_of_ne (unnamed p earlier), Function.update_of_ne (unnamed p earlier)]
      exact track.waiting early p earlier
    · cases List.mem_singleton.mp last
      rw [Function.update_self, Function.update_self]
      exact ⟨rfl, rfl⟩
  · intro _
    exact ⟨made.current.trans (track.idle fun set => notSet (List.mem_append_left _ set)).1,
      (track.idle fun set => notSet (List.mem_append_left _ set)).2⟩

/-- The selection takes one task off its list; it is not yet the current one. -/
theorem selects (track : OnTrack place executed b) (program : b.rest = .selectNext :: rest)
    (early : .selectNext ∉ executed) (unset : .setCurrent ∉ executed)
    (nonempty : executed.filterMap Statement.names ≠ []) (regs : Reg → Word) :
    ∃ b₁, place.execute b .selectNext = some b₁ ∧
      OnTrack place (executed ++ [.selectNext]) { b₁ with cpu := { b₁.cpu with regs }, rest } := by
  have split : main = (executed ++ [.selectNext]) ++ rest := by
    rw [track.program, program, List.append_assoc]
    rfl
  have idle := track.idle unset
  have requeued : b.sched.requeueCurrent = some b.sched := by
    simp [requeueCurrent, idle.1]
  obtain ⟨t, named⟩ := List.exists_mem_of_ne_nil _ nonempty
  obtain ⟨p, listed, _⟩ := mem_names.mp named
  have waits := track.waiting early p (track.created ▸ listed)
  obtain ⟨u, sched, selected⟩ := track.indexed.select_defined requeued waits.2
  obtain ⟨middle, others, requeued', _, shape, picked⟩ := selectNext_spec selected
  obtain rfl := Option.some.inj (requeued.symm.trans requeued')
  obtain ⟨q, chosen, rfl⟩ := track.linked u _ (Rings.ring_of_cons shape)
  have elsewhere : ∀ v ∈ b.created, v.1 ≠ q.1 → (sched.tcb v.1).state = .ready ∧
      sched.links.ring v.1 = some (.ready v.2.priority) := by
    intro v member other
    rw [picked.tcb, picked.links, Rings.remove_ring, Function.update_of_ne other, Function.update_of_ne other]
    exact track.waiting early v member
  have result : place.execute b .selectNext =
      some { b with sched, cpu := { b.cpu with nextTcb := place.tcb q.1 } } := by
    simp [Placement.execute, selected]
  refine ⟨_, result, split, track.thread, track.unset, ?_, ?_,
    track.frames, ?_, track.indexed.selected picked, ?_, ?_, ?_, ?_⟩
  · intro i member
    exact track.lists i (by simpa using member)
  · rw [track.created]
    simp [Placement.creations, List.filterMap_append, Statement.creation]
  · intro v h threaded
    dsimp only at threaded
    rw [picked.links, Rings.remove_ring] at threaded
    by_cases same : v = q.1
    · rw [same, Function.update_self] at threaded
      cases threaded
    · rw [Function.update_of_ne same] at threaded
      exact track.linked v h threaded
  · intro unselected
    exact absurd (by simp) unselected
  · intro _
    refine ⟨q, chosen, selectNext_next selected, ?_, ?_, elsewhere⟩
    · obtain ⟨s, _, creates⟩ := List.mem_filterMap.mp (track.created ▸ chosen)
      exact (names_of_creation creates).2.symm
    · dsimp only
      rw [picked.tcb, Function.update_self]
  · intro _
    exact ⟨picked.rest.current.trans idle.1, idle.2⟩
  · intro set
    exact absurd (by simpa using set) unset

/-- The selected task becomes the current one. -/
theorem sets (track : OnTrack place executed b) (program : b.rest = .setCurrent :: rest)
    (selected : .selectNext ∈ executed) (regs : Reg → Word) :
    ∃ b₁, place.execute b .setCurrent = some b₁ ∧
      OnTrack place (executed ++ [.setCurrent]) { b₁ with cpu := { b₁.cpu with regs }, rest } := by
  have split : main = (executed ++ [.setCurrent]) ++ rest := by
    rw [track.program, program, List.append_assoc]
    rfl
  have notSelect : (.selectNext ∈ executed ++ [.setCurrent]) ↔ .selectNext ∈ executed := by simp
  refine ⟨_, rfl, split, track.thread, track.unset, ?_, ?_, track.frames, track.linked,
    track.indexed.congr rfl rfl rfl, ?_, ?_, ?_, ?_⟩
  · intro i member
    exact track.lists i (by simpa using member)
  · rw [track.created]
    simp [Placement.creations, List.filterMap_append, Statement.creation]
  · intro unselected
    exact absurd (notSelect.mpr selected) unselected
  · intro _
    exact track.chosen selected
  · intro unset
    exact absurd (by simp) unset
  · intro _
    exact ⟨notSelect.mpr selected, rfl, rfl⟩

/-- A statement that is neither of these changes nothing that matters. -/
theorem others (track : OnTrack place executed b) (program : b.rest = s :: rest)
    (enabled : s.Enabled executed) (creates : s.creation place = none) (select : s ≠ .selectNext)
    (set : s ≠ .setCurrent) (regs : Reg → Word) :
    ∃ b₁, place.execute b s = some b₁ ∧
      OnTrack place (executed ++ [s]) { b₁ with cpu := { b₁.cpu with regs }, rest } := by
  cases s with
  | initReadyList i =>
    refine ⟨_, rfl, track.passive program creates select set ?_ ?_ (fun _ => ⟨rfl, rfl⟩) track.indexed⟩
    · exact ⟨rfl, rfl, rfl, rfl, rfl, rfl, rfl, rfl, fun j member => List.mem_cons_of_mem _ member⟩
    · intro j equal
      cases equal
      exact List.mem_cons_self
  | initDelayedList | clearTickCount | psSharedInit | enableInterrupts =>
    refine ⟨_, rfl, track.passive program creates select set ?_ nofun (fun _ => ⟨rfl, rfl⟩) ?_⟩
    · exact ⟨rfl, rfl, rfl, rfl, rfl, rfl, rfl, rfl, fun _ => id⟩
    · exact track.indexed.congr rfl rfl rfl
  | clearBitmap =>
    refine ⟨_, rfl, track.passive program creates select set ?_ nofun (fun _ => ⟨rfl, rfl⟩) ?_⟩
    · exact ⟨rfl, rfl, rfl, rfl, rfl, rfl, rfl, rfl, fun _ => id⟩
    · refine ⟨track.indexed.listed, track.indexed.bounded, track.indexed.base, ?_⟩
      have empty : ∀ t h, b.sched.links.ring t ≠ some h := by
        intro t h threaded
        obtain ⟨p, listed, named⟩ := track.linked t h threaded
        have member := mem_names.mpr ⟨p, track.created ▸ listed, named⟩
        rw [enabled] at member
        cases member
      intro p _
      simp [empty]
  | clearCurrent =>
    obtain ⟨current, currentTcb⟩ := track.idle enabled.2
    refine ⟨_, rfl, track.passive program creates select set ?_ nofun (fun _ => ⟨rfl, rfl⟩) ?_⟩
    · exact ⟨rfl, rfl, currentTcb.symm, rfl, rfl, rfl, rfl, current.symm, fun _ => id⟩
    · exact track.indexed.congr rfl rfl rfl
  | clearNext =>
    refine ⟨_, rfl, track.passive program creates select set ?_ nofun (fun selected => absurd selected enabled) ?_⟩
    · exact ⟨rfl, rfl, rfl, rfl, rfl, rfl, rfl, rfl, fun _ => id⟩
    · exact track.indexed.congr rfl rfl rfl
  | taskCreate t words priority => cases creates
  | timerServiceStart priority words => cases creates
  | selectNext => exact absurd rfl select
  | setCurrent => exact absurd rfl set

theorem statement (valid : place.Valid) (track : OnTrack place executed b) (program : b.rest = s :: rest)
    (regs : Reg → Word) :
    ∃ b₁, place.execute b s = some b₁ ∧
      OnTrack place (executed ++ [s]) { b₁ with cpu := { b₁.cpu with regs }, rest } := by
  have enabled := enabled_of_split (track.program.trans (congrArg _ program))
  cases s with
  | taskCreate t words priority =>
    obtain ⟨list, fresh, early⟩ := enabled
    exact track.creates valid program rfl list fresh early regs
  | timerServiceStart priority words =>
    obtain ⟨list, fresh, early⟩ := enabled
    exact track.creates valid program rfl list fresh early regs
  | selectNext =>
    obtain ⟨early, unset, nonempty⟩ := enabled
    exact track.selects program early unset nonempty regs
  | setCurrent => exact track.sets program enabled regs
  | _ => exact track.others program enabled rfl nofun nofun regs

end OnTrack
end Boot

/-! ### A tick during the boot -/

/-- PendSV taken while no task is current returns to the boot code with the
callee-saved registers of the selected task. -/
theorem pendSvHandler_boot {t : Creation} {context : Context} {k : Nat} (boot : c.onPsp = false)
    (none : c.currentTcb = 0) (frame : Frame c.memory t context k) :
    pendSvHandler (fun c => some { c with nextTcb := t.tcb }) c.exceptionEntry = some { c with
      regs := fun r => if r ∈ calleeSaved then context.regs r else c.regs r
      psp := above wordBytes t.stackBase (k + 8)
      currentTcb := t.tcb
      nextTcb := t.tcb } := by
  have entered : c.exceptionEntry = (c.pushMain hardwareSaved).set .lr excReturnMsp := by
    simp [Cpu.exceptionEntry, boot]
  let o : Cpu := (((c.pushMain hardwareSaved).set .lr excReturnMsp).set .r0 c.psp).set .r2 0
  have skipped : saveOutgoing c.exceptionEntry = o := by
    simp [saveOutgoing, entered, Cpu.pushMain, none, o]
  let f : Cpu := { o with nextTcb := t.tcb }
  have popped : ({ o.pushMain [.r3, .lr] with nextTcb := t.tcb } : Cpu).popMain [.r3, .lr] = some f := by
    rw [Cpu.popMain_append (by decide) rfl]
    simp [f, Cpu.pushMain]
  have handled : pendSvHandler (fun c => some { c with nextTcb := t.tcb }) c.exceptionEntry =
      restoreIncoming f := by
    simp only [pendSvHandler, skipped, Option.bind_eq_bind, Option.bind_some, popped]
  let d : Cpu := { f.set .r2 t.tcb with currentTcb := t.tcb }.set .r0 (c.memory t.tcb)
  have pointed : d.regs .r0 = above wordBytes t.stackBase k := frame.pointer
  obtain ⟨top, loaded, others⟩ := Cpu.ldmia_frame (c := d) frame pointed (by decide)
  let e : Cpu := { d.ldmia .r0 calleeSaved with psp := (d.ldmia .r0 calleeSaved).regs .r0 }
  have restored : restoreIncoming f = e.exceptionReturn (e.regs .lr) := rfl
  have link : e.regs .lr = excReturnMsp := others .lr (by decide) (by decide)
  have stacked : e.mainStack = hardwareSaved.map c.regs ++ c.mainStack := rfl
  rw [handled, restored, link, Cpu.exceptionReturn, if_neg (by decide), if_pos rfl,
    Cpu.popMain_append hardwareSaved_nodup stacked]
  have regs : (fun r => if r ∈ hardwareSaved then c.regs r else e.regs r) =
      fun r => if r ∈ calleeSaved then context.regs r else c.regs r := by
    funext r
    by_cases callee : r ∈ calleeSaved
    · have scratch : r ∉ hardwareSaved := by revert callee; cases r <;> decide
      rw [if_neg scratch, if_pos callee]
      exact loaded r callee
    · rw [if_pos ((mem_frameRegisters r).resolve_left callee), if_neg callee]
  simp only [Option.map_some, regs]
  rw [← boot, ← top]
  rfl

namespace Boot.OnTrack

theorem created_main (track : OnTrack place executed b) {p : TaskId × Creation} (listed : p ∈ b.created) :
    p ∈ place.creations main ∧ p.2.tcb = place.tcb p.1 := by
  rw [track.created] at listed
  constructor
  · rw [track.program, Placement.creations, List.filterMap_append]
    exact List.mem_append_left _ listed
  · obtain ⟨s, _, creates⟩ := List.mem_filterMap.mp listed
    exact (names_of_creation creates).2

/-- A task the scheduler selects after a tick is one of the created ones. -/
theorem selected_created (track : OnTrack place executed b) (idle : b.sched.current = none) {t : TaskId}
    {ticked sched : Sched} (tick : b.sched.tick = some ticked) (selected : ticked.selectNext = some (t, sched)) :
    ∃ p ∈ b.created, p.1 = t := by
  have scanned := tick_spec tick
  obtain ⟨middle, rest, requeued, _, shape, _⟩ := selectNext_spec selected
  have same : middle = ticked := by
    rcases requeueCurrent_spec requeued with ⟨c, current, _⟩ | ⟨_, same⟩
    · rw [scanned.rest.current] at current
      cases idle.symm.trans current
    · exact same
  have threaded := Rings.ring_of_cons shape
  rw [same, scanned.ring] at threaded
  split at threaded
  · rename_i expired
    exact track.linked t _ (mem_expired.mp expired).1
  · exact track.linked t _ threaded

/-- A tick taken while no task is current leaves the boot code with the
callee-saved registers of a task that has never run. -/
theorem tick_loads (track : OnTrack place executed b) (idle : b.sched.current = none)
    (none : b.cpu.currentTcb = 0) (ticked : place.tick b = some b') :
    ∃ p : TaskId × Creation, ∀ r ∈ calleeSaved, b'.cpu.regs r = (p.2.initial place.taskExitTrap).regs r := by
  simp only [Placement.tick, Placement.sysTick, Placement.pendSV, Option.bind_eq_bind] at ticked
  split at ticked
  · simp only [Option.bind_assoc, Option.bind_some, Option.bind_eq_some_iff] at ticked
    obtain ⟨sched, tick, ⟨t, sched'⟩, selected, cpu, handled, result⟩ := ticked
    obtain ⟨p, listed, rfl⟩ := track.selected_created idle tick selected
    obtain ⟨k, frame⟩ := track.frames p listed
    rw [← (track.created_main listed).2, pendSvHandler_boot track.thread none frame] at handled
    cases handled
    cases result
    refine ⟨p, ?_⟩
    intro r callee
    exact if_pos callee
  · cases ticked

/-- No tick is harmless: it finds `delayed_list` uninitialised or no task to
select, or it loads the boot code's registers from a task's frame, or it saves
them through a PSP nobody set. -/
theorem harmful (valid : place.Valid) (track : OnTrack place executed b) (zero : b.cpu.regs .r4 = 0) :
    ¬ Harmless place b := by
  rintro ⟨pointer, test⟩
  obtain ⟨b', ticked, kept⟩ := (Option.any_eq_true _ _).mp test
  have none : b.cpu.currentTcb = 0 := by
    by_contra current
    have := pointer current
    rw [track.unset] at this
    cases this
  have unset : .setCurrent ∉ executed := by
    intro set
    obtain ⟨selected, _, current⟩ := track.current set
    obtain ⟨p, listed, _, next, _⟩ := track.chosen selected
    rw [current, next] at none
    exact (valid.nonnull p (track.created_main listed).1).1 none
  obtain ⟨p, loaded⟩ := track.tick_loads (track.idle unset).1 none ticked
  have poison := loaded .r4 (by decide)
  have same : b'.cpu.regs .r4 = b.cpu.regs .r4 := by
    simpa using List.all_eq_true.mp kept .r4 (by decide)
  rw [same, zero] at poison
  exact absurd poison (by decide : (0 : Word) ≠ 0x04040404)

/-- At the end of the boot code all is as SVC_Handler needs it. -/
theorem ready (track : OnTrack place executed b) (finished : b.rest = []) : ReadyToStart place b := by
  have whole : executed = main := by
    rw [track.program, finished, List.append_nil]
  have selected : .selectNext ∈ executed := by
    rw [whole]
    decide
  have set : .setCurrent ∈ executed := by
    rw [whole]
    decide
  obtain ⟨p, listed, next, nextTcb, running, others⟩ := track.chosen selected
  obtain ⟨_, current, currentTcb⟩ := track.current set
  refine ⟨track.frames, p, listed, current.trans next, currentTcb.trans nextTcb, ?_⟩
  intro q member
  by_cases same : q.1 = p.1
  · simp [same, running]
  · obtain ⟨ready, threaded⟩ := others q member same
    simp [same, ready, b.sched.links.mem_items, threaded]

/-- The boot code goes on by its next statement. -/
theorem step_statement (valid : place.Valid) (left : Nat → Reg → Word) (track : OnTrack place executed b)
    (program : b.rest = s :: rest) :
    ∃ b', b.step place left .statement = some b' ∧ b'.rest = rest ∧ OnTrack place (executed ++ [s]) b' ∧
      b'.cpu.regs = left rest.length := by
  obtain ⟨b₁, ran, next⟩ := track.statement valid program (left rest.length)
  exact ⟨_, by simp only [step, program, ran]; rfl, rfl, next, rfl⟩

/-- Without ticks the boot code runs to its end. -/
theorem runs (valid : place.Valid) (left : Nat → Reg → Word) {schedule : List Moment}
    (track : OnTrack place executed b) (tickless : .tick ∉ schedule) (length : schedule.length = b.rest.length) :
    ∃ b', exec (step place left) (Unharmed place) b schedule = some b' ∧ b'.rest = [] ∧
      ReadyToStart place b' := by
  induction schedule generalizing executed b with
  | nil =>
    have finished := List.eq_nil_of_length_eq_zero length.symm
    exact ⟨b, rfl, finished, track.ready finished⟩
  | cons m schedule ih =>
    obtain ⟨s, rest, program⟩ := List.exists_cons_of_length_pos (Nat.lt_of_lt_of_eq (Nat.succ_pos _) length)
    have statement : m = .statement := by
      cases m with
      | statement => rfl
      | tick => exact absurd List.mem_cons_self tickless
    subst statement
    obtain ⟨b₁, stepped, shorter, next, _⟩ := track.step_statement valid left program
    have shorter' : schedule.length = b₁.rest.length := by
      rw [shorter]
      simpa [program] using length
    obtain ⟨b', ran, finished⟩ := ih next (fun listed => tickless (List.mem_cons_of_mem _ listed)) shorter'
    refine ⟨b', ?_, finished⟩
    have unharmed : Unharmed place b .statement := by
      intro ticked
      cases ticked
    rw [exec, if_pos unharmed, stepped]
    exact ran

/-- A boot with cleared registers that is not harmed has met no tick. -/
theorem no_tick (valid : place.Valid) {schedule : List Moment} (track : OnTrack place executed b)
    (zero : b.cpu.regs .r4 = 0) (ran : exec (step place fun _ _ => 0) (Unharmed place) b schedule = some b') :
    .tick ∉ schedule := by
  induction schedule generalizing executed b with
  | nil => exact List.not_mem_nil
  | cons m schedule ih =>
    rw [exec] at ran
    split at ran
    · rename_i unharmed
      obtain ⟨b₁, stepped, further⟩ := Option.bind_eq_some_iff.mp ran
      cases m with
      | tick => exact absurd (unharmed rfl) (track.harmful valid zero)
      | statement =>
        cases program : b.rest with
        | nil => simp [step, program] at stepped
        | cons s rest =>
          obtain ⟨b₂, stepped', _, next, regs⟩ := track.step_statement valid (fun _ _ => 0) program
          obtain rfl := Option.some.inj (stepped.symm.trans stepped')
          simpa using ih next (by rw [regs]) further
    · cases ran

end Boot.OnTrack

namespace Boot

theorem atMain_onTrack (place : Placement) (c : Cpu) : OnTrack place [] (atMain c) where
  program := rfl
  thread := rfl
  unset := rfl
  lists := by simp
  created := rfl
  frames := by simp [atMain]
  linked := by simp [atMain, Sched.blank]
  indexed := indexed_blank
  waiting := by simp [atMain]
  chosen := by simp
  idle _ := ⟨rfl, rfl⟩
  current := by simp

/-- The boot is safe exactly when no SysTick arrives before the `svc`. -/
theorem boots_safely_iff (valid : place.Valid) {schedule : List Moment}
    (complete : schedule.count .statement = main.length) :
    BootsSafely place schedule ↔ .tick ∉ schedule := by
  constructor
  · intro safely
    obtain ⟨b, ran, _⟩ := safely ⟨fun _ => 0, 0, false, [], fun _ => 0, 0, 0⟩ fun _ _ => 0
    exact (atMain_onTrack place _).no_tick valid rfl ran
  · intro tickless c left
    have length : schedule.length = main.length := by
      rw [← complete]
      refine (List.count_eq_length.mpr ?_).symm
      intro m listed
      cases m with
      | statement => rfl
      | tick => exact absurd listed tickless
    exact (atMain_onTrack place c).runs valid left tickless length

/-- TCBs of 128 bytes from the start of the RAM, and a kilobyte for each stack. -/
def board : Placement where
  tcb t := 0x20000000 + 128 * UInt32.ofNat t
  fn t := 0x08001001 + 16 * UInt32.ofNat t
  stack t := 0x20001000 + 1024 * UInt32.ofNat t
  taskExitTrap := 0x08000801

theorem board_valid : board.Valid where
  nonnull := by decide
  laid := .of_ranges (by decide) (by decide) (by decide) (by decide)

theorem boots_safely_untouched : BootsSafely board (List.replicate main.length .statement) :=
  (boots_safely_iff board_valid List.count_replicate_self).mpr (by simp)

/-- One tick right after nimble_scheduler_init, when only the idle task exists. -/
def tickAfterInit : List Moment :=
  List.replicate schedulerInit.length .statement ++ .tick ::
    List.replicate (main.length - schedulerInit.length) .statement

/-- The tick leaves `main` with the idle task's r4, and the idle task RUNNING. -/
theorem tickAfterInit_harms : ¬ BootsSafely board tickAfterInit ∧
    (exec (step board fun _ _ => 0) Free (atMain cleared)
        (tickAfterInit.take (schedulerInit.length + 1))).map (fun b => (b.cpu.regs .r4, b.sched.current)) =
      some (0x04040404, some idle) := by
  constructor
  · intro safely
    obtain ⟨b, ran, _⟩ := safely cleared fun _ _ => 0
    exact absurd (by simp [tickAfterInit]) ((atMain_onTrack board cleared).no_tick board_valid rfl ran)
  · decide +kernel

end Boot
end NimbleRtos.Port
