import NimbleRtos.HeapLists
import NimbleRtos.SchedulerProofs

/-! scheduler.c and task.c once more, on the list nodes in memory: every list
operation is the pointer writes of nimble_list.h, every TCB is found from one of
its nodes, and a loop over a list takes a bound. Each function refines the one
that works on rings. -/
namespace NimbleRtos
open LinkedCells LinkedCells.Cells NodeRings IntrusiveList SerialTime Refinement Sched

/-- The globals of scheduler.c and every TCB, over the nodes in memory. -/
structure HeapSched where
  tcb : TaskId → Tcb
  cells : Cells Place
  readyBitmap : BitVec 32
  tickCount : Tick
  current : Option TaskId
  next : Option TaskId

namespace HeapSched

def setTcb (s : HeapSched) (t : TaskId) (x : Tcb) : HeapSched :=
  { s with tcb := Function.update s.tcb t x }

def setState (s : HeapSched) (t : TaskId) (state : TaskState) : HeapSched :=
  s.setTcb t { s.tcb t with state }

def setPriority (s : HeapSched) (t : TaskId) (priority : Nat) : HeapSched :=
  s.setTcb t { s.tcb t with priority }

/-- `&ready_lists[priority]`; no result outside the array. -/
def readyList (priority : Nat) : Option Place :=
  if priority < maxPriorities then some (.readyList priority) else none

/-- `nimble_scheduler_add_ready`. -/
def addReady (s : HeapSched) (t : TaskId) : Option HeapSched := do
  let s := s.setState t .ready
  let list ← readyList (s.tcb t).priority
  let s := { s with cells := insertTail s.cells list (.link t) }
  some { s with readyBitmap := s.readyBitmap ||| (1#32 <<< (s.tcb t).priority) }

/-- `nimble_scheduler_remove`. -/
def remove (s : HeapSched) (t : TaskId) : Option HeapSched := do
  let prio := (s.tcb t).priority
  let s := { s with cells := IntrusiveList.remove s.cells (.link t) }
  let list ← readyList prio
  if isEmpty s.cells list then some { s with readyBitmap := s.readyBitmap &&& ~~~(1#32 <<< prio) }
  else some s

/-- `nimble_scheduler_block_current_delay`. -/
def blockCurrentDelay (s : HeapSched) (t : TaskId) (wakeTick : Tick) : Option HeapSched := do
  let s ← s.remove t
  let s := s.setTcb t { s.tcb t with wakeTick, state := .blocked }
  some { s with cells := insertTail s.cells .delayedList (.link t) }

/-- `nimble_scheduler_prepare_block`. -/
def prepareBlock (s : HeapSched) (t : TaskId) (timeoutTicks : Tick) : Option HeapSched := do
  let s ← s.remove t
  let s := s.setState t .blocked
  if timeoutTicks ≠ waitForever then
    let s := s.setTcb t { s.tcb t with wakeTick := s.tickCount + timeoutTicks }
    some { s with cells := insertTail s.cells .delayedList (.link t) }
  else some s

/-- `nimble_scheduler_wake_waiter`. -/
def wakeWaiter (s : HeapSched) (waitList : WaitList) : Option (Option TaskId × HeapSched) :=
  if isEmpty s.cells (.waiters waitList) then some (none, s)
  else do
    let t ← (s.cells.next (.waiters waitList)).eventTask
    let s := { s with cells := IntrusiveList.remove s.cells (.eventLink t) }
    let s := { s with cells := IntrusiveList.remove s.cells (.link t) }
    let s := s.setTcb t { s.tcb t with lastWaitResult := .ok }
    let s ← s.addReady t
    some (some t, s)

/-- The priority of the TCB around an `event_link`. -/
def waiterPriority (s : HeapSched) (node : Place) : Nat :=
  (node.eventTask.map fun other => (s.tcb other).priority).getD 0

/-- `insert_waiter_priority_sorted`. -/
def insertWaiterPrioritySorted (s : HeapSched) (fuel : Nat) (waiters : WaitList) (t : TaskId) :
    Option HeapSched := do
  let cells ← insertBeforeLower s.cells s.waiterPriority fuel (.waiters waiters) (.eventLink t)
  some { s with cells }

/-- The first statement of `nimble_scheduler_select_next`. -/
def requeueCurrent (s : HeapSched) : Option HeapSched :=
  match s.current with
  | some c => if (s.tcb c).state = .running then s.addReady c else some s
  | none => some s

/-- `nimble_scheduler_select_next`; `__builtin_clz(0)` has no result, and
neither has a list head taken for a TCB. -/
def selectNext (s : HeapSched) : Option (TaskId × HeapSched) := do
  let s ← s.requeueCurrent
  if s.readyBitmap = 0 then none
  else do
    let node := s.cells.next (.readyList (Sched.highestSetBit s.readyBitmap))
    let next ← node.linkTask
    let s ← s.remove next
    let s := s.setState next .running
    some (next, { s with next := some next })

/-- The loop of `nimble_scheduler_tick` from `node` on, with the tasks it wakes. -/
def tickScan : Nat → Place → HeapSched → Option (List TaskId × HeapSched)
  | 0, _, _ => none
  | fuel + 1, node, s =>
    if node = .delayedList then some ([], s)
    else do
      let nextNode := s.cells.next node
      let t ← node.linkTask
      if reached s.tickCount (s.tcb t).wakeTick then do
        let s := { s with cells := IntrusiveList.remove s.cells (.link t) }
        let s := { s with cells := IntrusiveList.remove s.cells (.eventLink t) }
        let s := s.setTcb t { s.tcb t with lastWaitResult := .timeout }
        let s ← s.addReady t
        let (woken, s) ← tickScan fuel nextNode s
        some (t :: woken, s)
      else tickScan fuel nextNode s

/-- `nimble_scheduler_tick` up to its context-switch request. -/
def tick (s : HeapSched) (fuel : Nat) : Option (List TaskId × HeapSched) :=
  let s := { s with tickCount := s.tickCount + 1 }
  tickScan fuel (s.cells.next .delayedList) s

/-- A switch to any ready task. -/
def dispatch (s : HeapSched) (t : TaskId) : Option HeapSched := do
  let s ← s.requeueCurrent
  if (s.tcb t).state = .ready then do
    let s ← s.remove t
    let s := s.setState t .running
    some { s with next := some t }
  else none

/-- `nimble_task_create`, less the stack frame and the name. -/
def taskCreate (s : HeapSched) (a : Sched.TaskArgs) : Option (Status × HeapSched) :=
  match a.tcb with
  | none => some (.invalidArg, s)
  | some t =>
    if a.fn = 0 ∨ a.stackBase = 0 then some (.invalidArg, s)
    else if a.stackWords < minStackWords then some (.invalidArg, s)
    else if maxPriorities ≤ a.priority then some (.invalidArg, s)
    else do
      let s := { s with cells := init s.cells (.link t) }
      let s := { s with cells := init s.cells (.eventLink t) }
      let s := s.setTcb t { priority := a.priority, basePriority := a.priority }
      let s ← s.addReady t
      some (.ok, s)

/-- `nimble_scheduler_init`, on memory `cells`. -/
def schedulerInit (cells : Cells Place) : Option HeapSched := do
  let cells := ((List.range maxPriorities).map Place.readyList).foldl init cells
  let cells := init cells .delayedList
  let (_, s) ← taskCreate ⟨fun _ => {}, cells, 0, 0, none, none⟩ Sched.idleArgs
  some s

/-- The critical section of `nimble_task_delay` for a non-zero count. -/
def taskDelay (s : HeapSched) (self : TaskId) (ticks : Tick) : Option HeapSched :=
  s.blockCurrentDelay self (s.tickCount + ticks)

/-- `nimble_task_suspend`, with whether the caller suspended itself. -/
def taskSuspend (s : HeapSched) (t : TaskId) : Option (Bool × HeapSched) :=
  if (s.tcb t).state = .ready ∨ (s.tcb t).state = .running then do
    let suspendingSelf := decide (s.current = some t)
    let s ← if (s.tcb t).state = .ready then s.remove t else some s
    some (suspendingSelf, s.setState t .suspended)
  else some (false, s)

/-- `nimble_task_resume`. -/
def taskResume (s : HeapSched) (t : TaskId) : Option HeapSched :=
  if (s.tcb t).state = .suspended then s.addReady t else some s

end HeapSched

/-! ## The refinement -/

/-- The scheduler with its lists in `m`. -/
def Sched.onHeap (s : Sched) (m : Cells Place) : HeapSched :=
  ⟨s.tcb, m, s.readyBitmap, s.tickCount, s.current, s.next⟩

section
variable (s : Sched) (m : Cells Place)

@[simp] theorem onHeap_tcb : (s.onHeap m).tcb = s.tcb := rfl
@[simp] theorem onHeap_cells : (s.onHeap m).cells = m := rfl
@[simp] theorem onHeap_bitmap : (s.onHeap m).readyBitmap = s.readyBitmap := rfl
@[simp] theorem onHeap_tick : (s.onHeap m).tickCount = s.tickCount := rfl
@[simp] theorem onHeap_current : (s.onHeap m).current = s.current := rfl

end

/-- `m` holds the lists of `s` and the active timers, both nodes of every
created TCB are initialised, and no priority is outside `ready_lists`. -/
structure Holds (live : Place → Prop) (active : Rings Unit TimerId) (m : Cells Place) (s : Sched) : Prop where
  lists : Lists live m s.links s.events active
  made : ∀ t, (s.tcb t).state ≠ .deleted → live (.link t)
  bounded : ∀ t, (s.tcb t).priority < maxPriorities
  base : ∀ t, (s.tcb t).basePriority < maxPriorities

/-- The scheduler on the heap is `s` with its lists in some memory that holds them. -/
def OnHeap (live : Place → Prop) (active : Rings Unit TimerId) (h : HeapSched) (s : Sched) : Prop :=
  ∃ m, h = s.onHeap m ∧ Holds live active m s

/-- The same, with more nodes initialised. -/
def GrowsOnHeap (live : Place → Prop) (active : Rings Unit TimerId) (h : HeapSched) (s : Sched) : Prop :=
  ∃ live', (∀ c, live c → live' c) ∧ OnHeap live' active h s

/-- The same result next to related states. -/
inductive Beside {A B X : Type} (R : A → B → Prop) : X × A → X × B → Prop where
  | mk (x : X) {a : A} {b : B} (related : R a b) : Beside R (x, a) (x, b)

namespace Holds
variable {live : Place → Prop} {active : Rings Unit TimerId} {m m' : Cells Place} {s s' : Sched} {t : TaskId}

/-- The lists and the TCBs are all that matters. -/
theorem congr (holds : Holds live active m s) (links : s'.links = s.links) (events : s'.events = s.events)
    (tcb : s'.tcb = s.tcb) : Holds live active m s' := by
  refine ⟨?_, ?_, ?_, ?_⟩
  · rw [links, events]
    exact holds.lists
  all_goals rw [tcb]
  · exact holds.made
  · exact holds.bounded
  · exact holds.base

theorem setTcb (holds : Holds live active m s) {x : Tcb} (alive : live (.link t))
    (priority : x.priority < maxPriorities) (base : x.basePriority < maxPriorities) :
    Holds live active m (s.setTcb t x) := by
  refine ⟨holds.lists, ?_, ?_, ?_⟩ <;> intro u <;> by_cases same : u = t
  · exact fun _ => same ▸ alive
  · simpa [same] using holds.made u
  · simpa [same] using priority
  · simpa [same] using holds.bounded u
  · simpa [same] using base
  · simpa [same] using holds.base u

/-- A TCB keeps its priorities when another of its fields is written. -/
theorem setState (holds : Holds live active m s) (alive : live (.link t)) (state : TaskState) :
    Holds live active m (s.setState t state) :=
  holds.setTcb alive (holds.bounded t) (holds.base t)

theorem setPriority (holds : Holds live active m s) {priority : Nat} (bound : priority < maxPriorities) :
    Holds live active m (s.setPriority t priority) := by
  refine ⟨holds.lists, ?_, ?_, ?_⟩ <;> intro u <;> by_cases same : u = t
  · simpa [Sched.setPriority, same] using holds.made t
  · simpa [Sched.setPriority, same] using holds.made u
  · simpa [Sched.setPriority, same] using bound
  · simpa [Sched.setPriority, same] using holds.bounded u
  · simpa [Sched.setPriority, same] using holds.base t
  · simpa [Sched.setPriority, same] using holds.base u

theorem readyList (holds : Holds live active m s) (t : TaskId) :
    HeapSched.readyList (s.tcb t).priority = some (.readyList (s.tcb t).priority) :=
  if_pos (holds.bounded t)

/-- A listed waiter has been created. -/
theorem waiter (holds : Holds live active m s) {h : WaitList} (listed : s.events.ring t = some h) :
    live (.link t) :=
  (holds.lists.paired t).mp (holds.lists.events.live_node listed)

/-- `nimble_list_insert_tail` of a `link`. -/
theorem linksTail (holds : Holds live active m s) (alive : live (.link t)) {h : ListHead}
    (listed : live (listHead h)) :
    Refines (OnHeap live active)
      (fun _ => some { s.onHeap m with cells := insertTail m (listHead h) (.link t) })
      (do let links ← s.links.insertTail h t; some { s with links }) := by
  intro s' result
  simp only [Option.bind_eq_bind, Option.bind_eq_some_iff, Rings.insertTail_eq_some, Option.some.injEq] at result
  obtain ⟨_, ⟨free, rfl⟩, rfl⟩ := result
  refine ⟨_, ends_pure _, _, rfl, ?_⟩
  exact { holds with lists := holds.lists.linkTail alive free listed }

theorem addReady (holds : Holds live active m s) (alive : live (.link t)) :
    Refines (OnHeap live active) (fun _ => (s.onHeap m).addReady t) (s.addReady t) := by
  intro s' added
  obtain ⟨free, rfl⟩ := addReady_eq_some.mp added
  have ready := holds.setState alive .ready
  have list := ready.readyList t
  refine ⟨(s.readied t).onHeap (insertTail m (.readyList (s.tcb t).priority) (.link t)), ⟨0, fun _ _ => ?_⟩, _, rfl, ?_⟩
  · simp only [Sched.setState, Sched.setTcb_tcb, Function.update_self] at list
    simp only [HeapSched.addReady, HeapSched.setState, HeapSched.setTcb, Sched.onHeap, Function.update_self, list,
      Option.bind_eq_bind, Option.bind_some]
    rfl
  · have linked :=
      ready.lists.linkTail (h := .ready (s.tcb t).priority) alive free (holds.lists.ready _ (holds.bounded t))
    exact ⟨linked, ready.made, ready.bounded, ready.base⟩

/-- `nimble_scheduler_remove`. -/
theorem remove (holds : Holds live active m s) (alive : live (.link t)) :
    (s.onHeap m).remove t = some ((s.remove t).onHeap (IntrusiveList.remove m (.link t))) ∧
      Holds live active (IntrusiveList.remove m (.link t)) (s.remove t) := by
  have lists := holds.lists.removeLink alive
  have empty := lists.ready_empty (holds.bounded t)
  constructor
  · by_cases gone : (s.links.remove t).items (.ready (s.tcb t).priority) = []
    · have first := empty.mpr gone
      simp only [HeapSched.remove, Sched.remove, Sched.onHeap, holds.readyList t, first, gone,
        Option.bind_eq_bind, Option.bind_some, List.isEmpty_nil, if_true]
    · have first : isEmpty (IntrusiveList.remove m (.link t)) (.readyList (s.tcb t).priority) = false := by
        simpa using fun isEmpty => gone (empty.mp isEmpty)
      simp only [HeapSched.remove, Sched.remove, Sched.onHeap, holds.readyList t, first, gone,
        Option.bind_eq_bind, Option.bind_some, List.isEmpty_iff, if_false, Bool.false_eq_true]
  · have same : Holds live active (IntrusiveList.remove m (.link t)) { s with links := s.links.remove t } :=
      ⟨lists, holds.made, holds.bounded, holds.base⟩
    exact same.congr (by simp) (by simp) (by simp)

theorem blockCurrentDelay (holds : Holds live active m s) (alive : live (.link t)) (wakeTick : Tick) :
    Refines (OnHeap live active) (fun _ => (s.onHeap m).blockCurrentDelay t wakeTick)
      (s.blockCurrentDelay t wakeTick) := by
  obtain ⟨removed, holds⟩ := holds.remove alive
  simp only [HeapSched.blockCurrentDelay, removed, Option.bind_eq_bind, Option.bind_some]
  have asleep := holds.setTcb (x := { (s.remove t).tcb t with wakeTick, state := .blocked }) alive
    (holds.bounded t) (holds.base t)
  exact asleep.linksTail (h := .delayed) alive asleep.lists.delayed

theorem prepareBlock (holds : Holds live active m s) (alive : live (.link t)) (timeoutTicks : Tick) :
    Refines (OnHeap live active) (fun _ => (s.onHeap m).prepareBlock t timeoutTicks)
      (s.prepareBlock t timeoutTicks) := by
  obtain ⟨removed, holds⟩ := holds.remove alive
  simp only [HeapSched.prepareBlock, removed, Option.bind_eq_bind, Option.bind_some]
  have asleep := holds.setState alive .blocked
  refine Refines.ite ?_ ?_
  · intro _
    have due := asleep.setTcb (x := { ((s.remove t).setState t .blocked).tcb t with
      wakeTick := (s.remove t).tickCount + timeoutTicks }) alive (asleep.bounded t) (asleep.base t)
    exact due.linksTail (h := .delayed) alive due.lists.delayed
  · exact fun _ => .pure ⟨_, rfl, asleep⟩

/-- A task taken off its lists by a signal or a timeout and made ready. -/
theorem wake (holds : Holds live active m s) (alive : live (.link t)) (result : Status)
    (cells : m' = IntrusiveList.remove (IntrusiveList.remove m (.eventLink t)) (.link t) ∨
      m' = IntrusiveList.remove (IntrusiveList.remove m (.link t)) (.eventLink t)) :
    Refines (OnHeap live active)
      (fun _ => (({ s.onHeap m with cells := m' } : HeapSched).setTcb t
        { s.tcb t with lastWaitResult := result }).addReady t)
      (({ s with links := s.links.remove t, events := s.events.remove t }.setTcb t
        { s.tcb t with lastWaitResult := result }).addReady t) := by
  have off : Lists live m' (s.links.remove t) (s.events.remove t) active := by
    rcases cells with rfl | rfl
    · exact (holds.lists.removeEvent alive).removeLink alive
    · exact (holds.lists.removeLink alive).removeEvent alive
  have detached : Holds live active m' { s with links := s.links.remove t, events := s.events.remove t } :=
    ⟨off, holds.made, holds.bounded, holds.base⟩
  exact (detached.setTcb (x := { s.tcb t with lastWaitResult := result }) alive (holds.bounded t)
    (holds.base t)).addReady alive

theorem wakeWaiter (holds : Holds live active m s) (h : WaitList) :
    Refines (Beside (OnHeap live active)) (fun _ => (s.onHeap m).wakeWaiter h) (s.wakeWaiter h) := by
  have empty := holds.lists.waiters_empty h
  unfold HeapSched.wakeWaiter Sched.wakeWaiter
  cases shape : s.events.items h with
  | nil =>
    simp only [onHeap_cells, empty.mpr shape, if_true]
    exact .pure ⟨_, m, rfl, holds⟩
  | cons t rest =>
    have first : m.next (.waiters h) = .eventLink t := by
      have next := (holds.lists.event_chain h).next_eq
      rwa [shape] at next
    have occupied : isEmpty m (.waiters h) = false := by simpa [shape] using empty
    simp only [onHeap_cells, occupied, Bool.false_eq_true, if_false, first, Place.eventTask,
      Option.bind_eq_bind, Option.bind_some]
    have alive := holds.waiter (Rings.ring_of_cons shape)
    refine Refines.bind (holds.wake alive .ok (.inl rfl)) ?_
    rintro _ _ - ⟨m', rfl, ready⟩
    exact .pure ⟨_, m', rfl, ready⟩

theorem insertWaiter (holds : Holds live active m s) (alive : live (.link t)) (h : WaitList) :
    Refines (OnHeap live active) (fun fuel => (s.onHeap m).insertWaiterPrioritySorted fuel h t)
      (s.insertWaiterPrioritySorted h t) := by
  intro s' inserted
  obtain ⟨free, rfl⟩ := insertWaiter_eq_some.mp inserted
  obtain ⟨m', ended, lists⟩ := holds.lists.insertEvent alive free h
    (fun other => decide ((s.onHeap m).waiterPriority other < (s.onHeap m).waiterPriority (.eventLink t)))
  refine ⟨(s.enqueued h t).onHeap m', ended.bind (ends_pure _), m', rfl, lists, holds.made, holds.bounded, holds.base⟩

theorem requeueCurrent (holds : Holds live active m s) :
    Refines (OnHeap live active) (fun _ => (s.onHeap m).requeueCurrent) s.requeueCurrent := by
  unfold HeapSched.requeueCurrent Sched.requeueCurrent
  cases current : s.current with
  | none =>
    simp only [onHeap_current, current]
    exact .pure ⟨m, rfl, holds⟩
  | some c =>
    simp only [onHeap_current, current]
    refine Refines.ite ?_ fun _ => .pure ⟨m, rfl, holds⟩
    intro running
    exact holds.addReady (holds.made c fun deleted => by cases running.symm.trans deleted)

/-- The end of a selection. -/
theorem runs (holds : Holds live active m s) (alive : live (.link t)) :
    Refines (OnHeap live active)
      (fun _ => do
        let h ← (s.onHeap m).remove t
        let h := h.setState t .running
        some { h with next := some t })
      (some { (s.remove t).setState t .running with next := some t }) := by
  obtain ⟨removed, holds⟩ := holds.remove alive
  simp only [removed, Option.bind_eq_bind, Option.bind_some]
  exact .pure ⟨_, rfl, (holds.setState alive .running).congr rfl rfl rfl⟩

theorem selectNext (holds : Holds live active m s) :
    Refines (Beside (OnHeap live active)) (fun _ => (s.onHeap m).selectNext) s.selectNext := by
  unfold HeapSched.selectNext Sched.selectNext
  refine Refines.bind holds.requeueCurrent ?_
  rintro _ s' - ⟨m', rfl, holds⟩
  refine Refines.ite (fun _ => .none) fun _ => ?_
  cases shape : s'.links.items (.ready (highestSetBit s'.readyBitmap)) with
  | nil => exact .none
  | cons next rest =>
    have bound : highestSetBit s'.readyBitmap < maxPriorities := by
      simp only [highestSetBit, maxPriorities]
      omega
    have first : m'.next (.readyList (highestSetBit s'.readyBitmap)) = .link next := by
      have next := (holds.lists.ready_chain bound).next_eq
      rwa [shape] at next
    have alive : live (.link next) := holds.lists.links.live_node (Rings.ring_of_cons shape)
    simp only [onHeap_cells, onHeap_bitmap, first, Place.linkTask, Option.bind_eq_bind, Option.bind_some]
    have ran : Refines (Beside (OnHeap live active))
        (fun _ => ((s'.onHeap m').remove next).bind fun h =>
          (some { h.setState next .running with next := some next }).bind fun h => some (next, h))
        ((some { (s'.remove next).setState next .running with next := some next }).bind fun s => some (next, s)) := by
      simpa only [Option.bind_eq_bind, Option.bind_assoc] using
        Refines.bind (holds.runs alive) fun _ _ _ related => .pure ⟨next, related⟩
    exact ran

theorem dispatch (holds : Holds live active m s) (t : TaskId) :
    Refines (OnHeap live active) (fun _ => (s.onHeap m).dispatch t) (s.dispatch t) := by
  unfold HeapSched.dispatch Sched.dispatch
  refine Refines.bind holds.requeueCurrent ?_
  rintro _ s' - ⟨m', rfl, holds⟩
  refine Refines.ite (fun ready => ?_) fun _ => .none
  exact holds.runs (holds.made t fun deleted => by cases ready.symm.trans deleted)

/-- A woken task leaves the delayed list as the scan goes on. -/
private theorem wake_delayed {passed rest : List TaskId} {result : Status}
    (shape : s.links.items .delayed = passed ++ t :: rest)
    (woke : ({ s with links := s.links.remove t, events := s.events.remove t }.setTcb t
      { s.tcb t with lastWaitResult := result }).addReady t = some s') :
    s'.links.items .delayed = passed ++ rest := by
  obtain ⟨free, rfl⟩ := addReady_eq_some.mp woke
  have nodup := s.links.nodup .delayed
  rw [shape] at nodup
  have absent : t ∉ passed := fun first => (List.nodup_append.mp nodup).2.2 t first t (by simp) rfl
  have items : ((s.links.remove t).link (fun _ => false) (.ready (s.tcb t).priority) t).items .delayed =
      (s.links.remove t).items .delayed := by
    have unlinked : (s.links.remove t).ring t = none := free
    rw [Rings.link_items unlinked, Function.update_of_ne (by simp)]
  have erased : (s.links.remove t).items .delayed = passed ++ rest := by
    rw [Rings.remove_items, shape, List.erase_append_right _ absent, List.erase_cons_head]
  rw [← erased]
  simpa [readied] using items

/-- The scan from a node of the delayed list on. The tasks before the node have
been passed and are still listed. -/
theorem tickScan {rest passed : List TaskId} (holds : Holds live active m s)
    (shape : s.links.items .delayed = passed ++ rest) :
    Refines (fun a s' => a.1 = rest.filter s.due ∧ OnHeap live active a.2 s')
      (fun fuel => HeapSched.tickScan fuel ((rest.map Place.link).headD .delayedList) (s.onHeap m))
      (Sched.tickScan rest s) := by
  induction rest generalizing s m passed with
  | nil =>
    refine Refines.succ ?_
    simp only [List.map_nil, List.headD_nil, HeapSched.tickScan, if_true]
    exact .pure ⟨rfl, m, rfl, holds⟩
  | cons t rest ih =>
    have chain := holds.lists.delayed_chain
    have onward : m.next (.link t) = (rest.map Place.link).headD .delayedList := by
      rw [shape, List.map_append, List.map_cons] at chain
      exact (Chain.append.mp chain).2.next_eq
    have listed : s.links.ring t = some .delayed :=
      (s.links.mem_items _ _).mp (by simp [shape])
    have alive : live (.link t) := holds.lists.links.live_node listed
    have notHead : ¬ Place.link t = .delayedList := by simp
    refine Refines.succ ?_
    simp only [List.map_cons, List.headD_cons, HeapSched.tickScan, if_neg notHead, Place.linkTask,
      Option.bind_eq_bind, Option.bind_some, onHeap_cells, onward, Sched.tickScan]
    refine Refines.ite ?_ ?_
    · intro due
      have kept : t :: rest.filter s.due = (t :: rest).filter s.due :=
        (List.filter_cons_of_pos (p := s.due) due).symm
      refine Refines.bind (holds.wake alive .timeout (.inr rfl)) ?_
      rintro _ s' woke ⟨m', rfl, holds⟩
      have woken := wake_spec woke
      have sameDue : s'.due = s.due := by
        funext u
        by_cases same : u = t <;> simp [Sched.due, woken.tcb, woken.rest.tick, same]
      have scanned := ih holds (wake_delayed shape woke)
      rw [sameDue] at scanned
      refine scanned.map ?_
      rintro ⟨_, _⟩ _ ⟨rfl, onHeap⟩
      exact ⟨kept, onHeap⟩
    · intro early
      have dropped : rest.filter s.due = (t :: rest).filter s.due :=
        (List.filter_cons_of_neg (p := s.due) early).symm
      rw [← dropped]
      have later : s.links.items .delayed = (passed ++ [t]) ++ rest := by simp [shape]
      exact ih holds later

theorem tick (holds : Holds live active m s) :
    Refines (fun a s' => a.1 = s.expired ∧ OnHeap live active a.2 s') (fun fuel => (s.onHeap m).tick fuel) s.tick := by
  have later : Holds live active m { s with tickCount := s.tickCount + 1 } := holds.congr rfl rfl rfl
  have first := holds.lists.delayed_chain.next_eq
  have scanned := later.tickScan (List.nil_append _).symm
  rw [← show m.next .delayedList = _ from first] at scanned
  exact scanned

/-- Creating a TCB initialises its nodes; `t` is not on a wait list when it is
created. -/
theorem taskCreate (holds : Holds live active m s) (a : TaskArgs)
    (fresh : ∀ t, a.tcb = some t → s.events.ring t = none) :
    Refines (Beside (GrowsOnHeap live active)) (fun _ => (s.onHeap m).taskCreate a) (s.taskCreate a) := by
  have refused : ∀ st : Status, Refines (Beside (GrowsOnHeap live active))
      (fun _ => some (st, s.onHeap m)) (some (st, s)) :=
    fun st => .pure ⟨_, live, fun _ => id, m, rfl, holds⟩
  unfold HeapSched.taskCreate Sched.taskCreate
  cases named : a.tcb with
  | none => exact refused _
  | some t =>
    refine Refines.ite (fun _ => refused _) fun _ => ?_
    refine Refines.ite (fun _ => refused _) fun _ => ?_
    refine Refines.ite (fun _ => refused _) fun bounded => ?_
    intro b result
    obtain ⟨s', added, same⟩ := Option.bind_eq_some_iff.mp result
    cases same
    have alive : Grown (Grown live (.link t)) (.eventLink t) (.link t) := .inr (.inl rfl)
    have inited : Holds (Grown (Grown live (.link t)) (.eventLink t)) active
        (init (init m (.link t)) (.eventLink t)) { s with tasks := s.tasks ++ [t] } :=
      ⟨holds.lists.initTask (addReady_eq_some.mp added).1 (fresh t named),
        fun u known => .inr (.inr (holds.made u known)), holds.bounded, holds.base⟩
    have bound : a.priority < maxPriorities := Nat.lt_of_not_le bounded
    have made := inited.setTcb (x := { priority := a.priority, basePriority := a.priority }) alive bound bound
    obtain ⟨h, ended, onHeap⟩ := made.addReady alive s' added
    exact ⟨(.ok, h), ended.bind (ends_pure _), _, _, fun _ known => .inr (.inr known), onHeap⟩

/-- A task that is READY or RUNNING has been created. -/
theorem taskSuspend (holds : Holds live active m s) (t : TaskId) :
    Refines (Beside (OnHeap live active)) (fun _ => (s.onHeap m).taskSuspend t) (some (s.taskSuspend t)) := by
  unfold HeapSched.taskSuspend Sched.taskSuspend
  by_cases awake : (s.tcb t).state = .ready ∨ (s.tcb t).state = .running
  · have alive : live (.link t) := by
      refine holds.made t fun deleted => ?_
      rcases awake with state | state <;> cases state.symm.trans deleted
    simp only [onHeap_tcb, onHeap_current, awake, if_true]
    by_cases ready : (s.tcb t).state = .ready
    · obtain ⟨removed, holds⟩ := holds.remove alive
      simp only [ready, if_true, removed, Option.bind_eq_bind, Option.bind_some]
      exact .pure ⟨_, _, rfl, holds.setState alive .suspended⟩
    · simp only [ready, if_false, Option.bind_eq_bind, Option.bind_some]
      exact .pure ⟨_, m, rfl, holds.setState alive .suspended⟩
  · simp only [onHeap_tcb, awake, if_false]
    exact .pure ⟨_, m, rfl, holds⟩

theorem taskResume (holds : Holds live active m s) (t : TaskId) :
    Refines (OnHeap live active) (fun _ => (s.onHeap m).taskResume t) (s.taskResume t) := by
  unfold HeapSched.taskResume Sched.taskResume
  refine Refines.ite (fun suspended => ?_) fun _ => .pure ⟨m, rfl, holds⟩
  exact holds.addReady (holds.made t fun deleted => by cases suspended.symm.trans deleted)

end Holds

/-! ### Start-up -/

/-- The heads the kernel's init functions have initialised once
`nimble_scheduler_init` has set up its own lists. -/
def heads : Place → Prop
  | .readyList p => p < maxPriorities
  | .delayedList | .waiters _ | .activeTimers => True
  | _ => False

/-- Memory in which the wait lists of the objects and `active_timers` have been
initialised. -/
structure Prepared (m : Cells Place) : Prop where
  waiters : ∀ h, m.Joined (.waiters h) (.waiters h)
  timers : m.Joined .activeTimers .activeTimers

theorem heads_free {m : Cells Place} (prepared : Prepared m) {c : Place} (alive : heads c) :
    (init (((List.range maxPriorities).map Place.readyList).foldl init m) .delayedList).Joined c c := by
  cases c with
  | readyList p =>
    refine init_keeps (inits_free (.inl ?_)) _
    exact List.mem_map.mpr ⟨p, List.mem_range.mpr alive, rfl⟩
  | delayedList => exact init_free _ _
  | waiters h => exact init_keeps (inits_free (.inr (prepared.waiters h))) _
  | activeTimers => exact init_keeps (inits_free (.inr prepared.timers)) _
  | link | eventLink | timerLink => exact alive.elim

/-- No list holds anything yet. -/
theorem represents_free {Head Node Cell : Type} {layout : Layout Head Node Cell} {m : Cells Cell}
    (free : ∀ c, m.Joined c c) : Represents layout m Rings.empty :=
  ⟨fun _ => free _, fun _ _ => free _⟩

/-- `nimble_scheduler_init` makes the idle task ready, on empty lists. -/
theorem schedulerInit_refines {m : Cells Place} (prepared : Prepared m) :
    Refines (fun h s => ∃ live, OnHeap live Rings.empty h s) (fun _ => HeapSched.schedulerInit m)
      (some Sched.schedulerInit) := by
  have free : ∀ c, (restrict heads (init (((List.range maxPriorities).map Place.readyList).foldl init m)
      .delayedList)).Joined c c := by
    intro c
    by_cases alive : heads c
    · obtain ⟨next, prev⟩ := heads_free prepared alive
      exact ⟨(restrict_next alive).trans next, (restrict_prev alive).trans prev⟩
    · exact restrict_dead alive
  have start : Holds heads Rings.empty
      (init (((List.range maxPriorities).map Place.readyList).foldl init m) .delayedList) blank := by
    refine ⟨⟨represents_free free, represents_free free, represents_free free, fun _ bound => bound, trivial,
      fun _ => trivial, trivial, fun _ => .rfl⟩, fun _ known => absurd rfl known, ?_, ?_⟩ <;>
      intro t <;> simp [blank, maxPriorities]
  intro s made
  cases made
  have created : blank.taskCreate idleArgs = some (.ok, Sched.schedulerInit) := rfl
  obtain ⟨_, ⟨_, ended⟩, related⟩ :=
    start.taskCreate idleArgs (fun _ _ => rfl) (.ok, Sched.schedulerInit) created
  obtain ⟨_, live, _, onHeap⟩ := related
  refine ⟨_, ⟨0, fun _ _ => ?_⟩, live, onHeap⟩
  have ran := ended _ (Nat.le_refl _)
  simp only [HeapSched.schedulerInit, Option.bind_eq_bind]
  exact Option.bind_eq_some_iff.mpr ⟨_, ran, rfl⟩

end NimbleRtos
