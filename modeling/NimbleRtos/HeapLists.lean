import NimbleRtos.Foundation.Refinement
import NimbleRtos.IntrusiveList
import NimbleRtos.Timer

/-! The list nodes in memory: the heads in scheduler.c, in the kernel objects
and in timer.c, and the nodes embedded in TCBs and timers. Nodes that have never
been initialised hold anything, so a family of rings is read off the
initialised ones only. -/
namespace NimbleRtos
open LinkedCells LinkedCells.Cells NodeRings Refinement

namespace IntrusiveList

/-! ### Memory that is partly initialised -/

section
variable {Cell : Type} {m m' : Cells Cell} {live : Cell → Prop} {link node s c d v : Cell}

open Classical in
/-- The cells of `live` as they are, the others self-linked. -/
noncomputable def restrict (live : Cell → Prop) (m : Cells Cell) : Cells Cell where
  next c := if live c then m.next c else c
  prev c := if live c then m.prev c else c

theorem restrict_next (alive : live c) : (restrict live m).next c = m.next c := if_pos alive

theorem restrict_prev (alive : live c) : (restrict live m).prev c = m.prev c := if_pos alive

theorem restrict_dead (dead : ¬ live c) : (restrict live m).Joined c c := ⟨if_neg dead, if_neg dead⟩

/-- `live` with `c`. -/
def Grown (live : Cell → Prop) (c d : Cell) : Prop := d = c ∨ live d

theorem grown_self : Grown live c c := .inl rfl

/-- Elsewhere the cells are as they were. -/
theorem restrict_grown (other : d ≠ c) : (restrict (Grown live c) m).next d = (restrict live m).next d ∧
    (restrict (Grown live c) m).prev d = (restrict live m).prev d := by
  by_cases alive : live d
  · have grown : Grown live c d := .inr alive
    simp only [restrict_next grown, restrict_prev grown, restrict_next alive, restrict_prev alive, and_self]
  · have dead : ¬ Grown live c d := not_or.mpr ⟨other, alive⟩
    simp only [(restrict_dead dead).1, (restrict_dead dead).2, (restrict_dead alive).1,
      (restrict_dead alive).2, and_self]

variable [DecidableEq Cell]

theorem restrict_setNext (alive : live c) : restrict live (setNext m c v) = setNext (restrict live m) c v := by
  ext d
  · by_cases same : d = c
    · subst same
      simp [restrict, setNext, alive]
    · simp [restrict, setNext, same]
  · rfl

theorem restrict_setPrev (alive : live c) : restrict live (setPrev m c v) = setPrev (restrict live m) c v := by
  ext d
  · rfl
  · by_cases same : d = c
    · subst same
      simp [restrict, setPrev, alive]
    · simp [restrict, setPrev, same]

/-- Initialising a cell changes nothing that could be read before. -/
theorem restrict_init (free : (restrict live m).Joined c c) :
    restrict (Grown live c) (init m c) = restrict live m := by
  have kept : ∀ d, d ≠ c → (init m c).next d = m.next d ∧ (init m c).prev d = m.prev d := by
    intro d other
    simp [init, setNext, setPrev, other]
  ext d
  · by_cases here : d = c
    · rw [here, free.1, restrict_next grown_self, (init_free m c).1]
    · rw [(restrict_grown here).1]
      by_cases alive : live d
      · rw [restrict_next alive, restrict_next alive, (kept d here).1]
      · rw [(restrict_dead alive).1, (restrict_dead alive).1]
  · by_cases here : d = c
    · rw [here, free.2, restrict_prev grown_self, (init_free m c).2]
    · rw [(restrict_grown here).2]
      by_cases alive : live d
      · rw [restrict_prev alive, restrict_prev alive, (kept d here).2]
      · rw [(restrict_dead alive).2, (restrict_dead alive).2]

/-- Linking writes both pointers of the new node's cell, and so initialises it. -/
theorem restrict_linkBefore (alive : live s) (before : live (m.prev s)) :
    restrict (Grown live link) (linkBefore m s link) = linkBefore (restrict live m) s link := by
  have back : (restrict live m).prev s = m.prev s := restrict_prev alive
  ext d
  · by_cases first : d = m.prev s
    · have grown : Grown live link d := .inr (first ▸ before)
      rw [restrict_next grown]
      simp [linkBefore, back, first]
    · by_cases here : d = link
      · subst here
        rw [restrict_next grown_self]
        simp [linkBefore, back, Function.update_of_ne first]
      · rw [(restrict_grown here).1]
        by_cases known : live d
        · rw [restrict_next known]
          simp [linkBefore, back, first, here, restrict_next known]
        · rw [(restrict_dead known).1]
          simp [linkBefore, back, first, here, (restrict_dead known).1]
  · by_cases second : d = s
    · have grown : Grown live link d := .inr (second ▸ alive)
      rw [restrict_prev grown]
      simp [linkBefore, second, back]
    · by_cases here : d = link
      · subst here
        rw [restrict_prev grown_self]
        simp [linkBefore, back, Function.update_of_ne second]
      · rw [(restrict_grown here).2]
        by_cases known : live d
        · rw [restrict_prev known]
          simp [linkBefore, second, here, restrict_prev known]
        · rw [(restrict_dead known).2]
          simp [linkBefore, second, here, (restrict_dead known).2]

theorem restrict_remove (alive : live node) (before : live (m.prev node)) (after : live (m.next node)) :
    restrict live (remove m node) = remove (restrict live m) node := by
  have onward : (setNext m (m.prev node) (m.next node)).next node = m.next node := by
    by_cases same : node = m.prev node
    · rw [← same]
      simp [setNext]
    · simp [setNext, same]
  have onward' : (setNext (restrict live m) (m.prev node) (m.next node)).next node = m.next node := by
    rw [← restrict_setNext before, restrict_next alive, onward]
  have back : (restrict live m).prev node = m.prev node := restrict_prev alive
  have forth : (restrict live m).next node = m.next node := restrict_next alive
  simp only [remove, onward, back, forth, onward']
  rw [restrict_setPrev alive, restrict_setNext alive, restrict_setPrev after, restrict_setNext before]
  simp only [setNext, back]

end

/-! ### Families in such memory -/

variable {Head Node Cell : Type} {layout : Layout Head Node Cell} {r : Rings Head Node}
  {m m' : Cells Cell} {live : Cell → Prop} {h : Head} {n : Node} {c : Cell}

/-- `m'` differs from `m` at most in the family's own cells. -/
def OnlyIn (layout : Layout Head Node Cell) (m m' : Cells Cell) : Prop :=
  ∀ c, ¬ layout.Covers c → m'.next c = m.next c ∧ m'.prev c = m.prev c

theorem Layout.covers_ring (member : c ∈ layout.ring r h) : layout.Covers c := by
  rcases List.mem_cons.mp member with rfl | member
  · exact .inl ⟨h, rfl⟩
  · obtain ⟨n, _, rfl⟩ := List.mem_map.mp member
    exact .inr ⟨n, rfl⟩

theorem SameElsewhere.onlyIn (same : SameElsewhere layout r h n m m') : OnlyIn layout m m' := by
  intro c outside
  refine same c (fun member => outside (Layout.covers_ring member)) ?_
  rintro rfl
  exact outside (.inr ⟨n, rfl⟩)

namespace Represents

/-- What happens in one family's cells leaves another family alone. -/
theorem frame {Head' Node' : Type} {layout' : Layout Head' Node' Cell} {r' : Rings Head' Node'}
    (rep : Represents layout' m r') (only : OnlyIn layout m m')
    (apart : ∀ c, layout'.Covers c → ¬ layout.Covers c) : Represents layout' m' r' := by
  constructor
  · intro h
    refine (rep.rings h).congr ?_
    intro c member
    refine only c (apart c (Layout.covers_ring (r := r') (h := h) ?_))
    simpa [Layout.ring, or_comm] using member
  · intro n free
    obtain ⟨next, prev⟩ := rep.free n free
    obtain ⟨sameNext, samePrev⟩ := only _ (apart _ (.inr ⟨n, rfl⟩))
    exact ⟨sameNext.trans next, samePrev.trans prev⟩

/-- A listed node's successor is never the node itself. -/
theorem next_ne (rep : Represents layout m r) (listed : r.ring n = some h) :
    m.next (layout.node n) ≠ layout.node n := by
  obtain ⟨l₁, l₂, shape⟩ := List.append_of_mem ((r.mem_items h n).mpr listed)
  have nodup := r.nodup h
  have chain := rep.rings h
  rw [shape] at nodup
  rw [shape, List.map_append, List.map_cons] at chain
  rw [(Chain.append.mp chain).2.next_eq]
  cases l₂ with
  | nil => exact layout.apart h n
  | cons o l₂ =>
    intro same
    have repeated : o = n := layout.node_injective same
    subst repeated
    have tail := (List.nodup_append.mp nodup).2.1
    simp at tail

section
variable (rep : Represents layout (restrict live m) r)
include rep

/-- Listed nodes are initialised. -/
theorem live_node (listed : r.ring n = some h) : live (layout.node n) := by
  by_contra dead
  exact rep.next_ne listed (restrict_dead dead).1

/-- So are the neighbours of an initialised cell. -/
theorem live_neighbours (covers : layout.Covers c) (alive : live c) : live (m.next c) ∧ live (m.prev c) := by
  obtain ⟨back, onward⟩ := rep.inverse covers
  rw [restrict_next alive] at back
  rw [restrict_prev alive] at onward
  constructor
  · by_contra dead
    rw [(restrict_dead dead).2] at back
    exact dead (by rw [back]; exact alive)
  · by_contra dead
    rw [(restrict_dead dead).1] at onward
    exact dead (by rw [onward]; exact alive)

theorem live_ring (alive : live (layout.head h)) (member : c ∈ layout.ring r h) : live c := by
  rcases List.mem_cons.mp member with rfl | member
  · exact alive
  · obtain ⟨n, listed, rfl⟩ := List.mem_map.mp member
    exact rep.live_node ((r.mem_items h n).mp listed)

/-- The ring at an initialised head, in memory as it is. -/
theorem chain (alive : live (layout.head h)) :
    m.Chain (layout.head h) ((r.items h).map layout.node) (layout.head h) := by
  refine (rep.rings h).congr ?_
  intro c member
  have known := rep.live_ring (h := h) (c := c) alive (by simpa [Layout.ring, or_comm] using member)
  exact ⟨(restrict_next known).symm, (restrict_prev known).symm⟩

variable [DecidableEq Cell]

theorem empty_iff (alive : live (layout.head h)) : isEmpty m (layout.head h) = true ↔ r.items h = [] := by
  rw [← rep.isEmpty_iff h, isEmpty, isEmpty, restrict_next alive]

/-- Initialising a node that is on no list shows nowhere. -/
theorem inits (free : r.ring n = none) :
    restrict (Grown live (layout.node n)) (init m (layout.node n)) = restrict live m :=
  restrict_init (rep.free n free)

variable [DecidableEq Head] [DecidableEq Node]

/-- The sorted insertion ends, with the node in its place. -/
theorem insertsBefore (free : r.ring n = none) (alive : live (layout.head h)) (stop : Cell → Bool) : ∃ m',
    Ends (fun fuel => insertBefore m stop fuel (layout.head h) (layout.node n)) m' ∧
    Represents layout (restrict (Grown live (layout.node n)) m') (r.link (fun o => stop (layout.node o)) h n) ∧
    OnlyIn layout (restrict live m) (restrict (Grown live (layout.node n)) m') := by
  obtain ⟨linked, same⟩ := rep.linksPlaced free (fun o => stop (layout.node o)) h
  obtain ⟨s, ends⟩ : ∃ s, s = (((r.items h).dropWhile fun o => !stop (layout.node o)).map layout.node).headD
    (layout.head h) := ⟨_, rfl⟩
  rw [← ends] at linked same
  have member : s ∈ layout.ring r h := by
    cases shape : (r.items h).dropWhile fun o => !stop (layout.node o) with
    | nil =>
      rw [shape] at ends
      simp [ends, Layout.ring]
    | cons other others =>
      rw [shape] at ends
      have listed : other ∈ r.items h := (List.dropWhile_sublist _).subset (by rw [shape]; simp)
      simp only [List.map_cons, List.headD_cons] at ends
      rw [ends]
      exact List.mem_cons_of_mem _ (List.mem_map_of_mem listed)
  have known := rep.live_ring alive member
  have before := (rep.live_neighbours (Layout.covers_ring member) known).2
  rw [← restrict_linkBefore known before] at linked same
  refine ⟨_, ⟨(r.items h).length + 1, ?_⟩, linked, same.onlyIn⟩
  intro fuel enough
  have within : ((r.items h).map layout.node).length < fuel := by rw [List.length_map]; omega
  have walked := (rep.chain alive).walk stop (layout.head_not_node _) within
  rw [List.dropWhile_map] at walked
  refine insertBefore_eq (walked.trans (congrArg some ends.symm)) ?_
  rintro rfl
  rw [Layout.node_mem_ring, free] at member
  cases member

theorem insertsTail (free : r.ring n = none) (alive : live (layout.head h)) :
    Represents layout
      (restrict (Grown live (layout.node n)) (IntrusiveList.insertTail m (layout.head h) (layout.node n)))
        (r.link (fun _ => false) h n) ∧
      OnlyIn layout (restrict live m)
        (restrict (Grown live (layout.node n)) (IntrusiveList.insertTail m (layout.head h) (layout.node n))) := by
  obtain ⟨linked, same⟩ := rep.insertTail free h
  have distinct := Ne.symm (layout.apart h n)
  have before := (rep.live_neighbours (.inl ⟨h, rfl⟩) alive).2
  rw [insertTail_eq distinct] at linked same ⊢
  rw [← restrict_linkBefore alive before] at linked same
  exact ⟨linked, same.onlyIn⟩

theorem removes (alive : live (layout.node n)) :
    Represents layout (restrict live (IntrusiveList.remove m (layout.node n))) (r.remove n) ∧
      OnlyIn layout (restrict live m) (restrict live (IntrusiveList.remove m (layout.node n))) := by
  obtain ⟨after, before⟩ := rep.live_neighbours (.inr ⟨n, rfl⟩) alive
  rw [restrict_remove alive before after]
  refine ⟨rep.remove n, ?_⟩
  cases listed : r.ring n with
  | none =>
    rw [remove_of_free (rep.free n listed)]
    exact fun _ _ => ⟨rfl, rfl⟩
  | some h => exact (rep.removeListed listed).2.onlyIn

end
end Represents
end IntrusiveList

open IntrusiveList

/-! ### The kernel's nodes -/

/-- Every `nimble_list_node_t` of the kernel. -/
inductive Place where
  | readyList (priority : Nat)
  | delayedList
  | waiters (h : WaitList)
  | activeTimers
  | link (t : TaskId)
  | eventLink (t : TaskId)
  | timerLink (x : TimerId)
  deriving DecidableEq, Repr

namespace Place

/-- `NIMBLE_CONTAINER_OF(node, nimble_tcb_t, link)`, no TCB for any other node. -/
def linkTask : Place → Option TaskId
  | .link t => some t
  | _ => none

/-- `NIMBLE_CONTAINER_OF(node, nimble_tcb_t, event_link)`. -/
def eventTask : Place → Option TaskId
  | .eventLink t => some t
  | _ => none

/-- `NIMBLE_CONTAINER_OF(node, nimble_timer_t, link)`. -/
def timer : Place → Option TimerId
  | .timerLink x => some x
  | _ => none

end Place

def listHead : ListHead → Place
  | .ready priority => .readyList priority
  | .delayed => .delayedList

/-- The ready lists and the delayed list, through `link`. -/
def linkLayout : Layout ListHead TaskId Place where
  head := listHead
  node := .link
  head_injective := by
    intro h h' same
    cases h <;> cases h' <;> cases same <;> rfl
  node_injective _ _ same := by cases same; rfl
  apart h n same := by cases h <;> cases same

/-- The wait lists, through `event_link`. -/
def eventLayout : Layout WaitList TaskId Place where
  head := .waiters
  node := .eventLink
  head_injective _ _ same := by cases same; rfl
  node_injective _ _ same := by cases same; rfl
  apart _ _ same := by cases same

/-- `active_timers`, through the timers' links. -/
def timerLayout : Layout Unit TimerId Place where
  head _ := .activeTimers
  node := .timerLink
  head_injective _ _ _ := rfl
  node_injective _ _ same := by cases same; rfl
  apart _ _ same := by cases same

/-- Memory holds the three families; `live` are its initialised nodes. -/
structure Lists (live : Place → Prop) (m : Cells Place) (links : Rings ListHead TaskId)
    (events : Rings WaitList TaskId) (active : Rings Unit TimerId) : Prop where
  links : Represents linkLayout (restrict live m) links
  events : Represents eventLayout (restrict live m) events
  active : Represents timerLayout (restrict live m) active
  ready : ∀ p, p < maxPriorities → live (.readyList p)
  delayed : live .delayedList
  waiters : ∀ h, live (.waiters h)
  timers : live .activeTimers
  paired : ∀ t, live (.eventLink t) ↔ live (.link t)

namespace Lists
variable {live : Place → Prop} {m m' : Cells Place} {links links' : Rings ListHead TaskId}
  {events events' : Rings WaitList TaskId} {active active' : Rings Unit TimerId} {t : TaskId} {x : TimerId}

theorem covers_link {c : Place} (covers : linkLayout.Covers c) :
    ¬ eventLayout.Covers c ∧ ¬ timerLayout.Covers c := by
  constructor <;> rintro (⟨_, there⟩ | ⟨_, there⟩) <;> rcases covers with ⟨h, here⟩ | ⟨_, here⟩ <;>
    rw [here] at there <;> (try cases h) <;> cases there

theorem covers_event {c : Place} (covers : eventLayout.Covers c) :
    ¬ linkLayout.Covers c ∧ ¬ timerLayout.Covers c := by
  refine ⟨fun link => (covers_link link).1 covers, ?_⟩
  rintro (⟨_, there⟩ | ⟨_, there⟩) <;> rcases covers with ⟨_, here⟩ | ⟨_, here⟩ <;>
    rw [here] at there <;> cases there

/-- A change of the ready and delayed lists. -/
theorem changeLinks (lists : Lists live m links events active)
    (changed : Represents linkLayout (restrict live m') links' ∧
      OnlyIn linkLayout (restrict live m) (restrict live m')) :
    Lists live m' links' events active := by
  obtain ⟨rep, only⟩ := changed
  refine { lists with links := rep, events := ?_, active := ?_ }
  · exact lists.events.frame only fun c covers => (covers_event covers).1
  · exact lists.active.frame only fun c covers link => (covers_link link).2 covers

/-- A change of the wait lists. -/
theorem changeEvents (lists : Lists live m links events active)
    (changed : Represents eventLayout (restrict live m') events' ∧
      OnlyIn eventLayout (restrict live m) (restrict live m')) : Lists live m' links events' active := by
  obtain ⟨rep, only⟩ := changed
  refine { lists with events := rep, links := ?_, active := ?_ }
  · exact lists.links.frame only fun c covers => (covers_link covers).1
  · exact lists.active.frame only fun c covers event => (covers_event event).2 covers

theorem grown_of_live {c : Place} (alive : live c) : Grown live c = live := by
  funext d
  refine propext ⟨?_, .inr⟩
  rintro (rfl | known)
  · exact alive
  · exact known

theorem linkTail (lists : Lists live m links events active) (alive : live (.link t))
    (free : links.ring t = none) {h : ListHead} (listed : live (listHead h)) :
    Lists live (insertTail m (listHead h) (.link t)) (links.link (fun _ => false) h t) events active := by
  have changed := lists.links.insertsTail free listed
  rw [show Grown live (linkLayout.node t) = live from grown_of_live alive] at changed
  exact lists.changeLinks changed

theorem removeLink (lists : Lists live m links events active) (alive : live (.link t)) :
    Lists live (remove m (.link t)) (links.remove t) events active :=
  lists.changeLinks (lists.links.removes (n := t) alive)

theorem removeEvent (lists : Lists live m links events active) (alive : live (.link t)) :
    Lists live (remove m (.eventLink t)) links (events.remove t) active :=
  lists.changeEvents (lists.events.removes (n := t) ((lists.paired t).mpr alive))

theorem insertEvent (lists : Lists live m links events active) (alive : live (.link t))
    (free : events.ring t = none) (h : WaitList) (stop : Place → Bool) : ∃ m',
      Ends (fun fuel => insertBefore m stop fuel (.waiters h) (.eventLink t)) m' ∧
      Lists live m' links (events.link (fun o => stop (.eventLink o)) h t) active := by
  obtain ⟨m', ended, changed⟩ := lists.events.insertsBefore free (lists.waiters h) stop
  rw [show Grown live (eventLayout.node t) = live from grown_of_live ((lists.paired t).mpr alive)] at changed
  exact ⟨m', ended, lists.changeEvents changed⟩

/-- A ready list in memory. -/
theorem ready_chain (lists : Lists live m links events active) {p : Nat} (bound : p < maxPriorities) :
    m.Chain (.readyList p) ((links.items (.ready p)).map .link) (.readyList p) :=
  Represents.chain (h := ListHead.ready p) lists.links (lists.ready p bound)

/-- The delayed list in memory. -/
theorem delayed_chain (lists : Lists live m links events active) :
    m.Chain .delayedList ((links.items .delayed).map .link) .delayedList :=
  Represents.chain (h := ListHead.delayed) lists.links lists.delayed

/-- The wait lists in memory. -/
theorem event_chain (lists : Lists live m links events active) (h : WaitList) :
    m.Chain (.waiters h) ((events.items h).map .eventLink) (.waiters h) :=
  Represents.chain (h := h) lists.events (lists.waiters h)

/-- The active timers in memory. -/
theorem timer_chain (lists : Lists live m links events active) :
    m.Chain .activeTimers ((active.items ()).map .timerLink) .activeTimers :=
  Represents.chain (h := ()) lists.active lists.timers

theorem ready_empty (lists : Lists live m links events active) {p : Nat} (bound : p < maxPriorities) :
    isEmpty m (.readyList p) = true ↔ links.items (.ready p) = [] :=
  Represents.empty_iff (h := ListHead.ready p) lists.links (lists.ready p bound)

theorem waiters_empty (lists : Lists live m links events active) (h : WaitList) :
    isEmpty m (.waiters h) = true ↔ events.items h = [] :=
  Represents.empty_iff (h := h) lists.events (lists.waiters h)

theorem timers_empty (lists : Lists live m links events active) :
    isEmpty m .activeTimers = true ↔ active.items () = [] :=
  Represents.empty_iff (h := ()) lists.active lists.timers

/-- A change of the active timers; a link may be initialised by it. -/
theorem changeTimers {live' : Place → Prop} (lists : Lists live m links events active)
    (changed : Represents timerLayout (restrict live' m') active' ∧
      OnlyIn timerLayout (restrict live m) (restrict live' m')) (grown : ∀ c, live c → live' c)
    (tasks : ∀ t, (live' (.eventLink t) ↔ live (.eventLink t)) ∧ (live' (.link t) ↔ live (.link t))) :
    Lists live' m' links events active' := by
  obtain ⟨rep, only⟩ := changed
  refine ⟨?_, ?_, rep, fun p bound => grown _ (lists.ready p bound), grown _ lists.delayed,
    fun h => grown _ (lists.waiters h), grown _ lists.timers, ?_⟩
  · exact lists.links.frame only fun c covers => (covers_link covers).2
  · exact lists.events.frame only fun c covers => (covers_event covers).2
  · intro t
    rw [(tasks t).1, (tasks t).2]
    exact lists.paired t

theorem insertTimer (lists : Lists live m links events active) (free : active.ring x = none)
    (stop : Place → Bool) : ∃ m', Ends (fun fuel => insertBefore m stop fuel .activeTimers (.timerLink x)) m' ∧
      Lists (Grown live (.timerLink x)) m' links events (active.link (fun o => stop (.timerLink o)) () x) := by
  obtain ⟨m', ended, changed⟩ := lists.active.insertsBefore free (h := ()) lists.timers stop
  exact ⟨m', ended, lists.changeTimers changed (fun _ => .inr) fun t => ⟨by simp [Grown], by simp [Grown]⟩⟩

theorem removeTimer (lists : Lists live m links events active) (alive : live (.timerLink x)) :
    Lists live (remove m (.timerLink x)) links events (active.remove x) :=
  lists.changeTimers (lists.active.removes (n := x) alive) (fun _ => id) fun _ => ⟨.rfl, .rfl⟩

/-- `nimble_list_init` of a node that is on no list. -/
theorem initTimer (lists : Lists live m links events active) (free : active.ring x = none) :
    Lists (Grown live (.timerLink x)) (init m (.timerLink x)) links events active := by
  have same : restrict (Grown live (.timerLink x)) (init m (.timerLink x)) = restrict live m := lists.active.inits free
  have still : OnlyIn timerLayout (restrict live m) (restrict (Grown live (.timerLink x)) (init m (.timerLink x))) := by
    intro c _
    rw [same]
    exact ⟨rfl, rfl⟩
  refine lists.changeTimers ⟨?_, still⟩ (fun _ => .inr) fun t => ⟨by simp [Grown], by simp [Grown]⟩
  rw [same]
  exact lists.active

/-- The two `nimble_list_init` of `nimble_task_create`. -/
theorem initTask (lists : Lists live m links events active) (free : links.ring t = none)
    (unlisted : events.ring t = none) :
    Lists (Grown (Grown live (.link t)) (.eventLink t)) (init (init m (.link t)) (.eventLink t))
      links events active := by
  have first : restrict (Grown live (.link t)) (init m (.link t)) = restrict live m := lists.links.inits free
  have waits : Represents eventLayout (restrict (Grown live (.link t)) (init m (.link t))) events := by
    rw [first]
    exact lists.events
  have second : restrict (Grown (Grown live (.link t)) (.eventLink t)) (init (init m (.link t)) (.eventLink t)) =
      restrict live m := (waits.inits unlisted).trans first
  have grown : ∀ c, live c → Grown (Grown live (.link t)) (.eventLink t) c := fun _ known => .inr (.inr known)
  refine ⟨second ▸ lists.links, second ▸ lists.events, second ▸ lists.active,
    fun p bound => grown _ (lists.ready p bound),
    grown _ lists.delayed, fun h => grown _ (lists.waiters h), grown _ lists.timers, ?_⟩
  intro u
  by_cases same : u = t
  · simp [Grown, same]
  · simpa [Grown, same] using lists.paired u

end Lists
end NimbleRtos
