import NimbleRtos.Foundation.LinkedCells
import NimbleRtos.Foundation.NodeRings

/-! nimble_list.h on a heap of nodes, one pointer write at a time, with the
three copies of insert_waiter_priority_sorted. On a heap that represents a
family of rings each of them does what the operation of `Rings` says, and
leaves every cell of the other rings alone. -/
namespace NimbleRtos
open LinkedCells LinkedCells.Cells NodeRings

namespace IntrusiveList

section
variable {Cell : Type} [DecidableEq Cell]

/-- `c->next = v`. -/
def setNext (m : Cells Cell) (c v : Cell) : Cells Cell := { m with next := Function.update m.next c v }

/-- `c->prev = v`. -/
def setPrev (m : Cells Cell) (c v : Cell) : Cells Cell := { m with prev := Function.update m.prev c v }

/-- `nimble_list_init`. -/
def init (m : Cells Cell) (list : Cell) : Cells Cell :=
  let m := setNext m list list
  setPrev m list list

/-- `nimble_list_is_empty`. -/
def isEmpty (m : Cells Cell) (list : Cell) : Bool := m.next list = list

/-- `nimble_list_insert_tail`. -/
def insertTail (m : Cells Cell) (head node : Cell) : Cells Cell :=
  let m := setPrev m node (m.prev head)
  let m := setNext m node head
  let m := setNext m (m.prev head) node
  setPrev m head node

/-- `nimble_list_insert_head`. -/
def insertHead (m : Cells Cell) (head node : Cell) : Cells Cell :=
  let m := setNext m node (m.next head)
  let m := setPrev m node head
  let m := setPrev m (m.next head) node
  setNext m head node

/-- `nimble_list_remove`. -/
def remove (m : Cells Cell) (node : Cell) : Cells Cell :=
  let m := setNext m (m.prev node) (m.next node)
  let m := setPrev m (m.next node) (m.prev node)
  let m := setNext m node node
  setPrev m node node

/-- The loop and the four writes that `insert_waiter_priority_sorted` and
`insert_sorted_by_expiry` share. `stop` reads the object around a node, and
`fuel` bounds the walk. -/
def insertBefore (m : Cells Cell) (stop : Cell → Bool) (fuel : Nat) (head link : Cell) : Option (Cells Cell) := do
  let node ← m.walk head stop fuel (m.next head)
  let m := setNext m link node
  let m := setPrev m link (m.prev node)
  let m := setNext m (m.prev node) link
  some (setPrev m node link)

/-- The body of `insert_waiter_priority_sorted`. `priority` reads the TCB around
an `event_link`. -/
def insertBeforeLower (m : Cells Cell) (priority : Cell → Nat) (fuel : Nat) (waiters link : Cell) :
    Option (Cells Cell) :=
  insertBefore m (fun other => decide (priority other < priority link)) fuel waiters link

/-- `insert_waiter_priority_sorted` of mutex.c. -/
def insertMutexWaiter (m : Cells Cell) (priority : Cell → Nat) (fuel : Nat) (waiters link : Cell) :
    Option (Cells Cell) := insertBeforeLower m priority fuel waiters link

/-- `insert_waiter_priority_sorted` of semaphore.c. -/
def insertSemaphoreWaiter (m : Cells Cell) (priority : Cell → Nat) (fuel : Nat) (waiters link : Cell) :
    Option (Cells Cell) := insertBeforeLower m priority fuel waiters link

/-- `insert_waiter_priority_sorted` of queue.c. -/
def insertQueueWaiter (m : Cells Cell) (priority : Cell → Nat) (fuel : Nat) (waiters link : Cell) :
    Option (Cells Cell) := insertBeforeLower m priority fuel waiters link

/-- The three copies. -/
def insertWaiterCopies : List (Cells Cell → (Cell → Nat) → Nat → Cell → Cell → Option (Cells Cell)) :=
  [insertMutexWaiter, insertSemaphoreWaiter, insertQueueWaiter]

/-! ### What the pointer writes do -/

variable {m : Cells Cell} {p s link : Cell}

/-- `link` is linked in before `s`. -/
def linkBefore (m : Cells Cell) (s link : Cell) : Cells Cell :=
  { next := Function.update (Function.update m.next link s) (m.prev s) link
    prev := Function.update (Function.update m.prev link (m.prev s)) s link }

theorem insertTail_eq (distinct : link ≠ s) : insertTail m s link = linkBefore m s link := by
  simp [insertTail, setNext, setPrev, linkBefore, Function.update_of_ne (Ne.symm distinct)]

theorem insertHead_eq (distinct : link ≠ p) (neighbours : m.Joined p (m.next p)) :
    insertHead m p link = linkBefore m (m.next p) link := by
  simp only [insertHead, setNext, setPrev, linkBefore, Function.update_of_ne (Ne.symm distinct), neighbours.2]

theorem linkBefore_spliced (neighbours : m.Joined p s) (first : link ≠ p) (second : link ≠ s) :
    Spliced m (linkBefore m s link) p link s := by
  obtain ⟨rfl, back⟩ := neighbours
  refine ⟨?_, ?_, ?_, ?_⟩
  · constructor
    · simp [linkBefore, back]
    · simp [linkBefore, back, Function.update_of_ne second]
  · constructor
    · simp [linkBefore, back, Function.update_of_ne first]
    · simp [linkBefore]
  · intro x source fresh
    simp [linkBefore, back, Function.update_of_ne source, Function.update_of_ne fresh]
  · intro y target fresh
    simp [linkBefore, Function.update_of_ne target, Function.update_of_ne fresh]

theorem insertBefore_eq {stop : Cell → Bool} {fuel : Nat} {head : Cell}
    (walked : m.walk head stop fuel (m.next head) = some s) (distinct : link ≠ s) :
    insertBefore m stop fuel head link = some (linkBefore m s link) := by
  simp [insertBefore, walked, setNext, setPrev, linkBefore, Function.update_of_ne (Ne.symm distinct)]

/-- An initialised list is empty. -/
theorem init_free (m : Cells Cell) (list : Cell) : (init m list).Joined list list := by
  simp [Cells.Joined, init, setNext, setPrev]

theorem init_keeps {c : Cell} (free : m.Joined c c) (list : Cell) : (init m list).Joined c c := by
  by_cases same : c = list
  · subst same
    exact init_free m c
  · obtain ⟨next, prev⟩ := free
    simp [Cells.Joined, init, setNext, setPrev, Function.update_of_ne same, next, prev]

/-- Initialised one after the other, cells end up self-linked. -/
theorem inits_free {cells : List Cell} {c : Cell} (start : c ∈ cells ∨ m.Joined c c) :
    (cells.foldl init m).Joined c c := by
  induction cells generalizing m with
  | nil => exact start.resolve_left (by simp)
  | cons first rest ih =>
    apply ih
    rcases start with listed | free
    · rcases List.mem_cons.mp listed with rfl | later
      · exact .inr (init_free m c)
      · exact .inl later
    · exact .inr (init_keeps free first)

/-- A removed node is self-linked, whatever the heap. -/
theorem remove_free (m : Cells Cell) (node : Cell) : (remove m node).Joined node node := by
  simp [Cells.Joined, remove, setNext, setPrev]

/-- Removing a self-linked node writes what is there. -/
theorem remove_of_free (free : m.Joined link link) : remove m link = m := by
  obtain ⟨next, prev⟩ := free
  simp only [remove, setNext, setPrev, next, prev, Function.update_self, Function.update_idem]
  rw [Function.update_eq_self_iff.mpr next.symm, Function.update_eq_self_iff.mpr prev.symm]

theorem remove_unspliced (inverse : m.prev (m.next link) = link ∧ m.next (m.prev link) = link) :
    Unspliced m (remove m link) link := by
  obtain ⟨back, onward⟩ := inverse
  by_cases free : m.prev link = link
  · rw [free] at onward
    rw [remove_of_free ⟨onward, free⟩]
    exact ⟨fun listed => absurd free listed, ⟨onward, free⟩, fun _ _ _ => rfl, fun _ _ _ => rfl⟩
  · have listed : m.next link ≠ link := fun same => free (by rw [same] at back; exact back)
    have kept : Function.update m.next (m.prev link) (m.next link) link = m.next link :=
      Function.update_of_ne (Ne.symm free) _ _
    refine ⟨fun _ => ⟨?_, ?_⟩, remove_free m link, ?_, ?_⟩
    · simp [remove, setNext, setPrev, Function.update_of_ne free]
    · simp [remove, setNext, setPrev, kept, Function.update_of_ne listed]
    · intro x source other
      simp [remove, setNext, setPrev, Function.update_of_ne source, Function.update_of_ne other]
    · intro y target other
      simp [remove, setNext, setPrev, kept, Function.update_of_ne target, Function.update_of_ne other]

end

/-! ### Heaps that represent a family of rings -/

/-- Where the heads and the nodes of a family lie. -/
structure Layout (Head Node Cell : Type) where
  head : Head → Cell
  node : Node → Cell
  head_injective : Function.Injective head
  node_injective : Function.Injective node
  apart : ∀ h n, head h ≠ node n

variable {Head Node Cell : Type} {layout : Layout Head Node Cell} {r : Rings Head Node} {m : Cells Cell}
  {h h' : Head} {n : Node} {c : Cell}

/-- The cells of the ring at `h`. -/
def Layout.ring (layout : Layout Head Node Cell) (r : Rings Head Node) (h : Head) : List Cell :=
  layout.head h :: (r.items h).map layout.node

/-- Each ring is a circular list from its head, and a node on none is
self-linked. -/
structure Represents (layout : Layout Head Node Cell) (m : Cells Cell) (r : Rings Head Node) : Prop where
  rings : ∀ h, m.Chain (layout.head h) ((r.items h).map layout.node) (layout.head h)
  free : ∀ n, r.ring n = none → m.Joined (layout.node n) (layout.node n)

namespace Layout

theorem head_not_node (layout : Layout Head Node Cell) (l : List Node) : layout.head h ∉ l.map layout.node := by
  intro member
  obtain ⟨n, _, same⟩ := List.mem_map.mp member
  exact layout.apart h n same.symm

theorem ring_nodup (layout : Layout Head Node Cell) (r : Rings Head Node) (h : Head) :
    (layout.ring r h).Nodup :=
  List.nodup_cons.mpr ⟨layout.head_not_node _, (r.nodup h).map layout.node_injective⟩

theorem node_mem_ring : layout.node n ∈ layout.ring r h ↔ r.ring n = some h := by
  rw [ring, List.mem_cons, List.mem_map_of_injective layout.node_injective, r.mem_items]
  simp [Ne.symm (layout.apart h n)]

/-- The rings are disjoint. -/
theorem ring_disjoint (here : c ∈ layout.ring r h) (there : c ∈ layout.ring r h') : h = h' := by
  rcases List.mem_cons.mp here with rfl | member
  · rcases List.mem_cons.mp there with same | member
    · exact layout.head_injective same
    · exact absurd member (layout.head_not_node _)
  · obtain ⟨n, _, rfl⟩ := List.mem_map.mp member
    have first := node_mem_ring.mp here
    have second := node_mem_ring.mp there
    exact Option.some.inj (first.symm.trans second)

end Layout

/-- A head or a node of the family. -/
def Layout.Covers (layout : Layout Head Node Cell) (c : Cell) : Prop :=
  (∃ h, c = layout.head h) ∨ ∃ n, c = layout.node n

/-- `m'` differs from `m` at most in the ring at `h` and at the node `n`. -/
def SameElsewhere (layout : Layout Head Node Cell) (r : Rings Head Node) (h : Head) (n : Node)
    (m m' : Cells Cell) : Prop :=
  ∀ c, c ∉ layout.ring r h → c ≠ layout.node n → m'.next c = m.next c ∧ m'.prev c = m.prev c

namespace Represents

/-- The two pointers undo each other all over the family. -/
theorem inverse (rep : Represents layout m r) (covers : layout.Covers c) :
    m.prev (m.next c) = c ∧ m.next (m.prev c) = c := by
  obtain ⟨h, rfl⟩ | ⟨n, rfl⟩ := covers
  · exact (rep.rings h).inverse (by simp)
  · cases listed : r.ring n with
    | none =>
      obtain ⟨next, prev⟩ := rep.free n listed
      constructor
      · rw [next, prev]
      · rw [prev, next]
    | some h => exact (rep.rings h).inverse (Layout.node_mem_ring.mpr listed)

theorem isEmpty_iff [DecidableEq Cell] (rep : Represents layout m r) (h : Head) :
    isEmpty m (layout.head h) = true ↔ r.items h = [] := by
  rw [isEmpty, decide_eq_true_eq, (rep.rings h).next_eq]
  cases r.items h with
  | nil => simp
  | cons n rest => simpa using Ne.symm (layout.apart h n)

/-- Once every head and every node has been initialised, all rings are empty. -/
theorem of_init [DecidableEq Cell] {cells : List Cell} (covered : ∀ c, layout.Covers c → c ∈ cells)
    (m : Cells Cell) : Represents layout (cells.foldl init m) Rings.empty := by
  constructor
  · intro h
    exact inits_free (.inl (covered _ (.inl ⟨h, rfl⟩)))
  · intro n _
    exact inits_free (.inl (covered _ (.inr ⟨n, rfl⟩)))

variable [DecidableEq Cell] [DecidableEq Head] [DecidableEq Node] {stop : Node → Bool}

/-- Linking a free node in between two parts of a ring. -/
theorem links (rep : Represents layout m r) (before after : List Node) (free : r.ring n = none)
    (shape : r.items h = before ++ after) (placed : place stop n (r.items h) = before ++ n :: after) :
    Represents layout (linkBefore m ((after.map layout.node).headD (layout.head h)) (layout.node n))
        (r.link stop h n) ∧
      SameElsewhere layout r h n m
        (linkBefore m ((after.map layout.node).headD (layout.head h)) (layout.node n)) := by
  have chain := rep.rings h
  have nodup := layout.ring_nodup r h
  have absent : ∀ h', layout.node n ∉ layout.ring r h' := by
    intro h' listed
    rw [Layout.node_mem_ring, free] at listed
    cases listed
  have shape' : (r.items h).map layout.node = before.map layout.node ++ after.map layout.node := by
    rw [shape, List.map_append]
  rw [shape'] at chain
  have first : (before.map layout.node).getLastD (layout.head h) ∈ layout.ring r h := by
    have among : (before.map layout.node).getLastD (layout.head h) ∈ layout.head h :: before.map layout.node :=
      List.getLastD_mem_cons
    rw [Layout.ring, shape', ← List.cons_append]
    exact List.mem_append_left _ among
  have second : (after.map layout.node).headD (layout.head h) ∈ layout.ring r h := by
    rw [Layout.ring, shape']
    cases after with
    | nil => simp
    | cons s after => simp
  have elsewhere : ∀ {c}, c ∈ layout.ring r h → layout.node n ≠ c := by
    rintro c listed rfl
    exact absent h listed
  have spliced := linkBefore_spliced chain.between (elsewhere first) (elsewhere second)
  refine ⟨⟨?_, ?_⟩, ?_⟩
  · intro h'
    rw [Rings.link_items free]
    by_cases same : h' = h
    · subst same
      rw [Function.update_self, placed, List.map_append, List.map_cons]
      have fresh := absent h'
      rw [Layout.ring, shape'] at nodup fresh
      exact spliced.insert chain nodup fresh (Ne.symm (layout.apart h' n))
    · rw [Function.update_of_ne same]
      refine spliced.chain chain.between (rep.rings h') ?_ (absent h') (Ne.symm (layout.apart h' n))
      exact fun there => same (Layout.ring_disjoint there first)
  · intro n' unlisted
    rw [Rings.link_ring free, Function.update_apply] at unlisted
    split at unlisted
    · cases unlisted
    · rename_i other
      have distinct : layout.node n ≠ layout.node n' := fun same => other (layout.node_injective same).symm
      refine spliced.chain (l := []) chain.between (rep.free n' unlisted) ?_ (by simpa using distinct) distinct
      intro member
      rw [List.mem_singleton] at member
      rw [member, Layout.node_mem_ring, unlisted] at first
      cases first
  · intro c outside other
    refine ⟨spliced.next c ?_ other, spliced.prev c ?_ other⟩
    · rintro rfl
      exact outside first
    · rintro rfl
      exact outside second

/-- A walk's insertion before the first cell at which it stops. -/
theorem linksPlaced (rep : Represents layout m r) (free : r.ring n = none) (stop : Node → Bool) (h : Head) :
    Represents layout
        (linkBefore m ((((r.items h).dropWhile fun o => !stop o).map layout.node).headD (layout.head h))
          (layout.node n)) (r.link stop h n) ∧
      SameElsewhere layout r h n m
        (linkBefore m ((((r.items h).dropWhile fun o => !stop o).map layout.node).headD (layout.head h))
          (layout.node n)) :=
  rep.links _ _ free List.takeWhile_append_dropWhile.symm (place_eq stop n _)

theorem insertTail (rep : Represents layout m r) (free : r.ring n = none) (h : Head) :
    Represents layout (insertTail m (layout.head h) (layout.node n)) (r.link (fun _ => false) h n) ∧
      SameElsewhere layout r h n m (IntrusiveList.insertTail m (layout.head h) (layout.node n)) := by
  rw [insertTail_eq (Ne.symm (layout.apart h n))]
  exact rep.links _ [] free (List.append_nil _).symm (place_never n _)

theorem insertHead (rep : Represents layout m r) (free : r.ring n = none) (h : Head) :
    Represents layout (insertHead m (layout.head h) (layout.node n)) (r.link (fun _ => true) h n) ∧
      SameElsewhere layout r h n m (insertHead m (layout.head h) (layout.node n)) := by
  have chain := rep.rings h
  obtain ⟨y, _, joined⟩ := chain.source (c := layout.head h) (by simp)
  rw [insertHead_eq (Ne.symm (layout.apart h n)) (by rw [joined.1]; exact joined), chain.next_eq]
  refine rep.links [] _ free rfl ?_
  cases r.items h <;> rfl

/-- The walk of the sorted insertion ends, and the node goes where it ends. -/
theorem insertsPlaced (rep : Represents layout m r) (free : r.ring n = none) (h : Head) (stop : Cell → Bool) :
    ∃ m', (∀ fuel, (r.items h).length < fuel →
      insertBefore m stop fuel (layout.head h) (layout.node n) = some m') ∧
    Represents layout m' (r.link (fun o => stop (layout.node o)) h n) ∧ SameElsewhere layout r h n m m' := by
  have linked := rep.linksPlaced free (fun o => stop (layout.node o)) h
  refine ⟨_, ?_, linked⟩
  intro fuel enough
  have within : ((r.items h).map layout.node).length < fuel := by simpa using enough
  have walked := (rep.rings h).walk stop (layout.head_not_node _) within
  rw [List.dropWhile_map] at walked
  refine insertBefore_eq walked ?_
  cases shape : (r.items h).dropWhile _ with
  | nil => exact Ne.symm (layout.apart h n)
  | cons other rest =>
    have listed : other ∈ r.items h := (List.dropWhile_sublist _).subset (by rw [shape]; simp)
    rw [r.mem_items] at listed
    rintro same
    rw [layout.node_injective same, listed] at free
    cases free

/-- Unlinking a listed node. -/
theorem removeListed (rep : Represents layout m r) (listed : r.ring n = some h) :
    Represents layout (IntrusiveList.remove m (layout.node n)) (r.remove n) ∧
      SameElsewhere layout r h n m (IntrusiveList.remove m (layout.node n)) := by
  have here : layout.node n ∈ layout.ring r h := Layout.node_mem_ring.mpr listed
  have inverse := rep.inverse (.inr ⟨n, rfl⟩)
  have unspliced := remove_unspliced inverse
  have member : layout.node n ∈ (r.items h).map layout.node ++ [layout.head h] :=
    List.mem_append_left _ (List.mem_map_of_mem ((r.mem_items h n).mpr listed))
  have before : m.prev (layout.node n) ∈ layout.ring r h := by
    obtain ⟨x, among, joined⟩ := (rep.rings h).target member
    rw [joined.2]
    exact among
  have after : m.next (layout.node n) ∈ layout.ring r h := by
    obtain ⟨y, among, joined⟩ := (rep.rings h).source here
    rw [joined.1]
    simpa [Layout.ring, or_comm] using among
  refine ⟨⟨?_, ?_⟩, ?_⟩
  · intro h'
    by_cases same : h' = h
    · subst same
      obtain ⟨l₁, l₂, shape⟩ := List.append_of_mem ((r.mem_items h' n).mpr listed)
      have nodup := layout.ring_nodup r h'
      have chain := rep.rings h'
      have absent : n ∉ l₁ := by
        have distinct := r.nodup h'
        rw [shape] at distinct
        exact fun first => (List.nodup_append.mp distinct).2.2 n first n (by simp) rfl
      rw [Rings.remove_items, shape, List.erase_append_right _ absent, List.erase_cons_head, List.map_append]
      rw [Layout.ring, shape, List.map_append, List.map_cons] at nodup
      rw [shape, List.map_append, List.map_cons] at chain
      exact unspliced.erase chain nodup
    · rw [Rings.remove_other listed same]
      refine unspliced.chain inverse.1 (rep.rings h') ?_ ?_
      · exact fun there => same (Layout.ring_disjoint there before)
      · exact fun there => same (Layout.ring_disjoint there here)
  · intro n' unlisted
    rw [Rings.remove_ring, Function.update_apply] at unlisted
    split at unlisted
    · rename_i same
      rw [same]
      exact unspliced.free
    · rename_i other
      refine unspliced.chain (l := []) inverse.1 (rep.free n' unlisted) ?_ ?_
      · intro member
        rw [List.mem_singleton] at member
        rw [member, Layout.node_mem_ring, unlisted] at before
        cases before
      · simpa using fun same => other (layout.node_injective same).symm
  · intro c outside other
    refine ⟨unspliced.next c ?_ other, unspliced.prev c ?_ other⟩
    · rintro rfl
      exact outside before
    · rintro rfl
      exact outside after

/-- Unlinking any node. -/
theorem remove (rep : Represents layout m r) (n : Node) :
    Represents layout (IntrusiveList.remove m (layout.node n)) (r.remove n) := by
  cases listed : r.ring n with
  | none =>
    rw [remove_of_free (rep.free n listed), Rings.remove_free listed]
    exact rep
  | some h => exact (rep.removeListed listed).1

end Represents

/-! ### The refinement -/

/-- By non-increasing priority. -/
def Descending (priority : Node → Nat) (l : List Node) : Prop :=
  l.Pairwise fun a b => priority b ≤ priority a

/-- A sorted insertion goes after every node of greater or equal priority and
before every lower one. -/
theorem place_descending {priority : Node → Nat} {l : List Node} (sorted : Descending priority l) (n : Node) :
    ∃ before after, l = before ++ after ∧
      place (fun o => decide (priority o < priority n)) n l = before ++ n :: after ∧
      (∀ o ∈ before, priority n ≤ priority o) ∧ ∀ o ∈ after, priority o < priority n := by
  refine ⟨_, _, List.takeWhile_append_dropWhile.symm, place_eq _ n l, ?_, ?_⟩
  · intro o passed
    have unstopped := List.all_eq_true.mp List.all_takeWhile o passed
    simpa using unstopped
  · cases shape : l.dropWhile fun o => !decide (priority o < priority n) with
    | nil => simp
    | cons first rest =>
      have stopped : priority first < priority n := by
        have head := List.head?_dropWhile_not (fun o => !decide (priority o < priority n)) l
        rw [shape] at head
        simpa using head
      have tail : Descending priority (first :: rest) := by
        rw [← shape]
        exact sorted.sublist (List.dropWhile_sublist _)
      intro o member
      rcases List.mem_cons.mp member with rfl | later
      · exact stopped
      · exact Nat.lt_of_le_of_lt ((List.pairwise_cons.mp tail).1 o later) stopped

section
variable [DecidableEq Head] [DecidableEq Node]

/-- From `m`, which represents `r`, to `m'`, which represents `r'`, by a change
of the ring at `h` and of the node `n`. -/
structure Became (layout : Layout Head Node Cell) (r r' : Rings Head Node) (h : Head) (n : Node)
    (m m' : Cells Cell) : Prop where
  represents : Represents layout m' r'
  inverse : ∀ c, layout.Covers c → m'.prev (m'.next c) = c ∧ m'.next (m'.prev c) = c
  others : ∀ h', h' ≠ h → r'.items h' = r.items h'
  elsewhere : SameElsewhere layout r h n m m'

theorem became_link {m' : Cells Cell} {stop : Node → Bool} (free : r.ring n = none)
    (linked : Represents layout m' (r.link stop h n) ∧ SameElsewhere layout r h n m m') :
    Became layout r (r.link stop h n) h n m m' := by
  refine ⟨linked.1, fun _ => linked.1.inverse, ?_, linked.2⟩
  intro h' other
  rw [Rings.link_items free, Function.update_of_ne other]

variable [DecidableEq Cell]

/-- What each function of the list layer does on a heap that represents `r`,
where `priority` reads the TCB around a node. -/
structure RefinesRings (layout : Layout Head Node Cell) (priority : Cell → Nat) (m : Cells Cell)
    (r : Rings Head Node) : Prop where
  empty : ∀ h, isEmpty m (layout.head h) = true ↔ r.items h = []
  appends : ∀ h n, r.ring n = none → ∃ r', r.insertTail h n = some r' ∧
    r'.items h = r.items h ++ [n] ∧
    Became layout r r' h n m (insertTail m (layout.head h) (layout.node n))
  prepends : ∀ h n, r.ring n = none → ∃ r', r.insert (fun _ => true) h n = some r' ∧
    r'.items h = n :: r.items h ∧
    Became layout r r' h n m (insertHead m (layout.head h) (layout.node n))
  erases : ∀ h n, r.ring n = some h → (r.remove n).items h = (r.items h).erase n ∧
    (r.remove n).ring n = none ∧ (remove m (layout.node n)).Joined (layout.node n) (layout.node n) ∧
    Became layout r (r.remove n) h n m (remove m (layout.node n))
  spares : ∀ n, r.ring n = none → remove m (layout.node n) = m
  idempotent : ∀ n, remove (remove m (layout.node n)) (layout.node n) = remove m (layout.node n)
  inserts : ∀ insert ∈ insertWaiterCopies, ∀ h n, r.ring n = none → ∃ m' r',
    (∀ fuel, (r.items h).length < fuel → insert m priority fuel (layout.head h) (layout.node n) = some m') ∧
    r.insert (fun o => decide (priority (layout.node o) < priority (layout.node n))) h n = some r' ∧
    Became layout r r' h n m m' ∧
    (Descending (fun o => priority (layout.node o)) (r.items h) →
      Descending (fun o => priority (layout.node o)) (r'.items h) ∧
      ∃ before after, r.items h = before ++ after ∧ r'.items h = before ++ n :: after ∧
        (∀ o ∈ before, priority (layout.node n) ≤ priority (layout.node o)) ∧
        ∀ o ∈ after, priority (layout.node o) < priority (layout.node n))

/-- The list layer refines the rings, on every heap that represents them. -/
theorem list_refines_rings (priority : Cell → Nat) (rep : Represents layout m r) :
    RefinesRings layout priority m r := by
  refine ⟨rep.isEmpty_iff, ?_, ?_, ?_, ?_, ?_, ?_⟩
  · intro h n free
    refine ⟨_, Rings.insertTail_eq_some.mpr ⟨free, rfl⟩, ?_, became_link free (rep.insertTail free h)⟩
    rw [Rings.link_items free, Function.update_self, place_never]
  · intro h n free
    refine ⟨_, Rings.insert_eq_some.mpr ⟨free, rfl⟩, ?_, became_link free (rep.insertHead free h)⟩
    rw [Rings.link_items free, Function.update_self]
    cases r.items h <;> rfl
  · intro h n listed
    have removed := rep.removeListed listed
    refine ⟨rfl, by simp, remove_free m _, removed.1, fun _ => removed.1.inverse, ?_, removed.2⟩
    exact fun h' other => Rings.remove_other listed other
  · exact fun n free => remove_of_free (rep.free n free)
  · exact fun n => remove_of_free (remove_free m _)
  · intro insert copied h n free
    obtain ⟨m', ends, linked⟩ :=
      rep.insertsPlaced free h fun other => decide (priority other < priority (layout.node n))
    refine ⟨m', _, ?_, Rings.insert_eq_some.mpr ⟨free, rfl⟩, became_link free linked, ?_⟩
    · intro fuel enough
      simp only [insertWaiterCopies, List.mem_cons, List.not_mem_nil, or_false] at copied
      rcases copied with rfl | rfl | rfl <;> exact ends fuel enough
    · intro sorted
      rw [Rings.link_items free, Function.update_self]
      obtain ⟨before, after, shape, placed, higher, lower⟩ := place_descending sorted n
      exact ⟨place_sorted sorted, before, after, shape, placed, higher, lower⟩

end

/-- Two heads and the nodes, side by side. -/
def sideBySide : Layout Bool Nat (Bool ⊕ Nat) :=
  ⟨.inl, .inr, fun _ _ => Sum.inl.inj, fun _ _ => Sum.inr.inj, by simp⟩

/-- Every cell self-linked. -/
theorem represents_empty : Represents sideBySide ⟨id, id⟩ Rings.empty := by
  constructor
  · intro h
    exact ⟨rfl, rfl⟩
  · intro n _
    exact ⟨rfl, rfl⟩

/-- Two waiters on one list and one on the other, the rest free. -/
theorem list_refines_rings_pair : ∃ m r, Represents sideBySide m r ∧ r.items true = [7, 4] ∧
    r.items false = [5] ∧ r.ring 6 = none ∧ RefinesRings sideBySide (Sum.elim (fun _ => 0) id) m r := by
  have first := (represents_empty.insertTail (n := 7) rfl true).1
  have second := (first.insertTail (n := 4) (by decide) true).1
  have third := (second.insertTail (n := 5) (by decide) false).1
  exact ⟨_, _, third, by decide, by decide, by decide, list_refines_rings _ third⟩

end IntrusiveList
end NimbleRtos
