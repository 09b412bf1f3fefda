import Mathlib.Data.List.Nodup
import Mathlib.Logic.Function.Basic

/-! Families of rings over one kind of intrusive node. A node carries its own
links, so it is threaded on at most one ring and at most once; removal needs
no knowledge of the head. Both facts are fields of `Rings`, and inserting a
node that is already threaded, which would cross two rings, has no result. -/
namespace NodeRings

/-- `items h` is the ring at head `h` read from the head on; `ring n` names the
head whose ring `n` is threaded on, and is `none` for a self-linked node. -/
structure Rings (Head Node : Type) where
  items : Head → List Node
  ring : Node → Option Head
  nodup : ∀ h, (items h).Nodup
  mem_items : ∀ h n, n ∈ items h ↔ ring n = some h

/-- The walk of a sorted insertion: `node` goes immediately before the first
member at which the walk stops, at the tail when it never stops. -/
def place (stop : Node → Bool) (node : Node) : List Node → List Node
  | [] => [node]
  | other :: rest => if stop other then node :: other :: rest else other :: place stop node rest

theorem place_perm (stop : Node → Bool) (node : Node) (l : List Node) :
    (place stop node l).Perm (node :: l) := by
  induction l with
  | nil => exact .refl _
  | cons other rest ih =>
    simp only [place]
    split
    · exact .refl _
    · exact (ih.cons other).trans (.swap node other rest)

@[simp] theorem mem_place {stop : Node → Bool} {node other : Node} {l : List Node} :
    other ∈ place stop node l ↔ other = node ∨ other ∈ l := by
  rw [(place_perm stop node l).mem_iff, List.mem_cons]

/-- The members the walk passes, and those from its stop on. -/
theorem place_eq (stop : Node → Bool) (node : Node) (l : List Node) :
    place stop node l = (l.takeWhile fun n => !stop n) ++ node :: l.dropWhile fun n => !stop n := by
  induction l with
  | nil => rfl
  | cons other rest ih =>
    by_cases stops : stop other = true
    · simp [place, stops]
    · simp [place, stops, ih]

/-- A walk that never stops ends at the tail. -/
@[simp] theorem place_never (node : Node) (l : List Node) : place (fun _ => false) node l = l ++ [node] := by
  induction l with
  | nil => rfl
  | cons other rest ih => simp [place, ih]

/-- A walk that passes the members that come before the node and stops at one
that comes after it keeps the ring in order. -/
theorem place_pairwise {before : Node → Node → Prop} {stop : Node → Bool} {node : Node}
    {l : List Node} (ordered : l.Pairwise before)
    (passes : ∀ other ∈ l, stop other = false → before other node)
    (stops : ∀ other ∈ l, stop other = true → before node other)
    (chain : ∀ a ∈ l, ∀ b ∈ l, before node a → before a b → before node b) :
    (place stop node l).Pairwise before := by
  induction l with
  | nil => simp [place]
  | cons other rest ih =>
    obtain ⟨head, tail⟩ := List.pairwise_cons.mp ordered
    simp only [place]
    split
    · rename_i stopped
      have first := stops other (by simp) stopped
      refine List.pairwise_cons.mpr ⟨?_, ordered⟩
      intro member listed
      rcases List.mem_cons.mp listed with rfl | listed
      · exact first
      · exact chain other (by simp) member (by simp [listed]) first (head member listed)
    · rename_i passed
      have earlier := passes other (by simp) (by simpa using passed)
      refine List.pairwise_cons.mpr ⟨?_, ?_⟩
      · intro member listed
        rcases mem_place.mp listed with rfl | listed
        · exact earlier
        · exact head member listed
      · refine ih tail ?_ ?_ ?_
        · intro member listed
          exact passes member (by simp [listed])
        · intro member listed
          exact stops member (by simp [listed])
        · intro a first b second
          exact chain a (by simp [first]) b (by simp [second])

/-- Stopping at the first strictly smaller key keeps a descending ring
descending. -/
theorem place_sorted {key : Node → Nat} {node : Node} {l : List Node}
    (sorted : l.Pairwise (fun a b => key b ≤ key a)) :
    (place (fun other => decide (key other < key node)) node l).Pairwise
      (fun a b => key b ≤ key a) := by
  refine place_pairwise sorted ?_ ?_ ?_
  · intro other _ passed
    simpa using passed
  · intro other _ stopped
    exact Nat.le_of_lt (by simpa using stopped)
  · intro a _ b _ first second
    exact Nat.le_trans second first

namespace Rings
variable {Head Node : Type} {r r' : Rings Head Node} {stop : Node → Bool}
  {head h : Head} {node n : Node}

/-- Every head empty, every node self-linked. -/
def empty : Rings Head Node where
  items _ := []
  ring _ := none
  nodup _ := List.nodup_nil
  mem_items _ _ := by simp

@[simp] theorem empty_items : (empty : Rings Head Node).items h = [] := rfl
@[simp] theorem empty_ring : (empty : Rings Head Node).ring n = none := rfl

theorem not_mem_of_free (free : r.ring node = none) : node ∉ r.items head := by
  simp [r.mem_items, free]

theorem ring_of_cons (shape : r.items head = node :: rest) : r.ring node = some head :=
  (r.mem_items head node).mp (by simp [shape])

theorem items_ne_nil : r.items head ≠ [] ↔ ∃ n, r.ring n = some head := by
  simp only [← r.mem_items]
  exact ⟨List.exists_mem_of_ne_nil _, fun ⟨_, member⟩ => List.ne_nil_of_mem member⟩

variable [DecidableEq Node]

/-- Unlinking takes the node off whichever ring it is threaded on; a
self-linked node stays as it was. -/
def remove (r : Rings Head Node) (node : Node) : Rings Head Node where
  items h := (r.items h).erase node
  ring := Function.update r.ring node none
  nodup h := (r.nodup h).erase node
  mem_items h n := by
    rw [(r.nodup h).mem_erase_iff, r.mem_items]
    by_cases same : n = node <;> simp [same]

@[simp] theorem remove_items : (r.remove node).items h = (r.items h).erase node := rfl

@[simp] theorem remove_ring : (r.remove node).ring = Function.update r.ring node none := rfl

/-- Unlinking a self-linked node changes nothing. -/
theorem remove_free (free : r.ring node = none) : r.remove node = r := by
  have items : (r.remove node).items = r.items := by
    funext h
    exact List.erase_of_not_mem (not_mem_of_free free)
  have ring : (r.remove node).ring = r.ring := by
    rw [remove_ring, Function.update_eq_self_iff, free]
  cases r
  simp_all only [remove]

/-- Unlinking the first member leaves the rest of its ring. -/
theorem remove_head (shape : r.items head = node :: rest) :
    (r.remove node).items head = rest := by
  simp [shape]

theorem remove_other (threaded : r.ring node = some head) (other : h ≠ head) :
    (r.remove node).items h = r.items h := by
  have absent : node ∉ r.items h := by
    simp [r.mem_items, threaded, Ne.symm other]
  simp [List.erase_of_not_mem absent]

variable [DecidableEq Head]

/-- Linking a self-linked node into the ring at `head` by a walk; a threaded
node is left alone, and `insert` gives no result for it. -/
def link (r : Rings Head Node) (stop : Node → Bool) (head : Head) (node : Node) : Rings Head Node :=
  if free : r.ring node = none then
    { items := Function.update r.items head (place stop node (r.items head))
      ring := Function.update r.ring node (some head)
      nodup := by
        intro h
        by_cases same : h = head
        · subst h
          have fresh : node ∉ r.items head := by simp [r.mem_items, free]
          simpa [(place_perm stop node _).nodup_iff] using ⟨fresh, r.nodup head⟩
        · simpa [same] using r.nodup h
      mem_items := by
        intro h n
        by_cases same : h = head <;> by_cases inserted : n = node
        · subst h n; simp
        · subst h; simp [inserted, r.mem_items]
        · subst n; simp [same, r.mem_items, free, Ne.symm same]
        · simp [same, inserted, r.mem_items] }
  else r

theorem link_ring (free : r.ring node = none) :
    (r.link stop head node).ring = Function.update r.ring node (some head) := by
  simp [link, free]

theorem link_items (free : r.ring node = none) :
    (r.link stop head node).items =
      Function.update r.items head (place stop node (r.items head)) := by
  simp [link, free]

/-- Sorted insertion of a self-linked node. -/
def insert (r : Rings Head Node) (stop : Node → Bool) (head : Head) (node : Node) :
    Option (Rings Head Node) :=
  if r.ring node = none then some (r.link stop head node) else none

/-- Insertion at the tail is the walk that never stops. -/
def insertTail (r : Rings Head Node) (head : Head) (node : Node) : Option (Rings Head Node) :=
  r.insert (fun _ => false) head node

theorem insert_eq_some :
    r.insert stop head node = some r' ↔ r.ring node = none ∧ r' = r.link stop head node := by
  simp only [insert]
  split <;> simp_all [eq_comm]

theorem insertTail_eq_some :
    r.insertTail head node = some r' ↔
      r.ring node = none ∧ r' = r.link (fun _ => false) head node :=
  insert_eq_some

end Rings
end NodeRings
