import Mathlib.Logic.Function.Basic
import Mathlib.Data.List.Nodup

/-! Chains of cells with a pointer each way. A chain from `a` to `b` is two
pointers between each cell and its successor; a circular list is a chain from
its head to itself, and a chain from a cell to itself through nothing is a
self-linked cell. Two changes of the pointers are described by what they
change: a cell spliced in between two neighbours, and a cell taken out. -/
namespace LinkedCells

structure Cells (Cell : Type) where
  next : Cell → Cell
  prev : Cell → Cell

variable {Cell : Type} {a b c p s link : Cell} {l l₁ l₂ : List Cell}

namespace Cells

@[ext] theorem ext {m m' : Cells Cell} (next : ∀ c, m.next c = m'.next c) (prev : ∀ c, m.prev c = m'.prev c) :
    m = m' := by
  cases m
  cases m'
  simp only [mk.injEq]
  exact ⟨funext next, funext prev⟩

/-- `b` follows `a`, both ways. -/
def Joined (m : Cells Cell) (a b : Cell) : Prop := m.next a = b ∧ m.prev b = a

/-- The cells of `l` lie between `a` and `b`, in this order. -/
def Chain (m : Cells Cell) : Cell → List Cell → Cell → Prop
  | a, [], b => m.Joined a b
  | a, c :: l, b => m.Joined a c ∧ Chain m c l b

variable {m m' : Cells Cell}

theorem Joined.left_inj {a' : Cell} (joined : m.Joined a b) (other : m.Joined a' b) : a = a' :=
  joined.2.symm.trans other.2

/-! ### Chains -/

namespace Chain

theorem append : m.Chain a (l₁ ++ c :: l₂) b ↔ m.Chain a l₁ c ∧ m.Chain c l₂ b := by
  induction l₁ generalizing a with
  | nil => rfl
  | cons d l₁ ih => simp only [List.cons_append, Chain, ih, and_assoc]

/-- The first cell after `a`. -/
theorem next_eq (chain : m.Chain a l b) : m.next a = l.headD b := by
  cases l with
  | nil => exact chain.1
  | cons c l => exact chain.1.1

/-- The two cells on either side of a point of the chain. -/
theorem between (chain : m.Chain a (l₁ ++ l₂) b) : m.Joined (l₁.getLastD a) (l₂.headD b) := by
  induction l₁ generalizing a with
  | nil =>
    cases l₂ with
    | nil => exact chain
    | cons c l₂ => exact chain.1
  | cons c l₁ ih =>
    rw [List.getLastD_cons]
    exact ih chain.2

/-- Pointers kept along the chain keep it. -/
theorem frame (chain : m.Chain a l b)
    (same : ∀ x ∈ a :: l, ∀ y, m.Joined x y → m'.Joined x y) : m'.Chain a l b := by
  induction l generalizing a with
  | nil => exact same a (by simp) b chain
  | cons c l ih =>
    refine ⟨same a (by simp) c chain.1, ih chain.2 ?_⟩
    intro x member
    exact same x (List.mem_cons_of_mem _ member)

/-- A chain depends on the pointers of its own cells. -/
theorem congr (chain : m.Chain a l b)
    (same : ∀ c ∈ a :: (l ++ [b]), m'.next c = m.next c ∧ m'.prev c = m.prev c) : m'.Chain a l b := by
  induction l generalizing a with
  | nil => exact ⟨(same a (by simp)).1.trans chain.1, (same b (by simp)).2.trans chain.2⟩
  | cons c l ih =>
    refine ⟨⟨(same a (by simp)).1.trans chain.1.1, (same c (by simp)).2.trans chain.1.2⟩, ih chain.2 ?_⟩
    intro x member
    exact same x (List.mem_cons_of_mem _ member)

/-- Every cell but the last is followed by one. -/
theorem source (chain : m.Chain a l b) (member : c ∈ a :: l) : ∃ y ∈ l ++ [b], m.Joined c y := by
  induction l generalizing a with
  | nil =>
    obtain rfl : c = a := by simpa using member
    exact ⟨b, by simp, chain⟩
  | cons d l ih =>
    rcases List.mem_cons.mp member with rfl | member
    · exact ⟨d, by simp, chain.1⟩
    · obtain ⟨y, among, joined⟩ := ih chain.2 member
      exact ⟨y, List.mem_cons_of_mem _ among, joined⟩

/-- Every cell but the first follows one. -/
theorem target (chain : m.Chain a l b) (member : c ∈ l ++ [b]) : ∃ x ∈ a :: l, m.Joined x c := by
  induction l generalizing a with
  | nil =>
    obtain rfl : c = b := by simpa using member
    exact ⟨a, by simp, chain⟩
  | cons d l ih =>
    rcases List.mem_cons.mp member with rfl | member
    · exact ⟨a, by simp, chain.1⟩
    · obtain ⟨x, among, joined⟩ := ih chain.2 member
      exact ⟨x, List.mem_cons_of_mem _ among, joined⟩

/-- On a circular list the two pointers undo each other. -/
theorem inverse (chain : m.Chain a l a) (member : c ∈ a :: l) :
    m.prev (m.next c) = c ∧ m.next (m.prev c) = c := by
  obtain ⟨y, _, onward⟩ := chain.source member
  obtain ⟨x, _, backward⟩ := chain.target (c := c) (by simpa [or_comm] using member)
  rw [onward.1, onward.2, backward.2, backward.1]
  exact ⟨rfl, rfl⟩

end Chain

/-! ### A cell spliced in -/

/-- `link` has been put between the neighbours `p` and `s`. -/
structure Spliced (m m' : Cells Cell) (p link s : Cell) : Prop where
  before : m'.Joined p link
  after : m'.Joined link s
  next : ∀ x, x ≠ p → x ≠ link → m'.next x = m.next x
  prev : ∀ y, y ≠ s → y ≠ link → m'.prev y = m.prev y

namespace Spliced

theorem keeps (spliced : Spliced m m' p link s) (neighbours : m.Joined p s) {x y : Cell}
    (joined : m.Joined x y) (source : x ≠ p) (fresh : x ≠ link) (target : y ≠ link) : m'.Joined x y := by
  have other : y ≠ s := by
    rintro rfl
    exact source (Joined.left_inj joined neighbours)
  exact ⟨(spliced.next x source fresh).trans joined.1, (spliced.prev y other target).trans joined.2⟩

/-- A chain that does not start from `p`. -/
theorem chain (spliced : Spliced m m' p link s) (neighbours : m.Joined p s) (chain : m.Chain a l b)
    (away : p ∉ a :: l) (fresh : link ∉ a :: l) (last : link ≠ b) : m'.Chain a l b := by
  induction l generalizing a with
  | nil =>
    simp only [List.mem_singleton] at away fresh
    exact spliced.keeps neighbours chain (Ne.symm away) (Ne.symm fresh) (Ne.symm last)
  | cons c l ih =>
    simp only [List.mem_cons, not_or] at away fresh
    refine ⟨spliced.keeps neighbours chain.1 (Ne.symm away.1) (Ne.symm fresh.1) (Ne.symm fresh.2.1), ?_⟩
    exact ih chain.2 (by simpa using away.2) (by simpa using fresh.2)

/-- The chain through `p` gets `link` between the parts before and after it. -/
theorem insert (spliced : Spliced m m' (l₁.getLastD a) link (l₂.headD b)) (chain : m.Chain a (l₁ ++ l₂) b)
    (nodup : (a :: (l₁ ++ l₂)).Nodup) (fresh : link ∉ a :: (l₁ ++ l₂)) (last : link ≠ b) :
    m'.Chain a (l₁ ++ link :: l₂) b := by
  induction l₁ generalizing a with
  | nil =>
    refine ⟨spliced.before, ?_⟩
    cases l₂ with
    | nil => exact spliced.after
    | cons d l₂ =>
      refine ⟨spliced.after, spliced.chain chain.1 chain.2 ?_ ?_ last⟩
      · exact (List.nodup_cons.mp nodup).1
      · exact fun member => fresh (List.mem_cons_of_mem _ member)
  | cons d l₁ ih =>
    obtain ⟨absent, nodup⟩ := List.nodup_cons.mp nodup
    rw [List.getLastD_cons] at spliced
    simp only [List.cons_append, List.mem_cons, not_or] at fresh
    refine ⟨spliced.keeps chain.2.between chain.1 ?_ (Ne.symm fresh.1) (Ne.symm fresh.2.1), ?_⟩
    · intro same
      have among : a ∈ d :: l₁ := same ▸ List.getLastD_mem_cons
      exact absent (List.mem_append_left l₂ among)
    · exact ih spliced chain.2 nodup (by simpa using fresh.2)

end Spliced

/-! ### A cell taken out -/

/-- The neighbours of `link` have been joined, and `link` with itself. -/
structure Unspliced (m m' : Cells Cell) (link : Cell) : Prop where
  joined : m.prev link ≠ link → m'.Joined (m.prev link) (m.next link)
  free : m'.Joined link link
  next : ∀ x, x ≠ m.prev link → x ≠ link → m'.next x = m.next x
  prev : ∀ y, y ≠ m.next link → y ≠ link → m'.prev y = m.prev y

namespace Unspliced

theorem keeps (unspliced : Unspliced m m' link) (inverse : m.prev (m.next link) = link) {x y : Cell}
    (joined : m.Joined x y) (source : x ≠ m.prev link) (other : x ≠ link) : m'.Joined x y := by
  have distinct : y ≠ link := by
    rintro rfl
    exact source joined.2.symm
  have later : y ≠ m.next link := by
    rintro rfl
    exact other (joined.2.symm.trans inverse)
  exact ⟨(unspliced.next x source other).trans joined.1, (unspliced.prev y later distinct).trans joined.2⟩

/-- A chain that `link` and the cell before it are not on. -/
theorem chain (unspliced : Unspliced m m' link) (inverse : m.prev (m.next link) = link)
    (chain : m.Chain a l b) (away : m.prev link ∉ a :: l) (absent : link ∉ a :: l) : m'.Chain a l b := by
  refine chain.frame ?_
  intro x member y joined
  refine unspliced.keeps inverse joined ?_ ?_
  · rintro rfl
    exact away member
  · rintro rfl
    exact absent member

/-- The chain through `link` closes over it. -/
theorem erase (unspliced : Unspliced m m' link) (chain : m.Chain a (l₁ ++ link :: l₂) b)
    (nodup : (a :: (l₁ ++ link :: l₂)).Nodup) : m'.Chain a (l₁ ++ l₂) b := by
  induction l₁ generalizing a with
  | nil =>
    obtain ⟨joined, rest⟩ := chain
    obtain ⟨absent, nodup⟩ := List.nodup_cons.mp nodup
    simp only [List.nil_append, List.mem_cons, not_or] at absent nodup
    have first := unspliced.joined (by rw [joined.2]; exact absent.1)
    rw [joined.2, rest.next_eq] at first
    cases l₂ with
    | nil => exact first
    | cons c l₂ =>
      refine ⟨first, unspliced.chain ?_ rest.2 ?_ (List.nodup_cons.mp nodup).1⟩
      · rw [rest.1.1, rest.1.2]
      · rw [joined.2]
        exact absent.2
  | cons c l₁ ih =>
    obtain ⟨absent, nodup⟩ := List.nodup_cons.mp nodup
    obtain ⟨before, rest⟩ := Chain.append.mp chain.2
    have inverse : m.prev (m.next link) = link := by
      obtain ⟨y, _, joined⟩ := rest.source (c := link) (by simp)
      rw [joined.1, joined.2]
    refine ⟨unspliced.keeps inverse chain.1 ?_ ?_, ih chain.2 nodup⟩
    · rintro rfl
      obtain ⟨x, member, joined⟩ := before.target (c := link) (by simp)
      rw [joined.2] at absent
      exact absent (List.mem_append_left (link :: l₂) member)
    · rintro rfl
      simp at absent

end Unspliced

/-! ### A walk -/

/-- A walk from `c` that ends where `stop` holds or at `last`, and has no result
when `fuel` runs out. -/
def walk (m : Cells Cell) [DecidableEq Cell] (last : Cell) (stop : Cell → Bool) : Nat → Cell → Option Cell
  | 0, _ => none
  | fuel + 1, c => if c = last then some c else if stop c then some c else walk m last stop fuel (m.next c)

/-- The walk along a chain ends at its first stop, or at its end. -/
theorem Chain.walk [DecidableEq Cell] (stop : Cell → Bool) (chain : m.Chain a l b) (absent : b ∉ l)
    {fuel : Nat} (enough : l.length < fuel) :
    m.walk b stop fuel (m.next a) = some ((l.dropWhile fun c => !stop c).headD b) := by
  induction l generalizing a fuel with
  | nil =>
    obtain ⟨fuel, rfl⟩ := Nat.exists_eq_add_of_lt enough
    rw [chain.1]
    simp [Cells.walk]
  | cons c l ih =>
    obtain ⟨fuel, rfl⟩ : ∃ n, fuel = n + 1 := ⟨fuel - 1, by omega⟩
    simp only [List.mem_cons, not_or] at absent
    rw [chain.1.1, Cells.walk, if_neg (Ne.symm absent.1)]
    by_cases stops : stop c = true
    · simp [stops]
    · rw [if_neg stops, ih chain.2 absent.2 (by simpa using enough)]
      simp [stops]

end Cells
end LinkedCells
