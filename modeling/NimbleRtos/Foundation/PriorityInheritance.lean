import NimbleRtos.Foundation.NodeRings

/-! Locks with priority inheritance one level deep: a task that waits for a
lock lends its priority to the owner, and an owner that gives a lock up falls
back to its base priority, whatever else it owns. -/
namespace PriorityInheritance
open NodeRings

structure Locks (Lock Task : Type) where
  owner : Lock → Option Task
  waiters : Lock → List Task
  priority : Task → Nat
  base : Task → Nat

variable {Lock Task : Type}

namespace Locks

section
variable [DecidableEq Lock] [DecidableEq Task] (x : Locks Lock Task)

/-- A new task with its priority. -/
def arrive (t : Task) (p : Nat) : Locks Lock Task :=
  { x with priority := Function.update x.priority t p, base := Function.update x.base t p }

/-- `t` takes the free lock `m`. -/
def claim (m : Lock) (t : Task) : Locks Lock Task :=
  { x with owner := Function.update x.owner m (some t) }

/-- `holder` has at least the priority of `t`. -/
def lend (holder t : Task) : Task → Nat :=
  Function.update x.priority holder (max (x.priority holder) (x.priority t))

/-- `t` waits for `m`, behind the waiters of no lower priority. -/
def wait (m : Lock) (holder t : Task) : Locks Lock Task :=
  { x with
    priority := x.lend holder t
    waiters := Function.update x.waiters m
      (place (fun other => decide (x.lend holder t other < x.lend holder t t)) t (x.waiters m)) }

/-- `t` gives `m` up to `next`, and `rest` wait on. -/
def pass (m : Lock) (t : Task) (next : Option Task) (rest : List Task) : Locks Lock Task :=
  { x with
    owner := Function.update x.owner m next
    waiters := Function.update x.waiters m rest
    priority := Function.update x.priority t (x.base t) }

end

/-- The steps of such locks. `orderly` is what a step has to satisfy for its
waiter to own nothing and for what its owner keeps to need no lent priority. -/
inductive Step [DecidableEq Lock] [DecidableEq Task] (orderly : Prop) (x : Locks Lock Task) :
    Locks Lock Task → Prop where
  | leaves {waiters : Lock → List Task} (fewer : ∀ m, (waiters m).Sublist (x.waiters m)) :
      Step orderly x { x with waiters }
  | arrives {t : Task} (p : Nat) (owns : ∀ m, x.owner m ≠ some t) (waits : ∀ m, t ∉ x.waiters m) :
      Step orderly x (x.arrive t p)
  | claims {m : Lock} {t : Task} (free : x.owner m = none) (waits : ∀ m, t ∉ x.waiters m) :
      Step orderly x (x.claim m t)
  | waits {m : Lock} {holder t : Task} (owned : x.owner m = some holder) (other : holder ≠ t)
      (unchained : orderly → ∀ m, x.owner m ≠ some t) : Step orderly x (x.wait m holder t)
  | frees {m : Lock} {t : Task} (owned : x.owner m = some t) (empty : x.waiters m = [])
      (kept : orderly → ∀ m' w, m' ≠ m → x.owner m' = some t → w ∈ x.waiters m' →
        x.priority w ≤ x.base t) :
      Step orderly x (x.pass m t none [])
  | hands {m : Lock} {t next : Task} {rest : List Task} (owned : x.owner m = some t)
      (shape : x.waiters m = next :: rest) (once : next ∉ rest)
      (nowhere : ∀ m', m' ≠ m → next ∉ x.waiters m')
      (kept : orderly → ∀ m' w, m' ≠ m → x.owner m' = some t → w ∈ x.waiters m' →
        x.priority w ≤ x.base t) :
      Step orderly x (x.pass m t (some next) rest)

/-- A task that owns no lock has its own priority. -/
def Unboosted (x : Locks Lock Task) : Prop :=
  ∀ t, (∀ m, x.owner m ≠ some t) → x.priority t = x.base t

/-- An owner has at least the priority of everyone who waits for it. -/
def Covered (x : Locks Lock Task) : Prop :=
  ∀ m o w, x.owner m = some o → w ∈ x.waiters m → x.priority w ≤ x.priority o

/-- What keeps `Covered` going. -/
structure Orderly (x : Locks Lock Task) : Prop where
  unowned : ∀ m, x.owner m = none → x.waiters m = []
  resting : ∀ m m' t, t ∈ x.waiters m → x.owner m' ≠ some t
  sorted : ∀ m, (x.waiters m).Pairwise fun a b => x.priority b ≤ x.priority a
  covered : x.Covered

namespace Orderly
variable {x : Locks Lock Task} {m : Lock} {t : Task}

private theorem leave {waiters : Lock → List Task} (sound : x.Orderly)
    (fewer : ∀ m, (waiters m).Sublist (x.waiters m)) : Orderly { x with waiters } where
  unowned m free := List.sublist_nil.mp (sound.unowned m free ▸ fewer m)
  resting m m' t waiting := sound.resting m m' t ((fewer m).subset waiting)
  sorted m := (sound.sorted m).sublist (fewer m)
  covered m o w owned waiting := sound.covered m o w owned ((fewer m).subset waiting)

section
variable [DecidableEq Lock]

private theorem claim (sound : x.Orderly) (free : x.owner m = none) (waits : ∀ m, t ∉ x.waiters m) :
    (x.claim m t).Orderly := by
  refine ⟨?_, ?_, sound.sorted, ?_⟩
  · intro m' unowned
    by_cases same : m' = m
    · simp [Locks.claim, same] at unowned
    · exact sound.unowned m' (by simpa [Locks.claim, same] using unowned)
  · intro m₁ m₂ u waiting owned
    by_cases same : m₂ = m
    · have mine : t = u := by simpa [Locks.claim, same] using owned
      exact waits m₁ (mine ▸ waiting)
    · exact sound.resting m₁ m₂ u waiting (by simpa [Locks.claim, same] using owned)
  · intro m' o w owned waiting
    by_cases same : m' = m
    · subst same
      have empty : x.waiters m' = [] := sound.unowned m' free
      rw [show (x.claim m' t).waiters m' = [] from empty] at waiting
      cases waiting
    · exact sound.covered m' o w (by simpa [Locks.claim, same] using owned) waiting

end

variable [DecidableEq Task]

/-- A change of an owner's priority is not a change of a waiter's. -/
theorem waiter_priority (sound : x.Orderly) {o w : Task} (owned : x.owner m = some o) {m' : Lock}
    (waiting : w ∈ x.waiters m') (p : Nat) : Function.update x.priority o p w = x.priority w :=
  Function.update_of_ne (by rintro rfl; exact sound.resting m' m w waiting owned) _ _

private theorem sorted_lent (sound : x.Orderly) {o : Task} (owned : x.owner m = some o) (p : Nat)
    (m' : Lock) : (x.waiters m').Pairwise fun a b =>
      Function.update x.priority o p b ≤ Function.update x.priority o p a :=
  (sound.sorted m').imp_of_mem fun first second before => by
    rwa [sound.waiter_priority owned first, sound.waiter_priority owned second]

private theorem arrive (sound : x.Orderly) (p : Nat) (owns : ∀ m, x.owner m ≠ some t)
    (waits : ∀ m, t ∉ x.waiters m) : (x.arrive t p).Orderly := by
  have old {m : Lock} {w : Task} (waiting : w ∈ x.waiters m) :
      Function.update x.priority t p w = x.priority w :=
    Function.update_of_ne (by rintro rfl; exact waits m waiting) _ _
  refine ⟨sound.unowned, sound.resting, fun m => (sound.sorted m).imp_of_mem ?_, ?_⟩
  · intro a b first second before
    show Function.update x.priority t p b ≤ Function.update x.priority t p a
    rwa [old first, old second]
  · intro m o w owned waiting
    show Function.update x.priority t p w ≤ Function.update x.priority t p o
    have other : o ≠ t := by
      rintro rfl
      exact owns m owned
    rw [old waiting, Function.update_of_ne other]
    exact sound.covered m o w owned waiting

variable [DecidableEq Lock]

private theorem wait {holder : Task} (sound : x.Orderly) (owned : x.owner m = some holder)
    (unchained : ∀ m, x.owner m ≠ some t) : (x.wait m holder t).Orderly := by
  have other : t ≠ holder := fun same => unchained m (same ▸ owned)
  have mine : x.lend holder t t = x.priority t := Function.update_of_ne other _ _
  have old {m : Lock} {w : Task} (waiting : w ∈ x.waiters m) :
      x.lend holder t w = x.priority w := sound.waiter_priority owned waiting _
  have higher (o : Task) : x.priority o ≤ x.lend holder t o := by
    unfold lend
    by_cases same : o = holder
    · subst same
      rw [Function.update_self]
      exact Nat.le_max_left _ _
    · simp [same]
  have waiting_cases {m' : Lock} {w : Task} (waiting : w ∈ (x.wait m holder t).waiters m') :
      (m' = m ∧ w = t) ∨ w ∈ x.waiters m' := by
    by_cases same : m' = m
    · subst same
      rcases (by simpa [Locks.wait] using waiting : w = t ∨ w ∈ x.waiters m') with here | before
      · exact .inl ⟨rfl, here⟩
      · exact .inr before
    · exact .inr (by simpa [Locks.wait, same] using waiting)
  refine ⟨?_, ?_, ?_, ?_⟩
  · intro m' free
    have distinct : m' ≠ m := fun same => by
      rw [same, show (x.wait m holder t).owner m = some holder from owned] at free
      cases free
    simpa [Locks.wait, distinct] using sound.unowned m' free
  · intro m₁ m₂ u waiting
    rcases waiting_cases waiting with ⟨_, rfl⟩ | before
    · exact unchained m₂
    · exact sound.resting m₁ m₂ u before
  · intro m'
    have sorted := sound.sorted_lent owned (max (x.priority holder) (x.priority t)) m'
    by_cases same : m' = m
    · subst same
      rw [show (x.wait m' holder t).waiters m' = _ from Function.update_self ..]
      exact place_sorted sorted
    · rw [show (x.wait m holder t).waiters m' = _ from Function.update_of_ne same ..]
      exact sorted
  · intro m' o w owns waiting
    show x.lend holder t w ≤ x.lend holder t o
    rcases waiting_cases waiting with ⟨rfl, rfl⟩ | before
    · obtain rfl : o = holder := Option.some.inj (owns.symm.trans owned)
      rw [mine, lend, Function.update_self]
      exact Nat.le_max_right _ _
    · rw [old before]
      exact Nat.le_trans (sound.covered m' o w owns before) (higher o)

/-- Both ways of giving a lock up. -/
private theorem pass {next : Option Task} {rest : List Task} (sound : x.Orderly)
    (owned : x.owner m = some t) (shorter : rest.Sublist (x.waiters m))
    (nobody : next = none → rest = [])
    (first : ∀ u, next = some u → (∀ w ∈ rest, x.priority w ≤ x.priority u) ∧ u ≠ t ∧ u ∉ rest ∧
      ∀ m', m' ≠ m → u ∉ x.waiters m')
    (kept : ∀ m' w, m' ≠ m → x.owner m' = some t → w ∈ x.waiters m' → x.priority w ≤ x.base t) :
    (x.pass m t next rest).Orderly := by
  have fewer (m' : Lock) : ((x.pass m t next rest).waiters m').Sublist (x.waiters m') := by
    by_cases same : m' = m
    · subst same; simpa [Locks.pass] using shorter
    · simp [Locks.pass, same]
  have old {m' : Lock} {w : Task} (waiting : w ∈ (x.pass m t next rest).waiters m') :
      (x.pass m t next rest).priority w = x.priority w :=
    sound.waiter_priority owned ((fewer m').subset waiting) _
  refine ⟨?_, ?_, ?_, ?_⟩
  · intro m' free
    by_cases same : m' = m
    · subst same
      simp only [Locks.pass, Function.update_self] at free ⊢
      exact nobody free
    · simpa [Locks.pass, same] using sound.unowned m' (by simpa [Locks.pass, same] using free)
  · intro m₁ m₂ u waiting owns
    by_cases same : m₂ = m
    · subst same
      obtain ⟨_, _, once, nowhere⟩ := first u (by simpa [Locks.pass] using owns)
      by_cases here : m₁ = m₂
      · subst here
        exact once (by simpa [Locks.pass] using waiting)
      · exact nowhere m₁ here (by simpa [Locks.pass, here] using waiting)
    · exact sound.resting m₁ m₂ u ((fewer m₁).subset waiting) (by simpa [Locks.pass, same] using owns)
  · intro m'
    exact (sound.sorted_lent owned (x.base t) m').sublist (fewer m')
  · intro m' o w owns waiting
    rw [old waiting]
    by_cases same : m' = m
    · subst same
      obtain ⟨highest, other, _⟩ := first o (by simpa [Locks.pass] using owns)
      rw [show (x.pass m' t next rest).priority o = x.priority o from Function.update_of_ne other _ _]
      exact highest w (by simpa [Locks.pass] using waiting)
    · have owned' : x.owner m' = some o := by simpa [Locks.pass, same] using owns
      have before := (fewer m').subset waiting
      by_cases mine : o = t
      · subst mine
        rw [show (x.pass m o next rest).priority o = x.base o from Function.update_self ..]
        exact kept m' w same owned' before
      · rw [show (x.pass m t next rest).priority o = x.priority o from Function.update_of_ne mine _ _]
        exact sound.covered m' o w owned' before

theorem step {x' : Locks Lock Task} {orderly : Prop} (sound : x.Orderly)
    (step : Step orderly x x') (holds : orderly) : x'.Orderly := by
  cases step with
  | leaves fewer => exact sound.leave fewer
  | arrives p owns waits => exact sound.arrive p owns waits
  | claims free waits => exact sound.claim free waits
  | waits owned _ unchained => exact sound.wait owned (unchained holds)
  | frees owned empty kept =>
    exact sound.pass owned (List.nil_sublist _) (fun _ => rfl) (by simp) (kept holds)
  | @hands m t next rest owned shape once nowhere kept =>
    have sorted := sound.sorted m
    rw [shape, List.pairwise_cons] at sorted
    refine sound.pass owned (by rw [shape]; exact List.sublist_cons_self _ _) (by simp) ?_ (kept holds)
    rintro u ⟨rfl⟩
    have waiting : next ∈ x.waiters m := by simp [shape]
    exact ⟨sorted.1, fun same => sound.resting m m next waiting (same ▸ owned), once, nowhere⟩

end Orderly

variable [DecidableEq Lock] {x x' : Locks Lock Task} {orderly : Prop}

/-- A task that owns nothing after another took or lost a lock owned nothing
before, unless the lock was its own. -/
private theorem owns_nothing {owner : Lock → Option Task} {m : Lock} {next : Option Task} {u : Task}
    (nothing : ∀ m', Function.update owner m next m' ≠ some u) (lost : owner m ≠ some u)
    (m' : Lock) : owner m' ≠ some u := by
  by_cases same : m' = m
  · rw [same]; exact lost
  · have := nothing m'
    rwa [Function.update_of_ne same] at this

variable [DecidableEq Task]

theorem Unboosted.step (unboosted : x.Unboosted) (step : Step orderly x x') : x'.Unboosted := by
  intro u nothing
  cases step with
  | leaves => exact unboosted u nothing
  | @arrives t p =>
    by_cases same : u = t
    · simp [arrive, same]
    · simpa [arrive, same] using unboosted u nothing
  | claims free => exact unboosted u (owns_nothing nothing (by simp [free]))
  | @waits m holder t owned =>
    have other : u ≠ holder := fun same => nothing m (same ▸ owned)
    simpa [wait, lend, other] using unboosted u nothing
  | @frees m t owned | @hands m t _ _ owned =>
    by_cases same : u = t
    · simp [pass, same]
    · have before := owns_nothing nothing (by simp [owned, Ne.symm same])
      simpa [pass, same] using unboosted u before

/-- An owner that keeps a lock whose waiter is above the owner's base priority
falls below the waiter. -/
theorem pass_uncovers {m m' : Lock} {t w : Task} {next : Option Task} {rest : List Task}
    (other : m' ≠ m) (owned : x.owner m' = some t) (waiting : w ∈ x.waiters m') (distinct : w ≠ t)
    (higher : x.base t < x.priority w) : ¬ (x.pass m t next rest).Covered := by
  intro covered
  have below := covered m' t w (by simpa [pass, other] using owned)
    (by simpa [pass, other] using waiting)
  simp only [pass, Function.update_self, Function.update_of_ne distinct] at below
  omega

end Locks
end PriorityInheritance
