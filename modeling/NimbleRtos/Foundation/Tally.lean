import Mathlib.Data.List.Nodup

/-! Counting the members of a finite population that stand in a given place,
and how the count changes when one of them moves. -/
namespace Tally

variable {α : Type} {l : List α} {p p' : α → Bool} {a : α}

/-- One member moved: the count changes by what that member contributes. -/
theorem countP_move (nodup : l.Nodup) (member : a ∈ l) (others : ∀ b, b ≠ a → p' b = p b) :
    l.countP p' + (p a).toNat = l.countP p + (p' a).toNat := by
  induction l with
  | nil => cases member
  | cons head rest ih =>
    obtain ⟨absent, nodup⟩ := List.nodup_cons.mp nodup
    simp only [List.countP_cons]
    rcases List.mem_cons.mp member with rfl | member
    · have same : rest.countP p' = rest.countP p :=
        List.countP_congr fun b listed => by
          rw [others b fun equal => absent (equal ▸ listed)]
      rw [same]
      cases p a <;> cases p' a <;> simp
    · have other : head ≠ a := fun equal => absent (equal ▸ member)
      have := ih nodup member
      rw [others head other]
      omega

end Tally
