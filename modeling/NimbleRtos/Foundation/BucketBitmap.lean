/-! A bit vector as the index of an array of buckets: a bit per bucket, set
while the bucket is occupied, so that counting leading zeros finds the highest
occupied bucket. -/
namespace BucketBitmap

variable {w : Nat} {bits : BitVec w} {occupied : Nat → Prop}

/-- Bit `p` is set exactly while bucket `p` is occupied. -/
def Indexes (bits : BitVec w) (occupied : Nat → Prop) : Prop :=
  ∀ p, p < w → (bits.getLsbD p = true ↔ occupied p)

/-- `w - 1 - clz`, the place of the highest set bit. -/
def highest (bits : BitVec w) : Nat := w - 1 - bits.clz.toNat

theorem getLsbD_one_shift {p q : Nat} (bound : q < w) :
    (1#w <<< p).getLsbD q = true ↔ q = p := by
  simp only [BitVec.getLsbD_shiftLeft, bound, BitVec.getLsbD_one, decide_true, Bool.true_and,
    Bool.and_eq_true, Bool.not_eq_true', decide_eq_false_iff_not, decide_eq_true_eq]
  omega

namespace Indexes

theorem congr {occupied' : Nat → Prop} (index : Indexes bits occupied)
    (same : ∀ p, occupied p ↔ occupied' p) : Indexes bits occupied' :=
  fun p bound => (index p bound).trans (same p)

/-- Setting a bit occupies its bucket. -/
theorem mark (index : Indexes bits occupied) (p : Nat) :
    Indexes (bits ||| (1#w <<< p)) fun q => occupied q ∨ q = p := by
  intro q bound
  rw [BitVec.getLsbD_or, Bool.or_eq_true, index q bound, getLsbD_one_shift bound]

/-- Clearing a bit frees its bucket. -/
theorem unmark (index : Indexes bits occupied) (p : Nat) :
    Indexes (bits &&& ~~~(1#w <<< p)) fun q => occupied q ∧ q ≠ p := by
  intro q bound
  rw [BitVec.getLsbD_and, Bool.and_eq_true, index q bound, BitVec.getLsbD_not, Bool.and_eq_true,
    Bool.not_eq_true', decide_eq_true_eq, ← Bool.not_eq_true, getLsbD_one_shift bound]
  exact and_congr_right fun _ => and_iff_right bound

theorem ne_zero (index : Indexes bits occupied) {p : Nat} (bound : p < w) (here : occupied p) :
    bits ≠ 0 := by
  rintro rfl
  simpa using (index p bound).mpr here

/-- A nonzero index names an occupied bucket, and no occupied bucket is above it. -/
theorem highest_occupied (index : Indexes bits occupied) (nonzero : bits ≠ 0) :
    highest bits < w ∧ occupied (highest bits) ∧
      ∀ q, q < w → occupied q → q ≤ highest bits := by
  have positive : 0 < w := by
    rcases Nat.eq_zero_or_pos w with rfl | positive
    · exact absurd (BitVec.of_length_zero) nonzero
    · exact positive
  have bound : highest bits < w := by unfold highest; omega
  refine ⟨bound, (index _ bound).mp (BitVec.getLsbD_true_clz_of_ne_zero positive nonzero), ?_⟩
  intro q inside here
  have set := (index q inside).mpr here
  have low := BitVec.toNat_lt_two_pow_sub_clz (x := bits)
  apply Nat.le_of_not_lt
  intro above
  rw [BitVec.getLsbD, Nat.testBit_lt_two_pow] at set
  · cases set
  · unfold highest at above
    exact Nat.lt_of_lt_of_le low (Nat.pow_le_pow_right (by omega) (by omega))

end Indexes
end BucketBitmap
