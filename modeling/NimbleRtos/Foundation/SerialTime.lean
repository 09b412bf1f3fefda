import Mathlib.Algebra.Group.Int.Defs
import Mathlib.Algebra.Group.Nat.Defs

/-! Wrapping 32-bit time compared through a signed difference. Two instants
less than half the range apart are ordered by the sign of their difference,
wherever the counter stands. `ahead` is that difference as a number. -/
namespace SerialTime

/-- `(int32_t)(now - instant) >= 0`: `instant` is not after `now`. -/
def reached (now instant : UInt32) : Bool := decide (0 ≤ (now - instant).toInt32)

/-- The signed test reads the top bit of the difference. -/
theorem reached_iff (now instant : UInt32) :
    reached now instant = true ↔ (now - instant).toNat < 2 ^ 31 := by
  rw [reached, decide_eq_true_iff, Int32.le_iff_toInt_le]
  show (0 : Int32).toInt ≤ (now - instant).toBitVec.toInt ↔ _
  rw [BitVec.toInt_eq_toNat_cond]
  have small := (now - instant).toNat_lt
  have zero : (0 : Int32).toInt = 0 := rfl
  rw [zero]
  change _ ↔ (now - instant).toBitVec.toNat < 2 ^ 31
  change (now - instant).toBitVec.toNat < 2 ^ 32 at small
  split <;> omega

/-- Counting up from any instant, one set `span` ahead is reached exactly
`span` counts later, as long as it is no more than half the range ahead. -/
theorem reached_near (start : UInt32) (span elapsed : Nat) (near : span ≤ elapsed + 2 ^ 31)
    (within : elapsed ≤ span) :
    reached (start + UInt32.ofNat elapsed) (start + UInt32.ofNat span) = true ↔ elapsed = span := by
  rw [reached_iff, UInt32.toNat_sub, UInt32.toNat_add, UInt32.toNat_add, UInt32.toNat_ofNat',
    UInt32.toNat_ofNat']
  have := start.toNat_lt
  omega

/-- An instant more than half the range ahead counts as reached. -/
theorem reached_far (start : UInt32) (span elapsed : Nat) (range : span < 2 ^ 32)
    (far : elapsed + 2 ^ 31 < span) :
    reached (start + UInt32.ofNat elapsed) (start + UInt32.ofNat span) = true := by
  rw [reached_iff, UInt32.toNat_sub, UInt32.toNat_add, UInt32.toNat_add, UInt32.toNat_ofNat',
    UInt32.toNat_ofNat']
  have := start.toNat_lt
  omega

/-- Counting up from any instant, one set `span` ahead by less than half the
range is first reached exactly `span` counts later. -/
theorem reached_after (start : UInt32) {span elapsed : Nat} (half : span < 2 ^ 31)
    (within : elapsed ≤ span) :
    reached (start + UInt32.ofNat elapsed) (start + UInt32.ofNat span) = true ↔ elapsed = span :=
  reached_near start span elapsed (by omega) within

/-- `(int32_t)(instant - now)`: how far ahead `instant` lies, negative when it
is past. -/
def ahead (instant now : UInt32) : Int := (instant - now).toInt32.toInt

/-- The signed distance is the one number in range that leads from `now` to
`instant`. -/
theorem ahead_spec (instant now : UInt32) :
    -2 ^ 31 ≤ ahead instant now ∧ ahead instant now < 2 ^ 31 ∧
      (instant.toNat : Int) = (now.toNat + ahead instant now) % 2 ^ 32 := by
  have apart : ahead instant now = (instant - now).toBitVec.toInt := rfl
  rw [apart, BitVec.toInt_eq_toNat_cond]
  have difference : (instant - now).toBitVec.toNat = (2 ^ 32 - now.toNat + instant.toNat) % 2 ^ 32 :=
    UInt32.toNat_sub instant now
  have := instant.toNat_lt
  have := now.toNat_lt
  rw [difference]
  split <;> omega

theorem ahead_unique {instant now : UInt32} {d : Int} (low : -2 ^ 31 ≤ d) (high : d < 2 ^ 31)
    (leads : (instant.toNat : Int) = (now.toNat + d) % 2 ^ 32) : ahead instant now = d := by
  obtain ⟨_, _, there⟩ := ahead_spec instant now
  omega

theorem ahead_inj {a b now : UInt32} : ahead a now = ahead b now ↔ a = b := by
  constructor
  · intro same
    obtain ⟨_, _, first⟩ := ahead_spec a now
    obtain ⟨_, _, second⟩ := ahead_spec b now
    rw [same] at first
    exact UInt32.toNat_inj.mp (by omega)
  · rintro rfl
    rfl

/-- Two instants less than half the range apart are compared directly as they
are compared from `now`. -/
theorem ahead_sub {a b now : UInt32} (low : -2 ^ 31 ≤ ahead a now - ahead b now)
    (high : ahead a now - ahead b now < 2 ^ 31) : ahead a b = ahead a now - ahead b now := by
  obtain ⟨_, _, first⟩ := ahead_spec a now
  obtain ⟨_, _, second⟩ := ahead_spec b now
  exact ahead_unique low high (by omega)

/-- Time passes. -/
theorem ahead_succ (instant now : UInt32) (inside : -2 ^ 31 < ahead instant now) :
    ahead instant (now + 1) = ahead instant now - 1 := by
  obtain ⟨_, _, there⟩ := ahead_spec instant now
  have one : (1 : UInt32).toNat = 1 := rfl
  apply ahead_unique
  · omega
  · omega
  · rw [UInt32.toNat_add, one]
    omega

/-- An instant is put off. -/
theorem ahead_add (instant now span : UInt32) (high : ahead instant now + span.toNat < 2 ^ 31) :
    ahead (instant + span) now = ahead instant now + span.toNat := by
  obtain ⟨_, _, there⟩ := ahead_spec instant now
  apply ahead_unique
  · omega
  · exact high
  · rw [UInt32.toNat_add]
    omega

@[simp] theorem ahead_self (now : UInt32) : ahead now now = 0 :=
  ahead_unique (by omega) (by omega) (by have := now.toNat_lt; omega)

/-- An instant told from its distance and the time gone by since `start`. -/
theorem eq_of_ahead {instant now start : UInt32} {elapsed due : Nat}
    (clock : now = start + .ofNat elapsed) (apart : ahead instant now = (due : Int) - elapsed) :
    instant = start + .ofNat due := by
  obtain ⟨_, _, there⟩ := ahead_spec instant now
  rw [apart, clock, UInt32.toNat_add, UInt32.toNat_ofNat'] at there
  apply UInt32.toNat_inj.mp
  rw [UInt32.toNat_add, UInt32.toNat_ofNat']
  have := instant.toNat_lt
  omega

/-- An instant no nearer than one still ahead does not come before it. -/
theorem ahead_of_no_nearer {a b now : UInt32} (positive : 0 < ahead b now)
    (within : ahead b now ≤ ahead a now) : 0 ≤ ahead a b := by
  obtain ⟨_, high, _⟩ := ahead_spec a now
  have apart : ahead a b = ahead a now - ahead b now := ahead_sub (by omega) (by omega)
  omega

/-- A distance that is not negative is the unsigned difference. -/
theorem toNat_sub_of_ahead {instant now : UInt32} (later : 0 ≤ ahead instant now) :
    ((instant - now).toNat : Int) = ahead instant now := by
  obtain ⟨_, high, there⟩ := ahead_spec instant now
  have small := now.toNat_lt
  rw [UInt32.toNat_sub]
  omega

/-- An instant that is not past and has not been reached is still ahead. -/
theorem ahead_of_not_reached {instant now : UInt32} (later : 0 ≤ ahead instant now)
    (early : reached now instant = false) : 0 < ahead instant now := by
  rcases Int.lt_or_eq_of_le later with positive | now_it_is
  · exact positive
  · have same : instant = now := ahead_inj.mp (now_it_is.symm.trans (ahead_self now).symm)
    rw [same, (reached_iff now now).mpr (by simp)] at early
    cases early

theorem pos_iff_ahead {instant now : UInt32} :
    0 < (instant - now).toInt32 ↔ 0 < ahead instant now := Int32.lt_iff_toInt_lt

theorem neg_iff_ahead {instant now : UInt32} :
    (instant - now).toInt32 < 0 ↔ ahead instant now < 0 := Int32.lt_iff_toInt_lt

end SerialTime
