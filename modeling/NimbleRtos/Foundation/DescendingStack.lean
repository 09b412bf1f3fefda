import Mathlib.Algebra.Group.Basic
import Mathlib.Data.List.Nodup
import Mathlib.Logic.Function.Basic
import Mathlib.Tactic.Abel

/-! Memory words at consecutive addresses and full-descending stacks: what a
group of stores leaves behind and what it leaves alone, registers loaded back
from the words they were stored to, and words pushed one at a time. A word is
`word` address units wide; nothing is assumed of addresses beyond a group. -/
namespace DescendingStack

variable {Addr Val Reg : Type} [AddCommGroup Addr]

/-- The address `n` words above `base`. -/
def above (word base : Addr) (n : Nat) : Addr := base + n • word

/-- `n` words from any base are at `n` different addresses. -/
def Distinct (word : Addr) (n : Nat) : Prop := ∀ i < n, ∀ j < n, i • word = j • word → i = j

/-- The words from `base` upwards are `values`. -/
def Holds (word : Addr) (memory : Addr → Val) (base : Addr) (values : List Val) : Prop :=
  ∀ i (below : i < values.length), memory (above word base i) = values[i]

/-- Two memories agree on `n` words from `base`. -/
def SameFrom (word : Addr) (memory memory' : Addr → Val) (base : Addr) (n : Nat) : Prop :=
  ∀ i < n, memory' (above word base i) = memory (above word base i)

section Writing
variable [DecidableEq Addr] [DecidableEq Reg]

/-- Stores consecutive words from `base` upwards. -/
def storeAll (word : Addr) (memory : Addr → Val) (base : Addr) : List Val → Addr → Val
  | [] => memory
  | v :: vs => storeAll word (Function.update memory base v) (base + word) vs

/-- Loads the named registers from consecutive words, the first from `base`. -/
def loadRegisters (word : Addr) (memory : Addr → Val) (base : Addr) (regs : Reg → Val) :
    List Reg → Reg → Val
  | [] => regs
  | r :: rest => loadRegisters word memory (base + word) (Function.update regs r (memory base)) rest

/-- `*(--sp) = v`, on the memory and the stack pointer. -/
def push (word : Addr) (s : (Addr → Val) × Addr) (v : Val) : (Addr → Val) × Addr :=
  (Function.update s.1 (s.2 - word) v, s.2 - word)

end Writing

variable {word base a : Addr} {memory memory' : Addr → Val} {values rest : List Val} {i j m n : Nat}

@[simp] theorem above_zero : above word base 0 = base := by simp [above]

theorem above_succ : above word base (n + 1) = above word (base + word) n := by
  simp only [above, succ_nsmul']
  abel

theorem above_above : above word (above word base m) n = above word base (m + n) := by
  simp only [above, add_nsmul]
  abel

theorem above_sub_word : above word base (n + 1) - word = above word base n := by
  simp only [above, succ_nsmul]
  abel

theorem above_sub (fits : m ≤ n) : above word base n - m • word = above word base (n - m) := by
  obtain ⟨k, rfl⟩ := Nat.exists_eq_add_of_le fits
  simp only [above, add_nsmul, Nat.add_sub_cancel_left]
  abel

theorem Distinct.mono (distinct : Distinct word n) (fits : m ≤ n) : Distinct word m := by
  intro i first j second same
  exact distinct i (by omega) j (by omega) same

theorem Distinct.above_inj (distinct : Distinct word n) (first : i < n) (second : j < n)
    (same : above word base i = above word base j) : i = j :=
  distinct i first j second (add_left_cancel same)

namespace Holds

theorem cons_iff {v : Val} : Holds word memory base (v :: rest) ↔
    memory base = v ∧ Holds word memory (base + word) rest := by
  constructor
  · intro holds
    constructor
    · have first := holds 0 (Nat.succ_pos _)
      rwa [above_zero] at first
    · intro i below
      have later := holds (i + 1) (Nat.succ_lt_succ below)
      rwa [above_succ] at later
  · rintro ⟨first, later⟩ i below
    cases i with
    | zero => simpa using first
    | succ i => simpa [above_succ] using later i (by simpa using below)

theorem append_iff : Holds word memory base (values ++ rest) ↔
    Holds word memory base values ∧ Holds word memory (above word base values.length) rest := by
  induction values generalizing base with
  | nil => simp [Holds]
  | cons v values ih =>
    rw [List.cons_append, cons_iff, cons_iff, ih, List.length_cons, above_succ, and_assoc]

theorem same (holds : Holds word memory base values)
    (same : SameFrom word memory memory' base values.length) : Holds word memory' base values := by
  intro i below
  rw [same i below]
  exact holds i below

end Holds

section Writing
variable [DecidableEq Addr] [DecidableEq Reg]

theorem storeAll_outside (outside : ∀ i < values.length, a ≠ above word base i) :
    storeAll word memory base values a = memory a := by
  induction values generalizing memory base with
  | nil => rfl
  | cons v values ih =>
    have later : ∀ i < values.length, a ≠ above word (base + word) i := by
      intro i below
      rw [← above_succ]
      exact outside (i + 1) (by simpa using below)
    have first : a ≠ base := by simpa using outside 0 (by simp)
    rw [storeAll, ih later, Function.update_of_ne first]

/-- Words stay as they are when others are stored. -/
theorem Holds.storeAll {base' : Addr} {stored : List Val} (holds : Holds word memory base values)
    (apart : ∀ i < values.length, ∀ j < stored.length, above word base i ≠ above word base' j) :
    Holds word (storeAll word memory base' stored) base values := by
  refine holds.same ?_
  intro i below
  exact storeAll_outside (apart i below)

theorem Holds.update {v : Val} (holds : Holds word memory base values)
    (apart : ∀ i < values.length, above word base i ≠ a) :
    Holds word (Function.update memory a v) base values := by
  refine holds.same ?_
  intro i below
  exact Function.update_of_ne (apart i below) _ _

theorem storeAll_holds (distinct : Distinct word values.length) :
    Holds word (storeAll word memory base values) base values := by
  induction values generalizing memory base with
  | nil => simp [Holds]
  | cons v values ih =>
    refine Holds.cons_iff.mpr ⟨?_, ih (distinct.mono (by simp))⟩
    have apart : ∀ i < values.length, base ≠ above word (base + word) i := by
      intro i below same
      rw [← above_succ] at same
      have := distinct.above_inj (i := 0) (j := i + 1) (by simp) (by simpa using below)
        (above_zero.trans same)
      omega
    rw [storeAll, storeAll_outside apart, Function.update_self]

omit [DecidableEq Addr] in
/-- Registers loaded from words that hold what they were are what they were. -/
theorem loadRegisters_holds {names : List Reg} {saved : Reg → Val} (nodup : names.Nodup)
    (holds : Holds word memory base (names.map saved)) (regs : Reg → Val) (r : Reg) :
    loadRegisters word memory base regs names r = if r ∈ names then saved r else regs r := by
  induction names generalizing base regs with
  | nil => rfl
  | cons name names ih =>
    obtain ⟨fresh, nodup⟩ := List.nodup_cons.mp nodup
    obtain ⟨first, later⟩ := Holds.cons_iff.mp holds
    rw [loadRegisters, ih nodup later, first]
    by_cases listed : r ∈ names
    · simp [listed]
    · by_cases same : r = name
      · subst same
        simp [listed]
      · simp [listed, same]

/-- Words pushed from the top of a free stretch fill it from the top down. -/
theorem push_all (distinct : Distinct word values.length) :
    (values.foldl (push word) (memory, above word base values.length)).2 = base ∧
      Holds word (values.foldl (push word) (memory, above word base values.length)).1 base values.reverse ∧
      ∀ a, (∀ i < values.length, a ≠ above word base i) →
        (values.foldl (push word) (memory, above word base values.length)).1 a = memory a := by
  induction values generalizing memory with
  | nil => simp [Holds]
  | cons v values ih =>
    obtain ⟨pointer, holds, outside⟩ :=
      @ih (Function.update memory (above word base values.length) v)
        (distinct.mono (by simp))
    simp only [List.foldl_cons, List.length_cons, push, above_sub_word]
    have top : ∀ i < values.length, above word base values.length ≠ above word base i := by
      intro i below same
      have := distinct.above_inj (by simp) (by simp; omega) same
      omega
    refine ⟨pointer, ?_, ?_⟩
    · rw [List.reverse_cons]
      refine Holds.append_iff.mpr ⟨holds, Holds.cons_iff.mpr ⟨?_, by simp [Holds]⟩⟩
      rw [List.length_reverse, outside _ top, Function.update_self]
    · intro a elsewhere
      rw [outside a fun i below => elsewhere i (by omega)]
      exact Function.update_of_ne (elsewhere values.length (by omega)) _ _

end Writing
end DescendingStack
