import Mathlib.Data.List.Dedup

/-! Logs of what numbered pieces of work did. A piece is whole when nothing of
another piece stands between two of its entries, and a log in which every piece
is whole is the pieces one after the other. -/
namespace WholePieces

variable {α : Type} {piece : α → Nat} {p : α → Prop} {log : List α} {a : α} {n : Nat}

/-- Nothing of another piece stands between two entries of one piece for which
`p` holds. -/
def Whole (piece : α → Nat) (p : α → Prop) (log : List α) : Prop :=
  ∀ a b c, [a, b, c].Sublist log → p a → p c → piece a = piece c → piece b = piece c

/-- No entry of another piece is newer than one of `n`; the newest entry comes
first. -/
def Latest (piece : α → Nat) (n : Nat) (log : List α) : Prop :=
  ∀ a b, [a, b].Sublist log → piece b = n → piece a = n

theorem whole_nil : Whole piece p [] := by
  intro a b c sub
  cases sub

theorem latest_of_absent (absent : ∀ a ∈ log, piece a ≠ n) : Latest piece n log := by
  intro a b sub same
  have member : b ∈ log := sub.subset (by simp)
  exact absurd same (absent b member)

theorem Latest.cons (latest : Latest piece n log) (same : piece a = n) : Latest piece n (a :: log) := by
  intro b c sub here
  rcases List.sublist_cons_iff.mp sub with older | ⟨_, shape, _⟩
  · exact latest b c older here
  · cases shape
    exact same

theorem Whole.cons (whole : Whole piece p log) (latest : p a → Latest piece (piece a) log) :
    Whole piece p (a :: log) := by
  intro b c d sub first last same
  rcases List.sublist_cons_iff.mp sub with older | ⟨_, shape, older⟩
  · exact whole b c d older first last same
  · cases shape
    rw [← same]
    exact latest first c d older same.symm

/-- The log is its pieces, one after the other. -/
def Serial (piece : α → Nat) (log : List α) : Prop :=
  log = (log.map piece).dedup.flatMap fun n => log.filter (piece · = n)

private theorem blocks_cons_of_not_mem {ns : List Nat} (other : piece a ∉ ns) :
    (ns.flatMap fun n => (a :: log).filter (piece · = n)) = ns.flatMap fun n => log.filter (piece · = n) := by
  refine List.flatMap_congr fun n member => ?_
  have apart : piece a ≠ n := fun same => other (same ▸ member)
  simp [apart]

theorem serial_of_whole (whole : Whole piece (fun _ => True) log) : Serial piece log := by
  induction log with
  | nil => rfl
  | cons a log ih =>
    have older : Whole piece (fun _ => True) log := fun b c d sub => whole b c d (sub.cons a)
    have serial : log = _ := ih older
    unfold Serial
    rw [List.map_cons]
    by_cases again : piece a ∈ log.map piece
    · rw [List.dedup_cons_of_mem again]
      cases shape : (log.map piece).dedup with
      | nil =>
        have listed := List.mem_dedup.mpr again
        rw [shape] at listed
        cases listed
      | cons m ms =>
        -- The first block of `log` is that of `m`, and `a` belongs to it.
        rw [shape, List.flatMap_cons] at serial
        have member : m ∈ log.map piece := List.mem_dedup.mp (shape ▸ List.mem_cons_self)
        obtain ⟨b, inside, rfl⟩ := List.mem_map.mp member
        obtain ⟨c, rest, block⟩ : ∃ c rest, log.filter (piece · = piece b) = c :: rest :=
          List.exists_cons_of_ne_nil (List.ne_nil_of_mem (List.mem_filter.mpr ⟨inside, by simp⟩))
        have first : piece c = piece b := by
          have listed : c ∈ log.filter (piece · = piece b) := block ▸ List.mem_cons_self
          simpa using (List.mem_filter.mp listed).2
        have same : piece a = piece b := by
          obtain ⟨d, later, joined⟩ := List.mem_map.mp again
          rw [block, List.cons_append] at serial
          rw [serial] at later
          rcases List.mem_cons.mp later with rfl | later
          · rw [← joined, first]
          · have sub : [a, c, d].Sublist (a :: log) := by
              rw [serial]
              exact ((List.singleton_sublist.mpr later).cons_cons c).cons_cons a
            rw [← joined, ← whole a c d sub trivial trivial joined.symm, first]
        have fresh : piece a ∉ ms := by
          rw [same]
          exact (List.nodup_cons.mp (shape ▸ List.nodup_dedup (log.map piece))).1
        rw [List.flatMap_cons, blocks_cons_of_not_mem fresh, List.filter_cons_of_pos (by simp [same]),
          List.cons_append, ← serial]
    · have fresh : piece a ∉ (log.map piece).dedup := fun member => again (List.mem_dedup.mp member)
      have alone : log.filter (piece · = piece a) = [] := by
        refine List.filter_eq_nil_iff.mpr fun b member same => again ?_
        rw [← of_decide_eq_true same]
        exact List.mem_map_of_mem member
      rw [List.dedup_cons_of_notMem again, List.flatMap_cons, blocks_cons_of_not_mem fresh,
        List.filter_cons_of_pos (by simp), alone, List.cons_append, List.nil_append, ← serial]

end WholePieces
