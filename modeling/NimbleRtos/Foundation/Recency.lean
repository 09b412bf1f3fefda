/-! When something last happened, told from a log that grows at its head. The
length of the log at the time is a time stamp: later events have larger ones,
and entries about something else leave it as it is. -/
namespace Recency

variable {Entry : Type} {about : Entry → Bool} {log : List Entry}

/-- The length of the log when the newest entry of the kind was written, 0 if
there is none. -/
def latest (about : Entry → Bool) : List Entry → Nat
  | [] => 0
  | e :: older => if about e then older.length + 1 else latest about older

theorem latest_cons (e : Entry) :
    latest about (e :: log) = if about e then log.length + 1 else latest about log := rfl

theorem latest_le (about : Entry → Bool) (log : List Entry) : latest about log ≤ log.length := by
  induction log with
  | nil => exact Nat.le_refl 0
  | cons e older ih =>
    rw [latest_cons]
    split
    · exact Nat.le_refl _
    · exact Nat.le_succ_of_le ih

theorem latest_append {entries : List Entry} (other : ∀ e ∈ entries, about e = false) :
    latest about (entries ++ log) = latest about log := by
  induction entries with
  | nil => rfl
  | cons e rest ih =>
    rw [List.cons_append, latest_cons, other e (by simp), ih fun e member => other e (by simp [member])]
    rfl

end Recency
