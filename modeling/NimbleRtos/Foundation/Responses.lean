/-! Whether the newest signal has been answered, told from a log that grows at
its head. An answer is begun and later ends; only one begun after the signal
counts. -/
namespace Responses

/-- What an entry is to the signals and their answers. -/
inductive Kind where
  | signal | begins | ends | other
  deriving DecidableEq, Repr

/-- How far the newest signal has been answered. -/
inductive Phase where
  | quiet | raised | answering | answered
  deriving DecidableEq, Repr

def Phase.next : Phase → Kind → Phase
  | _, .signal => .raised
  | .raised, .begins => .answering
  | .answering, .ends => .answered
  | phase, _ => phase

section
variable {Entry : Type} {kind : Entry → Kind} {log : List Entry}

def phase (kind : Entry → Kind) : List Entry → Phase
  | [] => .quiet
  | e :: older => (phase kind older).next (kind e)

@[simp] theorem phase_cons (e : Entry) : phase kind (e :: log) = (phase kind log).next (kind e) := rfl

@[simp] theorem Phase.next_other (p : Phase) : p.next .other = p := by cases p <;> rfl

theorem Phase.next_eq_quiet {p : Phase} {k : Kind} : p.next k = .quiet ↔ p = .quiet ∧ k ≠ .signal := by
  cases p <;> cases k <;> simp [next]

theorem Phase.next_eq_raised {p : Phase} {k : Kind} :
    p.next k = .raised ↔ k = .signal ∨ p = .raised ∧ k ≠ .begins := by
  cases p <;> cases k <;> simp [next]

theorem Phase.next_eq_answering {p : Phase} {k : Kind} : p.next k = .answering ↔
    p = .raised ∧ k = .begins ∨ p = .answering ∧ k ≠ .signal ∧ k ≠ .ends := by
  cases p <;> cases k <;> simp [next]

theorem Phase.next_eq_answered {p : Phase} {k : Kind} : p.next k = .answered ↔
    p = .answering ∧ k = .ends ∨ p = .answered ∧ k ≠ .signal := by
  cases p <;> cases k <;> simp [next]

/-- Entries about something else leave the phase as it is. -/
theorem phase_append {entries : List Entry} (others : ∀ e ∈ entries, kind e = .other) :
    phase kind (entries ++ log) = phase kind log := by
  induction entries with
  | nil => rfl
  | cons e rest ih =>
    obtain ⟨here, rest⟩ := List.forall_mem_cons.mp others
    rw [List.cons_append, phase_cons, here, Phase.next_other, ih rest]

/-- Nothing was signalled. -/
theorem phase_quiet : phase kind log = .quiet ↔ ∀ e ∈ log, kind e ≠ .signal := by
  induction log with
  | nil => simp [phase]
  | cons e older ih => rw [phase_cons, Phase.next_eq_quiet, ih, List.forall_mem_cons, and_comm]

/-- The newest signal, with nothing begun since. -/
theorem split_raised (raised : phase kind log = .raised) :
    ∃ before signal older, log = before ++ signal :: older ∧ kind signal = .signal ∧
      ∀ e ∈ before, kind e ≠ .signal ∧ kind e ≠ .begins := by
  induction log with
  | nil => cases raised
  | cons e older ih =>
    by_cases signalled : kind e = .signal
    · exact ⟨[], e, older, rfl, signalled, by simp⟩
    · obtain ⟨now, unbegun⟩ := (Phase.next_eq_raised.mp raised).resolve_left signalled
      obtain ⟨before, signal, older, rfl, about, rest⟩ := ih now
      exact ⟨e :: before, signal, older, rfl, about, List.forall_mem_cons.mpr ⟨⟨signalled, unbegun⟩, rest⟩⟩

/-- The answer begun first after the newest signal, which has not ended. -/
theorem split_answering (answering : phase kind log = .answering) :
    ∃ between begun older, log = between ++ begun :: older ∧ kind begun = .begins ∧
      phase kind older = .raised ∧ ∀ e ∈ between, kind e ≠ .signal ∧ kind e ≠ .ends := by
  induction log with
  | nil => cases answering
  | cons e older ih =>
    rcases Phase.next_eq_answering.mp answering with ⟨raised, begins⟩ | ⟨now, here⟩
    · exact ⟨[], e, older, rfl, begins, raised, by simp⟩
    · obtain ⟨between, begun, older, rfl, about, raised, rest⟩ := ih now
      exact ⟨e :: between, begun, older, rfl, about, raised, List.forall_mem_cons.mpr ⟨here, rest⟩⟩

/-- The end of an answer to the newest signal. -/
theorem split_answered (answered : phase kind log = .answered) :
    ∃ after ended older, log = after ++ ended :: older ∧ kind ended = .ends ∧
      phase kind older = .answering ∧ ∀ e ∈ after, kind e ≠ .signal := by
  induction log with
  | nil => cases answered
  | cons e older ih =>
    rcases Phase.next_eq_answered.mp answered with ⟨answering, ends⟩ | ⟨now, here⟩
    · exact ⟨[], e, older, rfl, ends, answering, by simp⟩
    · obtain ⟨after, ended, older, rfl, about, answering, rest⟩ := ih now
      exact ⟨e :: after, ended, older, rfl, about, answering, List.forall_mem_cons.mpr ⟨here, rest⟩⟩

/-- An answer was begun after the newest signal and has ended. -/
def Answered (kind : Entry → Kind) (log : List Entry) : Prop :=
  ∃ after ended between begun before signal older,
    log = after ++ ended :: (between ++ begun :: (before ++ signal :: older)) ∧
      kind ended = .ends ∧ kind begun = .begins ∧ kind signal = .signal ∧
      (∀ e ∈ after, kind e ≠ .signal) ∧ (∀ e ∈ between, kind e ≠ .signal ∧ kind e ≠ .ends) ∧
      ∀ e ∈ before, kind e ≠ .signal ∧ kind e ≠ .begins

theorem answered_of_phase (answered : phase kind log = .answered) : Answered kind log := by
  obtain ⟨after, ended, _, rfl, ends, answering, unsignalled⟩ := split_answered answered
  obtain ⟨between, begun, _, rfl, begins, raised, unended⟩ := split_answering answering
  obtain ⟨before, signal, older, rfl, signals, unbegun⟩ := split_raised raised
  exact ⟨after, ended, between, begun, before, signal, older, rfl, ends, begins, signals,
    unsignalled, unended, unbegun⟩

/-- The number of entries of a kind. -/
def count (kind : Entry → Kind) (k : Kind) (log : List Entry) : Nat := log.countP (kind · = k)

@[simp] theorem count_cons (k : Kind) (e : Entry) :
    count kind k (e :: log) = count kind k log + if kind e = k then 1 else 0 := by
  simp [count, List.countP_cons]

theorem count_append {k : Kind} {entries : List Entry} (others : ∀ e ∈ entries, kind e = .other)
    (about : k ≠ .other) : count kind k (entries ++ log) = count kind k log := by
  induction entries with
  | nil => rfl
  | cons e rest ih =>
    obtain ⟨here, rest⟩ := List.forall_mem_cons.mp others
    rw [List.cons_append, count_cons, here, if_neg (Ne.symm about), ih rest, Nat.add_zero]

end
end Responses
