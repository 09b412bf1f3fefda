import Mathlib.Data.List.Basic

/-! A text that comes one element at a time, cut to lines: what each element
does to the lines that have ended and to the line begun, and what a buffer with
room for `n` elements holds of a line. -/
namespace LineSplit

variable {α : Type} {isEnd : α → Bool} {text : List α} {a : α}

/-- The lines of a text that have ended. -/
def ended (isEnd : α → Bool) (text : List α) : List (List α) := (text.splitOnP isEnd).dropLast

/-- What follows the last of them. -/
def unended (isEnd : α → Bool) (text : List α) : List α := (text.splitOnP isEnd).getLastD []

theorem ended_of_split {done : List (List α)} {line : List α} (split : text.splitOnP isEnd = done ++ [line]) :
    ended isEnd text = done := by
  rw [ended, split, List.dropLast_concat]

theorem unended_of_split {done : List (List α)} {line : List α} (split : text.splitOnP isEnd = done ++ [line]) :
    unended isEnd text = line := by
  rw [unended, split, List.getLastD_concat]

/-- A text is the lines ended and the line begun. -/
theorem split (isEnd : α → Bool) (text : List α) :
    text.splitOnP isEnd = ended isEnd text ++ [unended isEnd text] := by
  have ne_nil := List.splitOnP_ne_nil isEnd text
  rw [ended, unended, List.getLastD_eq_getLast?, List.getLast?_eq_some_getLast ne_nil, Option.getD_some,
    List.dropLast_append_getLast ne_nil]

theorem split_end (last : isEnd a = true) :
    (text ++ [a]).splitOnP isEnd = (ended isEnd text ++ [unended isEnd text]) ++ [[]] := by
  rw [List.splitOnP_append_cons text [] last, List.splitOnP_nil, split]

/-- Within a line the element is the line's. -/
theorem split_within (within : isEnd a = false) :
    (text ++ [a]).splitOnP isEnd = ended isEnd text ++ [unended isEnd text ++ [a]] := by
  have grows : ∀ text : List α, ∃ done line, text.splitOnP isEnd = done ++ [line] ∧
      (text ++ [a]).splitOnP isEnd = done ++ [line ++ [a]] := by
    intro text
    induction text with
    | nil => exact ⟨[], [], by simp, by simp [List.splitOnP_cons_eq_if_modifyHead, within]⟩
    | cons b text ih =>
      obtain ⟨done, line, before, after⟩ := ih
      rw [List.cons_append, List.splitOnP_cons_eq_if_modifyHead, List.splitOnP_cons_eq_if_modifyHead, before, after]
      split
      · exact ⟨[] :: done, line, rfl, rfl⟩
      · cases done with
        | nil => exact ⟨[], b :: line, rfl, rfl⟩
        | cons first done => exact ⟨(b :: first) :: done, line, rfl, rfl⟩
  obtain ⟨done, line, before, after⟩ := grows text
  rw [after, ended_of_split before, unended_of_split before]

theorem ended_end (last : isEnd a = true) :
    ended isEnd (text ++ [a]) = ended isEnd text ++ [unended isEnd text] := ended_of_split (split_end last)

theorem unended_end (last : isEnd a = true) : unended isEnd (text ++ [a]) = [] := unended_of_split (split_end last)

theorem ended_within (within : isEnd a = false) : ended isEnd (text ++ [a]) = ended isEnd text :=
  ended_of_split (split_within within)

theorem unended_within (within : isEnd a = false) : unended isEnd (text ++ [a]) = unended isEnd text ++ [a] :=
  unended_of_split (split_within within)

/-- A buffer that is full drops what comes. -/
theorem take_concat (n : Nat) (line : List α) (a : α) :
    (line ++ [a]).take n = if (line.take n).length < n then line.take n ++ [a] else line.take n := by
  rw [List.length_take]
  split
  · have short : line.length < n := by omega
    rw [List.take_of_length_le (by simpa using Nat.succ_le_of_lt short), List.take_of_length_le (Nat.le_of_lt short)]
  · exact List.take_append_of_le_length (by omega)

end LineSplit
