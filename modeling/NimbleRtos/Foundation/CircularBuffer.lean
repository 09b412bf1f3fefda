import Mathlib.Data.Nat.ModEq

/-! A flat array cut into equal slots and used as a circular buffer: its
contents as a list, and what writing behind the last slot and advancing past
the first do to that list. -/
namespace CircularBuffer

variable {α : Type} {width capacity head count i j : Nat} {buffer bytes : List α}

/-- Slot `i` of a buffer of slots of `width` cells. -/
def slot (width : Nat) (buffer : List α) (i : Nat) : List α := (buffer.drop (i * width)).take width

/-- The buffer with the cells from `offset` on replaced. -/
def overwrite (buffer : List α) (offset : Nat) (bytes : List α) : List α :=
  buffer.take offset ++ bytes ++ buffer.drop (offset + bytes.length)

/-- The `count` slots from `head` on, wrapping at `capacity`. -/
def contents (width capacity : Nat) (buffer : List α) (head count : Nat) : List (List α) :=
  (List.range count).map fun k => slot width buffer ((head + k) % capacity)

@[simp] theorem contents_length :
    (contents width capacity buffer head count).length = count := by
  simp [contents]

/-- Slot `i` ends before slot `j` starts. -/
theorem slots_apart (width : Nat) (before : i < j) : i * width + width ≤ j * width := by
  have := Nat.mul_le_mul_right width (Nat.succ_le_of_lt before)
  rwa [Nat.succ_mul] at this

/-- A slot below the capacity lies inside the buffer. -/
theorem slot_inside (below : i < capacity) (fits : width * capacity ≤ buffer.length) :
    i * width + width ≤ buffer.length := by
  rw [Nat.mul_comm] at fits
  exact Nat.le_trans (slots_apart width below) fits

theorem overwrite_length {offset : Nat} (inside : offset + bytes.length ≤ buffer.length) :
    (overwrite buffer offset bytes).length = buffer.length := by
  simp only [overwrite, List.length_append, List.length_take, List.length_drop]
  omega

theorem overwrite_outside {offset n : Nat} (inside : offset + bytes.length ≤ buffer.length)
    (outside : n < offset ∨ offset + bytes.length ≤ n) :
    (overwrite buffer offset bytes)[n]? = buffer[n]? := by
  unfold overwrite
  rcases outside with before | after
  · rw [List.append_assoc, List.getElem?_append_left (by rw [List.length_take]; omega),
      List.getElem?_take_of_lt before]
  · rw [List.getElem?_append_right (by rw [List.length_append, List.length_take]; omega),
      List.length_append, List.length_take, List.getElem?_drop]
    congr 1
    omega

theorem slot_getElem? (k : Nat) :
    (slot width buffer i)[k]? = if k < width then buffer[i * width + k]? else none := by
  simp [slot, List.getElem?_take]

/-- Writing a slot stores the bytes there and leaves the others alone. -/
theorem slot_overwrite_same (size : bytes.length = width)
    (inside : i * width + width ≤ buffer.length) :
    slot width (overwrite buffer (i * width) bytes) i = bytes := by
  have start : (buffer.take (i * width)).length = i * width := by
    rw [List.length_take]; omega
  unfold slot overwrite
  rw [List.append_assoc, List.drop_left' start, List.take_left' size]

theorem slot_overwrite_other (size : bytes.length = width)
    (inside : j * width + width ≤ buffer.length) (other : i ≠ j) :
    slot width (overwrite buffer (j * width) bytes) i = slot width buffer i := by
  refine List.ext_getElem? ?_
  intro k
  rw [slot_getElem?, slot_getElem?]
  split
  · rename_i within
    refine overwrite_outside (by omega) ?_
    rcases Nat.lt_or_gt_of_ne other with before | after
    · have := slots_apart width before
      omega
    · have := slots_apart width after
      omega
  · rfl

/-- Two offsets below the capacity meet only if they are equal. -/
theorem index_ne (first : i < capacity) (second : j < capacity) (other : i ≠ j) :
    (head + i) % capacity ≠ (head + j) % capacity := by
  intro same
  have := Nat.ModEq.add_left_cancel' head (show _ ≡ _ [MOD capacity] from same)
  rw [Nat.ModEq, Nat.mod_eq_of_lt first, Nat.mod_eq_of_lt second] at this
  exact other this

/-- Writing the slot behind the contents appends to them. -/
theorem contents_push (room : count < capacity) (size : bytes.length = width)
    (fits : width * capacity ≤ buffer.length) :
    contents width capacity (overwrite buffer ((head + count) % capacity * width) bytes) head
      (count + 1) = contents width capacity buffer head count ++ [bytes] := by
  have inside := slot_inside (Nat.mod_lt (head + count) (Nat.zero_lt_of_lt room)) fits
  unfold contents
  rw [List.range_succ, List.map_append, List.map_singleton, slot_overwrite_same size inside]
  congr 1
  apply List.map_congr_left
  intro k member
  have before := List.mem_range.mp member
  exact slot_overwrite_other size inside
    (index_ne (Nat.lt_trans before room) room (Nat.ne_of_lt before))

/-- Advancing past the first slot drops it from the contents. -/
theorem contents_pop :
    contents width capacity buffer head (count + 1) =
      slot width buffer (head % capacity) ::
        contents width capacity buffer ((head + 1) % capacity) count := by
  unfold contents
  rw [List.range_succ_eq_map, List.map_cons, List.map_map, Nat.add_zero]
  congr 1
  apply List.map_congr_left
  intro k _
  show slot width buffer ((head + (k + 1)) % capacity) = _
  rw [Nat.mod_add_mod]
  congr 2
  omega

end CircularBuffer
