import NimbleRtos.Port

/-! Context switches are transparent. While a task is switched out, its `sp`
points at a frame of sixteen words on its own stack that holds what it was
interrupted in, or what nimble_port_init_task_stack laid out for it. -/
namespace NimbleRtos.Port
open DescendingStack GuardedRun

/-- A complete frame, from `sp` up. -/
def frameRegisters : List Reg := calleeSaved ++ hardwareSaved

/-- What a task that has never run starts in. -/
def Creation.initial (taskExitTrap : Word) (t : Creation) : Context where
  regs
    | .r0 => t.arg
    | .r1 => 0x01010101
    | .r2 => 0x02020202
    | .r3 => 0x03030303
    | .r4 => 0x04040404
    | .r5 => 0x05050505
    | .r6 => 0x06060606
    | .r7 => 0x07070707
    | .r8 => 0x08080808
    | .r9 => 0x09090909
    | .r10 => 0x10101010
    | .r11 => 0x11111111
    | .r12 => 0x12121212
    | .lr => taskExitTrap
    | .pc => t.fn
    | .xpsr => 0x01000000
  sp := above wordBytes t.stackBase t.stackWords.toNat

/-- Frame number `k` of `t`'s stack, counted in words from its base, is the one
`sp` points at, and resuming from it gives `context`. -/
structure Frame (memory : Word → Word) (t : Creation) (context : Context) (k : Nat) : Prop where
  room : k + 16 ≤ t.stackWords.toNat
  sp : context.sp = above wordBytes t.stackBase (k + 16)
  pointer : memory t.tcb = above wordBytes t.stackBase k
  saved : Holds wordBytes memory (above wordBytes t.stackBase k) (frameRegisters.map context.regs)

/-- `t` is switched out and will resume in `context`. -/
def Suspended (memory : Word → Word) (t : Creation) (context : Context) : Prop :=
  ∃ k, Frame memory t context k

/-- `t` as nimble_task_create leaves it: its first frame on top of the stack,
and canaries below. -/
structure Fresh (taskExitTrap : Word) (memory : Word → Word) (t : Creation) : Prop where
  suspended : Suspended memory t (t.initial taskExitTrap)
  canaries : ∀ i, i + 16 < t.stackWords.toNat → memory (above wordBytes t.stackBase i) = stackCanary

/-- Where the linker put the tasks: no stack meets another, itself or a TCB. -/
structure Layout (tasks : List Creation) : Prop where
  fits : ∀ t ∈ tasks, t.stackWords.toNat ≤ 2 ^ 30
  disjoint : ∀ t ∈ tasks, ∀ u ∈ tasks, t ≠ u → ∀ a, t.Owns a → ¬ u.Owns a
  tcbs : ∀ t ∈ tasks, ∀ u ∈ tasks, t ≠ u → t.tcb ≠ u.tcb
  apart : ∀ t ∈ tasks, ∀ u ∈ tasks, ¬ t.Owns u.tcb

variable {taskExitTrap a : Word} {memory memory' : Word → Word} {t u : Creation} {tasks : List Creation}
  {context : Context} {c d : Cpu} {k n : Nat}

theorem wordBytes_nsmul (n : Nat) : (n • wordBytes).toNat = n * 4 % 2 ^ 32 := by
  induction n with
  | zero => rfl
  | succ n ih =>
    rw [succ_nsmul, UInt32.toNat_add, ih]
    show (n * 4 % 2 ^ 32 + 4) % 2 ^ 32 = _
    omega

theorem distinct_words (fits : n ≤ 2 ^ 30) : Distinct wordBytes n := by
  intro i first j second same
  have positions := congrArg UInt32.toNat same
  simp only [wordBytes_nsmul] at positions
  omega

theorem above_toNat {base : Word} (fits : base.toNat + 4 * n ≤ 2 ^ 32) {i : Nat} (below : i < n) :
    (above wordBytes base i).toNat = base.toNat + 4 * i := by
  rw [above, UInt32.toNat_add, wordBytes_nsmul]
  omega

theorem Creation.Owns.range (fits : t.stackBase.toNat + 4 * t.stackWords.toNat ≤ 2 ^ 32) (owned : t.Owns a) :
    t.stackBase.toNat ≤ a.toNat ∧ a.toNat < t.stackBase.toNat + 4 * t.stackWords.toNat := by
  obtain ⟨i, below, rfl⟩ := owned
  rw [above_toNat fits below]
  omega

/-- A layout read off the addresses. -/
theorem Layout.of_ranges (fits : ∀ t ∈ tasks, t.stackBase.toNat + 4 * t.stackWords.toNat ≤ 2 ^ 32)
    (disjoint : ∀ t ∈ tasks, ∀ u ∈ tasks, t ≠ u →
      t.stackBase.toNat + 4 * t.stackWords.toNat ≤ u.stackBase.toNat ∨
        u.stackBase.toNat + 4 * u.stackWords.toNat ≤ t.stackBase.toNat)
    (tcbs : ∀ t ∈ tasks, ∀ u ∈ tasks, t ≠ u → t.tcb ≠ u.tcb)
    (apart : ∀ t ∈ tasks, ∀ u ∈ tasks, u.tcb.toNat < t.stackBase.toNat ∨
      t.stackBase.toNat + 4 * t.stackWords.toNat ≤ u.tcb.toNat) : Layout tasks where
  fits t member := by
    have := fits t member
    omega
  disjoint t first u second other a owned also := by
    have := owned.range (fits t first)
    have := also.range (fits u second)
    have := disjoint t first u second other
    omega
  tcbs := tcbs
  apart t first u second owned := by
    have := owned.range (fits t first)
    have := apart t first u second
    omega

theorem mem_frameRegisters (r : Reg) : r ∈ calleeSaved ∨ r ∈ hardwareSaved := by
  cases r <;> decide

theorem calleeSaved_nodup : calleeSaved.Nodup := by decide

theorem hardwareSaved_nodup : hardwareSaved.Nodup := by decide

@[simp] theorem calleeSaved_length : calleeSaved.length = 8 := rfl

@[simp] theorem hardwareSaved_length : hardwareSaved.length = 8 := rfl

/-- A frame lies on its stack. -/
theorem Creation.owns_of_above {i : Nat} (within : k + i < t.stackWords.toNat) :
    t.Owns (above wordBytes (above wordBytes t.stackBase k) i) :=
  ⟨k + i, within, above_above⟩

namespace Frame

/-- A frame outlives whatever touches neither the stack nor `sp`. -/
theorem keep (frame : Frame memory t context k) (pointer : memory' t.tcb = memory t.tcb)
    (stack : ∀ a, t.Owns a → memory' a = memory a) : Frame memory' t context k where
  room := frame.room
  sp := frame.sp
  pointer := pointer.trans frame.pointer
  saved := by
    refine frame.saved.same ?_
    intro i below
    apply stack
    have := frame.room
    have : i < 16 := by simpa [frameRegisters] using below
    exact Creation.owns_of_above (by omega)

end Frame

theorem Suspended.keep (suspended : Suspended memory t context) (pointer : memory' t.tcb = memory t.tcb)
    (stack : ∀ a, t.Owns a → memory' a = memory a) : Suspended memory' t context :=
  suspended.imp fun _ frame => frame.keep pointer stack

/-! ### Creation -/

/-- The sixteen stores fill the sixteen words below the top with the initial context. -/
theorem initTaskStack_spec (taskExitTrap : Word) (memory : Word → Word) (t : Creation) (base : Word) :
    (initTaskStack taskExitTrap memory (above wordBytes base 16) t.fn t.arg).2 = base ∧
      Holds wordBytes (initTaskStack taskExitTrap memory (above wordBytes base 16) t.fn t.arg).1 base
        (frameRegisters.map (t.initial taskExitTrap).regs) ∧
      ∀ a, (∀ i < 16, a ≠ above wordBytes base i) →
        (initTaskStack taskExitTrap memory (above wordBytes base 16) t.fn t.arg).1 a = memory a := by
  have length : (frameStores taskExitTrap t.fn t.arg).length = 16 := rfl
  have order : (frameStores taskExitTrap t.fn t.arg).reverse =
      frameRegisters.map (t.initial taskExitTrap).regs := rfl
  unfold initTaskStack
  rw [← length, ← order]
  exact push_all (distinct_words (by rw [length]; decide))

/-- A created task starts in its initial context; nothing but its stack and
its `sp` was written. -/
theorem Creation.taskCreate_spec (taskExitTrap : Word) (memory : Word → Word) (valid : t.accepted = true)
    (fits : t.stackWords.toNat ≤ 2 ^ 30) (apart : ¬ t.Owns t.tcb) :
    Fresh taskExitTrap (t.taskCreate taskExitTrap memory).2 t ∧
      ∀ a, a ≠ t.tcb → ¬ t.Owns a → (t.taskCreate taskExitTrap memory).2 a = memory a := by
  simp only [accepted, Bool.and_eq_true, decide_eq_true_eq, Bool.not_eq_true', decide_eq_false_iff_not]
    at valid
  obtain ⟨⟨⟨⟨tcb, fn⟩, stackBase⟩, words⟩, priority⟩ := valid
  have enough : 64 ≤ t.stackWords.toNat := by
    simpa [minStackWords, UInt32.lt_iff_toNat_lt] using words
  obtain ⟨k, size⟩ : ∃ k, t.stackWords.toNat = k + 16 := ⟨t.stackWords.toNat - 16, by omega⟩
  have top : above wordBytes t.stackBase t.stackWords.toNat =
      above wordBytes (above wordBytes t.stackBase k) 16 := by
    rw [above_above, size]
  have owned : ∀ i < 16, t.Owns (above wordBytes (above wordBytes t.stackBase k) i) := by
    intro i below
    exact Creation.owns_of_above (by omega)
  obtain ⟨pointer, saved, outside⟩ := initTaskStack_spec taskExitTrap
    (storeAll wordBytes (Function.update memory t.tcb 0) t.stackBase
      (List.replicate t.stackWords.toNat stackCanary)) t (above wordBytes t.stackBase k)
  unfold taskCreate
  rw [if_neg (by simp [tcb, fn, stackBase]), if_neg words, if_neg (by omega)]
  dsimp only
  rw [top]
  refine ⟨⟨⟨k, size ▸ Nat.le_refl _, by rw [initial, size], ?_, ?_⟩, ?_⟩, ?_⟩
  · rw [Function.update_self, pointer]
  · refine saved.update ?_
    intro i below same
    exact apart (same ▸ owned i (by simpa [frameRegisters] using below))
  · intro i unused
    have painted : Holds wordBytes
        (storeAll wordBytes (Function.update memory t.tcb 0) t.stackBase
          (List.replicate t.stackWords.toNat stackCanary)) t.stackBase
        (List.replicate t.stackWords.toNat stackCanary) :=
      storeAll_holds (distinct_words (by simpa using fits))
    rw [Function.update_of_ne, outside]
    · exact (painted i (by simp; omega)).trans (List.getElem_replicate _)
    · intro j below same
      rw [above_above] at same
      have := (distinct_words fits).above_inj (by omega) (by omega) same
      omega
    · intro same
      exact apart (same ▸ ⟨i, by omega, rfl⟩)
  · intro a other elsewhere
    rw [Function.update_of_ne other, outside, storeAll_outside, Function.update_of_ne other]
    · intro i below same
      exact elsewhere ⟨i, by simpa using below, same⟩
    · intro i below same
      exact elsewhere (same ▸ owned i below)

theorem Creation.taskCreate_refused (refused : t.accepted = false) :
    (t.taskCreate taskExitTrap memory).2 = memory := by
  unfold taskCreate
  split
  · rfl
  · split
    · rfl
    · split
      · rfl
      · rename_i pointers words priority
        simp only [not_or] at pointers
        simp [accepted, pointers, words, Nat.not_le.mp priority] at refused

namespace Layout

theorem mono (laid : Layout tasks) {fewer : List Creation} (among : ∀ t ∈ fewer, t ∈ tasks) : Layout fewer where
  fits t member := laid.fits t (among t member)
  disjoint t first u second := laid.disjoint t (among t first) u (among u second)
  tcbs t first u second := laid.tcbs t (among t first) u (among u second)
  apart t first u second := laid.apart t (among t first) u (among u second)

/-- What touches only the stack and the `sp` of one task leaves the stack of another. -/
theorem keeps_stack (laid : Layout tasks) (first : t ∈ tasks) (second : u ∈ tasks) (other : t ≠ u)
    (elsewhere : ∀ a, a ≠ u.tcb → ¬ u.Owns a → memory' a = memory a) (owned : t.Owns a) : memory' a = memory a := by
  refine elsewhere a ?_ (laid.disjoint t first u second other a owned)
  rintro rfl
  exact laid.apart t first u second owned

/-- And leaves it switched out. -/
theorem keeps (laid : Layout tasks) (first : t ∈ tasks) (second : u ∈ tasks) (other : t ≠ u)
    (suspended : Suspended memory t context)
    (elsewhere : ∀ a, a ≠ u.tcb → ¬ u.Owns a → memory' a = memory a) : Suspended memory' t context := by
  apply suspended.keep
  · exact elsewhere _ (laid.tcbs t first u second other) (laid.apart u second t first)
  · exact fun a => laid.keeps_stack first second other elsewhere

theorem keeps_fresh (laid : Layout tasks) (first : t ∈ tasks) (second : u ∈ tasks) (other : t ≠ u)
    (fresh : Fresh taskExitTrap memory t)
    (elsewhere : ∀ a, a ≠ u.tcb → ¬ u.Owns a → memory' a = memory a) : Fresh taskExitTrap memory' t := by
  refine ⟨laid.keeps first second other fresh.suspended elsewhere, ?_⟩
  intro i unused
  rw [laid.keeps_stack first second other elsewhere ⟨i, by omega, rfl⟩]
  exact fresh.canaries i unused

end Layout

theorem createAll_append (creations : List Creation) (t : Creation) :
    createAll taskExitTrap memory (creations ++ [t]) =
      (t.taskCreate taskExitTrap (createAll taskExitTrap memory creations)).2 := by
  simp [createAll]

/-- After the creations every created task starts in its initial context. -/
theorem createAll_fresh {creations : List Creation} (laid : Layout (created creations)) :
    ∀ t ∈ created creations, Fresh taskExitTrap (createAll taskExitTrap memory creations) t := by
  induction creations using List.reverseRecOn with
  | nil => simp [created]
  | append_singleton creations u ih =>
    have earlier := ih (laid.mono (by simp [created]; tauto))
    intro t member
    rw [createAll_append]
    cases accepted : u.accepted with
    | false =>
      rw [Creation.taskCreate_refused accepted]
      exact earlier t (by simpa [created, accepted] using member)
    | true =>
      have last : u ∈ created (creations ++ [u]) := by simp [created, accepted]
      obtain ⟨fresh, elsewhere⟩ := Creation.taskCreate_spec taskExitTrap
        (createAll taskExitTrap memory creations) accepted (laid.fits u last) (laid.apart u last u last)
      by_cases same : t = u
      · exact same ▸ fresh
      · refine laid.keeps_fresh member last same (earlier t ?_) elsewhere
        simpa [created, same] using member

/-! ### The handlers -/

@[simp] theorem Cpu.set_memory (c : Cpu) (r : Reg) (v : Word) : (c.set r v).memory = c.memory := rfl
@[simp] theorem Cpu.set_psp (c : Cpu) (r : Reg) (v : Word) : (c.set r v).psp = c.psp := rfl
@[simp] theorem Cpu.set_onPsp (c : Cpu) (r : Reg) (v : Word) : (c.set r v).onPsp = c.onPsp := rfl
@[simp] theorem Cpu.set_mainStack (c : Cpu) (r : Reg) (v : Word) : (c.set r v).mainStack = c.mainStack := rfl
@[simp] theorem Cpu.set_currentTcb (c : Cpu) (r : Reg) (v : Word) : (c.set r v).currentTcb = c.currentTcb := rfl
@[simp] theorem Cpu.set_nextTcb (c : Cpu) (r : Reg) (v : Word) : (c.set r v).nextTcb = c.nextTcb := rfl
@[simp] theorem Cpu.set_regs (c : Cpu) (r : Reg) (v : Word) : (c.set r v).regs = Function.update c.regs r v := rfl

/-- Registers stored below a pointer go to the words that end there. -/
theorem Cpu.storeBelow_above (c : Cpu) (base : Word) (names : List Reg) :
    c.storeBelow (above wordBytes base (k + names.length)) names =
      (storeAll wordBytes c.memory (above wordBytes base k) (names.map c.regs), above wordBytes base k) := by
  simp [storeBelow, above_sub]

/-- Words popped in the order they were pushed give the registers back. -/
theorem Cpu.popMain_append {names : List Reg} {saved : Reg → Word} {rest : List Word}
    (nodup : names.Nodup) (stacked : c.mainStack = names.map saved ++ rest) :
    c.popMain names =
      some { c with regs := fun r => if r ∈ names then saved r else c.regs r, mainStack := rest } := by
  induction names generalizing c with
  | nil =>
    rw [List.map_nil, List.nil_append] at stacked
    subst stacked
    rfl
  | cons name names ih =>
    obtain ⟨fresh, nodup⟩ := List.nodup_cons.mp nodup
    rw [List.map_cons, List.cons_append] at stacked
    rw [popMain, stacked]
    dsimp only
    rw [ih nodup rfl]
    congr 2
    funext r
    by_cases listed : r ∈ names
    · simp [listed]
    · by_cases same : r = name
      · subst same
        simp [listed]
      · simp [listed, same]

/-- Exception entry from a task puts the hardware's half of the frame on its stack. -/
theorem Cpu.exceptionEntry_psp {base : Word} (thread : c.onPsp = true)
    (pointer : c.psp = above wordBytes base (k + 8)) :
    c.exceptionEntry.memory = storeAll wordBytes c.memory (above wordBytes base k) (hardwareSaved.map c.regs) ∧
      c.exceptionEntry.psp = above wordBytes base k ∧
      c.exceptionEntry.regs = Function.update c.regs .lr excReturnPsp ∧
      c.exceptionEntry.currentTcb = c.currentTcb ∧ c.exceptionEntry.mainStack = c.mainStack ∧
      c.exceptionEntry.onPsp = true := by
  have stored := c.storeBelow_above (k := k) base hardwareSaved
  rw [hardwareSaved_length, ← pointer] at stored
  simp only [exceptionEntry, thread, if_true, stored]
  exact ⟨rfl, rfl, rfl, rfl, rfl, rfl⟩

/-- The first half of PendSV_Handler puts the other half below it. -/
theorem saveOutgoing_eq {base : Word} (nonnull : c.currentTcb ≠ 0)
    (pointer : c.psp = above wordBytes base (k + 8)) :
    (saveOutgoing c).memory = Function.update
        (storeAll wordBytes c.memory (above wordBytes base k) (calleeSaved.map c.regs))
        c.currentTcb (above wordBytes base k) ∧
      (saveOutgoing c).regs .lr = c.regs .lr ∧ (saveOutgoing c).mainStack = c.mainStack ∧
      (saveOutgoing c).onPsp = c.onPsp := by
  have stored := Cpu.storeBelow_above (k := k) ((c.set .r0 c.psp).set .r2 c.currentTcb) base calleeSaved
  have untouched : calleeSaved.map ((c.set .r0 c.psp).set .r2 c.currentTcb).regs = calleeSaved.map c.regs := by
    simp [calleeSaved]
  rw [calleeSaved_length, ← pointer, untouched] at stored
  have pointed : ((c.set .r0 c.psp).set .r2 c.currentTcb).regs .r0 = c.psp := rfl
  have skipped : ¬ ((c.set .r0 c.psp).set .r2 c.currentTcb).regs .r2 = 0 := nonnull
  simp only [saveOutgoing, Cpu.set_currentTcb, if_neg skipped, Cpu.stmdb, pointed, stored]
  simp

/-- The hardware and the first half of PendSV_Handler write sixteen words below
the stack pointer, and `sp`. -/
theorem saveOutgoing_outside {base : Word} (thread : c.onPsp = true) (nonnull : c.currentTcb ≠ 0)
    (pointer : c.psp = above wordBytes base (k + 16)) (other : a ≠ c.currentTcb)
    (outside : ∀ i < 16, a ≠ above wordBytes base (k + i)) :
    (saveOutgoing c.exceptionEntry).memory a = c.memory a := by
  obtain ⟨stacked, below, _, same, _⟩ := Cpu.exceptionEntry_psp (k := k + 8) thread pointer
  obtain ⟨memory, _⟩ := saveOutgoing_eq (c := c.exceptionEntry) (by rw [same]; exact nonnull) below
  rw [memory, same, Function.update_of_ne other, storeAll_outside, stacked, storeAll_outside]
  · intro i within
    rw [above_above, Nat.add_assoc]
    exact outside (8 + i) (by simpa using Nat.add_lt_add_left within 8)
  · intro i within
    rw [above_above]
    exact outside i (by simp at within; omega)

/-- What the first half of PendSV_Handler leaves of an interrupted task. -/
structure Saved (t : Creation) (c d : Cpu) : Prop where
  frame : Suspended d.memory t c.context
  elsewhere : ∀ a, a ≠ t.tcb → ¬ t.Owns a → d.memory a = c.memory a
  link : d.regs .lr = excReturnPsp
  mainStack : d.mainStack = c.mainStack
  onPsp : d.onPsp = true

/-- With sixteen words free, the hardware and the first half of PendSV_Handler
save all there is of a task. -/
theorem saveOutgoing_spec (thread : c.onPsp = true) (current : c.currentTcb = t.tcb) (nonnull : t.tcb ≠ 0)
    (fits : t.stackWords.toNat ≤ 2 ^ 30) (apart : ¬ t.Owns t.tcb) (room : k + 16 ≤ t.stackWords.toNat)
    (pointer : c.psp = above wordBytes t.stackBase (k + 16)) : Saved t c (saveOutgoing c.exceptionEntry) := by
  obtain ⟨stacked, below, regs, same, untouched, onPsp⟩ := Cpu.exceptionEntry_psp (k := k + 8) thread pointer
  have callee : calleeSaved.map c.exceptionEntry.regs = calleeSaved.map c.regs := by
    simp [regs, calleeSaved]
  obtain ⟨memory, link, mainStack, stays⟩ :=
    saveOutgoing_eq (c := c.exceptionEntry) (by rw [same, current]; exact nonnull) below
  rw [callee, stacked, same, current] at memory
  rw [regs, Function.update_self] at link
  rw [untouched] at mainStack
  rw [onPsp] at stays
  have lower : ∀ i < 8, t.Owns (above wordBytes (above wordBytes t.stackBase k) i) := by
    intro i below
    exact Creation.owns_of_above (by omega)
  have upper : ∀ i < 8, t.Owns (above wordBytes (above wordBytes t.stackBase (k + 8)) i) := by
    intro i below
    exact Creation.owns_of_above (by omega)
  refine ⟨⟨k, room, pointer, by rw [memory, Function.update_self], ?_⟩, ?_, link,
    mainStack, stays⟩
  · rw [memory, frameRegisters, List.map_append]
    refine Holds.append_iff.mpr ⟨?_, ?_⟩
    · refine (storeAll_holds (distinct_words (by simp))).update ?_
      intro i below same
      exact apart (same ▸ lower i (by simpa using below))
    · rw [List.length_map, calleeSaved_length, above_above]
      refine ((storeAll_holds (distinct_words (by simp))).storeAll ?_).update ?_
      · intro i first j second same
        rw [List.length_map] at first second
        rw [above_above, above_above] at same
        have := (distinct_words fits).above_inj (Nat.lt_of_lt_of_le (Nat.add_lt_add_left first _) (by simp; omega))
          (Nat.lt_of_lt_of_le (Nat.add_lt_add_left second _) (by simp; omega)) same
        simp at first second
        omega
      · intro i below same
        exact apart (same ▸ upper i (by simpa using below))
  · intro a other elsewhere
    refine saveOutgoing_outside thread (by rw [current]; exact nonnull) pointer (by rw [current]; exact other) ?_
    rintro i below rfl
    exact elsewhere ⟨k + i, by omega, rfl⟩

/-- The hardware's half of a frame completes the registers the handler loaded. -/
theorem Cpu.exceptionReturn_frame (frame : Frame c.memory t context k)
    (pointer : c.psp = above wordBytes t.stackBase (k + 8))
    (loaded : ∀ r ∈ calleeSaved, c.regs r = context.regs r) :
    c.exceptionReturn excReturnPsp = some { c with regs := context.regs, psp := context.sp, onPsp := true } := by
  have saved := (Holds.append_iff.mp (List.map_append ▸ frame.saved)).2
  rw [List.length_map, calleeSaved_length, above_above, ← pointer] at saved
  have regs : loadRegisters wordBytes c.memory c.psp c.regs hardwareSaved = context.regs := by
    funext r
    rw [loadRegisters_holds hardwareSaved_nodup saved]
    split
    · rfl
    · exact loaded r ((mem_frameRegisters r).resolve_right ‹_›)
  have top : c.psp + hardwareSaved.length • wordBytes = context.sp := by
    rw [pointer, frame.sp]
    exact above_above
  simp only [exceptionReturn, if_true, regs, top]

/-- `ldmia` at a frame loads the callee-saved registers and ends at the hardware's half. -/
theorem Cpu.ldmia_frame {base : Reg} (frame : Frame c.memory t context k)
    (pointer : c.regs base = above wordBytes t.stackBase k) (scratch : base ∉ calleeSaved) :
    (c.ldmia base calleeSaved).regs base = above wordBytes t.stackBase (k + 8) ∧
      (∀ r ∈ calleeSaved, (c.ldmia base calleeSaved).regs r = context.regs r) ∧
      ∀ r, r ∉ calleeSaved → r ≠ base → (c.ldmia base calleeSaved).regs r = c.regs r := by
  have saved := (Holds.append_iff.mp (List.map_append ▸ frame.saved)).1
  rw [← pointer] at saved
  refine ⟨?_, ?_, ?_⟩
  · simp only [ldmia, set_regs, Function.update_self]
    rw [pointer]
    exact above_above
  · intro r member
    have other : r ≠ base := fun same => scratch (same ▸ member)
    simp only [ldmia, set_regs, Function.update_of_ne other]
    rw [loadRegisters_holds calleeSaved_nodup saved, if_pos member]
  · intro r absent other
    simp only [ldmia, set_regs, Function.update_of_ne other]
    rw [loadRegisters_holds calleeSaved_nodup saved, if_neg absent]

/-- The second half of PendSV_Handler resumes the selected task where it was left. -/
theorem restoreIncoming_spec (frame : Frame c.memory t context k) (next : c.nextTcb = t.tcb)
    (link : c.regs .lr = excReturnPsp) :
    restoreIncoming c =
      some { c with regs := context.regs, psp := context.sp, onPsp := true, currentTcb := t.tcb } := by
  let d : Cpu := { c.set .r2 c.nextTcb with currentTcb := c.nextTcb }.set .r0 (c.memory c.nextTcb)
  have pointed : d.regs .r0 = above wordBytes t.stackBase k := (congrArg c.memory next).trans frame.pointer
  obtain ⟨top, loaded, others⟩ := Cpu.ldmia_frame (c := d) frame pointed (by decide)
  let e : Cpu := { d.ldmia .r0 calleeSaved with psp := (d.ldmia .r0 calleeSaved).regs .r0 }
  have returned := Cpu.exceptionReturn_frame (c := e) frame top loaded
  have kept : e.regs .lr = excReturnPsp := (others .lr (by decide) (by decide)).trans link
  rw [← kept] at returned
  rw [← next]
  exact returned

/-- SVC_Handler does the same for the task chosen at the start. -/
theorem svcHandler_spec (frame : Frame c.memory t context k) (current : c.currentTcb = t.tcb) :
    svcHandler c = some { c with regs := context.regs, psp := context.sp, onPsp := true } := by
  let d : Cpu := (c.set .r2 c.currentTcb).set .r1 (c.memory c.currentTcb)
  have pointed : d.regs .r1 = above wordBytes t.stackBase k := (congrArg c.memory current).trans frame.pointer
  obtain ⟨top, loaded, _⟩ := Cpu.ldmia_frame (c := d) frame pointed (by decide)
  let e : Cpu := { d.ldmia .r1 calleeSaved with psp := (d.ldmia .r1 calleeSaved).regs .r1 }.set .r0 excReturnPsp
  have returned := Cpu.exceptionReturn_frame (c := e) frame top fun r member => by
    have other : r ≠ .r0 := by rintro rfl; exact absurd member (by decide)
    exact (Function.update_of_ne other _ _).trans (loaded r member)
  exact returned

/-! ### Runs -/

/-- The address belongs to no task. -/
def Outside (tasks : List Creation) (a : Word) : Prop := ∀ t ∈ tasks, a ≠ t.tcb ∧ ¬ t.Owns a

/-- What a task may do between interruptions: its registers are its own, and of
the tasks' memory it writes its own stack only. -/
structure KeepsToItself (tasks : List Creation) (c d : Cpu) : Prop where
  thread : d.onPsp = c.onPsp
  current : d.currentTcb = c.currentTcb
  memory : ∀ a, d.memory a = c.memory a ∨ (∃ t ∈ tasks, t.tcb = c.currentTcb ∧ t.Owns a) ∨ Outside tasks a

/-- The running task has at least sixteen free words below its stack pointer. -/
def HasRoom (tasks : List Creation) (c : Cpu) : Prop :=
  ∃ t ∈ tasks, t.tcb = c.currentTcb ∧
    ∃ k, k + 16 ≤ t.stackWords.toNat ∧ c.psp = above wordBytes t.stackBase (k + 16)

/-- nimble_scheduler_select_next chooses a created task, keeps to the calling
convention and writes no task's stack or `sp`. -/
structure Selects (tasks : List Creation) (c d : Cpu) : Prop where
  chosen : ∃ t ∈ tasks, d.nextTcb = t.tcb
  calleeSaved : ∀ r ∈ calleeSaved, d.regs r = c.regs r
  mainStack : d.mainStack = c.mainStack
  memory : ∀ a, d.memory a = c.memory a ∨ Outside tasks a

/-- The steps a system of these tasks can take. -/
def Proper (tasks : List Creation) (x : Switching) : SwitchEvent → Prop
  | .svc => x.cpu.onPsp = false ∧ ∃ t ∈ tasks, x.cpu.currentTcb = t.tcb
  | .execute d => x.cpu.onPsp = true ∧ KeepsToItself tasks x.cpu d
  | .pendSV selectNext =>
    x.cpu.onPsp = true ∧ HasRoom tasks x.cpu ∧ ∀ c, ∃ d, selectNext c = some d ∧ Selects tasks c d

/-- `main` about to start the scheduler, with its tasks created in memory of any content. -/
def poweredUp (taskExitTrap : Word) (creations : List Creation) (c : Cpu) : Switching where
  cpu := { c with onPsp := false, memory := createAll taskExitTrap c.memory creations }
  log := []

/-- What a task is to resume in: what it was last interrupted in, or where it starts. -/
def Switching.lastContext (taskExitTrap : Word) (x : Switching) (t : Creation) : Context :=
  (x.log.lookup t.tcb).getD (t.initial taskExitTrap)

/-- The running task is a created one, and every other waits with its frame intact. -/
structure Consistent (taskExitTrap : Word) (tasks : List Creation) (x : Switching) : Prop where
  current : x.cpu.onPsp = true → ∃ t ∈ tasks, x.cpu.currentTcb = t.tcb
  suspended : ∀ t ∈ tasks, (x.cpu.onPsp = true → x.cpu.currentTcb ≠ t.tcb) →
    Suspended x.cpu.memory t (x.lastContext taskExitTrap t)

/-- The task a switch is to resume: the one the scheduler started with, or what
the selection stores in `nextTcb` when PendSV_Handler calls it. -/
def SwitchEvent.selected (c : Cpu) : SwitchEvent → Option Word
  | .svc => some c.currentTcb
  | .execute _ => none
  | .pendSV selectNext =>
    (selectNext ((saveOutgoing c.exceptionEntry).pushMain [.r3, .lr])).map Cpu.nextTcb

/-- The switch put the selected task, a created one, in the context it is to resume in. -/
def Resumes (taskExitTrap : Word) (tasks : List Creation) (selected : Option Word) (x : Switching) : Prop :=
  ∃ t ∈ tasks, selected = some t.tcb ∧ x.cpu.currentTcb = t.tcb ∧ x.cpu.context = x.lastContext taskExitTrap t

/-- Memory outside a task's stack and `sp` is nothing to the task. -/
theorem Suspended.outside (suspended : Suspended memory t context) (member : t ∈ tasks)
    (elsewhere : ∀ a, memory' a = memory a ∨ Outside tasks a) : Suspended memory' t context := by
  apply suspended.keep
  · exact (elsewhere _).resolve_right fun outside => (outside t member).1 rfl
  · intro a owned
    exact (elsewhere a).resolve_right fun outside => (outside t member).2 owned

variable {x y : Switching} {selectNext : Cpu → Option Cpu}

namespace Consistent

theorem svc (consistent : Consistent taskExitTrap tasks x) (proper : Proper tasks x .svc) :
    ∃ y, x.step .svc = some y ∧ Consistent taskExitTrap tasks y ∧
      Resumes taskExitTrap tasks (SwitchEvent.svc.selected x.cpu) y := by
  obtain ⟨boot, t, member, current⟩ := proper
  have entered : x.cpu.exceptionEntry = (x.cpu.pushMain hardwareSaved).set .lr excReturnMsp := by
    simp [Cpu.exceptionEntry, boot]
  obtain ⟨k, frame⟩ := consistent.suspended t member (by simp [boot])
  have handled := svcHandler_spec (c := x.cpu.exceptionEntry) (by rw [entered]; exact frame)
    (by rw [entered]; exact current)
  refine ⟨_, by simp only [Switching.step, boot, handled]; rfl, ⟨?_, ?_⟩,
    t, member, congrArg some current, ?_, rfl⟩
  · intro _
    exact ⟨t, member, by rw [entered]; exact current⟩
  · intro u second other
    rw [entered]
    exact consistent.suspended u second (by simp [boot])
  · rw [entered]
    exact current

theorem execute (consistent : Consistent taskExitTrap tasks x) (laid : Layout tasks)
    (proper : Proper tasks x (.execute d)) :
    ∃ y, x.step (.execute d) = some y ∧ Consistent taskExitTrap tasks y := by
  obtain ⟨thread, own⟩ := proper
  refine ⟨{ x with cpu := d }, by simp [Switching.step, thread], ?_, ?_⟩
  · intro _
    rw [own.current]
    exact consistent.current thread
  · intro t member other
    dsimp only at other ⊢
    rw [own.thread, own.current] at other
    have apart := other thread
    apply (consistent.suspended t member other).keep
    · rcases own.memory t.tcb with same | ⟨u, second, _, owned⟩ | outside
      · exact same
      · exact absurd owned (laid.apart u second t member)
      · exact absurd rfl (outside t member).1
    · intro a owned
      rcases own.memory a with same | ⟨u, second, running, also⟩ | outside
      · exact same
      · have different : t ≠ u := fun same => apart (same ▸ running.symm)
        exact absurd also (laid.disjoint t member u second different a owned)
      · exact absurd owned (outside t member).2

/-- Once the running task is saved, every task is switched out. -/
theorem waiting (consistent : Consistent taskExitTrap tasks x) (laid : Layout tasks) (member : t ∈ tasks)
    (current : x.cpu.currentTcb = t.tcb) (saved : Saved t x.cpu d) (logged : y.log = (t.tcb, x.cpu.context) :: x.log) :
    ∀ u ∈ tasks, Suspended d.memory u (y.lastContext taskExitTrap u) := by
  intro u second
  by_cases same : u = t
  · subst same
    simpa [Switching.lastContext, logged] using saved.frame
  · have apart := laid.tcbs u second t member same
    have context : y.lastContext taskExitTrap u = x.lastContext taskExitTrap u := by
      simp [Switching.lastContext, logged, List.lookup_cons, beq_false_of_ne apart]
    rw [context]
    refine laid.keeps second member same (consistent.suspended u second ?_) saved.elsewhere
    intro _ running
    exact apart (running.symm.trans current)

theorem pendSV (consistent : Consistent taskExitTrap tasks x) (laid : Layout tasks)
    (nonnull : ∀ t ∈ tasks, t.tcb ≠ 0) (proper : Proper tasks x (.pendSV selectNext)) :
    ∃ y, x.step (.pendSV selectNext) = some y ∧ Consistent taskExitTrap tasks y ∧
      Resumes taskExitTrap tasks ((SwitchEvent.pendSV selectNext).selected x.cpu) y := by
  obtain ⟨thread, ⟨t, member, current, k, room, pointer⟩, selects⟩ := proper
  have saved := saveOutgoing_spec thread current.symm (nonnull t member) (laid.fits t member)
    (laid.apart t member t member) room pointer
  generalize outgoing : saveOutgoing x.cpu.exceptionEntry = d at saved
  obtain ⟨e, called, selected⟩ := selects (d.pushMain [.r3, .lr])
  obtain ⟨u, second, next⟩ := selected.chosen
  have popped := Cpu.popMain_append (by decide : [Reg.r3, .lr].Nodup) selected.mainStack
  have waiting := consistent.waiting (y := ⟨e, (x.cpu.currentTcb, x.cpu.context) :: x.log⟩) laid member
    current.symm saved (by rw [current])
  obtain ⟨j, frame⟩ := (waiting u second).outside second selected.memory
  let f : Cpu := { e with
    regs := fun r => if r ∈ [Reg.r3, .lr] then d.regs r else e.regs r
    mainStack := d.mainStack }
  have restored := restoreIncoming_spec (c := f) frame next saved.link
  have handled : pendSvHandler selectNext x.cpu.exceptionEntry = restoreIncoming f := by
    simp only [pendSvHandler, outgoing, called, popped, Option.bind_eq_bind, Option.bind_some]
    rfl
  rw [restored] at handled
  have stored : (SwitchEvent.pendSV selectNext).selected x.cpu = some u.tcb := by
    rw [SwitchEvent.selected, outgoing, called, Option.map_some, next]
  refine ⟨_, by simp only [Switching.step, thread, handled]; rfl, ⟨?_, ?_⟩, u, second, stored, rfl, rfl⟩
  · intro _
    exact ⟨u, second, rfl⟩
  · intro v third _
    exact (waiting v third).outside third selected.memory

theorem step {event : SwitchEvent} (consistent : Consistent taskExitTrap tasks x) (laid : Layout tasks)
    (nonnull : ∀ t ∈ tasks, t.tcb ≠ 0) (proper : Proper tasks x event) :
    ∃ y, x.step event = some y ∧ Consistent taskExitTrap tasks y ∧
      (event.switches = true → Resumes taskExitTrap tasks (event.selected x.cpu) y) := by
  cases event with
  | svc =>
    obtain ⟨y, stepped, next, resumes⟩ := consistent.svc proper
    exact ⟨y, stepped, next, fun _ => resumes⟩
  | execute d =>
    obtain ⟨y, stepped, next⟩ := consistent.execute laid proper
    exact ⟨y, stepped, next, by simp [SwitchEvent.switches]⟩
  | pendSV selectNext =>
    obtain ⟨y, stepped, next, resumes⟩ := consistent.pendSV laid nonnull proper
    exact ⟨y, stepped, next, fun _ => resumes⟩

end Consistent

theorem created_nonnull {creations : List Creation} (member : t ∈ created creations) : t.tcb ≠ 0 := by
  have accepted := (List.mem_filter.mp member).2
  simp only [Creation.accepted, Bool.and_eq_true, decide_eq_true_eq] at accepted
  exact accepted.1.1.1.1

/-- Runs of the tasks created by `main`. -/
abbrev SwitchRun (taskExitTrap : Word) (creations : List Creation) (c : Cpu) : Switching → Prop :=
  Run Switching.step (Proper (created creations)) (poweredUp taskExitTrap creations c)

theorem consistency_of_run {creations : List Creation} (laid : Layout (created creations))
    (run : SwitchRun taskExitTrap creations c x) : Consistent taskExitTrap (created creations) x := by
  refine run.invariant _ ⟨by simp [poweredUp], ?_⟩ ?_
  · intro t member _
    exact (createAll_fresh laid t member).suspended
  · intro x event y consistent proper stepped
    obtain ⟨z, stepped', next, _⟩ := consistent.step laid (fun t => created_nonnull) proper
    rw [stepped] at stepped'
    cases stepped'
    exact next

/-- Where a task that has never run starts. -/
structure StartsAt (taskExitTrap : Word) (t : Creation) (context : Context) : Prop where
  pc : context.regs .pc = t.fn
  argument : context.regs .r0 = t.arg
  link : context.regs .lr = taskExitTrap
  thumb : context.regs .xpsr &&& 0x01000000 ≠ 0
  sp : context.sp = above wordBytes t.stackBase t.stackWords.toNat

/-- Every switch goes through, to the selected task. That task goes on with the
registers and the stack pointer of its last interruption; one that has never
run starts at its entry point with its argument. -/
theorem switch_transparent {creations : List Creation} {event : SwitchEvent}
    (laid : Layout (created creations)) (run : SwitchRun taskExitTrap creations c x)
    (proper : Proper (created creations) x event) (switches : event.switches = true) :
    ∃ y, x.step event = some y ∧ ∃ t ∈ created creations,
      event.selected x.cpu = some t.tcb ∧ y.cpu.currentTcb = t.tcb ∧
      (∀ context, y.log.lookup t.tcb = some context → y.cpu.context = context) ∧
      (y.log.lookup t.tcb = none → StartsAt taskExitTrap t y.cpu.context) := by
  obtain ⟨y, stepped, _, resumes⟩ := (consistency_of_run laid run).step laid (fun t => created_nonnull) proper
  obtain ⟨t, member, selected, current, resumed⟩ := resumes switches
  refine ⟨y, stepped, t, member, selected, current, ?_, ?_⟩
  · intro context last
    rw [resumed, Switching.lastContext, last]
    rfl
  · intro never
    rw [resumed, Switching.lastContext, never]
    exact ⟨rfl, rfl, rfl, (by decide : (0x01000000 : Word) &&& 0x01000000 ≠ 0), rfl⟩

/-- Two tasks with the smallest stacks there are. -/
def twoTasks : List Creation :=
  [⟨0x20000000, 0x08001001, 7, 0x20001000, 64, 1⟩, ⟨0x20000100, 0x08002001, 9, 0x20002000, 64, 2⟩]

theorem twoTasks_laid : Layout (created twoTasks) :=
  .of_ranges (by decide) (by decide) (by decide) (by decide)

/-- A processor about to start the first task, its other contents cleared. -/
def cleared : Cpu where
  regs _ := 0
  psp := 0
  onPsp := false
  mainStack := []
  memory _ := 0
  currentTcb := 0x20000000
  nextTcb := 0

/-- A selection of the task with this TCB. -/
def choosing (tcb : Word) (c : Cpu) : Option Cpu := some { c with nextTcb := tcb }

theorem choosing_selects (member : t ∈ tasks) (c : Cpu) :
    ∃ d, choosing t.tcb c = some d ∧ Selects tasks c d :=
  ⟨_, rfl, ⟨⟨t, member, rfl⟩, fun _ _ => rfl, rfl, fun _ => .inl rfl⟩⟩

/-- The first task is interrupted with 5 in every register, the second starts
and is interrupted at once, and the first goes on with 5 in every register. -/
theorem switch_transparent_back : ∃ x y : Switching, SwitchRun 0x08000001 twoTasks cleared x ∧
    x.step (.pendSV (choosing 0x20000000)) = some y ∧ y.cpu.context.regs = fun _ => 5 := by
  have first : ⟨0x20000000, 0x08001001, 7, 0x20001000, 64, 1⟩ ∈ created twoTasks := by decide
  have second : ⟨0x20000100, 0x08002001, 9, 0x20002000, 64, 2⟩ ∈ created twoTasks := by decide
  obtain ⟨w, v, x, z, started, computed, switched, back, onPsp, current, pointer, current', pointer', last, chosen⟩ :
      ∃ w v x z : Switching,
        (poweredUp 0x08000001 twoTasks cleared).step .svc = some w ∧
        w.step (.execute { w.cpu with regs := fun _ => 5 }) = some v ∧
        v.step (.pendSV (choosing 0x20000100)) = some x ∧ x.step (.pendSV (choosing 0x20000000)) = some z ∧
        (w.cpu.onPsp = true ∧ v.cpu.onPsp = true ∧ x.cpu.onPsp = true) ∧
        v.cpu.currentTcb = 0x20000000 ∧ v.cpu.psp = 0x20001100 ∧
        x.cpu.currentTcb = 0x20000100 ∧ x.cpu.psp = 0x20002100 ∧
        z.log.lookup 0x20000000 = some ⟨fun _ => 5, v.cpu.psp⟩ ∧ z.cpu.currentTcb = 0x20000000 :=
    ⟨_, _, _, _, rfl, rfl, rfl, rfl, ⟨rfl, rfl, rfl⟩, rfl, by decide +kernel, rfl, by decide +kernel, rfl, rfl⟩
  have run : SwitchRun 0x08000001 twoTasks cleared x := by
    refine ((Run.refl.next ?_ started).next ?_ computed).next ?_ switched
    · exact ⟨rfl, _, first, rfl⟩
    · exact ⟨onPsp.1, rfl, rfl, fun _ => .inl rfl⟩
    · exact ⟨onPsp.2.1, ⟨_, first, current.symm, 48, by decide, pointer⟩, choosing_selects second⟩
  have proper : Proper (created twoTasks) x (.pendSV (choosing 0x20000000)) :=
    ⟨onPsp.2.2, ⟨_, second, current'.symm, 48, by decide, pointer'⟩, choosing_selects first⟩
  obtain ⟨y, stepped, t, _, _, current, again, _⟩ := switch_transparent twoTasks_laid run proper rfl
  rw [back] at stepped
  cases stepped
  rw [← current, chosen] at again
  exact ⟨x, z, run, back, congrArg Context.regs (again _ last)⟩

end NimbleRtos.Port
