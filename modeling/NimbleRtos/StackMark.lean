import NimbleRtos.ContextSwitch

/-! The stack high-water mark. nimble_task_create fills a stack with canaries,
and what neither its task nor a switch away from it writes keeps them: so
nimble_task_get_stack_high_water_mark counts every word that is still unused. -/
namespace NimbleRtos.Port
open DescendingStack GuardedRun

namespace Creation

/-- The loop of nimble_task_get_stack_high_water_mark at `i`, `left` words from the end. -/
def unusedFrom (memory : Word → Word) (t : Creation) (i : Nat) : Nat → Nat
  | 0 => i
  | left + 1 =>
    if memory (above wordBytes t.stackBase i) = stackCanary then t.unusedFrom memory (i + 1) left else i

/-- `nimble_task_get_stack_high_water_mark`. -/
def getStackHighWaterMark (memory : Word → Word) (t : Creation) : Nat :=
  t.unusedFrom memory 0 t.stackWords.toNat

end Creation

variable {taskExitTrap a : Word} {memory : Word → Word} {t : Creation} {tasks creations : List Creation}
  {c : Cpu} {x y : Switching} {event : SwitchEvent} {k mark : Nat}

/-- `mark` words from the base hold canaries, and no more. -/
structure Marks (memory : Word → Word) (t : Creation) (mark : Nat) : Prop where
  within : mark ≤ t.stackWords.toNat
  canaries : ∀ i < mark, memory (above wordBytes t.stackBase i) = stackCanary
  written : mark < t.stackWords.toNat → memory (above wordBytes t.stackBase mark) ≠ stackCanary

theorem Creation.getStackHighWaterMark_spec (memory : Word → Word) (t : Creation) :
    Marks memory t (t.getStackHighWaterMark memory) := by
  have loop : ∀ left i, i + left = t.stackWords.toNat →
      (∀ j < i, memory (above wordBytes t.stackBase j) = stackCanary) →
        Marks memory t (t.unusedFrom memory i left) := by
    intro left
    induction left with
    | zero =>
      intro i ends before
      exact ⟨by simp only [unusedFrom]; omega, before, by simp only [unusedFrom]; omega⟩
    | succ left ih =>
      intro i ends before
      rw [unusedFrom]
      split
      · refine ih (i + 1) (by omega) ?_
        intro j below
        rcases Nat.lt_succ_iff_lt_or_eq.mp below with earlier | rfl
        · exact before j earlier
        · assumption
      · exact ⟨by omega, before, fun _ => ‹_›⟩
  exact loop _ 0 (Nat.zero_add _) (by simp)

/-- The mark is past every canary that has only canaries below it. -/
theorem Marks.le (marks : Marks memory t mark) (fits : k ≤ t.stackWords.toNat)
    (canaries : ∀ i < k, memory (above wordBytes t.stackBase i) = stackCanary) : k ≤ mark := by
  by_contra short
  exact marks.written (by omega) (canaries mark (by omega))

/-- The addresses a step writes among the tasks': what the running task changes,
or the frame below its stack pointer and its `sp`. -/
def SwitchEvent.Writes (c : Cpu) : SwitchEvent → Word → Prop
  | .svc, _ => False
  | .execute d, a => d.memory a ≠ c.memory a
  | .pendSV _, a => a = c.currentTcb ∨ ∃ j < 16, a = c.psp - (j + 1) • wordBytes

/-! ### What a step leaves alone -/

theorem Cpu.popMain_memory {c d : Cpu} {names : List Reg} (popped : c.popMain names = some d) :
    d.memory = c.memory := by
  induction names generalizing c with
  | nil =>
    cases popped
    rfl
  | cons name names ih =>
    rw [popMain] at popped
    split at popped
    · cases popped
    · have later := ih popped
      exact later

theorem Cpu.exceptionReturn_memory {c d : Cpu} {excReturn : Word} (returned : c.exceptionReturn excReturn = some d) :
    d.memory = c.memory := by
  unfold exceptionReturn at returned
  split at returned
  · cases returned
    rfl
  · split at returned
    · obtain ⟨e, popped, rfl⟩ := Option.map_eq_some_iff.mp returned
      exact Cpu.popMain_memory (d := e) popped
    · cases returned

theorem restoreIncoming_memory {c d : Cpu} (restored : restoreIncoming c = some d) : d.memory = c.memory := by
  unfold restoreIncoming at restored
  have returned := Cpu.exceptionReturn_memory restored
  simpa only [Cpu.ldmia, Cpu.set_memory] using returned

/-- After the selection PendSV_Handler only reads memory. -/
theorem pendSvHandler_memory {c d : Cpu} {selectNext : Cpu → Option Cpu}
    (handled : pendSvHandler selectNext c = some d) :
    ∃ e, selectNext ((saveOutgoing c).pushMain [.r3, .lr]) = some e ∧ d.memory = e.memory := by
  simp only [pendSvHandler, Option.bind_eq_bind, Option.bind_eq_some_iff] at handled
  obtain ⟨e, selected, f, popped, restored⟩ := handled
  exact ⟨e, selected, (restoreIncoming_memory restored).trans (Cpu.popMain_memory popped)⟩

/-- The words of a stack that a step does not write are as they were. -/
theorem memory_of_step (nonnull : ∀ t ∈ tasks, t.tcb ≠ 0) (proper : Proper tasks x event) (member : t ∈ tasks)
    (owned : t.Owns a) (spared : ¬ event.Writes x.cpu a) (stepped : x.step event = some y) :
    y.cpu.memory a = x.cpu.memory a := by
  cases event with
  | svc =>
    obtain ⟨boot, _⟩ := proper
    simp only [Switching.step, boot, Bool.false_eq_true, if_false] at stepped
    obtain ⟨d, handled, rfl⟩ := Option.map_eq_some_iff.mp stepped
    have entered : x.cpu.exceptionEntry.memory = x.cpu.memory := by simp [Cpu.exceptionEntry, boot, Cpu.pushMain]
    exact congrFun ((Cpu.exceptionReturn_memory handled).trans entered) a
  | execute d =>
    simp only [Switching.step, proper.1, if_true, Option.some.injEq] at stepped
    subst stepped
    exact not_not.mp spared
  | pendSV selectNext =>
    obtain ⟨thread, ⟨u, second, current, k, room, pointer⟩, selects⟩ := proper
    obtain ⟨other, below⟩ := not_or.mp spared
    simp only [Switching.step, thread, if_true] at stepped
    obtain ⟨d, handled, rfl⟩ := Option.map_eq_some_iff.mp stepped
    obtain ⟨e, selected, same⟩ := pendSvHandler_memory handled
    obtain ⟨e', selected', selection⟩ := selects ((saveOutgoing x.cpu.exceptionEntry).pushMain [.r3, .lr])
    obtain rfl : e = e' := Option.some.inj (selected.symm.trans selected')
    have chosen : e.memory a = (saveOutgoing x.cpu.exceptionEntry).memory a :=
      (selection.memory a).resolve_right fun outside => (outside t member).2 owned
    calc d.memory a = e.memory a := congrFun same a
      _ = (saveOutgoing x.cpu.exceptionEntry).memory a := chosen
      _ = x.cpu.memory a := by
        refine saveOutgoing_outside thread (by rw [← current]; exact nonnull u second) pointer other ?_
        rintro i within rfl
        refine below ⟨15 - i, by omega, ?_⟩
        rw [pointer, above_sub (by omega)]
        congr 1
        omega

/-! ### Runs -/

/-- The task's first frame ends its unused words. -/
theorem mark_created (laid : Layout (created creations)) (member : t ∈ created creations) :
    t.getStackHighWaterMark (createAll taskExitTrap c.memory creations) + 16 = t.stackWords.toNat := by
  have fresh : Fresh taskExitTrap (createAll taskExitTrap c.memory creations) t := createAll_fresh laid t member
  obtain ⟨⟨k, frame⟩, canaries⟩ := fresh
  have marks := t.getStackHighWaterMark_spec (createAll taskExitTrap c.memory creations)
  have fits := laid.fits t member
  have room := frame.room
  have top : t.stackWords.toNat = k + 16 := by
    have same : t.stackWords.toNat • wordBytes = (k + 16) • wordBytes := add_left_cancel frame.sp
    have positions := congrArg UInt32.toNat same
    simp only [wordBytes_nsmul] at positions
    omega
  have first := frame.saved 0 (by simp [frameRegisters])
  rw [above_zero] at first
  have written : createAll taskExitTrap c.memory creations (above wordBytes t.stackBase k) ≠ stackCanary := by
    rw [first]
    exact (by decide : (0x04040404 : Word) ≠ stackCanary)
  have enough := marks.le (k := k) (by omega) fun i below => canaries i (by omega)
  have ends : ¬ k < t.getStackHighWaterMark (createAll taskExitTrap c.memory creations) :=
    fun beyond => written (marks.canaries k beyond)
  omega

/-- Nothing writes the lowest `k` words of `t`'s stack. -/
def Spares (t : Creation) (k : Nat) (x : Switching) (event : SwitchEvent) : Prop :=
  ∀ i < k, ¬ event.Writes x.cpu (above wordBytes t.stackBase i)

/-- In every run of the created tasks the mark is at least the number of words
that no step has written, and the words it counts are as nimble_task_create
filled them, the next one not. Before the first step it is all but the first
frame. -/
theorem high_water_mark (laid : Layout (created creations)) (member : t ∈ created creations)
    (room : k + 16 ≤ t.stackWords.toNat)
    (run : Run Switching.step (fun x event => Proper (created creations) x event ∧ Spares t k x event)
      (poweredUp taskExitTrap creations c) x) :
    k ≤ t.getStackHighWaterMark x.cpu.memory ∧ Marks x.cpu.memory t (t.getStackHighWaterMark x.cpu.memory) ∧
      t.getStackHighWaterMark (createAll taskExitTrap c.memory creations) + 16 = t.stackWords.toNat := by
  have marks := t.getStackHighWaterMark_spec x.cpu.memory
  refine ⟨marks.le (by omega) ?_, marks, mark_created laid member⟩
  refine run.invariant (fun x => ∀ i < k, x.cpu.memory (above wordBytes t.stackBase i) = stackCanary) ?_ ?_
  · intro i below
    exact (createAll_fresh laid t member).canaries i (by omega)
  · rintro x event y unused ⟨proper, spares⟩ stepped i below
    have owned : t.Owns (above wordBytes t.stackBase i) := ⟨i, by omega, rfl⟩
    rw [memory_of_step (fun t => created_nonnull) proper member owned (spares i below) stepped]
    exact unused i below

/-- The first task starts and writes word 40 of its 64. -/
theorem high_water_mark_forty : ∃ (t : Creation) (x : Switching), t ∈ created twoTasks ∧
    SwitchRun 0x08000001 twoTasks cleared x ∧ x.cpu.onPsp = true ∧ t.getStackHighWaterMark x.cpu.memory = 40 := by
  have first : ⟨0x20000000, 0x08001001, 7, 0x20001000, 64, 1⟩ ∈ created twoTasks := by decide
  obtain ⟨w, started, onPsp, current⟩ : ∃ w, (poweredUp 0x08000001 twoTasks cleared).step .svc = some w ∧
      w.cpu.onPsp = true ∧ w.cpu.currentTcb = 0x20000000 := ⟨_, rfl, rfl, rfl⟩
  let d : Cpu := { w.cpu with memory := Function.update w.cpu.memory (above wordBytes 0x20001000 40) 7 }
  have own : KeepsToItself (created twoTasks) w.cpu d := by
    refine ⟨rfl, rfl, fun a => ?_⟩
    by_cases here : a = above wordBytes 0x20001000 40
    · exact .inr (.inl ⟨_, first, current.symm, 40, by decide, here⟩)
    · exact .inl (Function.update_of_ne here _ _)
  have spares : Spares ⟨0x20000000, 0x08001001, 7, 0x20001000, 64, 1⟩ 40 w (.execute d) := by
    intro i below
    refine not_not.mpr (Function.update_of_ne ?_ _ _)
    intro same
    have := (distinct_words (n := 64) (by decide)).above_inj (by omega) (by decide) same
    omega
  have proper : Proper (created twoTasks) w (.execute d) := ⟨onPsp, own⟩
  have run : Run Switching.step (fun x event => Proper (created twoTasks) x event ∧
      Spares ⟨0x20000000, 0x08001001, 7, 0x20001000, 64, 1⟩ 40 x event)
      (poweredUp 0x08000001 twoTasks cleared) { w with cpu := d } :=
    (Run.refl.next ⟨⟨rfl, _, first, rfl⟩, fun _ _ => id⟩ started).next ⟨proper, spares⟩
      (by simp only [Switching.step, onPsp, if_true])
  obtain ⟨enough, marks, _⟩ := high_water_mark twoTasks_laid first (by decide) run
  have written : ¬ 40 < Creation.getStackHighWaterMark d.memory ⟨0x20000000, 0x08001001, 7, 0x20001000, 64, 1⟩ := by
    intro beyond
    have kept := marks.canaries 40 beyond
    rw [show d.memory = Function.update w.cpu.memory (above wordBytes 0x20001000 40) 7 from rfl,
      Function.update_self] at kept
    exact absurd kept (by decide)
  exact ⟨_, _, first, run.weaken fun _ _ meets => meets.1, onPsp, Nat.le_antisymm (Nat.le_of_not_lt written) enough⟩

end NimbleRtos.Port
