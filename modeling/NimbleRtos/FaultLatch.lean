import NimbleRtos.PowerSupply

/-! Whether FAULT, once noted in the shared status, stays. ControlTask publishes
the state it cached before it looks at the status again, so a fault noted while
a publication is due is overwritten. -/
namespace NimbleRtos.PowerSupply
open GuardedRun

namespace Control
variable {F : Type} {x : Control F}

/-- The next `switch` sets a state. -/
def advances (x : Control F) : Bool :=
  match x.localState with
  | .idle => true
  | .softStart => softStartRampSteps ≤ x.softStartStep + 1
  | _ => false

/-- ControlTask publishes a state before it next reads the status. -/
def publicationDue (x : Control F) : Bool :=
  match x.pc with
  | .publishing => true
  | .resyncing => false
  | _ => x.advances

/-- The `switch` leads to a publication, of another state than FAULT, just
when it sets one. -/
theorem runSwitch_cases (x : Control F) :
    (x.advances = true ∧ x.runSwitch.pc = .publishing ∧ x.runSwitch.localState ≠ .fault) ∨
      (x.advances = false ∧ x.runSwitch.pc = .resyncing) := by
  obtain ⟨pc, localState, softStartStep⟩ := x
  cases localState with
  | idle => exact .inl ⟨rfl, rfl, by simp [runSwitch]⟩
  | softStart =>
    by_cases ramped : softStartRampSteps ≤ softStartStep + 1
    · exact .inl ⟨by simp [advances, ramped], by simp [runSwitch, ramped], by simp [runSwitch, ramped]⟩
    · exact .inr ⟨by simpa [advances] using ramped, by simp [runSwitch, ramped]⟩
  | running | fault => exact .inr ⟨rfl, rfl⟩

end Control

namespace App
variable {F : Type} {scaling : Scaling F} {y z : App F} {event : AppEvent}

/-- `ps_status_note_fault` runs while a publication is due. -/
def notesTooEarly (y : App F) : AppEvent → Bool
  | .protection => y.protection = .noting && y.control.publicationDue
  | _ => false

/-- No fault is noted while a publication is due. -/
abbrev Timely (y : App F) (event : AppEvent) : Prop := y.notesTooEarly event = false

/-- A publication is never of FAULT, and none is due while FAULT stands. -/
structure Latched (y : App F) : Prop where
  published : y.control.pc = .publishing → y.control.localState ≠ .fault
  safe : y.status.state = .fault → y.control.publicationDue = false

theorem giveFault_keeps (y : App F) :
    y.giveFault.status = y.status ∧ y.giveFault.control = y.control ∧
      y.giveFault.samples = y.samples := by
  unfold giveFault
  split
  · exact ⟨rfl, rfl, rfl⟩
  · split <;> exact ⟨rfl, rfl, rfl⟩

theorem sendSample_keeps (y : App F) (sample : AdcSample) :
    (y.sendSample sample).status = y.status ∧ (y.sendSample sample).control = y.control ∧
      (y.sendSample sample).samples ≠ [] := by
  unfold sendSample
  split
  · exact ⟨rfl, rfl, by simp⟩
  · rename_i full
    refine ⟨rfl, rfl, fun empty => full ?_⟩
    rw [empty]
    decide

/-- The interrupt touches neither the status nor ControlTask, and leaves a
sample in the queue. -/
theorem adc_keeps (y : App F) (scaling : Scaling F) (dataRegister : UInt32) :
    (y.adcIrqHandler scaling dataRegister).status = y.status ∧
      (y.adcIrqHandler scaling dataRegister).control = y.control ∧
      (y.adcIrqHandler scaling dataRegister).samples ≠ [] := by
  unfold adcIrqHandler
  dsimp only
  split
  · obtain ⟨status, control, samples⟩ := giveFault_keeps (y.sendSample
      ⟨(dataRegister &&& 0xFFF).toUInt16, (dataRegister &&& 0xFFF).toUInt16⟩)
    rw [status, control, samples]
    exact sendSample_keeps y _
  · exact sendSample_keeps y _

/-- The ways a step of ControlTask can go. -/
inductive ControlMoves (y z : App F) : Prop where
  | receives {voltageMv currentMa : F} (here : y.control.pc = .receiving) (status : z.status = y.status)
      (control : z.control = { y.control with pc := .measured voltageMv currentMa })
  | measures {voltageMv currentMa : F} (here : y.control.pc = .measured voltageMv currentMa)
      (status : z.status = y.status.setMeasurement voltageMv currentMa)
      (control : z.control = { y.control with pc := .deciding })
  | decides (here : y.control.pc = .deciding) (status : z.status = y.status)
      (control : z.control = y.control.runSwitch)
  | publishes (here : y.control.pc = .publishing)
      (status : z.status = y.status.setState y.control.localState)
      (control : z.control = { y.control with pc := .resyncing })
  | resyncs (here : y.control.pc = .resyncing) (status : z.status = y.status)
      (control : z.control = y.control.resync y.status)

theorem controlStep_spec (stepped : y.controlStep scaling = some z) : ControlMoves y z := by
  unfold controlStep at stepped
  split at stepped
  · rename_i here
    split at stepped
    · cases stepped
    · cases stepped; exact .receives here rfl rfl
  · cases stepped; exact .measures ‹_› rfl rfl
  · cases stepped; exact .decides ‹_› rfl rfl
  · cases stepped; exact .publishes ‹_› rfl rfl
  · cases stepped; exact .resyncs ‹_› rfl rfl

namespace Latched

private theorem control (latched : y.Latched) (moved : ControlMoves y z) :
    z.Latched ∧ (y.status.state = .fault → z.status.state = .fault) := by
  obtain ⟨published, safe⟩ := latched
  cases moved with
  | receives here status control | measures here status control =>
    refine ⟨⟨by simp [control], ?_⟩, by rw [status]; exact id⟩
    rw [status, control]
    simp only [Control.publicationDue, here] at safe
    exact safe
  | decides here status control =>
    refine ⟨⟨?_, ?_⟩, by rw [status]; exact id⟩
    · rcases Control.runSwitch_cases y.control with ⟨_, _, other⟩ | ⟨_, resyncs⟩
      · rw [control]; exact fun _ => other
      · rw [control, resyncs]; simp
    · rw [status, control]
      intro fault
      have idle := safe fault
      simp only [Control.publicationDue, here] at idle
      rcases Control.runSwitch_cases y.control with ⟨advances, _⟩ | ⟨_, resyncs⟩
      · rw [advances] at idle; cases idle
      · simp [Control.publicationDue, resyncs]
  | publishes here status control =>
    refine ⟨⟨by simp [control], fun _ => by simp [control, Control.publicationDue]⟩, fun fault => ?_⟩
    have idle := safe fault
    simp [Control.publicationDue, here] at idle
  | resyncs here status control =>
    refine ⟨⟨by simp [control, Control.resync], fun fault => ?_⟩, by rw [status]; exact id⟩
    rw [status] at fault
    simp [control, Control.resync, Control.publicationDue, Control.advances, fault]

private theorem protection (latched : y.Latched) (timely : Timely y .protection)
    (stepped : y.protectionStep = some z) :
    z.Latched ∧ (y.status.state = .fault → z.status.state = .fault) := by
  unfold protectionStep at stepped
  split at stepped
  · split at stepped <;> cases stepped <;> exact ⟨⟨latched.published, latched.safe⟩, id⟩
  · cases stepped
  · rename_i here
    cases stepped
    refine ⟨⟨latched.published, ?_⟩, fun _ => rfl⟩
    intro _
    simpa [Timely, notesTooEarly, here] using timely

/-- A timely step keeps FAULT. -/
theorem step (latched : y.Latched) (timely : Timely y event)
    (stepped : App.step scaling y event = some z) :
    z.Latched ∧ (y.status.state = .fault → z.status.state = .fault) := by
  cases event with
  | adc dataRegister =>
    cases stepped
    obtain ⟨status, control, _⟩ := adc_keeps y scaling dataRegister
    exact ⟨⟨by rw [control]; exact latched.published, by rw [status, control]; exact latched.safe⟩,
      by rw [status]; exact id⟩
  | control => exact latched.control (controlStep_spec stepped)
  | protection => exact latched.protection timely stepped
  | read => cases stepped; exact ⟨⟨latched.published, latched.safe⟩, id⟩

theorem run (run : AppRun scaling Timely y z) (latched : y.Latched) :
    z.Latched ∧ (y.status.state = .fault → z.status.state = .fault) :=
  run.invariant (fun z => z.Latched ∧ (y.status.state = .fault → z.status.state = .fault))
    ⟨latched, id⟩ fun _ _ _ reached timely stepped =>
      have next := reached.1.step timely stepped
      ⟨next.1, next.2 ∘ reached.2⟩

end Latched

theorem latched_of_run (run : AppRun scaling Timely (sharedInit scaling) y) : y.Latched :=
  (Latched.run run ⟨by simp [sharedInit], by simp [sharedInit]⟩).1

/-- The status can come to another state than FAULT. -/
def Escapes (scaling : Scaling F) (y : App F) : Prop :=
  ∃ z, AppRun scaling Timely y z ∧ z.status.state ≠ .fault

namespace Escapes

private theorem after_control (stepped : y.controlStep scaling = some z) (escapes : z.Escapes scaling) :
    y.Escapes scaling := by
  obtain ⟨w, run, other⟩ := escapes
  have first : AppRun scaling Timely y z := .next .refl (rfl : Timely y .control) stepped
  exact ⟨w, first.trans run, other⟩

private theorem publishing (here : y.control.pc = .publishing) (other : y.control.localState ≠ .fault) :
    y.Escapes scaling := by
  have stepped : y.controlStep scaling = some { y with
      status := y.status.setState y.control.localState
      control := { y.control with pc := .resyncing } } := by
    simp only [controlStep, here]
  exact ⟨_, .next .refl (rfl : Timely y .control) stepped, other⟩

private theorem deciding (here : y.control.pc = .deciding) (advances : y.control.advances = true) :
    y.Escapes scaling := by
  have stepped : y.controlStep scaling = some { y with control := y.control.runSwitch } := by
    simp only [controlStep, here]
  rcases y.control.runSwitch_cases with ⟨_, publishes, other⟩ | ⟨idle, _⟩
  · exact after_control stepped (publishing publishes other)
  · rw [advances] at idle; cases idle

private theorem measured {voltageMv currentMa : F} (here : y.control.pc = .measured voltageMv currentMa)
    (advances : y.control.advances = true) : y.Escapes scaling := by
  have stepped : y.controlStep scaling = some { y with
      status := y.status.setMeasurement voltageMv currentMa
      control := { y.control with pc := .deciding } } := by
    simp only [controlStep, here]
  exact after_control stepped (deciding rfl advances)

private theorem receiving (here : y.control.pc = .receiving) (sampled : y.samples ≠ [])
    (advances : y.control.advances = true) : y.Escapes scaling := by
  obtain ⟨sample, samples, split⟩ := List.exists_cons_of_ne_nil sampled
  obtain ⟨z, stepped⟩ : ∃ z, y.controlStep scaling = some z := by
    simp only [controlStep, here, split]
    exact ⟨_, rfl⟩
  refine after_control stepped ?_
  cases controlStep_spec stepped with
  | receives _ status control => exact measured (by rw [control]) (by rw [control]; exact advances)
  | measures other | decides other | publishes other | resyncs other => rw [here] at other; cases other

/-- ControlTask alone, fed with a sample, gets to a due publication. -/
theorem of_due (published : y.control.pc = .publishing → y.control.localState ≠ .fault)
    (due : y.control.publicationDue = true) : y.Escapes scaling := by
  simp only [Control.publicationDue] at due
  split at due
  · exact publishing ‹_› (published ‹_›)
  · cases due
  · rename_i notPublishing notResyncing
    cases here : y.control.pc with
    | receiving =>
      obtain ⟨_, control, sampled⟩ := adc_keeps y scaling 0
      obtain ⟨w, run, other⟩ : Escapes scaling (y.adcIrqHandler scaling 0) :=
        receiving (by rw [control, here]) sampled (by rw [control, due])
      have first : AppRun scaling Timely y (y.adcIrqHandler scaling 0) :=
        .next .refl (rfl : Timely y (.adc 0)) rfl
      exact ⟨w, first.trans run, other⟩
    | measured voltageMv currentMa => exact measured here due
    | deciding => exact deciding here due
    | publishing => exact absurd here notPublishing
    | resyncing => exact absurd here notResyncing

end Escapes

/-- In a timely run FAULT is absorbing, and the next fault stays exactly if it
is timely as well. -/
structure Absorbing (scaling : Scaling F) (y : App F) : Prop where
  stays : y.status.state = .fault → ∀ z, AppRun scaling Timely y z → z.status.state = .fault
  noted : ∀ z, y.protection = .noting → y.protectionStep = some z →
    z.status.state = .fault ∧ ((∀ w, AppRun scaling Timely z w → w.status.state = .fault) ↔
      y.control.publicationDue = false)

private theorem Latched.noted (latched : y.Latched) (noting : y.protection = .noting)
    (stepped : y.protectionStep = some z) :
    z.status.state = .fault ∧ ((∀ w, AppRun scaling Timely z w → w.status.state = .fault) ↔
      y.control.publicationDue = false) := by
  simp only [protectionStep, noting, Option.some.injEq] at stepped
  subst stepped
  refine ⟨rfl, ?_, ?_⟩
  · intro stays
    apply Bool.eq_false_iff.mpr
    intro due
    obtain ⟨w, run, other⟩ :
        Escapes scaling { y with status := y.status.noteFault, protection := .taking } :=
      .of_due latched.published due
    exact other (stays w run)
  · intro idle w run
    exact (Latched.run run ⟨latched.published, fun _ => idle⟩).2 rfl

/-- FAULT is absorbing as long as no fault is noted while a publication is due. -/
theorem fault_absorbs (run : AppRun scaling Timely (sharedInit scaling) y) : Absorbing scaling y where
  stays fault _ later := (Latched.run later (latched_of_run run)).2 fault
  noted _ := (latched_of_run run).noted

/-- The scalings of control_task.c and isr_bridge.c with the 1/4095 cleared. -/
def exactScaling : Scaling Nat where
  zero := 0
  millivolts raw := raw.toNat * 16500
  milliamps raw := raw.toNat * 5000
  overLimit voltage current := 13000 * 4095 < voltage || 3000 * 4095 < current

/-- A sample in range is processed before the one over the limit. -/
def secondSampleOver : List AppEvent :=
  [.protection, .adc 0x800, .control, .control, .control, .control, .control, .adc 0xFFF, .protection]

theorem secondSampleOver_absorbs : ∃ y, y.status.state = .fault ∧ Absorbing exactScaling y := by
  obtain ⟨y, run, passed⟩ := reaches_of_exec secondSampleOver
    (fun y : App Nat => y.status.state = .fault)
    (by decide : (exec (App.step exactScaling) Timely (sharedInit exactScaling) secondSampleOver).map _ =
      some true)
  exact ⟨y, of_decide_eq_true passed, fault_absorbs run⟩

/-- ProtectionTask handles a first sample over the limit, then ControlTask gets it. -/
def firstSampleOver : List AppEvent := [.protection, .adc 0xFFF, .protection]

/-- ControlTask publishes SOFT_START over the noted FAULT. -/
theorem firstSampleOver_overwritten :
    ∃ y z, AppRun exactScaling Free (sharedInit exactScaling) y ∧ y.status.state = .fault ∧
      AppRun exactScaling Free y z ∧ z.status.state = .softStart := by
  have noted : ∃ y, exec (App.step exactScaling) Free (sharedInit exactScaling) firstSampleOver = some y ∧
      y.status.state = .fault ∧
      ∃ z, exec (App.step exactScaling) Free y [.control, .control, .control, .control] = some z ∧
        z.status.state = .softStart :=
    ⟨_, rfl, rfl, _, rfl, rfl⟩
  obtain ⟨y, faulted, fault, z, resumed, softStart⟩ := noted
  exact ⟨y, z, run_of_exec faulted, fault, run_of_exec resumed, softStart⟩

end App
end NimbleRtos.PowerSupply
