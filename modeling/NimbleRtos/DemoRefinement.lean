import NimbleRtos.DemoView

/-! Each step of the demo on the kernel is at most one step of the application's
model, in which a status function is a single step, taken when it gets the
mutex, the sample queue is a list and the fault semaphore its count. -/
namespace NimbleRtos
open NodeRings Sched NimbleRtos.System GuardedRun

namespace PowerSupply
open Port (Placement protection control comms logger timerSvc)

namespace Demo
variable {F : Type} {scaling : Scaling F} {x z : Demo F} {self t : TaskId}

/-! ## Steps -/

/-- A step of the demo is none of the application's, or one. -/
inductive Moves (scaling : Scaling F) (x z : Demo F) : Prop where
  | stutters (same : ∀ snapshot, z.view scaling snapshot = x.view scaling snapshot)
  | steps (event : AppEvent) (stepped : ∀ snapshot, ∃ snapshot',
      App.step scaling (x.view scaling snapshot) event = some (z.view scaling snapshot'))

/-- What is left to show of a step that the application does not see. -/
theorem stutters_of (settled : z.settled = x.settled)
    (samples : z.system.queues adcSampleQueue = x.system.queues adcSampleQueue)
    (units : (z.system.semaphores faultSemaphore).count = (x.system.semaphores faultSemaphore).count)
    (control : z.controlView scaling = x.controlView scaling) (protection : z.protectionView = x.protectionView) :
    Moves scaling x z :=
  .stutters fun snapshot => by simp only [view, settled, samples, units, control, protection]

/-- `self` gets the mutex for `call`. -/
structure Acquires (scaling : Scaling F) (x z : Demo F) (t : TaskId) (call : StatusCall F) (back : Place F) :
    Prop where
  nobody : ∀ t, ¬ x.Inside t
  before : x.place t = .lock call back ∨ x.place t = .access call call.body back ∧ x.system.pc t ≠ .thread
  here : z.place t = .access call call.body back
  thread : z.system.pc t = .thread
  status : z.status = x.status
  localState : z.localState = x.localState
  softStartStep : z.softStartStep = x.softStartStep
  samples : z.system.queues adcSampleQueue = x.system.queues adcSampleQueue
  units : (z.system.semaphores faultSemaphore).count = (x.system.semaphores faultSemaphore).count
  control : t ≠ Port.control → z.controlView scaling = x.controlView scaling
  protection : t ≠ Port.protection → z.protectionView = x.protectionView

namespace Acquires
variable {call : StatusCall F} {back : Place F}

theorem settled (acquires : Acquires scaling x z t call back) (locked : z.Locked) :
    x.settled = x.status ∧ z.settled = call.effect x.status := by
  refine ⟨settled_outside acquires.nobody, ?_⟩
  have inside : z.Inside t := ⟨by rw [acquires.here]; rfl, acquires.thread⟩
  rw [settled_inside locked inside, acquires.here, acquires.status]
  exact foldl_body x.status call

/-- ControlTask's own. -/
theorem own (acquires : Acquires scaling x z Port.control call back) :
    x.controlView scaling = x.controlBefore call ∧
      z.controlView scaling = x.controlAfter (z.reads Port.control) call := by
  constructor
  · unfold controlView
    rcases acquires.before with before | ⟨before, asleep⟩
    · rw [before]
    · rw [before]
      exact if_neg asleep
  · have same : z.controlAfter = x.controlAfter := by
      funext status call
      cases call <;> simp [controlAfter, acquires.localState, acquires.softStartStep]
    unfold controlView
    rw [acquires.here, same]
    exact if_pos acquires.thread

theorem moves (acquires : Acquires scaling x z t call back) (orderly : x.Orderly) (locked : z.Locked) :
    Moves scaling x z := by
  have code := locked.coded t
  rw [acquires.here] at code
  obtain ⟨before, after⟩ := acquires.settled locked
  have samples := acquires.samples
  have units := acquires.units
  cases code with
  | protection code =>
    have control := acquires.control (by decide)
    cases code with
    | noteFault during =>
      cases during
      have noting : x.protectionView = .noting := by
        unfold protectionView
        rcases acquires.before with before | ⟨before, asleep⟩
        · rw [before]
        · rw [before]
          exact if_neg asleep
      have taking : z.protectionView = .taking := by
        unfold protectionView
        rw [acquires.here]
        exact if_pos acquires.thread
      refine .steps .protection fun snapshot => ⟨snapshot, ?_⟩
      simp only [App.step, App.protectionStep, view, noting, taking, before, after, samples, units, control]
      rfl
  | control code =>
    have protection := acquires.protection (by decide)
    obtain ⟨old, new⟩ := acquires.own
    refine .steps .control fun snapshot => ⟨snapshot, ?_⟩
    cases code with
    | setMeasurement during =>
      cases during
      simp only [App.step, App.controlStep, view, old, new, before, after, samples, units, protection]
      rfl
    | @setState state p during =>
      cases during
      obtain rfl : state = x.localState := by
        refine orderly.published state ?_
        rcases acquires.before with before | ⟨before, _⟩ <;> rw [before] <;> rfl
      simp only [App.step, App.controlStep, view, old, new, before, after, samples, units, protection]
      rfl
    | get during =>
      cases during
      have reads : z.reads Port.control = x.status := by
        unfold Demo.reads
        rw [acquires.here, acquires.status]
        rfl
      simp only [App.step, App.controlStep, view, old, new, before, after, samples, units, protection, reads]
      rfl
  | comms code | logger code =>
    have control := acquires.control (by decide)
    have protection := acquires.protection (by decide)
    cases code with
    | get during =>
      cases during
      refine .steps .read fun snapshot => ⟨some x.settled, ?_⟩
      simp only [App.step, view, before, after, samples, units, control, protection]
      rfl
  | timerSvc code => cases code

end Acquires

/-- ControlTask is given the oldest sample. -/
theorem moves_receipt {out : Bytes} (orderly : x.Orderly)
    (old : x.controlView scaling = ⟨.receiving, x.localState, x.softStartStep⟩)
    (left : 0 < (x.system.queues adcSampleQueue).count)
    (copied : (x.system.queues adcSampleQueue).copyOut = some (out, z.system.queues adcSampleQueue))
    (here : z.place control = .sampleReceived) (thread : z.system.pc control = .thread)
    (returned : z.system.returned control = some (.ok, out)) (localState : z.localState = x.localState)
    (softStartStep : z.softStartStep = x.softStartStep) (settled : z.settled = x.settled)
    (units : (z.system.semaphores faultSemaphore).count = (x.system.semaphores faultSemaphore).count)
    (protection : z.protectionView = x.protectionView) : Moves scaling x z := by
  obtain ⟨_, _, items⟩ := orderly.fifo.formed.copyOut left copied
  have received : z.received control = out := by simp [Demo.received, returned]
  have new : z.controlView scaling = ⟨.measured (scaling.millivolts (AdcSample.ofBytes out).voltageRaw)
      (scaling.milliamps (AdcSample.ofBytes out).currentRaw), x.localState, x.softStartStep⟩ := by
    unfold controlView
    rw [here, localState, softStartStep]
    simp only [thread, received, ↓reduceIte]
  refine .steps .control fun snapshot => ⟨snapshot, ?_⟩
  simp only [App.step, App.controlStep, view, old, new, items, settled, units, protection, List.map_cons]

namespace Orderly

/-- The event is no interrupt call about `o`. -/
def Silent (o : Object) (event : Event) : Prop := ∀ c, event = .isr c → c.object ≠ o

theorem units_kernel {event : Event} {system : System} (orderly : x.Orderly) (uncalled : ∀ c, event ≠ .call c)
    (silent : Silent (.semaphore faultSemaphore) event) (stepped : x.system.step event = some system) :
    system.semaphores faultSemaphore = x.system.semaphores faultSemaphore := by
  cases orderly.uncalled_faults uncalled stepped with
  | aside aside => exact aside.object
  | ticks => rfl
  | interrupts origin about => exact absurd about (silent _ origin)
  | finishes _ about _ _ ran =>
    cases resume_spec ran with
    | takes => rfl
    | _ => cases about

theorem samples_kernel {event : Event} {system : System} (orderly : x.Orderly) (uncalled : ∀ c, event ≠ .call c)
    (silent : Silent (.queue adcSampleQueue) event) (stepped : x.system.step event = some system)
    (unreceived : ¬ Returns x.system control receiveSampleCall event system) :
    system.queues adcSampleQueue = x.system.queues adcSampleQueue := by
  cases Reading.uncalled (r := sampleReader) orderly.linked uncalled stepped with
  | aside aside => exact aside.object
  | ticks => rfl
  | interrupts origin about => exact absurd about (silent _ origin)
  | finishes origin about running here ran =>
    subst origin
    obtain ⟨rfl, rfl, woken⟩ := orderly.samples.ends orderly.linked here running about
    exact absurd (.intro running here woken ran) unreceived

/-- The woken caller of a lock acquires it. -/
theorem acquires_kernel {event : Event} {system : System} (scaling : Scaling F) (orderly : x.Orderly)
    (uncalled : ∀ c, event ≠ .call c)
    (faults : Silent (.semaphore faultSemaphore) event) (samples : Silent (.queue adcSampleQueue) event)
    (stepped : x.system.step event = some system) (returns : Returns x.system t lockCall event system) :
    ∃ call back, Acquires scaling x { x with system } t call back := by
  have locked := orderly.locked
  obtain ⟨here, woken⟩ : x.system.pc t = .parked lockCall ∧ x.system.waitStatus t = .woken lockCall .ok := by
    cases returns with
    | intro _ here woken => exact ⟨here, woken⟩
  have standing := locked.standing t
  generalize place : x.place t = p at standing
  cases standing with
  | outside _ _ free =>
    rw [woken] at free
    cases free
  | holds thread =>
    rw [thread] at here
    cases here
  | @waits call back =>
    have unreceived : ¬ Returns x.system control receiveSampleCall event system := by
      intro receives
      cases (returns.unique receives).2
    have waiting := (orderly.uncalled_faults uncalled stepped).waiting_iff (t := protection) (b := takeFaultCall)
      orderly.linked rfl rfl faults
    refine ⟨call, back, ?_, .inr ⟨place, by simp [here]⟩, place, ?_, rfl, rfl, rfl,
      orderly.samples_kernel uncalled samples stepped unreceived,
      by rw [orderly.units_kernel uncalled faults stepped], ?_, ?_⟩
    · intro u inside
      obtain rfl : u = t :=
        Option.some.inj ((locked.inside_owner inside).symm.trans (locked.owned.handed t _ woken))
      rw [inside.2] at here
      cases here
    · cases returns with
      | intro => simp [finished]
    · intro other
      exact controlView_step orderly stepped ⟨rfl, rfl, rfl, rfl, fun _ => rfl⟩ (fun c call => absurd call (uncalled c))
        (fun own => other (returns.unique own).1) unreceived
    · intro other
      exact protectionView_step orderly stepped rfl (fun c call => absurd call (uncalled c))
        (fun own => other (returns.unique own).1) waiting

/-- What a step that is no call and ends no lock changes at most. -/
theorem kernel_still {event : Event} {system : System} (scaling : Scaling F) (orderly : x.Orderly)
    (uncalled : ∀ c, event ≠ .call c)
    (stepped : x.system.step event = some system) (unlocked : ∀ t, ¬ Returns x.system t lockCall event system) :
    Demo.settled { x with system } = x.settled ∧
      (¬ Returns x.system control receiveSampleCall event system →
        Demo.controlView { x with system } scaling = x.controlView scaling) ∧
      (Silent (.semaphore faultSemaphore) event → Demo.protectionView { x with system } = x.protectionView) := by
  have others : ∀ t c, event = .call c → x.system.running ≠ some t := fun _ c call => absurd call (uncalled c)
  refine ⟨?_, ?_, ?_⟩
  · exact settled_congr orderly.locked (orderly.locked.kernel uncalled stepped)
      (fun t => inside_iff orderly.locked stepped rfl (others t) (unlocked t)) (fun _ _ => rfl) rfl
  · exact fun unreceived => controlView_step orderly stepped ⟨rfl, rfl, rfl, rfl, fun _ => rfl⟩ (others _) (unlocked _)
      unreceived
  · exact fun faults => protectionView_step orderly stepped rfl (others _) (unlocked _)
      ((orderly.uncalled_faults uncalled stepped).waiting_iff orderly.linked rfl rfl faults)

theorem kernel_moves {event : Event} {system : System} (orderly : x.Orderly) (uncalled : ∀ c, event ≠ .call c)
    (faults : Silent (.semaphore faultSemaphore) event) (samples : Silent (.queue adcSampleQueue) event)
    (stepped : x.system.step event = some system) : Moves scaling x { x with system } := by
  have after := orderly.kernel uncalled stepped
  have units := orderly.units_kernel uncalled faults stepped
  by_cases locks : ∃ t, Returns x.system t lockCall event system
  · obtain ⟨t, returns⟩ := locks
    obtain ⟨call, back, acquires⟩ := orderly.acquires_kernel scaling uncalled faults samples stepped returns
    exact acquires.moves orderly after.locked
  · obtain ⟨settled, unreceived, protection⟩ :=
      orderly.kernel_still scaling uncalled stepped (not_exists.mp locks)
    by_cases receives : Returns x.system control receiveSampleCall event system
    · cases receives with
      | intro running here woken ran =>
        have engaged : (x.system.waitStatus control).on (.queue adcSampleQueue) ≠ .awake := by
          rw [woken]
          decide
        have place := (orderly.receivers engaged).2
        have old : x.controlView scaling = ⟨.receiving, x.localState, x.softStartStep⟩ := by
          unfold controlView
          simp only [place, here, reduceCtorEq, ↓reduceIte]
        obtain ⟨rfl, s, queue, copied, rfl⟩ := orderly.samples.receives_ok woken ran
        exact moves_receipt orderly old (orderly.available woken)
          (by simpa [finished, Kernel.setQueue, sampleReader] using copied) place (by simp [finished])
          returned_finished rfl rfl settled (by rw [units]) (protection faults)
    · exact stutters_of settled (orderly.samples_kernel uncalled samples stepped receives) (by rw [units])
        (unreceived receives) (protection faults)

/-- `nimble_queue_send_from_isr` on the sample queue. -/
theorem sends_view {sample : AdcSample} {system : System} (orderly : x.Orderly)
    (stepped : x.system.step (.isr (.queueSendFromIsr adcSampleQueue sample.bytes)) = some system)
    (snapshot : Option (PsStatus F)) :
    Demo.view { x with system } scaling snapshot = (x.view scaling snapshot).sendSample sample := by
  have silent : Silent (.semaphore faultSemaphore) (.isr (.queueSendFromIsr adcSampleQueue sample.bytes)) := by
    rintro _ ⟨⟩
    simp [IsrCall.object]
  obtain ⟨settled, unreceived, protection⟩ := orderly.kernel_still scaling (by simp) stepped (by rintro _ ⟨⟩)
  have control := unreceived (by rintro ⟨⟩)
  have units := orderly.units_kernel (by simp) silent stepped
  have length : (x.system.queues adcSampleQueue).items.length = (x.system.queues adcSampleQueue).count.toNat :=
    CircularBuffer.contents_length
  have capacity : (x.system.queues adcSampleQueue).capacity = 8 := orderly.fifo.shape.capacity
  rcases send_cases stepped with ⟨full, same⟩ | ⟨room, copied⟩
  · have full : ¬ (x.system.queues adcSampleQueue).items.length < adcQueueDepth := by
      have full := UInt32.le_iff_toNat_le.mp full
      rw [capacity] at full
      rw [length, adcQueueDepth]
      simpa using full
    simp only [App.sendSample, view, List.length_map, full, settled, control, protection silent, units, same,
      ↓reduceIte]
  · obtain ⟨_, _, items⟩ := orderly.fifo.formed.copyIn room copied
    have room : (x.system.queues adcSampleQueue).items.length < adcQueueDepth := by
      have room := UInt32.lt_iff_toNat_lt.mp room
      rw [capacity] at room
      rw [length, adcQueueDepth]
      simpa using room
    simp only [App.sendSample, view, List.length_map, room, settled, control, protection silent, units, items,
      List.map_append, List.map_cons, List.map_nil, ofBytes_bytes, ↓reduceIte]

theorem blocked_waits (blocked : x.protectionView = .blocked) :
    x.system.waitStatus protection = .waiting takeFaultCall := by
  unfold protectionView at blocked
  split at blocked
  · split at blocked
    · assumption
    · cases blocked
  · cases blocked
  · cases blocked
  · split at blocked <;> cases blocked
  · cases blocked

/-- ProtectionTask waits after its call only. -/
theorem waits_blocked (orderly : x.Orderly) (waiting : x.system.waitStatus protection = .waiting takeFaultCall) :
    x.place protection = .faultTaken ∧ x.protectionView = .blocked := by
  have engaged : (x.system.waitStatus protection).on (.semaphore faultSemaphore) ≠ .awake := by
    rw [waiting]
    decide
  have place := (orderly.takers _ engaged).2
  refine ⟨place, ?_⟩
  unfold protectionView
  simp only [place, waiting, ↓reduceIte]

/-- `nimble_semaphore_give_from_isr` on the fault semaphore. -/
theorem gives_view {system : System} (orderly : x.Orderly)
    (stepped : x.system.step (.isr (.semaphoreGiveFromIsr faultSemaphore)) = some system)
    (snapshot : Option (PsStatus F)) :
    Demo.view { x with system } scaling snapshot = (x.view scaling snapshot).giveFault := by
  have silent : Silent (.queue adcSampleQueue) (.isr (.semaphoreGiveFromIsr faultSemaphore)) := by
    rintro _ ⟨⟩
    simp [IsrCall.object]
  obtain ⟨settled, unreceived, _⟩ := orderly.kernel_still scaling (by simp) stepped (by rintro _ ⟨⟩)
  have control := unreceived (by rintro ⟨⟩)
  have samples := orderly.samples_kernel (by simp) silent stepped (by rintro ⟨⟩)
  have waiters : x.system.sched.events.items (.semaphore faultSemaphore) =
      if x.system.waitStatus protection = .waiting takeFaultCall then [protection] else [] := by
    refine items_of_sole orderly.linked rfl ?_
    intro u b waiting listed
    have about : b.object = some (.semaphore faultSemaphore) := BlockingCall.object_of_waitList listed
    have engaged : (x.system.waitStatus u).on (.semaphore faultSemaphore) ≠ .awake := by
      rw [waiting, WaitStatus.on, if_pos about]
      simp
    obtain ⟨rfl, place⟩ := orderly.takers u engaged
    refine ⟨rfl, ?_⟩
    cases orderly.taking place with
    | dozes dozes =>
      rcases dozes with same | woken
      · exact WaitStatus.waiting.inj (waiting.symm.trans same)
      · rw [waiting] at woken
        cases woken
    | answered thread => exact absurd thread (Dozes.busy (.inl waiting))
  rcases give_cases orderly.linked stepped with ⟨t, rest, shape, same, status⟩ | ⟨nobody, status, count⟩
  · have waits : x.system.waitStatus protection = .waiting takeFaultCall := by
      by_contra awake
      rw [waiters, if_neg awake] at shape
      cases shape
    rw [waiters, if_pos waits] at shape
    cases shape
    obtain ⟨place, blocked⟩ := orderly.waits_blocked waits
    have noting : Demo.protectionView { x with system } = .noting := by
      unfold protectionView
      simp only [place, status, waits]
      rfl
    simp only [App.giveFault, view, settled, control, samples, same, noting, blocked, ↓reduceIte]
  · have awake : x.system.waitStatus protection ≠ .waiting takeFaultCall := by
      intro waits
      rw [waiters, if_pos waits] at nobody
      cases nobody
    have unblocked : x.protectionView ≠ .blocked := fun sleeps => awake (blocked_waits sleeps)
    have protection : Demo.protectionView { x with system } = x.protectionView :=
      protectionView_congr rfl (fun _ => by rw [status])
        (inside_iff orderly.locked stepped rfl (by simp) (by rintro ⟨⟩))
    have max : (x.system.semaphores faultSemaphore).maxCount = 1 := orderly.units.units.max
    rw [max] at count
    simp only [App.giveFault, view, settled, control, samples, protection, unblocked, count, ↓reduceIte]
    by_cases room : (x.system.semaphores faultSemaphore).count < 1
    · simp only [room, ↓reduceIte]
    · simp only [room, ↓reduceIte]

end Orderly

/-- What a statement of `t` leaves to the others. -/
structure Spares (x z : Demo F) (t : TaskId) : Prop where
  place : ∀ u, u ≠ t → z.place u = x.place u
  cached : t ≠ control → z.localState = x.localState ∧ z.softStartStep = x.softStartStep
  out : ∀ u, u ≠ t → z.out u = x.out u
  status : ∀ u, u ≠ t → x.Inside u → z.status = x.status

/-- The others are where they were. -/
structure Bystands (scaling : Scaling F) (x z : Demo F) (t : TaskId) : Prop where
  inside : ∀ u, u ≠ t → (z.Inside u ↔ x.Inside u)
  control : t ≠ Port.control → z.controlView scaling = x.controlView scaling
  protection : t ≠ Port.protection → z.protectionView = x.protectionView

namespace Spares

theorem rests (spares : Spares x z t) (other : t ≠ control) : ControlRests x z :=
  ⟨spares.place _ (Ne.symm other), (spares.cached other).1, (spares.cached other).2, spares.out _ (Ne.symm other),
    spares.status _ (Ne.symm other)⟩

theorem called {c : Call} (scaling : Scaling F) (spares : Spares x z self) (orderly : x.Orderly)
    (running : x.system.running = some self)
    (faults : self ≠ protection → c.object ≠ some (.semaphore faultSemaphore))
    (stepped : x.system.step (.call c) = some z.system) : Bystands scaling x z self := by
  have others : ∀ u, u ≠ self → ∀ c', Event.call c = .call c' → x.system.running ≠ some u := by
    intro u other _ _ again
    exact other (Option.some.inj (again.symm.trans running))
  have unreturned : ∀ u b, ¬ Returns x.system u b (.call c) z.system := by
    rintro u b ⟨⟩
  refine ⟨?_, ?_, ?_⟩
  · exact fun u other => inside_iff orderly.locked stepped (spares.place u other) (others u other) (unreturned _ _)
  · intro other
    exact controlView_step orderly stepped (spares.rests other) (others _ (Ne.symm other)) (unreturned _ _)
      (unreturned _ _)
  · intro other
    have aside : Aside x.system z.system (.semaphore faultSemaphore) :=
      orderly.linked.step_aside stepped (by simp) (by simp) (by rintro _ ⟨⟩; exact faults other) (by simp)
    exact protectionView_step orderly stepped (spares.place _ (Ne.symm other)) (others _ (Ne.symm other))
      (unreturned _ _) (aside.waiting_iff rfl)

theorem uncalled (scaling : Scaling F) (spares : Spares x z self) (system : z.system = x.system) :
    Bystands scaling x z self := by
  have inside : ∀ u, u ≠ self → (z.Inside u ↔ x.Inside u) := by
    intro u other
    unfold Inside
    rw [spares.place u other, system]
  refine ⟨inside, ?_, ?_⟩
  · intro other
    have rests := spares.rests other
    exact controlView_congr rests.place rests.localState rests.softStartStep rests.out (fun _ => by rw [system])
      (fun _ => by rw [system]) (inside _ (Ne.symm other)) rests.status
  · intro other
    exact protectionView_congr (spares.place _ (Ne.symm other)) (fun _ => by rw [system]) (inside _ (Ne.symm other))

end Spares

namespace Orderly
variable {call : StatusCall F} {back : Place F} {system : System}

theorem locks_moves (orderly : x.Orderly) (running : x.system.running = some self)
    (here : x.place self = .lock call back)
    (stepped : x.system.step (.call (.blocking lockCall)) = some system)
    (after : Orderly { x with system, place := Function.update x.place self (.access call call.body back) }) :
    Moves scaling x { x with system, place := Function.update x.place self (.access call call.body back) } := by
  generalize outcome : { x with system, place := Function.update x.place self (.access call call.body back) } = z
    at after ⊢
  obtain ⟨stepped, place, status, out, localState, softStartStep⟩ :
      x.system.step (.call (.blocking lockCall)) = some z.system ∧
        z.place = Function.update x.place self (.access call call.body back) ∧ z.status = x.status ∧ z.out = x.out ∧
        z.localState = x.localState ∧ z.softStartStep = x.softStartStep := by
    subst outcome
    exact ⟨stepped, rfl, rfl, rfl, rfl, rfl⟩
  have moved : z.place self = .access call call.body back := by rw [place, Function.update_self]
  have outside : ¬ x.Inside self := by
    unfold Inside
    simp [here, Place.accessing]
  have spares : Spares x z self := by
    refine ⟨fun u other => by rw [place, Function.update_of_ne other], fun _ => ⟨localState, softStartStep⟩,
      fun _ _ => by rw [out], fun _ _ _ => status⟩
  have bystands : Bystands scaling x z self :=
    spares.called scaling orderly running (by simp [lockCall, Call.object, BlockingCall.object]) stepped
  have samples : z.system.queues adcSampleQueue = x.system.queues adcSampleQueue :=
    Aside.object (orderly.linked.step_aside (o := .queue adcSampleQueue) stepped (by simp) (by simp)
      (by simp [lockCall, Call.object, BlockingCall.object]) (by simp))
  have units : z.system.semaphores faultSemaphore = x.system.semaphores faultSemaphore :=
    Aside.object (orderly.linked.step_aside (o := .semaphore faultSemaphore) stepped (by simp) (by simp)
      (by simp [lockCall, Call.object, BlockingCall.object]) (by simp))
  by_cases acquired : z.system.pc self = .thread
  · have inside : z.Inside self := ⟨by rw [moved]; rfl, acquired⟩
    have acquires : Acquires scaling x z self call back := by
      refine ⟨?_, .inl here, moved, acquired, status, localState, softStartStep, samples, by rw [units],
        bystands.control, bystands.protection⟩
      intro u within
      by_cases mine : u = self
      · exact outside (mine ▸ within)
      · have both := after.locked.inside_owner ((bystands.inside u mine).mpr within)
        rw [after.locked.inside_owner inside] at both
        exact mine (Option.some.inj both).symm
    exact acquires.moves orderly after.locked
  · have asleep : ¬ z.Inside self := fun inside => acquired inside.2
    refine stutters_of (settled_congr orderly.locked after.locked ?_ ?_ status) samples (by rw [units]) ?_ ?_
    · intro u
      by_cases mine : u = self
      · subst mine
        exact iff_of_false asleep outside
      · exact bystands.inside u mine
    · intro u within
      exact spares.place u fun mine => outside (mine ▸ within)
    · by_cases mine : self = control
      · subst mine
        have same : z.controlBefore = x.controlBefore := by
          funext call
          cases call <;> simp [controlBefore, localState, softStartStep]
        unfold controlView
        simp only [here, moved, acquired, same, ↓reduceIte]
      · exact bystands.control mine
    · by_cases mine : self = protection
      · subst mine
        unfold protectionView
        simp only [here, moved, acquired, ↓reduceIte]
      · exact bystands.protection mine

theorem unlocks_moves (orderly : x.Orderly) (running : x.system.running = some self)
    (thread : x.system.pc self = .thread)
    (here : x.place self = .access call [] back)
    (stepped : x.system.step (.call (.mutexUnlock statusMutex)) = some system)
    (after : Orderly { x with system, place := Function.update x.place self (.leave call back) }) :
    Moves scaling x { x with system, place := Function.update x.place self (.leave call back) } := by
  have inside : x.Inside self := ⟨by rw [here]; rfl, thread⟩
  have spares : Spares x { x with system, place := Function.update x.place self (.leave call back) } self :=
    ⟨fun u other => Function.update_of_ne other _ _, fun _ => ⟨rfl, rfl⟩, fun _ _ => rfl, fun _ _ _ => rfl⟩
  have bystands := spares.called scaling orderly running (by simp [Call.object]) stepped
  have aside : ∀ o, o ≠ .mutex statusMutex → Aside x.system system o := by
    intro o other
    refine orderly.linked.step_aside stepped (by simp) (by simp) ?_ (by simp)
    rintro _ ⟨⟩ about
    exact other (Option.some.inj about).symm
  refine stutters_of ?_ (Aside.object (aside (.queue adcSampleQueue) (by simp)))
    (by rw [show system.semaphores faultSemaphore = _ from Aside.object (aside (.semaphore faultSemaphore) (by simp))])
    ?_ ?_
  · rw [settled_inside orderly.locked inside, here]
    refine settled_outside ?_
    intro u within
    by_cases mine : u = self
    · subst mine
      have apart := within.1
      simp [Place.accessing] at apart
    · have both := orderly.locked.inside_owner ((bystands.inside u mine).mp within)
      rw [orderly.locked.inside_owner inside] at both
      exact mine (Option.some.inj both).symm
  · by_cases mine : self = control
    · subst mine
      have reads : x.reads control = x.out control := by
        unfold Demo.reads
        rw [here]
        rfl
      unfold controlView
      simp only [here, thread, reads, Function.update_self, ↓reduceIte]
      cases call <;> rfl
    · exact bystands.control mine
  · by_cases mine : self = protection
    · subst mine
      unfold protectionView
      simp only [here, thread, Function.update_self, ↓reduceIte]
    · exact bystands.protection mine

theorem accesses_moves {access : Access F} {rest : List (Access F)} (orderly : x.Orderly)
    (thread : x.system.pc self = .thread) (here : x.place self = .access call (access :: rest) back)
    (system : z.system = x.system) (status : z.status = (access.perform x.status (x.out self)).1)
    (out : z.out = Function.update x.out self (access.perform x.status (x.out self)).2.1)
    (place : z.place = Function.update x.place self
      (.access call ((access.perform x.status (x.out self)).2.2 ++ rest) back))
    (localState : z.localState = x.localState) (softStartStep : z.softStartStep = x.softStartStep) (after : z.Orderly) :
    Moves scaling x z := by
  have inside : x.Inside self := ⟨by rw [here]; rfl, thread⟩
  have moved : z.place self = .access call ((access.perform x.status (x.out self)).2.2 ++ rest) back := by
    rw [place, Function.update_self]
  have thread' : z.system.pc self = .thread := by rw [system, thread]
  have inside' : z.Inside self := ⟨by rw [moved]; rfl, thread'⟩
  have spares : Spares x z self := by
    refine ⟨fun u other => by rw [place, Function.update_of_ne other], fun _ => ⟨localState, softStartStep⟩,
      fun u other => by rw [out, Function.update_of_ne other], ?_⟩
    intro u other within
    have both := orderly.locked.inside_owner within
    rw [orderly.locked.inside_owner inside] at both
    exact absurd (Option.some.inj both).symm other
  have bystands := spares.uncalled scaling system
  refine stutters_of ?_ (by rw [system]) (by rw [system]) ?_ ?_
  · rw [settled_inside orderly.locked inside, settled_inside after.locked inside', here, moved, status]
    simp only [Place.rest, List.foldl_append, complete_perform, List.foldl_cons]
  · by_cases mine : self = control
    · subst mine
      have code := orderly.locked.coded control
      rw [here] at code
      have same : z.controlAfter (z.reads control) call = x.controlAfter (x.reads control) call := by
        cases code with
        | control code =>
          cases code with
          | setMeasurement during | setState during =>
            cases during
            simp only [controlAfter, localState, softStartStep]
          | get during =>
            cases during with
            | access left =>
              have reads : z.reads control = x.reads control := by
                unfold Demo.reads
                rw [moved, here, out, status, Function.update_self]
                cases left
                rfl
              simp only [controlAfter, localState, softStartStep, reads]
      unfold controlView
      simp only [here, moved, thread, thread', same, ↓reduceIte]
    · exact bystands.control mine
  · by_cases mine : self = protection
    · subst mine
      unfold protectionView
      simp only [here, moved, thread, thread', ↓reduceIte]
    · exact bystands.protection mine

/-- A step of `self` outside the status functions leaves the status as it is. -/
theorem settled_aside (orderly : x.Orderly) (after : z.Orderly) (outside : (x.place self).accessing = false)
    (onward : (z.place self).accessing = false) (spares : Spares x z self) (bystands : Bystands scaling x z self)
    (status : z.status = x.status) : z.settled = x.settled := by
  refine settled_congr orderly.locked after.locked ?_ ?_ status
  · intro u
    by_cases mine : u = self
    · subst mine
      simp [Inside, outside, onward]
    · exact bystands.inside u mine
  · intro u within
    refine spares.place u ?_
    rintro rfl
    rw [within.1] at outside
    cases outside

theorem takes_moves (orderly : x.Orderly) (running : x.system.running = some protection)
    (thread : x.system.pc protection = .thread) (here : x.place protection = .takeFault)
    (stepped : x.system.step (.call (.blocking takeFaultCall)) = some system)
    (after : Orderly { x with system, place := Function.update x.place protection .faultTaken }) :
    Moves scaling x { x with system, place := Function.update x.place protection .faultTaken } := by
  have spares : Spares x { x with system, place := Function.update x.place protection .faultTaken } protection :=
    ⟨fun u other => Function.update_of_ne other _ _, fun _ => ⟨rfl, rfl⟩, fun _ _ => rfl, fun _ _ _ => rfl⟩
  have bystands := spares.called scaling orderly running (fun other => absurd rfl other) stepped
  have settled := settled_aside orderly after (by rw [here]; rfl) (by simp [Place.accessing]) spares bystands rfl
  have samples : system.queues adcSampleQueue = x.system.queues adcSampleQueue :=
    Aside.object (orderly.linked.step_aside (o := .queue adcSampleQueue) stepped (by simp) (by simp)
      (by simp [takeFaultCall, Call.object, BlockingCall.object]) (by simp))
  have control := bystands.control (by decide)
  have old : x.protectionView = .taking := by
    unfold protectionView
    rw [here]
  refine .steps .protection fun snapshot => ⟨snapshot, ?_⟩
  cases (takes_of_step orderly.linked running thread stepped).1 with
  | takes left lowered thread' =>
    have new : Demo.protectionView { x with system, place := Function.update x.place protection .faultTaken } =
        .noting := by
      have awake : system.waitStatus protection = .awake := Linked.status_running (by rw [thread']; rfl)
      unfold protectionView
      simp [awake]
    simp only [App.step, App.protectionStep, view, old, new, settled, samples, control, left, lowered, ↓reduceIte]
  | sleeps exhausted same waiting =>
    have new : Demo.protectionView { x with system, place := Function.update x.place protection .faultTaken } =
        .blocked := by
      unfold protectionView
      simp [waiting]
    simp only [App.step, App.protectionStep, view, old, new, settled, samples, control, exhausted, same, ↓reduceIte]

theorem receives_moves (orderly : x.Orderly) (running : x.system.running = some control)
    (thread : x.system.pc control = .thread) (here : x.place control = .receiveSample)
    (stepped : x.system.step (.call (.blocking receiveSampleCall)) = some system)
    (after : Orderly { x with system, place := Function.update x.place control .sampleReceived }) :
    Moves scaling x { x with system, place := Function.update x.place control .sampleReceived } := by
  have spares : Spares x { x with system, place := Function.update x.place control .sampleReceived } control :=
    ⟨fun u other => Function.update_of_ne other _ _, fun _ => ⟨rfl, rfl⟩, fun _ _ => rfl, fun _ _ _ => rfl⟩
  have bystands := spares.called scaling orderly running
    (by simp [receiveSampleCall, Call.object, BlockingCall.object]) stepped
  have settled := settled_aside orderly after (by rw [here]; rfl) (by simp [Place.accessing]) spares bystands rfl
  have units : system.semaphores faultSemaphore = x.system.semaphores faultSemaphore :=
    Aside.object (orderly.linked.step_aside (o := .semaphore faultSemaphore) stepped (by simp) (by simp)
      (by simp [receiveSampleCall, Call.object, BlockingCall.object]) (by simp))
  have protection := bystands.protection (by decide)
  have old : x.controlView scaling = ⟨.receiving, x.localState, x.softStartStep⟩ := by
    unfold controlView
    rw [here]
  have awake : x.system.waitStatus control = .awake := Linked.status_running (by rw [thread]; rfl)
  cases (receives_of_step orderly.linked running thread (orderly.samples.unsent orderly.linked awake) stepped).1 with
  | receives left copied _ thread' returned =>
    exact moves_receipt orderly old left copied (by simp) thread' returned rfl rfl settled (by rw [units]) protection
  | sleeps _ same _ waiting =>
    refine stutters_of settled same (by rw [units]) ?_ protection
    have busy : system.pc control ≠ .thread := Dozes.busy (.inl waiting)
    rw [old]
    unfold controlView
    simp only [Function.update_self, busy, ↓reduceIte]

theorem calls_moves {c : Call} {there : Place F} (orderly : x.Orderly) (running : x.system.running = some self)
    (outside : (x.place self).accessing = false) (other : self ≠ protection ∧ self ≠ control)
    (faults : c.object ≠ some (.semaphore faultSemaphore)) (samples : c.object ≠ some (.queue adcSampleQueue))
    (onward : there.accessing = false) (stepped : x.system.step (.call c) = some system)
    (after : Orderly { x with system, place := Function.update x.place self there }) :
    Moves scaling x { x with system, place := Function.update x.place self there } := by
  have spares : Spares x { x with system, place := Function.update x.place self there } self :=
    ⟨fun u other => Function.update_of_ne other _ _, fun _ => ⟨rfl, rfl⟩, fun _ _ => rfl, fun _ _ _ => rfl⟩
  have bystands := spares.called scaling orderly running (fun _ => faults) stepped
  have settled := settled_aside orderly after outside (by simpa using onward) spares bystands rfl
  have samples : system.queues adcSampleQueue = x.system.queues adcSampleQueue :=
    Aside.object (orderly.linked.step_aside (o := .queue adcSampleQueue) stepped (by simp) (by simp)
      (by rintro _ ⟨⟩; exact samples) (by simp))
  have units : system.semaphores faultSemaphore = x.system.semaphores faultSemaphore :=
    Aside.object (orderly.linked.step_aside (o := .semaphore faultSemaphore) stepped (by simp) (by simp)
      (by rintro _ ⟨⟩; exact faults) (by simp))
  exact stutters_of settled samples (by rw [units]) (bystands.control other.2) (bystands.protection other.1)

/-- ControlTask moves on. -/
theorem control_goes {there : Place F} (orderly : x.Orderly) (thread : x.system.pc control = .thread)
    (goes : Goes x control there z) (ran : x.statement control scaling = some z) :
    z.controlView scaling = x.controlView scaling ∨
      (x.controlView scaling).pc = .deciding ∧ z.controlView scaling = (x.controlView scaling).runSwitch := by
  have code := orderly.locked.coded control
  have moved : z.place control = there := by rw [goes.place, Function.update_self]
  have outside := goes.outside
  obtain ⟨onward, early⟩ := goes.onward
  generalize here : x.place control = p at code outside
  cases code with
  | control code =>
    cases code with
    | receiveSample =>
      simp only [statement, here] at ran
      obtain ⟨system, _, rfl⟩ := Option.map_eq_some_iff.mp ran
      rw [← moved] at early
      simp [Place.returning] at early
    | sampleReceived =>
      left
      cases orderly.receiving here with
      | dozes dozes => exact absurd thread dozes.busy
      | answered _ returned =>
        have succeeded : x.succeeded control = true := by simp [Demo.succeeded, returned]
        simp only [statement, here, succeeded, ↓reduceIte, Option.some.injEq] at ran
        subst ran
        unfold controlView
        simp only [here, thread, goTo, Function.update_self, ↓reduceIte]
        rfl
    | runStateMachine =>
      right
      simp only [statement, here, Option.some.injEq] at ran
      subst ran
      have old : x.controlView scaling = ⟨.deciding, x.localState, x.softStartStep⟩ := by
        unfold controlView
        rw [here]
      refine ⟨by rw [old], ?_⟩
      have cases := Control.runSwitch_cases (⟨.deciding, x.localState, x.softStartStep⟩ : Control F)
      rw [old]
      unfold Demo.runStateMachine
      generalize (⟨.deciding, x.localState, x.softStartStep⟩ : Control F).runSwitch = switched at cases
      obtain ⟨pc, localState, softStartStep⟩ := switched
      obtain rfl | rfl : pc = .publishing ∨ pc = .resyncing := cases.imp (fun set => set.2.1) (fun set => set.2)
      · simp [controlView, goTo, controlBefore]
      · simp [controlView, goTo, controlBefore]
    | resynced =>
      left
      simp only [statement, here, Option.some.injEq] at ran
      subst ran
      unfold controlView
      simp only [here, goTo, Function.update_self]
      rfl
    | setMeasurement during | setState during | get during =>
      cases during with
      | lock =>
        simp only [statement, here] at ran
        obtain ⟨system, _, rfl⟩ := Option.map_eq_some_iff.mp ran
        rw [← moved] at onward
        simp [Place.accessing] at onward
      | access => cases outside
      | leave =>
        left
        simp only [statement, here, Option.some.injEq] at ran
        subst ran
        unfold controlView
        simp only [here, goTo, Function.update_self]
        rfl
  | idling => simp [statement, here] at ran

/-- ProtectionTask moves on. -/
theorem protection_goes {there : Place F} (orderly : x.Orderly) (thread : x.system.pc protection = .thread)
    (goes : Goes x protection there z) (ran : x.statement protection scaling = some z) :
    z.protectionView = x.protectionView := by
  have code := orderly.locked.coded protection
  have moved : z.place protection = there := by rw [goes.place, Function.update_self]
  have outside := goes.outside
  obtain ⟨onward, early⟩ := goes.onward
  generalize here : x.place protection = p at code outside
  cases code with
  | protection code =>
    cases code with
    | takeFault =>
      simp only [statement, here] at ran
      obtain ⟨system, _, rfl⟩ := Option.map_eq_some_iff.mp ran
      rw [← moved] at early
      simp [Place.returning] at early
    | faultTaken =>
      cases orderly.taking here with
      | dozes dozes => exact absurd thread dozes.busy
      | answered _ returned =>
        have succeeded : x.succeeded protection = true := by simp [Demo.succeeded, returned]
        have awake : x.system.waitStatus protection = .awake := Linked.status_running (by rw [thread]; rfl)
        simp only [statement, here, succeeded, ↓reduceIte, Option.some.injEq] at ran
        subst ran
        unfold protectionView
        simp [here, awake, goTo]
    | disableOutput =>
      simp only [statement, here, Option.some.injEq] at ran
      subst ran
      unfold protectionView
      simp only [here, goTo, Function.update_self]
    | noteFault during =>
      cases during with
      | lock =>
        simp only [statement, here] at ran
        obtain ⟨system, _, rfl⟩ := Option.map_eq_some_iff.mp ran
        rw [← moved] at onward
        simp [Place.accessing] at onward
      | access => cases outside
      | leave =>
        simp only [statement, here, Option.some.injEq] at ran
        subst ran
        unfold protectionView
        simp only [here, goTo, Function.update_self]
  | idling => simp [statement, here] at ran

theorem goes_moves {there : Place F} (orderly : x.Orderly) (thread : x.system.pc self = .thread)
    (goes : Goes x self there z) (ran : x.statement self scaling = some z) (after : z.Orderly) : Moves scaling x z := by
  have spares : Spares x z self :=
    ⟨fun u other => by rw [goes.place, Function.update_of_ne other], goes.cached, fun _ _ => by rw [goes.out],
      fun _ _ _ => goes.status⟩
  have bystands := spares.uncalled scaling goes.system
  have onward : (z.place self).accessing = false := by
    rw [goes.place, Function.update_self]
    exact goes.onward.1
  have settled := settled_aside orderly after goes.outside onward spares bystands goes.status
  have protection : z.protectionView = x.protectionView := by
    by_cases mine : self = Port.protection
    · subst mine
      exact protection_goes orderly thread goes ran
    · exact bystands.protection mine
  have control : z.controlView scaling = x.controlView scaling ∨
      (x.controlView scaling).pc = .deciding ∧ z.controlView scaling = (x.controlView scaling).runSwitch := by
    by_cases mine : self = Port.control
    · subst mine
      exact control_goes orderly thread goes ran
    · exact .inl (bystands.control mine)
  rcases control with same | ⟨deciding, switched⟩
  · exact stutters_of settled (by rw [goes.system]) (by rw [goes.system]) same protection
  · refine .steps .control fun snapshot => ⟨snapshot, ?_⟩
    simp only [App.step, App.controlStep, view, deciding, switched, settled, goes.system, protection]

/-- A statement of a task is at most one step of the application. -/
theorem statement_moves (orderly : x.Orderly) (running : x.system.running = some self)
    (thread : x.system.pc self = .thread) (ran : x.statement self scaling = some z) : Moves scaling x z := by
  have after := orderly.does (.states running thread ran)
  cases (acts_of_statement (orderly.locked.coded self) ran).1 with
  | locks here stepped => exact orderly.locks_moves running here stepped after
  | unlocks here stepped => exact orderly.unlocks_moves running thread here stepped after
  | accesses here => exact orderly.accesses_moves thread here rfl rfl rfl rfl rfl rfl after
  | takes here stepped =>
    obtain rfl := orderly.owner here rfl
    exact orderly.takes_moves running thread here stepped after
  | receives here stepped =>
    obtain rfl := orderly.owner here rfl
    exact orderly.receives_moves running thread here stepped after
  | receivesByte here stepped =>
    obtain rfl := orderly.owner here rfl
    exact orderly.calls_moves running (by rw [here]; rfl) (by decide)
      (by simp [receiveByteCall, Call.object, BlockingCall.object]) (by decide) rfl stepped after
  | calls outside other apart stepped onward =>
    exact orderly.calls_moves running outside other apart.faults apart.samples (Place.plain_iff.mp onward).1 stepped
      after
  | goes goes => exact orderly.goes_moves thread goes ran after

/-- A step of the kernel that the application does not see. -/
theorem kernel_same {event : Event} {system : System} (orderly : x.Orderly) (uncalled : ∀ c, event ≠ .call c)
    (waits : event ≠ .proceed) (faults : Silent (.semaphore faultSemaphore) event)
    (samples : Silent (.queue adcSampleQueue) event) (stepped : x.system.step event = some system)
    (snapshot : Option (PsStatus F)) : Demo.view { x with system } scaling snapshot = x.view scaling snapshot := by
  have unreturned : ∀ t b, ¬ Returns x.system t b event system := by
    rintro t b ⟨⟩
    exact waits rfl
  obtain ⟨settled, unreceived, protection⟩ :=
    orderly.kernel_still scaling uncalled stepped (fun t => unreturned t _)
  simp only [view, settled, unreceived (unreturned _ _), protection faults,
    orderly.units_kernel uncalled faults stepped, orderly.samples_kernel uncalled samples stepped (unreturned _ _)]

/-- The request at the end of a handler. -/
theorem yields_view {needsYield : Bool} (orderly : x.Orderly) (ran : x.yieldFromIsr needsYield = some z)
    (snapshot : Option (PsStatus F)) : z.view scaling snapshot = x.view scaling snapshot := by
  unfold yieldFromIsr at ran
  split at ran
  · obtain ⟨system, stepped, rfl⟩ := Option.map_eq_some_iff.mp ran
    exact orderly.kernel_same (by simp) (by simp) (by rintro _ ⟨⟩) (by rintro _ ⟨⟩) stepped snapshot
  · cases ran
    rfl

/-- `ADC_IRQHandler` is one step. -/
theorem adc_view {dataRegister : UInt32} (orderly : x.Orderly) (ran : x.adcIrqHandler scaling dataRegister = some z)
    (snapshot : Option (PsStatus F)) :
    z.view scaling snapshot = (x.view scaling snapshot).adcIrqHandler scaling dataRegister := by
  simp only [Demo.adcIrqHandler, Option.bind_eq_bind, Option.bind_eq_some_iff, Prod.exists] at ran
  obtain ⟨w, sent, _, y, signalled, yields⟩ := ran
  obtain ⟨system, stepped, rfl⟩ := Option.map_eq_some_iff.mp sent
  have queued : Demo.view { x with system } scaling snapshot = _ := orderly.sends_view stepped snapshot
  have sampled : Does scaling { x with system } _ := .samples (.read dataRegister)
  have orderly := (orderly.kernel (by simp) stepped).does sampled
  show z.view scaling snapshot = if scaling.exceeds (.read dataRegister) then
    ((x.view scaling snapshot).sendSample (.read dataRegister)).giveFault
    else (x.view scaling snapshot).sendSample (.read dataRegister)
  rw [← queued]
  unfold signalFault at signalled
  by_cases exceeds : scaling.exceeds (.read dataRegister) = true
  · rw [if_pos exceeds] at signalled
    obtain ⟨_, gave, same⟩ := Option.map_eq_some_iff.mp signalled
    cases same
    obtain ⟨system', stepped', rfl⟩ := Option.map_eq_some_iff.mp gave
    rw [if_pos exceeds, (orderly.kernel (by simp) stepped').yields_view yields snapshot]
    exact orderly.gives_view stepped' snapshot
  · rw [if_neg exceeds] at signalled
    cases signalled
    rw [if_neg exceeds]
    exact orderly.yields_view yields snapshot

/-- Every step of the demo is at most one step of the application. -/
theorem step_moves {event : DemoEvent} (orderly : x.Orderly) (stepped : x.step scaling event = some z) :
    Moves scaling x z := by
  have still : ∀ {event : Event} {w : Demo F}, w.Orderly → (∀ c, event ≠ .call c) → event ≠ .proceed →
      (∀ c, event ≠ .isr c) → w.kernel event = some z →
      ∀ snapshot, z.view scaling snapshot = w.view scaling snapshot := by
    intro event w orderly uncalled waits quiet ran
    obtain ⟨system, made, rfl⟩ := Option.map_eq_some_iff.mp ran
    exact orderly.kernel_same uncalled waits (fun c origin => absurd origin (quiet c))
      (fun c origin => absurd origin (quiet c)) made
  cases event with
  | main =>
    simp only [Demo.step, mainStep] at stepped
    split at stepped
    · exact .stutters (still orderly (by simp) (by simp) (by simp) stepped)
    · rename_i todo _
      have creates : Does scaling x { x with todo } := .creates todo
      have created := orderly.does creates
      have same := still created (by simp) (by simp) (by simp) stepped
      exact .stutters same
  | adc dataRegister =>
    refine .steps (.adc dataRegister) fun snapshot => ⟨snapshot, ?_⟩
    rw [orderly.adc_view stepped]
    rfl
  | usart byte =>
    simp only [Demo.step, usart1IrqHandler] at stepped
    split at stepped
    · obtain ⟨w, sent, yields⟩ := Option.bind_eq_some_iff.mp stepped
      obtain ⟨system, made, rfl⟩ := Option.map_eq_some_iff.mp sent
      have after := orderly.kernel (by simp) made
      refine .stutters fun snapshot => (after.yields_view yields snapshot).trans ?_
      refine orderly.kernel_same (by simp) (by simp) ?_ ?_ made snapshot
      · rintro _ ⟨⟩
        simp [IsrCall.object]
      · rintro _ ⟨⟩
        simp [IsrCall.object, uartRxQueue, adcSampleQueue]
    · cases stepped
      exact .stutters fun _ => rfl
  | sysTick | pendSV | dispatch => exact .stutters (still orderly (by simp) (by simp) (by simp) stepped)
  | task =>
    simp only [Demo.step, task, Option.bind_eq_bind, Option.bind_eq_some_iff] at stepped
    obtain ⟨self, running, ran⟩ := stepped
    split at ran
    · exact orderly.statement_moves running ‹_› ran
    · obtain ⟨system, made, rfl⟩ := Option.map_eq_some_iff.mp ran
      exact orderly.kernel_moves (by simp) (by rintro _ ⟨⟩) (by rintro _ ⟨⟩) made

end Orderly

/-! ## Runs -/

private theorem out_kernel {event : Event} (ran : x.kernel event = some z) : z.out = x.out := by
  obtain ⟨system, _, rfl⟩ := Option.map_eq_some_iff.mp ran
  rfl

private theorem out_yields {needsYield : Bool} (ran : x.yieldFromIsr needsYield = some z) : z.out = x.out := by
  unfold yieldFromIsr at ran
  split at ran
  · exact out_kernel ran
  · cases ran
    rfl

/-- A read copies the status whole, while it has the mutex. -/
theorem Orderly.reads_settled {access : Access F} {rest : List (Access F)} {call : StatusCall F} {back : Place F}
    (orderly : x.Orderly) (thread : x.system.pc self = .thread)
    (here : x.place self = .access call (access :: rest) back) :
    (access.perform x.status (x.out self)).2.1 = x.out self ∨
      (access.perform x.status (x.out self)).2.1 = x.settled := by
  have settled := settled_inside orderly.locked (t := self) ⟨by rw [here]; rfl, thread⟩
  rw [here] at settled
  cases access with
  | copyOut =>
    right
    have code := orderly.locked.coded self
    rw [here] at code
    have last : rest = [] := by
      generalize shape : Access.copyOut :: rest = accesses at code
      cases code.left with
      | all =>
        cases call <;> cases shape
        rfl
      | _ => cases shape
    rw [settled, last]
    rfl
  | _ => exact .inl rfl

/-- What the tasks have read was the status at some time. -/
theorem out_of_step {event : DemoEvent} (orderly : x.Orderly) (stepped : x.step scaling event = some z) (t : TaskId) :
    z.out t = x.out t ∨ z.out t = x.settled := by
  cases event with
  | main =>
    left
    simp only [Demo.step, mainStep] at stepped
    split at stepped <;> rw [out_kernel stepped]
  | adc dataRegister =>
    left
    simp only [Demo.step, Demo.adcIrqHandler, Option.bind_eq_bind, Option.bind_eq_some_iff, Prod.exists] at stepped
    obtain ⟨w, sent, _, y, signalled, yields⟩ := stepped
    have given : y.out = w.out := by
      unfold signalFault at signalled
      split at signalled
      · obtain ⟨_, gave, same⟩ := Option.map_eq_some_iff.mp signalled
        cases same
        rw [out_kernel gave]
      · cases signalled
        rfl
    rw [out_yields yields, given, out_kernel sent]
  | usart byte =>
    left
    simp only [Demo.step, usart1IrqHandler] at stepped
    split at stepped
    · obtain ⟨w, sent, yields⟩ := Option.bind_eq_some_iff.mp stepped
      rw [out_yields yields, out_kernel sent]
    · cases stepped
      rfl
  | sysTick | pendSV | dispatch => exact .inl (by rw [out_kernel stepped])
  | task =>
    simp only [Demo.step, task, Option.bind_eq_bind, Option.bind_eq_some_iff] at stepped
    obtain ⟨self, running, ran⟩ := stepped
    split at ran
    · rename_i thread
      cases (acts_of_statement (orderly.locked.coded self) ran).1 with
      | locks | unlocks | takes | receives | receivesByte | calls => exact .inl rfl
      | goes goes => exact .inl (by rw [goes.out])
      | accesses here =>
        dsimp only
        by_cases mine : t = self
        · subst mine
          rw [Function.update_self]
          exact orderly.reads_settled thread here
        · exact .inl (Function.update_of_ne mine _ _)
    · exact .inl (by rw [out_kernel ran])

/-- A run of the demo is one of the application, and whatever a task has read
was the application's status at some point of it. -/
structure Refined (scaling : Scaling F) (guard : App F → AppEvent → Prop) (x : Demo F)
    (snapshot : Option (PsStatus F)) : Prop where
  run : AppRun scaling guard (sharedInit scaling) (x.view scaling snapshot)
  reads : ∀ t, ∃ y, AppRun scaling guard (sharedInit scaling) y ∧ AppRun scaling guard y (x.view scaling snapshot) ∧
    x.out t = y.status

section
variable {guard : App F → AppEvent → Prop} {snapshot : Option (PsStatus F)} {event : DemoEvent}

theorem Orderly.step (orderly : x.Orderly) (stepped : x.step scaling event = some z) : z.Orderly := by
  have does := does_of_step stepped
  clear stepped
  induction does with
  | refl => exact orderly
  | tail _ last ih => exact ih.does last

/-- The application goes on, or stays. -/
theorem Orderly.onward (orderly : x.Orderly) (stepped : x.step scaling event = some z)
    (meets : ∀ appEvent snapshot', App.step scaling (x.view scaling snapshot) appEvent =
      some (z.view scaling snapshot') → guard (x.view scaling snapshot) appEvent) :
    ∃ snapshot', AppRun scaling guard (x.view scaling snapshot) (z.view scaling snapshot') := by
  cases orderly.step_moves stepped with
  | stutters same =>
    refine ⟨snapshot, ?_⟩
    rw [same]
    exact .refl
  | steps appEvent stepped =>
    obtain ⟨snapshot', stepped⟩ := stepped snapshot
    exact ⟨snapshot', .next .refl (meets appEvent snapshot' stepped) stepped⟩

theorem Refined.step (refined : Refined scaling guard x snapshot) (orderly : x.Orderly)
    (stepped : x.step scaling event = some z)
    (meets : ∀ appEvent snapshot', App.step scaling (x.view scaling snapshot) appEvent =
      some (z.view scaling snapshot') → guard (x.view scaling snapshot) appEvent) :
    ∃ snapshot', Refined scaling guard z snapshot' := by
  obtain ⟨snapshot', onward⟩ := orderly.onward stepped meets
  refine ⟨snapshot', refined.run.trans onward, ?_⟩
  intro t
  rcases out_of_step orderly stepped t with same | settled
  · obtain ⟨y, before, after, read⟩ := refined.reads t
    exact ⟨y, before, after.trans onward, same.trans read⟩
  · exact ⟨_, refined.run, onward, settled⟩

end

theorem refined_of_run {place : Placement} {guard : Demo F → DemoEvent → Prop}
    {appGuard : App F → AppEvent → Prop}
    (meets : ∀ x event z snapshot appEvent snapshot', guard x event → x.step scaling event = some z →
      App.step scaling (x.view scaling snapshot) appEvent = some (z.view scaling snapshot') →
      appGuard (x.view scaling snapshot) appEvent)
    (run : DemoRun scaling place guard x) : ∃ snapshot, Refined scaling appGuard x snapshot := by
  have strong := run.strengthen fun _ => orderly_of_run
  refine strong.invariant (fun x => ∃ snapshot, Refined scaling appGuard x snapshot) ⟨none, .refl, ?_⟩ ?_
  · exact fun t => ⟨sharedInit scaling, .refl, .refl, rfl⟩
  · rintro x event z ⟨snapshot, refined⟩ ⟨guarded, orderly⟩ stepped
    exact refined.step orderly stepped fun appEvent snapshot' =>
      meets x event z snapshot appEvent snapshot' guarded stepped

/-- The demo on the kernel does nothing that its application does not, whatever
the samples, the bytes received and the order in which ready tasks run: its
status is one that whole calls of the status functions lead to, and no task
reads another. What it does next is at most one step of the application. -/
theorem demo_refines_app {place : Placement} {guard : Demo F → DemoEvent → Prop}
    (run : DemoRun scaling place guard x) :
    (∃ snapshot, Refined scaling Free x snapshot) ∧
      ∀ event z, x.step scaling event = some z → Moves scaling x z := by
  constructor
  · exact refined_of_run (fun _ _ _ _ _ _ _ _ _ => trivial) run
  · intro event z stepped
    exact (orderly_of_run run).step_moves stepped

set_option maxRecDepth 20000 in
theorem threeFaults_refined : ∃ x snapshot, DemoRun rawLimit onBoard Free x ∧ x.settled = ⟨.fault, 0, 0, 2⟩ ∧
    Refined rawLimit Free x snapshot := by
  obtain ⟨x, run, reached⟩ : ∃ x, DemoRun rawLimit onBoard Free x ∧
      decide (x.settled = ⟨.fault, 0, 0, 2⟩) = true :=
    reaches_of_exec threeFaults _ (by decide +kernel)
  obtain ⟨⟨snapshot, refined⟩, _⟩ := demo_refines_app run
  exact ⟨x, snapshot, run, of_decide_eq_true reached, refined⟩

/-! ## FAULT stays -/

/-- A fault note gets the mutex while ControlTask has a publication due. -/
def notesTooEarly (scaling : Scaling F) (x : Demo F) (event : DemoEvent) : Bool :=
  match x.step scaling event with
  | some z => x.protectionView = .noting && z.protectionView = .taking && (x.controlView scaling).publicationDue
  | none => false

abbrev Timely (scaling : Scaling F) (x : Demo F) (event : DemoEvent) : Prop := notesTooEarly scaling x event = false

/-- A timely step is a timely step of the application. -/
private theorem timely_app {event : DemoEvent} {appEvent : AppEvent} {snapshot snapshot' : Option (PsStatus F)}
    (timely : Timely scaling x event) (stepped : x.step scaling event = some z)
    (matched : App.step scaling (x.view scaling snapshot) appEvent = some (z.view scaling snapshot')) :
    App.Timely (x.view scaling snapshot) appEvent := by
  unfold App.Timely App.notesTooEarly
  split
  · by_cases noting : x.protectionView = .noting
    · have taking : z.protectionView = .taking := by
        simp only [App.step, App.protectionStep, view, noting, Option.some.injEq, App.mk.injEq] at matched
        exact matched.2.2.2.2.1.symm
      simpa [Timely, notesTooEarly, stepped, noting, taking, view] using timely
    · simp [view, noting]
  · rfl

/-- As long as no fault note gets the mutex while a publication is due, a noted
FAULT is there to stay, on the kernel as in the application's model. -/
theorem fault_stays {place : Placement} (run : DemoRun scaling place (Timely scaling) x)
    (later : Run (Demo.step scaling) (Timely scaling) x z) (fault : x.settled.state = .fault) :
    z.settled.state = .fault ∧ ((∀ t, ¬ z.Inside t) → z.status.state = .fault) := by
  obtain ⟨snapshot, refined⟩ := refined_of_run (fun _ _ _ _ _ _ => timely_app) run
  have onward : z.Orderly ∧ ∃ snapshot',
      AppRun scaling App.Timely (x.view scaling snapshot) (z.view scaling snapshot') := by
    refine later.invariant (fun z => z.Orderly ∧ ∃ snapshot', AppRun scaling App.Timely (x.view scaling snapshot)
      (z.view scaling snapshot')) ⟨orderly_of_run run, snapshot, .refl⟩ ?_
    rintro y event z ⟨orderly, middle, before⟩ timely stepped
    obtain ⟨after, onward⟩ := orderly.onward stepped fun _ _ => timely_app timely stepped
    exact ⟨orderly.step stepped, after, before.trans onward⟩
  obtain ⟨_, snapshot', onward⟩ := onward
  have stays : z.settled.state = .fault := (App.Latched.run onward (App.latched_of_run refined.run)).2 fault
  refine ⟨stays, ?_⟩
  intro nobody
  rw [← settled_outside nobody]
  exact stays

/-- A sample in range is controlled with, then one over the limit comes, and
ProtectionTask gets the mutex for its note. -/
def secondOver : List DemoEvent :=
  let tasks (n : Nat) := List.replicate n DemoEvent.task
  List.replicate 6 .main ++ tasks 2 ++ [.pendSV] ++ tasks 2 ++ [.pendSV] ++ tasks 3 ++ [.pendSV] ++ tasks 3 ++
    [.pendSV] ++ tasks 7 ++ [.pendSV, .adc 5, .pendSV] ++ tasks 19 ++ [.pendSV, .adc 4000, .pendSV] ++ tasks 4

/-- ProtectionTask makes its note, and ControlTask goes on with the sample. -/
def notedAndRead : List DemoEvent :=
  List.replicate 7 .task ++ [.pendSV] ++ List.replicate 14 .task

set_option maxRecDepth 20000 in
theorem secondOver_stays : ∃ x z, DemoRun rawLimit onBoard (Timely rawLimit) x ∧
    Run (Demo.step rawLimit) (Timely rawLimit) x z ∧ (z.out control).voltageMv = 4000 ∧
    z.settled.state = .fault := by
  obtain ⟨x, run, reached⟩ : ∃ x, DemoRun rawLimit onBoard (Timely rawLimit) x ∧
      (decide (x.settled.state = .fault) && ((exec (Demo.step rawLimit) (Timely rawLimit) x notedAndRead).map
        fun z => decide ((z.out control).voltageMv = 4000)) = some true) = true :=
    reaches_of_exec secondOver _ (by decide +kernel)
  obtain ⟨fault, ran⟩ := Bool.and_eq_true_iff.mp reached
  obtain ⟨z, later, read⟩ := reaches_of_exec notedAndRead _ (of_decide_eq_true ran)
  exact ⟨x, z, run, later, of_decide_eq_true read, (fault_stays run later (of_decide_eq_true fault)).1⟩

end Demo
end PowerSupply
end NimbleRtos
