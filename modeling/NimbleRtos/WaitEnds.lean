import NimbleRtos.Objects

/-! How a blocking wait ends. The log tells each task's last wait: the call,
the ticks since it blocked, every wake-up with the ticks that had passed, and
what the call returned. A wait is woken once, by a signal on its list before
its time or by the tick at its time, and the call reports which. -/
namespace NimbleRtos
open NodeRings Sched SerialTime NimbleRtos.System

structure Wait where
  call : BlockingCall
  elapsed : Nat
  wakes : List (Waker × Nat)
  result : Option Status

/-- What entry `e` adds to the account of `t`'s last wait. Only the first
return after the wake-up belongs to it. -/
def Entry.account (t : TaskId) (e : Entry) (w : Option Wait) : Option Wait :=
  match e with
  | .blocked u b => if u = t then some ⟨b, 0, [], none⟩ else w
  | .ticked => w.map fun w => { w with elapsed := w.elapsed + 1 }
  | .woken u waker =>
    if u = t then w.map fun w => { w with wakes := (waker, w.elapsed) :: w.wakes } else w
  | .returned u (.blocking _) st _ =>
    if u = t then w.map fun w => { w with result := w.result.or (some st) } else w
  | _ => w

/-- The last wait of `t` the log tells of. -/
def lastWait (t : TaskId) (log : List Entry) : Option Wait := log.foldr (Entry.account t) none

theorem lastWait_append (t : TaskId) (entries log : List Entry) :
    lastWait t (entries ++ log) = entries.foldr (Entry.account t) (lastWait t log) :=
  List.foldr_append

/-- A wait in `b` was ended by `waker` after `elapsed` ticks, with `result`
left for the call to read: by a signal on the list it was on, before its time
was up, or by the tick at which its time was up. -/
inductive EndedBy (b : BlockingCall) : Waker → Nat → Status → Prop where
  | signal {h : WaitList} {elapsed : Nat} (listed : b.waitList = some h)
      (early : b.ticks.toNat < 2 ^ 31 → elapsed < b.ticks.toNat) :
      EndedBy b (.signal h) elapsed .ok
  | tick {elapsed : Nat} (timed : b.timed = true)
      (onTime : b.ticks.toNat < 2 ^ 31 → elapsed = b.ticks.toNat) :
      EndedBy b .tick elapsed .timeout

/-- The calls that return what `last_wait_result` says of a timeout. -/
def BlockingCall.reads : BlockingCall → Bool
  | .semaphoreTake _ _ => true
  | .queueSend _ _ _ => true
  | .queueReceive _ _ => true
  | _ => false

/-- A wait that is over: woken once, and reported as it was woken. -/
structure Wait.Closed (w : Wait) : Prop where
  once : ∃ waker elapsed result, w.wakes = [(waker, elapsed)] ∧ EndedBy w.call waker elapsed result
  reported : ∃ st, w.result = some st ∧
    (w.call.reads = true → (st = .timeout ↔ ∃ elapsed, w.wakes = [(.tick, elapsed)]))

/-- The account of a task's last wait fits where the task is in it. -/
def Story (now wakeTick : Tick) (status : WaitStatus) (w : Option Wait) : Prop :=
  match status with
  | .awake => ∀ v, w = some v → v.Closed
  | .waiting b => b.ticks ≠ 0 ∧ ∃ elapsed, w = some ⟨b, elapsed, [], none⟩ ∧
      (b.timed = true → (∃ start, now = start + UInt32.ofNat elapsed ∧ wakeTick = start + b.ticks) ∧
        (b.ticks.toNat < 2 ^ 31 → elapsed < b.ticks.toNat))
  | .woken b result => ∃ elapsed waker k, w = some ⟨b, elapsed, [(waker, k)], none⟩ ∧
      EndedBy b waker k result

/-- Every task's last wait is accounted for. -/
def Accounted (y : System) : Prop :=
  ∀ t, Story y.sched.tickCount (y.sched.tcb t).wakeTick (y.waitStatus t) (lastWait t y.log)

namespace Story
variable {now wakeTick wakeTick' : Tick} {b : BlockingCall} {w : Option Wait} {status : WaitStatus}

/-- Less than half the range is a bounded wait. -/
theorem timed_of_small (small : b.ticks.toNat < 2 ^ 31) : b.timed = true := by
  have finite : b.ticks ≠ waitForever := by
    intro forever
    rw [forever] at small
    exact absurd small (by decide)
  cases b <;> first | rfl | simpa [BlockingCall.timed] using finite

theorem fall_asleep (positive : b.ticks ≠ 0) (deadline : b.timed = true → wakeTick = now + b.ticks) :
    Story now wakeTick (.waiting b) (some ⟨b, 0, [], none⟩) := by
  refine ⟨positive, 0, rfl, fun timed => ⟨⟨now, by simp, deadline timed⟩, fun _ => ?_⟩⟩
  rw [Nat.pos_iff_ne_zero, Ne, ← UInt32.toNat_zero, UInt32.toNat_inj]
  exact positive

/-- A signal on the list of the call ends the wait. -/
theorem signal (story : Story now wakeTick (.waiting b) w) {h : WaitList}
    (listed : b.waitList = some h) :
    Story now wakeTick' (.woken b .ok)
      (w.map fun w => { w with wakes := (.signal h, w.elapsed) :: w.wakes }) := by
  obtain ⟨_, elapsed, rfl, due⟩ := story
  exact ⟨elapsed, .signal h, elapsed, rfl,
    .signal listed fun small => (due (timed_of_small small)).2 small⟩

/-- The tick that is due ends the wait. -/
theorem expire (story : Story now wakeTick (.waiting b) w) (timed : b.timed = true)
    (due : reached (now + 1) wakeTick = true) :
    Story (now + 1) wakeTick' (.woken b .timeout)
      ((w.map fun w => { w with elapsed := w.elapsed + 1 }).map fun w =>
        { w with wakes := (.tick, w.elapsed) :: w.wakes }) := by
  obtain ⟨_, elapsed, rfl, bounded⟩ := story
  obtain ⟨⟨start, rfl, rfl⟩, early⟩ := bounded timed
  refine ⟨elapsed + 1, .tick, elapsed + 1, rfl, .tick timed ?_⟩
  intro small
  have within : elapsed + 1 ≤ b.ticks.toNat := early small
  refine (reached_after start small within).mp ?_
  have advance : start + UInt32.ofNat elapsed + 1 = start + UInt32.ofNat (elapsed + 1) := by
    rw [UInt32.add_assoc, UInt32.ofNat_add]; rfl
  rwa [← advance, UInt32.ofNat_toNat]

/-- A tick that is not due leaves the wait one tick older. -/
theorem lapse (story : Story now wakeTick (.waiting b) w)
    (early : b.timed = true → reached (now + 1) wakeTick = false) :
    Story (now + 1) wakeTick (.waiting b) (w.map fun w => { w with elapsed := w.elapsed + 1 }) := by
  obtain ⟨positive, elapsed, rfl, bounded⟩ := story
  refine ⟨positive, elapsed + 1, rfl, ?_⟩
  intro timed
  obtain ⟨⟨start, rfl, rfl⟩, before⟩ := bounded timed
  have advance : start + UInt32.ofNat elapsed + 1 = start + UInt32.ofNat (elapsed + 1) := by
    rw [UInt32.add_assoc, UInt32.ofNat_add]; rfl
  refine ⟨⟨start, advance, rfl⟩, ?_⟩
  intro small
  have within : elapsed + 1 ≤ b.ticks.toNat := before small
  have notYet := early timed
  rw [advance, ← UInt32.ofNat_toNat (x := b.ticks)] at notYet
  have other : elapsed + 1 ≠ b.ticks.toNat := fun same => by
    rw [(reached_after start small within).mpr same] at notYet
    cases notYet
  omega

/-- Time passes for a task that is not waiting. -/
theorem age (story : Story now wakeTick status w) (notWaiting : ∀ b, status ≠ .waiting b) :
    Story (now + 1) wakeTick' status (w.map fun w => { w with elapsed := w.elapsed + 1 }) := by
  cases status with
  | awake =>
    intro v same
    obtain ⟨u, rfl, rfl⟩ := Option.map_eq_some_iff.mp same
    exact ⟨(story u rfl).once, (story u rfl).reported⟩
  | waiting b => exact absurd rfl (notWaiting b)
  | woken b result =>
    obtain ⟨elapsed, waker, k, rfl, ended⟩ := story
    exact ⟨elapsed + 1, waker, k, rfl, ended⟩

/-- The call returns and so closes its wait. -/
theorem finish {result st : Status} (story : Story now wakeTick (.woken b result) w)
    (reports : b.reads = true → (st = .timeout ↔ result = .timeout)) :
    Story now wakeTick' .awake (w.map fun w => { w with result := w.result.or (some st) }) := by
  obtain ⟨elapsed, waker, k, rfl, ended⟩ := story
  rintro v same
  cases same
  refine ⟨⟨waker, k, result, rfl, ended⟩, st, rfl, ?_⟩
  intro reads
  rw [reports reads]
  cases ended with
  | signal => simp
  | tick => simp

/-- Later calls of the task leave its closed wait as it is. -/
theorem keep {st : Status} (story : Story now wakeTick .awake w) :
    Story now wakeTick' .awake (w.map fun w => { w with result := w.result.or (some st) }) := by
  intro v same
  obtain ⟨u, rfl, rfl⟩ := Option.map_eq_some_iff.mp same
  obtain ⟨once, st', reported, reads⟩ := story u rfl
  exact ⟨once, st', by simp [reported], reads⟩

/-- Only a waiting task's wake tick matters. -/
theorem retime (story : Story now wakeTick status w)
    (same : ∀ b, status = .waiting b → wakeTick' = wakeTick) : Story now wakeTick' status w := by
  cases status with
  | waiting b => rwa [same b rfl]
  | _ => exact story

end Story
/-! ## The account along a run -/

theorem account_silent {t : TaskId} {entries : List Entry} (w : Option Wait)
    (silent : ∀ e ∈ entries, e.silent = true) : entries.foldr (Entry.account t) w = w := by
  induction entries with
  | nil => rfl
  | cons e rest ih =>
    have quiet := silent e (by simp)
    rw [List.foldr_cons, ih fun e member => silent e (by simp [member])]
    cases e <;> first | rfl | cases quiet

/-- The wake-ups of one tick, in the account of one task. -/
theorem account_ticks {t : TaskId} {l : List TaskId} (nodup : l.Nodup) (w : Option Wait) :
    (l.map (Entry.woken · .tick)).foldr (Entry.account t) w =
      if t ∈ l then w.map fun w => { w with wakes := (.tick, w.elapsed) :: w.wakes } else w := by
  induction l with
  | nil => rfl
  | cons u rest ih =>
    obtain ⟨absent, nodup⟩ := List.nodup_cons.mp nodup
    rw [List.map_cons, List.foldr_cons, ih nodup]
    simp only [Entry.account, List.mem_cons]
    by_cases here : u = t
    · subst u; simp [absent]
    · simp [here, Ne.symm here]

/-- The account after a tick. -/
theorem lastWait_ticked {y : System} {s : Sched} {t : TaskId} : lastWait t (y.ticked s).log =
    if t ∈ y.sched.expired then
      ((lastWait t y.log).map fun w => { w with elapsed := w.elapsed + 1 }).map fun w =>
        { w with wakes := (.tick, w.elapsed) :: w.wakes }
    else (lastWait t y.log).map fun w => { w with elapsed := w.elapsed + 1 } := by
  have nodup : y.sched.expired.Nodup := (y.sched.links.nodup .delayed).filter _
  have shape : (y.ticked s).log = (Entry.requested :: y.sched.expired.map (Entry.woken · .tick)) ++
      (.ticked :: y.log) := rfl
  rw [shape, lastWait_append, List.foldr_cons, account_ticks nodup]
  rfl

theorem account_woken {t : TaskId} {woken : Option TaskId} {h : WaitList} (w : Option Wait) :
    (wokenEntries woken (some h)).foldr (Entry.account t) w =
      if woken = some t then w.map fun w => { w with wakes := (.signal h, w.elapsed) :: w.wakes }
      else w := by
  cases woken <;> simp [wokenEntries, Entry.account]

theorem account_other {t : TaskId} {woken : Option TaskId} {h : Option WaitList} (w : Option Wait)
    (other : woken ≠ some t) : (wokenEntries woken h).foldr (Entry.account t) w = w := by
  cases h with
  | none => cases woken <;> rfl
  | some h => rw [account_woken, if_neg other]

theorem account_gave {t : TaskId} {k k' : Kernel} {woken : Option TaskId}
    {given : Option SemaphoreId} (w : Option Wait) :
    (gaveEntries k k' woken given).foldr (Entry.account t) w = w := by
  cases given <;> rfl

/-- What the first critical section adds to the account of its caller. -/
theorem account_outcome {t self : TaskId} {c : Call} {o : Outcome} (w : Option Wait) :
    (outcomeEntries self c o).foldr (Entry.account t) w =
      if self = t then
        match o, c with
        | .blocks, .blocking b => some ⟨b, 0, [], none⟩
        | .returns st _, .blocking _ | .switches st _, .blocking _ =>
          w.map fun w => { w with result := w.result.or (some st) }
        | .fires _ _ _, .blocking _ => w.map fun w => { w with result := w.result.or (some .ok) }
        | _, _ => w
      else w := by
  cases o <;> cases c <;> simp [outcomeEntries, Entry.account]

/-- A call changes the wake tick of its caller and of a task it creates only. -/
theorem Effect.wakeTick {k : Kernel} {s' : Sched} {self u : TaskId} {c : Call} {o : Outcome}
    {woken : Option TaskId} (effect : Effect k self c o woken s') (other : u ≠ self)
    (known : ∀ a, c = .taskCreate a → a.tcb ≠ some u) :
    (s'.tcb u).wakeTick = (k.sched.tcb u).wakeTick := by
  cases effect with
  | keeps _ changed => exact changed.rest.wakeTick u
  | sleeps _ _ changed enlisted slept =>
    rw [slept.tcb, Function.update_of_ne other, enlisted.tcb, changed.rest.wakeTick]
  | @wakes _ t _ _ _ _ _ _ _ changed woken =>
    rw [woken.tcb, ← changed.rest.wakeTick]
    by_cases first : u = t <;> simp [first]
  | @creates a t _ call named created =>
    have distinct : u ≠ t := fun same => known a call (same ▸ named)
    rw [created.tcb, Function.update_of_ne distinct]
  | @suspends t _ _ suspended =>
    rw [suspended.tcb]
    by_cases first : u = t <;> simp [first]
  | @resumes t _ _ _ readied =>
    rw [readied.tcb]
    by_cases first : u = t <;> simp [first]

theorem Effect.tick {k : Kernel} {s' : Sched} {self : TaskId} {c : Call} {o : Outcome}
    {woken : Option TaskId} (effect : Effect k self c o woken s') :
    s'.tickCount = k.sched.tickCount := by
  cases effect with
  | keeps _ changed => exact changed.rest.rest.tick
  | sleeps _ _ changed enlisted slept =>
    rw [slept.rest.tick, enlisted.rest.tick, changed.rest.rest.tick]
  | wakes _ _ changed woken => rw [woken.rest.tick, changed.rest.rest.tick]
  | creates _ _ created => exact created.tick
  | suspends _ suspended => exact suspended.rest.tick
  | resumes _ _ readied => exact readied.rest.tick

/-- A call from an interrupt changes no wake tick. -/
theorem isr_keeps_time {k k' : Kernel} {c : IsrCall} {st : Status} {needsYield : Bool}
    {woken : Option TaskId} (ran : k.isrCall c = some (st, needsYield, woken, k')) :
    k'.sched.tickCount = k.sched.tickCount ∧
      ∀ t, (k'.sched.tcb t).wakeTick = (k.sched.tcb t).wakeTick := by
  rcases (isr_effect ran).2 with wakes | ⟨_, same⟩
  · generalize k'.sched = s at wakes ⊢
    cases wakes with
    | nobody => exact ⟨rfl, fun _ => rfl⟩
    | @first u _ _ _ woken =>
      refine ⟨woken.rest.tick, ?_⟩
      intro t
      rw [woken.tcb]
      by_cases first : t = u <;> simp [first]
  · rw [same]; exact ⟨rfl, fun _ => rfl⟩

namespace Accounted
variable {y z : System} {self : TaskId}

private theorem quiet (accounted : Accounted y) (quiet : Quiet y z) : Accounted z := by
  intro t
  obtain ⟨entries, log, silent⟩ := quiet.log
  rw [quiet.tick, quiet.status, log, lastWait_append, account_silent _ silent]
  exact (accounted t).retime fun b waiting => quiet.wakeTick t b waiting

private theorem tick {s : Sched} (accounted : Accounted y) (linked : Linked y)
    (tick : y.sched.tick = some s) : Accounted (y.ticked s) := by
  intro t
  have scanned := tick_spec tick
  have story := accounted t
  have now : (y.ticked s).sched.tickCount = y.sched.tickCount + 1 := scanned.rest.tick
  rw [lastWait_ticked, now, linked.status_ticked tick]
  by_cases late : t ∈ y.sched.expired
  · obtain ⟨threaded, due⟩ := mem_expired.mp late
    obtain ⟨b, waiting, timed⟩ :=
      linked.delayed_waiting.mp ((y.sched.links.mem_items _ _).mpr threaded)
    rw [if_pos late, if_pos late, waiting]
    rw [waiting] at story
    exact story.expire timed due
  · have wake : ((y.ticked s).sched.tcb t).wakeTick = (y.sched.tcb t).wakeTick := by
      show (s.tcb t).wakeTick = _
      rw [scanned.tcb, if_neg late]
    rw [if_neg late, if_neg late, wake]
    cases status : y.waitStatus t with
    | waiting b =>
      rw [status] at story
      apply story.lapse
      intro timed
      have threaded := linked.delayed_waiting.mpr ⟨b, status, timed⟩
      rw [y.sched.links.mem_items] at threaded
      by_contra due
      exact late (mem_expired.mpr ⟨threaded, by simpa using due⟩)
    | awake => rw [status] at story; exact story.age (by simp)
    | woken b result => rw [status] at story; exact story.age (by simp)

private theorem interrupt {c : IsrCall} {st : Status} {needsYield : Bool} {woken : Option TaskId}
    {k : Kernel} (accounted : Accounted y) (linked : Linked y)
    (ran : y.toKernel.isrCall c = some (st, needsYield, woken, k)) :
    Accounted (y.interrupted c st needsYield woken k) := by
  intro t
  have story := accounted t
  have log : lastWait t (y.interrupted c st needsYield woken k).log =
      if woken = some t then (lastWait t y.log).map fun w =>
        { w with wakes := (.signal c.signals, w.elapsed) :: w.wakes }
      else lastWait t y.log := by
    have shape : (y.interrupted c st needsYield woken k).log =
      [.isrReturned c st needsYield] ++ (wokenEntries woken (some c.signals) ++
        (gaveEntries y.toKernel k woken (isrGivesTo c) ++ y.log)) := by simp [interrupted]
    rw [shape, lastWait_append, lastWait_append, lastWait_append, account_gave, account_woken]
    rfl
  have kept : (y.interrupted c st needsYield woken k).sched.tickCount = y.sched.tickCount ∧
      ((y.interrupted c st needsYield woken k).sched.tcb t).wakeTick =
        (y.sched.tcb t).wakeTick := ⟨(isr_keeps_time ran).1, (isr_keeps_time ran).2 t⟩
  rw [log, kept.1, kept.2, linked.status_interrupted ran]
  split
  · rename_i now
    subst now
    obtain ⟨b, _, _, waiting, listed⟩ := linked.isr_woken_waiting ran
    rw [waiting] at story ⊢
    exact story.signal listed
  · exact story

private theorem finish {b : BlockingCall} {st : Status} {out : Bytes} {k : Kernel}
    (accounted : Accounted y) (linked : Linked y) (running : y.running = some self)
    (here : y.pc self = .parked b) (ran : y.toKernel.resume self b = some (st, out, k)) :
    Accounted (y.finished self b st out k) := by
  intro t
  have story := accounted t
  have same : (y.finished self b st out k).sched = y.sched := linked.resume_keeps running here ran
  have log : lastWait t (y.finished self b st out k).log =
      if self = t then (lastWait t y.log).map fun w => { w with result := w.result.or (some st) }
      else lastWait t y.log := rfl
  rw [same, log, Linked.status_finished ran]
  by_cases caller : t = self
  · subst t
    rw [linked.status_parked running here] at story
    rw [if_pos rfl, if_pos rfl]
    apply story.finish
    intro reads
    cases resume_spec ran with
    | delayed | owns | givesUp => cases reads
    | takes => rfl
    | sends resumes =>
      cases resumes with
      | late timedOut => simp [timedOut]
      | copies signalled => simp [signalled]
      | lostRace signalled => simp [signalled]
    | receives resumes =>
      cases resumes with
      | late timedOut => simp [timedOut]
      | copies signalled => simp [signalled]
      | lostRace signalled => simp [signalled]
  · rw [if_neg caller, if_neg (Ne.symm caller)]
    exact story

private theorem enter {c : Call} {r : CallResult} (accounted : Accounted y) (linked : Linked y)
    (running : y.running = some self) (busy : ∀ b, y.pc self ≠ .requesting b)
    (awake : y.waitStatus self = .awake) (allowed : y.allows c = true)
    (ran : y.toKernel.call self c = some r) : Accounted (y.entered self c r) := by
  intro t
  have story := accounted t
  have effect := call_effect ran
  have status := linked.status_entered running busy allowed ran t
  have shape : (y.entered self c r).log = outcomeEntries self c r.outcome ++
    (wokenEntries r.woken c.signals ++
      (gaveEntries y.toKernel r.kernel r.woken (givesTo c) ++ y.log)) := by simp [entered]
  have tick : (y.entered self c r).sched.tickCount = y.sched.tickCount := effect.tick
  rw [status, shape, lastWait_append, lastWait_append, lastWait_append, account_gave,
    account_outcome, tick]
  by_cases caller : t = self
  · subst t
    have other : r.woken ≠ some self := fun woken => by
      obtain ⟨_, _, _, _, _, waiting, _⟩ := linked.woken_waiting ran woken
      simp [awake] at waiting
    rw [account_other _ other, if_pos rfl, if_pos rfl]
    rw [awake] at story
    obtain ⟨k, outcome, woken⟩ := r
    show Story _ (k.sched.tcb self).wakeTick _ _
    dsimp only at effect ⊢
    generalize k.sched = s' at effect ⊢
    cases effect with
    | @sleeps b _ _ _ call positive _ _ slept =>
      subst call
      apply Story.fall_asleep positive
      intro timed
      simp [slept.tcb, wakesAt, timed]
    | keeps returned =>
      cases outcome <;> cases c <;>
        first
        | exact absurd rfl returned
        | exact story.keep
        | exact story
    | wakes => cases c <;> first | exact story.keep | exact story
    | @suspends u _ call => subst call; split <;> exact story
    | creates call => subst call; exact story
    | resumes call => subst call; exact story
  · rw [if_neg caller, if_neg (Ne.symm caller)]
    by_cases woken : r.woken = some t
    · obtain ⟨h, b, _, signals, _, waiting, listed⟩ := linked.woken_waiting ran woken
      rw [if_pos woken, signals, account_woken, if_pos woken, waiting]
      rw [waiting] at story
      exact story.signal listed
    · rw [if_neg woken, account_other _ woken]
      apply story.retime
      intro b waiting
      apply effect.wakeTick caller
      intro a call named
      subst call
      have fresh : (y.sched.tcb t).state = .deleted := fresh_of_allowed allowed named
      simp [(Linked.waiting_iff.mp waiting).1] at fresh

theorem step (accounted : Accounted y) (linked : Linked y) {event : Event}
    (stepped : y.step event = some z) : Accounted z := by
  cases linked.step_moves stepped with
  | quiet quiet => exact accounted.quiet quiet
  | ticks ticked => exact accounted.tick linked ticked
  | interrupts ran => exact accounted.interrupt linked ran
  | enters _ running busy awake allowed ran =>
    exact accounted.enter linked running busy awake allowed ran
  | finishes running here ran => exact accounted.finish linked running here ran

end Accounted

theorem accounted_boot (cfg : Config) : Accounted (boot cfg) := by
  intro t v told
  cases told

theorem accounted_of_run {cfg : Config} {guard : System → Event → Prop} {y : System}
    (run : KernelRun cfg guard y) : Accounted y := by
  have strong := run.strengthen fun _ => linked_of_run
  exact strong.invariant _ (accounted_boot cfg) fun _ _ _ accounted meets stepped =>
    accounted.step meets.2 stepped

/-! ## What a run says of every wait -/

/-- Every blocking wait ends once and reports how. A blocked task has not been
woken and its time is not up; a woken task was woken once, by a signal before
its time or by the tick at its time, is on no list and keeps its result until
its call has read it; a call that has returned reported how it was woken. The
wake-ups in the log are the changes from BLOCKED to READY, and the next tick
is always possible. -/
structure WaitsEndOnce (y : System) : Prop where
  waiting : ∀ t, (y.sched.tcb t).state = .blocked → ∃ b elapsed, (y.pc t).sleep = some b ∧
    lastWait t y.log = some ⟨b, elapsed, [], none⟩ ∧
    (b.ticks.toNat < 2 ^ 31 → elapsed < b.ticks.toNat)
  woken : ∀ t b result, y.waitStatus t = .woken b result →
    (∃ elapsed waker k, lastWait t y.log = some ⟨b, elapsed, [(waker, k)], none⟩ ∧
      EndedBy b waker k result) ∧
    y.sched.events.ring t = none ∧ y.sched.links.ring t ≠ some .delayed
  closed : ∀ t w, y.waitStatus t = .awake → lastWait t y.log = some w → w.Closed
  kept : ∀ event z t b result, y.step event = some z → y.waitStatus t = .woken b result →
    z.waitStatus t = .woken b result ∨
      (z.waitStatus t = .awake ∧ ∃ st out, Logged y z (.returned t (.blocking b) st out))
  readied : ∀ event z t, y.step event = some z → (y.sched.tcb t).state = .blocked →
    ((z.sched.tcb t).state = .ready ↔ ∃ waker, Logged y z (.woken t waker)) ∧
      ((z.sched.tcb t).state = .ready ∨ (z.sched.tcb t).state = .blocked)
  ticks : ∃ z, y.step .tick = some z

/-- A result stays until the call that waits for it returns. -/
private theorem step_kept {y z : System} (linked : Linked y) {event : Event}
    (stepped : y.step event = some z) {t : TaskId} {b : BlockingCall} {result : Status}
    (woken : y.waitStatus t = .woken b result) :
    z.waitStatus t = .woken b result ∨
      (z.waitStatus t = .awake ∧ ∃ st out, Logged y z (.returned t (.blocking b) st out)) := by
  cases linked.step_moves stepped with
  | quiet quiet => exact .inl (by rw [quiet.status, woken])
  | ticks ticked =>
    rw [linked.status_ticked ticked, woken]
    exact .inl (by split <;> rfl)
  | interrupts ran =>
    rw [linked.status_interrupted ran, woken]
    exact .inl (by split <;> rfl)
  | enters _ running busy awake allowed ran =>
    rw [linked.status_entered running busy allowed ran, woken]
    refine .inl ?_
    split
    · rename_i caller
      rw [caller, awake] at woken
      cases woken
    · split <;> rfl
  | @finishes self b' st out k running here ran =>
    rw [Linked.status_finished ran]
    by_cases caller : t = self
    · subst t
      rw [linked.status_parked running here] at woken
      cases woken
      exact .inr ⟨by simp, st, out, (logged_finished _).mpr rfl⟩
    · exact .inl (by rw [if_neg caller, woken])

/-- A signal wakes whom it logs as woken. -/
private theorem logged_woken {woken : Option TaskId} {h : WaitList} {t : TaskId} :
    (∃ waker, Entry.woken t waker ∈ wokenEntries woken (some h)) ↔ woken = some t := by
  cases woken with
  | none => simp [wokenEntries]
  | some u =>
    simp only [wokenEntries, List.mem_singleton, Entry.woken.injEq, Option.some.injEq]
    constructor
    · rintro ⟨_, same, _⟩
      exact same.symm
    · intro same
      exact ⟨_, same.symm, rfl⟩

/-- A tick wakes whom its scan finds due. -/
private theorem woken_ticked {y : System} {s : Sched} {t : TaskId} :
    (∃ waker, Logged y (y.ticked s) (.woken t waker)) ↔ t ∈ y.sched.expired := by
  have log : (y.ticked s).log = (Entry.requested :: y.sched.expired.map (Entry.woken · .tick) ++
      [.ticked]) ++ y.log := by simp [System.ticked]
  simp [logged_iff log]

private theorem woken_interrupted {y : System} {c : IsrCall} {st : Status} {needsYield : Bool}
    {woken : Option TaskId} {k : Kernel} {t : TaskId} :
    (∃ waker, Logged y (y.interrupted c st needsYield woken k) (.woken t waker)) ↔
      woken = some t := by
  rw [← logged_woken (h := c.signals)]
  apply exists_congr
  intro waker
  rw [logged_interrupted]
  cases given : isrGivesTo c <;> simp [gaveEntries]

private theorem woken_entered {y : System} {self : TaskId} {c : Call} {r : CallResult} {t : TaskId}
    (linked : Linked y) (ran : y.toKernel.call self c = some r) :
    (∃ waker, Logged y (y.entered self c r) (.woken t waker)) ↔ r.woken = some t := by
  have outcome : ∀ waker, Entry.woken t waker ∉ outcomeEntries self c r.outcome := by
    intro waker
    cases r.outcome <;> cases c <;> simp [outcomeEntries]
  have gave : ∀ waker, Entry.woken t waker ∉ gaveEntries y.toKernel r.kernel r.woken (givesTo c) := by
    intro waker
    cases givesTo c <;> simp [gaveEntries]
  simp only [logged_entered, List.mem_append, outcome, gave, false_or, or_false]
  cases signals : c.signals with
  | some h => exact logged_woken
  | none =>
    constructor
    · rintro ⟨waker, member⟩
      cases woken : r.woken <;> rw [woken] at member <;> cases member
    · intro woken
      obtain ⟨_, _, _, signals', _⟩ := linked.woken_waiting ran woken
      rw [signals] at signals'
      cases signals'

/-- A step readies the blocked tasks it logs as woken, and no other. -/
private theorem step_readied {y z : System} (linked : Linked y) {event : Event}
    (stepped : y.step event = some z) {t : TaskId} (blocked : (y.sched.tcb t).state = .blocked) :
    ((z.sched.tcb t).state = .ready ∧ ∃ waker, Logged y z (.woken t waker)) ∨
      ((z.sched.tcb t).state = .blocked ∧ ¬ ∃ waker, Logged y z (.woken t waker)) := by
  obtain ⟨b, asleep, _⟩ := linked.placed.blocked blocked
  have waiting : y.waitStatus t = .waiting b := Linked.waiting_iff.mpr ⟨blocked, asleep⟩
  have stays : z.waitStatus t = y.waitStatus t → (z.sched.tcb t).state = .blocked := fun same =>
    (Linked.waiting_iff.mp (same.trans waiting)).1
  cases linked.step_moves stepped with
  | quiet quiet =>
    refine .inr ⟨stays (quiet.status t), ?_⟩
    obtain ⟨entries, log, silent⟩ := quiet.log
    rintro ⟨waker, logged⟩
    rw [logged_iff log] at logged
    cases silent _ logged
  | @ticks s ticked =>
    by_cases late : t ∈ y.sched.expired
    · refine .inl ⟨?_, woken_ticked.mpr late⟩
      show (s.tcb t).state = .ready
      rw [(tick_spec ticked).tcb, if_pos late]
    · exact .inr ⟨stays (by rw [linked.status_ticked ticked, if_neg late]), woken_ticked.not.mpr late⟩
  | @interrupts c st needsYield woken k ran =>
    by_cases now : woken = some t
    · refine .inl ⟨?_, woken_interrupted.mpr now⟩
      show (k.sched.tcb t).state = .ready
      subst now
      rcases (isr_effect ran).2 with wakes | ⟨nobody, _⟩
      · generalize k.sched = s at wakes ⊢
        cases wakes with
        | first _ woken => simp [woken.tcb]
      · cases nobody
    · exact .inr ⟨stays (by rw [linked.status_interrupted ran, if_neg now]),
        woken_interrupted.not.mpr now⟩
  | @enters self c r _ running busy awake allowed ran =>
    have caller : t ≠ self := by
      rintro rfl
      rw [awake] at waiting
      cases waiting
    have status := linked.status_entered running busy allowed ran t
    by_cases now : r.woken = some t
    · refine .inl ⟨?_, (woken_entered linked ran).mpr now⟩
      have effect := call_effect ran
      show (r.kernel.sched.tcb t).state = .ready
      rw [now] at effect
      generalize r.outcome = outcome, r.kernel.sched = s' at effect
      cases effect with
      | wakes _ _ _ woken => simp [woken.tcb]
    · exact .inr ⟨stays (by rw [status, if_neg caller, if_neg now]),
        (woken_entered linked ran).not.mpr now⟩
  | @finishes self b' st out k running here ran =>
    have caller : t ≠ self := by
      rintro rfl
      rw [linked.status_parked running here] at waiting
      cases waiting
    refine .inr ⟨stays (by rw [Linked.status_finished ran, if_neg caller]), ?_⟩
    rintro ⟨waker, logged⟩
    rw [logged_finished] at logged
    cases logged

/-- Every wait ends once and reports how, in every run from any tick count. -/
theorem waits_end_once {cfg : Config} {y : System} (run : KernelRun cfg GuardedRun.Free y) :
    WaitsEndOnce y := by
  have accounted := accounted_of_run run
  have linked := linked_of_run run
  refine ⟨?_, ?_, ?_, fun _ _ _ _ _ stepped woken => step_kept linked stepped woken, ?_, ?_⟩
  · intro t blocked
    obtain ⟨b, asleep, _⟩ := linked.placed.blocked blocked
    have story := accounted t
    rw [Linked.waiting_iff.mpr ⟨blocked, asleep⟩] at story
    obtain ⟨_, elapsed, told, due⟩ := story
    exact ⟨b, elapsed, asleep, told, fun small => (due (Story.timed_of_small small)).2 small⟩
  · intro t b result woken
    have story := accounted t
    rw [woken] at story
    obtain ⟨elapsed, waker, k, told, ended⟩ := story
    have notWaiting : ∀ b', y.waitStatus t ≠ .waiting b' := fun b' => by rw [woken]; simp
    refine ⟨⟨elapsed, waker, k, told, ended⟩, ?_, ?_⟩
    · by_contra listed
      obtain ⟨h, threaded⟩ := Option.ne_none_iff_exists'.mp listed
      obtain ⟨b', waiting, _⟩ :=
        linked.listed_waiting.mp ((y.sched.events.mem_items _ _).mpr threaded)
      exact notWaiting b' waiting
    · intro threaded
      obtain ⟨b', waiting, _⟩ :=
        linked.delayed_waiting.mp ((y.sched.links.mem_items _ _).mpr threaded)
      exact notWaiting b' waiting
  · intro t w awake told
    have story := accounted t
    rw [awake] at story
    exact story w told
  · intro event z t stepped blocked
    rcases step_readied linked stepped blocked with ⟨ready, logged⟩ | ⟨blocked, silent⟩
    · exact ⟨⟨fun _ => logged, fun _ => ready⟩, .inl ready⟩
    · exact ⟨⟨fun ready => by simp [ready] at blocked, fun logged => absurd logged silent⟩,
        .inr blocked⟩
  · obtain ⟨s, ticked⟩ := y.sched.tick_defined
    exact ⟨y.ticked s, by simp [System.step, System.ticked, ticked]⟩

/-- From just below the wrap of the tick count: a task delays across it while
another takes a semaphore that an interrupt gives in time. -/
def acrossTheWrap : List Event :=
  [.create ⟨some 1, 1, 1, 64, 3⟩, .create ⟨some 2, 1, 1, 64, 2⟩, .start,
    .call (.blocking (.taskDelay 2)), .proceed, .pendSV,
    .call (.blocking (.semaphoreTake 0 5)), .proceed, .pendSV, .tick,
    .isr (.semaphoreGiveFromIsr 0), .pendSV, .proceed, .tick, .pendSV, .proceed]

set_option maxRecDepth 10000 in
theorem acrossTheWrap_ends :
    ∃ y, GuardedRun.exec System.step GuardedRun.Free (boot { tickCount := 0xFFFFFFFF })
      acrossTheWrap = some y ∧ WaitsEndOnce y := by
  obtain ⟨y, ran⟩ := Option.isSome_iff_exists.mp
    (by decide +kernel : (GuardedRun.exec System.step GuardedRun.Free (boot { tickCount := 0xFFFFFFFF })
      acrossTheWrap).isSome = true)
  exact ⟨y, ran, waits_end_once (GuardedRun.run_of_exec ran)⟩

end NimbleRtos
