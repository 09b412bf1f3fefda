import NimbleRtos.Waiting

/-! One kernel object at a time. A step that is not a call on an object leaves
the object, its wait lists, the waits on it and its part of the log alone;
what is left for each object are its own calls and the tick. -/
namespace NimbleRtos
open NodeRings Sched NimbleRtos.System

inductive Object where
  | mutex (m : MutexId)
  | semaphore (s : SemaphoreId)
  | queue (q : QueueId)
  deriving DecidableEq, Repr

def WaitList.object : WaitList → Object
  | .mutex m => .mutex m
  | .semaphore s => .semaphore s
  | .receivers q => .queue q
  | .senders q => .queue q

def BlockingCall.object : BlockingCall → Option Object
  | .taskDelay _ => none
  | .mutexLock m _ => some (.mutex m)
  | .semaphoreTake s _ => some (.semaphore s)
  | .queueSend q _ _ => some (.queue q)
  | .queueReceive q _ => some (.queue q)

def Call.object : Call → Option Object
  | .blocking b => b.object
  | .mutexUnlock m => some (.mutex m)
  | .semaphoreGive s => some (.semaphore s)
  | _ => none

def IsrCall.object : IsrCall → Object
  | .semaphoreGiveFromIsr s => .semaphore s
  | .queueSendFromIsr q _ => .queue q

/-- The object an entry is about; a wake-up is told from the waits. -/
def Entry.object : Entry → Option Object
  | .returned _ c _ _ => c.object
  | .isrReturned c _ _ => some c.object
  | .blocked _ b => b.object
  | .gave s _ => some (.semaphore s)
  | _ => none

/-- A wait as far as it is a wait on `o`. -/
def WaitStatus.on (o : Object) : WaitStatus → WaitStatus
  | .awake => .awake
  | .waiting b => if b.object = some o then .waiting b else .awake
  | .woken b result => if b.object = some o then .woken b result else .awake

theorem WaitStatus.on_waiting {o : Object} {b : BlockingCall} {w : WaitStatus}
    (about : b.object = some o) : w.on o = .waiting b ↔ w = .waiting b := by
  cases w with
  | awake => simp [WaitStatus.on]
  | waiting b' =>
    simp only [WaitStatus.on]
    split
    · rfl
    · rename_i other
      simp only [WaitStatus.waiting.injEq, reduceCtorEq, false_iff]
      exact fun same => other (same ▸ about)
  | woken b' result => simp only [WaitStatus.on]; split <;> simp

theorem WaitStatus.on_woken {o : Object} {b : BlockingCall} {result : Status} {w : WaitStatus}
    (about : b.object = some o) : w.on o = .woken b result ↔ w = .woken b result := by
  cases w with
  | awake => simp [WaitStatus.on]
  | waiting b' => simp only [WaitStatus.on]; split <;> simp
  | woken b' result' =>
    simp only [WaitStatus.on]
    split
    · rfl
    · rename_i other
      simp only [WaitStatus.woken.injEq, reduceCtorEq, false_iff]
      exact fun same => other (same.1 ▸ about)

/-- The object itself is unchanged. -/
def SameObject (k k' : Kernel) : Object → Prop
  | .mutex m => k'.mutexes m = k.mutexes m
  | .semaphore s => k'.semaphores s = k.semaphores s
  | .queue q => k'.queues q = k.queues q

theorem BlockingCall.object_of_waitList {b : BlockingCall} {h : WaitList}
    (listed : b.waitList = some h) : b.object = some h.object := by
  cases b <;> cases listed <;> rfl

theorem Call.object_of_signals {c : Call} {h : WaitList} (signals : c.signals = some h) :
    c.object = some h.object := by
  cases c with
  | blocking b => cases b <;> cases signals <;> rfl
  | _ => cases signals <;> rfl

theorem IsrCall.object_of_signals (c : IsrCall) : c.signals.object = c.object := by
  cases c <;> rfl

theorem Entry.object_of_silent {e : Entry} (silent : e.silent = true) : e.object = none := by
  cases e <;> first | rfl | cases silent

/-- A step that has nothing to do with `o`. -/
structure Aside (y z : System) (o : Object) : Prop where
  object : SameObject y.toKernel z.toKernel o
  items : ∀ h, h.object = o → z.sched.events.items h = y.sched.events.items h
  status : ∀ u, (z.waitStatus u).on o = (y.waitStatus u).on o
  tasks : z.sched.tasks = y.sched.tasks ∨
    ∃ t, t ∉ y.sched.tasks ∧ z.sched.tasks = y.sched.tasks ++ [t]
  log : ∃ entries, z.log = entries ++ y.log ∧ ∀ e ∈ entries, e.object ≠ some o

theorem Aside.waiting_iff {y z : System} {o : Object} {u : TaskId} {b : BlockingCall}
    (aside : Aside y z o) (about : b.object = some o) :
    z.waitStatus u = .waiting b ↔ y.waitStatus u = .waiting b := by
  rw [← WaitStatus.on_waiting about, aside.status, WaitStatus.on_waiting about]

theorem Aside.woken_iff {y z : System} {o : Object} {u : TaskId} {b : BlockingCall}
    {result : Status} (aside : Aside y z o) (about : b.object = some o) :
    z.waitStatus u = .woken b result ↔ y.waitStatus u = .woken b result := by
  rw [← WaitStatus.on_woken about, aside.status, WaitStatus.on_woken about]

/-- A step as object `o` sees it. -/
inductive Touches (y : System) (event : Event) (o : Object) : System → Prop where
  | aside {z : System} (aside : Aside y z o) : Touches y event o z
  | ticks {s : Sched} (tick : y.sched.tick = some s) : Touches y event o (y.ticked s)
  | interrupts {c : IsrCall} {st : Status} {needsYield : Bool} {woken : Option TaskId}
      {k : Kernel} (about : c.object = o)
      (ran : y.toKernel.isrCall c = some (st, needsYield, woken, k)) :
      Touches y event o (y.interrupted c st needsYield woken k)
  | enters {self : TaskId} {c : Call} {r : CallResult} (about : c.object = some o)
      (origin : event = .call c ∨ c.Internal)
      (running : y.running = some self) (busy : ∀ b, y.pc self ≠ .requesting b)
      (awake : y.waitStatus self = .awake) (allowed : y.allows c = true)
      (ran : y.toKernel.call self c = some r) : Touches y event o (y.entered self c r)
  | finishes {self : TaskId} {b : BlockingCall} {st : Status} {out : Bytes} {k : Kernel}
      (about : b.object = some o) (running : y.running = some self)
      (here : y.pc self = .parked b) (ran : y.toKernel.resume self b = some (st, out, k))
      (origin : event = .proceed) :
      Touches y event o (y.finished self b st out k)

/-- A call changes no object but its own. -/
theorem call_object {k : Kernel} {self : TaskId} {c : Call} {r : CallResult} {o : Object}
    (ran : k.call self c = some r) (other : c.object ≠ some o) : SameObject k r.kernel o := by
  cases call_spec ran with
  | locks | unlocks =>
    cases o with
    | mutex m' =>
      have distinct : m' ≠ _ := fun same => other (by rw [same]; rfl)
      simp [SameObject, Kernel.setMutex, distinct]
    | _ => rfl
  | takes | gives =>
    cases o with
    | semaphore s' =>
      have distinct : s' ≠ _ := fun same => other (by rw [same]; rfl)
      simp [SameObject, Kernel.setSemaphore, distinct]
    | _ => rfl
  | sends | receives =>
    cases o with
    | queue q' =>
      have distinct : q' ≠ _ := fun same => other (by rw [same]; rfl)
      simp [SameObject, Kernel.setQueue, distinct]
    | _ => rfl
  | _ => cases o <;> rfl

theorem isr_object {k k' : Kernel} {c : IsrCall} {st : Status} {needsYield : Bool}
    {woken : Option TaskId} {o : Object} (ran : k.isrCall c = some (st, needsYield, woken, k'))
    (other : c.object ≠ o) : SameObject k k' o := by
  cases isrCall_spec ran with
  | gives =>
    cases o with
    | semaphore s' =>
      have distinct : s' ≠ _ := fun same => other (by rw [same]; rfl)
      simp [SameObject, Kernel.setSemaphore, distinct]
    | _ => rfl
  | sends =>
    cases o with
    | queue q' =>
      have distinct : q' ≠ _ := fun same => other (by rw [same]; rfl)
      simp [SameObject, Kernel.setQueue, distinct]
    | _ => rfl

theorem resume_object {k k' : Kernel} {self : TaskId} {b : BlockingCall} {st : Status}
    {out : Bytes} {o : Object} (ran : k.resume self b = some (st, out, k'))
    (other : b.object ≠ some o) : SameObject k k' o := by
  cases resume_spec ran with
  | sends | receives =>
    cases o with
    | queue q' =>
      have distinct : q' ≠ _ := fun same => other (by rw [same]; rfl)
      simp [SameObject, Kernel.setQueue, distinct]
    | _ => rfl
  | _ => cases o <;> rfl

/-- A call threads and unthreads waiters on the lists of its own object only. -/
theorem Effect.items {k : Kernel} {s' : Sched} {self : TaskId} {c : Call} {o : Outcome}
    {woken : Option TaskId} (effect : Effect k self c o woken s') {h : WaitList}
    (other : c.object ≠ some h.object) : s'.events.items h = k.sched.events.items h := by
  cases effect with
  | keeps _ changed => rw [changed.rest.events]
  | @sleeps b s₁ s₂ _ call _ changed enlisted slept =>
    subst call
    rw [slept.events, ← changed.rest.events]
    cases listed : b.waitList with
    | none =>
      rw [listed] at enlisted
      rw [show s₂ = s₁ from enlisted]
    | some h' =>
      rw [listed] at enlisted
      obtain ⟨free, rfl⟩ := enlisted
      have distinct : h ≠ h' := by
        rintro rfl
        exact other (BlockingCall.object_of_waitList listed)
      simp [enqueued, Rings.link_items free, distinct]
  | @wakes h' t rest s₁ _ _ _ signals shape changed woken =>
    have distinct : h ≠ h' := by
      rintro rfl
      exact other (Call.object_of_signals signals)
    rw [woken.events, changed.rest.events]
    exact Rings.remove_other (Rings.ring_of_cons shape) distinct
  | creates _ _ created => rw [created.events]
  | suspends _ suspended => rw [suspended.events]
  | resumes _ _ readied => rw [readied.events]

theorem wakes_items {s s' : Sched} {h h' : WaitList} {woken : Option TaskId}
    (wakes : Wakes s h' woken s') (other : h ≠ h') : s'.events.items h = s.events.items h := by
  cases wakes with
  | nobody => rfl
  | first shape woken =>
    rw [woken.events]
    exact Rings.remove_other (Rings.ring_of_cons shape) other

theorem outcomeEntries_object {self : TaskId} {c : Call} {o : Outcome} {e : Entry}
    (member : e ∈ outcomeEntries self c o) : e.object = c.object := by
  cases o with
  | blocks =>
    cases c with
    | blocking b => cases List.mem_singleton.mp member; rfl
    | _ => cases member
  | calls => cases member
  | _ => cases List.mem_singleton.mp member; rfl

theorem wokenEntries_object {woken : Option TaskId} {h : Option WaitList} {e : Entry}
    (member : e ∈ wokenEntries woken h) : e.object = none := by
  cases woken <;> cases h <;> first | cases member; done | cases List.mem_singleton.mp member; rfl

theorem gaveEntries_object {k k' : Kernel} {woken : Option TaskId} {given : Option SemaphoreId}
    {e : Entry} (member : e ∈ gaveEntries k k' woken given) : e.object = given.map .semaphore := by
  cases given with
  | none => cases member
  | some s => cases List.mem_singleton.mp member; rfl

theorem object_of_givesTo {c : Call} {s : SemaphoreId} (gives : givesTo c = some s) :
    c.object = some (.semaphore s) := by
  cases c <;> cases gives
  rfl

namespace Linked
variable {y z : System} {self t : TaskId} {o : Object}

/-- The task a call wakes was waiting on the list the call signals. -/
theorem woken_waiting {c : Call} {r : CallResult} (linked : Linked y)
    (ran : y.toKernel.call self c = some r) (woken : r.woken = some t) :
    ∃ h b rest, c.signals = some h ∧ y.sched.events.items h = t :: rest ∧
      y.waitStatus t = .waiting b ∧ b.waitList = some h := by
  have effect := call_effect ran
  rw [woken] at effect
  generalize r.outcome = outcome, r.kernel.sched = s' at effect
  cases effect with
  | @wakes h t rest _ _ _ _ signals shape =>
    obtain ⟨b, waiting, listed⟩ :=
      linked.listed_waiting.mp (show t ∈ y.sched.events.items h by simp [shape])
    exact ⟨h, b, rest, signals, shape, waiting, listed⟩

/-- So was the task woken from an interrupt. -/
theorem isr_woken_waiting {c : IsrCall} {st : Status} {needsYield : Bool} {k : Kernel}
    (linked : Linked y) (ran : y.toKernel.isrCall c = some (st, needsYield, some t, k)) :
    ∃ b rest, y.sched.events.items c.signals = t :: rest ∧
      y.waitStatus t = .waiting b ∧ b.waitList = some c.signals := by
  rcases (isr_effect ran).2 with wakes | ⟨nobody, _⟩
  · generalize k.sched = s at wakes
    cases wakes with
    | @first _ rest _ shape =>
      obtain ⟨b, waiting, listed⟩ :=
        linked.listed_waiting.mp (show t ∈ y.sched.events.items c.signals by simp [shape])
      exact ⟨b, rest, shape, waiting, listed⟩
  · cases nobody

private theorem ended_on {b : BlockingCall} {w : WaitStatus} {result : Status}
    (waiting : w = .waiting b) (other : b.object ≠ some o) : (w.ended result).on o = w.on o := by
  subst waiting
  simp [WaitStatus.ended, WaitStatus.on, other]

private theorem aside_enter {c : Call} {r : CallResult} (linked : Linked y)
    (running : y.running = some self) (busy : ∀ b, y.pc self ≠ .requesting b)
    (awake : y.waitStatus self = .awake) (allowed : y.allows c = true)
    (ran : y.toKernel.call self c = some r) (other : c.object ≠ some o) :
    Aside y (y.entered self c r) o := by
  refine ⟨call_object ran other, fun h about => (call_effect ran).items (about ▸ other),
    ?_, ?_, _, rfl, ?_⟩
  · intro u
    rw [linked.status_entered running busy allowed ran]
    split
    · rename_i caller
      rw [caller, awake]
      unfold callerStatus
      split
      · cases c with
        | blocking b => simp [WaitStatus.on, show b.object ≠ some o from other]
        | _ => rfl
      · rfl
    · split
      · rename_i woken
        obtain ⟨h, b, _, signals, _, waiting, listed⟩ := linked.woken_waiting ran woken
        refine ended_on waiting ?_
        rwa [BlockingCall.object_of_waitList listed, ← Call.object_of_signals signals]
      · rfl
  · rcases (call_effect ran).tasks linked.placed
      (by simp [linked.self_running running busy]) with same | ⟨a, t, rfl, named, created⟩
    · exact .inl same.1
    · refine .inr ⟨t, fun listed => (linked.created t).mp listed ?_, created.tasks⟩
      simpa [allows, named] using allowed
  · intro e member about
    rw [List.mem_append, List.mem_append] at member
    rcases member with (member | member) | member
    · exact other (outcomeEntries_object member ▸ about)
    · rw [wokenEntries_object member] at about
      cases about
    · rw [gaveEntries_object member] at about
      obtain ⟨s, gives, rfl⟩ := Option.map_eq_some_iff.mp about
      exact other (object_of_givesTo gives)

private theorem aside_interrupt {c : IsrCall} {st : Status} {needsYield : Bool}
    {woken : Option TaskId} {k : Kernel} (linked : Linked y)
    (ran : y.toKernel.isrCall c = some (st, needsYield, woken, k)) (other : c.object ≠ o) :
    Aside y (y.interrupted c st needsYield woken k) o := by
  refine ⟨isr_object ran other, ?_, ?_, .inl ?_, _, rfl, ?_⟩
  · intro h about
    rcases (isr_effect ran).2 with wakes | ⟨_, same⟩
    · apply wakes_items wakes
      rintro rfl
      exact other (c.object_of_signals ▸ about)
    · show k.sched.events.items h = _
      rw [same]
  · intro u
    rw [linked.status_interrupted ran]
    split
    · rename_i now
      subst now
      obtain ⟨b, _, _, waiting, listed⟩ := linked.isr_woken_waiting ran
      refine ended_on waiting ?_
      rw [BlockingCall.object_of_waitList listed, c.object_of_signals]
      exact fun same => other (Option.some.inj same)
    · rfl
  · rcases (isr_effect ran).2 with wakes | ⟨_, same⟩
    · show k.sched.tasks = _
      generalize k.sched = s at wakes
      cases wakes with
      | nobody => rfl
      | first _ woken => exact woken.rest.tasks
    · show k.sched.tasks = _
      rw [same]
  · intro e member about
    rw [List.mem_append, List.mem_cons] at member
    rcases member with (rfl | member) | member
    · exact other (Option.some.inj about)
    · rw [wokenEntries_object member] at about
      cases about
    · rw [gaveEntries_object member] at about
      obtain ⟨s, gives, rfl⟩ := Option.map_eq_some_iff.mp about
      cases c <;> cases gives
      exact other rfl

private theorem aside_finish {b : BlockingCall} {st : Status} {out : Bytes} {k : Kernel}
    (linked : Linked y) (running : y.running = some self) (here : y.pc self = .parked b)
    (ran : y.toKernel.resume self b = some (st, out, k)) (other : b.object ≠ some o) :
    Aside y (y.finished self b st out k) o := by
  have same : (y.finished self b st out k).sched = y.sched := linked.resume_keeps running here ran
  refine ⟨resume_object ran other, fun h _ => by rw [same], ?_, .inl (by rw [same]),
    [.returned self (.blocking b) st out], rfl, ?_⟩
  · intro u
    rw [status_finished ran]
    split
    · rename_i caller
      rw [caller, linked.status_parked running here]
      simp [WaitStatus.on, other]
    · rfl
  · intro e member
    rw [List.mem_singleton] at member
    subst member
    exact other

theorem Quiet.aside (quiet : Quiet y z) (o : Object) : Aside y z o := by
  obtain ⟨entries, log, silent⟩ := quiet.log
  refine ⟨?_, fun h _ => quiet.items h, fun u => by rw [quiet.status], quiet.tasks, entries, log,
    fun e member => by simp [Entry.object_of_silent (silent e member)]⟩
  cases o with
  | mutex m => exact congrFun quiet.mutexes m
  | semaphore s => exact congrFun quiet.semaphores s
  | queue q => exact congrFun quiet.queues q

/-- A step of which `o` is told nothing: neither a tick nor a call on `o`. -/
theorem step_aside (linked : Linked y) {event : Event} (stepped : y.step event = some z)
    (untimed : event ≠ .tick) (interrupts : ∀ c, event = .isr c → c.object ≠ o)
    (calls : ∀ c, event = .call c → c.object ≠ some o)
    (proceeds : ∀ self, event = .proceed → y.running = some self →
      (∀ c, y.pc self = .calling c → c.object ≠ some o) ∧
        ∀ b, y.pc self = .parked b → b.object ≠ some o) : Aside y z o := by
  cases linked.step_made stepped with
  | quiet quiet => exact Quiet.aside quiet o
  | ticks => exact absurd rfl untimed
  | interrupts ran => exact linked.aside_interrupt ran (interrupts _ rfl)
  | calls running here allowed ran =>
    exact linked.aside_enter running (by simp [here]) (status_running (by simp [here, Pc.sleep]))
      allowed ran (calls _ rfl)
  | continues running here ran =>
    exact linked.aside_enter running (by simp [here]) (status_running (by simp [here, Pc.sleep]))
      (allows_internal (linked.internal _ _ here)) ran ((proceeds _ rfl running).1 _ here)
  | finishes running here ran =>
    exact linked.aside_finish running here ran ((proceeds _ rfl running).2 _ here)

/-- Every step, as one object sees it. -/
theorem step_touches (linked : Linked y) {event : Event} (stepped : y.step event = some z)
    (o : Object) : Touches y event o z := by
  cases linked.step_moves stepped with
  | quiet quiet => exact .aside (Quiet.aside quiet o)
  | ticks tick => exact .ticks tick
  | @interrupts c _ _ _ _ ran =>
    by_cases about : c.object = o
    · exact .interrupts about ran
    · exact .aside (linked.aside_interrupt ran about)
  | @enters _ c _ origin running busy awake allowed ran =>
    by_cases about : c.object = some o
    · exact .enters about origin running busy awake allowed ran
    · exact .aside (linked.aside_enter running busy awake allowed ran about)
  | @finishes _ b _ _ _ running here ran origin =>
    by_cases about : b.object = some o
    · exact .finishes about running here ran origin
    · exact .aside (linked.aside_finish running here ran about)

end Linked

/-! ## Counting tasks and entries -/

/-- The number of tasks whose wait satisfies `p`. -/
def System.tally (y : System) (p : WaitStatus → Bool) : Nat :=
  y.sched.tasks.countP fun t => p (y.waitStatus t)

namespace Linked
variable {y z : System} {t : TaskId} {o : Object} {p : WaitStatus → Bool}

/-- No wait moved in or out of `p`, and no created task is in it. -/
theorem tally_same (linked : Linked y) (same : ∀ u, p (z.waitStatus u) = p (y.waitStatus u))
    (resting : p .awake = false)
    (tasks : z.sched.tasks = y.sched.tasks ∨
      ∃ t, t ∉ y.sched.tasks ∧ z.sched.tasks = y.sched.tasks ++ [t]) : z.tally p = y.tally p := by
  unfold tally
  simp only [same]
  rcases tasks with tasks | ⟨t, fresh, tasks⟩
  · rw [tasks]
  · rw [tasks, List.countP_append]
    simp [linked.awake_of_fresh fresh, resting]

/-- One task's wait moved. -/
theorem tally_move (linked : Linked y) (known : (y.sched.tcb t).state ≠ .deleted)
    (others : ∀ u, u ≠ t → p (z.waitStatus u) = p (y.waitStatus u))
    (tasks : z.sched.tasks = y.sched.tasks) :
    z.tally p + (p (y.waitStatus t)).toNat = y.tally p + (p (z.waitStatus t)).toNat := by
  unfold tally
  rw [tasks]
  exact Tally.countP_move linked.distinct ((linked.created t).mpr known) others

theorem tally_aside (linked : Linked y) (aside : Aside y z o)
    (about : ∀ w, p (w.on o) = p w) (resting : p .awake = false) : z.tally p = y.tally p :=
  linked.tally_same (fun u => by rw [← about, aside.status, about]) resting aside.tasks

end Linked

/-- Entries about one object are added by its own calls alone. -/
theorem Aside.countP {y z : System} {o : Object} (aside : Aside y z o) {f : Entry → Bool}
    (about : ∀ e, f e = true → e.object = some o) : z.log.countP f = y.log.countP f := by
  obtain ⟨entries, log, others⟩ := aside.log
  have none : entries.countP f = 0 :=
    List.countP_eq_zero.mpr fun e member counted => others e member (about e counted)
  rw [log, List.countP_append, none, Nat.zero_add]

/-- A tick adds no entry about an object. -/
theorem countP_ticked {y : System} {s : Sched} {o : Object} {f : Entry → Bool}
    (about : ∀ e, f e = true → e.object = some o) :
    (y.ticked s).log.countP f = y.log.countP f := by
  have quiet : ∀ e, e.object = none → f e = false := by
    intro e silent
    by_contra counted
    simp [about e (by simpa using counted)] at silent
  have woken : (y.sched.expired.map (Entry.woken · .tick)).countP f = 0 := by
    rw [List.countP_eq_zero]
    intro e member
    obtain ⟨u, _, rfl⟩ := List.mem_map.mp member
    simp [quiet (.woken u .tick) rfl]
  show (Entry.requested :: y.sched.expired.map (Entry.woken · .tick) ++ .ticked :: y.log).countP f = _
  rw [List.countP_append, List.countP_cons, woken, List.countP_cons, quiet .requested rfl,
    quiet .ticked rfl]
  simp

/-- The waits a tick ends. -/
theorem ended_timeout {p : WaitStatus → Bool}
    (late : ∀ b, p (.woken b .timeout) = p (.waiting b)) (w : WaitStatus) :
    p (w.ended .timeout) = p w := by
  cases w with
  | waiting b => exact late b
  | _ => rfl

/-- The step from `y` to `z` logged `e`. -/
def Logged (y z : System) (e : Entry) : Prop := ∃ entries, z.log = entries ++ y.log ∧ e ∈ entries

theorem logged_iff {y z : System} {entries : List Entry} (log : z.log = entries ++ y.log)
    (e : Entry) : Logged y z e ↔ e ∈ entries := by
  constructor
  · rintro ⟨entries', log', member⟩
    rwa [List.append_cancel_right (log.symm.trans log')]
  · exact fun member => ⟨entries, log, member⟩

theorem Aside.not_logged {y z : System} {o : Object} (aside : Aside y z o) {e : Entry}
    (about : e.object = some o) : ¬ Logged y z e := by
  obtain ⟨entries, log, others⟩ := aside.log
  rw [logged_iff log]
  exact fun member => others e member about

theorem ticked_not_logged {y : System} {s : Sched} {o : Object} {e : Entry}
    (about : e.object = some o) : ¬ Logged y (y.ticked s) e := by
  have log : (y.ticked s).log = (Entry.requested :: y.sched.expired.map (Entry.woken · .tick) ++
      [.ticked]) ++ y.log := by simp [ticked]
  rw [logged_iff log]
  intro member
  simp only [List.cons_append, List.mem_cons, List.mem_append, List.mem_map,
    List.not_mem_nil, or_false] at member
  rcases member with rfl | ⟨u, _, rfl⟩ | rfl <;> cases about

theorem logged_entered {y : System} {self : TaskId} {c : Call} {r : CallResult} (e : Entry) :
    Logged y (y.entered self c r) e ↔ e ∈ outcomeEntries self c r.outcome ++
      wokenEntries r.woken c.signals ++ gaveEntries y.toKernel r.kernel r.woken (givesTo c) :=
  logged_iff rfl e

theorem logged_interrupted {y : System} {c : IsrCall} {st : Status} {needsYield : Bool}
    {woken : Option TaskId} {k : Kernel} (e : Entry) :
    Logged y (y.interrupted c st needsYield woken k) e ↔
      e ∈ .isrReturned c st needsYield :: wokenEntries woken (some c.signals) ++
        gaveEntries y.toKernel k woken (isrGivesTo c) :=
  logged_iff rfl e

theorem logged_finished {y : System} {self : TaskId} {b : BlockingCall} {st : Status} {out : Bytes}
    {k : Kernel} (e : Entry) :
    Logged y (y.finished self b st out k) e ↔ e = .returned self (.blocking b) st out := by
  have log : (y.finished self b st out k).log = [.returned self (.blocking b) st out] ++ y.log := rfl
  rw [logged_iff log, List.mem_singleton]

/-- Entries that the critical sections of calls write. -/
def Entry.ofCall : Entry → Bool
  | .returned _ _ _ _ => true
  | .isrReturned _ _ _ => true
  | .blocked _ _ => true
  | .woken _ (.signal _) => true
  | .gave _ _ => true
  | _ => false

theorem ofCall_woken {k k' : Kernel} {woken : Option TaskId} {h : Option WaitList}
    {given : Option SemaphoreId} :
    ∀ e ∈ wokenEntries woken h ++ gaveEntries k k' woken given, e.ofCall = true := by
  intro e member
  rcases mem_signalEntries member with ⟨_, _, rfl⟩ | ⟨_, _, rfl⟩ <;> rfl

theorem ofCall_entered {self : TaskId} {c : Call} {o : Outcome} {k k' : Kernel} {woken : Option TaskId}
    {h : Option WaitList} {given : Option SemaphoreId} :
    ∀ e ∈ outcomeEntries self c o ++ wokenEntries woken h ++ gaveEntries k k' woken given,
      e.ofCall = true := by
  intro e member
  rw [List.append_assoc] at member
  rcases List.mem_append.mp member with member | member
  · cases o <;> cases c <;> simp [outcomeEntries] at member <;> subst member <;> rfl
  · exact ofCall_woken e member

end NimbleRtos
