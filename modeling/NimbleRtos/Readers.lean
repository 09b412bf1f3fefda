import NimbleRtos.QueueFifo
import NimbleRtos.StatusLock

/-! A queue of the demo that an interrupt fills and one task reads. What the task
has been given are the items sent, in order; of these it has the last in hand
from the return of `nimble_queue_receive` to its next statement. -/
namespace NimbleRtos
open NodeRings Sched NimbleRtos.System

private theorem append_filtered {f : Entry → Option Bytes} {entries log : List Entry}
    (silent : ∀ e ∈ entries, f e = none) : (entries ++ log).filterMap f = log.filterMap f := by
  rw [List.filterMap_append, List.filterMap_eq_nil_iff.mpr silent, List.nil_append]

theorem received_append {y z : System} {q : QueueId} (entries : List Entry) (log : z.log = entries ++ y.log)
    (silent : ∀ e ∈ entries, e.receivedItem q = none) : z.received q = y.received q := by
  rw [System.received, System.received, log, append_filtered silent]

theorem sent_append {y z : System} {q : QueueId} (entries : List Entry) (log : z.log = entries ++ y.log)
    (silent : ∀ e ∈ entries, e.sentItem q = none) : z.sent q = y.sent q := by
  rw [System.sent, System.sent, log, append_filtered silent]

theorem sent_cons {y z : System} {q : QueueId} {item : Bytes} {e : Entry} {entries : List Entry}
    (log : z.log = e :: (entries ++ y.log)) (sent : e.sentItem q = some item)
    (silent : ∀ e ∈ entries, e.sentItem q = none) : z.sent q = y.sent q ++ [item] := by
  rw [System.sent, System.sent, log, List.filterMap_cons_some sent, append_filtered silent, List.reverse_cons]

theorem Aside.refl (y : System) (o : Object) : Aside y y o := by
  refine ⟨?_, fun _ _ => rfl, fun _ => rfl, .inl rfl, [], rfl, by simp⟩
  cases o <;> rfl

theorem Aside.received_eq {y z : System} {q : QueueId} (aside : Aside y z (.queue q)) :
    z.received q = y.received q := by
  obtain ⟨entries, log, others⟩ := aside.log
  refine received_append entries log fun e member => Option.eq_none_iff_forall_not_mem.mpr fun _ received => ?_
  exact others e member (receivedItem_object received)

theorem Aside.sent_eq {y z : System} {q : QueueId} (aside : Aside y z (.queue q)) : z.sent q = y.sent q := by
  obtain ⟨entries, log, others⟩ := aside.log
  refine sent_append entries log fun e member => Option.eq_none_iff_forall_not_mem.mpr fun _ sent => ?_
  exact others e member (sentItem_object sent)

/-- The entries of a tick are about no call. -/
theorem of_ticked {y : System} {s : Sched} {f : Entry → Option Bytes} (requested : f .requested = none)
    (woken : ∀ t, f (.woken t .tick) = none) (ticked : f .ticked = none) :
    ∃ entries, (y.ticked s).log = entries ++ y.log ∧ ∀ e ∈ entries, f e = none := by
  refine ⟨.requested :: y.sched.expired.map (.woken · .tick) ++ [.ticked], by simp [System.ticked], ?_⟩
  intro e member
  simp only [List.cons_append, List.mem_cons, List.mem_append, List.mem_map, List.not_mem_nil, or_false] at member
  rcases member with rfl | ⟨t, _, rfl⟩ | rfl
  · exact requested
  · exact woken t
  · exact ticked

theorem woken_result {y : System} {t : TaskId} {b : BlockingCall} {result : Status}
    (woken : y.waitStatus t = .woken b result) : (y.sched.tcb t).lastWaitResult = result := by
  unfold System.waitStatus waitOf at woken
  split at woken
  · cases woken
  · split at woken
    · cases woken
    · exact (WaitStatus.woken.inj woken).2

/-- timer.c uses no queue. -/
theorem internal_queue {c : Call} {q : QueueId} (internal : c.Internal) : c.object ≠ some (.queue q) := by
  intro about
  cases c with
  | blocking b =>
    cases b with
    | queueSend | queueReceive => exact internal.elim
    | _ => cases about
  | _ => cases about

theorem count_pos_of_items {queue : Queue} (items : queue.items ≠ []) : 0 < queue.count := by
  have length : queue.items.length = queue.count.toNat := CircularBuffer.contents_length
  rw [UInt32.lt_iff_toNat_lt, UInt32.toNat_zero, ← length]
  exact List.length_pos_of_ne_nil items

/-- How the interrupt's send ends. -/
theorem send_cases {y z : System} {q : QueueId} {item : Bytes}
    (stepped : y.step (.isr (.queueSendFromIsr q item)) = some z) :
    ((y.queues q).capacity ≤ (y.queues q).count ∧ z.queues q = y.queues q) ∨
      ((y.queues q).count < (y.queues q).capacity ∧ (y.queues q).copyIn item = some (z.queues q)) := by
  cases step_cases stepped with
  | interrupts ran =>
    cases isrCall_spec ran with
    | sends sends =>
      cases sends with
      | refused full => exact .inl ⟨full, by simp [interrupted, Kernel.setQueue]⟩
      | copies room copied =>
        exact .inr ⟨by simpa using room, by simpa [interrupted, Kernel.setQueue] using copied⟩

/-- An interrupt's item is sent if there is room for it. -/
theorem sent_interrupt {y z : System} {q : QueueId} {item : Bytes}
    (stepped : y.step (.isr (.queueSendFromIsr q item)) = some z) :
    z.sent q = y.sent q ++ if (y.queues q).count < (y.queues q).capacity then [item] else [] := by
  cases step_cases stepped with
  | @interrupts _ _ _ woken k ran =>
    have signals : ∀ e ∈ wokenEntries woken (some (.receivers q)) ++ gaveEntries y.toKernel k woken none,
        e.sentItem q = none := by
      intro e member
      rcases mem_signalEntries member with ⟨_, _, rfl⟩ | ⟨_, _, rfl⟩ <;> rfl
    cases isrCall_spec ran with
    | sends sends =>
      cases sends with
      | refused full =>
        rw [if_neg (by simpa using full), List.append_nil]
        exact sent_append _ rfl (List.forall_mem_cons.mpr ⟨rfl, signals⟩)
      | copies room =>
        rw [if_pos (by simpa using room)]
        exact sent_cons (e := .isrReturned (.queueSendFromIsr q item) .ok _) rfl (if_pos rfl) signals

/-- How a receive without a time limit begins. -/
inductive Receives (y : System) (self : TaskId) (q : QueueId) (z : System) : Prop where
  | receives {out : Bytes} (left : 0 < (y.queues q).count)
      (copied : (y.queues q).copyOut = some (out, z.queues q)) (received : z.received q = y.received q ++ [out])
      (thread : z.pc self = .thread) (returned : z.returned self = some (.ok, out))
  | sleeps (none : ¬ 0 < (y.queues q).count) (same : z.queues q = y.queues q)
      (unreceived : z.received q = y.received q)
      (waiting : z.waitStatus self = .waiting (.queueReceive q waitForever))

theorem receives_of_step {y z : System} {self : TaskId} {q : QueueId} (linked : Linked y)
    (running : y.running = some self) (thread : y.pc self = .thread)
    (unsent : y.sched.events.items (.senders q) = [])
    (stepped : y.step (.call (.blocking (.queueReceive q waitForever))) = some z) :
    Receives y self q z ∧ ∀ u, u ≠ self → z.waitStatus u = y.waitStatus u := by
  have busy : ∀ b, y.pc self ≠ .requesting b := by simp [thread]
  cases step_cases stepped with
  | calls running' _ _ allowed ran =>
    obtain rfl := Option.some.inj (running.symm.trans running')
    have status := linked.status_entered running busy allowed ran
    cases call_spec ran with
    | receives receives =>
      cases receives with
      | copies left copied wakes =>
        cases wakes with
        | first shape =>
          rw [unsent] at shape
          cases shape
        | nobody =>
          refine ⟨?_, fun u other => by rw [status, if_neg other]; rfl⟩
          exact .receives left (by simpa [entered, Kernel.setQueue] using copied)
            (by simp [entered, Kernel.sleepOr, outcomeEntries, wokenEntries, gaveEntries, givesTo, System.received,
              Entry.receivedItem])
            (by simp [entered, Kernel.sleepOr, outcomePc])
            (by simp [entered, Kernel.sleepOr, outcomeEntries, System.returned])
      | refused _ hurried => cases hurried
      | sleeps none =>
        refine ⟨?_, fun u other => by rw [status, if_neg other]; rfl⟩
        refine .sleeps none (by simp [entered, Kernel.setQueue]) ?_ ?_
        · simp only [entered, Kernel.sleepOr, outcomeEntries, wokenEntries, gaveEntries, System.received,
            List.append_nil, List.cons_append, List.nil_append]
          rfl
        · rw [status, if_pos rfl]
          rfl

/-- Only a send puts an item in. -/
theorem sent_called {y z : System} {c : Call} {q : QueueId} (stepped : y.step (.call c) = some z)
    (unsent : ∀ item timeoutTicks, c ≠ .blocking (.queueSend q item timeoutTicks)) : z.sent q = y.sent q := by
  have returned : ∀ t st out, (Entry.returned t c st out).sentItem q = none := by
    intro t st out
    refine Option.eq_none_iff_forall_not_mem.mpr fun item sent => ?_
    unfold Entry.sentItem at sent
    split at sent
    · rename_i same
      cases same
      split at sent
      · rename_i here
        exact unsent _ _ (by rw [here])
      · cases sent
    · rename_i same
      cases same
    · cases sent
  cases step_cases stepped with
  | @calls self _ r _ _ _ _ ran =>
    refine sent_append _ rfl ?_
    intro e member
    rw [List.append_assoc] at member
    rcases List.mem_append.mp member with outcome | signals
    · generalize r.outcome = o at outcome
      cases o with
      | returns | switches | fires =>
        obtain rfl := List.mem_singleton.mp outcome
        exact returned _ _ _
      | blocks =>
        cases c with
        | blocking =>
          obtain rfl := List.mem_singleton.mp outcome
          rfl
        | _ => cases outcome
      | calls => cases outcome
    · rcases mem_signalEntries signals with ⟨_, _, rfl⟩ | ⟨_, _, rfl⟩ <;> rfl

namespace PowerSupply
open Port (Placement protection control comms logger timerSvc)

/-- A queue and the task that reads it: where it calls `nimble_queue_receive`,
and where it looks at the result. -/
structure Reader (F : Type) where
  queue : QueueId
  task : TaskId
  calls : Place F
  after : Place F
  isAfter : Place F → Bool
  isAfter_iff : ∀ p, isAfter p = true ↔ p = after

/-- Without a time limit. -/
def Reader.call {F : Type} (r : Reader F) : BlockingCall := .queueReceive r.queue waitForever

/-- ControlTask and its samples. -/
def sampleReader {F : Type} : Reader F where
  queue := adcSampleQueue
  task := control
  calls := .receiveSample
  after := .sampleReceived
  isAfter | .sampleReceived => true | _ => false
  isAfter_iff p := by cases p <;> simp

/-- CommsTask and its bytes. -/
def byteReader {F : Type} : Reader F where
  queue := uartRxQueue
  task := comms
  calls := .receiveByte
  after := .byteReceived
  isAfter | .byteReceived => true | _ => false
  isAfter_iff p := by cases p <;> simp

namespace Demo
variable {F : Type} {scaling : Scaling F} {r : Reader F} {x z : Demo F} {self t : TaskId}

/-- What the reader has been given and has yet to look at. -/
def hand (r : Reader F) (x : Demo F) : List Bytes :=
  if r.isAfter (x.place r.task) ∧ x.system.pc r.task = .thread then [x.received r.task] else []

/-- Nobody but the reader waits for the queue, and it does so where its code has
called. -/
structure Reading (r : Reader F) (x : Demo F) : Prop where
  fifo : Fifo ((boot demoConfig).queues r.queue) r.queue x.system
  sole : ∀ t, (x.system.waitStatus t).on (.queue r.queue) ≠ .awake → t = r.task ∧ x.place r.task = r.after
  asked : x.place r.task = r.after → x.system.Asked r.task r.call
  available : x.system.waitStatus r.task = .woken r.call .ok → 0 < (x.system.queues r.queue).count
  empty : x.system.waitStatus r.task = .waiting r.call → ¬ 0 < (x.system.queues r.queue).count

theorem hand_busy (busy : x.system.pc r.task ≠ .thread) : x.hand r = [] := by
  simp [hand, busy]

theorem hand_elsewhere (place : x.place r.task ≠ r.after) : x.hand r = [] := by
  simp [hand, r.isAfter_iff, place]

theorem hand_given {st : Status} {out : Bytes} (place : x.place r.task = r.after)
    (thread : x.system.pc r.task = .thread) (returned : x.system.returned r.task = some (st, out)) :
    x.hand r = [out] := by
  simp [hand, r.isAfter_iff, place, thread, Demo.received, returned]

namespace Reading

theorem startUp (scaling : Scaling F) (place : Placement)
    (fits : Queue.Fits (demoConfig.queue r.queue).1 (demoConfig.queue r.queue).2.1 (demoConfig.queue r.queue).2.2)
    (elsewhere : entryPlace r.task ≠ r.after) : Reading r (startUp scaling place) := by
  refine ⟨⟨⟨rfl, rfl, rfl⟩, Queue.init_formed fits, rfl⟩, ?_, fun here => absurd here elsewhere, by rintro ⟨⟩,
    by rintro ⟨⟩⟩
  exact fun t engaged => absurd rfl engaged

/-- A receive that ends finds its item. -/
theorem receives_ok (reading : x.Reading r) {st : Status} {out : Bytes} {k : Kernel}
    (woken : x.system.waitStatus r.task = .woken r.call .ok)
    (ran : x.system.toKernel.resume r.task r.call = some (st, out, k)) :
    st = .ok ∧ ∃ s queue, (x.system.queues r.queue).copyOut = some (out, queue) ∧
      k = { x.system.toKernel with sched := s }.setQueue r.queue queue := by
  cases resume_spec ran with
  | receives resumes =>
    cases resumes with
    | late timedOut =>
      rw [woken_result woken] at timedOut
      cases timedOut
    | copies _ _ copied => exact ⟨rfl, _, _, copied, rfl⟩
    | lostRace _ none => exact absurd (reading.available woken) none

theorem uncalled {event : Event} {system : System} (linked : Linked x.system) (uncalled : ∀ c, event ≠ .call c)
    (stepped : x.system.step event = some system) : Uncalled x.system event (.queue r.queue) system :=
  uncalled_touches linked (fun t c here => internal_queue (linked.internal t c here)) uncalled stepped

/-- Whoever is listed for the queue is the reader. -/
theorem listed {h : WaitList} (reading : x.Reading r) (linked : Linked x.system) (about : h.object = .queue r.queue)
    (listed : t ∈ x.system.sched.events.items h) : t = r.task :=
  (reading.sole t (engaged_of_listed linked about listed)).1

/-- Nobody but the interrupt sends. -/
theorem unsent (reading : x.Reading r) (linked : Linked x.system) (awake : x.system.waitStatus r.task = .awake) :
    x.system.sched.events.items (.senders r.queue) = [] := by
  refine List.eq_nil_iff_forall_not_mem.mpr ?_
  intro u member
  obtain rfl := reading.listed linked rfl member
  obtain ⟨b, waiting, _⟩ := linked.listed_waiting.mp member
  rw [awake] at waiting
  cases waiting

/-- Whoever ends a wait for the queue is the reader, in its call. -/
theorem ends (reading : x.Reading r) (linked : Linked x.system) {b : BlockingCall} (here : x.system.pc self = .parked b)
    (running : x.system.running = some self) (about : b.object = some (.queue r.queue)) :
    self = r.task ∧ b = r.call ∧ x.system.waitStatus r.task = .woken r.call .ok := by
  have parked := linked.status_parked running here
  have engaged : (x.system.waitStatus self).on (.queue r.queue) ≠ .awake := by
    rw [parked, WaitStatus.on, if_pos about]
    simp
  obtain ⟨rfl, place⟩ := reading.sole self engaged
  cases reading.asked place with
  | dozes dozes =>
    rcases dozes with waiting | woken
    · rw [waiting] at parked
      cases parked
    · obtain ⟨rfl, _⟩ := WaitStatus.woken.inj (woken.symm.trans parked)
      exact ⟨rfl, rfl, woken⟩
  | answered thread =>
    rw [thread] at here
    cases here

/-- A step that is no call. -/
theorem kernel {event : Event} {system : System} (reading : x.Reading r) (linked : Linked x.system)
    (uncalled : ∀ c, event ≠ .call c) (stepped : x.system.step event = some system) :
    Reading r { x with system } := by
  have sees := Reading.uncalled (r := r) linked uncalled stepped
  refine ⟨reading.fifo.step linked stepped, fun t engaged => reading.sole t (sees.engaged linked engaged), ?_, ?_, ?_⟩
  · intro here
    exact (reading.asked here).step linked rfl rfl stepped (fun _ call => absurd call (uncalled _))
      fun _ _ _ woken ran => (reading.receives_ok woken ran).1
  · intro woken
    dsimp only at woken ⊢
    cases sees with
    | aside aside =>
      rw [show system.queues r.queue = _ from aside.object]
      exact reading.available ((aside.woken_iff rfl).mp woken)
    | ticks tick =>
      rw [linked.status_ticked tick] at woken
      split at woken
      · rcases WaitStatus.of_ended_eq woken with before | ⟨_, timeout⟩
        · exact reading.available before
        · cases timeout
      · exact reading.available woken
    | interrupts _ about ran =>
      have status := linked.status_interrupted ran r.task
      cases isrCall_spec ran with
      | gives => cases about
      | sends sends =>
        cases about
        cases sends with
        | refused =>
          rw [if_neg (by simp)] at status
          rw [status] at woken
          simpa [interrupted, Kernel.setQueue] using reading.available woken
        | copies room copied =>
          obtain ⟨_, _, items⟩ := reading.fifo.formed.copyIn (by simpa using room) copied
          simpa [interrupted, Kernel.setQueue] using count_pos_of_items (by rw [items]; simp)
    | finishes _ about running here ran =>
      obtain ⟨rfl, _⟩ := reading.ends linked here running about
      rw [Linked.status_finished ran, if_pos rfl] at woken
      cases woken
  · intro waiting
    dsimp only at waiting ⊢
    cases sees with
    | aside aside =>
      rw [show system.queues r.queue = _ from aside.object]
      exact reading.empty ((aside.waiting_iff rfl).mp waiting)
    | ticks tick =>
      rw [linked.status_ticked tick] at waiting
      split at waiting
      · exact absurd waiting WaitStatus.ended_ne_waiting
      · exact reading.empty waiting
    | interrupts _ about ran =>
      have status := linked.status_interrupted ran r.task
      rw [status] at waiting
      split at waiting
      · exact absurd waiting WaitStatus.ended_ne_waiting
      rename_i unwoken
      cases isrCall_spec ran with
      | gives => cases about
      | sends sends =>
        cases about
        cases sends with
        | refused => simpa [interrupted, Kernel.setQueue] using reading.empty waiting
        | copies _ _ wakes =>
          have listed : r.task ∈ x.system.sched.events.items (.receivers r.queue) :=
            linked.listed_waiting.mpr ⟨r.call, waiting, rfl⟩
          cases wakes with
          | nobody none =>
            rw [none] at listed
            cases listed
          | @first t _ _ shape =>
            have first : t ∈ x.system.sched.events.items (.receivers r.queue) := by simp [shape]
            exact absurd (congrArg some (reading.listed linked rfl first)) unwoken
    | finishes _ about running here ran =>
      obtain ⟨rfl, _⟩ := reading.ends linked here running about
      rw [Linked.status_finished ran, if_pos rfl] at waiting
      cases waiting

/-- A statement of `self` that has nothing to do with the queue. -/
theorem moved (reading : x.Reading r) (thread : x.system.pc self = .thread)
    (fifo : Fifo ((boot demoConfig).queues r.queue) r.queue z.system)
    (aside : Aside x.system z.system (.queue r.queue))
    (bystands : ∀ t, t ≠ self → x.system.pc t = .thread →
      z.system.pc t = .thread ∧ z.system.returned t = x.system.returned t)
    (place : ∀ t, t ≠ self → z.place t = x.place t) (onward : z.place self ≠ r.after) : z.Reading r := by
  have awake : x.system.waitStatus self = .awake := Linked.status_running (by rw [thread]; rfl)
  refine ⟨fifo, ?_, ?_, ?_, ?_⟩
  · intro t engaged
    rw [aside.status] at engaged
    obtain ⟨rfl, here⟩ := reading.sole t engaged
    have other : r.task ≠ self := by
      intro same
      rw [same, awake] at engaged
      exact engaged rfl
    exact ⟨rfl, (place _ other).trans here⟩
  · intro here
    have other : r.task ≠ self := fun same => onward (same ▸ here)
    exact (reading.asked ((place _ other).symm.trans here)).aside rfl aside (bystands _ other)
  · intro woken
    rw [show z.system.queues r.queue = _ from aside.object]
    exact reading.available ((aside.woken_iff rfl).mp woken)
  · intro waiting
    rw [show z.system.queues r.queue = _ from aside.object]
    exact reading.empty ((aside.waiting_iff rfl).mp waiting)

/-- A call about something else. -/
theorem called {c : Call} {there : Place F} {system : System} (reading : x.Reading r) (linked : Linked x.system)
    (running : x.system.running = some self) (thread : x.system.pc self = .thread)
    (apart : c.object ≠ some (.queue r.queue)) (stepped : x.system.step (.call c) = some system)
    (onward : there ≠ r.after) : Reading r { x with system, place := Function.update x.place self there } := by
  refine reading.moved thread (reading.fifo.step linked stepped)
    (linked.step_aside stepped (by simp) (by simp) (by rintro _ ⟨⟩; exact apart) (by simp)) ?_
    (fun t other => Function.update_of_ne other _ _) (by simpa using onward)
  intro t other thread
  refine step_bystander stepped thread ?_
  rintro _ _ again
  exact other (Option.some.inj (again.symm.trans running))

/-- A statement without the kernel. -/
theorem stayed (reading : x.Reading r) (thread : x.system.pc self = .thread) (system : z.system = x.system)
    (place : ∀ t, t ≠ self → z.place t = x.place t) (onward : z.place self ≠ r.after) : z.Reading r := by
  refine reading.moved thread (by rw [system]; exact reading.fifo) (by rw [system]; exact .refl _ _) ?_ place onward
  exact fun _ _ thread => by rw [system]; exact ⟨thread, rfl⟩

/-- The reader calls. -/
theorem receives {system : System} (reading : x.Reading r) (linked : Linked x.system)
    (running : x.system.running = some r.task) (thread : x.system.pc r.task = .thread)
    (stepped : x.system.step (.call (.blocking r.call)) = some system) :
    Reading r { x with system, place := Function.update x.place r.task r.after } := by
  have awake : x.system.waitStatus r.task = .awake := Linked.status_running (by rw [thread]; rfl)
  obtain ⟨receives, others⟩ := receives_of_step linked running thread (reading.unsent linked awake) stepped
  refine ⟨reading.fifo.step linked stepped, ?_, ?_, ?_, ?_⟩
  · intro t engaged
    by_cases mine : t = r.task
    · exact ⟨mine, by simp⟩
    · rw [others t mine] at engaged
      exact absurd (reading.sole t engaged).1 mine
  · intro _
    cases receives with
    | receives _ _ _ thread returned => exact .answered thread returned
    | sleeps _ _ _ waiting => exact .dozes (.inl waiting)
  · intro woken
    dsimp only at woken
    cases receives with
    | receives _ _ _ thread =>
      rw [Linked.status_running (by rw [thread]; rfl)] at woken
      cases woken
    | sleeps _ _ _ waiting =>
      rw [waiting] at woken
      cases woken
  · intro waiting
    dsimp only at waiting ⊢
    cases receives with
    | receives _ _ _ thread =>
      rw [Linked.status_running (by rw [thread]; rfl)] at waiting
      cases waiting
    | sleeps none same =>
      rw [same]
      exact none

/-! ## What is sent -/

/-- Without an interrupt that sends, nothing is. -/
theorem sent_kernel {event : Event} {system : System} (reading : x.Reading r) (linked : Linked x.system)
    (uncalled : ∀ c, event ≠ .call c) (silent : ∀ item, event ≠ .isr (.queueSendFromIsr r.queue item))
    (stepped : x.system.step event = some system) : system.sent r.queue = x.system.sent r.queue := by
  cases Reading.uncalled (r := r) linked uncalled stepped with
  | aside aside => exact aside.sent_eq
  | ticks =>
    obtain ⟨entries, log, silent⟩ := of_ticked (f := Entry.sentItem r.queue) rfl (fun _ => rfl) rfl
    exact sent_append entries log silent
  | @interrupts c _ _ _ _ origin about =>
    cases c with
    | semaphoreGiveFromIsr => cases about
    | queueSendFromIsr =>
      cases about
      exact absurd origin (silent _)
  | finishes _ about running here =>
    obtain ⟨rfl, rfl, _⟩ := reading.ends linked here running about
    exact sent_append [_] rfl (by simp [Entry.sentItem, Reader.call])

/-! ## What the reader is given -/

/-- At its next statement the reader has an item in hand, and knows it. -/
theorem given (reading : x.Reading r) (place : x.place r.task = r.after) (thread : x.system.pc r.task = .thread) :
    x.succeeded r.task = true ∧ x.hand r = [x.received r.task] := by
  cases reading.asked place with
  | dozes dozes => exact absurd thread dozes.busy
  | answered _ returned =>
    refine ⟨by simp [succeeded, returned], ?_⟩
    rw [hand_given place thread returned, Demo.received, returned]
    rfl

/-- While the reader waits, it has been given everything sent. -/
theorem idle (reading : x.Reading r) (waiting : x.system.waitStatus r.task = .waiting r.call) :
    x.place r.task = r.after ∧ x.hand r ++ (x.system.queues r.queue).items = [] := by
  have engaged : (x.system.waitStatus r.task).on (.queue r.queue) ≠ .awake := by
    rw [waiting, WaitStatus.on, if_pos (show r.call.object = some (.queue r.queue) from rfl)]
    simp
  have items : (x.system.queues r.queue).items = [] := by
    by_contra items
    exact reading.empty waiting (count_pos_of_items items)
  exact ⟨(reading.sole _ engaged).2, by rw [hand_busy (Dozes.busy (.inl waiting)), items]; rfl⟩

/-- What is in hand stays, unless the reader goes on. -/
theorem hand_stays {event : Event} (reading : x.Reading r) (linked : Linked x.system)
    (stepped : x.system.step event = some z.system) (place : z.place r.task = x.place r.task)
    (other : ∀ c, event = .call c → x.system.running ≠ some r.task)
    (unreturned : ¬ Returns x.system r.task r.call event z.system) : z.hand r = x.hand r := by
  by_cases here : x.place r.task = r.after
  · cases reading.asked here with
    | dozes dozes =>
      rcases dozes.step linked rfl rfl stepped with still | returns
      · rw [hand_busy dozes.busy, hand_busy still.busy]
      · exact absurd returns unreturned
    | answered thread returned =>
      obtain ⟨thread', same⟩ := step_bystander stepped thread other
      rw [hand_given here thread returned, hand_given (place.trans here) thread' (same.trans returned)]
  · rw [hand_elsewhere here, hand_elsewhere (by rw [place]; exact here)]

/-- A call about something else gives it nothing. -/
theorem flow_called {c : Call} {there : Place F} {system : System} (reading : x.Reading r) (linked : Linked x.system)
    (running : x.system.running = some self) (apart : c.object ≠ some (.queue r.queue))
    (stepped : x.system.step (.call c) = some system) (before : self = r.task → x.place self ≠ r.after)
    (onward : there ≠ r.after) : system.received r.queue = x.system.received r.queue ∧
      hand r { x with system, place := Function.update x.place self there } = x.hand r := by
  have aside : Aside x.system system (.queue r.queue) :=
    linked.step_aside stepped (by simp) (by simp) (by rintro _ ⟨⟩; exact apart) (by simp)
  refine ⟨aside.received_eq, ?_⟩
  by_cases mine : self = r.task
  · subst mine
    rw [hand_elsewhere (x := x) (before rfl), hand_elsewhere (by simpa using onward)]
  · refine reading.hand_stays linked stepped (Function.update_of_ne (Ne.symm mine) _ _) ?_ ?_
    · rintro _ _ again
      exact mine (Option.some.inj (running.symm.trans again))
    · rintro ⟨⟩

/-- So does a statement without the kernel. -/
theorem hand_stayed (system : z.system = x.system) (place : ∀ t, t ≠ self → z.place t = x.place t)
    (before : self = r.task → x.place self ≠ r.after) (onward : z.place self ≠ r.after) : z.hand r = x.hand r := by
  by_cases mine : self = r.task
  · subst mine
    rw [hand_elsewhere (x := x) (before rfl), hand_elsewhere onward]
  · unfold hand Demo.received
    rw [system, place _ (Ne.symm mine)]

/-- A step that is no call gives the reader an item at most. -/
theorem flow_kernel {event : Event} {system : System} (reading : x.Reading r) (linked : Linked x.system)
    (uncalled : ∀ c, event ≠ .call c) (stepped : x.system.step event = some system) :
    ∃ new, system.received r.queue = x.system.received r.queue ++ new ∧
      hand r { x with system } = x.hand r ++ new := by
  have others : ∀ c, event = .call c → x.system.running ≠ some r.task := fun c call => absurd call (uncalled c)
  by_cases returns : Returns x.system r.task r.call event system
  · cases returns with
    | @intro st out k running here woken ran =>
      obtain ⟨rfl, _⟩ := reading.receives_ok woken ran
      have engaged : (x.system.waitStatus r.task).on (.queue r.queue) ≠ .awake := by
        rw [woken, WaitStatus.on, if_pos (show r.call.object = some (.queue r.queue) from rfl)]
        simp
      refine ⟨[out], by simp [finished, System.received, Entry.receivedItem, Reader.call], ?_⟩
      rw [hand_busy (x := x) (by simp [here]), List.nil_append]
      exact hand_given (reading.sole _ engaged).2 (by simp [finished]) returned_finished
  · refine ⟨[], ?_, ?_⟩
    · rw [List.append_nil]
      cases Reading.uncalled (r := r) linked uncalled stepped with
      | aside aside => exact aside.received_eq
      | ticks =>
        obtain ⟨entries, log, silent⟩ := of_ticked (f := Entry.receivedItem r.queue) rfl (fun _ => rfl) rfl
        exact received_append entries log silent
      | @interrupts =>
        refine received_append _ rfl (List.forall_mem_cons.mpr ⟨rfl, ?_⟩)
        intro e member
        rcases mem_signalEntries member with ⟨_, _, rfl⟩ | ⟨_, _, rfl⟩ <;> rfl
      | finishes origin about running here ran =>
        obtain ⟨rfl, rfl, woken⟩ := reading.ends linked here running about
        subst origin
        exact absurd (.intro running here woken ran) returns
    · rw [List.append_nil]
      exact reading.hand_stays linked stepped rfl others returns

/-- So does the reader's own call. -/
theorem flow_receives {system : System} (reading : x.Reading r) (linked : Linked x.system)
    (running : x.system.running = some r.task) (thread : x.system.pc r.task = .thread)
    (stepped : x.system.step (.call (.blocking r.call)) = some system) :
    ∃ new, system.received r.queue = x.system.received r.queue ++ new ∧
      hand r { x with system, place := Function.update x.place r.task r.after } = new := by
  have awake : x.system.waitStatus r.task = .awake := Linked.status_running (by rw [thread]; rfl)
  cases (receives_of_step linked running thread (reading.unsent linked awake) stepped).1 with
  | @receives out _ _ received thread returned =>
    exact ⟨[out], received, hand_given (by simp) thread returned⟩
  | sleeps _ _ unreceived waiting =>
    exact ⟨[], by rw [unreceived, List.append_nil], hand_busy (Dozes.busy (.inl waiting))⟩

end Reading
end Demo
end PowerSupply
end NimbleRtos
