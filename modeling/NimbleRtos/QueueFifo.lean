import NimbleRtos.Foundation.CircularBuffer
import NimbleRtos.Objects

/-! A queue's ring buffer as a bounded FIFO of items. The abstract queue is a
list; a copy in appends to it, a copy out takes its first element, and every
other step leaves it alone. -/
namespace NimbleRtos
open NodeRings Sched CircularBuffer NimbleRtos.System

namespace Queue

/-- The items in the buffer, oldest first. -/
def items (x : Queue) : List Bytes :=
  contents x.itemSize.toNat x.capacity.toNat x.buffer x.head.toNat x.count.toNat

/-- The buffer holds `capacity` items, at offsets that fit in 32 bits. -/
structure Fits (buffer : Bytes) (itemSize capacity : UInt32) : Prop where
  inside : itemSize.toNat * capacity.toNat ≤ buffer.length
  word : itemSize.toNat * capacity.toNat < 2 ^ 32

/-- The indices delimit `count` slots inside the buffer. -/
structure WellFormed (x : Queue) : Prop where
  fits : Fits x.buffer x.itemSize x.capacity
  bound : x.count ≤ x.capacity
  head : 0 < x.capacity → x.head < x.capacity
  tail : 0 < x.capacity → x.tail.toNat = (x.head.toNat + x.count.toNat) % x.capacity.toNat

/-- The parameters `nimble_queue_init` was given. -/
structure SameShape (x x' : Queue) : Prop where
  length : x'.buffer.length = x.buffer.length
  itemSize : x'.itemSize = x.itemSize
  capacity : x'.capacity = x.capacity

variable {x x' : Queue} {item out : Bytes}

private theorem positive_iff {n : UInt32} : 0 < n ↔ 0 < n.toNat := by
  simp [UInt32.lt_iff_toNat_lt]

/-- The offset of a slot below the capacity does not overflow. -/
private theorem offset_toNat (fits : Fits x.buffer x.itemSize x.capacity) {i : UInt32}
    (below : i < x.capacity) : (i * x.itemSize).toNat = i.toNat * x.itemSize.toNat := by
  have below := UInt32.lt_iff_toNat_lt.mp below
  have apart := slots_apart x.itemSize.toNat below
  have word := fits.word
  rw [Nat.mul_comm x.itemSize.toNat] at word
  rw [UInt32.toNat_mul, Nat.mod_eq_of_lt (by omega)]

private theorem succ_toNat {i n : UInt32} (below : i < n) : (i + 1).toNat = i.toNat + 1 := by
  have below := UInt32.lt_iff_toNat_lt.mp below
  have bound := n.toNat_lt
  rw [UInt32.toNat_add, UInt32.toNat_one, Nat.mod_eq_of_lt (by omega)]

/-- `advance` below the capacity is the successor modulo the capacity. -/
private theorem advance_of_lt {i capacity : UInt32} (below : i < capacity) :
    ∃ j, advance i capacity = some j ∧ j < capacity ∧
      j.toNat = (i.toNat + 1) % capacity.toNat := by
  have positive : 0 < capacity.toNat :=
    Nat.zero_lt_of_lt (UInt32.lt_iff_toNat_lt.mp below)
  have nonzero : capacity ≠ 0 := fun zero => by simp [zero] at positive
  have next : ((i + 1) % capacity).toNat = (i.toNat + 1) % capacity.toNat := by
    rw [UInt32.toNat_mod, succ_toNat below]
  refine ⟨_, if_neg nonzero, ?_, next⟩
  rw [UInt32.lt_iff_toNat_lt, next]
  exact Nat.mod_lt _ positive

namespace WellFormed

theorem tail_lt (formed : WellFormed x) (positive : 0 < x.capacity) : x.tail < x.capacity := by
  rw [UInt32.lt_iff_toNat_lt, formed.tail positive]
  exact Nat.mod_lt _ (positive_iff.mp positive)

/-- A copy in appends the item. -/
theorem copyIn (formed : WellFormed x) (room : x.count < x.capacity)
    (copied : x.copyIn item = some x') :
    WellFormed x' ∧ SameShape x x' ∧ x'.items = x.items ++ [item] := by
  have room' := UInt32.lt_iff_toNat_lt.mp room
  have positive : 0 < x.capacity := positive_iff.mpr (Nat.zero_lt_of_lt room')
  have below := formed.tail_lt positive
  unfold Queue.copyIn at copied
  split at copied
  · rename_i size
    simp only [Option.bind_eq_bind, Option.bind_eq_some_iff, Option.some.injEq] at copied
    obtain ⟨buffer, stored, tail, advanced, rfl⟩ := copied
    obtain ⟨j, moved, bounded, next⟩ := advance_of_lt below
    obtain rfl : j = tail := Option.some.inj (moved.symm.trans advanced)
    have overwritten : buffer = overwrite x.buffer (x.tail.toNat * x.itemSize.toNat) item := by
      rw [offset_toNat formed.fits below] at stored
      unfold store at stored
      split at stored
      · exact (Option.some.inj stored).symm
      · cases stored
    have inside := slot_inside (UInt32.lt_iff_toNat_lt.mp below) formed.fits.inside
    have length : buffer.length = x.buffer.length := by
      rw [overwritten, overwrite_length (by omega)]
    refine ⟨⟨⟨by rw [length]; exact formed.fits.inside, formed.fits.word⟩, ?_, formed.head,
      fun _ => ?_⟩, ⟨length, rfl, rfl⟩, ?_⟩
    · rw [UInt32.le_iff_toNat_le]
      show (x.count + 1).toNat ≤ x.capacity.toNat
      rw [succ_toNat room]
      exact room'
    · show j.toNat = (x.head.toNat + (x.count + 1).toNat) % x.capacity.toNat
      rw [next, formed.tail positive, succ_toNat room, Nat.mod_add_mod, Nat.add_assoc]
    · show contents _ _ buffer x.head.toNat (x.count + 1).toNat = _
      rw [succ_toNat room, overwritten, formed.tail positive]
      exact contents_push room' size formed.fits.inside
  · cases copied

/-- A copy out takes the oldest item. -/
theorem copyOut (formed : WellFormed x) (someLeft : 0 < x.count)
    (copied : x.copyOut = some (out, x')) :
    WellFormed x' ∧ SameShape x x' ∧ x.items = out :: x'.items := by
  have someLeft' := positive_iff.mp someLeft
  have bound := UInt32.le_iff_toNat_le.mp formed.bound
  have positive : 0 < x.capacity := positive_iff.mpr (by omega)
  have below := formed.head positive
  have below' := UInt32.lt_iff_toNat_lt.mp below
  simp only [Queue.copyOut, Option.bind_eq_bind, Option.bind_eq_some_iff, Option.some.injEq,
    Prod.mk.injEq] at copied
  obtain ⟨item, loaded, head, advanced, rfl, rfl⟩ := copied
  obtain ⟨j, moved, bounded, next⟩ := advance_of_lt below
  obtain rfl : j = head := Option.some.inj (moved.symm.trans advanced)
  have first : item = slot x.itemSize.toNat x.buffer (x.head.toNat % x.capacity.toNat) := by
    rw [offset_toNat formed.fits below] at loaded
    rw [Nat.mod_eq_of_lt below']
    unfold load at loaded
    split at loaded
    · exact (Option.some.inj loaded).symm
    · cases loaded
  have lowered : (x.count - 1).toNat = x.count.toNat - 1 := by
    have := x.count.toNat_lt
    rw [UInt32.toNat_sub, UInt32.toNat_one]
    omega
  have count : x.count.toNat = (x.count - 1).toNat + 1 := by omega
  refine ⟨⟨formed.fits, ?_, fun _ => bounded, ?_⟩, ⟨rfl, rfl, rfl⟩, ?_⟩
  · rw [UInt32.le_iff_toNat_le]
    show (x.count - 1).toNat ≤ x.capacity.toNat
    omega
  · intro _
    show x.tail.toNat = (j.toNat + (x.count - 1).toNat) % x.capacity.toNat
    rw [formed.tail positive, next, Nat.mod_add_mod, count]
    congr 1
    omega
  · show contents _ _ _ _ _ = item :: contents _ _ x.buffer j.toNat (x.count - 1).toNat
    rw [first, next, count]
    exact contents_pop

/-- Where the code copies in, the store is inside the buffer and the modulus
is not zero. -/
theorem copyIn_defined (formed : WellFormed x) (room : x.count < x.capacity)
    (size : item.length = x.itemSize.toNat) : (x.copyIn item).isSome = true := by
  have positive : 0 < x.capacity :=
    positive_iff.mpr (Nat.zero_lt_of_lt (UInt32.lt_iff_toNat_lt.mp room))
  have below := formed.tail_lt positive
  have inside := slot_inside (UInt32.lt_iff_toNat_lt.mp below) formed.fits.inside
  obtain ⟨j, moved, _⟩ := advance_of_lt below
  simp [Queue.copyIn, size, store, offset_toNat formed.fits below, inside, moved]

/-- So it is where the code copies out. -/
theorem copyOut_defined (formed : WellFormed x) (someLeft : 0 < x.count) :
    x.copyOut.isSome = true := by
  have someLeft := positive_iff.mp someLeft
  have bound := UInt32.le_iff_toNat_le.mp formed.bound
  have below := formed.head (positive_iff.mpr (by omega))
  have inside := slot_inside (UInt32.lt_iff_toNat_lt.mp below) formed.fits.inside
  obtain ⟨j, moved, _⟩ := advance_of_lt below
  simp [Queue.copyOut, load, offset_toNat formed.fits below, inside, moved]

end WellFormed

theorem init_formed {buffer : Bytes} {itemSize capacity : UInt32}
    (fits : Fits buffer itemSize capacity) : WellFormed (init buffer itemSize capacity) :=
  ⟨fits, UInt32.zero_le, fun positive => positive, fun _ => by simp [init]⟩

end Queue

/-! ## Runs -/

/-- The item of a send on `q` that returned `NIMBLE_OK`. -/
def Entry.sentItem (q : QueueId) : Entry → Option Bytes
  | .returned _ (.blocking (.queueSend q' item _)) .ok _ => if q' = q then some item else none
  | .isrReturned (.queueSendFromIsr q' item) .ok _ => if q' = q then some item else none
  | _ => none

/-- The item a receive on `q` that returned `NIMBLE_OK` copied out. -/
def Entry.receivedItem (q : QueueId) : Entry → Option Bytes
  | .returned _ (.blocking (.queueReceive q' _)) .ok out => if q' = q then some out else none
  | _ => none

/-- A call that returns anything but `NIMBLE_OK`, or goes to sleep. -/
def Entry.unserved : Entry → Bool
  | .returned _ _ st _ => st ≠ .ok
  | .isrReturned _ st _ => st ≠ .ok
  | .blocked _ _ => true
  | _ => false

/-- Items in the order of their copies in. -/
def System.sent (y : System) (q : QueueId) : List Bytes :=
  (y.log.filterMap (Entry.sentItem q)).reverse

/-- Items in the order of their copies out. -/
def System.received (y : System) (q : QueueId) : List Bytes :=
  (y.log.filterMap (Entry.receivedItem q)).reverse

theorem sentItem_object {q : QueueId} {e : Entry} {item : Bytes} (sent : e.sentItem q = some item) :
    e.object = some (.queue q) := by
  unfold Entry.sentItem at sent
  split at sent
  all_goals first | cases sent | skip
  all_goals
    split at sent
    · rename_i same; subst same; rfl
    · cases sent

theorem receivedItem_object {q : QueueId} {e : Entry} {item : Bytes}
    (received : e.receivedItem q = some item) : e.object = some (.queue q) := by
  unfold Entry.receivedItem at received
  split at received
  · split at received
    · rename_i same; subst same; rfl
    · cases received
  · cases received

/-- What a step that logs `entries` did to queue `q`. -/
inductive Copies (q : QueueId) (x : Queue) (entries : List Entry) : Queue → Prop where
  | keeps (unsent : entries.filterMap (Entry.sentItem q) = [])
      (unreceived : entries.filterMap (Entry.receivedItem q) = []) : Copies q x entries x
  | puts {item : Bytes} {x' : Queue} (room : x.count < x.capacity)
      (copied : x.copyIn item = some x') (sent : entries.filterMap (Entry.sentItem q) = [item])
      (unreceived : entries.filterMap (Entry.receivedItem q) = [])
      (served : ∀ e ∈ entries, e.object = some (.queue q) → e.unserved = false) :
      Copies q x entries x'
  | gets {out : Bytes} {x' : Queue} (someLeft : 0 < x.count)
      (copied : x.copyOut = some (out, x')) (unsent : entries.filterMap (Entry.sentItem q) = [])
      (received : entries.filterMap (Entry.receivedItem q) = [out])
      (served : ∀ e ∈ entries, e.object = some (.queue q) → e.unserved = false) :
      Copies q x entries x'

namespace Linked
variable {y z : System} {self : TaskId} {q : QueueId}

/-- The entries a step logs that is not a call on `q`. -/
private theorem copies_aside (aside : Aside y z (.queue q)) :
    ∃ entries, z.log = entries ++ y.log ∧ Copies q (y.queues q) entries (z.queues q) := by
  obtain ⟨entries, log, others⟩ := aside.log
  refine ⟨entries, log, ?_⟩
  rw [show z.queues q = y.queues q from aside.object]
  refine .keeps (List.filterMap_eq_nil_iff.mpr ?_)
    (List.filterMap_eq_nil_iff.mpr ?_)
  · intro e member
    exact Option.eq_none_iff_forall_not_mem.mpr fun _ sent => others e member (sentItem_object sent)
  · intro e member
    exact Option.eq_none_iff_forall_not_mem.mpr fun _ received =>
      others e member (receivedItem_object received)

private theorem copies_call {c : Call} {r : CallResult} (about : c.object = some (.queue q))
    (ran : y.toKernel.call self c = some r) :
    Copies q (y.queues q) (outcomeEntries self c r.outcome ++ wokenEntries r.woken c.signals ++
      gaveEntries y.toKernel r.kernel r.woken (givesTo c)) (r.kernel.queues q) := by
  cases call_spec ran with
  | @sends q' item timeoutTicks st woken x s sends =>
    obtain rfl : q' = q := by simpa [Call.object, BlockingCall.object] using about
    cases sends with
    | copies room copied =>
      refine .puts room (by simpa [Kernel.setQueue] using copied) ?_ ?_ ?_ <;>
        cases woken <;> simp [Kernel.sleepOr, outcomeEntries, wokenEntries, Call.signals, givesTo,
          gaveEntries, Entry.sentItem, Entry.receivedItem, Entry.unserved]
    | refused | sleeps =>
      simp only [Kernel.setQueue, Function.update_self]
      refine .keeps ?_ ?_ <;> simp [Kernel.sleepOr, outcomeEntries, wokenEntries, givesTo,
        gaveEntries, Entry.sentItem, Entry.receivedItem]
  | @receives q' timeoutTicks st out woken x s receives =>
    obtain rfl : q' = q := by simpa [Call.object, BlockingCall.object] using about
    cases receives with
    | copies someLeft copied =>
      refine .gets someLeft (by simpa [Kernel.setQueue] using copied) ?_ ?_ ?_ <;>
        cases woken <;> simp [Kernel.sleepOr, outcomeEntries, wokenEntries, Call.signals, givesTo,
          gaveEntries, Entry.sentItem, Entry.receivedItem, Entry.unserved]
    | refused | sleeps =>
      simp only [Kernel.setQueue, Function.update_self]
      refine .keeps ?_ ?_ <;> simp [Kernel.sleepOr, outcomeEntries, wokenEntries, givesTo,
        gaveEntries, Entry.sentItem, Entry.receivedItem]
  | _ => cases about

private theorem copies_isr {c : IsrCall} {st : Status} {needsYield : Bool}
    {woken : Option TaskId} {k : Kernel} (about : c.object = .queue q)
    (ran : y.toKernel.isrCall c = some (st, needsYield, woken, k)) :
    Copies q (y.queues q) (.isrReturned c st needsYield :: wokenEntries woken (some c.signals) ++
      gaveEntries y.toKernel k woken (isrGivesTo c)) (k.queues q) := by
  cases isrCall_spec ran with
  | gives => cases about
  | @sends q' item _ _ x s sends =>
    obtain rfl : q' = q := by simpa [IsrCall.object] using about
    cases sends with
    | copies room copied =>
      refine .puts (by simpa using room) (by simpa [Kernel.setQueue] using copied) ?_ ?_ ?_ <;>
        cases woken <;> simp [wokenEntries, isrGivesTo, gaveEntries, Entry.sentItem,
          Entry.receivedItem, Entry.unserved]
    | refused =>
      simp only [Kernel.setQueue, Function.update_self]
      refine .keeps ?_ ?_ <;> simp [wokenEntries, isrGivesTo, gaveEntries, Entry.sentItem,
        Entry.receivedItem]

private theorem copies_resume {b : BlockingCall} {st : Status} {out : Bytes} {k : Kernel}
    (about : b.object = some (.queue q)) (ran : y.toKernel.resume self b = some (st, out, k)) :
    Copies q (y.queues q) [.returned self (.blocking b) st out] (k.queues q) := by
  cases resume_spec ran with
  | @sends q' item _ _ x resumes =>
    obtain rfl : q' = q := by simpa [BlockingCall.object] using about
    cases resumes with
    | copies _ room copied =>
      refine .puts room (by simpa [Kernel.setQueue] using copied) ?_ ?_ ?_ <;>
        simp [Entry.sentItem, Entry.receivedItem, Entry.unserved]
    | late | lostRace =>
      simp only [Kernel.setQueue, Function.update_self]
      exact .keeps (by simp [Entry.sentItem]) (by simp [Entry.receivedItem])
  | @receives q' _ _ _ x resumes =>
    obtain rfl : q' = q := by simpa [BlockingCall.object] using about
    cases resumes with
    | copies _ someLeft copied =>
      refine .gets someLeft (by simpa [Kernel.setQueue] using copied) ?_ ?_ ?_ <;>
        simp [Entry.sentItem, Entry.receivedItem, Entry.unserved]
    | late | lostRace =>
      simp only [Kernel.setQueue, Function.update_self]
      exact .keeps (by simp [Entry.sentItem]) (by simp [Entry.receivedItem])
  | _ => cases about

/-- Every step copies one item in, or one out, or leaves `q` alone. -/
theorem step_copies (linked : Linked y) {event : Event} (stepped : y.step event = some z)
    (q : QueueId) :
    ∃ entries, z.log = entries ++ y.log ∧ Copies q (y.queues q) entries (z.queues q) := by
  cases linked.step_touches stepped (.queue q) with
  | aside aside => exact copies_aside aside
  | @ticks s ticked =>
    refine ⟨.requested :: y.sched.expired.map (.woken · .tick) ++ [.ticked],
      by simp [System.ticked], .keeps ?_ ?_⟩ <;>
    · rw [List.filterMap_eq_nil_iff]
      intro e member
      simp only [List.cons_append, List.mem_cons, List.mem_append, List.mem_map,
        List.not_mem_nil, or_false] at member
      rcases member with rfl | ⟨u, _, rfl⟩ | rfl <;> rfl
  | interrupts about ran => exact ⟨_, rfl, copies_isr about ran⟩
  | enters about _ _ _ _ _ ran => exact ⟨_, rfl, copies_call about ran⟩
  | finishes about _ _ ran => exact ⟨[_], rfl, copies_resume about ran⟩

end Linked

namespace Queue

theorem SameShape.trans {x x' x'' : Queue} (first : SameShape x x') (second : SameShape x' x'') :
    SameShape x x'' :=
  ⟨second.length.trans first.length, second.itemSize.trans first.itemSize,
    second.capacity.trans first.capacity⟩

end Queue

/-- The sent items are the received ones followed by those in the buffer. -/
structure Fifo (initial : Queue) (q : QueueId) (y : System) : Prop where
  shape : Queue.SameShape initial (y.queues q)
  formed : (y.queues q).WellFormed
  balance : y.sent q = y.received q ++ (y.queues q).items

theorem Fifo.step {initial : Queue} {q : QueueId} {y z : System} {event : Event}
    (fifo : Fifo initial q y) (linked : Linked y) (stepped : y.step event = some z) :
    Fifo initial q z := by
  obtain ⟨shape, formed, balance⟩ := fifo
  obtain ⟨entries, log, copies⟩ := linked.step_copies stepped q
  have sent : z.sent q = y.sent q ++ (entries.filterMap (Entry.sentItem q)).reverse := by
    simp [System.sent, log]
  have received :
      z.received q = y.received q ++ (entries.filterMap (Entry.receivedItem q)).reverse := by
    simp [System.received, log]
  obtain ⟨x', queue⟩ : ∃ x', z.queues q = x' := ⟨_, rfl⟩
  rw [queue] at copies
  cases copies with
  | keeps unsent unreceived =>
    refine ⟨queue ▸ shape, queue ▸ formed, ?_⟩
    rw [sent, received, unsent, unreceived, queue, balance]
    simp
  | puts room copied sentOne unreceived =>
    obtain ⟨formed', shape', items⟩ := formed.copyIn room copied
    refine ⟨queue ▸ shape.trans shape', queue ▸ formed', ?_⟩
    rw [sent, received, sentOne, unreceived, queue, balance, items]
    simp
  | gets someLeft copied unsent receivedOne =>
    obtain ⟨formed', shape', items⟩ := formed.copyOut someLeft copied
    refine ⟨queue ▸ shape.trans shape', queue ▸ formed', ?_⟩
    rw [sent, received, unsent, receivedOne, queue, balance, items]
    simp

theorem fifo_of_run {cfg : Config} {guard : System → Event → Prop} {y : System}
    (run : KernelRun cfg guard y) (q : QueueId)
    (fits : Queue.Fits (cfg.queue q).1 (cfg.queue q).2.1 (cfg.queue q).2.2) :
    Fifo ((boot cfg).queues q) q y := by
  have strong := run.strengthen fun _ => linked_of_run
  refine strong.invariant _ ⟨⟨rfl, rfl, rfl⟩, Queue.init_formed fits, rfl⟩
    fun _ _ _ fifo meets stepped => fifo.step meets.2 stepped

/-- What a whole run guarantees for queue `q`, started with the parameters of
`cfg`. -/
structure BoundedFifo (cfg : Config) (q : QueueId) (y : System) : Prop where
  balance : y.sent q = y.received q ++ (y.queues q).items
  held : (y.queues q).items.length = (y.queues q).count.toNat
  parameters : (y.queues q).itemSize = (cfg.queue q).2.1 ∧ (y.queues q).capacity = (cfg.queue q).2.2 ∧
    (y.queues q).buffer.length = (cfg.queue q).1.length
  bound : (y.queues q).count ≤ (cfg.queue q).2.2
  indices : 0 < (cfg.queue q).2.2 →
    (y.queues q).head < (cfg.queue q).2.2 ∧ (y.queues q).tail < (cfg.queue q).2.2
  copiesIn : ∀ item : Bytes, (y.queues q).count < (y.queues q).capacity →
    item.length = (y.queues q).itemSize.toNat → ((y.queues q).copyIn item).isSome = true
  copiesOut : 0 < (y.queues q).count → (y.queues q).copyOut.isSome = true
  unserved : ∀ event z e, y.step event = some z → Logged y z e → e.object = some (.queue q) →
    e.unserved = true → z.queues q = y.queues q

/-- The ring buffer is a bounded FIFO in every run: whatever tasks and
interrupts send and receive, with whatever timeouts, in whatever order. -/
theorem queue_is_fifo {cfg : Config} {y : System} (run : KernelRun cfg GuardedRun.Free y)
    (q : QueueId) (fits : Queue.Fits (cfg.queue q).1 (cfg.queue q).2.1 (cfg.queue q).2.2) :
    BoundedFifo cfg q y := by
  have linked := linked_of_run run
  obtain ⟨shape, formed, balance⟩ := fifo_of_run run q fits
  have capacity : (y.queues q).capacity = (cfg.queue q).2.2 := shape.capacity
  refine ⟨balance, contents_length, ⟨shape.itemSize, capacity, shape.length⟩,
    capacity ▸ formed.bound, ?_, fun _ => formed.copyIn_defined,
    formed.copyOut_defined, ?_⟩
  · intro positive
    rw [← capacity] at positive ⊢
    exact ⟨formed.head positive, formed.tail_lt positive⟩
  · intro event z e stepped logged about unserved
    obtain ⟨entries, log, copies⟩ := linked.step_copies stepped q
    rw [logged_iff log] at logged
    generalize z.queues q = x' at copies ⊢
    cases copies with
    | keeps => rfl
    | puts _ _ _ _ served | gets _ _ _ _ served =>
      rw [served e logged about] at unserved
      cases unserved

/-- A queue of two three-byte items. -/
def twoItems : Config where
  queue _ := ([0, 0, 0, 0, 0, 0], 3, 2)

/-- The indices wrap, an interrupt finds the queue full, and a sender blocked
on it is served after a receive. -/
def wrapAround : List Event :=
  [.create ⟨some 1, 1, 1, 64, 2⟩, .create ⟨some 2, 1, 1, 64, 1⟩, .start,
    .isr (.queueSendFromIsr 0 [1, 2, 3]), .isr (.queueSendFromIsr 0 [4, 5, 6]),
    .isr (.queueSendFromIsr 0 [7, 8, 9]), .call (.blocking (.queueSend 0 [7, 8, 9] 5)), .proceed,
    .pendSV, .call (.blocking (.queueReceive 0 0)), .proceed, .pendSV, .proceed,
    .call (.blocking (.queueReceive 0 0))]

set_option maxRecDepth 10000 in
theorem wrapAround_fifo :
    ∃ y, GuardedRun.exec System.step GuardedRun.Free (boot twoItems) wrapAround = some y ∧
      BoundedFifo twoItems 0 y := by
  obtain ⟨y, ran⟩ := Option.isSome_iff_exists.mp
    (by decide +kernel : (GuardedRun.exec System.step GuardedRun.Free (boot twoItems)
      wrapAround).isSome = true)
  exact ⟨y, ran, queue_is_fifo (GuardedRun.run_of_exec ran) 0 ⟨by decide, by decide⟩⟩

end NimbleRtos
