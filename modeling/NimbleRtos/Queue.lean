import NimbleRtos.SchedulerProofs

/-! queue.c, one definition for each critical section. The wait lists of
queue `q` are the rings at `WaitList.receivers q` and `WaitList.senders q`. -/
namespace NimbleRtos

open Sched

abbrev Bytes := List UInt8

/-- `nimble_queue_t` without its wait lists, over the bytes of its buffer. -/
structure Queue where
  buffer : Bytes
  itemSize : UInt32
  capacity : UInt32
  count : UInt32
  head : UInt32
  tail : UInt32
  deriving DecidableEq, Repr

namespace Queue

/-- `nimble_queue_init`. -/
def init (buffer : Bytes) (itemSize capacity : UInt32) : Queue :=
  ⟨buffer, itemSize, capacity, 0, 0, 0⟩

/-- `memcpy` of `bytes` into the buffer at `offset`; no result when an access
would leave the buffer. -/
def store (buffer : Bytes) (offset : Nat) (bytes : Bytes) : Option Bytes :=
  if offset + bytes.length ≤ buffer.length then
    some (buffer.take offset ++ bytes ++ buffer.drop (offset + bytes.length))
  else none

/-- `memcpy` of `size` bytes out of the buffer at `offset`. -/
def load (buffer : Bytes) (offset size : Nat) : Option Bytes :=
  if offset + size ≤ buffer.length then some ((buffer.drop offset).take size) else none

/-- `(index + 1) % capacity`, undefined for a zero capacity. -/
def advance (index capacity : UInt32) : Option UInt32 :=
  if capacity = 0 then none else some ((index + 1) % capacity)

/-- `copy_in`. The item a caller passes has `item_size` bytes; with any other
length the read would leave the caller's object. -/
def copyIn (x : Queue) (item : Bytes) : Option Queue :=
  if item.length = x.itemSize.toNat then do
    let buffer ← store x.buffer (x.tail * x.itemSize).toNat item
    let tail ← advance x.tail x.capacity
    some { x with buffer, tail, count := x.count + 1 }
  else none

/-- `copy_out`, with the bytes written to `out_item`. -/
def copyOut (x : Queue) : Option (Bytes × Queue) := do
  let item ← load x.buffer (x.head * x.itemSize).toNat x.itemSize.toNat
  let head ← advance x.head x.capacity
  some (item, { x with head, count := x.count - 1 })

/-- `nimble_queue_send` up to its context-switch request, with the receiver it
woke. The status is `none` when the caller has been put to sleep. -/
def send (q : QueueId) (x : Queue) (s : Sched) (self : TaskId) (item : Bytes)
    (timeoutTicks : Tick) : Option (Option Status × Option TaskId × Queue × Sched) :=
  if x.count < x.capacity then do
    let x ← x.copyIn item
    let (woken, s) ← s.wakeWaiter (.receivers q)
    some (some .ok, woken, x, s)
  else if timeoutTicks = noWait then some (some .full, none, x, s)
  else do
    let s ← s.insertWaiterPrioritySorted (.senders q) self
    let s ← s.prepareBlock self timeoutTicks
    some (none, none, x, s)

/-- `nimble_queue_send` once the sleeper runs again. -/
def sendResumed (x : Queue) (s : Sched) (self : TaskId) (item : Bytes) :
    Option (Status × Queue × Sched) :=
  let s := { s with events := s.events.remove self }
  if (s.tcb self).lastWaitResult = .timeout then some (.timeout, x, s)
  else if x.count < x.capacity then do
    let x ← x.copyIn item
    some (.ok, x, s)
  else some (.full, x, s)

/-- `nimble_queue_receive` up to its context-switch request, with the bytes
copied out and the sender it woke. -/
def receive (q : QueueId) (x : Queue) (s : Sched) (self : TaskId) (timeoutTicks : Tick) :
    Option (Option Status × Bytes × Option TaskId × Queue × Sched) :=
  if 0 < x.count then do
    let (item, x) ← x.copyOut
    let (woken, s) ← s.wakeWaiter (.senders q)
    some (some .ok, item, woken, x, s)
  else if timeoutTicks = noWait then some (some .empty, [], none, x, s)
  else do
    let s ← s.insertWaiterPrioritySorted (.receivers q) self
    let s ← s.prepareBlock self timeoutTicks
    some (none, [], none, x, s)

/-- `nimble_queue_receive` once the sleeper runs again. -/
def receiveResumed (x : Queue) (s : Sched) (self : TaskId) :
    Option (Status × Bytes × Queue × Sched) :=
  let s := { s with events := s.events.remove self }
  if (s.tcb self).lastWaitResult = .timeout then some (.timeout, [], x, s)
  else if 0 < x.count then do
    let (item, x) ← x.copyOut
    some (.ok, item, x, s)
  else some (.empty, [], x, s)

/-- `nimble_queue_send_from_isr`; `*needs_yield` says whether a receiver was
woken. -/
def sendFromIsr (q : QueueId) (x : Queue) (s : Sched) (item : Bytes) :
    Option (Status × Bool × Option TaskId × Queue × Sched) :=
  if x.capacity ≤ x.count then some (.full, false, none, x, s)
  else do
    let x ← x.copyIn item
    let (woken, s) ← s.wakeWaiter (.receivers q)
    some (.ok, woken.isSome, woken, x, s)

variable {q : QueueId} {x x' : Queue} {s s' : Sched} {self : TaskId} {timeoutTicks : Tick}
  {item out : Bytes} {woken : Option TaskId}

/-- The ways a send call's first critical section can end. -/
inductive Sends (q : QueueId) (x : Queue) (s : Sched) (self : TaskId) (item : Bytes)
    (timeoutTicks : Tick) : Option Status → Option TaskId → Queue → Sched → Prop where
  | copies {x' : Queue} {woken : Option TaskId} {s' : Sched} (room : x.count < x.capacity)
      (copied : x.copyIn item = some x') (wakes : Wakes s (.receivers q) woken s') :
      Sends q x s self item timeoutTicks (some .ok) woken x' s'
  | refused (full : ¬ x.count < x.capacity) (hurried : timeoutTicks = noWait) :
      Sends q x s self item timeoutTicks (some .full) none x s
  | sleeps {s' : Sched} (full : ¬ x.count < x.capacity) (patient : timeoutTicks ≠ noWait)
      (unlisted : s.events.ring self = none)
      (slept : Slept (s.enqueued (.senders q) self) self (s.deadline timeoutTicks) s') :
      Sends q x s self item timeoutTicks none none x s'

theorem send_spec {st : Option Status}
    (sent : send q x s self item timeoutTicks = some (st, woken, x', s')) :
    Sends q x s self item timeoutTicks st woken x' s' := by
  unfold send at sent
  split at sent
  · simp only [Option.bind_eq_bind, Option.bind_eq_some_iff, Prod.exists, Option.some.injEq,
      Prod.mk.injEq] at sent
    obtain ⟨_, copied, _, _, woke, rfl, rfl, rfl, rfl⟩ := sent
    exact .copies ‹_› copied (wakeWaiter_spec woke)
  · split at sent
    · cases sent; exact .refused ‹_› ‹_›
    · simp only [Option.bind_eq_bind, Option.bind_eq_some_iff, insertWaiter_eq_some,
        Option.some.injEq, Prod.mk.injEq] at sent
      obtain ⟨_, ⟨unlisted, rfl⟩, _, blocked, rfl, rfl, rfl, rfl⟩ := sent
      exact .sleeps ‹_› ‹_› unlisted (prepareBlock_spec blocked)

/-- The ways a receive call's first critical section can end. -/
inductive Receives (q : QueueId) (x : Queue) (s : Sched) (self : TaskId) (timeoutTicks : Tick) :
    Option Status → Bytes → Option TaskId → Queue → Sched → Prop where
  | copies {x' : Queue} {out : Bytes} {woken : Option TaskId} {s' : Sched}
      (some_left : 0 < x.count) (copied : x.copyOut = some (out, x')) (wakes : Wakes s (.senders q) woken s') :
      Receives q x s self timeoutTicks (some .ok) out woken x' s'
  | refused (none_left : ¬ 0 < x.count) (hurried : timeoutTicks = noWait) :
      Receives q x s self timeoutTicks (some .empty) [] none x s
  | sleeps {s' : Sched} (none_left : ¬ 0 < x.count) (patient : timeoutTicks ≠ noWait)
      (unlisted : s.events.ring self = none)
      (slept : Slept (s.enqueued (.receivers q) self) self (s.deadline timeoutTicks) s') :
      Receives q x s self timeoutTicks none [] none x s'

theorem receive_spec {st : Option Status}
    (received : receive q x s self timeoutTicks = some (st, out, woken, x', s')) :
    Receives q x s self timeoutTicks st out woken x' s' := by
  unfold receive at received
  split at received
  · simp only [Option.bind_eq_bind, Option.bind_eq_some_iff, Prod.exists, Option.some.injEq,
      Prod.mk.injEq] at received
    obtain ⟨_, _, copied, _, _, woke, rfl, rfl, rfl, rfl, rfl⟩ := received
    exact .copies ‹_› copied (wakeWaiter_spec woke)
  · split at received
    · cases received; exact .refused ‹_› ‹_›
    · simp only [Option.bind_eq_bind, Option.bind_eq_some_iff, insertWaiter_eq_some,
        Option.some.injEq, Prod.mk.injEq] at received
      obtain ⟨_, ⟨unlisted, rfl⟩, _, blocked, rfl, rfl, rfl, rfl, rfl⟩ := received
      exact .sleeps ‹_› ‹_› unlisted (prepareBlock_spec blocked)

/-- The ways a woken sender can end. -/
inductive SendResumes (x : Queue) (s : Sched) (self : TaskId) (item : Bytes) :
    Status → Queue → Prop where
  | late (timedOut : (s.tcb self).lastWaitResult = .timeout) : SendResumes x s self item .timeout x
  | copies {x' : Queue} (signalled : (s.tcb self).lastWaitResult ≠ .timeout)
      (room : x.count < x.capacity) (copied : x.copyIn item = some x') : SendResumes x s self item .ok x'
  | lostRace (signalled : (s.tcb self).lastWaitResult ≠ .timeout) (full : ¬ x.count < x.capacity) :
      SendResumes x s self item .full x

theorem sendResumed_spec {st : Status} (resumed : sendResumed x s self item = some (st, x', s')) :
    s' = { s with events := s.events.remove self } ∧ SendResumes x s self item st x' := by
  unfold sendResumed at resumed
  dsimp only at resumed
  split at resumed
  · cases resumed; exact ⟨rfl, .late ‹_›⟩
  · split at resumed
    · simp only [Option.bind_eq_bind, Option.bind_eq_some_iff, Option.some.injEq,
        Prod.mk.injEq] at resumed
      obtain ⟨_, copied, rfl, rfl, rfl⟩ := resumed
      exact ⟨rfl, .copies ‹_› ‹_› copied⟩
    · cases resumed; exact ⟨rfl, .lostRace ‹_› ‹_›⟩

/-- The ways a woken receiver can end. -/
inductive ReceiveResumes (x : Queue) (s : Sched) (self : TaskId) : Status → Bytes → Queue → Prop where
  | late (timedOut : (s.tcb self).lastWaitResult = .timeout) : ReceiveResumes x s self .timeout [] x
  | copies {x' : Queue} {out : Bytes} (signalled : (s.tcb self).lastWaitResult ≠ .timeout)
      (some_left : 0 < x.count) (copied : x.copyOut = some (out, x')) : ReceiveResumes x s self .ok out x'
  | lostRace (signalled : (s.tcb self).lastWaitResult ≠ .timeout) (none_left : ¬ 0 < x.count) :
      ReceiveResumes x s self .empty [] x

theorem receiveResumed_spec {st : Status}
    (resumed : receiveResumed x s self = some (st, out, x', s')) :
    s' = { s with events := s.events.remove self } ∧ ReceiveResumes x s self st out x' := by
  unfold receiveResumed at resumed
  dsimp only at resumed
  split at resumed
  · cases resumed; exact ⟨rfl, .late ‹_›⟩
  · split at resumed
    · simp only [Option.bind_eq_bind, Option.bind_eq_some_iff, Option.some.injEq,
        Prod.exists, Prod.mk.injEq] at resumed
      obtain ⟨_, _, copied, rfl, rfl, rfl, rfl⟩ := resumed
      exact ⟨rfl, .copies ‹_› ‹_› copied⟩
    · cases resumed; exact ⟨rfl, .lostRace ‹_› ‹_›⟩

/-- The ways a send from an interrupt can end. -/
inductive IsrSends (q : QueueId) (x : Queue) (s : Sched) (item : Bytes) :
    Status → Option TaskId → Queue → Sched → Prop where
  | refused (full : x.capacity ≤ x.count) : IsrSends q x s item .full none x s
  | copies {x' : Queue} {woken : Option TaskId} {s' : Sched} (room : ¬ x.capacity ≤ x.count)
      (copied : x.copyIn item = some x') (wakes : Wakes s (.receivers q) woken s') :
      IsrSends q x s item .ok woken x' s'

theorem sendFromIsr_spec {st : Status} {needsYield : Bool}
    (sent : sendFromIsr q x s item = some (st, needsYield, woken, x', s')) :
    needsYield = woken.isSome ∧ IsrSends q x s item st woken x' s' := by
  unfold sendFromIsr at sent
  split at sent
  · cases sent; exact ⟨rfl, .refused ‹_›⟩
  · simp only [Option.bind_eq_bind, Option.bind_eq_some_iff, Prod.exists, Option.some.injEq,
      Prod.mk.injEq] at sent
    obtain ⟨_, copied, _, _, woke, rfl, rfl, rfl, rfl, rfl⟩ := sent
    exact ⟨rfl, .copies ‹_› copied (wakeWaiter_spec woke)⟩

end Queue
end NimbleRtos
