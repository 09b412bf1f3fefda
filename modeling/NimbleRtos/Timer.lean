import NimbleRtos.Types

/-! timer.c, one definition for each critical section. The active timers form
one ring; whether the service task must be woken is returned to the caller,
which gives `timer_wake_sem` outside the critical section. -/
namespace NimbleRtos
open NodeRings

/-- `nimble_timer_t` without its link and name; `callback` is 0 for `NULL`. -/
structure Timer where
  periodTicks : Tick := 0
  expiryTick : Tick := 0
  isPeriodic : Bool := false
  isActive : Bool := false
  callback : UInt32 := 0
  arg : UInt32 := 0
  deriving DecidableEq, Repr

/-- Every timer, and the ring `active_timers`. -/
structure Timers where
  timer : TimerId → Timer
  active : Rings Unit TimerId

/-- What one pass of the expiry loop did: found nothing due, or took the head
off and is about to call its callback. -/
inductive Expiry where
  | idle
  | fires (x : TimerId) (callback arg : UInt32)
  deriving DecidableEq, Repr

namespace Timers

/-- `nimble_list_init(&active_timers)` of `nimble_timer_service_start`. -/
def init : Timers := ⟨fun _ => {}, .empty⟩

def setTimer (ts : Timers) (x : TimerId) (timer : Timer) : Timers :=
  { ts with timer := Function.update ts.timer x timer }

/-- The first critical section of the loop in `timer_task_fn`: how long the
service may sleep. -/
def waitTicks (ts : Timers) (now : Tick) : Tick :=
  match ts.active.items () with
  | [] => waitForever
  | head :: _ =>
    let delta := (ts.timer head).expiryTick - now
    if 0 < delta.toInt32 then delta else noWait

/-- `insert_sorted_by_expiry`: before the first timer that expires strictly
later, in the signed wrapping order. -/
def insertSortedByExpiry (ts : Timers) (x : TimerId) : Option Timers := do
  let stop other :=
    decide (((ts.timer x).expiryTick - (ts.timer other).expiryTick).toInt32 < 0)
  let active ← ts.active.insert stop () x
  some { ts with active }

/-- `nimble_timer_init`. The link is made self-linked, which is only defined
for a timer that is not threaded. -/
def timerInit (ts : Timers) (x : TimerId) (periodTicks : Tick) (isPeriodic : Bool)
    (callback arg : UInt32) : Option Timers :=
  if ts.active.ring x = none then
    some (ts.setTimer x { periodTicks, isPeriodic, callback, arg })
  else none

/-- The critical section of `nimble_timer_start`, with `became_new_head`. -/
def timerStart (ts : Timers) (now : Tick) (x : TimerId) : Option (Bool × Timers) := do
  let ts := if (ts.timer x).isActive then { ts with active := ts.active.remove x } else ts
  let timer := ts.timer x
  let ts := ts.setTimer x { timer with expiryTick := now + timer.periodTicks, isActive := true }
  let ts ← ts.insertSortedByExpiry x
  some ((ts.active.items ()).head? = some x, ts)

/-- `nimble_timer_stop`. -/
def timerStop (ts : Timers) (x : TimerId) : Timers :=
  if (ts.timer x).isActive then
    { ts with active := ts.active.remove x }.setTimer x { ts.timer x with isActive := false }
  else ts

/-- The first critical section of `nimble_timer_reset`. -/
def timerReset (ts : Timers) (x : TimerId) (newPeriodTicks : Tick) : Timers :=
  ts.setTimer x { ts.timer x with periodTicks := newPeriodTicks }

/-- The critical section of the expiry loop in `timer_task_fn`. -/
def expire (ts : Timers) (now : Tick) : Option (Expiry × Timers) :=
  match ts.active.items () with
  | [] => some (.idle, ts)
  | head :: _ =>
    let timer := ts.timer head
    if 0 < (timer.expiryTick - now).toInt32 then some (.idle, ts)
    else do
      let ts := { ts with active := ts.active.remove head }
      let fired := Expiry.fires head timer.callback timer.arg
      if timer.isPeriodic then
        let next := timer.expiryTick + timer.periodTicks
        let next := if (next - now).toInt32 < 0 then now + timer.periodTicks else next
        let ts := ts.setTimer head { timer with expiryTick := next }
        let ts ← ts.insertSortedByExpiry head
        some (fired, ts)
      else some (fired, ts.setTimer head { timer with isActive := false })

end Timers
end NimbleRtos
