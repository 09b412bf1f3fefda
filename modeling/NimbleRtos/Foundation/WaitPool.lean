/-! A pool of units, and tasks that wait for one. An offer adds a unit and
signals one waiter, which takes a unit only once it runs again, and may find
that another task took it first. No wake-up is lost as long as a pool with
waiters has a signalled task for every unit. -/
namespace WaitPool

structure Pool where
  available : Nat
  waiting : Nat
  signalled : Nat

/-- Waiting is justified: each unit has a task on its way to it. -/
def Pool.Covered (p : Pool) : Prop := p.waiting ≠ 0 → p.available ≤ p.signalled

/-- What one step does to a pool. -/
inductive Move (p p' : Pool) : Prop where
  | still (available : p'.available = p.available) (waiting : p'.waiting = p.waiting)
      (signalled : p'.signalled = p.signalled)
  /-- A unit is added and a waiter signalled. -/
  | offers (available : p'.available = p.available + 1) (waiting : p.waiting = p'.waiting + 1)
      (signalled : p'.signalled = p.signalled + 1)
  /-- A unit is added, with nobody to signal. -/
  | stores (nobody : p'.waiting = 0)
  | takes (available : p'.available ≤ p.available) (waiting : p'.waiting = p.waiting)
      (signalled : p'.signalled = p.signalled)
  | sleeps (exhausted : p'.available = 0)
  /-- Waiters give up. -/
  | expires (available : p'.available = p.available) (waiting : p'.waiting ≤ p.waiting)
      (signalled : p'.signalled = p.signalled)
  /-- A signalled task takes a unit. -/
  | serves (available : p.available = p'.available + 1) (waiting : p'.waiting = p.waiting)
      (signalled : p.signalled = p'.signalled + 1)
  /-- A signalled task finds none. -/
  | loses (exhausted : p'.available = 0)

theorem Pool.Covered.move {p p' : Pool} (covered : p.Covered) (moved : Move p p') : p'.Covered := by
  unfold Pool.Covered at *
  intro someone
  cases moved with
  | still available waiting signalled => rw [available, signalled]; exact covered (waiting ▸ someone)
  | offers available waiting signalled =>
    have := covered (by omega)
    omega
  | stores nobody => exact absurd nobody someone
  | takes available waiting signalled =>
    have := covered (waiting ▸ someone)
    omega
  | sleeps exhausted | loses exhausted => rw [exhausted]; exact Nat.zero_le _
  | expires available waiting signalled =>
    have := covered (by omega)
    omega
  | serves available waiting signalled =>
    have := covered (waiting ▸ someone)
    omega

/-- With nobody on the way, nobody waits for a unit that is there. -/
theorem Pool.Covered.settled {p : Pool} (covered : p.Covered) (nobody : p.signalled = 0)
    (left : 0 < p.available) : p.waiting = 0 := by
  rcases Nat.eq_zero_or_pos p.waiting with none | someone
  · exact none
  · have := covered (Nat.ne_of_gt someone)
    omega

end WaitPool
