import NimbleRtos.Objects

/-! Mutex ownership over whole runs. Each task's balance of lock calls that
returned or were granted against unlock calls that returned is what the mutex
records: `lock_count` for the owner and nothing for anyone else. -/
namespace NimbleRtos
open NodeRings Sched NimbleRtos.System

/-- A lock call of `t` that returned `NIMBLE_OK`. -/
def Entry.lockedBy (m : MutexId) (t : TaskId) : Entry → Bool
  | .returned u (.blocking (.mutexLock m' _)) .ok _ => u = t && m' = m
  | _ => false

/-- An unlock call of `t` that returned `NIMBLE_OK`. -/
def Entry.unlockedBy (m : MutexId) (t : TaskId) : Entry → Bool
  | .returned u (.mutexUnlock m') .ok _ => u = t && m' = m
  | _ => false

/-- The waiter was handed the mutex and has not resumed yet. -/
def WaitStatus.handedMutex (m : MutexId) : WaitStatus → Bool
  | .woken (.mutexLock m' _) .ok => m' = m
  | _ => false

@[simp] theorem lockedBy_returned {m m' : MutexId} {t u : TaskId} {d : Tick} {st : Status}
    {out : Bytes} : (Entry.returned u (.blocking (.mutexLock m' d)) st out).lockedBy m t =
      (decide (st = .ok) && decide (u = t) && decide (m' = m)) := by
  cases st <;> simp [Entry.lockedBy]

@[simp] theorem unlockedBy_returned {m m' : MutexId} {t u : TaskId} {st : Status} {out : Bytes} :
    (Entry.returned u (.mutexUnlock m') st out).unlockedBy m t =
      (decide (st = .ok) && decide (u = t) && decide (m' = m)) := by
  cases st <;> simp [Entry.unlockedBy]

@[simp] theorem lockedBy_unlock {m m' : MutexId} {t u : TaskId} {st : Status} {out : Bytes} :
    (Entry.returned u (.mutexUnlock m') st out).lockedBy m t = false := rfl

@[simp] theorem unlockedBy_lock {m : MutexId} {t u : TaskId} {b : BlockingCall} {st : Status}
    {out : Bytes} : (Entry.returned u (.blocking b) st out).unlockedBy m t = false := rfl

@[simp] theorem lockedBy_blocked {m : MutexId} {t u : TaskId} {b : BlockingCall} :
    (Entry.blocked u b).lockedBy m t = false := rfl

@[simp] theorem lockedBy_woken {m : MutexId} {t u : TaskId} {w : Waker} :
    (Entry.woken u w).lockedBy m t = false := rfl

@[simp] theorem unlockedBy_blocked {m : MutexId} {t u : TaskId} {b : BlockingCall} :
    (Entry.blocked u b).unlockedBy m t = false := rfl

@[simp] theorem unlockedBy_woken {m : MutexId} {t u : TaskId} {w : Waker} :
    (Entry.woken u w).unlockedBy m t = false := rfl

/-- What the mutex records of `t`. -/
def Mutex.holds (x : Mutex) (t : TaskId) : Nat := if x.owner = some t then x.lockCount.toNat else 0

theorem Mutex.holds_owner {x : Mutex} {t : TaskId} (mine : x.owner = some t) :
    x.holds t = x.lockCount.toNat := if_pos mine

theorem Mutex.holds_other {x : Mutex} {t u : TaskId} (mine : x.owner = some t) (other : t ≠ u) :
    x.holds u = 0 := if_neg fun same => other (Option.some.inj (mine.symm.trans same))

theorem Mutex.holds_free {x : Mutex} {t : TaskId} (free : x.owner = none) : x.holds t = 0 :=
  if_neg (by simp [free])

/-- The record of mutex `m` agrees with the calls made on it. -/
structure Owned (m : MutexId) (y : System) : Prop where
  balance : ∀ t, y.log.countP (Entry.lockedBy m t) + ((y.waitStatus t).handedMutex m).toNat =
    y.log.countP (Entry.unlockedBy m t) + (y.mutexes m).holds t
  empty : (y.mutexes m).owner = none ↔ (y.mutexes m).lockCount = 0
  unowned : (y.mutexes m).owner = none → y.sched.events.items (.mutex m) = []
  handed : ∀ t d, y.waitStatus t = .woken (.mutexLock m d) .ok → (y.mutexes m).owner = some t
  waiting : ∀ t d, y.waitStatus t = .waiting (.mutexLock m d) → (y.mutexes m).owner ≠ some t
  late : ∀ t d result, y.waitStatus t = .woken (.mutexLock m d) result → result ≠ .ok →
    (y.mutexes m).owner ≠ some t

theorem lockedBy_object {m : MutexId} {t : TaskId} (e : Entry) (locked : e.lockedBy m t = true) :
    e.object = some (.mutex m) := by
  unfold Entry.lockedBy at locked
  split at locked
  · simp only [Bool.and_eq_true, decide_eq_true_eq] at locked
    rw [← locked.2]; rfl
  · cases locked

theorem unlockedBy_object {m : MutexId} {t : TaskId} (e : Entry)
    (unlocked : e.unlockedBy m t = true) : e.object = some (.mutex m) := by
  unfold Entry.unlockedBy at unlocked
  split at unlocked
  · simp only [Bool.and_eq_true, decide_eq_true_eq] at unlocked
    rw [← unlocked.2]; rfl
  · cases unlocked

theorem handedMutex_on (m : MutexId) (w : WaitStatus) :
    (w.on (.mutex m)).handedMutex m = w.handedMutex m := by
  cases w with
  | woken b result =>
    cases b with
    | mutexLock m' d =>
      by_cases same : m' = m
      · simp [WaitStatus.on, BlockingCall.object, same]
      · cases result <;> simp [WaitStatus.on, BlockingCall.object, same, WaitStatus.handedMutex]
    | _ => simp [WaitStatus.on, BlockingCall.object, WaitStatus.handedMutex]
  | waiting b => simp only [WaitStatus.on]; split <;> rfl
  | awake => rfl

namespace Owned
variable {m : MutexId} {y z : System}

/-- A step that leaves the owner alone keeps the record once the balance is
kept: it may put others to sleep and time sleepers out, but hands over nothing. -/
private theorem keep (owned : Owned m y) (owner : (z.mutexes m).owner = (y.mutexes m).owner)
    (zero : (z.mutexes m).lockCount = 0 ↔ (y.mutexes m).lockCount = 0)
    (items : (y.mutexes m).owner = none → z.sched.events.items (.mutex m) = [])
    (waits : ∀ t d, z.waitStatus t = .waiting (.mutexLock m d) →
      y.waitStatus t = .waiting (.mutexLock m d) ∨ (y.mutexes m).owner ≠ some t)
    (wakes : ∀ t d result, z.waitStatus t = .woken (.mutexLock m d) result →
      y.waitStatus t = .woken (.mutexLock m d) result ∨
        y.waitStatus t = .waiting (.mutexLock m d) ∧ result ≠ .ok)
    (balance : ∀ t, z.log.countP (Entry.lockedBy m t) + ((z.waitStatus t).handedMutex m).toNat =
      z.log.countP (Entry.unlockedBy m t) + (z.mutexes m).holds t) : Owned m z := by
  refine ⟨balance, by rw [owner, zero]; exact owned.empty, by rw [owner]; exact items,
    ?_, ?_, ?_⟩
  · intro t d now
    rw [owner]
    rcases wakes t d .ok now with before | ⟨_, timedOut⟩
    · exact owned.handed t d before
    · exact absurd rfl timedOut
  · intro t d now
    rw [owner]
    exact (waits t d now).elim (owned.waiting t d) id
  · intro t d result now other
    rw [owner]
    rcases wakes t d result now with before | ⟨before, _⟩
    · exact owned.late t d result before other
    · exact owned.waiting t d before

private theorem aside (owned : Owned m y) (aside : Aside y z (.mutex m)) : Owned m z := by
  have same : z.mutexes m = y.mutexes m := aside.object
  refine owned.keep (by rw [same]) (by rw [same]) ?_
    (fun t d now => .inl ((aside.waiting_iff rfl).mp now))
    (fun t d result now => .inl ((aside.woken_iff rfl).mp now)) ?_
  · rw [aside.items _ rfl]
    exact owned.unowned
  · intro t
    rw [aside.countP lockedBy_object, aside.countP unlockedBy_object, same,
      ← handedMutex_on m (z.waitStatus t), aside.status, handedMutex_on]
    exact owned.balance t

private theorem tick {s : Sched} (owned : Owned m y) (linked : Linked y)
    (tick : y.sched.tick = some s) : Owned m (y.ticked s) := by
  have scanned := tick_spec tick
  have status := linked.status_ticked tick
  refine owned.keep rfl .rfl ?_ ?_ ?_ ?_
  · intro free
    show s.events.items _ = []
    rw [scanned.eventItems]
    exact List.filter_eq_nil_iff.mpr
      (by simp [show y.sched.events.items _ = [] from owned.unowned free])
  · intro t d now
    rw [status] at now
    split at now
    · exact absurd now WaitStatus.ended_ne_waiting
    · exact .inl now
  · intro t d result now
    rw [status] at now
    split at now
    · refine (WaitStatus.of_ended_eq now).imp_right fun ⟨waiting, timedOut⟩ => ⟨waiting, ?_⟩
      rw [timedOut]
      decide
    · exact .inl now
  · intro t
    have handed : ((y.ticked s).waitStatus t).handedMutex m = (y.waitStatus t).handedMutex m := by
      rw [status]
      split
      · exact ended_timeout (fun b => by cases b <;> rfl) _
      · rfl
    rw [countP_ticked lockedBy_object, countP_ticked unlockedBy_object, handed]
    exact owned.balance t

/-- The balance after a call that hands nothing over: only the caller's moves,
by what the call took and gave back. -/
private theorem rebalance {self : TaskId} (owned : Owned m y) (taken given : Nat)
    (locked : ∀ t, z.log.countP (Entry.lockedBy m t) =
      y.log.countP (Entry.lockedBy m t) + if self = t then taken else 0)
    (unlocked : ∀ t, z.log.countP (Entry.unlockedBy m t) =
      y.log.countP (Entry.unlockedBy m t) + if self = t then given else 0)
    (handed : ∀ t, (z.waitStatus t).handedMutex m = (y.waitStatus t).handedMutex m)
    (caller : (z.mutexes m).holds self + given = (y.mutexes m).holds self + taken)
    (others : ∀ t, self ≠ t → (z.mutexes m).holds t = (y.mutexes m).holds t) (t : TaskId) :
    z.log.countP (Entry.lockedBy m t) + ((z.waitStatus t).handedMutex m).toNat =
      z.log.countP (Entry.unlockedBy m t) + (z.mutexes m).holds t := by
  have old := owned.balance t
  rw [locked, unlocked, handed]
  by_cases mine : self = t
  · subst t
    rw [if_pos rfl, if_pos rfl]
    omega
  · rw [if_neg mine, if_neg mine, others t mine]
    exact old

private theorem deeper {count : UInt32} (shallow : count ≠ 0xFFFFFFFF) :
    (count + 1).toNat = count.toNat + 1 := by
  have below := count.toNat_lt
  have other : count.toNat ≠ 0xFFFFFFFF := fun top => shallow (UInt32.toNat_inj.mp top)
  rw [UInt32.toNat_add, UInt32.toNat_one]
  omega

/-- The first critical section of a lock call. -/
private theorem lock {self : TaskId} {d : Tick} {st : Option Status} {x : Mutex} {s : Sched}
    (owned : Owned m y) (awake : y.waitStatus self = .awake)
    (locks : Mutex.Locks m (y.mutexes m) y.sched self d st x s) (sched : z.sched = s)
    (object : z.mutexes m = x)
    (status : ∀ u, z.waitStatus u =
      if u = self then (if st = none then .waiting (.mutexLock m d) else .awake)
      else y.waitStatus u)
    (locked : ∀ t, z.log.countP (Entry.lockedBy m t) = y.log.countP (Entry.lockedBy m t) +
      if st = some .ok ∧ self = t then 1 else 0)
    (unlocked : ∀ t, z.log.countP (Entry.unlockedBy m t) = y.log.countP (Entry.unlockedBy m t))
    (shallow : (y.mutexes m).owner = some self → (y.mutexes m).lockCount ≠ 0xFFFFFFFF) :
    Owned m z := by
  have before := owned.balance
  have waits : ∀ t d', z.waitStatus t = .waiting (.mutexLock m d') → st ≠ none →
      t ≠ self ∧ y.waitStatus t = .waiting (.mutexLock m d') := by
    intro t d' now returned
    rw [status, if_neg returned] at now
    split at now
    · cases now
    · exact ⟨‹_›, now⟩
  have wakes : ∀ t d' result, z.waitStatus t = .woken (.mutexLock m d') result →
      t ≠ self ∧ y.waitStatus t = .woken (.mutexLock m d') result := by
    intro t d' result now
    rw [status] at now
    split at now
    · split at now <;> cases now
    · exact ⟨‹_›, now⟩
  have sameHanded : ∀ t, (z.waitStatus t).handedMutex m = (y.waitStatus t).handedMutex m := by
    intro t
    rw [status]
    split
    · rename_i caller
      rw [caller, awake]
      split <;> rfl
    · rfl
  cases locks with
  | free none =>
    refine ⟨fun t => ?_, by simp [object], by simp [object], fun t d' now => ?_, fun t d' now => ?_,
      fun t d' result now other => ?_⟩
    · refine owned.rebalance 1 0 (fun u => by simpa using locked u) (fun u => by simp [unlocked])
        sameHanded ?_ ?_ t
      · rw [object, Mutex.holds_owner rfl, Mutex.holds_free none]
        rfl
      · intro u other
        rw [object, Mutex.holds_other rfl other, Mutex.holds_free none]
    · rw [owned.handed t d' (wakes t d' _ now).2] at none
      cases none
    · rw [object]
      exact fun same => (waits t d' now (by simp)).1 (Option.some.inj same).symm
    · rw [object]
      exact fun same => (wakes t d' result now).1 (Option.some.inj same).symm
  | again mine =>
    have raised := deeper (shallow mine)
    have kept : (z.mutexes m).owner = some self := by rw [object]; exact mine
    refine owned.keep (by rw [object]) ?_ (by simp [mine]) (fun t d' now => .inl (waits t d' now (by simp)).2)
      (fun t d' result now => .inl (wakes t d' result now).2) ?_
    · have positive : (y.mutexes m).lockCount ≠ 0 := fun zero => by
        rw [owned.empty.mpr zero] at mine
        cases mine
      rw [object]
      refine iff_of_false (fun zero : (y.mutexes m).lockCount + 1 = 0 => ?_) positive
      rw [zero] at raised
      simp at raised
    · refine owned.rebalance 1 0 (fun u => by simpa using locked u) (fun u => by simp [unlocked])
        sameHanded ?_ ?_
      · rw [Mutex.holds_owner kept, Mutex.holds_owner mine, object]
        exact raised
      · intro u other
        rw [Mutex.holds_other kept other, Mutex.holds_other mine other]
  | refused =>
    refine owned.keep (by rw [object]) (by rw [object]) (by rw [sched]; exact owned.unowned)
      (fun t d' now => .inl (waits t d' now (by simp)).2)
      (fun t d' result now => .inl (wakes t d' result now).2) ?_
    intro t
    rw [locked, unlocked, sameHanded, object]
    simpa using before t
  | sleeps held distinct _ _ slept =>
    refine owned.keep (by rw [object]) (by rw [object]) (by simp [held]) ?_
      (fun t d' result now => .inl (wakes t d' result now).2) ?_
    · intro t d' now
      rw [status] at now
      split at now
      · rename_i caller
        rw [caller, held]
        exact .inr fun same => distinct (Option.some.inj same)
      · exact .inl now
    · intro t
      rw [locked, unlocked, sameHanded, object]
      simpa using before t

private theorem last_lock {count : UInt32} (last : count - 1 = 0) : count.toNat = 1 := by
  have zero := congrArg UInt32.toNat last
  rw [UInt32.toNat_sub, UInt32.toNat_one, UInt32.toNat_zero] at zero
  have := count.toNat_lt
  omega

private theorem shallower {count : UInt32} (nonzero : count ≠ 0) :
    (count - 1).toNat = count.toNat - 1 := by
  have below := count.toNat_lt
  have other : count.toNat ≠ 0 := fun zero => nonzero (UInt32.toNat_inj.mp zero)
  rw [UInt32.toNat_sub, UInt32.toNat_one]
  omega

/-- While the owner executes, nobody is about to be told that it owns the mutex. -/
private theorem not_handed {self t : TaskId} {d : Tick} (owned : Owned m y)
    (mine : (y.mutexes m).owner = some self) (awake : y.waitStatus self = .awake) :
    y.waitStatus t ≠ .woken (.mutexLock m d) .ok := by
  intro handed
  obtain rfl : self = t := Option.some.inj (mine.symm.trans (owned.handed t d handed))
  rw [awake] at handed
  cases handed

/-- The last unlock hands the mutex to a waiter: one unit leaves the balance of
the unlocker and one enters that of the waiter. -/
private theorem hand_over {self t : TaskId} {d : Tick} (owned : Owned m y)
    (mine : (y.mutexes m).owner = some self) (awake : y.waitStatus self = .awake)
    (one : (y.mutexes m).lockCount.toNat = 1) (waiting : y.waitStatus t = .waiting (.mutexLock m d))
    (object : z.mutexes m = ⟨some t, 1⟩) (here : z.waitStatus t = .woken (.mutexLock m d) .ok)
    (elsewhere : ∀ u, u ≠ t → z.waitStatus u = y.waitStatus u)
    (locked : ∀ u, z.log.countP (Entry.lockedBy m u) = y.log.countP (Entry.lockedBy m u))
    (unlocked : ∀ u, z.log.countP (Entry.unlockedBy m u) =
      y.log.countP (Entry.unlockedBy m u) + if self = u then 1 else 0) : Owned m z := by
  have other : self ≠ t := by
    rintro rfl
    rw [awake] at waiting
    cases waiting
  refine ⟨fun u => ?_, by simp [object], by simp [object], fun u d' now => ?_, fun u d' now => ?_,
    fun u d' result now late => ?_⟩
  · have old := owned.balance u
    rw [locked, unlocked, object]
    by_cases first : u = t
    · subst u
      rw [here]
      rw [waiting] at old
      simp only [Mutex.holds, mine, WaitStatus.handedMutex, Option.some.injEq, other, ↓reduceIte,
        decide_true, Bool.toNat_true, Bool.toNat_false, UInt32.toNat_one] at old ⊢
      omega
    · have distinct : t ≠ u := Ne.symm first
      rw [elsewhere u first]
      by_cases caller : u = self
      · subst u
        simp only [Mutex.holds, mine, Option.some.injEq, distinct, ↓reduceIte] at old ⊢
        omega
      · have notOwner : self ≠ u := Ne.symm caller
        simp only [Mutex.holds, mine, Option.some.injEq, distinct, notOwner, ↓reduceIte] at old ⊢
        omega
  · rw [object]
    by_cases first : u = t
    · rw [first]
    · rw [elsewhere u first] at now
      exact absurd now (owned.not_handed mine awake)
  · rw [object]
    rintro same
    obtain rfl : t = u := Option.some.inj same
    rw [here] at now
    cases now
  · rw [object]
    rintro same
    obtain rfl : t = u := Option.some.inj same
    rw [here] at now
    cases now
    exact late rfl

/-- An unlock call. -/
private theorem unlock {self : TaskId} {st : Status} {woken : Option TaskId} {x : Mutex} {s : Sched}
    (owned : Owned m y) (linked : Linked y) (awake : y.waitStatus self = .awake)
    (unlocks : Mutex.Unlocks m (y.mutexes m) y.sched self st woken x s) (sched : z.sched = s)
    (object : z.mutexes m = x)
    (status : ∀ u, z.waitStatus u =
      if woken = some u then (y.waitStatus u).ended .ok else y.waitStatus u)
    (locked : ∀ t, z.log.countP (Entry.lockedBy m t) = y.log.countP (Entry.lockedBy m t))
    (unlocked : ∀ t, z.log.countP (Entry.unlockedBy m t) =
      y.log.countP (Entry.unlockedBy m t) + if st = .ok ∧ self = t then 1 else 0) :
    Owned m z := by
  have before := owned.balance
  cases unlocks with
  | notOwner =>
    have same : ∀ u, z.waitStatus u = y.waitStatus u := fun u => by rw [status, if_neg (by simp)]
    refine owned.keep (by rw [object]) (by rw [object]) (by rw [sched]; exact owned.unowned)
      (fun t d now => .inl (same t ▸ now)) (fun t d result now => .inl (same t ▸ now)) ?_
    intro t
    rw [locked, unlocked, same, object]
    simpa using before t
  | held mine deep =>
    have same : ∀ u, z.waitStatus u = y.waitStatus u := fun u => by rw [status, if_neg (by simp)]
    have positive : 0 < ((y.mutexes m).lockCount - 1).toNat := by
      simpa [UInt32.lt_iff_toNat_lt] using deep
    have nonzero : (y.mutexes m).lockCount ≠ 0 := fun zero => by
      rw [owned.empty.mpr zero] at mine
      cases mine
    have lowered := shallower nonzero
    have kept : (z.mutexes m).owner = some self := by rw [object]; exact mine
    refine owned.keep (by rw [object]) ?_ (by simp [mine]) (fun t d now => .inl (same t ▸ now))
      (fun t d result now => .inl (same t ▸ now)) ?_
    · rw [object]
      refine iff_of_false (fun zero : (y.mutexes m).lockCount - 1 = 0 => ?_) nonzero
      simp [zero] at positive
    · refine owned.rebalance 0 1 (fun u => by simp [locked]) (fun u => by simpa using unlocked u)
        (fun u => by rw [same]) ?_ ?_
      · rw [Mutex.holds_owner kept, Mutex.holds_owner mine, object, lowered]
        omega
      · intro u other
        rw [Mutex.holds_other kept other, Mutex.holds_other mine other]
  | frees mine last empty =>
    have same : ∀ u, z.waitStatus u = y.waitStatus u := fun u => by rw [status, if_neg (by simp)]
    have one := last_lock last
    refine ⟨fun t => ?_, by simp [object], fun _ => ?_, fun t d => ?_, fun t d => ?_,
      fun t d result => ?_⟩
    · refine owned.rebalance 0 1 (fun u => by simp [locked]) (fun u => by simpa using unlocked u)
        (fun u => by rw [same]) ?_ ?_ t
      · rw [object, Mutex.holds_free rfl, Mutex.holds_owner mine, one]
      · intro u other
        rw [object, Mutex.holds_free rfl, Mutex.holds_other mine other]
    · rw [sched]; exact empty
    · rw [same]
      exact fun now => absurd now (owned.not_handed mine awake)
    · rw [object]; simp
    · rw [object]; simp
  | @hands t rest _ mine last shape woken =>
    obtain ⟨b, waiting, listed⟩ := linked.listed_waiting.mp
      (show t ∈ y.sched.events.items (.mutex m) by simp [shape])
    obtain ⟨d₀, rfl⟩ : ∃ d, b = .mutexLock m d := by
      cases b <;> cases listed
      exact ⟨_, rfl⟩
    refine owned.hand_over mine awake (last_lock last) waiting object ?_ ?_ locked
      (fun u => by simpa using unlocked u)
    · rw [status, if_pos rfl, waiting]
      rfl
    · intro u different
      rw [status, if_neg (by simpa using Ne.symm different)]

/-- The woken caller of a lock: it returns `NIMBLE_OK` iff it was handed the
mutex. -/
theorem resumed {self : TaskId} {d : Tick} {st : Status} {out : Bytes} {k : Kernel}
    (owned : Owned m y) (linked : Linked y) (running : y.running = some self)
    (here : y.pc self = .parked (.mutexLock m d))
    (ran : y.toKernel.resume self (.mutexLock m d) = some (st, out, k)) :
    (st = .ok ∨ st = .timeout) ∧
      (st = .ok ↔ y.waitStatus self = .woken (.mutexLock m d) .ok) ∧
      (st = .ok ↔ (y.mutexes m).owner = some self) := by
  have parked := linked.status_parked running here
  cases resume_spec ran with
  | owns mine =>
    refine ⟨.inl rfl, ⟨?_, fun _ => rfl⟩, ⟨fun _ => mine, fun _ => rfl⟩⟩
    intro _
    by_contra notHanded
    refine owned.late self d _ parked (fun same => notHanded ?_) mine
    rw [parked, same]
  | givesUp other =>
    refine ⟨.inr rfl, ⟨fun same => (by cases same), ?_⟩,
      ⟨fun same => (by cases same), fun mine => absurd mine other⟩⟩
    intro handed
    exact absurd (owned.handed self d handed) other

private theorem finish {self : TaskId} {b : BlockingCall} {st : Status} {out : Bytes} {k : Kernel}
    (owned : Owned m y) (linked : Linked y) (about : b.object = some (.mutex m))
    (running : y.running = some self) (here : y.pc self = .parked b)
    (ran : y.toKernel.resume self b = some (st, out, k)) :
    Owned m (y.finished self b st out k) := by
  obtain ⟨d, rfl⟩ : ∃ d, b = .mutexLock m d := by
    cases b <;> cases about
    exact ⟨_, rfl⟩
  obtain ⟨_, handed, _⟩ := owned.resumed linked running here ran
  have same : (y.finished self (.mutexLock m d) st out k).sched = y.sched :=
    linked.resume_keeps running here ran
  have object : (y.finished self (.mutexLock m d) st out k).mutexes m = y.mutexes m := by
    cases resume_spec ran <;> rfl
  have status := Linked.status_finished ran
  have parked := linked.status_parked running here
  have others : ∀ {u w}, (y.finished self (.mutexLock m d) st out k).waitStatus u = w →
      w ≠ .awake → y.waitStatus u = w := by
    intro u w now asleep
    rw [status] at now
    split at now
    · exact absurd now.symm asleep
    · exact now
  refine owned.keep (by rw [object]) (by rw [object]) (by rw [same]; exact owned.unowned)
    (fun t d' now => .inl (others now (by simp))) (fun t d' result now => .inl (others now (by simp)))
    ?_
  intro t
  have old := owned.balance t
  have returned : (y.finished self (.mutexLock m d) st out k).log.countP (Entry.lockedBy m t) =
      y.log.countP (Entry.lockedBy m t) + if st = .ok ∧ self = t then 1 else 0 := by
    simp [finished, List.countP_cons]
  have silent : (y.finished self (.mutexLock m d) st out k).log.countP (Entry.unlockedBy m t) =
      y.log.countP (Entry.unlockedBy m t) := by
    simp [finished]
  rw [object, returned, silent, status]
  by_cases caller : t = self
  · subst t
    have granted : ((y.waitStatus self).handedMutex m).toNat = if st = .ok then 1 else 0 := by
      split
      · rename_i ok
        rw [handed.mp ok]
        simp [WaitStatus.handedMutex]
      · rename_i refused
        rw [parked] at handed ⊢
        generalize (y.sched.tcb self).lastWaitResult = result at *
        cases result <;> first | rfl | exact absurd (handed.mpr rfl) refused
    rw [granted] at old
    simp only [and_true, ↓reduceIte, WaitStatus.handedMutex, Bool.toNat_false]
    omega
  · simpa [caller, Ne.symm caller] using old

end Owned

/-- The step is a recursive lock at the greatest representable depth. -/
def System.overflowsLock (y : System) : Event → Bool
  | .call (.blocking (.mutexLock m _)) =>
    match y.running with
    | some self => (y.mutexes m).owner = some self && (y.mutexes m).lockCount = 0xFFFFFFFF
    | none => false
  | _ => false

/-- Recursion stays below `2 ^ 32`. -/
abbrev Shallow (y : System) (event : Event) : Prop := y.overflowsLock event = false

namespace Owned
variable {m : MutexId} {y z : System}

private theorem enter {self : TaskId} {c : Call} {r : CallResult} (owned : Owned m y)
    (linked : Linked y) (about : c.object = some (.mutex m)) (running : y.running = some self)
    (busy : ∀ b, y.pc self ≠ .requesting b) (awake : y.waitStatus self = .awake)
    (allowed : y.allows c = true) (ran : y.toKernel.call self c = some r)
    (shallow : ∀ d, c = .blocking (.mutexLock m d) → (y.mutexes m).owner = some self →
      (y.mutexes m).lockCount ≠ 0xFFFFFFFF) : Owned m (y.entered self c r) := by
  have status := linked.status_entered running busy allowed ran
  cases call_spec ran with
  | @locks m' d st x sched locks =>
    obtain rfl : m' = m := by simpa [Call.object, BlockingCall.object] using about
    refine owned.lock awake locks rfl (by simp [entered, Kernel.setMutex]) (fun u => ?_)
      (fun t => ?_) (fun t => ?_) (shallow d rfl)
    · rw [status]
      cases st <;> simp [Kernel.sleepOr, callerStatus]
    all_goals
      cases st <;>
        simp [entered, Kernel.sleepOr, outcomeEntries, wokenEntries, gaveEntries, givesTo,
          List.countP_cons]
  | @unlocks m' st woken x sched unlocks =>
    obtain rfl : m' = m := by simpa [Call.object] using about
    refine owned.unlock linked awake unlocks rfl (by simp [entered, Kernel.setMutex]) (fun u => ?_)
      (fun t => ?_) (fun t => ?_)
    · rw [status]
      by_cases caller : u = self
      · subst u
        cases woken <;> simp [awake, WaitStatus.ended]
      · simp [caller]
    all_goals
      cases woken <;>
        simp [entered, Kernel.sleepOr, outcomeEntries, wokenEntries, gaveEntries, givesTo,
          Call.signals, List.countP_cons]
  | _ => cases about

theorem step (owned : Owned m y) (linked : Linked y) {event : Event}
    (shallow : y.overflowsLock event = false) (stepped : y.step event = some z) : Owned m z := by
  cases linked.step_touches stepped (.mutex m) with
  | aside aside => exact owned.aside aside
  | ticks ticked => exact owned.tick linked ticked
  | @interrupts c _ _ _ _ about => cases c <;> cases about
  | enters about origin running busy awake allowed ran =>
    apply owned.enter linked about running busy awake allowed ran
    intro d call mine top
    subst call
    rcases origin with rfl | internal
    · simp [overflowsLock, running, mine, top] at shallow
    · exact internal.elim
  | finishes about running here ran => exact owned.finish linked about running here ran

end Owned

theorem owned_boot (cfg : Config) (m : MutexId) : Owned m (boot cfg) := by
  have status : ∀ t, (boot cfg).waitStatus t = .awake := fun t => rfl
  refine ⟨fun t => rfl, by simp [boot, Mutex.init], fun _ => ?_, fun t d now => ?_,
    fun t d now => ?_, fun t d result now => ?_⟩
  · show schedulerInit.events.items _ = []
    rw [schedulerInit_spec.events]
    rfl
  all_goals
    rw [status] at now
    cases now

theorem owned_of_run {cfg : Config} {y : System} (run : KernelRun cfg Shallow y) (m : MutexId) :
    Owned m y := by
  have strong := run.strengthen fun _ => linked_of_run
  exact strong.invariant _ (owned_boot cfg m) fun _ _ _ owned meets stepped =>
    owned.step meets.2 meets.1 stepped

/-- What a whole run guarantees for mutex `m`: the record in every state, and
for each step what its lock and unlock calls report. -/
structure MutexSafe (m : MutexId) (y : System) : Prop where
  balance : ∀ t, y.log.countP (Entry.lockedBy m t) + ((y.waitStatus t).handedMutex m).toNat =
    y.log.countP (Entry.unlockedBy m t) + (y.mutexes m).holds t
  exclusive : ∀ t, y.log.countP (Entry.unlockedBy m t) <
      y.log.countP (Entry.lockedBy m t) + ((y.waitStatus t).handedMutex m).toNat →
    (y.mutexes m).owner = some t
  empty : (y.mutexes m).owner = none ↔ (y.mutexes m).lockCount = 0
  unowned : (y.mutexes m).owner = none → y.sched.events.items (.mutex m) = []
  blocked : ∀ event z t d st out, y.step event = some z → y.waitStatus t ≠ .awake →
    Logged y z (.returned t (.blocking (.mutexLock m d)) st out) →
    (st = .ok ↔ (y.waitStatus t).handedMutex m = true)
  timesOut : ∀ event z t d out, y.step event = some z →
    Logged y z (.returned t (.blocking (.mutexLock m d)) .timeout out) →
    (z.mutexes m).owner ≠ some t ∧ t ∉ z.sched.events.items (.mutex m)
  notOwner : ∀ z self, y.running = some self → (y.mutexes m).owner ≠ some self →
    y.step (.call (.mutexUnlock m)) = some z →
    z.toKernel = y.toKernel ∧ Logged y z (.returned self (.mutexUnlock m) .notOwner [])

namespace Owned
variable {m : MutexId} {y z : System}

/-- How a lock call of `t` comes to be logged as returned: its first critical
section ended without sleeping, or it resumed. -/
private theorem logged_lock {event : Event} {t : TaskId} {d : Tick} {st : Status} {out : Bytes}
    (linked : Linked y) (stepped : y.step event = some z)
    (logged : Logged y z (.returned t (.blocking (.mutexLock m d)) st out)) :
    (y.waitStatus t = .awake ∧ ∃ x, Mutex.Locks m (y.mutexes m) y.sched t d (some st) x z.sched ∧
        z.mutexes m = x) ∨
      ∃ k, y.running = some t ∧ y.pc t = .parked (.mutexLock m d) ∧
        y.toKernel.resume t (.mutexLock m d) = some (st, out, k) ∧
        z = y.finished t (.mutexLock m d) st out k := by
  cases linked.step_touches stepped (.mutex m) with
  | aside aside => exact absurd logged (aside.not_logged rfl)
  | ticks => exact absurd logged (ticked_not_logged (o := .mutex m) rfl)
  | @interrupts c _ _ _ _ about => cases c <;> cases about
  | @enters self _ _ about _ running busy awake allowed ran =>
    rw [logged_entered] at logged
    cases call_spec ran with
    | @locks m' d' st' x sched locks =>
      obtain rfl : m' = m := by simpa [Call.object, BlockingCall.object] using about
      cases st' with
      | none => simp [Kernel.sleepOr, outcomeEntries, wokenEntries, gaveEntries, givesTo] at logged
      | some st' =>
        simp [Kernel.sleepOr, outcomeEntries, wokenEntries, gaveEntries, givesTo] at logged
        obtain ⟨rfl, rfl, rfl, rfl⟩ := logged
        exact .inl ⟨awake, x, locks, by simp [entered, Kernel.setMutex]⟩
    | @unlocks m' st' woken x sched unlocks =>
      cases woken <;>
        simp [Kernel.sleepOr, outcomeEntries, wokenEntries, gaveEntries, givesTo, Call.signals]
          at logged
    | _ => cases about
  | finishes about running here ran =>
    rw [logged_finished] at logged
    cases logged
    exact .inr ⟨_, running, here, ran, rfl⟩

private theorem step_notOwner {self : TaskId} (running : y.running = some self)
    (other : (y.mutexes m).owner ≠ some self) (stepped : y.step (.call (.mutexUnlock m)) = some z) :
    z.toKernel = y.toKernel ∧ Logged y z (.returned self (.mutexUnlock m) .notOwner []) := by
  cases step_cases stepped with
  | calls running' _ _ _ ran =>
    obtain rfl := Option.some.inj (running.symm.trans running')
    rw [logged_entered]
    cases call_spec ran with
    | unlocks unlocks =>
      cases unlocks with
      | notOwner => exact ⟨by simp [entered, Kernel.setMutex], by simp [Kernel.sleepOr, outcomeEntries]⟩
      | held mine | frees mine | hands mine => exact absurd mine other

end Owned

/-- Mutex safety in every run that keeps recursion below `2 ^ 32`, in whatever
order the scheduler runs ready tasks. -/
theorem mutex_safe {cfg : Config} {y : System} (run : KernelRun cfg Shallow y) (m : MutexId) :
    MutexSafe m y := by
  have owned := owned_of_run run m
  have linked := linked_of_run run
  refine ⟨owned.balance, ?_, owned.empty, owned.unowned,
    ?_, ?_,
    fun z self running other stepped => Owned.step_notOwner running other stepped⟩
  · intro t positive
    by_contra other
    have balance := owned.balance t
    simp only [Mutex.holds, other, ↓reduceIte] at balance
    omega
  · intro event z t d st out stepped asleep logged
    rcases Owned.logged_lock linked stepped logged with ⟨awake, _⟩ | ⟨k, running, here, ran, _⟩
    · exact absurd awake asleep
    · obtain ⟨_, handed, _⟩ := owned.resumed linked running here ran
      have parked := linked.status_parked running here
      rw [handed, parked]
      generalize (y.sched.tcb t).lastWaitResult = result
      cases result <;> simp [WaitStatus.handedMutex]
  · intro event z t d out stepped logged
    rcases Owned.logged_lock linked stepped logged with
      ⟨awake, x, locks, object⟩ | ⟨k, running, here, ran, rfl⟩
    · generalize z.sched = s at locks ⊢
      cases locks with
      | refused held other =>
        rw [object, held]
        refine ⟨fun same => other (Option.some.inj same), ?_⟩
        intro listed
        obtain ⟨b, waiting, _⟩ := linked.listed_waiting.mp listed
        simp [awake] at waiting
    · obtain ⟨_, _, mine⟩ := owned.resumed linked running here ran
      have same : (y.finished t (.mutexLock m d) .timeout out k).sched = y.sched :=
        linked.resume_keeps running here ran
      have object : (y.finished t (.mutexLock m d) .timeout out k).mutexes m = y.mutexes m := by
        cases resume_spec ran; rfl
      rw [object, same]
      constructor
      · intro owner
        cases mine.mpr owner
      · intro listed
        obtain ⟨b, waiting, _⟩ := linked.listed_waiting.mp listed
        simp [linked.status_parked running here] at waiting

/-- A holder locks twice; one waiter is handed the mutex, another times out. -/
def handOver : List Event :=
  [.create ⟨some 1, 1, 1, 64, 2⟩, .create ⟨some 2, 1, 1, 64, 2⟩, .create ⟨some 3, 1, 1, 64, 2⟩,
    .start, .call (.blocking (.mutexLock 0 waitForever)),
    .call (.blocking (.mutexLock 0 waitForever)), .call .taskYield, .proceed, .dispatch 2,
    .call (.blocking (.mutexLock 0 9)), .proceed, .dispatch 3,
    .call (.blocking (.mutexLock 0 1)), .proceed, .tick, .dispatch 1,
    .call (.mutexUnlock 0), .call (.mutexUnlock 0), .proceed, .dispatch 2, .proceed]

set_option maxRecDepth 10000 in
theorem handOver_safe :
    ∃ y, GuardedRun.exec System.step Shallow (boot {}) handOver = some y ∧ MutexSafe 0 y := by
  obtain ⟨y, ran⟩ := Option.isSome_iff_exists.mp
    (by decide +kernel : (GuardedRun.exec System.step Shallow (boot {}) handOver).isSome = true)
  exact ⟨y, ran, mutex_safe (GuardedRun.run_of_exec ran) 0⟩

end NimbleRtos
