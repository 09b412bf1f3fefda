import NimbleRtos.FaultSignals

/-! A task inside a call that waits forever: it sleeps, is woken with
`NIMBLE_OK`, and returns. What the other tasks, the interrupts and the ticks do
meanwhile moves it along this way only. -/
namespace NimbleRtos
open NodeRings Sched NimbleRtos.System

namespace System
variable {y z : System} {event : Event} {t : TaskId} {b : BlockingCall} {o : Object}

/-- `t` sleeps in `b`, or was woken from it with `NIMBLE_OK`. -/
def Dozes (y : System) (t : TaskId) (b : BlockingCall) : Prop :=
  y.waitStatus t = .waiting b ∨ y.waitStatus t = .woken b .ok

/-- The step is the end of `b`, out of which `t` was woken. -/
inductive Returns (y : System) (t : TaskId) (b : BlockingCall) : Event → System → Prop where
  | intro {st : Status} {out : Bytes} {k : Kernel} (running : y.running = some t) (here : y.pc t = .parked b)
      (woken : y.waitStatus t = .woken b .ok) (ran : y.toKernel.resume t b = some (st, out, k)) :
      Returns y t b .proceed (y.finished t b st out k)

/-- Only the running task returns, from where it stands. -/
theorem Returns.unique {u : TaskId} {b' : BlockingCall} (first : Returns y t b event z)
    (second : Returns y u b' event z) : t = u ∧ b = b' := by
  obtain ⟨running, here⟩ : y.running = some t ∧ y.pc t = .parked b := by
    cases first with
    | intro running here => exact ⟨running, here⟩
  obtain ⟨running', here'⟩ : y.running = some u ∧ y.pc u = .parked b' := by
    cases second with
    | intro running here => exact ⟨running, here⟩
  obtain rfl := Option.some.inj (running.symm.trans running')
  exact ⟨rfl, Pc.parked.inj (here.symm.trans here')⟩

theorem Dozes.ne_awake (dozes : y.Dozes t b) : y.waitStatus t ≠ .awake := by
  intro awake
  rcases dozes with waiting | woken
  · rw [waiting] at awake
    cases awake
  · rw [woken] at awake
    cases awake

/-- A task in its own code does not doze. -/
theorem Dozes.busy (dozes : y.Dozes t b) : y.pc t ≠ .thread := by
  intro thread
  exact dozes.ne_awake (Linked.status_running (by rw [thread]; rfl))

theorem Dozes.woken (dozes : y.Dozes t b) {woken : Option TaskId}
    (status : z.waitStatus t = if woken = some t then (y.waitStatus t).ended .ok else y.waitStatus t) :
    z.Dozes t b := by
  unfold Dozes
  rw [status]
  split
  · right
    rcases dozes with waiting | woken
    · rw [waiting]
      rfl
    · rw [woken]
      rfl
  · exact dozes

/-- Whatever happens, a dozing task dozes on, or returns. -/
theorem Dozes.step (dozes : y.Dozes t b) (linked : Linked y) (about : b.object = some o)
    (untimed : b.timed = false) (stepped : y.step event = some z) : z.Dozes t b ∨ Returns y t b event z := by
  cases linked.step_touches stepped o with
  | aside aside =>
    left
    exact dozes.imp (aside.waiting_iff about).mpr (aside.woken_iff about).mpr
  | ticks tick =>
    left
    have status := linked.status_ticked tick t
    rcases dozes with waiting | woken
    · have early : t ∉ y.sched.expired := by
        intro late
        have listed := (y.sched.links.mem_items _ _).mpr (mem_expired.mp late).1
        obtain ⟨b', same, timed⟩ := linked.delayed_waiting.mp listed
        rw [waiting] at same
        cases same
        rw [untimed] at timed
        cases timed
      left
      rw [status, if_neg early, waiting]
    · right
      rw [status, woken]
      split <;> rfl
  | interrupts _ ran => exact .inl (dozes.woken (linked.status_interrupted ran t))
  | @enters self _ _ _ _ running busy awake allowed ran =>
    left
    have other : t ≠ self := by
      rintro rfl
      exact dozes.ne_awake awake
    have status := linked.status_entered running busy allowed ran t
    rw [if_neg other] at status
    exact dozes.woken status
  | @finishes self b' st out k _ running here ran origin =>
    have status := Linked.status_finished ran t
    by_cases caller : t = self
    · subst caller
      have parked := linked.status_parked running here
      rcases dozes with waiting | woken
      · rw [waiting] at parked
        cases parked
      · obtain ⟨rfl, _⟩ := WaitStatus.woken.inj (parked.symm.trans woken)
        subst origin
        exact .inr (.intro running here woken ran)
    · left
      unfold Dozes
      rw [status, if_neg caller]
      exact dozes

/-- `t` has called `b` and has not gone on yet. -/
inductive Asked (y : System) (t : TaskId) (b : BlockingCall) : Prop where
  | dozes (dozes : y.Dozes t b)
  | answered {out : Bytes} (thread : y.pc t = .thread) (returned : y.returned t = some (.ok, out))

/-- The return of a call is its answer. -/
theorem returned_finished {st : Status} {out : Bytes} {k : Kernel} :
    (y.finished t b st out k).returned t = some (st, out) := by
  simp [finished, System.returned]

theorem Asked.step (asked : y.Asked t b) (linked : Linked y) (about : b.object = some o)
    (untimed : b.timed = false) (stepped : y.step event = some z)
    (other : ∀ c, event = .call c → y.running ≠ some t)
    (served : ∀ st out k, y.waitStatus t = .woken b .ok → y.toKernel.resume t b = some (st, out, k) → st = .ok) :
    z.Asked t b := by
  cases asked with
  | dozes dozes =>
    rcases dozes.step linked about untimed stepped with dozes | returns
    · exact .dozes dozes
    · cases returns with
      | intro _ _ woken ran =>
        obtain rfl := served _ _ _ woken ran
        exact .answered (by simp [finished]) returned_finished
  | answered thread returned =>
    obtain ⟨thread', same⟩ := step_bystander stepped thread other
    exact .answered thread' (same.trans returned)

/-- A step that has nothing to do with the call's object, nor with a caller in
its own code. -/
theorem Asked.aside (asked : y.Asked t b) (about : b.object = some o) (aside : Aside y z o)
    (bystands : y.pc t = .thread → z.pc t = .thread ∧ z.returned t = y.returned t) : z.Asked t b := by
  cases asked with
  | dozes dozes => exact .dozes (dozes.imp (aside.waiting_iff about).mpr (aside.woken_iff about).mpr)
  | answered thread returned =>
    obtain ⟨thread', same⟩ := bystands thread
    exact .answered thread' (same.trans returned)

/-- A step that is no call, as an object sees it that no inner call is about. -/
inductive Uncalled (y : System) (event : Event) (o : Object) : System → Prop where
  | aside {z : System} (aside : Aside y z o) : Uncalled y event o z
  | ticks {s : Sched} (tick : y.sched.tick = some s) : Uncalled y event o (y.ticked s)
  | interrupts {c : IsrCall} {st : Status} {needsYield : Bool} {woken : Option TaskId} {k : Kernel}
      (origin : event = .isr c) (about : c.object = o)
      (ran : y.toKernel.isrCall c = some (st, needsYield, woken, k)) :
      Uncalled y event o (y.interrupted c st needsYield woken k)
  | finishes {self : TaskId} {b : BlockingCall} {st : Status} {out : Bytes} {k : Kernel}
      (origin : event = .proceed) (about : b.object = some o) (running : y.running = some self)
      (here : y.pc self = .parked b) (ran : y.toKernel.resume self b = some (st, out, k)) :
      Uncalled y event o (y.finished self b st out k)

theorem uncalled_touches (linked : Linked y) (inner : ∀ t c, y.pc t = .calling c → c.object ≠ some o)
    (uncalled : ∀ c, event ≠ .call c) (stepped : y.step event = some z) : Uncalled y event o z := by
  have away : event ≠ .tick → (∀ c, event = .isr c → c.object ≠ o) →
      (∀ self b, event = .proceed → y.running = some self → y.pc self = .parked b → b.object ≠ some o) →
      Aside y z o := by
    intro untimed interrupts finishes
    refine linked.step_aside stepped untimed interrupts (fun c call => absurd call (uncalled c)) ?_
    exact fun self proceeds running => ⟨inner self, fun b => finishes self b proceeds running⟩
  cases step_cases stepped with
  | ticks tick => exact .ticks tick
  | @interrupts c _ _ _ _ ran =>
    by_cases about : c.object = o
    · exact .interrupts rfl about ran
    · exact .aside (away (by simp) (by simpa using about) (by simp))
  | @finishes self b _ _ _ running here ran =>
    by_cases about : b.object = some o
    · exact .finishes rfl about running here ran
    · refine .aside (away (by simp) (by simp) ?_)
      intro self' b' _ running' here' about'
      obtain rfl := Option.some.inj (running.symm.trans running')
      obtain rfl := Pc.parked.inj (here.symm.trans here')
      exact about about'
  | calls => exact absurd rfl (uncalled _)
  | creates | starts | isrRequests | selects | dispatches => exact .aside (away (by simp) (by simp) (by simp))
  | continues running here | requests running here | fires running here =>
    refine .aside (away (by simp) (by simp) ?_)
    intro self' b' _ running' here'
    obtain rfl := Option.some.inj (running.symm.trans running')
    rw [here] at here'
    cases here'

/-- Nobody comes to an object but by a call. -/
theorem Uncalled.engaged (uncalled : Uncalled y event o z) (linked : Linked y)
    (engaged : (z.waitStatus t).on o ≠ .awake) : (y.waitStatus t).on o ≠ .awake := by
  intro awake
  apply engaged
  cases uncalled with
  | aside aside => rw [aside.status, awake]
  | ticks tick =>
    rw [linked.status_ticked tick]
    split
    · exact ended_on_awake.mpr awake
    · exact awake
  | interrupts _ _ ran =>
    rw [linked.status_interrupted ran]
    split
    · exact ended_on_awake.mpr awake
    · exact awake
  | finishes _ _ _ _ ran =>
    rw [Linked.status_finished ran]
    split
    · rfl
    · exact awake

/-- No wait without a limit begins or ends but by a call on its object. -/
theorem Uncalled.waiting_iff (uncalled : Uncalled y event o z) (linked : Linked y) (about : b.object = some o)
    (untimed : b.timed = false) (silent : ∀ c, event = .isr c → c.object ≠ o) :
    z.waitStatus t = .waiting b ↔ y.waitStatus t = .waiting b := by
  cases uncalled with
  | aside aside => exact aside.waiting_iff about
  | ticks tick =>
    rw [linked.status_ticked tick]
    split
    · rename_i late
      refine iff_of_false WaitStatus.ended_ne_waiting ?_
      intro waiting
      have listed := (y.sched.links.mem_items _ _).mpr (mem_expired.mp late).1
      obtain ⟨b', same, timed⟩ := linked.delayed_waiting.mp listed
      rw [waiting] at same
      cases same
      rw [untimed] at timed
      cases timed
    · rfl
  | interrupts origin about => exact absurd about (silent _ origin)
  | finishes _ _ running here ran =>
    rw [Linked.status_finished ran]
    split
    · rename_i same
      rw [same, linked.status_parked running here]
      simp
    · rfl

/-- Whoever is on a list waits for its object. -/
theorem engaged_of_listed {h : WaitList} (linked : Linked y) (about : h.object = o)
    (listed : t ∈ y.sched.events.items h) : (y.waitStatus t).on o ≠ .awake := by
  obtain ⟨b, waiting, at_list⟩ := linked.listed_waiting.mp listed
  have object : b.object = some o := about ▸ BlockingCall.object_of_waitList at_list
  rw [waiting, WaitStatus.on, if_pos object]
  simp

/-- Nobody waits for `o` but `t` in `b`. -/
theorem items_of_sole {h : WaitList} (linked : Linked y) (listed : b.waitList = some h)
    (sole : ∀ u b', y.waitStatus u = .waiting b' → b'.waitList = some h → u = t ∧ b' = b) :
    y.sched.events.items h = if y.waitStatus t = .waiting b then [t] else [] := by
  have member : ∀ u, u ∈ y.sched.events.items h ↔ u = t ∧ y.waitStatus t = .waiting b := by
    intro u
    rw [linked.listed_waiting]
    constructor
    · rintro ⟨b', waiting, listed'⟩
      obtain ⟨rfl, rfl⟩ := sole u b' waiting listed'
      exact ⟨rfl, waiting⟩
    · rintro ⟨rfl, waiting⟩
      exact ⟨b, waiting, listed⟩
  split
  · rename_i waiting
    have single : [t].Nodup := List.nodup_singleton t
    refine List.perm_singleton.mp ((List.perm_ext_iff_of_nodup (y.sched.events.nodup h) single).mpr ?_)
    intro u
    rw [member, List.mem_singleton]
    exact and_iff_left waiting
  · rename_i awake
    refine List.eq_nil_iff_forall_not_mem.mpr ?_
    intro u listed
    exact awake ((member u).mp listed).2

end System
end NimbleRtos
