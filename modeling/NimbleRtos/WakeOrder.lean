import NimbleRtos.Foundation.Recency
import NimbleRtos.Objects
import NimbleRtos.Inheritance

/-! Whom a signal wakes. Waiters are put in order of priority when they join a
list, and within a priority in order of arrival. Waiters that leave keep the
rest in order; a waiter whose priority is raised where it stands may not be. -/
namespace NimbleRtos
open NodeRings Sched Recency NimbleRtos.System

def Entry.blocks (t : TaskId) : Entry → Bool
  | .blocked u _ => u = t
  | _ => false

/-- `a` is to be woken before `b`: it has the higher effective priority, or the
same and has waited longer. -/
def Sched.Outranks (s : Sched) (since : TaskId → Nat) (a b : TaskId) : Prop :=
  (s.tcb b).priority < (s.tcb a).priority ∨
    (s.tcb a).priority = (s.tcb b).priority ∧ since a < since b

/-- Every wait list is in the order in which it is to be woken. -/
def Sched.Lined (s : Sched) (since : TaskId → Nat) : Prop :=
  ∀ h, (s.events.items h).Pairwise (s.Outranks since)

instance (s : Sched) (since : TaskId → Nat) (a b : TaskId) : Decidable (s.Outranks since a b) :=
  inferInstanceAs (Decidable ((s.tcb b).priority < (s.tcb a).priority ∨
    (s.tcb a).priority = (s.tcb b).priority ∧ since a < since b))

namespace Sched
variable {s s' : Sched} {since since' : TaskId → Nat} {self : TaskId}

theorem Outranks.trans {a b c : TaskId} (first : s.Outranks since a b) (second : s.Outranks since b c) :
    s.Outranks since a c := by
  unfold Outranks at *
  omega

/-- Priority and arrival are all that the order depends on. -/
theorem outranks_congr {a b : TaskId} (first : (s'.tcb a).priority = (s.tcb a).priority ∧ since' a = since a)
    (second : (s'.tcb b).priority = (s.tcb b).priority ∧ since' b = since b) :
    s'.Outranks since' a b ↔ s.Outranks since a b := by
  unfold Outranks
  rw [first.1, first.2, second.1, second.2]

namespace Lined

/-- Waiters may leave, and whoever stays keeps its place. -/
theorem of_fewer (lined : s.Lined since)
    (fewer : ∀ h, (s'.events.items h).Sublist (s.events.items h))
    (same : ∀ h, ∀ t ∈ s'.events.items h, (s'.tcb t).priority = (s.tcb t).priority ∧ since' t = since t) :
    s'.Lined since' := by
  intro h
  refine ((lined h).sublist (fewer h)).imp_of_mem ?_
  intro a b first second ordered
  exact (outranks_congr (same h a first) (same h b second)).mpr ordered

/-- A waiter joins behind those of at least its priority. -/
theorem enqueued {h : WaitList} (lined : s.Lined since) (free : s.events.ring self = none)
    (last : ∀ t ∈ s.events.items h, since t < since self) : (s.enqueued h self).Lined since := by
  intro h'
  have items : (s.enqueued h self).events.items = Function.update s.events.items h
      (place (s.lower self) self (s.events.items h)) := Rings.link_items free
  rw [items]
  by_cases same : h' = h
  · subst same
    rw [Function.update_self]
    refine place_pairwise (lined h') ?_ ?_ ?_
    · intro other member passed
      have earlier := last other member
      have high : ¬(s.tcb other).priority < (s.tcb self).priority := by simpa [lower] using passed
      show s.Outranks since other self
      unfold Outranks
      omega
    · intro other _ stopped
      exact .inl (of_decide_eq_true stopped)
    · intro a _ b _ first second
      exact Outranks.trans first second
  · rw [Function.update_of_ne same]
    exact lined h'

/-- The priority of `owner` may be raised as long as it stays behind the waiters
ahead of it. -/
theorem raised {owner : TaskId} {priority : Nat} (lined : s.Lined since)
    (higher : (s.tcb owner).priority < priority)
    (behind : ∀ h ∈ s.events.ring owner, ∀ a ∈ (s.events.items h).takeWhile (· ≠ owner),
      (s.setPriority owner priority).Outranks since a owner) : (s.setPriority owner priority).Lined since := by
  have raise : ((s.setPriority owner priority).tcb owner).priority = priority := by simp [setPriority]
  have kept : ∀ t, t ≠ owner → ((s.setPriority owner priority).tcb t).priority = (s.tcb t).priority := by
    intro t other
    simp [setPriority, other]
  have others : ∀ l : List TaskId, owner ∉ l → l.Pairwise (s.Outranks since) →
      l.Pairwise ((s.setPriority owner priority).Outranks since) := by
    intro l absent ordered
    refine ordered.imp_of_mem ?_
    intro a b first second ordered
    have first : a ≠ owner := fun same => absent (same ▸ first)
    have second : b ≠ owner := fun same => absent (same ▸ second)
    exact (outranks_congr ⟨kept a first, rfl⟩ ⟨kept b second, rfl⟩).mpr ordered
  intro h
  have distinct := s.events.nodup h
  have before := lined h
  show (s.events.items h).Pairwise _
  by_cases listed : owner ∈ s.events.items h
  · have behind := behind h ((s.events.mem_items h owner).mp listed)
    obtain ⟨ahead, rest, shape⟩ := List.append_of_mem listed
    rw [shape] at distinct before behind ⊢
    obtain ⟨_, distinct, apart⟩ := List.nodup_append.mp distinct
    have absent : owner ∉ ahead := fun member => apart owner member owner (by simp) rfl
    have front : (ahead ++ owner :: rest).takeWhile (· ≠ owner) = ahead := by
      rw [List.takeWhile_append_of_pos]
      · simp
      · intro a member
        simpa using fun same : a = owner => absent (same ▸ member)
    rw [front] at behind
    obtain ⟨first, last, across⟩ := List.pairwise_append.mp before
    obtain ⟨head, last⟩ := List.pairwise_cons.mp last
    have fresh : owner ∉ rest := (List.nodup_cons.mp distinct).1
    refine List.pairwise_append.mpr ⟨others ahead absent first, List.pairwise_cons.mpr ⟨?_,
      others rest fresh last⟩, ?_⟩
    · intro b member
      have lower := head b member
      have other : b ≠ owner := fun same => fresh (same ▸ member)
      left
      rw [raise, kept b other]
      unfold Outranks at lower
      omega
    · intro a earlier b later
      rcases List.mem_cons.mp later with rfl | later
      · exact behind a earlier
      · have first : a ≠ owner := fun same => absent (same ▸ earlier)
        have second : b ≠ owner := fun same => fresh (same ▸ later)
        exact (outranks_congr ⟨kept a first, rfl⟩ ⟨kept b second, rfl⟩).mpr
          (across a earlier b (List.mem_cons_of_mem _ later))
  · exact others _ listed before

end Lined
end Sched

namespace System
variable {y z : System} {self t : TaskId} {c : Call} {r : CallResult} {event : Event}

/-- When `t` last fell asleep, as the length of the log then. -/
def since (y : System) (t : TaskId) : Nat := latest (Entry.blocks t) y.log

def Lined (y : System) : Prop := y.sched.Lined y.since

/-- Who raises whose priority: a task that is to sleep on a lock raises the
owner's, when its own is higher. -/
def boosts (y : System) : Event → Option (TaskId × TaskId)
  | .call (.blocking (.mutexLock m timeoutTicks)) => do
    let self ← y.running
    let owner ← (y.mutexes m).owner
    if owner ≠ self ∧ timeoutTicks ≠ noWait ∧ (y.sched.tcb owner).priority < (y.sched.tcb self).priority then
      some (self, owner)
    else none
  | _ => none

/-- The step raises no waiter's priority past that of a waiter ahead of it. -/
def KeepsPlaces (y : System) (event : Event) : Prop :=
  ∀ boost ∈ y.boosts event, ∀ h ∈ y.sched.events.ring boost.2,
    ∀ a ∈ (y.sched.events.items h).takeWhile (· ≠ boost.2),
      (y.sched.setPriority boost.2 (y.sched.tcb boost.1).priority).Outranks y.since a boost.2

instance (y : System) (event : Event) : Decidable (y.KeepsPlaces event) :=
  inferInstanceAs (Decidable (∀ boost ∈ y.boosts event, ∀ h ∈ y.sched.events.ring boost.2,
    ∀ a ∈ (y.sched.events.items h).takeWhile (· ≠ boost.2),
      (y.sched.setPriority boost.2 (y.sched.tcb boost.1).priority).Outranks y.since a boost.2))

/-- The log grew by entries about no sleep. -/
def NoSleep (y z : System) : Prop := ∃ entries, z.log = entries ++ y.log ∧ ∀ e ∈ entries, ∀ t, e.blocks t = false

private theorem since_kept (grown : NoSleep y z) : z.since = y.since := by
  obtain ⟨entries, log, other⟩ := grown
  funext t
  rw [since, log]
  exact latest_append fun e member => other e member t

private theorem lined_stays (lined : y.Lined) (grown : NoSleep y z)
    (fewer : ∀ h, (z.sched.events.items h).Sublist (y.sched.events.items h))
    (same : ∀ h, ∀ t ∈ z.sched.events.items h, (z.sched.tcb t).priority = (y.sched.tcb t).priority) :
    z.Lined := by
  unfold Lined
  rw [since_kept grown]
  exact Sched.Lined.of_fewer lined fewer fun h t member => ⟨same h t member, rfl⟩

/-- A step that leaves the scheduler alone and puts nobody to sleep. -/
private theorem lined_rests (lined : y.Lined) (sched : z.sched = y.sched) (grown : NoSleep y z) : z.Lined :=
  lined_stays lined grown (fun _ => by rw [sched]) fun _ _ _ => by rw [sched]

private theorem wakes_fewer {s s' : Sched} {h : WaitList} {woken : Option TaskId}
    (wakes : Wakes s h woken s') (h' : WaitList) : (s'.events.items h').Sublist (s.events.items h') := by
  cases wakes with
  | nobody => exact .refl _
  | first _ woken =>
    rw [woken.events]
    exact List.erase_sublist

/-- The entries that follow a call's own. -/
private theorem not_blocked {k k' : Kernel} {woken : Option TaskId} {h : Option WaitList}
    {given : Option SemaphoreId} (t : TaskId) :
    ∀ e ∈ wokenEntries woken h ++ gaveEntries k k' woken given, e.blocks t = false := by
  intro e member
  rcases mem_signalEntries member with ⟨_, _, rfl⟩ | ⟨_, _, rfl⟩ <;> rfl

private theorem since_awake (awake : r.outcome ≠ .blocks) : (y.entered self c r).since = y.since := by
  have log : (y.entered self c r).log = (outcomeEntries self c r.outcome ++ (wokenEntries r.woken c.signals ++
    gaveEntries y.toKernel r.kernel r.woken (givesTo c))) ++ y.log := by simp [entered]
  refine since_kept ⟨_, log, ?_⟩
  intro e member t
  rcases List.mem_append.mp member with member | member
  · cases outcome : r.outcome with
    | blocks => exact absurd outcome awake
    | calls =>
      rw [outcome] at member
      cases member
    | returns | switches | fires =>
      rw [outcome] at member
      cases List.mem_singleton.mp member
      rfl
  · exact not_blocked t e member

/-- The caller that falls asleep is the last to have arrived. -/
private theorem since_asleep {b : BlockingCall} (call : c = .blocking b) (blocks : r.outcome = .blocks)
    (nobody : r.woken = none) :
    (y.entered self c r).since = Function.update y.since self (y.log.length + 1) := by
  subst call
  have log : (y.entered self (.blocking b) r).log = .blocked self b :: y.log := by
    simp [entered, blocks, nobody, outcomeEntries, wokenEntries, gaveEntries, givesTo]
  funext t
  rw [since, log, latest_cons]
  by_cases same : t = self
  · simp [same, Entry.blocks]
  · simp [same, Ne.symm same, Entry.blocks, since]

/-- A change of priority that comes with a call keeps the lists in order. -/
private theorem reprioritised {s : Sched} (lined : y.Lined) (unlisted : y.sched.events.ring self = none)
    (running : y.running = some self)
    (keeps : ∀ m timeoutTicks, c = .blocking (.mutexLock m timeoutTicks) → y.KeepsPlaces (.call c))
    (changed : Reprioritised y.toKernel self c s) : s.Lined y.since := by
  cases changed with
  | same => exact lined
  | @boosted m timeoutTicks owner call owned other patient lower =>
    subst call
    have boosts : y.boosts (.call (.blocking (.mutexLock m timeoutTicks))) = some (self, owner) := by
      simp only [System.boosts, running, owned, Option.bind_eq_bind, Option.bind_some]
      exact if_pos ⟨other, patient, lower⟩
    exact Sched.Lined.raised lined lower (keeps _ _ rfl _ boosts)
  | restored =>
    refine Sched.Lined.of_fewer lined (fun _ => .refl _) ?_
    intro h t member
    have other : t ≠ self := by
      rintro rfl
      exact Rings.not_mem_of_free unlisted member
    exact ⟨by simp [Mutex.restored, setPriority, other], rfl⟩

/-- The caller falls asleep on the list of its call, if any. -/
private theorem slept {b : BlockingCall} {s₁ s₂ s' : Sched} {wake : Option Tick} (lined : s₁.Lined y.since)
    (free : s₁.events.ring self = none) (enlisted : Enlisted s₁ self b.waitList s₂)
    (slept : Slept s₂ self wake s') :
    s'.Lined (Function.update y.since self (y.log.length + 1)) := by
  have others : ∀ h, ∀ t ∈ s₁.events.items h, t ≠ self := by
    intro h t member
    rintro rfl
    exact Rings.not_mem_of_free free member
  have lined : s₁.Lined (Function.update y.since self (y.log.length + 1)) :=
    lined.of_fewer (fun _ => .refl _) fun h t member => ⟨rfl, Function.update_of_ne (others h t member) ..⟩
  have joined : s₂.Lined (Function.update y.since self (y.log.length + 1)) := by
    cases listed : b.waitList with
    | none =>
      rw [listed] at enlisted
      rw [show s₂ = s₁ from enlisted]
      exact lined
    | some h =>
      rw [listed] at enlisted
      rw [enlisted.2]
      refine lined.enqueued free ?_
      intro t member
      rw [Function.update_self, Function.update_of_ne (others h t member)]
      exact Nat.lt_succ_of_le (latest_le _ _)
  refine joined.of_fewer (fun h => by rw [slept.events]) ?_
  intro h t _
  refine ⟨?_, rfl⟩
  rw [slept.tcb]
  by_cases same : t = self <;> simp [same]

private theorem effect_blocks {k : Kernel} {s' : Sched} {o : Outcome} {woken : Option TaskId}
    (effect : Effect k self c o woken s') (blocks : o = .blocks) : (∃ b, c = .blocking b) ∧ woken = none := by
  cases effect with
  | keeps awake => exact absurd blocks awake
  | sleeps call => exact ⟨⟨_, call⟩, rfl⟩
  | suspends => split at blocks <;> cases blocks
  | _ => cases blocks

private theorem since_entered (ran : y.toKernel.call self c = some r) : (y.entered self c r).since =
    if r.outcome = .blocks then Function.update y.since self (y.log.length + 1) else y.since := by
  split
  · rename_i blocks
    obtain ⟨⟨b, call⟩, nobody⟩ := effect_blocks (call_effect ran) blocks
    exact since_asleep call blocks nobody
  · rename_i awake
    exact since_awake awake

private theorem lined_entered (lined : y.Lined) (linked : Linked y) (running : y.running = some self)
    (busy : ∀ b, y.pc self ≠ .requesting b) (allowed : y.allows c = true)
    (ran : y.toKernel.call self c = some r)
    (keeps : ∀ m timeoutTicks, c = .blocking (.mutexLock m timeoutTicks) → y.KeepsPlaces (.call c)) :
    (y.entered self c r).Lined := by
  have state := linked.self_running running busy
  have unlisted := linked.placed.unlisted (t := self) (by simp [state])
  have step : ∀ {s}, Reprioritised y.toKernel self c s → s.Lined y.since :=
    reprioritised lined unlisted running keeps
  have effect := call_effect ran
  unfold Lined
  rw [since_entered ran]
  show r.kernel.sched.Lined _
  obtain ⟨k, outcome, woken⟩ := r
  dsimp only at effect ⊢
  generalize k.sched = s' at effect
  cases effect with
  | keeps awake changed =>
    rw [if_neg awake]
    exact step changed
  | sleeps _ _ changed enlisted asleep =>
    rw [if_pos rfl]
    exact slept (step changed) (by rw [changed.rest.events]; exact unlisted) enlisted asleep
  | wakes _ shape changed woken =>
    rw [if_neg (by simp)]
    refine (step changed).of_fewer (wakes_fewer (.first (by rw [changed.rest.events]; exact shape) woken)) ?_
    intro h t _
    exact ⟨(same_update woken.tcb rfl rfl).priority t, rfl⟩
  | @creates a u _ call named created =>
    subst call
    rw [if_neg (by simp)]
    refine Sched.Lined.of_fewer lined (fun h => by rw [created.events]) ?_
    intro h t member
    have fresh : (y.sched.tcb u).state = .deleted := fresh_of_allowed allowed named
    have other : t ≠ u := by
      rintro rfl
      rw [created.events] at member
      exact Rings.not_mem_of_free (linked.placed.unlisted (by simp [fresh])) member
    exact ⟨by rw [created.tcb, Function.update_of_ne other], rfl⟩
  | suspends _ suspended =>
    rw [if_neg (by split <;> simp)]
    refine Sched.Lined.of_fewer lined (fun h => by rw [suspended.events]) ?_
    intro h t _
    exact ⟨(same_update suspended.tcb rfl rfl).priority t, rfl⟩
  | resumes _ _ readied =>
    rw [if_neg (by simp)]
    refine Sched.Lined.of_fewer lined (fun h => by rw [readied.events]) ?_
    intro h t _
    exact ⟨(same_update readied.tcb rfl rfl).priority t, rfl⟩

private theorem lined_switched {middle s : Sched} (lined : y.Lined) (requeued : y.sched.requeueCurrent = some middle)
    (selected : Selected middle t s) : (y.switchTo t s).Lined := by
  have events : middle.events = y.sched.events := by
    rcases requeueCurrent_spec requeued with ⟨_, _, _, readied⟩ | ⟨_, rfl⟩
    · exact readied.events
    · rfl
  refine lined_stays lined ⟨[_], rfl, by simp [Entry.blocks]⟩ ?_ ?_
  · intro h
    show (s.events.items h).Sublist _
    rw [selected.events, events]
  · intro h u _
    exact ((same_requeued requeued).trans (same_update selected.tcb rfl rfl)).priority u

theorem Lined.step (lined : y.Lined) (linked : Linked y) (keeps : y.KeepsPlaces event)
    (stepped : y.step event = some z) : z.Lined := by
  cases step_cases stepped with
  | @creates a st s _ allowed made =>
    rcases taskCreate_spec made with ⟨_, rfl⟩ | ⟨u, named, _, created⟩
    · exact lined
    · have fresh : (y.sched.tcb u).state = .deleted := fresh_of_allowed allowed named
      refine lined_stays lined ⟨[], rfl, by simp⟩ (fun h => by rw [created.events]) ?_
      intro h t member
      have other : t ≠ u := by
        rintro rfl
        rw [created.events] at member
        exact Rings.not_mem_of_free (linked.placed.unlisted (by simp [fresh])) member
      rw [created.tcb, Function.update_of_ne other]
  | starts _ selected | selects _ selected =>
    obtain ⟨_, _, requeued, _, _, selected⟩ := selectNext_spec selected
    exact lined_switched lined requeued selected
  | dispatches _ selected =>
    obtain ⟨_, requeued, _, selected⟩ := dispatch_spec selected
    exact lined_switched lined requeued selected
  | @ticks s ticked =>
    have scanned := tick_spec ticked
    have log : (y.ticked s).log = (Entry.requested :: y.sched.expired.map (Entry.woken · .tick) ++
        [.ticked]) ++ y.log := by simp [System.ticked]
    refine lined_stays lined ⟨_, log, ?_⟩ ?_ ?_
    · intro e member t
      simp only [List.cons_append, List.mem_cons, List.mem_append, List.mem_map, List.not_mem_nil, or_false] at member
      rcases member with rfl | ⟨u, _, rfl⟩ | rfl <;> rfl
    · intro h
      show (s.events.items h).Sublist _
      rw [scanned.eventItems]
      exact List.filter_sublist
    · intro h t _
      show (s.tcb t).priority = _
      rw [scanned.tcb]
      split <;> rfl
  | @interrupts c st needsYield woken k ran =>
    have log : (y.interrupted c st needsYield woken k).log = ([.isrReturned c st needsYield] ++
        (wokenEntries woken (some c.signals) ++ gaveEntries y.toKernel k woken (isrGivesTo c))) ++ y.log := by
      simp [interrupted]
    have moved : (∀ h, (k.sched.events.items h).Sublist (y.sched.events.items h)) ∧
        SamePriorities y.sched k.sched := by
      rcases (isr_effect ran).2 with wakes | ⟨_, same⟩
      · exact ⟨wakes_fewer wakes, same_wakes wakes⟩
      · rw [same]
        exact ⟨fun _ => .refl _, .refl _⟩
    refine lined_stays lined ⟨_, log, ?_⟩ moved.1 fun _ t _ => moved.2.priority t
    intro e member t
    rcases List.mem_append.mp member with member | member
    · cases List.mem_singleton.mp member
      rfl
    · exact not_blocked t e member
  | isrRequests => exact lined_rests lined rfl ⟨[_], rfl, by simp [Entry.blocks]⟩
  | calls running _ here allowed ran =>
    exact lined_entered lined linked running (by simp [here]) allowed ran fun _ _ _ => keeps
  | requests => exact lined_rests lined rfl ⟨[_], rfl, by simp [Entry.blocks]⟩
  | finishes running here ran =>
    exact lined_rests lined (linked.resume_keeps running here ran) ⟨[_], rfl, by simp [Entry.blocks]⟩
  | continues running here ran =>
    exact lined_entered lined linked running (by simp [here]) (Linked.allows_internal (linked.internal _ _ here)) ran
      fun _ _ call => by subst call; exact (linked.internal _ _ here).elim
  | @fires self x callback arg =>
    by_cases called : callback ≠ 0
    · exact lined_rests lined rfl ⟨[.invoked x callback arg], by simp [called], by simp [Entry.blocks]⟩
    · exact lined_rests lined rfl ⟨[], by simp [called], by simp⟩

theorem lined_of_run {cfg : Config} (run : KernelRun cfg KeepsPlaces y) : y.Lined := by
  have strong := run.strengthen fun _ => linked_of_run
  refine strong.invariant Lined ?_ fun _ _ _ lined meets stepped => lined.step meets.2 meets.1 stepped
  intro h
  show (schedulerInit.events.items h).Pairwise _
  rw [schedulerInit_spec.events]
  exact .nil

private theorem woken_first {woken : Option TaskId} {signals : Option WaitList} {h : WaitList}
    (member : Entry.woken t (.signal h) ∈ wokenEntries woken signals) : woken = some t ∧ signals = some h := by
  cases woken <;> cases signals <;> simp [wokenEntries] at member
  exact ⟨by rw [member.1], by rw [member.2]⟩

/-- The task a signal wakes was at the head of the list. -/
theorem woken_head {h : WaitList} (linked : Linked y) (stepped : y.step event = some z)
    (logged : Logged y z (.woken t (.signal h))) : ∃ rest, y.sched.events.items h = t :: rest := by
  cases linked.step_moves stepped with
  | quiet quiet =>
    obtain ⟨entries, log, silent⟩ := quiet.log
    cases silent _ ((logged_iff log _).mp logged)
  | @ticks s =>
    have log : (y.ticked s).log = (Entry.requested :: y.sched.expired.map (Entry.woken · .tick) ++
        [.ticked]) ++ y.log := by simp [System.ticked]
    simp [logged_iff log] at logged
  | @interrupts c _ _ woken _ ran =>
    rw [logged_interrupted] at logged
    have member : Entry.woken t (.signal h) ∈ wokenEntries woken (some c.signals) := by
      cases given : isrGivesTo c <;> simpa [gaveEntries, given] using logged
    obtain ⟨rfl, same⟩ := woken_first member
    cases same
    obtain ⟨_, rest, shape, _⟩ := linked.isr_woken_waiting ran
    exact ⟨rest, shape⟩
  | @enters self c r _ _ _ _ _ ran =>
    rw [logged_entered] at logged
    have member : Entry.woken t (.signal h) ∈ wokenEntries r.woken c.signals := by
      rw [List.mem_append, List.mem_append] at logged
      rcases logged with (outcome | member) | gave
      · cases o : r.outcome <;> cases c <;> simp [outcomeEntries, o] at outcome
      · exact member
      · cases given : givesTo c <;> simp [gaveEntries, given] at gave
    obtain ⟨woken, same⟩ := woken_first member
    obtain ⟨h', _, rest, signals, shape, _⟩ := linked.woken_waiting ran woken
    obtain rfl : h' = h := Option.some.inj (signals.symm.trans same)
    exact ⟨rest, shape⟩
  | finishes =>
    rw [logged_finished] at logged
    cases logged

/-- A signal wakes the waiter of the highest effective priority and, among
those, the one that has waited longest. -/
theorem highest_woken {cfg : Config} (run : KernelRun cfg KeepsPlaces y) (stepped : y.step event = some z)
    {h : WaitList} (logged : Logged y z (.woken t (.signal h))) :
    t ∈ y.sched.events.items h ∧ ∀ u ∈ y.sched.events.items h, u ≠ t → y.sched.Outranks y.since t u := by
  obtain ⟨rest, shape⟩ := woken_head (linked_of_run run) stepped logged
  have lined := lined_of_run run h
  rw [shape] at lined ⊢
  refine ⟨List.mem_cons_self, ?_⟩
  intro u member other
  exact (List.pairwise_cons.mp lined).1 u ((List.mem_cons.mp member).resolve_left other)

set_option maxRecDepth 20000 in
/-- A waiter whose priority is raised to that of none ahead of it. -/
theorem highest_woken_boosted : ∃ y, KernelRun {} KeepsPlaces y ∧
    y.sched.events.items (.semaphore 1) = [2, 1] ∧ (y.sched.tcb 1).priority = 3 ∧
    y.sched.Outranks y.since 2 1 := by
  obtain ⟨y, run, rest⟩ : ∃ y, KernelRun {} KeepsPlaces y ∧ decide (
      y.sched.events.items (.semaphore 1) = [2, 1] ∧ (y.sched.tcb 1).priority = 3 ∧
      (y.step (.isr (.semaphoreGiveFromIsr 1))).any fun z =>
        z.log = [.isrReturned (.semaphoreGiveFromIsr 1) .ok true, .woken 2 (.signal (.semaphore 1)),
          .gave 1 true] ++ y.log) = true :=
    GuardedRun.reaches_of_exec
      [.create ⟨some 1, 1, 1, 64, 1⟩, .create ⟨some 2, 1, 1, 64, 4⟩, .create ⟨some 3, 1, 1, 64, 3⟩, .start,
        .call (.blocking (.semaphoreTake 1 waitForever)), .proceed, .pendSV,
        .call (.blocking (.taskDelay 1)), .proceed, .pendSV,
        .call (.blocking (.mutexLock 0 waitForever)), .call (.blocking (.semaphoreTake 1 waitForever)),
        .proceed, .pendSV, .tick, .pendSV, .proceed,
        .call (.blocking (.mutexLock 0 waitForever)), .proceed, .pendSV] _ (by decide +kernel)
  obtain ⟨items, priority, rest⟩ := of_decide_eq_true rest
  obtain ⟨z, stepped, log⟩ := (Option.any_eq_true _ _).mp rest
  have logged : Logged y z (.woken 2 (.signal (.semaphore 1))) :=
    (logged_iff (of_decide_eq_true log) _).mpr (by simp)
  exact ⟨y, run, items, priority,
    (highest_woken run stepped logged).2 1 (by rw [items]; simp) (by simp)⟩

set_option maxRecDepth 20000 in
/-- A waiter boosted past the one ahead of it is not the one woken. -/
theorem boosted_waiter_passed_over : ∃ y z, KernelRun {} (fun y event => ¬y.Chains event) y ∧
    y.step (.isr (.semaphoreGiveFromIsr 1)) = some z ∧ Logged y z (.woken 2 (.signal (.semaphore 1))) ∧
    1 ∈ y.sched.events.items (.semaphore 1) ∧ (y.sched.tcb 2).priority < (y.sched.tcb 1).priority := by
  obtain ⟨y, run, rest⟩ : ∃ y, KernelRun {} (UnchainedBelow 1) y ∧ decide (
      1 ∈ y.sched.events.items (.semaphore 1) ∧ (y.sched.tcb 2).priority < (y.sched.tcb 1).priority ∧
      (y.step (.isr (.semaphoreGiveFromIsr 1))).any fun z =>
        z.log = [.isrReturned (.semaphoreGiveFromIsr 1) .ok true, .woken 2 (.signal (.semaphore 1)),
          .gave 1 true] ++ y.log) = true :=
    GuardedRun.reaches_of_exec
      [.create ⟨some 1, 1, 1, 64, 1⟩, .create ⟨some 2, 1, 1, 64, 2⟩, .create ⟨some 3, 1, 1, 64, 3⟩, .start,
        .call (.blocking (.taskDelay 1)), .proceed, .pendSV,
        .call (.blocking (.semaphoreTake 1 waitForever)), .proceed, .pendSV,
        .call (.blocking (.mutexLock 0 waitForever)), .call (.blocking (.semaphoreTake 1 waitForever)),
        .proceed, .pendSV, .tick, .pendSV, .proceed,
        .call (.blocking (.mutexLock 0 waitForever)), .proceed, .pendSV] _ (by decide +kernel)
  obtain ⟨listed, lower, rest⟩ := of_decide_eq_true rest
  obtain ⟨z, stepped, log⟩ := (Option.any_eq_true _ _).mp rest
  refine ⟨y, z, unchained_run run, stepped, ?_, listed, lower⟩
  exact (logged_iff (of_decide_eq_true log) _).mpr (by simp)

end System

end NimbleRtos
