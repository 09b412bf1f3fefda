import NimbleRtos.Indexing

/-! Which task runs next. The bit scan finds what a scan of the ready lists
would find, and a task that stays in its ready list moves up by one place with
each selection from that list, whatever is added or removed meanwhile. -/
namespace NimbleRtos
open NodeRings Sched BucketBitmap

/-- The bitmap mirrors the ready lists, a listed task is READY and in the list
of its priority, a RUNNING task is `nimble_current_tcb` and in no list, and the
idle task is awake. -/
structure ReadyLists (s : Sched) : Prop where
  bit : ∀ p, s.readyBitmap.getLsbD p = true ↔ s.links.items (.ready p) ≠ []
  ready : ∀ p t, t ∈ s.links.items (.ready p) → (s.tcb t).state = .ready ∧ (s.tcb t).priority = p
  running : ∀ t, (s.tcb t).state = .running → s.current = some t ∧ s.links.ring t = none
  idleAwake : (s.tcb idle).state = .ready ∨ (s.tcb idle).state = .running

/-- Besides, a READY idle task is listed and priorities are in range. -/
structure Queues (s : Sched) : Prop extends ReadyLists s where
  idleListed : (s.tcb idle).state = .ready → ∃ p, idle ∈ s.links.items (.ready p)
  bounded : ∀ t, (s.tcb t).priority < maxPriorities

namespace Sched

/-- The first task of the highest non-empty list among the `p` lowest. -/
def scan (s : Sched) : Nat → Option TaskId
  | 0 => none
  | p + 1 => (s.links.items (.ready p)).head?.or (s.scan p)

/-- The RUNNING task and the tasks in the ready lists. -/
def runnable (s : Sched) : List TaskId :=
  (s.current.filter fun c => (s.tcb c).state = .running).toList ++
    (List.range maxPriorities).flatMap fun p => s.links.items (.ready p)

/-- The scan finds the head of the highest list that has one. -/
theorem scan_eq {s : Sched} {p q : Nat} {t : TaskId} {rest : List TaskId} (below : q < p)
    (shape : s.links.items (.ready q) = t :: rest)
    (empty : ∀ r, q < r → r < p → s.links.items (.ready r) = []) : s.scan p = some t := by
  induction p with
  | zero => exact absurd below (Nat.not_lt_zero q)
  | succ p ih =>
    by_cases here : q = p
    · subst here
      simp [scan, shape]
    · have higher : q < p := by omega
      rw [scan, empty p higher (Nat.lt_succ_self p)]
      exact ih higher fun r above under => empty r above (Nat.lt_succ_of_lt under)

end Sched

namespace Queues
variable {s s' : Sched} {t u : TaskId} {p : Nat}

theorem listed (queues : Queues s) (t : TaskId) (p : Nat) (threaded : s.links.ring t = some (.ready p)) :
    (s.tcb t).state = .ready ∧ (s.tcb t).priority = p :=
  queues.ready p t ((s.links.mem_items _ _).mpr threaded)

theorem index (queues : Queues s) : Indexes s.readyBitmap fun p => ∃ t, s.links.ring t = some (.ready p) := by
  intro p _
  rw [queues.bit, Rings.items_ne_nil]

/-- The lists as their links tell them. -/
theorem of_links (listed : ∀ t p, s.links.ring t = some (.ready p) →
      (s.tcb t).state = .ready ∧ (s.tcb t).priority = p)
    (index : Indexes s.readyBitmap fun p => ∃ t, s.links.ring t = some (.ready p))
    (running : ∀ t, (s.tcb t).state = .running → s.current = some t ∧ s.links.ring t = none)
    (idleKept : (s.tcb idle).state = .running ∨ ∃ p, s.links.ring idle = some (.ready p))
    (bounded : ∀ t, (s.tcb t).priority < maxPriorities) : Queues s := by
  have inside : ∀ t p, s.links.ring t = some (.ready p) → p < maxPriorities := by
    intro t p threaded
    exact (listed t p threaded).2 ▸ bounded t
  refine ⟨⟨bit_iff_of_index index inside, ?_, running, ?_⟩, ?_, bounded⟩
  · intro p t member
    exact listed t p ((s.links.mem_items _ _).mp member)
  · rcases idleKept with now | ⟨p, threaded⟩
    · exact .inr now
    · exact .inl (listed idle p threaded).1
  · intro ready
    rcases idleKept with now | ⟨p, threaded⟩
    · rw [ready] at now
      cases now
    · exact ⟨p, (s.links.mem_items _ _).mpr threaded⟩

theorem idleKept (queues : Queues s) :
    (s.tcb idle).state = .running ∨ ∃ p, s.links.ring idle = some (.ready p) := by
  rcases queues.idleAwake with ready | running
  · obtain ⟨p, member⟩ := queues.idleListed ready
    exact .inr ⟨p, (s.links.mem_items _ _).mp member⟩
  · exact .inl running

/-- `nimble_scheduler_add_ready` of an unlisted task. -/
theorem readied (queues : Queues s) (readied : Readied s t s') : Queues s' := by
  refine of_links ?_ ?_ ?_ ?_ ?_
  · intro u p threaded
    rw [readied.ring] at threaded
    rw [readied.tcb]
    by_cases same : u = t
    · subst same
      simpa using threaded
    · simpa [same] using queues.listed u p (by simpa [same] using threaded)
  · rw [readied.bitmap]
    exact index_joined queues.index _ readied.ring (by simp [readied.free])
  · intro u running
    rw [readied.tcb] at running
    rw [readied.rest.current, readied.ring]
    by_cases same : u = t
    · simp [same] at running
    · simpa [same] using queues.running u (by simpa [same] using running)
  · rw [readied.tcb, readied.ring]
    by_cases same : idle = t
    · exact .inr ⟨_, by rw [same, Function.update_self]⟩
    · simpa [same] using queues.idleKept
  · intro u
    rw [readied.tcb]
    by_cases same : u = t <;> simp [same, queues.bounded]

/-- `nimble_scheduler_remove` of any task but the idle task. -/
theorem removed (queues : Queues s) (other : t ≠ idle) : Queues (s.remove t) := by
  refine of_links ?_ ?_ ?_ ?_ ?_
  · intro u p threaded
    rw [remove_tcb]
    by_cases same : u = t
    · simp [same] at threaded
    · exact queues.listed u p (by simpa [same] using threaded)
  · apply (index_removed (fun u p threaded => (queues.listed u p threaded).2) queues.index t).congr
    intro p
    apply exists_congr
    intro u
    by_cases same : u = t <;> simp [same]
  · intro u running
    rw [remove_tcb] at running
    obtain ⟨current, free⟩ := queues.running u running
    rw [remove_current, remove_links, Rings.remove_ring]
    refine ⟨current, ?_⟩
    by_cases same : u = t <;> simp [same, free]
  · simpa [Ne.symm other] using queues.idleKept
  · simpa using queues.bounded

/-- A listed task is taken off its list to run, when no task is RUNNING. -/
theorem selected (queues : Queues s) (stopped : ∀ u, (s.tcb u).state ≠ .running)
    (selected : Selected s t s') : Queues { s' with current := some t } := by
  have tcb : ∀ u, (s'.tcb u).priority = (s.tcb u).priority ∧
      (s'.tcb u).state = if u = t then .running else (s.tcb u).state := by
    intro u
    rw [selected.tcb]
    by_cases same : u = t <;> simp [same]
  refine of_links ?_ ?_ ?_ ?_ ?_
  · intro u p threaded
    dsimp only at threaded ⊢
    rw [selected.links, Rings.remove_ring] at threaded
    by_cases same : u = t
    · simp [same] at threaded
    · rw [(tcb u).1, (tcb u).2, if_neg same]
      exact queues.listed u p (by simpa [same] using threaded)
  · dsimp only
    rw [selected.bitmap, selected.links, Rings.remove_ring]
    apply (index_removed (fun u p threaded => (queues.listed u p threaded).2) queues.index t).congr
    intro p
    apply exists_congr
    intro u
    by_cases same : u = t <;> simp [same]
  · intro u running
    dsimp only at running ⊢
    rw [(tcb u).2] at running
    split at running
    · rename_i same
      subst same
      exact ⟨rfl, by rw [selected.links]; simp⟩
    · exact absurd running (stopped u)
  · dsimp only
    rw [(tcb idle).2, selected.links, Rings.remove_ring]
    by_cases same : idle = t
    · exact .inl (if_pos same)
    · rw [if_neg same, Function.update_of_ne same]
      exact queues.idleKept
  · intro u
    rw [(tcb u).1]
    exact queues.bounded u

/-- Requeueing leaves no task RUNNING and every task where it can be selected. -/
theorem requeued {middle : Sched} (queues : Queues s) (requeued : s.requeueCurrent = some middle) :
    Queues middle ∧ (∀ u, (middle.tcb u).state ≠ .running) ∧ ∀ u,
      (∃ p, middle.links.ring u = some (.ready p)) ↔
        (s.tcb u).state = .running ∨ ∃ p, s.links.ring u = some (.ready p) := by
  rcases requeueCurrent_spec requeued with ⟨c, current, running, readied⟩ | ⟨stopped, rfl⟩
  · refine ⟨queues.readied readied, ?_, ?_⟩
    · intro u
      rw [readied.tcb]
      by_cases same : u = c
      · simp [same]
      · rw [Function.update_of_ne same]
        intro other
        exact same (Option.some.inj ((queues.running u other).1.symm.trans current))
    · intro u
      rw [readied.ring]
      by_cases same : u = c
      · simp [same, running]
      · rw [Function.update_of_ne same]
        constructor
        · exact .inr
        · rintro (other | listed)
          · exact absurd (Option.some.inj ((queues.running u other).1.symm.trans current)) same
          · exact listed
  · have stopped : ∀ u, (middle.tcb u).state ≠ .running := by
      intro u running
      exact stopped u (queues.running u running).1 running
    exact ⟨queues, stopped, fun u => by simp [stopped u]⟩

theorem requeueCurrent_defined (queues : Queues s) : ∃ middle, s.requeueCurrent = some middle := by
  unfold requeueCurrent
  split
  · rename_i c _
    split
    · rename_i running
      exact ⟨_, addReady_eq_some.mpr ⟨(queues.running c running).2, rfl⟩⟩
    · exact ⟨_, rfl⟩
  · exact ⟨_, rfl⟩

/-- What `nimble_scheduler_select_next` finds after the requeue. -/
structure Picks (s middle : Sched) (t : TaskId) (s' : Sched) : Prop where
  requeued : s.requeueCurrent = some middle
  nonzero : middle.readyBitmap ≠ 0
  head : ∃ rest, middle.links.items (.ready (highestSetBit middle.readyBitmap)) = t :: rest
  scanned : middle.scan maxPriorities = some t
  selected : Selected middle t s'

theorem picks (queues : Queues s) (selected : s.selectNext = some (t, s')) : ∃ middle, Picks s middle t s' := by
  obtain ⟨middle, rest, requeued, nonzero, shape, selected⟩ := selectNext_spec selected
  obtain ⟨after, _, _⟩ := queues.requeued requeued
  obtain ⟨bound, _, highest⟩ := after.index.highest_occupied nonzero
  refine ⟨middle, requeued, nonzero, ⟨rest, shape⟩, scan_eq bound shape ?_, selected⟩
  intro q above below
  by_contra occupied
  have under := highest q below (Rings.items_ne_nil.mp occupied)
  exact absurd above (Nat.not_lt_of_le under)

/-- There is always a task to select: the idle task is listed once the current
task has been requeued. -/
theorem selectNext_defined (queues : Queues s) : ∃ t s', s.selectNext = some (t, s') := by
  obtain ⟨middle, requeued⟩ := queues.requeueCurrent_defined
  obtain ⟨after, stopped, _⟩ := queues.requeued requeued
  obtain ⟨p, threaded⟩ := after.idleKept.resolve_left (stopped idle)
  have inside : p < maxPriorities := (after.listed idle p threaded).2 ▸ after.bounded idle
  have nonzero := after.index.ne_zero inside ⟨idle, threaded⟩
  obtain ⟨_, occupied, _⟩ := after.index.highest_occupied nonzero
  obtain ⟨t, rest, shape⟩ := List.exists_cons_of_ne_nil (Rings.items_ne_nil.mpr occupied)
  have shape : middle.links.items (.ready (highestSetBit middle.readyBitmap)) = t :: rest := shape
  refine ⟨t, { (middle.remove t).setState t .running with next := some t }, ?_⟩
  simp only [selectNext, requeued, Option.bind_eq_bind, Option.bind_some]
  rw [if_neg nonzero, shape]

/-- The lists are in order again once `nimble_current_tcb` is the returned task. -/
theorem switched {middle : Sched} (queues : Queues s) (picks : Picks s middle t s') :
    Queues { s' with current := some t } := by
  obtain ⟨after, stopped, _⟩ := queues.requeued picks.requeued
  exact after.selected stopped picks.selected

/-! ## No task is lost or duplicated -/

theorem mem_runnable (queues : Queues s) :
    t ∈ s.runnable ↔ (s.tcb t).state = .running ∨ ∃ p, s.links.ring t = some (.ready p) := by
  simp only [runnable, List.mem_append, Option.mem_toList, Option.filter_eq_some_iff, decide_eq_true_eq,
    List.mem_flatMap, List.mem_range, s.links.mem_items]
  constructor
  · rintro (⟨_, running⟩ | ⟨p, _, threaded⟩)
    · exact .inl running
    · exact .inr ⟨p, threaded⟩
  · rintro (running | ⟨p, threaded⟩)
    · exact .inl ⟨(queues.running t running).1, running⟩
    · exact .inr ⟨p, (queues.listed t p threaded).2 ▸ queues.bounded t, threaded⟩

theorem nodup_runnable (queues : Queues s) : s.runnable.Nodup := by
  refine List.nodup_append.mpr ⟨?_, ?_, ?_⟩
  · cases s.current.filter fun c => (s.tcb c).state = .running with
    | none => exact List.nodup_nil
    | some c => exact List.nodup_singleton c
  · refine List.nodup_flatMap.mpr ⟨fun p _ => s.links.nodup _, ?_⟩
    refine List.nodup_range.imp ?_
    intro p q other t here there
    rw [s.links.mem_items] at here there
    rw [here] at there
    exact other (by simpa using there)
  · intro c running u listed same
    subst same
    simp only [Option.mem_toList, Option.filter_eq_some_iff, decide_eq_true_eq] at running
    simp only [List.mem_flatMap, s.links.mem_items] at listed
    obtain ⟨p, _, threaded⟩ := listed
    rw [(queues.running c running.2).2] at threaded
    cases threaded

/-- The tasks that run or are listed are the same after a switch. -/
theorem switched_perm {middle : Sched} (queues : Queues s) (picks : Picks s middle t s') :
    Sched.runnable { s' with current := some t } |>.Perm s.runnable := by
  have after := queues.switched picks
  obtain ⟨_, stopped, placed⟩ := queues.requeued picks.requeued
  rw [List.perm_ext_iff_of_nodup after.nodup_runnable queues.nodup_runnable]
  intro u
  rw [after.mem_runnable, queues.mem_runnable, ← placed]
  dsimp only
  rw [picks.selected.tcb, picks.selected.links, Rings.remove_ring]
  by_cases same : u = t
  · subst same
    obtain ⟨rest, shape⟩ := picks.head
    have threaded := Rings.ring_of_cons shape
    simp [threaded]
  · simp [same, stopped u]

/-- A switch leaves READY and RUNNING tasks READY or RUNNING, and no others. -/
theorem switched_awake {middle : Sched} (queues : Queues s) (picks : Picks s middle t s') (u : TaskId) :
    Linked.Runnable { s' with current := some t } u ↔ Linked.Runnable s u := by
  have ready : (middle.tcb t).state = .ready := by
    obtain ⟨rest, shape⟩ := picks.head
    obtain ⟨after, _, _⟩ := queues.requeued picks.requeued
    exact (after.listed t _ (Rings.ring_of_cons shape)).1
  have chosen : Linked.Runnable { s' with current := some t } u ↔ Linked.Runnable middle u := by
    simp only [Linked.Runnable, picks.selected.tcb]
    by_cases same : u = t <;> simp [same, ready]
  rw [chosen]
  rcases requeueCurrent_spec picks.requeued with ⟨c, _, running, readied⟩ | ⟨_, rfl⟩
  · simp only [Linked.Runnable, readied.tcb]
    by_cases same : u = c <;> simp [same, running]
  · rfl

end Queues

/-! ## Selections in a row -/

/-- The operations on the ready lists. -/
inductive Turn where
  /-- `nimble_scheduler_select_next`, and the store to `nimble_current_tcb`. -/
  | select
  | addReady (t : TaskId)
  | remove (t : TaskId)
  deriving DecidableEq, Repr

/-- The scheduler with its selections, newest first: the list and the task. -/
structure Rota where
  sched : Sched
  picks : List (Nat × TaskId)

namespace Rota

def step (r : Rota) : Turn → Option Rota
  | .select => do
    let middle ← r.sched.requeueCurrent
    let (t, s) ← r.sched.selectNext
    some ⟨{ s with current := some t }, (highestSetBit middle.readyBitmap, t) :: r.picks⟩
  | .addReady t => do
    let sched ← r.sched.addReady t
    some { r with sched }
  | .remove t => some { r with sched := r.sched.remove t }

/-- The selections made from list `p`, oldest first. -/
def picksFrom (r : Rota) (p : Nat) : List TaskId :=
  ((r.picks.filter fun pick => pick.1 = p).map Prod.snd).reverse

/-- The idle task is never removed, nor `u` before it has been selected from
list `p`. -/
def Keeps (p : Nat) (u : TaskId) (r : Rota) : Turn → Prop
  | .remove t => t ≠ idle ∧ (t = u → u ∈ r.picksFrom p)
  | _ => True

instance (p : Nat) (u : TaskId) (r : Rota) : ∀ turn, Decidable (r.Keeps p u turn)
  | .remove t => inferInstanceAs (Decidable (t ≠ idle ∧ (t = u → u ∈ r.picksFrom p)))
  | .select | .addReady _ => .isTrue trivial

variable {r r' : Rota} {turn : Turn} {u : TaskId} {p i : Nat}

/-- A selection as the log has it. -/
theorem step_select (queues : Queues r.sched) (stepped : r.step .select = some r') :
    ∃ middle t s', r.sched.selectNext = some (t, s') ∧ Queues.Picks r.sched middle t s' ∧
      r' = ⟨{ s' with current := some t }, (highestSetBit middle.readyBitmap, t) :: r.picks⟩ := by
  simp only [step, Option.bind_eq_bind, Option.bind_eq_some_iff, Prod.exists, Option.some.injEq] at stepped
  obtain ⟨middle, requeued, t, s', selected, rfl⟩ := stepped
  obtain ⟨middle', picks⟩ := queues.picks selected
  obtain rfl : middle = middle' := Option.some.inj (requeued.symm.trans picks.requeued)
  exact ⟨middle, t, s', selected, picks, rfl⟩

theorem step_queues (queues : Queues r.sched) (keeps : r.Keeps p u turn) (stepped : r.step turn = some r') :
    Queues r'.sched := by
  cases turn with
  | select =>
    obtain ⟨middle, t, s', _, picks, rfl⟩ := step_select queues stepped
    exact queues.switched picks
  | addReady t =>
    simp only [step, Option.bind_eq_bind, Option.bind_eq_some_iff, Option.some.injEq] at stepped
    obtain ⟨s', added, rfl⟩ := stepped
    exact queues.readied (addReady_spec added)
  | remove t =>
    cases stepped
    exact queues.removed keeps.1

theorem picksFrom_cons (r : Rota) (p q : Nat) (t : TaskId) (s : Sched) :
    picksFrom ⟨s, (q, t) :: r.picks⟩ p = r.picksFrom p ++ if q = p then [t] else [] := by
  by_cases same : q = p <;> simp [picksFrom, same]

/-- A task made ready joins the tail of the list of its priority. -/
theorem addReady_items {s s' : Sched} {t : TaskId} (added : s.addReady t = some s') (p : Nat) :
    s'.links.items (.ready p) = s.links.items (.ready p) ++ if (s.tcb t).priority = p then [t] else [] := by
  obtain ⟨free, rfl⟩ := addReady_eq_some.mp added
  have items : (s.readied t).links.items = Function.update s.links.items (.ready (s.tcb t).priority)
      (place (fun _ => false) t (s.links.items (.ready (s.tcb t).priority))) := Rings.link_items free
  rw [items, place_never]
  by_cases same : (s.tcb t).priority = p
  · subst same
    simp
  · have other : ListHead.ready p ≠ .ready (s.tcb t).priority := by simpa [eq_comm] using same
    simp [same, other]

/-- The requeue adds to the tails of the lists only. -/
theorem requeued_items {s middle : Sched} (requeued : s.requeueCurrent = some middle) (p : Nat) :
    ∃ tail, middle.links.items (.ready p) = s.links.items (.ready p) ++ tail := by
  unfold requeueCurrent at requeued
  split at requeued
  · split at requeued
    · exact ⟨_, addReady_items requeued p⟩
    · cases requeued
      exact ⟨[], (List.append_nil _).symm⟩
  · cases requeued
    exact ⟨[], (List.append_nil _).symm⟩

/-- `u` was among the first `i + 1` tasks selected from list `p`, or has not
been selected from it and has places left for the selections still to come. -/
def Waits (p i : Nat) (u : TaskId) (r : Rota) : Prop :=
  u ∈ (r.picksFrom p).take (i + 1) ∨ u ∉ r.picksFrom p ∧ ∃ ahead behind,
    r.sched.links.items (.ready p) = ahead ++ u :: behind ∧ (r.picksFrom p).length + ahead.length ≤ i

namespace Waits

/-- A selection from the list of `u` takes `u` or the task before it. -/
private theorem picked {old ahead behind rest : List TaskId} {t : TaskId}
    (fresh : u ∉ old) (inTime : old.length + ahead.length ≤ i) (distinct : (t :: rest).Nodup)
    (shape : ahead ++ u :: behind = t :: rest) :
    u ∈ (old ++ [t]).take (i + 1) ∨ u ∉ old ++ [t] ∧ ∃ ahead behind,
      rest = ahead ++ u :: behind ∧ (old ++ [t]).length + ahead.length ≤ i := by
  cases ahead with
  | nil =>
    obtain ⟨rfl, _⟩ := List.cons.inj shape
    left
    rw [List.take_of_length_le (by simp at inTime ⊢; omega)]
    simp
  | cons first ahead =>
    obtain ⟨rfl, rfl⟩ := List.cons.inj shape
    have other : u ≠ first := by
      rintro rfl
      exact (List.nodup_cons.mp distinct).1 (by simp)
    refine .inr ⟨by simp [fresh, other], ahead, behind, rfl, ?_⟩
    simp at inTime ⊢
    omega

private theorem select (waits : r.Waits p i u) (queues : Queues r.sched)
    (stepped : r.step .select = some r') : r'.Waits p i u := by
  obtain ⟨middle, t, s', _, picks, rfl⟩ := step_select queues stepped
  obtain ⟨rest, shape⟩ := picks.head
  unfold Waits
  rw [picksFrom_cons]
  rcases waits with taken | ⟨fresh, ahead, behind, here, inTime⟩
  · left
    rw [List.take_append]
    exact List.mem_append_left _ taken
  · obtain ⟨tail, grown⟩ := requeued_items picks.requeued p
    rw [here, List.append_assoc, List.cons_append] at grown
    dsimp only
    rw [picks.selected.links]
    by_cases same : highestSetBit middle.readyBitmap = p
    · rw [same] at shape
      rw [if_pos same, Rings.remove_head shape]
      have distinct := middle.links.nodup (.ready p)
      rw [shape] at distinct
      exact picked fresh inTime distinct (grown.symm.trans shape)
    · have other : ListHead.ready p ≠ .ready (highestSetBit middle.readyBitmap) := by
        simpa [eq_comm] using same
      rw [if_neg same, List.append_nil, Rings.remove_other (Rings.ring_of_cons shape) other]
      exact .inr ⟨fresh, ahead, behind ++ tail, grown, inTime⟩

private theorem remove {t : TaskId} (waits : r.Waits p i u) (keeps : r.Keeps p u (.remove t)) :
    Waits p i u ⟨r.sched.remove t, r.picks⟩ := by
  refine waits.imp id ?_
  rintro ⟨fresh, ahead, behind, here, inTime⟩
  have other : u ≠ t := fun same => fresh (keeps.2 same.symm)
  refine ⟨fresh, ?_⟩
  dsimp only
  rw [remove_links, Rings.remove_items, here, List.erase_append]
  split
  · refine ⟨ahead.erase t, behind, rfl, ?_⟩
    have shorter : (ahead.erase t).length ≤ ahead.length := List.length_erase_le
    exact Nat.le_trans (Nat.add_le_add_left shorter _) inTime
  · refine ⟨ahead, behind.erase t, ?_, inTime⟩
    rw [List.erase_cons_tail (by simpa using other)]

theorem step (waits : r.Waits p i u) (queues : Queues r.sched) (keeps : r.Keeps p u turn)
    (stepped : r.step turn = some r') : r'.Waits p i u := by
  cases turn with
  | select => exact waits.select queues stepped
  | addReady t =>
    simp only [Rota.step, Option.bind_eq_bind, Option.bind_eq_some_iff, Option.some.injEq] at stepped
    obtain ⟨s', added, rfl⟩ := stepped
    refine waits.imp id ?_
    rintro ⟨fresh, ahead, behind, here, inTime⟩
    refine ⟨fresh, ahead, behind ++ if (r.sched.tcb t).priority = p then [t] else [], ?_, inTime⟩
    dsimp only
    rw [addReady_items added, here, List.append_assoc, List.cons_append]
  | remove t =>
    cases stepped
    exact waits.remove keeps

end Waits

theorem queues_of_run {s : Sched} (queues : Queues s)
    (run : GuardedRun.Run step (Keeps p u) ⟨s, []⟩ r) : Queues r.sched :=
  run.invariant (fun r => Queues r.sched) queues fun _ _ _ queues keeps stepped =>
    step_queues queues keeps stepped

/-- A task that stays in its list is selected before the list has had one more
selection than the task had others ahead of it. -/
theorem waits_of_run {s : Sched} (queues : Queues s) (here : (s.links.items (.ready p))[i]? = some u)
    (run : GuardedRun.Run step (Keeps p u) ⟨s, []⟩ r) : r.Waits p i u := by
  have strong := run.strengthen fun _ run => queues_of_run queues run
  refine strong.invariant (Waits p i u) ?_ fun _ _ _ waits meets stepped =>
    waits.step meets.2 meets.1 stepped
  obtain ⟨inside, at_index⟩ := List.getElem?_eq_some_iff.mp here
  refine .inr ⟨by simp [picksFrom], (s.links.items (.ready p)).take i,
    (s.links.items (.ready p)).drop (i + 1), ?_, ?_⟩
  · rw [← at_index, List.getElem_cons_drop, List.take_append_drop]
  · have unpicked : (Rota.mk s []).picksFrom p = [] := rfl
    rw [unpicked, List.length_nil, Nat.zero_add, List.length_take]
    exact Nat.min_le_left _ _

end Rota

/-- The kernel keeps its lists so, in every run that boosts no READY owner. -/
theorem queues_of_kernel {cfg : Config} {y : System} (run : KernelRun cfg Calm y) : Queues y.sched := by
  have linked := linked_of_run run
  have indexed := indexed_of_run run
  refine Queues.of_links ?_ indexed.index ?_ ?_ indexed.bounded
  · intro t p threaded
    exact ⟨linked.placed.ready_iff.mpr ⟨p, threaded⟩, indexed.listed t p threaded⟩
  · intro t running
    exact ⟨linked.running t running, linked.placed.free (.inl running)⟩
  · rcases linked.idleAwake with ready | running
    · exact .inr (linked.placed.ready_iff.mp ready)
    · exact .inl running

/-- Selection is by priority, and in turn among tasks of one priority. -/
theorem selection_fair {s : Sched} (queues : Queues s) :
    (∃ middle t s', s.selectNext = some (t, s') ∧ s.requeueCurrent = some middle ∧
      middle.readyBitmap ≠ 0 ∧ middle.scan maxPriorities = some t ∧
      Queues { s' with current := some t } ∧ s.runnable.Nodup ∧
      (Sched.runnable { s' with current := some t }).Perm s.runnable ∧
      ∀ u, Linked.Runnable { s' with current := some t } u ↔ Linked.Runnable s u) ∧
    ∀ p i u r, (s.links.items (.ready p))[i]? = some u →
      GuardedRun.Run Rota.step (Rota.Keeps p u) ⟨s, []⟩ r → Queues r.sched ∧
        (u ∈ (r.picksFrom p).take (i + 1) ∨
          u ∈ r.sched.links.items (.ready p) ∧ (r.picksFrom p).length ≤ i) := by
  constructor
  · obtain ⟨t, s', selected⟩ := queues.selectNext_defined
    obtain ⟨middle, picks⟩ := queues.picks selected
    exact ⟨middle, t, s', selected, picks.requeued, picks.nonzero, picks.scanned, queues.switched picks,
      queues.nodup_runnable, queues.switched_perm picks, queues.switched_awake picks⟩
  · intro p i u r here run
    refine ⟨Rota.queues_of_run queues run, ?_⟩
    apply (Rota.waits_of_run queues here run).imp id
    rintro ⟨_, ahead, behind, items, inTime⟩
    exact ⟨by simp [items], by omega⟩

set_option maxRecDepth 20000 in
/-- Three tasks of one priority: the third is the second to be selected,
whatever is taken off the list meanwhile. -/
theorem selection_fair_three : ∃ s r, Queues s ∧ (s.links.items (.ready 2))[1]? = some 3 ∧
    GuardedRun.Run Rota.step (Rota.Keeps 2 3) ⟨s, []⟩ r ∧ r.picksFrom 2 = [2, 3] ∧
    (3 ∈ (r.picksFrom 2).take 2 ∨ 3 ∈ r.sched.links.items (.ready 2) ∧ (r.picksFrom 2).length ≤ 1) := by
  obtain ⟨y, run, rest⟩ : ∃ y, KernelRun {} Calm y ∧ decide (
      (y.sched.links.items (.ready 2))[1]? = some 3 ∧
      (GuardedRun.exec Rota.step (Rota.Keeps 2 3) ⟨y.sched, []⟩ [.select, .remove 1, .select]).any
        fun r => r.picksFrom 2 = [2, 3]) = true :=
    GuardedRun.reaches_of_exec [.create ⟨some 1, 1, 1, 64, 2⟩, .create ⟨some 2, 1, 1, 64, 2⟩,
      .create ⟨some 3, 1, 1, 64, 2⟩, .start] _ (by decide +kernel)
  obtain ⟨here, rest⟩ := of_decide_eq_true rest
  obtain ⟨r, ran, picked⟩ := (Option.any_eq_true _ _).mp rest
  have queues := queues_of_kernel run
  have turns := GuardedRun.run_of_exec ran
  exact ⟨y.sched, r, queues, here, turns, of_decide_eq_true picked,
    ((selection_fair queues).2 2 1 3 r here turns).2⟩

/-! ## What selection does not keep -/

theorem queues_schedulerInit : Queues schedulerInit := queues_of_kernel (y := boot {}) .refl

/-- A READY idle task that is in no list leaves the bitmap zero. -/
theorem unlisted_idle : ReadyLists (blank.setState idle .ready) ∧
    (blank.setState idle .ready).selectNext = none := by
  refine ⟨⟨?_, ?_, ?_, .inl rfl⟩, rfl⟩
  · intro p
    simp [blank, setState]
  · intro p t member
    cases member
  · intro t running
    by_cases same : t = idle
    · subst same
      cases running
    · simp [blank, setState, same] at running

/-- A task with a priority that has no list is lost to the bitmap. -/
def outOfRange : Sched :=
  { schedulerInit with
    tcb := Function.update schedulerInit.tcb 1 { priority := 32, basePriority := 32, state := .running }
    current := some 1 }

theorem readyLists_outOfRange : ReadyLists outOfRange := by
  have queues := queues_schedulerInit
  have fresh : (schedulerInit.tcb 1).state = .deleted := rfl
  refine ⟨queues.bit, ?_, ?_, .inl rfl⟩
  · intro p t member
    have ready := queues.ready p t member
    have other : t ≠ 1 := by
      rintro rfl
      rw [fresh] at ready
      cases ready.1
    simpa [outOfRange, other] using ready
  · intro t running
    by_cases same : t = 1
    · subst same
      exact ⟨rfl, rfl⟩
    · have before := queues.running t (by simpa [outOfRange, same] using running)
      cases before.1

/-- `nimble_scheduler_select_next` by itself leaves a task RUNNING that is not
`nimble_current_tcb`. -/
theorem next_not_current : ∃ t s', schedulerInit.selectNext = some (t, s') ∧ ¬ReadyLists s' := by
  obtain ⟨t, s', selected⟩ := queues_schedulerInit.selectNext_defined
  obtain ⟨middle, picks⟩ := queues_schedulerInit.picks selected
  refine ⟨t, s', selected, ?_⟩
  intro lists
  have running : (s'.tcb t).state = .running := by rw [picks.selected.tcb]; simp
  have current : s'.current = none := by
    rw [picks.selected.rest.current, (Linked.requeued_rest picks.requeued).current]
    rfl
  have same := (lists.running t running).1
  rw [current] at same
  cases same

theorem outOfRange_lost : ∃ t s', outOfRange.selectNext = some (t, s') ∧
    ¬ReadyLists { s' with current := some t } := by
  obtain ⟨⟨t, s'⟩, selected, lost⟩ := (Option.any_eq_true (fun picked : TaskId × Sched =>
    decide (picked.2.links.items (.ready 32) ≠ [])) _).mp
      (by decide +kernel : (outOfRange.selectNext).any (fun picked =>
        decide (picked.2.links.items (.ready 32) ≠ [])) = true)
  refine ⟨t, s', selected, ?_⟩
  intro lists
  have set := (lists.bit 32).mpr (of_decide_eq_true lost)
  exact absurd (BitVec.lt_of_getLsbD set) (Nat.lt_irrefl 32)

/-- The invariant of the lists alone neither keeps the bitmap from being zero
nor survives a selection. -/
theorem selection_needs : (ReadyLists (blank.setState idle .ready) ∧
      (blank.setState idle .ready).selectNext = none) ∧
    (ReadyLists schedulerInit ∧ ∃ t s', schedulerInit.selectNext = some (t, s') ∧ ¬ReadyLists s') ∧
    ReadyLists outOfRange ∧ ∃ t s', outOfRange.selectNext = some (t, s') ∧
      ¬ReadyLists { s' with current := some t } :=
  ⟨unlisted_idle, ⟨queues_schedulerInit.toReadyLists, next_not_current⟩,
    readyLists_outOfRange, outOfRange_lost⟩

end NimbleRtos
