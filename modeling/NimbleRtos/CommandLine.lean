import NimbleRtos.DemoView
import NimbleRtos.Foundation.LineSplit

/-! The command line of CommsTask. It answers each line that ends and is the
`status` command once, and nothing else; the length of `line_buf` is never seen
and never exceeded. -/
namespace NimbleRtos
open NodeRings Sched NimbleRtos.System GuardedRun LineSplit

namespace PowerSupply
open Port (Placement protection control comms logger timerSvc)

/-- `byte == '\r' || byte == '\n'`. -/
def isLineEnd (byte : UInt8) : Bool := byte = 13 ∨ byte = 10

/-- The `byte` that `nimble_queue_receive` gives comms_task_fn. -/
def byteOf (bytes : Bytes) : UInt8 := bytes.getD 0 0

/-- What has no room in `line_buf` makes no difference to `strcmp`. -/
theorem isStatusCommand_take (line : Bytes) :
    isStatusCommand (line.take (cliLineBufLen - 1)) = isStatusCommand line := by
  rw [isStatusCommand, isStatusCommand, ← List.take_takeWhile]
  refine decide_eq_decide.mpr ⟨?_, ?_⟩
  · intro cut
    have length := congrArg List.length cut
    rw [List.length_take] at length
    rw [← cut, List.take_of_length_le]
    simp [cliLineBufLen] at length ⊢
    omega
  · intro whole
    rw [whole]
    rfl

namespace Place

/-- In the answer to a command, `line_len` not yet zero. -/
def answering {F : Type} : Place F → Bool
  | .lock _ _ => true
  | .access _ _ _ => true
  | .leave _ _ => true
  | .answered => true
  | _ => false

end Place

namespace Demo
variable {F : Type} {scaling : Scaling F} {x z : Demo F} {self t : TaskId}

/-- The reads of the status that CommsTask has begun. -/
def answers (x : Demo F) : Nat :=
  x.begun.countP fun
    | (t, .get) => t = comms
    | _ => false

theorem answers_of_begun {call : Option (StatusCall F)} (begun : z.begun = x.begun ++ (call.map (self, ·)).toList)
    (other : self = comms → call = none) : z.answers = x.answers := by
  rw [answers, answers, begun, List.countP_append, Nat.add_eq_left]
  cases call with
  | none => rfl
  | some call =>
    have elsewhere : self ≠ comms := fun mine => by cases other mine
    cases call <;> simp [elsewhere]

/-- What CommsTask has handled, and what it made of it. -/
structure Commanded (x : Demo F) (handled : Bytes) : Prop where
  flow : (x.system.received uartRxQueue).map byteOf = handled ++ (x.hand byteReader).map byteOf
  answers : x.answers = (ended isLineEnd handled).countP isStatusCommand
  bounded : x.line.length < cliLineBufLen
  line : (x.place comms).answering = false → x.line = (unended isLineEnd handled).take (cliLineBufLen - 1)
  answered : (x.place comms).answering = true → unended isLineEnd handled = []

/-- Only CommsTask changes `line_buf`. -/
theorem line_of_statement (ran : x.statement self scaling = some z) (code : InCode self (x.place self))
    (other : self ≠ comms) : z.line = x.line := by
  have entered : ∀ {c : Call} {there : Place F}, x.enter self c there = some z → z.line = x.line := by
    intro c there ran
    obtain ⟨system, _, rfl⟩ := Option.map_eq_some_iff.mp ran
    rfl
  cases here : x.place self with
  | takeFault | receiveSample | receiveByte | statusLogged | timerWait | timerExpire | lock =>
    simp only [statement, here] at ran
    exact entered ran
  | faultTaken | disableOutput | logStatus | uartBridgeInit | resynced | leave =>
    simp only [statement, here, Option.some.injEq] at ran
    subst ran
    rfl
  | sampleReceived =>
    simp only [statement, here] at ran
    split at ran <;> cases ran <;> rfl
  | runStateMachine =>
    simp only [statement, here, Option.some.injEq] at ran
    subst ran
    unfold Demo.runStateMachine
    dsimp only
    split <;> rfl
  | byteReceived | answered => exact absurd (code.owner (by rw [here]; rfl)) other
  | access _ rest =>
    cases rest with
    | nil =>
      simp only [statement, here] at ran
      exact entered ran
    | cons =>
      simp only [statement, here, Option.some.injEq] at ran
      subst ran
      rfl
  | idling => simp [statement, here] at ran

/-- A statement of CommsTask that handles no byte begins no answer. It goes on
with the one under way, or ends it and clears the line. -/
inductive Continues (x z : Demo F) : Prop where
  | on (line : z.line = x.line) (answering : (z.place comms).answering = (x.place comms).answering)
  | clears (answering : (x.place comms).answering = true) (line : z.line = [])
      (ready : (z.place comms).answering = false)

theorem comms_continues (code : InCode comms (x.place comms)) (ran : x.statement comms scaling = some z)
    (elsewhere : x.place comms ≠ .byteReceived) : (z.place comms).begins = none ∧ Continues x z := by
  have entered : ∀ {c : Call} {there : Place F}, x.enter comms c there = some z → there.begins = none →
      there.answering = (x.place comms).answering → (z.place comms).begins = none ∧ Continues x z := by
    intro c there ran silent answering
    obtain ⟨system, _, rfl⟩ := Option.map_eq_some_iff.mp ran
    exact ⟨by simpa using silent, .on rfl (by simpa using answering)⟩
  generalize here : x.place comms = p at code
  cases code with
  | comms code =>
    cases code with
    | uartBridgeInit =>
      simp only [statement, here, Option.some.injEq] at ran
      subst ran
      exact ⟨by simp [goTo, Place.begins], .on rfl (by simp [goTo, here, Place.answering])⟩
    | receiveByte =>
      simp only [statement, here] at ran
      exact entered ran rfl (by rw [here]; rfl)
    | byteReceived => exact absurd here elsewhere
    | get during =>
      cases during with
      | lock =>
        simp only [statement, here] at ran
        exact entered ran rfl (by rw [here]; rfl)
      | @access rest =>
        cases rest with
        | nil =>
          simp only [statement, here] at ran
          exact entered ran rfl (by rw [here]; rfl)
        | cons access rest =>
          simp only [statement, here, Option.some.injEq] at ran
          subst ran
          exact ⟨by simp [Place.begins], .on rfl (by simp [here, Place.answering])⟩
      | leave =>
        simp only [statement, here, Option.some.injEq] at ran
        subst ran
        exact ⟨by simp [goTo, Place.begins], .on rfl (by simp [goTo, here, Place.answering])⟩
    | answered =>
      simp only [statement, here, Option.some.injEq] at ran
      subst ran
      exact ⟨by simp [goTo, Place.begins], .clears (by rw [here]; rfl) rfl (by simp [goTo, Place.answering])⟩
  | idling => simp [statement, here] at ran

namespace Commanded
variable {handled : Bytes}

theorem startUp (scaling : Scaling F) (place : Placement) : Commanded (startUp scaling place) [] :=
  ⟨rfl, rfl, by simp [PowerSupply.startUp, cliLineBufLen], fun _ => rfl, fun _ => rfl⟩

theorem kernel {event : Event} {system : System} (commanded : Commanded x handled) (orderly : x.Orderly)
    (uncalled : ∀ c, event ≠ .call c) (stepped : x.system.step event = some system) :
    Commanded { x with system } handled := by
  refine ⟨?_, commanded.answers, commanded.bounded, commanded.line, commanded.answered⟩
  obtain ⟨new, received, hand⟩ := orderly.bytes.flow_kernel orderly.linked uncalled stepped
  have before := commanded.flow
  dsimp only [byteReader] at received
  dsimp only
  rw [received, hand, List.map_append, List.map_append, before, List.append_assoc]

/-- A byte is put in the line, ends it or is dropped. -/
theorem lineByte (commanded : Commanded x handled) (here : x.place comms = .byteReceived) (byte : UInt8)
    (flow : ((x.lineByte comms byte).system.received uartRxQueue).map byteOf =
      handled ++ [byte] ++ ((x.lineByte comms byte).hand byteReader).map byteOf) :
    Commanded (x.lineByte comms byte) (handled ++ [byte]) := by
  have line := commanded.line (by rw [here]; rfl)
  have command : isStatusCommand x.line = isStatusCommand (unended isLineEnd handled) := by
    rw [line, isStatusCommand_take]
  unfold Demo.lineByte at flow ⊢
  by_cases last : isLineEnd byte = true
  · have ended : ended isLineEnd (handled ++ [byte]) = ended isLineEnd handled ++ [unended isLineEnd handled] :=
      ended_end last
    have cleared : unended isLineEnd (handled ++ [byte]) = [] := unended_end last
    rw [if_pos (of_decide_eq_true last)] at flow ⊢
    by_cases status : isStatusCommand x.line = true
    · rw [if_pos status] at flow ⊢
      refine ⟨flow, ?_, commanded.bounded, ?_, fun _ => cleared⟩
      · rw [ended, List.countP_append, ← commanded.answers, List.countP_singleton, ← command, if_pos status]
        simp [Demo.answers, begun, goTo]
      · simp [goTo, Place.answering]
    · rw [if_neg status] at flow ⊢
      refine ⟨flow, ?_, by simp [goTo, cliLineBufLen], fun _ => by rw [cleared]; rfl, fun _ => cleared⟩
      rw [ended, List.countP_append, ← commanded.answers, List.countP_singleton, ← command, if_neg status]
      rfl
  · have within : isLineEnd byte = false := by simpa using last
    have ended : ended isLineEnd (handled ++ [byte]) = ended isLineEnd handled := ended_within within
    have grown : unended isLineEnd (handled ++ [byte]) = unended isLineEnd handled ++ [byte] := unended_within within
    have kept := take_concat (cliLineBufLen - 1) (unended isLineEnd handled) byte
    rw [if_neg (of_decide_eq_false within)] at flow ⊢
    rw [← line] at kept
    by_cases room : x.line.length < cliLineBufLen - 1
    · rw [if_pos room] at flow kept ⊢
      refine ⟨flow, by rw [ended]; exact commanded.answers, ?_, fun _ => by rw [grown, kept]; rfl, ?_⟩
      · simp [goTo, cliLineBufLen] at room ⊢
        omega
      · simp [goTo, Place.answering]
    · rw [if_neg room] at flow kept ⊢
      refine ⟨flow, by rw [ended]; exact commanded.answers, commanded.bounded, fun _ => by rw [grown, kept]; rfl, ?_⟩
      simp [goTo, Place.answering]

theorem statement (commanded : Commanded x handled) (orderly : x.Orderly) (running : x.system.running = some self)
    (thread : x.system.pc self = .thread) (ran : x.statement self scaling = some z) :
    ∃ handled', Commanded z handled' := by
  have code := orderly.locked.coded self
  cases orderly.flow_statement (.inr rfl) running thread ran with
  | @gives new received hand elsewhere =>
    have flow : (z.system.received uartRxQueue).map byteOf = handled ++ (z.hand byteReader).map byteOf := by
      dsimp only [byteReader] at received
      rw [received, hand, List.map_append, List.map_append, commanded.flow, List.append_assoc]
    refine ⟨handled, ?_⟩
    by_cases mine : self = comms
    · subst mine
      obtain ⟨silent, continues⟩ := comms_continues code ran (elsewhere rfl)
      have answers : z.answers = x.answers := answers_of_begun (begun_of_statement ran) fun _ => silent
      cases continues with
      | on line answering =>
        exact ⟨flow, answers ▸ commanded.answers, line ▸ commanded.bounded,
          fun ready => line.trans (commanded.line (answering ▸ ready)),
          fun late => commanded.answered (answering ▸ late)⟩
      | clears answering line ready =>
        refine ⟨flow, answers ▸ commanded.answers, by simp [line, cliLineBufLen], ?_, ?_⟩
        · intro _
          rw [line, commanded.answered answering]
          rfl
        · intro late
          rw [ready] at late
          cases late
    · have place := acts_others (acts_of_statement code ran).1 (Ne.symm mine)
      have line := line_of_statement ran code mine
      have answers : z.answers = x.answers := answers_of_begun (begun_of_statement ran) (absurd · mine)
      exact ⟨flow, answers ▸ commanded.answers, line ▸ commanded.bounded,
        fun ready => line.trans (commanded.line (place ▸ ready)), fun late => commanded.answered (place ▸ late)⟩
  | handles mine here succeeded same hand nothing =>
    obtain rfl : self = comms := mine
    have here : x.place comms = .byteReceived := here
    refine ⟨handled ++ [byteOf (x.received comms)], ?_⟩
    have flow : (z.system.received uartRxQueue).map byteOf =
        handled ++ [byteOf (x.received comms)] ++ (z.hand byteReader).map byteOf := by
      have before := commanded.flow
      rw [hand] at before
      dsimp only [byteReader] at same before
      rw [same, nothing, before]
      simp
    simp only [Demo.statement, here, succeeded, if_true, Option.some.injEq] at ran
    subst ran
    exact commanded.lineByte here _ flow

theorem does (commanded : Commanded x handled) (orderly : x.Orderly) (does : Does scaling x z) :
    ∃ handled', Commanded z handled' := by
  cases does with
  | kernel uncalled stepped => exact ⟨handled, commanded.kernel orderly uncalled stepped⟩
  | creates | samples =>
    exact ⟨handled, commanded.flow, commanded.answers, commanded.bounded, commanded.line, commanded.answered⟩
  | states running thread ran => exact commanded.statement orderly running thread ran

end Commanded

/-! ## Runs -/

/-- The bytes kept that CommsTask has not handled yet. -/
def unhandled (x : Demo F) : Bytes :=
  (x.hand byteReader ++ (x.system.queues uartRxQueue).items).map byteOf

/-- CommsTask is blocked in `nimble_queue_receive(&g_uart_rx_queue, …)`. -/
def AwaitsByte (x : Demo F) : Prop :=
  (x.system.sched.tcb comms).state = .blocked ∧ (x.system.pc comms).sleep = some receiveByteCall

instance (x : Demo F) : Decidable x.AwaitsByte := inferInstanceAs (Decidable (_ ∧ _))

/-- What a state of a run says of the bytes `handled` so far. -/
structure CommandLine (x : Demo F) (handled : Bytes) : Prop where
  sent : (x.system.sent uartRxQueue).map byteOf = handled ++ x.unhandled
  answers : x.answers = (ended isLineEnd handled).countP isStatusCommand
  bounded : x.line.length < cliLineBufLen
  line : (x.place comms).answering = false → x.line = (unended isLineEnd handled).take (cliLineBufLen - 1)
  settled : x.AwaitsByte → x.unhandled = [] ∧ (x.place comms).answering = false

theorem commanded_of_run {place : Placement} {guard : Demo F → DemoEvent → Prop}
    (run : DemoRun scaling place guard x) : ∃ handled, Commanded x handled := by
  refine (invariant_of_does (fun x => x.Orderly ∧ ∃ handled, Commanded x handled) run
    ⟨orderly_startUp scaling place, [], .startUp scaling place⟩ ?_).2
  rintro x z ⟨orderly, handled, commanded⟩ does
  exact ⟨orderly.does does, commanded.does orderly does⟩

/-- Whatever is typed and however the bytes come, of the bytes that found room
in the queue CommsTask handles every one in order; it has begun as many answers
as lines have ended that are the `status` command, whatever their length; and
`line_buf` has room for its terminating zero. While it waits for a byte, it has
handled them all and answered for them all. -/
theorem command_line {place : Placement} {guard : Demo F → DemoEvent → Prop} (run : DemoRun scaling place guard x) :
    ∃ handled, CommandLine x handled := by
  have orderly := orderly_of_run run
  obtain ⟨handled, commanded⟩ := commanded_of_run run
  refine ⟨handled, ?_, commanded.answers, commanded.bounded, commanded.line, ?_⟩
  · calc (x.system.sent uartRxQueue).map byteOf
        = (x.system.received uartRxQueue ++ (x.system.queues uartRxQueue).items).map byteOf :=
          congrArg _ orderly.bytes.fifo.balance
      _ = handled ++ x.unhandled := by
        rw [List.map_append, commanded.flow, List.append_assoc, ← List.map_append, Demo.unhandled]
  · intro awaits
    have waiting : x.system.waitStatus comms = .waiting receiveByteCall := Linked.waiting_iff.mpr awaits
    obtain ⟨here, idle⟩ := orderly.bytes.idle waiting
    exact ⟨congrArg (List.map byteOf) idle, by rw [show x.place comms = .byteReceived from here]; rfl⟩

/-- `status`, with a zero and more behind it, and two other lines are typed. -/
def threeLines : List DemoEvent :=
  let tasks (n : Nat) := List.replicate n DemoEvent.task
  List.replicate 6 .main ++ tasks 2 ++ [.pendSV] ++ tasks 2 ++ [.pendSV] ++ tasks 3 ++ [.pendSV] ++ tasks 3 ++
    [.pendSV] ++ [115, 116, 97, 116, 117, 115, 0, 33, 13, 10, 88, 13].map .usart ++ [.pendSV] ++ tasks 30

set_option maxRecDepth 20000 in
theorem threeLines_answered : ∃ x handled, DemoRun rawLimit onBoard Free x ∧ x.AwaitsByte ∧ x.answers = 1 ∧
    x.line = [] ∧ CommandLine x handled := by
  obtain ⟨x, run, reached⟩ : ∃ x, DemoRun rawLimit onBoard Free x ∧
      decide (x.AwaitsByte ∧ x.answers = 1 ∧ x.line = []) = true :=
    reaches_of_exec threeLines _ (by decide +kernel)
  obtain ⟨awaits, answers, line⟩ := of_decide_eq_true reached
  obtain ⟨handled, commands⟩ := command_line run
  exact ⟨x, handled, run, awaits, answers, line, commands⟩

end Demo
end PowerSupply
end NimbleRtos
