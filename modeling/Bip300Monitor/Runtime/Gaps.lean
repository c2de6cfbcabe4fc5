import Bip300Monitor.Foundations.Following
import Bip300Monitor.Foundations.Runs
import Bip300Monitor.Runtime.MainchainEvents

/-!
# Gaps of the global stream

The enforcer never replays a transition. What passed while `monitor` (`extractors/enforcer/src/mainchain.rs`)
was not subscribed is recorded as the gap of the next subscription's boundary, which begins at a tip that
the monitor knew before: the last one in the status row when the process starts, the one in the tip
channel when the stream breaks. Other workers move both of them on, whatever the stream has delivered.

## The model

The enforcer is its transitions, in their order, each with the event that a subscription reports and the
answer of `GetChainTip` from then on. `monitor` and the other workers that read the tip take their steps
between two awaits in any order; a transaction that fails ends the process, which can end anywhere. The
record is the `mainchain_transition` events and the last tip of the status row. A tip comes with the
number of transitions there had been when it was read, and so does a recorded transition, which only the
statements look at.

## What is proved

* `Monitoring.genuine_run` — the numbers are right: a boundary names the tips that the enforcer had after
  so many transitions, and a live transition is the one of its number;
* `Monitoring.sound_step` — what a step does to what is accounted for;
* `gaps_accounted` — every transition since the first boundary is, exactly in the runs that end no
  subscription while the tip it would go on from is ahead of what is recorded.
-/

namespace Bip300Monitor

open Protobuf Runs Following

namespace Mainchain

/-! ### The enforcer -/

/-- A transition: the event that subscriptions report, and the answer to `GetChainTip` after it. -/
structure Move where
  event : SubscribeEventsResponse
  tip : Option BlockHeaderInfo

/-- The enforcer, from some time on. -/
structure Feed where
  origin : Option BlockHeaderInfo
  moves : List Move

namespace Feed

/-- How many transitions there have been. -/
def now (feed : Feed) : ℕ := feed.moves.length

/-- There is another one. -/
def move (feed : Feed) (move : Move) : Feed := { feed with moves := feed.moves ++ [move] }

/-- The answer to `GetChainTip` after so many transitions. -/
def tipAfter (feed : Feed) : ℕ → Option (Option BlockHeaderInfo)
  | 0 => some feed.origin
  | n + 1 => (feed.moves[n]?).map (·.tip)

/-- A call of `GetChainTip`, which may fail. -/
def getChainTip (feed : Feed) (answered : Bool) : Result (Option BlockHeaderInfo) :=
  if answered then .ok ((feed.moves.getLast?.map (·.tip)).getD feed.origin)
  else .error (.status .unavailable "the call failed")

end Feed

/-- A tip, and how many transitions there had been when it was read. -/
structure Seen where
  block : ObservedBlock
  transition : ℕ
  deriving DecidableEq

/-- A tip is read. -/
def Feed.see (feed : Feed) (answered : Bool) : Result Seen := do
  let block ← readTip (feed.getChainTip answered)
  pure ⟨block, feed.now⟩

/-! ### The record -/

/-- A recorded `mainchain_transition`. -/
inductive Entry where
  /-- A boundary, whose header was read after `header` transitions, and whose gap starts at a tip that
  was read after `gapStart` of them. -/
  | boundary (payload : EnforcerEvent) (gapStart : Option ℕ) (header : ℕ)
  /-- The transition of this number, as the stream reported it. -/
  | live (payload : EnforcerEvent) (transition : ℕ)

/-- The transitions that an entry tells of. -/
def Entry.stretch : Entry → ℕ × ℕ
  | .boundary _ gapStart header => (gapStart.getD header, header)
  | .live _ transition => (transition, transition + 1)

/-- What a worker writes in one transaction. -/
inductive Written where
  | nothing
  /-- The last tip of the status row: with a tip observation, or with a snapshot. -/
  | lastTip (tip : Seen)
  | transition (entry : Entry)

/-! ### The workers -/

/-- Where `monitor` is. -/
inductive Phase where
  /-- Its stream is open, and reports the transitions from `stream` on. -/
  | subscribed (stream : ℕ)
  /-- The boundary is made, and to be recorded. -/
  | bounding (stream : ℕ) (payload : EnforcerEvent) (header : ℕ)
  /-- It waits for a message, which is the transition `next`. -/
  | live (next : ℕ)
  /-- The message is converted, and to be recorded. -/
  | received (next : ℕ) (payload : EnforcerEvent)
  /-- `reconcile_tip` asks for the tip. -/
  | reconciling (next : ℕ)
  /-- The tip is another one than the channel's, and to be recorded. -/
  | moved (next : ℕ) (tip : Seen)
  /-- It is recorded, and to be published. -/
  | recorded (next : ℕ) (tip : Seen)
  /-- There is no stream. -/
  | lost

/-- Where `announce_tip_changes` is. -/
inductive Poll where
  | idle
  | moved (tip : Seen)
  | recorded (tip : Seen)

/-- The other workers that record snapshots, and with them the last tip. -/
inductive SnapshotWorker where
  | enforcerState | bmmRequests
  deriving DecidableEq

/-- The workers of a running process: the tip channel, the local variables of `monitor`, and what the
others have read. -/
structure Workers where
  channel : Seen
  gapStart : Option Seen
  phase : Phase
  poll : Poll
  reading : SnapshotWorker → Option Seen

/-- A step of a worker. -/
inductive WorkerAction where
  /-- `subscription_boundary`. -/
  | subscriptionBoundary (answered : Bool)
  | recordBoundary
  /-- `stream.message()` returns an item. -/
  | message
  | recordTransition
  /-- The answer in `reconcile_tip`. -/
  | reconcileTip (answered : Bool)
  | recordReconciled
  | publishReconciled
  /-- `stream.message()` returns an error, or the end. -/
  | streamEnds
  /-- `subscribe_events` succeeds again. -/
  | resubscribe
  /-- The answer in `announce_tip_changes`. -/
  | readTip (answered : Bool)
  | observe
  | announce (received : Bool)
  /-- The second tip of a snapshot is read. -/
  | tipAfter (worker : SnapshotWorker)
  | recordSnapshot (worker : SnapshotWorker)

/-- `subscription_boundary`, from the answer. -/
def readSubscriptionBoundary (answer : Result (Option BlockHeaderInfo)) (gapStart : Option ObservedBlock) :
    Result (EnforcerEvent × ObservedBlock) := do
  let response ← answer
  let tip ← Convert.chainTip response
  boundaryEvent (some (.chainTip tip)) gapStart

/-- One step of a worker, and what it writes. Where an error ends the worker there is no step: it ends
the process. -/
def Workers.step (feed : Feed) (w : Workers) : WorkerAction → Option (Workers × Written)
  | .subscriptionBoundary answered =>
    match w.phase with
    | .subscribed stream =>
      match readSubscriptionBoundary (feed.getChainTip answered) (w.gapStart.map (·.block)) with
      | .ok (payload, _) => some ({ w with phase := .bounding stream payload feed.now }, .nothing)
      | .error _ => some ({ w with phase := .lost }, .nothing)
    | _ => none
  | .recordBoundary =>
    match w.phase with
    | .bounding stream payload header =>
      some ({ w with phase := .live stream },
        .transition (.boundary payload (w.gapStart.map (·.transition)) header))
    | _ => none
  | .message =>
    match w.phase with
    | .live next =>
      match (feed.moves[next]?).map fun move => globalEvent move.event with
      | some (.ok (payload, _)) => some ({ w with phase := .received next payload }, .nothing)
      | _ => none
    | _ => none
  | .recordTransition =>
    match w.phase with
    | .received next payload =>
      some ({ w with phase := .reconciling (next + 1) }, .transition (.live payload next))
    | _ => none
  | .reconcileTip answered =>
    match w.phase with
    | .reconciling next =>
      match feed.see answered with
      | .ok tip =>
        if tip.block ≠ w.channel.block then some ({ w with phase := .moved next tip }, .nothing)
        else some ({ w with phase := .live next }, .nothing)
      | .error _ => some ({ w with phase := .live next }, .nothing)
    | _ => none
  | .recordReconciled =>
    match w.phase with
    | .moved next tip => some ({ w with phase := .recorded next tip }, .lastTip tip)
    | _ => none
  | .publishReconciled =>
    match w.phase with
    | .recorded next tip => some ({ w with channel := tip, phase := .live next }, .nothing)
    | _ => none
  | .streamEnds =>
    match w.phase with
    | .live _ => some ({ w with gapStart := some w.channel, phase := .lost }, .nothing)
    | _ => none
  | .resubscribe =>
    match w.phase with
    | .lost => some ({ w with phase := .subscribed feed.now }, .nothing)
    | _ => none
  | .readTip answered =>
    match w.poll with
    | .idle =>
      match feed.see answered with
      | .ok tip =>
        if w.channel.block.hash ≠ tip.block.hash then some ({ w with poll := .moved tip }, .nothing)
        else some (w, .nothing)
      | .error _ => some (w, .nothing)
    | _ => none
  | .observe =>
    match w.poll with
    | .moved tip => some ({ w with poll := .recorded tip }, .lastTip tip)
    | _ => none
  | .announce received =>
    match w.poll with
    | .recorded tip =>
      if received then some ({ w with channel := tip, poll := .idle }, .nothing)
      else some ({ w with poll := .idle }, .nothing)
    | _ => none
  | .tipAfter worker =>
    match feed.see true with
    | .ok tip => some ({ w with reading := Function.update w.reading worker (some tip) }, .nothing)
    | .error _ => none
  | .recordSnapshot worker =>
    match w.reading worker with
    | some tip => some ({ w with reading := Function.update w.reading worker none }, .lastTip tip)
    | none => none

/-! ### The process -/

/-- Where the process is. -/
inductive Process where
  | down
  /-- `prepare_startup`: the stream is open, and the snapshot is read. -/
  | preparing (stream : ℕ) (anchor tipAfter : Option Seen)
  /-- The run is open, with the tip of the previous one. -/
  | opened (stream : ℕ) (previousRunTip : Option Seen) (anchor tipAfter : Seen)
  /-- The snapshot is recorded. -/
  | described (stream : ℕ) (previousRunTip : Option Seen) (anchor : Seen)
  | running (w : Workers)

/-- The enforcer, the record and the process. The last entry comes first. -/
structure Monitoring where
  feed : Feed
  entries : List Entry
  lastTip : Option Seen
  process : Process

/-- Before the first run. -/
def Monitoring.init (origin : Option BlockHeaderInfo) : Monitoring := ⟨⟨origin, []⟩, [], none, .down⟩

/-- What happens next. -/
inductive Action where
  /-- A block is connected or disconnected. -/
  | move (move : Move)
  /-- The process starts, and subscribes. -/
  | start
  /-- The anchor of the startup snapshot is read. -/
  | anchor
  /-- The tip after it is read. -/
  | tipAfter
  /-- `initialize_identity`. -/
  | initializeIdentity
  /-- The startup snapshot is recorded. -/
  | recordSnapshot
  /-- Its anchor is recorded as a tip, and the workers are spawned. -/
  | recordTip
  | work (a : WorkerAction)
  /-- The process ends. -/
  | stop

/-- A transaction is committed. -/
def Monitoring.commit (s : Monitoring) : Written → Monitoring
  | .nothing => s
  | .lastTip tip => { s with lastTip := some tip }
  | .transition entry => { s with entries := entry :: s.entries }

/-- One step. -/
def Monitoring.step (s : Monitoring) : Action → Option Monitoring
  | .move move => some { s with feed := s.feed.move move }
  | .start =>
    match s.process with
    | .down => some { s with process := .preparing s.feed.now none none }
    | _ => none
  | .anchor =>
    match s.process, s.feed.see true with
    | .preparing stream _ _, .ok tip => some { s with process := .preparing stream (some tip) none }
    | _, _ => none
  | .tipAfter =>
    match s.process, s.feed.see true with
    | .preparing stream (some anchor) _, .ok tip =>
      some { s with process := .preparing stream (some anchor) (some tip) }
    | _, _ => none
  | .initializeIdentity =>
    match s.process with
    | .preparing stream (some anchor) (some tipAfter) =>
      some { s with process := .opened stream s.lastTip anchor tipAfter }
    | _ => none
  | .recordSnapshot =>
    match s.process with
    | .opened stream previousRunTip anchor tipAfter =>
      some { s.commit (.lastTip tipAfter) with process := .described stream previousRunTip anchor }
    | _ => none
  | .recordTip =>
    match s.process with
    | .described stream previousRunTip anchor =>
      some { s.commit (.lastTip anchor) with
        process := .running ⟨anchor, previousRunTip, .subscribed stream, .idle, fun _ => none⟩ }
    | _ => none
  | .work a =>
    match s.process with
    | .running w => (w.step s.feed a).map fun r => { s.commit r.2 with process := .running r.1 }
    | _ => none
  | .stop => some { s with process := .down }

/-! ### What is accounted for -/

/-- The number of transitions when a boundary's header was read. -/
def Entry.header? : Entry → Option ℕ
  | .boundary _ _ header => some header
  | .live .. => none

/-- The header of the dataset's first boundary. -/
def firstBoundary : List Entry → Option ℕ
  | [] => none
  | entry :: entries => (firstBoundary entries).or entry.header?

/-- The subscription has its boundary, and its messages are recorded. -/
def Phase.isLive : Phase → Bool
  | .live _ | .received .. | .reconciling _ | .moved .. | .recorded .. => true
  | .subscribed _ | .bounding .. | .lost => false

/-- From where on `monitor` will still tell of the transitions: the next message of its subscription, or
the start of the gap that its next boundary closes. -/
def Workers.next (w : Workers) : Option ℕ :=
  match w.phase with
  | .live next | .received next _ | .reconciling next | .moved next _ | .recorded next _ => some next
  | .subscribed _ | .bounding .. | .lost => w.gapStart.map (·.transition)

/-- The same while there may be no `monitor`. -/
def Process.next (lastTip : Option Seen) : Process → Option ℕ
  | .down | .preparing .. => lastTip.map (·.transition)
  | .opened _ previousRunTip _ _ | .described _ previousRunTip _ => previousRunTip.map (·.transition)
  | .running w => w.next

/-- The record as the log of a follower. -/
def Monitoring.follower (s : Monitoring) : Follower where
  now := s.feed.now
  start := firstBoundary s.entries
  log := s.entries.map Entry.stretch
  next := s.process.next s.lastTip

/-- The transition up to which the record tells. -/
def Monitoring.recorded (s : Monitoring) : ℕ := reach s.follower.log

/-- The workers, while the process runs. -/
def Process.workers? : Process → Option Workers
  | .running w => some w
  | _ => none

/-- A subscription ends only when the record has reached the tip that the next one would go on from: the
channel's when the stream breaks, the status row's when the process ends. -/
def Monitoring.CaughtUp (s : Monitoring) : Action → Prop
  | .work .streamEnds => ∀ w ∈ s.process.workers?, w.channel.transition ≤ s.recorded
  | .stop => s.entries ≠ [] → ∀ tip ∈ s.lastTip, tip.transition ≤ s.recorded
  | _ => True

/-! ### The numbers are right -/

/-- The enforcer had the tip after that many transitions. -/
def Feed.Saw (feed : Feed) (tip : Seen) : Prop :=
  ∃ answer, feed.tipAfter tip.transition = some answer ∧ readTip (.ok answer) = .ok tip.block

/-- The numbers of an entry are right. -/
def Entry.Genuine (feed : Feed) : Entry → Prop
  | .boundary payload gapStart header => ∃ answer, ∃ gap : Option Seen, ∃ anchor,
    feed.tipAfter header = some answer ∧ (∀ tip ∈ gap, feed.Saw tip) ∧
      gap.map (·.transition) = gapStart ∧
      readSubscriptionBoundary (.ok answer) (gap.map (·.block)) = .ok (payload, anchor)
  | .live payload transition => ∃ move anchor, feed.moves[transition]? = some move ∧
      globalEvent move.event = .ok (payload, anchor)

def Written.Genuine (feed : Feed) : Written → Prop
  | .nothing => True
  | .lastTip tip => feed.Saw tip
  | .transition entry => entry.Genuine feed

def Phase.Genuine (feed : Feed) (gapStart : Option Seen) : Phase → Prop
  | .subscribed stream => stream ≤ feed.now
  | .bounding stream payload header => stream ≤ header ∧
    Entry.Genuine feed (.boundary payload (gapStart.map (·.transition)) header)
  | .received next payload => Entry.Genuine feed (.live payload next)
  | .live next | .reconciling next => next ≤ feed.now
  | .moved next tip | .recorded next tip => next ≤ feed.now ∧ feed.Saw tip
  | .lost => True

def Poll.Genuine (feed : Feed) : Poll → Prop
  | .idle => True
  | .moved tip | .recorded tip => feed.Saw tip

structure Workers.Genuine (feed : Feed) (w : Workers) : Prop where
  channel : feed.Saw w.channel
  gapStart : ∀ tip ∈ w.gapStart, feed.Saw tip
  phase : w.phase.Genuine feed w.gapStart
  poll : w.poll.Genuine feed
  reading : ∀ worker, ∀ tip ∈ w.reading worker, feed.Saw tip

def Process.Genuine (feed : Feed) : Process → Prop
  | .down => True
  | .preparing stream anchor tipAfter =>
    stream ≤ feed.now ∧ (∀ tip ∈ anchor, feed.Saw tip) ∧ ∀ tip ∈ tipAfter, feed.Saw tip
  | .opened stream previousRunTip anchor tipAfter =>
    stream ≤ feed.now ∧ (∀ tip ∈ previousRunTip, feed.Saw tip) ∧ feed.Saw anchor ∧ feed.Saw tipAfter
  | .described stream previousRunTip anchor =>
    stream ≤ feed.now ∧ (∀ tip ∈ previousRunTip, feed.Saw tip) ∧ feed.Saw anchor
  | .running w => w.Genuine feed

/-- The record, the process and the enforcer agree on the numbers; and a subscription without its boundary
has no messages recorded. -/
structure Monitoring.Genuine (s : Monitoring) : Prop where
  entries : ∀ entry ∈ s.entries, entry.Genuine s.feed
  lastTip : ∀ tip ∈ s.lastTip, s.feed.Saw tip
  process : s.process.Genuine s.feed
  first : firstBoundary s.entries = none → s.entries = []
  known : s.entries ≠ [] → s.lastTip ≠ none
  running : ∀ w ∈ s.process.workers?, s.lastTip ≠ none
  bounded : ∀ w ∈ s.process.workers?, w.phase.isLive → s.entries ≠ []

section
variable {feed : Feed} {w w' : Workers} {written : Written} {a : WorkerAction}

/-- Only what has been, has been read. -/
theorem Feed.tipAfter_le {n : ℕ} {answer : Option BlockHeaderInfo}
    (h : feed.tipAfter n = some answer) : n ≤ feed.now := by
  cases n with
  | zero => exact Nat.zero_le _
  | succ n =>
    obtain ⟨move, hmove, -⟩ := Option.map_eq_some_iff.mp h
    exact (List.getElem?_eq_some_iff.mp hmove).1

theorem Feed.Saw.le {tip : Seen} (h : feed.Saw tip) : tip.transition ≤ feed.now := by
  obtain ⟨answer, hanswer, -⟩ := h
  exact Feed.tipAfter_le hanswer

/-- An answered call of `GetChainTip` has the tip of now. -/
theorem Feed.getChainTip_eq_ok {answered : Bool} {answer : Option BlockHeaderInfo}
    (h : feed.getChainTip answered = .ok answer) : feed.tipAfter feed.now = some answer := by
  unfold Feed.getChainTip at h
  split_ifs at h
  cases h
  unfold Feed.now
  rcases List.eq_nil_or_concat' feed.moves with hmoves | ⟨moves, move, hmoves⟩
  · rw [hmoves]
    rfl
  · rw [hmoves, List.length_append, List.length_singleton, List.getLast?_concat]
    simp [Feed.tipAfter, hmoves]

theorem Feed.see_saw {answered : Bool} {tip : Seen} (h : feed.see answered = .ok tip) :
    feed.Saw tip := by
  obtain ⟨block, hblock, h⟩ := Result.bind_eq_ok.mp h
  obtain rfl := Result.pure_eq_ok.mp h
  have hread := hblock
  obtain ⟨answer, hanswer, -⟩ := Result.bind_eq_ok.mp hblock
  rw [hanswer] at hread
  exact ⟨answer, Feed.getChainTip_eq_ok hanswer, hread⟩

/-! What is right stays so. -/

theorem Feed.now_move (feed : Feed) (move : Move) : (feed.move move).now = feed.now + 1 := by
  simp [Feed.move, Feed.now]

theorem Feed.moves_move {move new : Move} {n : ℕ} (h : feed.moves[n]? = some move) :
    (feed.move new).moves[n]? = some move := by
  rw [Feed.move, List.getElem?_append_left (List.getElem?_eq_some_iff.mp h).1]
  exact h

theorem Feed.tipAfter_move {n : ℕ} {answer : Option BlockHeaderInfo} (new : Move)
    (h : feed.tipAfter n = some answer) : (feed.move new).tipAfter n = some answer := by
  cases n with
  | zero => exact h
  | succ n =>
    obtain ⟨move, hmove, htip⟩ := Option.map_eq_some_iff.mp h
    rw [Feed.tipAfter, Feed.moves_move hmove]
    exact congrArg some htip

theorem Feed.Saw.move {tip : Seen} (h : feed.Saw tip) (new : Move) : (feed.move new).Saw tip := by
  obtain ⟨answer, hanswer, hread⟩ := h
  exact ⟨answer, Feed.tipAfter_move new hanswer, hread⟩

theorem Entry.Genuine.move {entry : Entry} (h : entry.Genuine feed) (new : Move) :
    entry.Genuine (feed.move new) := by
  cases entry with
  | boundary payload gapStart header =>
    obtain ⟨answer, gap, anchor, hanswer, hgap, hstart, hread⟩ := h
    exact ⟨answer, gap, anchor, Feed.tipAfter_move new hanswer, fun tip htip => (hgap tip htip).move new,
      hstart, hread⟩
  | live payload transition =>
    obtain ⟨move, anchor, hmove, hevent⟩ := h
    exact ⟨move, anchor, Feed.moves_move hmove, hevent⟩

theorem Phase.Genuine.move {phase : Phase} {gapStart : Option Seen} (h : phase.Genuine feed gapStart)
    (new : Move) : phase.Genuine (feed.move new) gapStart := by
  have hnow : feed.now ≤ (feed.move new).now := by
    rw [Feed.now_move]
    exact Nat.le_succ _
  cases phase with
  | subscribed stream => exact Nat.le_trans h hnow
  | bounding stream payload header => exact ⟨h.1, Entry.Genuine.move h.2 new⟩
  | live next => exact Nat.le_trans h hnow
  | received next payload =>
    have hentry : Entry.Genuine feed (.live payload next) := h
    exact hentry.move new
  | reconciling next => exact Nat.le_trans h hnow
  | moved next tip => exact ⟨Nat.le_trans h.1 hnow, h.2.move new⟩
  | recorded next tip => exact ⟨Nat.le_trans h.1 hnow, h.2.move new⟩
  | lost => trivial

theorem Workers.Genuine.move (h : w.Genuine feed) (new : Move) : w.Genuine (feed.move new) where
  channel := h.channel.move new
  gapStart tip htip := (h.gapStart tip htip).move new
  phase := h.phase.move new
  poll := by
    have hpoll := h.poll
    cases hw : w.poll with
    | idle => trivial
    | moved tip =>
      rw [hw] at hpoll
      exact Feed.Saw.move hpoll new
    | recorded tip =>
      rw [hw] at hpoll
      exact Feed.Saw.move hpoll new
  reading worker tip htip := (h.reading worker tip htip).move new

theorem Process.Genuine.move {process : Process} (h : process.Genuine feed) (new : Move) :
    process.Genuine (feed.move new) := by
  have hnow : feed.now ≤ (feed.move new).now := by
    rw [Feed.now_move]
    exact Nat.le_succ _
  cases process with
  | down => trivial
  | preparing stream anchor tipAfter =>
    exact ⟨h.1.trans hnow, fun tip htip => (h.2.1 tip htip).move new,
      fun tip htip => (h.2.2 tip htip).move new⟩
  | opened stream previousRunTip anchor tipAfter =>
    exact ⟨h.1.trans hnow, fun tip htip => (h.2.1 tip htip).move new, h.2.2.1.move new,
      h.2.2.2.move new⟩
  | described stream previousRunTip anchor =>
    exact ⟨h.1.trans hnow, fun tip htip => (h.2.1 tip htip).move new, h.2.2.move new⟩
  | running w => exact Workers.Genuine.move h new

/-! ### What a worker does -/

/-- What a step of a worker does to the subscription and to the record. -/
inductive Workers.Moves (w w' : Workers) : WorkerAction → Written → Prop
  /-- Neither is touched. -/
  | quiet {a : WorkerAction} {written : Written} (ha : a ≠ .streamEnds)
      (hwritten : ∀ entry, written ≠ .transition entry) (hnext : w'.next = w.next)
      (hlive : w'.phase.isLive = w.phase.isLive) : Moves w w' a written
  /-- The boundary is recorded. -/
  | boundary {stream header : ℕ} {payload : EnforcerEvent} {a : WorkerAction} (ha : a ≠ .streamEnds)
      (hphase : w.phase = .bounding stream payload header) (hnext : w'.phase = .live stream) :
      Moves w w' a (.transition (.boundary payload (w.gapStart.map (·.transition)) header))
  /-- A message is recorded. -/
  | message {next : ℕ} {payload : EnforcerEvent} {a : WorkerAction} (ha : a ≠ .streamEnds)
      (hphase : w.phase = .received next payload) (hnext : w'.phase = .reconciling (next + 1)) :
      Moves w w' a (.transition (.live payload next))
  /-- The stream ends. -/
  | ends (hlive : w.phase.isLive) (hphase : w'.phase = .lost) (hgap : w'.gapStart = some w.channel) :
      Moves w w' .streamEnds .nothing

/-- **What a step of a worker does.** -/
theorem Workers.step_moves (h : w.step feed a = some (w', written)) : Workers.Moves w w' a written := by
  cases a with
  | subscriptionBoundary answered =>
    simp only [Workers.step] at h
    split at h
    · next stream hphase =>
      split at h <;> cases h <;>
        exact .quiet (by simp) (by simp) (by simp [Workers.next, hphase]) (by simp [Phase.isLive, hphase])
    · cases h
  | recordBoundary =>
    simp only [Workers.step] at h
    split at h
    · next stream payload header hphase =>
      cases h
      exact .boundary (by simp) hphase rfl
    · cases h
  | message =>
    simp only [Workers.step] at h
    split at h
    · next next hphase =>
      split at h
      · cases h
        exact .quiet (by simp) (by simp) (by simp [Workers.next, hphase]) (by simp [Phase.isLive, hphase])
      · cases h
    · cases h
  | recordTransition =>
    simp only [Workers.step] at h
    split at h
    · next next payload hphase =>
      cases h
      exact .message (by simp) hphase rfl
    · cases h
  | reconcileTip answered =>
    simp only [Workers.step] at h
    split at h
    · next next hphase =>
      have hquiet : ∀ phase : Phase, phase.isLive = true → Workers.next { w with phase := phase } = some next →
          Workers.Moves w { w with phase := phase } (.reconcileTip answered) .nothing := by
        intro phase hlive hnext
        exact .quiet (by simp) (by simp) (by simpa [Workers.next, hphase] using hnext)
          (by simp [Phase.isLive, hphase] at hlive ⊢; exact hlive)
      split at h
      · split_ifs at h <;> cases h
        · exact hquiet _ rfl rfl
        · exact hquiet _ rfl rfl
      · cases h
        exact hquiet _ rfl rfl
    · cases h
  | recordReconciled =>
    simp only [Workers.step] at h
    split at h
    · next next tip hphase =>
      cases h
      exact .quiet (by simp) (by simp) (by simp [Workers.next, hphase]) (by simp [Phase.isLive, hphase])
    · cases h
  | publishReconciled =>
    simp only [Workers.step] at h
    split at h
    · next next tip hphase =>
      cases h
      exact .quiet (by simp) (by simp) (by simp [Workers.next, hphase]) (by simp [Phase.isLive, hphase])
    · cases h
  | streamEnds =>
    simp only [Workers.step] at h
    split at h
    · next next hphase =>
      cases h
      exact .ends (by rw [hphase]; rfl) rfl rfl
    · cases h
  | resubscribe =>
    simp only [Workers.step] at h
    split at h
    · next hphase =>
      cases h
      exact .quiet (by simp) (by simp) (by simp [Workers.next, hphase]) (by simp [Phase.isLive, hphase])
    · cases h
  | readTip answered =>
    simp only [Workers.step] at h
    split at h
    · split at h
      · split_ifs at h <;> cases h <;> exact .quiet (by simp) (by simp) rfl rfl
      · cases h
        exact .quiet (by simp) (by simp) rfl rfl
    · cases h
  | observe =>
    simp only [Workers.step] at h
    split at h
    · cases h
      exact .quiet (by simp) (by simp) rfl rfl
    · cases h
  | announce received =>
    simp only [Workers.step] at h
    split at h
    · split_ifs at h <;> cases h <;> exact .quiet (by simp) (by simp) rfl rfl
    · cases h
  | tipAfter worker =>
    simp only [Workers.step] at h
    split at h
    · cases h
      exact .quiet (by simp) (by simp) rfl rfl
    · cases h
  | recordSnapshot worker =>
    simp only [Workers.step] at h
    split at h
    · cases h
      exact .quiet (by simp) (by simp) rfl rfl
    · cases h

/-- A boundary that is made from an answer has the right numbers. -/
theorem Entry.genuine_boundary {answered : Bool} {gapStart : Option Seen} {payload : EnforcerEvent}
    {anchor : ObservedBlock} (hgap : ∀ tip ∈ gapStart, feed.Saw tip)
    (h : readSubscriptionBoundary (feed.getChainTip answered) (gapStart.map (·.block)) =
      .ok (payload, anchor)) :
    Entry.Genuine feed (.boundary payload (gapStart.map (·.transition)) feed.now) := by
  have hread := h
  obtain ⟨answer, hanswer, -⟩ := Result.bind_eq_ok.mp h
  rw [hanswer] at hread
  exact ⟨answer, gapStart, anchor, Feed.getChainTip_eq_ok hanswer, hgap, rfl, hread⟩

/-- A transition that the stream reported has been. -/
theorem Entry.Genuine.lt {payload : EnforcerEvent} {next : ℕ}
    (h : Entry.Genuine feed (.live payload next)) : next < feed.now := by
  obtain ⟨move, anchor, hmove, -⟩ := h
  exact (List.getElem?_eq_some_iff.mp hmove).1

/-- What another worker has read changes. -/
theorem Workers.Genuine.reads {worker : SnapshotWorker} {read : Option Seen} (hw : w.Genuine feed)
    (hread : ∀ tip ∈ read, feed.Saw tip) :
    Workers.Genuine feed { w with reading := Function.update w.reading worker read } where
  channel := hw.channel
  gapStart := hw.gapStart
  phase := hw.phase
  poll := hw.poll
  reading other tip htip := by
    have hread' : tip ∈ Function.update w.reading worker read other := htip
    by_cases hother : other = worker
    · rw [hother, Function.update_self] at hread'
      exact hread tip hread'
    · rw [Function.update_of_ne hother] at hread'
      exact hw.reading other tip hread'

/-- **A worker keeps the numbers right**, and writes right ones. -/
theorem Workers.genuine_step (hw : w.Genuine feed) (h : w.step feed a = some (w', written)) :
    w'.Genuine feed ∧ written.Genuine feed := by
  obtain ⟨hchannel, hgap, hphase, hpoll, hreading⟩ := hw
  cases a with
  | subscriptionBoundary answered =>
    simp only [Workers.step] at h
    split at h
    · next stream hat =>
      rw [hat] at hphase
      split at h
      · next payload anchor hread =>
        cases h
        exact ⟨⟨hchannel, hgap, ⟨hphase, Entry.genuine_boundary hgap hread⟩, hpoll, hreading⟩, trivial⟩
      · cases h
        exact ⟨⟨hchannel, hgap, trivial, hpoll, hreading⟩, trivial⟩
    · cases h
  | recordBoundary =>
    simp only [Workers.step] at h
    split at h
    · next stream payload header hat =>
      rw [hat] at hphase
      cases h
      obtain ⟨hstream, hentry⟩ := hphase
      obtain ⟨answer, gap, anchor, hanswer, -⟩ := id hentry
      exact ⟨⟨hchannel, hgap, hstream.trans (Feed.tipAfter_le hanswer), hpoll, hreading⟩, hentry⟩
    · cases h
  | message =>
    simp only [Workers.step] at h
    split at h
    · next next hat =>
      split at h
      · next payload anchor hmessage =>
        cases h
        obtain ⟨move, hmove, hevent⟩ := Option.map_eq_some_iff.mp hmessage
        exact ⟨⟨hchannel, hgap, ⟨move, anchor, hmove, hevent⟩, hpoll, hreading⟩, trivial⟩
      · cases h
    · cases h
  | recordTransition =>
    simp only [Workers.step] at h
    split at h
    · next next payload hat =>
      rw [hat] at hphase
      cases h
      exact ⟨⟨hchannel, hgap, Entry.Genuine.lt hphase, hpoll, hreading⟩, hphase⟩
    · cases h
  | reconcileTip answered =>
    simp only [Workers.step] at h
    split at h
    · next next hat =>
      rw [hat] at hphase
      split at h
      · next tip hsee =>
        split_ifs at h <;> cases h
        · exact ⟨⟨hchannel, hgap, ⟨hphase, Feed.see_saw hsee⟩, hpoll, hreading⟩, trivial⟩
        · exact ⟨⟨hchannel, hgap, hphase, hpoll, hreading⟩, trivial⟩
      · cases h
        exact ⟨⟨hchannel, hgap, hphase, hpoll, hreading⟩, trivial⟩
    · cases h
  | recordReconciled =>
    simp only [Workers.step] at h
    split at h
    · next next tip hat =>
      rw [hat] at hphase
      cases h
      exact ⟨⟨hchannel, hgap, hphase, hpoll, hreading⟩, hphase.2⟩
    · cases h
  | publishReconciled =>
    simp only [Workers.step] at h
    split at h
    · next next tip hat =>
      rw [hat] at hphase
      cases h
      exact ⟨⟨hphase.2, hgap, hphase.1, hpoll, hreading⟩, trivial⟩
    · cases h
  | streamEnds =>
    simp only [Workers.step] at h
    split at h
    · cases h
      refine ⟨⟨hchannel, fun tip htip => ?_, trivial, hpoll, hreading⟩, trivial⟩
      cases htip
      exact hchannel
    · cases h
  | resubscribe =>
    simp only [Workers.step] at h
    split at h
    · cases h
      exact ⟨⟨hchannel, hgap, Nat.le_refl _, hpoll, hreading⟩, trivial⟩
    · cases h
  | readTip answered =>
    simp only [Workers.step] at h
    split at h
    · split at h
      · next tip hsee =>
        split_ifs at h <;> cases h
        · exact ⟨⟨hchannel, hgap, hphase, Feed.see_saw hsee, hreading⟩, trivial⟩
        · exact ⟨⟨hchannel, hgap, hphase, hpoll, hreading⟩, trivial⟩
      · cases h
        exact ⟨⟨hchannel, hgap, hphase, hpoll, hreading⟩, trivial⟩
    · cases h
  | observe =>
    simp only [Workers.step] at h
    split at h
    · next tip hat =>
      rw [hat] at hpoll
      cases h
      exact ⟨⟨hchannel, hgap, hphase, hpoll, hreading⟩, hpoll⟩
    · cases h
  | announce received =>
    simp only [Workers.step] at h
    split at h
    · next tip hat =>
      rw [hat] at hpoll
      split_ifs at h <;> cases h
      · exact ⟨⟨hpoll, hgap, hphase, trivial, hreading⟩, trivial⟩
      · exact ⟨⟨hchannel, hgap, hphase, trivial, hreading⟩, trivial⟩
    · cases h
  | tipAfter worker =>
    simp only [Workers.step] at h
    split at h
    · next tip hsee =>
      cases h
      refine ⟨Workers.Genuine.reads ⟨hchannel, hgap, hphase, hpoll, hreading⟩ fun tip' htip => ?_, trivial⟩
      cases htip
      exact Feed.see_saw hsee
    · cases h
  | recordSnapshot worker =>
    simp only [Workers.step] at h
    split at h
    · next tip hat =>
      cases h
      have hw : w.Genuine feed := ⟨hchannel, hgap, hphase, hpoll, hreading⟩
      exact ⟨hw.reads (fun _ h => by cases h), hreading worker tip hat⟩
    · cases h

end

/-! ### The whole system -/

section
variable {s t : Monitoring} {a : Action}

theorem Monitoring.Genuine.init (origin : Option BlockHeaderInfo) : (Monitoring.init origin).Genuine where
  entries _ h := by cases h
  lastTip _ h := by cases h
  process := trivial
  first _ := rfl
  known h := absurd rfl h
  running _ h := by cases h
  bounded _ h := by cases h

/-- The process moves on, and the record stays as it is. -/
theorem Monitoring.Genuine.proceed {process : Process} (hs : s.Genuine)
    (hprocess : process.Genuine s.feed) (hworkers : process.workers? = none) :
    Monitoring.Genuine { s with process := process } where
  entries := hs.entries
  lastTip := hs.lastTip
  process := hprocess
  first := hs.first
  known := hs.known
  running w h := by
    rw [hworkers] at h
    cases h
  bounded w h := by
    rw [hworkers] at h
    cases h

/-- Startup writes a tip. -/
theorem Monitoring.Genuine.startup {process : Process} {tip : Seen} (hs : s.Genuine) (htip : s.feed.Saw tip)
    (hprocess : process.Genuine s.feed)
    (hworkers : ∀ w ∈ process.workers?, w.phase.isLive = false) :
    Monitoring.Genuine { s with lastTip := some tip, process := process } where
  entries := hs.entries
  lastTip tip' h := by
    cases h
    exact htip
  process := hprocess
  first := hs.first
  known _ := by simp
  running _ _ := by simp
  bounded w h hlive := by
    rw [hworkers w h] at hlive
    cases hlive

/-- A worker steps. -/
theorem Monitoring.Genuine.work {w w' : Workers} {written : Written} {b : WorkerAction} (hs : s.Genuine)
    (hw : s.process = .running w) (h : w.step s.feed b = some (w', written)) :
    Monitoring.Genuine { s.commit written with process := .running w' } := by
  have hgenuine := hs.process
  rw [hw] at hgenuine
  obtain ⟨hw', hwritten⟩ := Workers.genuine_step hgenuine h
  have hknown : s.lastTip ≠ none := hs.running w (by rw [hw]; rfl)
  have hlive : w.phase.isLive → s.entries ≠ [] := hs.bounded w (by rw [hw]; rfl)
  have hmoves := Workers.step_moves h
  cases written with
  | nothing =>
    refine ⟨hs.entries, hs.lastTip, hw', hs.first, hs.known, fun _ _ => hknown, fun v hv hv' => ?_⟩
    cases hv
    cases hmoves with
    | quiet _ _ _ hsame => exact hlive (by rw [← hsame]; exact hv')
    | ends _ hphase _ =>
      rw [hphase] at hv'
      cases hv'
  | lastTip tip =>
    refine ⟨hs.entries, fun tip' htip => ?_, hw', hs.first, fun _ => by simp [commit],
      fun _ _ => by simp [commit], fun v hv hv' => ?_⟩
    · cases htip
      exact hwritten
    · cases hv
      cases hmoves with
      | quiet _ _ _ hsame => exact hlive (by rw [← hsame]; exact hv')
  | transition entry =>
    refine ⟨fun entry' hentry => ?_, hs.lastTip, hw', fun hnone => ?_, fun _ => hknown, fun _ _ => hknown,
      fun _ _ _ => by simp [commit]⟩
    · rcases List.mem_cons.mp hentry with rfl | hentry
      · exact hwritten
      · exact hs.entries entry' hentry
    · simp only [commit, firstBoundary, Option.or_eq_none_iff] at hnone
      obtain ⟨hnone, hheader⟩ := hnone
      cases hmoves with
      | quiet _ hwritten _ _ => exact absurd rfl (hwritten entry)
      | boundary => cases hheader
      | message _ hphase _ => exact absurd (hs.first hnone) (hlive (by rw [hphase]; rfl))

/-- **One step keeps the numbers right.** -/
theorem Monitoring.genuine_step (hs : s.Genuine) (h : s.step a = some t) : t.Genuine := by
  cases a with
  | move move =>
    cases h
    exact ⟨fun entry hentry => (hs.entries entry hentry).move move,
      fun tip htip => (hs.lastTip tip htip).move move, hs.process.move move, hs.first, hs.known,
      hs.running, hs.bounded⟩
  | start =>
    simp only [Monitoring.step] at h
    split at h
    · cases h
      exact hs.proceed ⟨Nat.le_refl _, by simp, by simp⟩ rfl
    · cases h
  | anchor =>
    simp only [Monitoring.step] at h
    split at h
    · next stream anchor tipAfter tip hprocess hsee =>
      cases h
      have hgenuine := hs.process
      rw [hprocess] at hgenuine
      refine hs.proceed ⟨hgenuine.1, fun tip' htip => ?_, fun _ h => by cases h⟩ rfl
      cases htip
      exact Feed.see_saw hsee
    · cases h
  | tipAfter =>
    simp only [Monitoring.step] at h
    split at h
    · next stream anchor tipAfter tip hprocess hsee =>
      cases h
      have hgenuine := hs.process
      rw [hprocess] at hgenuine
      refine hs.proceed ⟨hgenuine.1, hgenuine.2.1, fun tip' htip => ?_⟩ rfl
      cases htip
      exact Feed.see_saw hsee
    · cases h
  | initializeIdentity =>
    simp only [Monitoring.step] at h
    split at h
    · next stream anchor tipAfter hprocess =>
      cases h
      have hgenuine := hs.process
      rw [hprocess] at hgenuine
      exact hs.proceed ⟨hgenuine.1, hs.lastTip, hgenuine.2.1 anchor rfl, hgenuine.2.2 tipAfter rfl⟩ rfl
    · cases h
  | recordSnapshot =>
    simp only [Monitoring.step] at h
    split at h
    · next stream previousRunTip anchor tipAfter hprocess =>
      cases h
      have hgenuine := hs.process
      rw [hprocess] at hgenuine
      obtain ⟨hstream, hprevious, hanchor, hafter⟩ := hgenuine
      exact hs.startup hafter ⟨hstream, hprevious, hanchor⟩ (fun w hw => by cases hw)
    · cases h
  | recordTip =>
    simp only [Monitoring.step] at h
    split at h
    · next stream previousRunTip anchor hprocess =>
      cases h
      have hgenuine := hs.process
      rw [hprocess] at hgenuine
      obtain ⟨hstream, hprevious, hanchor⟩ := hgenuine
      refine hs.startup hanchor ⟨hanchor, hprevious, hstream, trivial, fun _ _ h => by cases h⟩
        fun w hw => ?_
      cases hw
      rfl
    · cases h
  | work b =>
    simp only [Monitoring.step] at h
    split at h
    · next w hprocess =>
      obtain ⟨⟨w', written⟩, hstep, rfl⟩ := Option.map_eq_some_iff.mp h
      exact hs.work hprocess hstep
    · cases h
  | stop =>
    cases h
    exact hs.proceed trivial rfl

/-- **The numbers are right** in every run. -/
theorem Monitoring.genuine_run {origin : Option BlockHeaderInfo} {as : List Action}
    (h : run Monitoring.step (Monitoring.init origin) as = some s) : s.Genuine :=
  run_invariant (fun _ _ _ hs hstep => Monitoring.genuine_step hs hstep) (.init origin) h

/-! ### What becomes of the follower -/

@[simp] theorem Monitoring.follower_start (s : Monitoring) :
    s.follower.start = firstBoundary s.entries := rfl

/-- Something is recorded exactly when a boundary is. -/
theorem Monitoring.Genuine.start_iff (hs : s.Genuine) :
    s.follower.start ≠ none ↔ s.entries ≠ [] := by
  refine ⟨fun hstart hentries => hstart ?_, fun hentries hstart => hentries (hs.first hstart)⟩
  rw [Monitoring.follower_start, hentries]
  rfl

/-- A worker that neither records a transition nor loses its stream leaves the follower as it is. -/
theorem Monitoring.follower_quiet {w w' : Workers} {written : Written} (hw : s.process = .running w)
    (hwritten : ∀ entry, written ≠ .transition entry) (hnext : w'.next = w.next) :
    Monitoring.follower { s.commit written with process := .running w' } = s.follower := by
  cases written with
  | nothing => simp [Monitoring.follower, Monitoring.commit, Process.next, hw, hnext]
  | lastTip tip => simp [Monitoring.follower, Monitoring.commit, Process.next, hw, hnext]
  | transition entry => exact absurd rfl (hwritten entry)

/-- A boundary is recorded. -/
theorem Monitoring.sound_boundary {w w' : Workers} {stream header : ℕ} {payload : EnforcerEvent}
    (hs : s.Genuine) (hf : s.follower.Sound) (hw : s.process = .running w)
    (hphase : w.phase = .bounding stream payload header) (hnext : w'.phase = .live stream) :
    Follower.Sound (Monitoring.follower
      { s.commit (.transition (.boundary payload (w.gapStart.map (·.transition)) header)) with
        process := .running w' }) := by
  have hgenuine := hs.process
  rw [hw] at hgenuine
  have hbounding := hgenuine.phase
  rw [hphase] at hbounding
  obtain ⟨hstream, answer, gap, anchor, hanswer, -⟩ := hbounding
  have hheader : header ≤ s.follower.now := Feed.tipAfter_le hanswer
  have hnow : s.follower.next = w.gapStart.map (·.transition) := by
    simp [Monitoring.follower, Process.next, hw, Workers.next, hphase]
  by_cases hstart : s.follower.start = none
  · have hentries : s.entries = [] := hs.first hstart
    have hopen : Follower.Sound { s.follower with
        start := some header
        log := [((w.gapStart.map (·.transition)).getD header, header)]
        next := some stream } := Follower.Sound.open hheader hstream
    simpa [Monitoring.follower, Monitoring.commit, Process.next, Workers.next, hnext, hentries,
      firstBoundary, Entry.header?, Entry.stretch] using hopen
  · obtain ⟨lo, hlo, -⟩ := hf.next hstart
    rw [hnow] at hlo
    obtain ⟨tip, htip, rfl⟩ := Option.map_eq_some_iff.mp hlo
    have hrecord := hf.record hstart (hnow.trans hlo) hheader hstream
    obtain ⟨first, hfirst⟩ := Option.ne_none_iff_exists'.mp hstart
    rw [Monitoring.follower_start] at hfirst
    simpa [Monitoring.follower, Monitoring.commit, Process.next, Workers.next, hnext, firstBoundary,
      Entry.stretch, htip, hfirst] using hrecord

/-- A message is recorded. -/
theorem Monitoring.sound_message {w w' : Workers} {next : ℕ} {payload : EnforcerEvent}
    (hs : s.Genuine) (hf : s.follower.Sound) (hw : s.process = .running w)
    (hphase : w.phase = .received next payload) (hnext : w'.phase = .reconciling (next + 1)) :
    Follower.Sound (Monitoring.follower
      { s.commit (.transition (.live payload next)) with process := .running w' }) := by
  have hgenuine := hs.process
  rw [hw] at hgenuine
  have hreceived := hgenuine.phase
  rw [hphase] at hreceived
  have hlt : next < s.feed.now := Entry.Genuine.lt hreceived
  have hlive : s.entries ≠ [] := hs.bounded w (by rw [hw]; rfl) (by rw [hphase]; rfl)
  have hstart := hs.start_iff.mpr hlive
  have hnow : s.follower.next = some next := by
    simp [Monitoring.follower, Process.next, hw, Workers.next, hphase]
  have hrecord := hf.record hstart hnow (Nat.succ_le_of_lt hlt) (Nat.le_refl _)
  obtain ⟨first, hfirst⟩ := Option.ne_none_iff_exists'.mp hstart
  rw [Monitoring.follower_start] at hfirst
  simpa [Monitoring.follower, Monitoring.commit, Process.next, Workers.next, hnext, firstBoundary,
    Entry.stretch, hfirst] using hrecord

/-- **A step keeps the follower sound**, if it ends no subscription that is behind. -/
theorem Monitoring.sound_step (hs : s.Genuine) (hf : s.follower.Sound) (hcaught : s.CaughtUp a)
    (h : s.step a = some t) : t.follower.Sound := by
  cases a with
  | move move =>
    cases h
    have hwait := hf.wait (Nat.le_succ s.feed.now)
    simpa [Monitoring.follower, Feed.now_move] using hwait
  | start =>
    simp only [Monitoring.step] at h
    split at h
    · next hprocess =>
      cases h
      simpa [Monitoring.follower, Process.next, hprocess] using hf
    · cases h
  | anchor =>
    simp only [Monitoring.step] at h
    split at h
    · next hprocess _ =>
      cases h
      simpa [Monitoring.follower, Process.next, hprocess] using hf
    · cases h
  | tipAfter =>
    simp only [Monitoring.step] at h
    split at h
    · next hprocess _ =>
      cases h
      simpa [Monitoring.follower, Process.next, hprocess] using hf
    · cases h
  | initializeIdentity =>
    simp only [Monitoring.step] at h
    split at h
    · next hprocess =>
      cases h
      simpa [Monitoring.follower, Process.next, hprocess] using hf
    · cases h
  | recordSnapshot =>
    simp only [Monitoring.step] at h
    split at h
    · next hprocess =>
      cases h
      simpa [Monitoring.follower, Monitoring.commit, Process.next, hprocess] using hf
    · cases h
  | recordTip =>
    simp only [Monitoring.step] at h
    split at h
    · next hprocess =>
      cases h
      simpa [Monitoring.follower, Monitoring.commit, Process.next, Workers.next, hprocess] using hf
    · cases h
  | work b =>
    simp only [Monitoring.step] at h
    split at h
    · next w hprocess =>
      obtain ⟨⟨w', written⟩, hstep, rfl⟩ := Option.map_eq_some_iff.mp h
      cases Workers.step_moves hstep with
      | quiet _ hwritten hnext _ =>
        rw [Monitoring.follower_quiet hprocess hwritten hnext]
        exact hf
      | boundary _ hphase hnext => exact Monitoring.sound_boundary hs hf hprocess hphase hnext
      | message _ hphase hnext => exact Monitoring.sound_message hs hf hprocess hphase hnext
      | ends hlive hphase hgap =>
        have hreached : w.channel.transition ≤ reach s.follower.log := hcaught w (by rw [hprocess]; rfl)
        have hresume : Follower.Sound { s.follower with next := some w.channel.transition } :=
          hf.resume fun _ => ⟨_, rfl, hreached⟩
        simpa [Monitoring.follower, Monitoring.commit, Process.next, Workers.next, hphase, hgap] using hresume
    · cases h
  | stop =>
    cases h
    refine hf.resume fun hstart => ?_
    have hentries := hs.start_iff.mp hstart
    obtain ⟨tip, htip⟩ := Option.ne_none_iff_exists'.mp (hs.known hentries)
    exact ⟨tip.transition, by rw [htip]; rfl, hcaught hentries tip htip⟩

/-- A step after which everything is accounted for ended no subscription that was behind. -/
theorem Monitoring.caughtUp_of_accounted (hs : s.Genuine) (hf : s.follower.Sound)
    (h : s.step a = some t) (ht : t.follower.Accounted) : s.CaughtUp a := by
  cases a with
  | work b =>
    cases b with
    | streamEnds =>
      intro w hw
      simp only [Monitoring.step] at h
      split at h
      · next v hprocess =>
        rw [hprocess] at hw
        cases hw
        obtain ⟨⟨w', written⟩, hstep, rfl⟩ := Option.map_eq_some_iff.mp h
        have hgenuine := hs.process
        rw [hprocess] at hgenuine
        cases Workers.step_moves hstep with
        | quiet ha _ _ _ => exact absurd rfl ha
        | boundary ha _ _ => exact absurd rfl ha
        | message ha _ _ => exact absurd rfl ha
        | ends hlive hphase hgap =>
          have hstart := hs.start_iff.mpr (hs.bounded w (by rw [hprocess]; rfl) hlive)
          refine hf.reached hstart hgenuine.channel.le ?_
          simpa [Monitoring.follower, Monitoring.commit, Process.next, Workers.next, hphase, hgap] using ht
      · cases h
    | _ => trivial
  | stop =>
    intro hentries tip htip
    cases h
    refine hf.reached (hs.start_iff.mpr hentries) (hs.lastTip tip htip).le ?_
    have hnext : s.lastTip.map (·.transition) = some tip.transition := by
      rw [Option.mem_def.mp htip]
      rfl
    simpa [Monitoring.follower, Process.next, hnext] using ht
  | _ => trivial

/-- Nothing is recorded at first. -/
theorem Monitoring.sound_init (origin : Option BlockHeaderInfo) :
    (Monitoring.init origin).follower.Sound where
  within := Nat.le_refl _
  started := by simp [Monitoring.init, firstBoundary]
  complete := by simp [Monitoring.init, firstBoundary]
  next h := absurd rfl h

/-- **Every transition since the first boundary is accounted for**: recorded as a live one, within the
gap of a recorded boundary or of the one that the next subscription records, or yet to be delivered by the
subscription. That is so at every point of a run exactly when no subscription ends while the tip that the
next one goes on from is of a transition that the record has not reached. -/
theorem gaps_accounted (origin : Option BlockHeaderInfo) (as : List Action) (s : Monitoring)
    (h : run Monitoring.step (Monitoring.init origin) as = some s) :
    (∀ bs t, bs <+: as → run Monitoring.step (Monitoring.init origin) bs = some t →
      t.follower.Accounted) ↔ Along Monitoring.step Monitoring.CaughtUp (Monitoring.init origin) as := by
  exact forall_prefix_iff (K := fun s => s.Genuine ∧ s.follower.Sound) (fun _ hs => hs.2.accounted)
    (fun _ _ _ hs hcaught hstep =>
      ⟨Monitoring.genuine_step hs.1 hstep, Monitoring.sound_step hs.1 hs.2 hcaught hstep⟩)
    (fun _ _ _ hs hstep ht => Monitoring.caughtUp_of_accounted hs.1 hs.2 hstep ht)
    ⟨.init origin, Monitoring.sound_init origin⟩ h

end

/-! ### A stream that breaks -/

namespace OneBlock

/-- Hexadecimal text of 32 bytes. -/
def text (last : String) : Option HexText :=
  some ⟨some ("00000000000000000000000000000000000000000000000000000000000000" ++ last)⟩

/-- The header at height 5. -/
def origin : BlockHeaderInfo := ⟨text "05", text "04", 5, text "00", 0⟩

/-- The header of the block that is connected to it. -/
def header : BlockHeaderInfo := ⟨text "06", text "05", 6, text "00", 0⟩

/-- The header of the block after it. -/
def next : BlockHeaderInfo := ⟨text "07", text "06", 7, text "00", 0⟩

def move : Move := ⟨⟨some (some (.connectBlock (some header) (some ⟨none, []⟩)))⟩, some header⟩

/-- The process starts, and its first boundary is recorded. -/
def startup : List Action :=
  [.start, .anchor, .tipAfter, .initializeIdentity, .recordSnapshot, .recordTip,
    .work (.subscriptionBoundary true), .work .recordBoundary]

/-- The block is delivered, and then the stream breaks. -/
def delivered : List Action :=
  startup ++ [.move move, .work .message, .work .recordTransition, .work (.reconcileTip true),
    .work .recordReconciled, .work .publishReconciled, .work .streamEnds, .work .resubscribe,
    .work (.subscriptionBoundary true), .work .recordBoundary]

end OneBlock

instance (s : Monitoring) : ∀ a, Decidable (s.CaughtUp a)
  | .work .streamEnds =>
    inferInstanceAs (Decidable (∀ w ∈ s.process.workers?, w.channel.transition ≤ s.recorded))
  | .stop => inferInstanceAs
    (Decidable (s.entries ≠ [] → ∀ tip ∈ s.lastTip, tip.transition ≤ s.recorded))
  | .work (.subscriptionBoundary _) | .work .recordBoundary | .work .message | .work .recordTransition
  | .work (.reconcileTip _) | .work .recordReconciled | .work .publishReconciled | .work .resubscribe
  | .work (.readTip _) | .work .observe | .work (.announce _) | .work (.tipAfter _)
  | .work (.recordSnapshot _) | .move _ | .start | .anchor | .tipAfter | .initializeIdentity
  | .recordSnapshot | .recordTip => isTrue trivial

/-- The block is delivered before the stream breaks, and the next boundary closes no more than a gap. -/
theorem gaps_accounted_delivered :
    ∃ s, run Monitoring.step (Monitoring.init (some OneBlock.origin)) OneBlock.delivered = some s ∧
      s.entries.map Entry.stretch = [(1, 1), (0, 1), (0, 0)] ∧
      ∀ bs t, bs <+: OneBlock.delivered →
        run Monitoring.step (Monitoring.init (some OneBlock.origin)) bs = some t →
          t.follower.Accounted := by
  have hrun : ((run Monitoring.step (Monitoring.init (some OneBlock.origin)) OneBlock.delivered).filter
      fun s => s.entries.map Entry.stretch = [(1, 1), (0, 1), (0, 0)]).isSome := by
    decide +kernel
  have hcaught : Along Monitoring.step Monitoring.CaughtUp (Monitoring.init (some OneBlock.origin))
      OneBlock.delivered := by
    decide +kernel
  obtain ⟨s, hs⟩ := Option.isSome_iff_exists.mp hrun
  obtain ⟨hs, hentries⟩ := Option.filter_eq_some_iff.mp hs
  exact ⟨s, hs, of_decide_eq_true hentries, (gaps_accounted _ _ s hs).mpr hcaught⟩

end Mainchain

end Bip300Monitor
