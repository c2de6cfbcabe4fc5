import Bip300Monitor.EventLogger.Agreement
import Bip300Monitor.Foundations.LossyQueue
import Bip300Monitor.Foundations.Runs
import Bip300Monitor.Runtime.Recorder

/-!
# From the record to the log

The extractors' recorders, the transport and the event logger (`tools/event-logger/src/lib.rs`). Live
delivery is best effort: a batch is skipped while there is no connection, a publication can fail or run
out of time, a process can end in the middle, and a message can be lost. What the logger logs all the same
is in the record before anybody can see it.

## The model

Any number of tasks record and publish, on any number of connections, among any other commands on the
record. A connection keeps its messages in order and may lose some. Others may publish on the subjects,
too. A message comes with the store and the event it is of, if a recorder published it; this, `sent` and
`received` of a connection, and the lines already logged, are history.

## What is proved

* `Live.step_durable` — what is handed over, sent and logged is in the record, step by step;
* `live_durable` — the log is in order what connections were sent, of which the record has every event,
  and no event of a batch is dropped without a report;
* `logger_counts_others` — the logger counts messages of others only, and logs all the others it gets.
-/

namespace Bip300Monitor.EventLogger

open Protobuf Runs

/-- `encode_to_vec` and `Event::decode` of the generated code. -/
class EventCodec where
  encode : Event → Bytes
  decode : Bytes → Result Event

/-! ### The model -/

/-- A message on a subject, and what it is of. -/
structure Message where
  payload : Bytes
  origin : Option (Store × Event)
  deriving DecidableEq

/-- What is logged of a message. -/
structure Line where
  connection : ℕ
  message : Message
  timestamp : ℕ
  rendered : RenderedEvent

/-- The record, the tasks, the connections and the logger. -/
structure Live where
  db : Db
  /-- What a task publishes. -/
  publishing : ℕ → Option Publishing
  /-- The outcomes, with their batches and the events that the transport took. -/
  outcomes : List (FanOut × List Event × List Event)
  wire : ℕ → LossyQueue Message
  /-- `invalid_event_count`, while the logger is subscribed. -/
  logger : Option ℕ
  lines : List Line
  /-- The messages of others that it got. -/
  others : ℕ

/-- Before anything is published. -/
def Live.init (db : Db) : Live := ⟨db, fun _ => none, [], fun _ => .empty, none, [], 0⟩

/-- What happens next. -/
inductive LiveAction where
  /-- A task's transaction ends. -/
  | record (task connection : ℕ) (store : Store) (r : Recording)
  /-- `is_connected` is answered. -/
  | check (task : ℕ) (connected : Bool)
  /-- A publication is answered. -/
  | publish (task : ℕ) (answer : Result Unit)
  /-- The time for the batch runs out. -/
  | timeout (task : ℕ)
  | flush (task : ℕ) (answer : Result Unit)
  /-- The task is dropped, or its process ends. -/
  | cancel (task : ℕ)
  /-- Anything else that writes the record. -/
  | other (c : Command)
  /-- Somebody else publishes. -/
  | inject (connection : ℕ) (payload : Bytes)
  | lose (connection i : ℕ)
  /-- The logger subscribes. -/
  | subscribe
  /-- Its `next_event` returns a message. -/
  | receive (connection : ℕ)
  /-- It ends. -/
  | quit

/-- The events that are handed over. -/
def LiveAction.events : LiveAction → List Event
  | .record _ _ _ r => r.events
  | _ => []

namespace Live

/-- A task's `publish_batch` is this one now. -/
def setPublishing (s : Live) (task : ℕ) (p : Option Publishing) : Live :=
  { s with publishing := Function.update s.publishing task p }

/-- `fan_out` reports an outcome. -/
def finish (s : Live) (task : ℕ) (outcome : FanOut) (batch taken : List Event) : Live :=
  { s.setPublishing task none with outcomes := s.outcomes ++ [(outcome, batch, taken)] }

/-- The transport takes a message. -/
def send (s : Live) (connection : ℕ) (message : Message) : Live :=
  { s with wire := Function.update s.wire connection ((s.wire connection).send message) }

/-- What is on its way over a connection is this now. -/
def setWire (s : Live) (connection : ℕ) (q : LossyQueue Message) : Live :=
  { s with wire := Function.update s.wire connection q }

section
variable [Digests] [EventCodec]

/-- The loop of `run`, from a received message: what is logged of it, and the count. -/
def handle (fullEvents : Bool) (connection invalid : ℕ) (message : Message) : Option Line × ℕ :=
  match EventCodec.decode message.payload with
  | .error _ => (none, min (invalid + 1) maxU64)
  | .ok event =>
    let rendered := renderEvent event fullEvents invalid
    (rendered.1.map fun rendered => ⟨connection, message, event.timestamp, rendered⟩, rendered.2)

/-- The logger takes a message. -/
def log (fullEvents : Bool) (s : Live) (connection invalid : ℕ) (message : Message) : Live :=
  let handled := handle fullEvents connection invalid message
  { s with
    logger := some handled.2
    lines := s.lines ++ handled.1.toList
    others := s.others + if message.origin = none then 1 else 0 }

/-- One step. -/
def step (startOf : ScopeKey → ℕ) (flushTimeoutSeconds : ℕ) (fullEvents : Bool) (s : Live) :
    LiveAction → Option Live
  | .record task connection store r =>
    if s.publishing task = none then
      if r.events = [] then some s
      else
        let t := { s with db := s.db.exec startOf (r.command store) }
        if s.db.commits (r.command store) then
          some (t.setPublishing task (some (.new store connection r.events)))
        else some t
    else none
  | .check task connected =>
    (s.publishing task).bind fun p =>
      if p.connected then none
      else if connected then some (s.setPublishing task (some { p with connected := true }))
      else some (s.finish task p.disconnected p.batch [])
  | .publish task answer =>
    (s.publishing task).bind fun p =>
      match p.connected, p.left with
      | true, event :: rest =>
        let t := s.setPublishing task (some (p.publish event rest answer))
        match answer with
        | .ok () => some (t.send p.connection ⟨EventCodec.encode event, some (p.store, event)⟩)
        | .error _ => some t
      | _, _ => none
  | .timeout task =>
    (s.publishing task).bind fun p =>
      if p.connected ∧ p.left ≠ [] then
        some (s.finish task (p.timedOut flushTimeoutSeconds) p.batch p.taken)
      else none
  | .flush task answer =>
    (s.publishing task).bind fun p =>
      if p.connected ∧ p.left = [] then some (s.finish task (p.flushed answer) p.batch p.taken)
      else none
  | .cancel task => some (s.setPublishing task none)
  | .other c => some { s with db := s.db.exec startOf c }
  | .inject connection payload => some (s.send connection ⟨payload, none⟩)
  | .lose connection i => some (s.setWire connection ((s.wire connection).lose i))
  | .subscribe => if s.logger = none then some { s with logger := some 0, others := 0 } else none
  | .receive connection =>
    s.logger.bind fun invalid =>
      (s.wire connection).receive.map fun received =>
        (s.setWire connection received.2).log fullEvents connection invalid received.1
  | .quit => some { s with logger := none }

/-! ### What is visible is recorded -/

/-- The messages that were logged of a connection, in order. -/
def logged (s : Live) (connection : ℕ) : List Message :=
  (s.lines.filter (·.connection = connection)).map (·.message)

omit [Digests] [EventCodec] in
theorem setWire_wire (s : Live) (connection : ℕ) (q : LossyQueue Message) :
    (s.setWire connection q).wire connection = q := by
  simp [setWire]

omit [Digests] [EventCodec] in
theorem setWire_wire_of_ne (s : Live) {connection connection' : ℕ} (hne : connection' ≠ connection)
    (q : LossyQueue Message) : (s.setWire connection q).wire connection' = s.wire connection' := by
  simp [setWire, hne]

/-- What is handed over, sent and logged is in the record: `logged` and `rendered` say what the lines
are. -/
structure Durable (fullEvents : Bool) (s : Live) : Prop where
  handed : ∀ task p, s.publishing task = some p → p.Accounts ∧ ∀ event ∈ p.batch, s.db.Records p.store event
  sent : ∀ connection, ∀ message ∈ (s.wire connection).sent, ∀ store event,
    message.origin = some (store, event) →
      message.payload = EventCodec.encode event ∧ s.db.Records store event
  order : ∀ connection, (s.wire connection).InOrder
  logged : ∀ connection, (s.logged connection).Sublist (s.wire connection).received
  rendered : ∀ line ∈ s.lines, ∃ event, EventCodec.decode line.message.payload = .ok event ∧
    line.timestamp = event.timestamp ∧ render event fullEvents = .ok line.rendered
  outcomes : ∀ o ∈ s.outcomes, Publishing.Reports o.1 o.2.1 o.2.2

variable {startOf : ScopeKey → ℕ} {seconds : ℕ} {fullEvents : Bool} {s t : Live}

theorem init_durable (db : Db) : Durable fullEvents (init db) where
  handed _ _ h := by cases h
  sent _ _ h := by cases h
  order _ := .empty
  logged _ := List.Sublist.refl []
  rendered _ h := by cases h
  outcomes _ h := by cases h

/-- Facts stay. -/
theorem Durable.exec (h : Durable fullEvents s) (c : Command) :
    Durable fullEvents { s with db := s.db.exec startOf c } :=
  { h with
    handed := fun task p hp => ⟨(h.handed task p hp).1, fun event hevent =>
      ((h.handed task p hp).2 event hevent).exec startOf c⟩
    sent := fun connection message hmessage store event horigin =>
      ⟨(h.sent connection message hmessage store event horigin).1,
        (h.sent connection message hmessage store event horigin).2.exec startOf c⟩ }

/-- A task goes on with a batch that is recorded. -/
theorem Durable.setPublishing (h : Durable fullEvents s) (task : ℕ) {p : Option Publishing}
    (hp : ∀ q, p = some q → q.Accounts ∧ ∀ event ∈ q.batch, s.db.Records q.store event) :
    Durable fullEvents (s.setPublishing task p) :=
  { h with
    handed := fun task' q hq => by
      by_cases htask : task' = task
      · subst htask
        exact hp q (by simpa [Live.setPublishing] using hq)
      · exact h.handed task' q (by simpa [Live.setPublishing, htask] using hq) }

/-- An outcome is reported. -/
theorem Durable.finish (h : Durable fullEvents s) (task : ℕ) {outcome : FanOut} {batch taken : List Event}
    (hreports : Publishing.Reports outcome batch taken) :
    Durable fullEvents (s.finish task outcome batch taken) :=
  { h.setPublishing task (p := none) (fun _ hq => by cases hq) with
    outcomes := fun o ho => by
      rcases List.mem_append.mp ho with ho | ho
      · exact h.outcomes o ho
      · obtain rfl := List.mem_singleton.mp ho
        exact hreports }

/-- What is logged of a message is its rendering, and then it is not counted. -/
theorem handle_eq_some {connection invalid : ℕ} {message : Message} {line : Line}
    (h : (handle fullEvents connection invalid message).1 = some line) :
    line.connection = connection ∧ line.message = message ∧
      (handle fullEvents connection invalid message).2 = invalid ∧
      ∃ event, EventCodec.decode message.payload = .ok event ∧ line.timestamp = event.timestamp ∧
        render event fullEvents = .ok line.rendered := by
  unfold handle at h ⊢
  split at h
  · cases h
  · rename_i event hdecode
    obtain ⟨rendered, hrendered, rfl⟩ := Option.map_eq_some_iff.mp h
    unfold renderEvent at hrendered ⊢
    split at hrendered
    · rename_i hrender
      cases hrendered
      exact ⟨rfl, rfl, rfl, event, hdecode, rfl, hrender⟩
    · cases hrendered

/-- What is logged of a message of a connection is that message. -/
theorem logged_log (s : Live) (connection invalid : ℕ) (message : Message) (connection' : ℕ) :
    (s.log fullEvents connection invalid message).logged connection' =
      s.logged connection' ++
        if connection' = connection ∧ (handle fullEvents connection invalid message).1.isSome then
          [message] else [] := by
  rw [Live.logged, Live.logged, Live.log]
  simp only [List.filter_append, List.map_append]
  cases hline : (handle fullEvents connection invalid message).1 with
  | none => simp
  | some line =>
    obtain ⟨hconnection, hmessage, -⟩ := handle_eq_some hline
    by_cases heq : connection' = connection
    · simp [heq, hconnection, hmessage]
    · have hskip : ¬ connection = connection' := fun hsame => heq hsame.symm
      simp [heq, hconnection, hskip]

/-- A connection has other messages on their way. -/
theorem Durable.setWire (h : Durable fullEvents s) (connection : ℕ) (q : LossyQueue Message)
    (hsent : ∀ message ∈ q.sent, ∀ store event, message.origin = some (store, event) →
      message.payload = EventCodec.encode event ∧ s.db.Records store event)
    (horder : q.InOrder) (hlogged : (s.logged connection).Sublist q.received) :
    Durable fullEvents (s.setWire connection q) := by
  exact { h with
    sent := fun connection' => by
      by_cases heq : connection' = connection
      · rw [heq, setWire_wire]
        exact hsent
      · rw [setWire_wire_of_ne s heq]
        exact h.sent connection'
    order := fun connection' => by
      by_cases heq : connection' = connection
      · rw [heq, setWire_wire]
        exact horder
      · rw [setWire_wire_of_ne s heq]
        exact h.order connection'
    logged := fun connection' => by
      by_cases heq : connection' = connection
      · rw [heq, setWire_wire]
        exact hlogged
      · rw [setWire_wire_of_ne s heq]
        exact h.logged connection' }

/-- The transport takes a message, which is recorded if a recorder published it. -/
theorem Durable.send (h : Durable fullEvents s) (connection : ℕ) {message : Message}
    (hmessage : ∀ store event, message.origin = some (store, event) →
      message.payload = EventCodec.encode event ∧ s.db.Records store event) :
    Durable fullEvents (s.send connection message) :=
  h.setWire connection _
    (fun message' hmem => by
      rcases List.mem_append.mp hmem with hmem | hmem
      · exact h.sent connection message' hmem
      · obtain rfl := List.mem_singleton.mp hmem
        exact hmessage)
    (h.order connection).send (h.logged connection)

/-- The logger handles a message that it has just taken. -/
theorem Durable.log (h : Durable fullEvents s) {connection invalid : ℕ} {message : Message}
    {q : LossyQueue Message} (hreceive : (s.wire connection).receive = some (message, q)) :
    Durable fullEvents ((s.setWire connection q).log fullEvents connection invalid message) := by
  have hq : q.sent = (s.wire connection).sent ∧ q.received = (s.wire connection).received ++ [message] := by
    obtain ⟨rest, -, rfl⟩ := LossyQueue.receive_eq_some.mp hreceive
    exact ⟨rfl, rfl⟩
  have htaken : Durable fullEvents (s.setWire connection q) := by
    refine h.setWire connection q ?_ ((h.order connection).receive hreceive) ?_
    · rw [hq.1]
      exact h.sent connection
    · rw [hq.2]
      exact (h.logged connection).trans (List.sublist_append_left _ _)
  exact { htaken with
    logged := fun connection' => by
      rw [logged_log]
      split
      · rename_i hlogged
        obtain ⟨rfl, -⟩ := hlogged
        rw [Live.log, setWire_wire, hq.2]
        exact (h.logged connection').append (List.Sublist.refl [message])
      · rw [List.append_nil]
        exact htaken.logged connection'
    rendered := fun line hline => by
      rcases List.mem_append.mp hline with hline | hline
      · exact h.rendered line hline
      · obtain ⟨-, hmessage, -, event, hdecode, hrest⟩ := handle_eq_some (Option.mem_toList.mp hline)
        exact ⟨event, hmessage ▸ hdecode, hrest⟩ }

/-- **One step keeps it.** -/
theorem step_durable (h : Durable fullEvents s) {a : LiveAction}
    (hstep : step startOf seconds fullEvents s a = some t) : Durable fullEvents t := by
  cases a with
  | record task connection store r =>
    simp only [step] at hstep
    split at hstep
    · split at hstep
      · cases hstep
        exact h
      · obtain ⟨b, hb, rfl, hevents⟩ := r.command_batch store
        split at hstep
        · rename_i hcommits
          cases hstep
          refine (h.exec _).setPublishing task fun q hq => ?_
          cases hq
          refine ⟨Publishing.accounts_new _ _ _, fun event hevent => ?_⟩
          exact ⟨_, _, Db.commits_records hb hcommits (hevents ▸ hevent)⟩
        · cases hstep
          exact h.exec _
    · cases hstep
  | check task connected =>
    obtain ⟨p, hp, hstep⟩ := Option.bind_eq_some_iff.mp hstep
    obtain ⟨haccounts, hrecorded⟩ := h.handed task p hp
    split at hstep
    · cases hstep
    · split at hstep
      · cases hstep
        refine h.setPublishing task fun q hq => ?_
        cases hq
        exact ⟨⟨haccounts.order, haccounts.failure⟩, hrecorded⟩
      · cases hstep
        exact h.finish task Publishing.reports_disconnected
  | publish task answer =>
    obtain ⟨p, hp, hstep⟩ := Option.bind_eq_some_iff.mp hstep
    obtain ⟨haccounts, hrecorded⟩ := h.handed task p hp
    split at hstep
    · rename_i event rest hconnected hleft
      have hpublished := h.setPublishing task (p := some (p.publish event rest answer)) fun q hq => by
        cases hq
        refine ⟨Publishing.accounts_publish haccounts hleft answer, ?_⟩
        cases answer with
        | ok => exact hrecorded
        | error => exact hrecorded
      split at hstep
      · cases hstep
        refine hpublished.send p.connection fun store event' horigin => ?_
        cases horigin
        refine ⟨rfl, hrecorded event (haccounts.order.subset ?_)⟩
        rw [hleft]
        exact List.mem_append_right _ List.mem_cons_self
      · cases hstep
        exact hpublished
    · cases hstep
  | timeout task =>
    obtain ⟨p, hp, hstep⟩ := Option.bind_eq_some_iff.mp hstep
    split at hstep
    · cases hstep
      exact h.finish task (Publishing.reports_timedOut (h.handed task p hp).1 seconds)
    · cases hstep
  | flush task answer =>
    obtain ⟨p, hp, hstep⟩ := Option.bind_eq_some_iff.mp hstep
    split at hstep
    · rename_i hdone
      cases hstep
      exact h.finish task (Publishing.reports_flushed (h.handed task p hp).1 hdone.2 answer)
    · cases hstep
  | cancel task =>
    cases hstep
    exact h.setPublishing task fun q hq => by cases hq
  | other c =>
    cases hstep
    exact h.exec c
  | inject connection payload =>
    cases hstep
    exact h.send connection fun _ _ horigin => by cases horigin
  | lose connection i =>
    cases hstep
    exact h.setWire connection ((s.wire connection).lose i) (h.sent connection) ((h.order connection).lose i) (h.logged connection)
  | subscribe =>
    simp only [step] at hstep
    split at hstep
    · cases hstep
      exact { h with }
    · cases hstep
  | receive connection =>
    obtain ⟨invalid, -, hstep⟩ := Option.bind_eq_some_iff.mp hstep
    obtain ⟨⟨message, q⟩, hreceive, rfl⟩ := Option.map_eq_some_iff.mp hstep
    exact h.log hreceive
  | quit =>
    cases hstep
    exact { h with }

/-- **What is visible is in the record.** Whatever fails, is lost or ends: of each connection the log has
messages that were sent over it, in that order; every event that was sent had been recorded, and is; a
line of such a message is the rendering of its event; and an outcome counts the events that the transport
took, which are in order among the batch, and has a failure if there are others. -/
theorem live_durable {db : Db} {as : List LiveAction}
    (hrun : run (step startOf seconds fullEvents) (init db) as = some s) :
    (∀ connection, (s.logged connection).Sublist (s.wire connection).sent) ∧
      (∀ connection, ∀ message ∈ (s.wire connection).sent, ∀ store event,
        message.origin = some (store, event) → s.db.Records store event) ∧
      (∀ line ∈ s.lines, ∀ store event, line.message.origin = some (store, event) →
        EventCodec.decode (EventCodec.encode event) = .ok event →
          line.timestamp = event.timestamp ∧ render event fullEvents = .ok line.rendered) ∧
      ∀ o ∈ s.outcomes, Publishing.Reports o.1 o.2.1 o.2.2 := by
  have h : Durable fullEvents s :=
    run_invariant (fun _ _ _ h hstep => step_durable h hstep) (init_durable db) hrun
  have hsent : ∀ connection, (s.logged connection).Sublist (s.wire connection).sent :=
    fun connection => (h.logged connection).trans (h.order connection).sublist
  refine ⟨hsent, fun connection message hmessage store event horigin =>
    (h.sent connection message hmessage store event horigin).2, ?_, h.outcomes⟩
  intro line hline store event horigin hcodec
  have hmessage : line.message ∈ (s.wire line.connection).sent :=
    (hsent line.connection).subset (List.mem_map_of_mem (List.mem_filter.mpr ⟨hline, by simp⟩))
  obtain ⟨decoded, hdecode, htime, hrender⟩ := h.rendered line hline
  rw [(h.sent _ _ hmessage store event horigin).1, hcodec] at hdecode
  cases hdecode
  exact ⟨htime, hrender⟩

/-! ### What the logger counts -/

/-- What is handed over is produced by the monitor's converters, and can be encoded. -/
def Encodable [Node.BlockCodec] (event : Event) : Prop :=
  (∃ payload, event.monitorEvent = some payload ∧ Produced payload) ∧
    EventCodec.decode (EventCodec.encode event) = .ok event

/-- The logger has counted messages of others only, and has logged what it got of the monitor's. -/
structure Counts [Node.BlockCodec] (s : Live) : Prop where
  handed : ∀ task p, s.publishing task = some p → ∀ event ∈ p.left, Encodable event
  sent : ∀ connection, ∀ message ∈ (s.wire connection).queue, ∀ store event,
    message.origin = some (store, event) →
      message.payload = EventCodec.encode event ∧ Encodable event
  count : ∀ invalid, s.logger = some invalid → invalid ≤ s.others
  logged : ∀ connection, (s.logged connection).filter (·.origin.isSome) =
    (s.wire connection).received.filter (·.origin.isSome)

section
variable [Node.BlockCodec]

theorem init_counts (db : Db) : Counts (init db) where
  handed _ _ h := by cases h
  sent _ _ h := by cases h
  count _ h := by cases h
  logged _ := rfl

/-- A task goes on with events that can be logged. -/
theorem Counts.setPublishing (h : Counts s) (task : ℕ) {p : Option Publishing}
    (hp : ∀ q, p = some q → ∀ event ∈ q.left, Encodable event) : Counts (s.setPublishing task p) :=
  { h with
    handed := fun task' q hq => by
      by_cases htask : task' = task
      · subst htask
        exact hp q (by simpa [Live.setPublishing] using hq)
      · exact h.handed task' q (by simpa [Live.setPublishing, htask] using hq) }

/-- Other messages are on their way over a connection, and nothing is received. -/
theorem Counts.setWire (h : Counts s) (connection : ℕ) (q : LossyQueue Message)
    (hqueue : ∀ message ∈ q.queue, ∀ store event, message.origin = some (store, event) →
      message.payload = EventCodec.encode event ∧ Encodable event)
    (hreceived : q.received = (s.wire connection).received) : Counts (s.setWire connection q) := by
  exact { h with
    sent := fun connection' => by
      by_cases heq : connection' = connection
      · rw [heq, setWire_wire]
        exact hqueue
      · rw [setWire_wire_of_ne s heq]
        exact h.sent connection'
    logged := fun connection' => by
      by_cases heq : connection' = connection
      · rw [heq, setWire_wire, hreceived]
        exact h.logged connection
      · rw [setWire_wire_of_ne s heq]
        exact h.logged connection' }

/-- A message of the monitor is logged, and not counted. -/
theorem handle_of_encodable {connection invalid : ℕ} {message : Message} {event : Event}
    (hpayload : message.payload = EventCodec.encode event) (hevent : Encodable event) :
    ∃ line, handle fullEvents connection invalid message = (some line, invalid) := by
  obtain ⟨⟨payload, hmonitor, hproduced⟩, hcodec⟩ := hevent
  obtain ⟨rendered, hrendered⟩ := renderEvent_eq_some fullEvents invalid hmonitor hproduced.valid
  unfold handle
  rw [hpayload, hcodec]
  simp only [hrendered, Option.map_some]
  exact ⟨_, rfl⟩

omit [Node.BlockCodec] in
/-- A message is counted once at most. -/
theorem handle_count_le (fullEvents : Bool) (connection invalid : ℕ) (message : Message) :
    (handle fullEvents connection invalid message).2 ≤ invalid + 1 := by
  unfold handle
  split
  · exact min_le_left _ _
  · unfold renderEvent
    split
    · exact Nat.le_succ invalid
    · exact min_le_left _ _

/-- The logger takes a message. -/
theorem Counts.log (h : Counts s) {connection invalid : ℕ} {message : Message} {q : LossyQueue Message}
    (hlogger : s.logger = some invalid) (hreceive : (s.wire connection).receive = some (message, q)) :
    Counts ((s.setWire connection q).log fullEvents connection invalid message) := by
  obtain ⟨rest, hqueue, rfl⟩ := LossyQueue.receive_eq_some.mp hreceive
  have hinvalid : invalid ≤ s.others := h.count invalid hlogger
  -- a message of the monitor is logged, and one of others is counted once at most
  have hmonitor : message.origin.isSome → ∃ line,
      handle fullEvents connection invalid message = (some line, invalid) := by
    intro hsome
    obtain ⟨⟨store, event⟩, horigin⟩ := Option.isSome_iff_exists.mp hsome
    obtain ⟨hpayload, hevent⟩ := h.sent connection message (hqueue ▸ List.mem_cons_self) store event horigin
    exact handle_of_encodable hpayload hevent
  have hle := handle_count_le fullEvents connection invalid message
  exact { h with
    sent := fun connection' => by
      by_cases heq : connection' = connection
      · subst heq
        intro message' hmem
        refine h.sent connection' message' ?_
        rw [Live.log, setWire_wire] at hmem
        exact hqueue ▸ List.mem_cons_of_mem _ hmem
      · intro message' hmem
        rw [Live.log, setWire_wire_of_ne s heq] at hmem
        exact h.sent connection' message' hmem
    count := fun count hcount => by
      cases hcount
      simp only [Live.log]
      by_cases horigin : message.origin = none
      · rw [if_pos horigin]
        exact hle.trans (Nat.succ_le_succ hinvalid)
      · obtain ⟨line, hline⟩ := hmonitor (Option.isSome_iff_ne_none.mpr horigin)
        rw [hline, if_neg horigin]
        exact hinvalid
    logged := fun connection' => by
      have hbefore := h.logged connection'
      rw [logged_log, List.filter_append]
      by_cases heq : connection' = connection
      · subst heq
        rw [Live.log, setWire_wire, List.filter_append]
        refine congrArg₂ (· ++ ·) hbefore ?_
        cases horigin : message.origin.isSome with
        | true =>
          obtain ⟨line, hline⟩ := hmonitor horigin
          simp [hline]
        | false =>
          split
          · rfl
          · simp [horigin]
      · rw [if_neg (fun hsame => heq hsame.1), Live.log, setWire_wire_of_ne s heq, List.filter_nil,
          List.append_nil]
        exact hbefore }

/-- **One step keeps it.** -/
theorem step_counts (h : Counts s) {a : LiveAction} (ha : ∀ event ∈ a.events, Encodable event)
    (hstep : step startOf seconds fullEvents s a = some t) : Counts t := by
  cases a with
  | record task connection store r =>
    simp only [step] at hstep
    split at hstep
    · split at hstep
      · cases hstep
        exact h
      · split at hstep
        · have hdb : Counts { s with db := s.db.exec startOf (r.command store) } := { h with }
          cases hstep
          refine hdb.setPublishing task fun q hq => ?_
          cases hq
          exact ha
        · cases hstep
          exact { h with }
    · cases hstep
  | check task connected =>
    obtain ⟨p, hp, hstep⟩ := Option.bind_eq_some_iff.mp hstep
    split at hstep
    · cases hstep
    · split at hstep
      · cases hstep
        exact h.setPublishing task fun q hq => by
          cases hq
          exact h.handed task p hp
      · cases hstep
        exact { h.setPublishing task (p := none) (fun q hq => by cases hq) with }
  | publish task answer =>
    obtain ⟨p, hp, hstep⟩ := Option.bind_eq_some_iff.mp hstep
    split at hstep
    · rename_i event rest hconnected hleft
      have hevents : ∀ event' ∈ event :: rest, Encodable event' := hleft ▸ h.handed task p hp
      have hpublished := h.setPublishing task (p := some (p.publish event rest answer)) fun q hq => by
        cases hq
        cases answer with
        | ok => exact fun event' hmem => hevents event' (List.mem_cons_of_mem _ hmem)
        | error => exact fun event' hmem => hevents event' (List.mem_cons_of_mem _ hmem)
      split at hstep
      · cases hstep
        refine hpublished.setWire p.connection _ (fun message hmem store event' horigin => ?_) rfl
        rcases List.mem_append.mp hmem with hmem | hmem
        · exact hpublished.sent _ message hmem store event' horigin
        · obtain rfl := List.mem_singleton.mp hmem
          cases horigin
          exact ⟨rfl, hevents event List.mem_cons_self⟩
      · cases hstep
        exact hpublished
    · cases hstep
  | timeout task =>
    obtain ⟨p, hp, hstep⟩ := Option.bind_eq_some_iff.mp hstep
    split at hstep
    · cases hstep
      exact { h.setPublishing task (p := none) (fun q hq => by cases hq) with }
    · cases hstep
  | flush task answer =>
    obtain ⟨p, hp, hstep⟩ := Option.bind_eq_some_iff.mp hstep
    split at hstep
    · cases hstep
      exact { h.setPublishing task (p := none) (fun q hq => by cases hq) with }
    · cases hstep
  | cancel task =>
    cases hstep
    exact h.setPublishing task fun q hq => by cases hq
  | other c =>
    cases hstep
    exact { h with }
  | inject connection payload =>
    cases hstep
    refine h.setWire connection _ (fun message hmem store event horigin => ?_) rfl
    rcases List.mem_append.mp hmem with hmem | hmem
    · exact h.sent _ message hmem store event horigin
    · obtain rfl := List.mem_singleton.mp hmem
      cases horigin
  | lose connection i =>
    cases hstep
    exact h.setWire connection _ (fun message hmem => h.sent connection message
      ((List.eraseIdx_sublist _ i).subset hmem)) rfl
  | subscribe =>
    simp only [step] at hstep
    split at hstep
    · cases hstep
      exact { h with
        count := fun invalid hinvalid => by
          cases hinvalid
          exact le_rfl }
    · cases hstep
  | receive connection =>
    obtain ⟨invalid, hlogger, hstep⟩ := Option.bind_eq_some_iff.mp hstep
    obtain ⟨⟨message, q⟩, hreceive, rfl⟩ := Option.map_eq_some_iff.mp hstep
    exact h.log hlogger hreceive
  | quit =>
    cases hstep
    exact { h with count := fun _ hinvalid => by cases hinvalid }

end

/-- **The logger counts messages of others only.** If the monitor hands over what its converters accept,
and what can be encoded, then `invalid_event_count` is at most the number of messages of others that the
logger got, and it has logged all that it got of the monitor's, in order. -/
theorem logger_counts_others [Node.BlockCodec] {db : Db} {as : List LiveAction}
    (hevents : ∀ a ∈ as, ∀ event ∈ a.events, Encodable event)
    (hrun : run (step startOf seconds fullEvents) (init db) as = some s) :
    (∀ invalid, s.logger = some invalid → invalid ≤ s.others) ∧
      ∀ connection, (s.logged connection).filter (·.origin.isSome) =
        (s.wire connection).received.filter (·.origin.isSome) := by
  have hsteps : Along (step startOf seconds fullEvents) (fun _ a => ∀ event ∈ a.events, Encodable event)
      (init db) as := along_of_forall fun a ha _ => hevents a ha
  have h : Counts s :=
    run_invariant_along (fun _ _ _ h ha hstep => step_counts h ha hstep) (init_counts db) hsteps hrun
  exact ⟨h.count, h.logged⟩

end

/-! ### A run -/

namespace Delivery

/-- The encoding of a reading without active sidechains, and nothing else. -/
@[reducible] def codec : EventCodec where
  encode event := if event = activeReading [] then [0x0a, 0x02, 0x22, 0x00] else []
  decode bytes := if bytes = [0x0a, 0x02, 0x22, 0x00] then .ok (activeReading [])
    else .error (.bail "failed to decode Protobuf message")

@[reducible] def digests : Digests := .ofPayloads [
  (.enforcer (some (.activeSidechains [])),
    0x37aa3970b6801c9d286464f7d86e50bf41c88e54c7b4d08f3ff61935b3f59c3c)]

@[reducible] def blocks : Node.BlockCodec := ⟨fun _ => none⟩

def store : Store := ⟨.enforcer, 0, 0, 9⟩

/-- The record while the run is running. -/
def db : Db :=
  let _ := digests
  Db.exec (fun _ => 5) .empty (.initializeIdentity .enforcer 0 0 9)

/-- A reading is recorded and published, somebody publishes another byte, and the logger gets both. -/
def actions : List LiveAction :=
  [.subscribe, .record 0 0 store (.recordBatch [activeReading []] .live), .check 0 true,
    .publish 0 (.ok ()), .flush 0 (.ok ()), .inject 0 [0xff], .receive 0, .receive 0]

def message : Message := ⟨[0x0a, 0x02, 0x22, 0x00], some (store, activeReading [])⟩

end Delivery

theorem delivery_runs :
    ∃ s, run (@step Delivery.digests Delivery.codec (fun _ => 5) 10 true) (init Delivery.db)
        Delivery.actions = some s ∧
      s.logged 0 = [Delivery.message] ∧ s.logger = some 1 := by
  let _ := Delivery.digests
  let _ := Delivery.codec
  have hruns : ((run (step (fun _ => 5) 10 true) (init Delivery.db) Delivery.actions).filter fun s =>
      s.logged 0 = [Delivery.message] ∧ s.logger = some 1).isSome := by
    decide +kernel
  obtain ⟨s, hs⟩ := Option.isSome_iff_exists.mp hruns
  obtain ⟨hs, hstate⟩ := Option.filter_eq_some_iff.mp hs
  exact ⟨s, hs, of_decide_eq_true hstate⟩

/-- The logged reading is in the record. -/
theorem live_durable_delivered :
    let _ := Delivery.digests
    let _ := Delivery.codec
    ∃ s, run (step (fun _ => 5) 10 true) (init Delivery.db) Delivery.actions = some s ∧
      s.logged 0 = [Delivery.message] ∧ s.db.Records Delivery.store (activeReading []) := by
  let _ := Delivery.digests
  let _ := Delivery.codec
  obtain ⟨s, hs, hlogged, -⟩ := delivery_runs
  obtain ⟨hsent, hrecorded, -, -⟩ := live_durable hs
  have hmessage : Delivery.message ∈ (s.wire 0).sent :=
    (hsent 0).subset (hlogged ▸ List.mem_singleton_self _)
  exact ⟨s, hs, hlogged, hrecorded 0 _ hmessage _ _ rfl⟩

/-- The byte is counted, and the reading is logged. -/
theorem logger_counts_others_delivered :
    let _ := Delivery.digests
    let _ := Delivery.codec
    ∃ s, run (step (fun _ => 5) 10 true) (init Delivery.db) Delivery.actions = some s ∧
      s.logger = some 1 ∧ 1 ≤ s.others := by
  let _ := Delivery.digests
  let _ := Delivery.codec
  let _ := Delivery.blocks
  obtain ⟨s, hs, -, hlogger⟩ := delivery_runs
  have hconverted : Convert.activeSidechains [] = .ok [] := rfl
  have hreading : Encodable (activeReading []) :=
    ⟨⟨_, rfl, .activeSidechains hconverted⟩, by decide +kernel⟩
  have hevents : ∀ a ∈ Delivery.actions, ∀ event ∈ a.events, Encodable event := by
    intro a ha event hevent
    have hreadings : ∀ a ∈ Delivery.actions, ∀ event ∈ a.events, event = activeReading [] := by
      decide +kernel
    exact hreadings a ha event hevent ▸ hreading
  exact ⟨s, hs, hlogger, (logger_counts_others hevents hs).1 1 hlogger⟩

end Live

end Bip300Monitor.EventLogger
