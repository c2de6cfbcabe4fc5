import Bip300Monitor.Foundations.Performed
import Bip300Monitor.Runtime.Collectors

/-!
# Startup

Before it records anything, the monitor opens the streams of the active slots and takes a snapshot
(`prepare_stable_observation`, `extractors/enforcer/src/runtime.rs`), and again from the start if the
snapshot has other instances in the slots than the streams were opened for.

## The model

`prepareStableObservation` is a program over the calls of a `StartupSource`, which may be answered in any
way. `try_join_all` starts the subscriptions of all slots at once, and is one call here: it is answered by
a stream for each slot, or by the first failure.

## What is proved

* `Startup.readSnapshot_performed`, `Startup.initialSnapshotAttempts_performed`,
  `Startup.prepareObservation_performed` — the calls of each part, how many, and what it returns;
* `stable_startup` — the streams are of the slots that the snapshot itself has.
-/

namespace Bip300Monitor

open Protobuf Resumption

/-! ### The selected instances -/

/-- `selected.insert(instance.sidechain, instance)`, into a map that is listed by slot. -/
def insertInstance (selected : List SidechainInstanceRef) (inst : SidechainInstanceRef) :
    Result (List SidechainInstanceRef) :=
  if ∃ other ∈ selected, other.sidechain = inst.sidechain then
    .error (.bail "active-sidechains snapshot contains a duplicate slot")
  else .ok (selected.orderedInsert (fun a b => a.sidechain ≤ b.sidechain) inst)

/-- `select_active_instances`. -/
def selectActiveInstances (active : List SidechainInstanceRef) (configured : List ℕ) :
    Result (List SidechainInstanceRef) :=
  (active.filter fun inst => configured = [] ∨ inst.sidechain ∈ configured).foldlM insertInstance []

section
variable [Digests]

/-- `active_instances` of any payload. -/
def Protobuf.EnforcerEvent.activeInstances : EnforcerEvent → Option (Result (List SidechainInstanceRef))
  | .activeSidechains sidechains => some (Bip300Monitor.activeInstances sidechains)
  | _ => none

/-- `active_instances_from_state`. -/
def activeInstancesFromState (state : List EnforcerEvent) : Result (List SidechainInstanceRef) :=
  match state.findSome? EnforcerEvent.activeInstances with
  | some instances => instances
  | none => .error (.bail "initial snapshot has no active-sidechains payload")

end

/-! ### The program -/

/-- A call of the source, or of the clock. -/
inductive StartupCall where
  | activeInstances
  | subscribeEvents (slots : List ℕ)
  | currentTip
  | collectSnapshot (sidechains : List ℕ)
  | now
  deriving DecidableEq

/-- What a call is answered by. -/
abbrev StartupCall.Answer (Stream : Type) : StartupCall → Type
  | .activeInstances => Result (List SidechainInstanceRef)
  | .subscribeEvents slots => Except ({ slot // slot ∈ slots } × Failure) (ℕ → Stream)
  | .currentTip => Result ObservedBlock
  | .collectSnapshot _ => Result InitialSnapshot
  | .now => ℕ

/-- Why startup ends early. -/
inductive StartupStop where
  | failed (error : Failure)
  /-- "the bounded snapshot loop always returns" did not hold. -/
  | unreachable

/-- `PreparedObservation`. -/
structure PreparedObservation (Stream : Type) where
  streams : List (ℕ × Stream)
  snapshot : InitialSnapshot
  snapshotMetadata : SnapshotMetadata

/-- A part of startup. -/
abbrev Startup (Stream α : Type) := Fallible StartupCall (StartupCall.Answer Stream) StartupStop α

namespace Startup

variable {Stream : Type}

/-- The value of a computation, whose error ends startup. -/
def expect {α : Type} (x : Result α) : Startup Stream α := attempt (x.mapError .failed)

/-- A call, and what is made of its answer. -/
def ask {α : Type} (e : StartupCall) (f : e.Answer Stream → Result α) : Startup Stream α := do
  let answer ← call e
  expect (f answer)

/-- One reading, between two tips. -/
def readSnapshot (sidechains : List ℕ) :
    Startup Stream (ObservedBlock × InitialSnapshot × ObservedBlock) := do
  let tipBefore ← ask .currentTip fun answer =>
    Result.context answer "reading the mainchain tip before collecting the snapshot"
  let snapshot ← ask (.collectSnapshot sidechains) fun answer =>
    Result.context answer "collecting the initial enforcer snapshot"
  let tipAfter ← ask .currentTip fun answer =>
    Result.context answer "reading the mainchain tip after collecting the snapshot"
  pure (tipBefore, snapshot, tipAfter)

/-- The attempts that remain, the first of them with its number. -/
def initialSnapshotAttempts (sidechains : List ℕ) (startedAt : ℕ) :
    ℕ → ℕ → Startup Stream (InitialSnapshot × SnapshotMetadata)
  | 0, _ => throw .unreachable
  | remaining + 1, attempts => do
    let (tipBefore, snapshot, tipAfter) ← readSnapshot sidechains
    let consistency := if snapshotTipsAreConsistent tipBefore.hash snapshot.anchor.hash tipAfter.hash
      then SnapshotConsistency.tipMatched else .changed
    if consistency = .tipMatched ∨ attempts = snapshotMaxAttempts then do
      let finishedAt ← call .now
      pure (snapshot, {
        revisionBefore := none
        revisionAfter := none
        startedAt := startedAt
        finishedAt := finishedAt
        tipBefore := tipBefore
        tipAfter := tipAfter
        consistency := consistency
        attempts := attempts })
    else initialSnapshotAttempts sidechains startedAt remaining (attempts + 1)

/-- The error of a subscription. -/
def subscriptionError {slots : List ℕ} (failed : { slot // slot ∈ slots } × Failure) : StartupStop :=
  .failed ((failed.2.context ("subscribing to sidechain " ++ toString failed.1.1 ++ " events")).context
    "opening all sidechain subscriptions")

/-- `prepare_observation`. -/
def prepareObservation (subscriptionSlots sidechains : List ℕ) :
    Startup Stream (PreparedObservation Stream) := do
  let answer ← call (.subscribeEvents subscriptionSlots)
  let streams ← attempt (Except.mapError subscriptionError answer)
  let startedAt ← call .now
  let (snapshot, snapshotMetadata) ← initialSnapshotAttempts sidechains startedAt snapshotMaxAttempts 1
  pure ⟨subscriptionSlots.map fun slot => (slot, streams slot), snapshot, snapshotMetadata⟩

section
variable [Digests]

/-- The attempts that remain. -/
def stableObservationAttempts (configured : List ℕ) :
    ℕ → Startup Stream (List ℕ × PreparedObservation Stream)
  | 0 => expect (.error (.bail "active sidechain identities changed during every startup attempt"))
  | remaining + 1 => do
    let active ← ask .activeInstances fun answer =>
      Result.context answer "reading active sidechains before opening subscriptions"
    let expected ← expect (selectActiveInstances active configured)
    let sidechains := if configured = [] then expected.map (·.sidechain) else configured
    let observation ← prepareObservation (expected.map (·.sidechain)) sidechains
    let actual ← expect (activeInstancesFromState observation.snapshot.state)
    let actual ← expect (selectActiveInstances actual configured)
    if actual = expected then pure (sidechains, observation)
    else stableObservationAttempts configured remaining

end

end Startup

section
variable [Digests] {Stream : Type}

/-- `prepare_stable_observation`. -/
def prepareStableObservation (configured : List ℕ) :
    Startup Stream (List ℕ × PreparedObservation Stream) :=
  Startup.stableObservationAttempts configured snapshotMaxAttempts

end

/-! ### What is selected -/

theorem foldlM_insertInstance {selected instances result : List SidechainInstanceRef}
    (hselected : (selected.map (·.sidechain)).Nodup)
    (h : instances.foldlM insertInstance selected = .ok result) :
    result.Perm (selected ++ instances) ∧ (result.map (·.sidechain)).Nodup := by
  induction instances generalizing selected with
  | nil =>
    cases h
    exact ⟨by rw [List.append_nil], hselected⟩
  | cons inst rest ih =>
    rw [List.foldlM_cons] at h
    obtain ⟨inserted, hinsert, h⟩ := Result.bind_eq_ok.mp h
    unfold insertInstance at hinsert
    split_ifs at hinsert with hthere
    cases hinsert
    have hperm := List.perm_orderedInsert (fun a b => a.sidechain ≤ b.sidechain) inst selected
    have hnodup : ((selected.orderedInsert (fun a b => a.sidechain ≤ b.sidechain) inst).map
        (·.sidechain)).Nodup := by
      rw [(hperm.map (·.sidechain)).nodup_iff, List.map_cons, List.nodup_cons]
      refine ⟨fun hmem => hthere ?_, hselected⟩
      obtain ⟨other, hother, heq⟩ := List.mem_map.mp hmem
      exact ⟨other, hother, heq⟩
    obtain ⟨hresult, hresultNodup⟩ := ih hnodup h
    refine ⟨hresult.trans ?_, hresultNodup⟩
    exact (hperm.append_right rest).trans List.perm_middle.symm

/-- Selecting takes the configured instances, all of different slots. -/
theorem selectActiveInstances_eq_ok {active selected : List SidechainInstanceRef} {configured : List ℕ}
    (h : selectActiveInstances active configured = .ok selected) :
    selected.Perm (active.filter fun inst => configured = [] ∨ inst.sidechain ∈ configured) ∧
      (selected.map (·.sidechain)).Nodup := by
  have hnil : (([] : List SidechainInstanceRef).map (·.sidechain)).Nodup := List.nodup_nil
  exact foldlM_insertInstance hnil h

/-! ### What each part calls -/

namespace Startup

variable {Stream α : Type} {cs : List (Sigma (StartupCall.Answer Stream))}

theorem performed_expect {x : Result α} {r : Except StartupStop α} :
    Performed (expect x : Startup Stream α).run cs r ↔ cs = [] ∧ r = x.mapError .failed :=
  performed_run_attempt

theorem performed_ask {e : StartupCall} {f : e.Answer Stream → Result α} {r : Except StartupStop α} :
    Performed (ask e f).run cs r ↔
      ∃ answer, cs = [⟨e, answer⟩] ∧ r = (f answer).mapError .failed := by
  simp only [ask, performed_run_bind, performed_run_call, performed_expect]
  constructor
  · rintro (⟨_, ⟨_, -, h⟩, -⟩ | ⟨_, _, answer, rfl, ⟨_, rfl, ⟨⟩⟩, rfl, rfl⟩)
    · cases h
    · exact ⟨answer, rfl, rfl⟩
  · rintro ⟨answer, rfl, rfl⟩
    exact .inr ⟨_, [], answer, rfl, ⟨answer, rfl, rfl⟩, rfl, rfl⟩

/-- The calls of a reading, of which the last may be missing. -/
def Reading (sidechains : List ℕ) (calls : List StartupCall) : Prop :=
  calls <+: [.currentTip, .collectSnapshot sidechains, .currentTip]

/-- The calls of at most so many readings, and then of the clock. -/
def Readings (sidechains : List ℕ) (n : ℕ) (calls : List StartupCall) : Prop :=
  ∃ readings closing, calls = List.flatten readings ++ closing ∧ readings.length ≤ n ∧
    (∀ reading ∈ readings, Reading sidechains reading) ∧ closing <+: [StartupCall.now]

theorem Readings.cons {sidechains : List ℕ} {n : ℕ} {first rest : List StartupCall}
    (hfirst : Reading sidechains first) (h : Readings sidechains n rest) :
    Readings sidechains (n + 1) (first ++ rest) := by
  obtain ⟨readings, closing, rfl, hlength, hreadings, hclosing⟩ := h
  refine ⟨first :: readings, closing, ?_, Nat.succ_le_succ hlength, ?_, hclosing⟩
  · rw [List.flatten_cons, List.append_assoc]
  · intro reading hreading
    rcases List.mem_cons.mp hreading with rfl | hreading
    · exact hfirst
    · exact hreadings reading hreading

theorem readings_closing (sidechains : List ℕ) (n : ℕ) {closing : List StartupCall}
    (h : closing <+: [StartupCall.now]) : Readings sidechains n closing :=
  ⟨[], closing, rfl, Nat.zero_le n, (fun _ h => by cases h), h⟩

theorem mapError_failed_eq_ok {x : Result α} {a : α} :
    (Except.ok a : Except StartupStop α) = x.mapError .failed ↔ x = .ok a := by
  cases x with
  | error e =>
    change Except.ok a = Except.error (StartupStop.failed e) ↔ _
    simp
  | ok b =>
    change Except.ok a = Except.ok b ↔ _
    simp [eq_comm]

theorem mapError_failed_eq_error {x : Result α} {e : StartupStop} :
    Except.error e = x.mapError .failed ↔ ∃ error, x = .error error ∧ e = .failed error := by
  cases x with
  | error error =>
    change Except.error e = Except.error (StartupStop.failed error) ↔ _
    simp
  | ok a =>
    change Except.error e = Except.ok a ↔ _
    simp

/-- **A reading** asks for a tip, the snapshot and a tip. -/
theorem readSnapshot_performed {sidechains : List ℕ}
    {r : Except StartupStop (ObservedBlock × InitialSnapshot × ObservedBlock)}
    (h : Performed (readSnapshot sidechains).run cs r) :
    Reading sidechains (cs.map (·.1)) ∧ (∀ e, r = .error e → ∃ error, e = .failed error) ∧
      ∀ tipBefore snapshot tipAfter, r = .ok (tipBefore, snapshot, tipAfter) →
        cs = [⟨.currentTip, .ok tipBefore⟩, ⟨.collectSnapshot sidechains, .ok snapshot⟩,
          ⟨.currentTip, .ok tipAfter⟩] := by
  simp only [readSnapshot, performed_run_bind, performed_ask, performed_run_pure,
    mapError_failed_eq_ok, mapError_failed_eq_error, Result.context_eq_ok] at h
  rcases h with ⟨_, ⟨_, rfl, error, -, rfl⟩, rfl⟩ | ⟨_, _, tipBefore, rfl, ⟨_, rfl, rfl⟩, h⟩
  · exact ⟨⟨_, rfl⟩, fun _ he => ⟨error, (Except.error.inj he).symm⟩, fun _ _ _ h => by cases h⟩
  rcases h with ⟨_, ⟨_, rfl, error, -, rfl⟩, rfl⟩ | ⟨_, _, snapshot, rfl, ⟨_, rfl, rfl⟩, h⟩
  · exact ⟨⟨_, rfl⟩, fun _ he => ⟨error, (Except.error.inj he).symm⟩, fun _ _ _ h => by cases h⟩
  rcases h with ⟨_, ⟨_, rfl, error, -, rfl⟩, rfl⟩ | ⟨_, _, tipAfter, rfl, ⟨_, rfl, rfl⟩, rfl, rfl⟩
  · exact ⟨⟨[], rfl⟩, fun _ he => ⟨error, (Except.error.inj he).symm⟩, fun _ _ _ h => by cases h⟩
  · refine ⟨⟨[], rfl⟩, (fun _ h => by cases h), ?_⟩
    rintro _ _ _ ⟨⟩
    rfl

/-- What a snapshot at startup is read and labelled from. -/
structure ReadFrom (sidechains : List ℕ) (snapshot : InitialSnapshot) (metadata : SnapshotMetadata)
    (cs : List (Sigma (StartupCall.Answer Stream))) : Prop where
  calls : ∃ earlier, cs = earlier ++ [⟨.currentTip, .ok metadata.tipBefore⟩,
    ⟨.collectSnapshot sidechains, .ok snapshot⟩, ⟨.currentTip, .ok metadata.tipAfter⟩,
    ⟨.now, metadata.finishedAt⟩]
  label : metadata.consistency = .tipMatched ↔
    metadata.tipBefore.hash = snapshot.anchor.hash ∧ snapshot.anchor.hash = metadata.tipAfter.hash

/-- **The attempts** are as many readings, at most, and then one look at the clock. The last reading is
what the snapshot and its label are from. -/
theorem initialSnapshotAttempts_performed {sidechains : List ℕ} {startedAt remaining attempts : ℕ}
    {r : Except StartupStop (InitialSnapshot × SnapshotMetadata)}
    (hremaining : remaining + attempts = snapshotMaxAttempts + 1) (hfirst : attempts ≤ snapshotMaxAttempts)
    (h : Performed (initialSnapshotAttempts sidechains startedAt remaining attempts).run cs r) :
    Readings sidechains remaining (cs.map (·.1)) ∧
    (∀ e, r = .error e → ∃ error, e = .failed error) ∧
    ∀ snapshot metadata, r = .ok (snapshot, metadata) → ReadFrom sidechains snapshot metadata cs := by
  induction remaining generalizing attempts cs with
  | zero => omega
  | succ remaining ih =>
    rw [initialSnapshotAttempts, performed_run_bind] at h
    rcases h with ⟨e, hread, rfl⟩ | ⟨first, rest, ⟨tipBefore, snapshot, tipAfter⟩, rfl, hread, h⟩
    · obtain ⟨hreading, hsound, -⟩ := readSnapshot_performed hread
      have hreadings := Readings.cons hreading (readings_closing sidechains remaining List.nil_prefix)
      rw [List.append_nil] at hreadings
      refine ⟨hreadings, ?_, fun _ _ h => by cases h⟩
      rintro _ ⟨⟩
      exact hsound e rfl
    · obtain ⟨hreading, -, hcalls⟩ := readSnapshot_performed hread
      obtain rfl := hcalls _ _ _ rfl
      have hlabel : (if snapshotTipsAreConsistent tipBefore.hash snapshot.anchor.hash tipAfter.hash
          then SnapshotConsistency.tipMatched else .changed) = .tipMatched ↔
          tipBefore.hash = snapshot.anchor.hash ∧ snapshot.anchor.hash = tipAfter.hash := by
        split_ifs with hmatch
        · exact iff_of_true rfl hmatch
        · exact iff_of_false (fun h => by cases h) hmatch
      simp only at h
      generalize (if snapshotTipsAreConsistent _ _ _ then SnapshotConsistency.tipMatched else _) =
        consistency at h hlabel
      split_ifs at h with hlast
      · simp only [performed_run_bind, performed_run_call, performed_run_pure] at h
        rcases h with ⟨_, ⟨_, -, ⟨⟩⟩, -⟩ | ⟨_, _, finishedAt, rfl, ⟨_, rfl, ⟨⟩⟩, rfl, rfl⟩
        refine ⟨?_, (fun _ h => by cases h), ?_⟩
        · exact Readings.cons hreading (readings_closing sidechains remaining List.prefix_rfl)
        · rintro _ _ ⟨⟩
          exact ⟨⟨[], rfl⟩, hlabel⟩
      · rw [not_or] at hlast
        have hmore : attempts + 1 ≤ snapshotMaxAttempts := Nat.lt_of_le_of_ne hfirst hlast.2
        obtain ⟨hreadings, hsound, hread⟩ := ih (by omega) hmore h
        refine ⟨?_, hsound, fun snapshot' metadata hr => ?_⟩
        · rw [List.map_append]
          exact Readings.cons hreading hreadings
        · obtain ⟨⟨earlier, rfl⟩, hlabel'⟩ := hread snapshot' metadata hr
          exact ⟨⟨_, (List.append_assoc _ _ _).symm⟩, hlabel'⟩

/-- The calls that open the streams of the slots, and of the readings that follow. -/
def Opening (slots sidechains : List ℕ) (calls : List StartupCall) : Prop :=
  calls = [.subscribeEvents slots] ∨
    ∃ rest, calls = .subscribeEvents slots :: .now :: rest ∧ Readings sidechains 3 rest

/-- **An observation** has a stream for each of the slots, which was there before anything was read. -/
theorem prepareObservation_performed {slots sidechains : List ℕ}
    {r : Except StartupStop (PreparedObservation Stream)}
    (h : Performed (prepareObservation slots sidechains).run cs r) :
    Opening slots sidechains (cs.map (·.1)) ∧ (∀ e, r = .error e → ∃ error, e = .failed error) ∧
    ∀ observation, r = .ok observation → ∃ streams startedAt reading,
      cs = ⟨.subscribeEvents slots, .ok streams⟩ :: ⟨.now, startedAt⟩ :: reading ∧
        observation.streams = slots.map (fun slot => (slot, streams slot)) ∧
        Readings sidechains 3 (reading.map (·.1)) ∧
        ReadFrom sidechains observation.snapshot observation.snapshotMetadata reading := by
  rw [prepareObservation, performed_run_bind] at h
  rcases h with ⟨_, hcall, -⟩ | ⟨_, rest, answer, rfl, hcall, h⟩
  · obtain ⟨_, -, ⟨⟩⟩ := performed_run_call.mp hcall
  obtain ⟨_, rfl, ⟨⟩⟩ := performed_run_call.mp hcall
  simp only [performed_run_bind, performed_run_attempt, performed_run_call, performed_run_pure] at h
  cases answer with
  | error failed =>
    rcases h with ⟨_, ⟨rfl, ⟨⟩⟩, rfl⟩ | ⟨_, _, _, _, ⟨_, ⟨⟩⟩, _⟩
    refine ⟨.inl rfl, ?_, fun _ h => by cases h⟩
    rintro _ ⟨⟩
    exact ⟨_, rfl⟩
  | ok streams =>
    rcases h with ⟨_, ⟨_, ⟨⟩⟩, _⟩ | ⟨_, rest, _, rfl, ⟨rfl, ⟨⟩⟩, h⟩
    rcases h with ⟨_, ⟨_, -, ⟨⟩⟩, -⟩ | ⟨_, rest, startedAt, rfl, ⟨_, rfl, ⟨⟩⟩, h⟩
    have hmax : snapshotMaxAttempts + 1 = snapshotMaxAttempts + 1 := rfl
    rcases h with ⟨e, h, rfl⟩ | ⟨reading, _, ⟨snapshot, metadata⟩, rfl, h, rfl, rfl⟩
    · obtain ⟨hreadings, hsound, -⟩ := initialSnapshotAttempts_performed hmax (by decide) h
      refine ⟨.inr ⟨_, rfl, hreadings⟩, ?_, fun _ h => by cases h⟩
      rintro _ ⟨⟩
      exact hsound e rfl
    · obtain ⟨hreadings, -, hread⟩ := initialSnapshotAttempts_performed hmax (by decide) h
      rw [List.append_nil]
      refine ⟨.inr ⟨_, rfl, hreadings⟩, (fun _ h => by cases h), ?_⟩
      rintro _ ⟨⟩
      exact ⟨streams, startedAt, reading, rfl, rfl, hreadings, hread snapshot metadata rfl⟩

/-- The calls of one attempt. -/
def Attempt (calls : List StartupCall) : Prop :=
  ∃ rest, calls = .activeInstances :: rest ∧
    (rest = [] ∨ ∃ slots sidechains, Opening slots sidechains rest)

/-- The calls of at most so many attempts. -/
def Attempts (n : ℕ) (calls : List StartupCall) : Prop :=
  ∃ attempts, calls = List.flatten attempts ∧ attempts.length ≤ n ∧ ∀ attempt ∈ attempts, Attempt attempt

theorem Attempts.cons {n : ℕ} {first rest : List StartupCall} (hfirst : Attempt first)
    (h : Attempts n rest) : Attempts (n + 1) (first ++ rest) := by
  obtain ⟨attempts, rfl, hlength, hattempts⟩ := h
  refine ⟨first :: attempts, List.flatten_cons.symm, Nat.succ_le_succ hlength, ?_⟩
  intro attempt hattempt
  rcases List.mem_cons.mp hattempt with rfl | hattempt
  · exact hfirst
  · exact hattempts attempt hattempt

theorem attempts_one {n : ℕ} {calls : List StartupCall} (h : Attempt calls) : Attempts (n + 1) calls := by
  have hnil : Attempts n [] := ⟨[], rfl, Nat.zero_le n, fun _ h => by cases h⟩
  have hone := Attempts.cons h hnil
  rwa [List.append_nil] at hone

section
variable [Digests]

/-- What an observation is when the instances have not changed in the meantime. -/
structure StableFrom (configured sidechains : List ℕ) (observation : PreparedObservation Stream)
    (cs : List (Sigma (StartupCall.Answer Stream))) : Prop where
  stable : ∃ earlier slots streams startedAt reading active actual,
    cs = earlier ++ ⟨.subscribeEvents slots, .ok streams⟩ :: ⟨.now, startedAt⟩ :: reading ∧
    sidechains = (if configured = [] then slots else configured) ∧
    observation.streams = slots.map (fun slot => (slot, streams slot)) ∧
    activeInstancesFromState observation.snapshot.state = .ok active ∧
    selectActiveInstances active configured = .ok actual ∧ slots = actual.map (·.sidechain) ∧
    Readings sidechains 3 (reading.map (·.1)) ∧
    ReadFrom sidechains observation.snapshot observation.snapshotMetadata reading

theorem StableFrom.append {configured sidechains : List ℕ} {observation : PreparedObservation Stream}
    (h : StableFrom configured sidechains observation cs)
    (first : List (Sigma (StartupCall.Answer Stream))) :
    StableFrom configured sidechains observation (first ++ cs) := by
  obtain ⟨⟨earlier, slots, streams, startedAt, reading, active, actual, rfl, hrest⟩⟩ := h
  exact ⟨⟨first ++ earlier, slots, streams, startedAt, reading, active, actual,
    (List.append_assoc _ _ _).symm, hrest⟩⟩

/-- **The attempts** that remain. -/
theorem stableObservationAttempts_performed {configured : List ℕ} {remaining : ℕ}
    {r : Except StartupStop (List ℕ × PreparedObservation Stream)}
    (h : Performed (stableObservationAttempts configured remaining).run cs r) :
    Attempts remaining (cs.map (·.1)) ∧ (∀ e, r = .error e → ∃ error, e = .failed error) ∧
    ∀ sidechains observation, r = .ok (sidechains, observation) →
      StableFrom configured sidechains observation cs := by
  induction remaining generalizing cs with
  | zero =>
    obtain ⟨rfl, rfl⟩ := performed_expect.mp h
    refine ⟨⟨[], rfl, Nat.zero_le 0, fun _ h => by cases h⟩, ?_, fun _ _ h => by cases h⟩
    rintro _ ⟨⟩
    exact ⟨_, rfl⟩
  | succ remaining ih =>
    -- An attempt that ends startup with an error.
    have ends {calls : List (Sigma (StartupCall.Answer Stream))} (error : Failure)
        (hattempt : Attempt (calls.map (·.1))) :
        Attempts (remaining + 1) (calls.map (·.1)) ∧
        (∀ e, (Except.error (.failed error) : Except StartupStop (List ℕ × PreparedObservation Stream)) =
          .error e → ∃ error, e = .failed error) ∧
        ∀ sidechains observation, (Except.error (.failed error) :
          Except StartupStop (List ℕ × PreparedObservation Stream)) = .ok (sidechains, observation) →
            StableFrom configured sidechains observation calls := by
      refine ⟨attempts_one hattempt, ?_, fun _ _ h => by cases h⟩
      rintro _ ⟨⟩
      exact ⟨error, rfl⟩
    rw [stableObservationAttempts] at h
    simp only [performed_run_bind (ask _ _), performed_ask, performed_run_bind (expect _),
      performed_expect, mapError_failed_eq_ok, mapError_failed_eq_error, Result.context_eq_ok] at h
    rcases h with ⟨_, ⟨_, rfl, error, -, rfl⟩, rfl⟩ | ⟨_, _, active, rfl, ⟨_, rfl, rfl⟩, h⟩
    · exact ends error ⟨[], rfl, .inl rfl⟩
    rcases h with ⟨_, ⟨rfl, error, -, rfl⟩, rfl⟩ | ⟨_, _, expected, rfl, ⟨rfl, hexpected⟩, h⟩
    · exact ends error ⟨[], rfl, .inl rfl⟩
    generalize hsidechains : (if configured = [] then expected.map (·.sidechain) else configured) =
      sidechains at h
    rw [performed_run_bind] at h
    rcases h with ⟨e, hobservation, rfl⟩ | ⟨_, rest, observation, rfl, hobservation, h⟩
    · obtain ⟨hopening, hsound, -⟩ := prepareObservation_performed hobservation
      obtain ⟨error, rfl⟩ := hsound e rfl
      exact ends error ⟨_, rfl, .inr ⟨_, _, hopening⟩⟩
    obtain ⟨hopening, -, hprepared⟩ := prepareObservation_performed hobservation
    obtain ⟨streams, startedAt, reading, rfl, hstreams, hreadings, hread⟩ := hprepared observation rfl
    simp only [performed_run_bind (expect _), performed_expect, mapError_failed_eq_ok,
      mapError_failed_eq_error] at h
    have hattempt : Attempt (StartupCall.activeInstances ::
        .subscribeEvents (expected.map (·.sidechain)) :: .now :: reading.map (·.1)) :=
      ⟨_, rfl, .inr ⟨_, _, hopening⟩⟩
    rcases h with ⟨_, ⟨rfl, error, -, rfl⟩, rfl⟩ | ⟨_, rest, current, rfl, ⟨rfl, hcurrent⟩, h⟩
    · exact ends error (by simpa using hattempt)
    rcases h with ⟨_, ⟨rfl, error, -, rfl⟩, rfl⟩ | ⟨_, rest, actual, rfl, ⟨rfl, hactual⟩, h⟩
    · exact ends error (by simpa using hattempt)
    split_ifs at h with hsame
    · obtain ⟨rfl, rfl⟩ := performed_run_pure.mp h
      subst hsame
      refine ⟨attempts_one (by simpa using hattempt), (fun _ h => by cases h), ?_⟩
      · rintro _ _ ⟨⟩
        refine ⟨⟨[⟨.activeInstances, .ok active⟩], _, streams, startedAt, reading, current, actual, ?_,
          hsidechains.symm, hstreams, hcurrent, hactual, rfl, hreadings, hread⟩⟩
        simp
    · obtain ⟨hattempts, hsound, hstable⟩ := ih h
      refine ⟨?_, hsound, fun sidechains' observation' hr => ?_⟩
      · have hall := Attempts.cons hattempt hattempts
        simpa using hall
      · have hlater := (hstable sidechains' observation' hr).append (⟨.activeInstances, .ok active⟩ ::
          ⟨.subscribeEvents (expected.map (·.sidechain)), .ok streams⟩ :: ⟨.now, startedAt⟩ :: reading)
        simpa using hlater

end

end Startup

section
variable [Digests] {Stream : Type}

open Startup in
/-- **Startup**, however its calls are answered. It returns or fails, after at most three attempts of at
most three readings. The streams it returns are of the slots that its snapshot has, those of the
configured ones that are active, and were opened before the readings of the attempt; the last of these
is what the snapshot and its label are from. -/
theorem stable_startup {configured : List ℕ} {cs : List (Sigma (StartupCall.Answer Stream))}
    {r : Except StartupStop (List ℕ × PreparedObservation Stream)}
    (h : Performed (prepareStableObservation configured).run cs r) :
    Attempts 3 (cs.map (·.1)) ∧ (∀ e, r = .error e → ∃ error, e = .failed error) ∧
    ∀ sidechains observation, r = .ok (sidechains, observation) →
      StableFrom configured sidechains observation cs ∧
      ∃ active, activeInstancesFromState observation.snapshot.state = .ok active ∧
        (observation.streams.map (·.1)).Nodup ∧
        ∀ slot, slot ∈ observation.streams.map (·.1) ↔
          ∃ inst ∈ active, (configured = [] ∨ inst.sidechain ∈ configured) ∧ inst.sidechain = slot := by
  obtain ⟨hattempts, hsound, hstable⟩ := stableObservationAttempts_performed h
  refine ⟨hattempts, hsound, fun sidechains observation hr => ⟨hstable sidechains observation hr, ?_⟩⟩
  obtain ⟨⟨_, slots, streams, _, _, active, actual, -, -, hstreams, hactive, hactual, rfl, -⟩⟩ :=
    hstable sidechains observation hr
  refine ⟨active, hactive, ?_⟩
  obtain ⟨hperm, hnodup⟩ := selectActiveInstances_eq_ok hactual
  have hslots : observation.streams.map (·.1) = actual.map (·.sidechain) := by
    rw [hstreams, List.map_map, List.map_map]
    rfl
  rw [hslots]
  refine ⟨hnodup, fun slot => ?_⟩
  rw [(hperm.map (·.sidechain)).mem_iff]
  simp only [List.mem_map, List.mem_filter, decide_eq_true_eq, and_assoc]

end

/-! ### A slot that is activated meanwhile -/

namespace SecondSlot

@[reducible] def digests : Digests := .ofPayloads []

/-- Slot 10 is activated with slot 9. -/
def slotTen : ActiveSidechain := { slotNine with sidechainNumber := 10 }

def tip : ObservedBlock := .atHeight (bytes32 1) 5

/-- The enforcer's state, with both slots active. -/
def snapshot : InitialSnapshot where
  constants := [.chainInfo ⟨3, some ⟨26300, 13150, 26300, 13150, 2016, 1008, 1⟩, 3⟩,
    .chainTip ⟨some ⟨bytes32 1, bytes32 0, 5, [], [], 0⟩⟩]
  state := [.sidechainProposals [], .activeSidechains [slotNine, slotTen], .ctip ⟨9, none⟩,
    .withdrawalBundleProposals ⟨9, []⟩, .ctip ⟨10, none⟩, .withdrawalBundleProposals ⟨10, []⟩]
  anchor := tip

/-- The answers in turn; a stream is named by its slot. At first slot 10 is not active, and the tip is
a later one for a moment during the first reading of the second attempt. -/
def answer [Digests] (n : ℕ) : (e : StartupCall) → e.Answer ℕ
  | .activeInstances => activeInstances (if n = 0 then [slotNine] else [slotNine, slotTen])
  | .subscribeEvents _ => .ok fun slot => slot
  | .currentTip => .ok (if n = 12 then .atHeight (bytes32 2) 6 else tip)
  | .collectSnapshot _ => .ok snapshot
  | .now => n

end SecondSlot

open SecondSlot in
/-- The second attempt opens the streams of both slots, and its second reading is of one tip. -/
theorem stable_startup_secondSlot :
    ∃ cs sidechains observation,
      Performed (@prepareStableObservation SecondSlot.digests ℕ []).run cs (.ok (sidechains, observation)) ∧
        observation.streams = [(9, 9), (10, 10)] ∧
        observation.snapshotMetadata.consistency = .tipMatched ∧ observation.snapshotMetadata.attempts = 2 ∧
        @Startup.StableFrom ℕ SecondSlot.digests [] sidechains observation cs := by
  let _ := SecondSlot.digests
  obtain ⟨cs, hcs⟩ := performed_answeredInTurn answer (prepareStableObservation []).run 0
  have hrun : (((prepareStableObservation []).run.answeredInTurn answer 0).toOption.filter fun p =>
      p.2.streams = [(9, 9), (10, 10)] ∧ p.2.snapshotMetadata.consistency = .tipMatched ∧
        p.2.snapshotMetadata.attempts = 2).isSome := by
    decide +kernel
  obtain ⟨⟨sidechains, observation⟩, hfilter⟩ := Option.isSome_iff_exists.mp hrun
  obtain ⟨hok, hobservation⟩ := Option.filter_eq_some_iff.mp hfilter
  obtain ⟨hstreams, hlabel, hattempts⟩ := of_decide_eq_true hobservation
  cases hresult : (prepareStableObservation []).run.answeredInTurn answer 0 with
  | error e =>
    rw [hresult] at hok
    cases hok
  | ok p =>
    rw [hresult] at hok hcs
    cases hok
    obtain ⟨-, -, hstable⟩ := stable_startup hcs
    exact ⟨cs, sidechains, observation, hcs, hstreams, hlabel, hattempts,
      (hstable sidechains observation rfl).1⟩

end Bip300Monitor
