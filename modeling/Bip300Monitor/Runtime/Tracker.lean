import Bip300Monitor.Store.Evidence

/-!
# The state tracker

`Tracker` of `extractors/enforcer/src/state.rs`: it remembers the mutable-state payloads
that the next reading is measured against, and says which payloads of a reading changed.
A reading taken while the tip moved is published but is to be no baseline, so that the
stable retry still reports what changed.

The startup snapshot seeds the tracker whatever its label. Seeded by a snapshot that was
itself taken while the tip moved, the first tip-matched reading is measured against a
reading that was no baseline.

## The model

`publications` is what the tracker returns for a sequence of readings. The baseline of a
reading (`baselineAfter`) is the latest earlier tip-matched one, of which there may be
none.

## What is proved

* `Tracker.takeObservation_eq_ok` — what an observation reports against the last reading;
* `tracker_baseline` — when every tip-matched reading reports what differs from its
  baseline.
-/

namespace Bip300Monitor

open Protobuf

/-- The semantic identity of a payload of the mutable state. -/
inductive PayloadKey where
  | sidechainProposals
  | activeSidechains
  | ctip (sidechainNumber : ℕ)
  | withdrawalBundleProposals (sidechainNumber : ℕ)
  deriving DecidableEq, Repr

/-- `payload_key`. -/
def payloadKey : EnforcerEvent → Result PayloadKey
  | .sidechainProposals _ => .ok .sidechainProposals
  | .activeSidechains _ => .ok .activeSidechains
  | .ctip snapshot => .ok (.ctip snapshot.sidechainNumber)
  | .withdrawalBundleProposals snapshot => .ok (.withdrawalBundleProposals snapshot.sidechainNumber)
  | _ => .error (.bail "mutable state collection contains an unexpected payload")

/-- The payload of a key in a reading. -/
def payloadOf (reading : List EnforcerEvent) (key : PayloadKey) : Option EnforcerEvent :=
  reading.find? fun payload => (payloadKey payload).toOption = some key

/-- Remembers the last published value of each mutable-state payload. -/
structure Tracker where
  last : List EnforcerEvent
  lastConsistency : SnapshotConsistency
  deriving DecidableEq, Repr

/-- One state reading to publish: every payload read, and those whose value changed. -/
structure Publication where
  payloads : List EnforcerEvent
  changed : List EnforcerEvent
  deriving DecidableEq, Repr

/-- `active_sidechains_changed`. -/
def Publication.activeSidechainsChanged (publication : Publication) : Bool :=
  publication.changed.any fun payload =>
    match payload with
    | .activeSidechains _ => true
    | _ => false

namespace Tracker

/-- `Tracker::new`. -/
def new (published : List EnforcerEvent) : Tracker := ⟨published, .tipMatched⟩

/-- `with_consistency`. -/
def withConsistency (tracker : Tracker) (consistency : SnapshotConsistency) : Tracker :=
  { tracker with lastConsistency := consistency }

/-- `needs_retry`. -/
def needsRetry (tracker : Tracker) : Bool := tracker.lastConsistency = .changed

/-- The loop of `take_changed`. -/
def changedFrom (last : List EnforcerEvent) : List EnforcerEvent → Result (List EnforcerEvent)
  | [] => .ok []
  | payload :: rest => do
    let key ← payloadKey payload
    let changed ← changedFrom last rest
    pure (if payloadOf last key ≠ some payload then payload :: changed else changed)

/-- `take_changed`: the payloads that differ from the last value of their key, and the
tracker that remembers the new ones. -/
def takeChanged (tracker : Tracker) (current : List EnforcerEvent) :
    Result (List EnforcerEvent × Tracker) := do
  let changed ← changedFrom tracker.last current
  pure (changed, { tracker with last := current })

/-- `take_observation`: only a tip-matched reading is remembered. -/
def takeObservation (tracker : Tracker) (current : List EnforcerEvent)
    (consistency : SnapshotConsistency) : Result (Publication × Tracker) := do
  let tracker := tracker.withConsistency consistency
  if consistency = .tipMatched then
    let taken ← tracker.takeChanged current
    pure (⟨current, taken.1⟩, taken.2)
  else
    let previous := tracker.last
    let taken ← tracker.takeChanged current
    pure (⟨current, taken.1⟩, { taken.2 with last := previous })

end Tracker

/-- The test of `monitor_state`: the reading wakes `monitor_sidechains`, once recorded. -/
def wakes (publication : Publication) (consistency : SnapshotConsistency) : Bool :=
  publication.activeSidechainsChanged && consistency = .tipMatched

/-! ### Sequences of readings -/

/-- A reading: its payloads and its label. -/
abbrev LabelledReading := List EnforcerEvent × SnapshotConsistency

/-- What the tracker returns for a sequence of readings. -/
def Tracker.publications : Tracker → List LabelledReading → Result (List Publication)
  | _, [] => .ok []
  | tracker, reading :: rest => do
    let taken ← tracker.takeObservation reading.1 reading.2
    let others ← Tracker.publications taken.2 rest
    pure (taken.1 :: others)

/-- The baseline after a reading: a tip-matched one is the new one. -/
def baselineAfter (baseline : Option (List EnforcerEvent)) (reading : LabelledReading) :
    Option (List EnforcerEvent) :=
  if reading.2 = .tipMatched then some reading.1 else baseline

/-- The payload differs from the one of its key in the baseline, or the baseline has none. -/
def differs (baseline : Option (List EnforcerEvent)) (payload : EnforcerEvent) : Bool :=
  match baseline, payloadKey payload with
  | some reading, .ok key => payloadOf reading key ≠ some payload
  | _, _ => true

/-- The publication of a tip-matched reading reports exactly what differs from the
baseline, and wakes `monitor_sidechains` when the active set does. -/
def Publication.Reports (publication : Publication) (baseline : Option (List EnforcerEvent))
    (reading : List EnforcerEvent) : Prop :=
  publication.changed = reading.filter (differs baseline) ∧
    ∀ active ∈ payloadOf reading .activeSidechains, differs baseline active →
      wakes publication .tipMatched

/-- Every tip-matched reading of the sequence is reported against its baseline. -/
def Reported : Option (List EnforcerEvent) → List LabelledReading → List Publication → Prop
  | baseline, reading :: readings, publication :: publications =>
    (reading.2 = .tipMatched → publication.Reports baseline reading.1) ∧
      Reported (baselineAfter baseline reading) readings publications
  | _, _, _ => True

/-- The first tip-matched reading of the sequence. -/
def firstMatched (readings : List LabelledReading) : Option (List EnforcerEvent) :=
  (readings.find? (·.2 = .tipMatched)).map (·.1)

/-! ### What the tracker reports -/

theorem Tracker.changedFrom_eq_ok {last current changed : List EnforcerEvent}
    (h : Tracker.changedFrom last current = .ok changed) :
    (∀ payload ∈ current, ∃ key, payloadKey payload = .ok key) ∧
      changed = current.filter (differs (some last)) := by
  induction current generalizing changed with
  | nil =>
    cases h
    simp
  | cons payload rest ih =>
    obtain ⟨key, hkey, h⟩ := Result.bind_eq_ok.mp h
    obtain ⟨others, hothers, h⟩ := Result.bind_eq_ok.mp h
    obtain rfl := Result.pure_eq_ok.mp h
    obtain ⟨hkeys, rfl⟩ := ih hothers
    constructor
    · intro payload' hmem
      rcases List.mem_cons.mp hmem with rfl | hmem
      · exact ⟨key, hkey⟩
      · exact hkeys payload' hmem
    · by_cases hlast : payloadOf last key = some payload
      · simp [differs, hkey, hlast]
      · simp [differs, hkey, hlast]

/-- One observation: the difference from the last reading, which a tip-matched one
replaces. -/
theorem Tracker.takeObservation_eq_ok {tracker after : Tracker} {current : List EnforcerEvent}
    {consistency : SnapshotConsistency} {publication : Publication}
    (h : tracker.takeObservation current consistency = .ok (publication, after)) :
    publication = ⟨current, current.filter (differs (some tracker.last))⟩ ∧
      (∀ payload ∈ current, ∃ key, payloadKey payload = .ok key) ∧
      after = ⟨if consistency = .tipMatched then current else tracker.last, consistency⟩ := by
  unfold takeObservation at h
  by_cases hmatched : consistency = .tipMatched
  · rw [if_pos hmatched] at h
    obtain ⟨taken, htaken, h⟩ := Result.bind_eq_ok.mp h
    obtain ⟨changed, hchanged, htaken⟩ := Result.bind_eq_ok.mp htaken
    obtain rfl := Result.pure_eq_ok.mp htaken
    obtain ⟨hkeys, rfl⟩ := changedFrom_eq_ok hchanged
    cases Result.pure_eq_ok.mp h
    rw [if_pos hmatched]
    exact ⟨rfl, hkeys, rfl⟩
  · rw [if_neg hmatched] at h
    obtain ⟨taken, htaken, h⟩ := Result.bind_eq_ok.mp h
    obtain ⟨changed, hchanged, htaken⟩ := Result.bind_eq_ok.mp htaken
    obtain rfl := Result.pure_eq_ok.mp htaken
    obtain ⟨hkeys, rfl⟩ := changedFrom_eq_ok hchanged
    cases Result.pure_eq_ok.mp h
    rw [if_neg hmatched]
    exact ⟨rfl, hkeys, rfl⟩

/-- Payloads of the mutable state can be diffed. -/
theorem Tracker.changedFrom_ok (last : List EnforcerEvent) {current : List EnforcerEvent}
    (hkeys : ∀ payload ∈ current, ∃ key, payloadKey payload = .ok key) :
    ∃ changed, Tracker.changedFrom last current = .ok changed := by
  induction current with
  | nil => exact ⟨[], rfl⟩
  | cons payload rest ih =>
    obtain ⟨key, hkey⟩ := hkeys payload List.mem_cons_self
    obtain ⟨changed, hchanged⟩ := ih fun payload' hmem => hkeys payload' (List.mem_cons_of_mem _ hmem)
    refine ⟨_, Result.bind_eq_ok.mpr ⟨key, hkey, Result.bind_eq_ok.mpr ⟨changed, hchanged, rfl⟩⟩⟩

theorem Tracker.takeObservation_ok (tracker : Tracker) {current : List EnforcerEvent}
    (consistency : SnapshotConsistency)
    (hkeys : ∀ payload ∈ current, ∃ key, payloadKey payload = .ok key) :
    ∃ taken, tracker.takeObservation current consistency = .ok taken := by
  obtain ⟨changed, hchanged⟩ := changedFrom_ok tracker.last hkeys
  unfold takeObservation
  by_cases hmatched : consistency = .tipMatched
  · rw [if_pos hmatched]
    exact ⟨_, Result.bind_eq_ok.mpr ⟨_, Result.bind_eq_ok.mpr ⟨changed, hchanged, rfl⟩, rfl⟩⟩
  · rw [if_neg hmatched]
    exact ⟨_, Result.bind_eq_ok.mpr ⟨_, Result.bind_eq_ok.mpr ⟨changed, hchanged, rfl⟩, rfl⟩⟩

/-- Readings of the mutable state are all published. -/
theorem Tracker.publications_ok (tracker : Tracker) {readings : List LabelledReading}
    (hkeys : ∀ reading ∈ readings, ∀ payload ∈ reading.1, ∃ key, payloadKey payload = .ok key) :
    ∃ publications, tracker.publications readings = .ok publications := by
  induction readings generalizing tracker with
  | nil => exact ⟨[], rfl⟩
  | cons reading rest ih =>
    obtain ⟨taken, htaken⟩ :=
      tracker.takeObservation_ok reading.2 (hkeys reading List.mem_cons_self)
    obtain ⟨publications, hpublications⟩ := ih taken.2 fun reading' hmem =>
      hkeys reading' (List.mem_cons_of_mem _ hmem)
    exact ⟨_, Result.bind_eq_ok.mpr ⟨taken, htaken,
      Result.bind_eq_ok.mpr ⟨publications, hpublications, rfl⟩⟩⟩

/-- A publication that reports the difference from a baseline wakes when the active set is
part of it. -/
theorem reports_of_changed {publication : Publication} {baseline : Option (List EnforcerEvent)}
    {reading : List EnforcerEvent} (h : publication.changed = reading.filter (differs baseline)) :
    publication.Reports baseline reading := by
  refine ⟨h, ?_⟩
  intro active hactive hdiffers
  have hmem : active ∈ publication.changed := by
    rw [h]
    exact List.mem_filter.mpr ⟨List.mem_of_find?_eq_some hactive, hdiffers⟩
  have hfound := List.find?_some hactive
  have hset : ∃ sidechains, active = .activeSidechains sidechains := by
    cases active <;> simp [payloadKey, Except.toOption] at hfound
    simp
  obtain ⟨sidechains, rfl⟩ := hset
  simp only [wakes, Publication.activeSidechainsChanged, decide_true, Bool.and_true,
    List.any_eq_true]
  exact ⟨_, hmem, rfl⟩

/-- Once the tracker remembers the baseline, every reading is reported. -/
theorem reported_of_last {tracker : Tracker} {readings : List LabelledReading}
    {publications : List Publication} (h : tracker.publications readings = .ok publications) :
    Reported (some tracker.last) readings publications := by
  induction readings generalizing tracker publications with
  | nil =>
    cases h
    trivial
  | cons reading rest ih =>
    obtain ⟨⟨publication, after⟩, htaken, h⟩ := Result.bind_eq_ok.mp h
    obtain ⟨others, hothers, h⟩ := Result.bind_eq_ok.mp h
    obtain rfl := Result.pure_eq_ok.mp h
    obtain ⟨rfl, -, rfl⟩ := Tracker.takeObservation_eq_ok htaken
    refine ⟨fun _ => reports_of_changed rfl, ?_⟩
    have hbaseline : baselineAfter (some tracker.last) reading =
        some (if reading.2 = .tipMatched then reading.1 else tracker.last) := by
      by_cases hmatched : reading.2 = .tipMatched
      · simp [baselineAfter, hmatched]
      · simp [baselineAfter, hmatched]
    rw [hbaseline]
    exact ih hothers

/-- While there is no baseline, only the first tip-matched reading can be misreported: what
it shares with the last reading is missing. -/
theorem reported_none_iff {tracker : Tracker} {readings : List LabelledReading}
    {publications : List Publication} (h : tracker.publications readings = .ok publications) :
    Reported none readings publications ↔
      ∀ current ∈ firstMatched readings, ∀ payload ∈ current,
        differs (some tracker.last) payload := by
  induction readings generalizing tracker publications with
  | nil =>
    cases h
    simp [Reported, firstMatched]
  | cons reading rest ih =>
    obtain ⟨⟨publication, after⟩, htaken, h⟩ := Result.bind_eq_ok.mp h
    obtain ⟨others, hothers, h⟩ := Result.bind_eq_ok.mp h
    obtain rfl := Result.pure_eq_ok.mp h
    obtain ⟨rfl, -, rfl⟩ := Tracker.takeObservation_eq_ok htaken
    by_cases hmatched : reading.2 = .tipMatched
    · have hfirst : firstMatched (reading :: rest) = some reading.1 := by
        simp [firstMatched, hmatched]
      have hrest : Reported (some reading.1) rest others := by
        have hlast := reported_of_last hothers
        simpa [hmatched] using hlast
      have hall : reading.1.filter (differs none) = reading.1 := by
        simp [differs]
      rw [hfirst, Reported]
      simp only [hmatched, baselineAfter, if_true, forall_const, hrest, and_true,
        Option.mem_some_iff, forall_eq']
      constructor
      · intro hreports
        have hchanged := hreports.1
        rw [hall] at hchanged
        exact List.filter_eq_self.mp hchanged
      · intro hdiffers
        apply reports_of_changed
        rw [hall]
        exact List.filter_eq_self.mpr hdiffers
    · have hfirst : firstMatched (reading :: rest) = firstMatched rest := by
        simp [firstMatched, hmatched]
      rw [hfirst, Reported]
      simp only [hmatched, baselineAfter, if_false, false_implies, true_and]
      rw [ih hothers]
      simp [hmatched]

/-- **When the tracker measures against the right baseline.** Every sequence of readings of
the mutable state is published; and each tip-matched reading of it is reported against the
latest earlier tip-matched one exactly when the startup snapshot is tip-matched itself, or
the first tip-matched reading has no payload in common with it. -/
theorem tracker_baseline (published : List EnforcerEvent) (consistency : SnapshotConsistency)
    {readings : List LabelledReading}
    (hkeys : ∀ reading ∈ readings, ∀ payload ∈ reading.1, ∃ key, payloadKey payload = .ok key) :
    ∃ publications, ((Tracker.new published).withConsistency consistency).publications readings =
        .ok publications ∧
      (Reported (baselineAfter none (published, consistency)) readings publications ↔
        consistency = .tipMatched ∨ ∀ current ∈ firstMatched readings, ∀ payload ∈ current,
          differs (some published) payload) := by
  obtain ⟨publications, h⟩ :=
    ((Tracker.new published).withConsistency consistency).publications_ok hkeys
  refine ⟨publications, h, ?_⟩
  by_cases hmatched : consistency = .tipMatched
  · have hreported := reported_of_last h
    simp only [baselineAfter, hmatched, if_true, true_or, iff_true]
    exact hreported
  · simp only [baselineAfter, hmatched, if_false, false_or]
    exact reported_none_iff h

/-- A new slot is reported against a tip-matched snapshot. -/
theorem tracker_baseline_ctip :
    ∃ publications, ((Tracker.new [.ctip ⟨9, none⟩]).withConsistency .tipMatched).publications
        [([.ctip ⟨9, none⟩, .ctip ⟨98, none⟩], .tipMatched)] = .ok publications ∧
      Reported (some [.ctip ⟨9, none⟩]) [([.ctip ⟨9, none⟩, .ctip ⟨98, none⟩], .tipMatched)]
        publications := by
  have hkeys : ∀ reading ∈ [(([.ctip ⟨9, none⟩, .ctip ⟨98, none⟩], .tipMatched) : LabelledReading)],
      ∀ payload ∈ reading.1, ∃ key, payloadKey payload = .ok key := by
    intro reading hreading payload hpayload
    obtain rfl := List.mem_singleton.mp hreading
    simp only [List.mem_cons, List.not_mem_nil, or_false] at hpayload
    rcases hpayload with rfl | rfl
    · exact ⟨_, rfl⟩
    · exact ⟨_, rfl⟩
  obtain ⟨publications, hpublications, hreported⟩ :=
    tracker_baseline [.ctip ⟨9, none⟩] .tipMatched hkeys
  exact ⟨publications, hpublications, hreported.mpr (.inl rfl)⟩

/-- **An activation that no reading reports.** The startup snapshot saw slot 9 active while
the tip moved; the stable reading, the first tip-matched one, sees the same, reports nothing
and wakes nothing. -/
theorem activation_unreported :
    ∃ publication,
      ((Tracker.new [.activeSidechains [slotNine]]).withConsistency .changed).publications
          [([.activeSidechains [slotNine]], .tipMatched)] = .ok [publication] ∧
      ¬ Reported (baselineAfter none ([.activeSidechains [slotNine]], .changed))
          [([.activeSidechains [slotNine]], .tipMatched)] [publication] ∧
      publication.changed = [] ∧ wakes publication .tipMatched = false := by
  refine ⟨⟨[.activeSidechains [slotNine]], []⟩, rfl, ?_, rfl, rfl⟩
  intro h
  have hchanged := (h.1 rfl).1
  revert hchanged
  decide

end Bip300Monitor
