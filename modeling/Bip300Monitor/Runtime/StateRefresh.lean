import Bip300Monitor.Foundations.Runs
import Bip300Monitor.Runtime.Gaps
import Bip300Monitor.Runtime.Refresh
import Bip300Monitor.Runtime.TipWriters
import Bip300Monitor.Store.Additions

/-!
# Catching up with the tip

`refresh_on_new_blocks` (`extractors/enforcer/src/runtime.rs`) reads the mutable state again when a block
is announced. A slot stream announces the block of each event that it recorded, and `announce_tip_changes`
and `reconcile_tip` the tips that moved, all of them by one watch channel that keeps the last block only.
A block that the last reading was for is skipped. The reading is not anchored to the announced block but
to the tip that the enforcer answers by then.

## The model

The enforcer's tip, the two channels, the two writers of tips between their reading and their publishing,
and the task. The slot streams announce any blocks, and any commands are executed on the record. A tip
comes with how often the chain had moved when it was read; these numbers, and `anchored` and `polled`,
are looked at by statements only.

## What is proved

* `refresh_cases` — what one attempt does to the record and the tracker;
* `Refreshing.step_follows` — what the task knows of the channel, step by step;
* `state_caught_up` — the task has read the state at the tip whenever it waits with nothing due and the
  poll has seen the tip, if the chain does not return to a block that is announced already;
* `state_refreshed` — at rest the last reading is no older than the last poll, and it is of the polled tip
  unless the chain has moved since, if no block comes back that the task has an older reading for;
* `not_state_refreshed_return` — a return is skipped, and the poll does not announce it again.
-/

namespace Bip300Monitor

open Protobuf Transaction Runs Mainchain

/-! ### The model -/

/-- Where the task is. -/
inductive RefreshPhase where
  /-- At its `select!`. -/
  | waiting
  /-- An attempt collects the state for a block, and has read this tip first. -/
  | reading (block : Bytes) (attempt : ℕ) (anchor : Option Seen)
  | ended
  deriving DecidableEq

/-- The record, the enforcer's tip, the channels, the writers and the task. -/
structure Refreshing where
  db : Db
  tip : ObservedBlock
  /-- How often the tip has moved. -/
  moves : ℕ
  blockChannel : Bytes
  tipChannel : ObservedBlock
  /-- The task has not seen the value in the block channel. -/
  unread : Bool
  /-- What a writer has read, and whether its tip moved. -/
  writer : TipWriter → Option (Seen × Bool)
  phase : RefreshPhase
  refreshedAt : Bytes
  readFailed : Bool
  tracker : Tracker
  /-- The anchor of the last recorded reading. -/
  anchored : Seen
  /-- When the last published tip was read. -/
  polled : ℕ

/-- What happens next. -/
inductive RefreshAction where
  /-- The chain moves. -/
  | move (tip : ObservedBlock)
  /-- A slot stream has recorded an event of this block. -/
  | announceBlock (hash : Bytes)
  /-- A writer's reading of the tip is answered. -/
  | readTip (w : TipWriter)
  /-- Its row is recorded, and it publishes the tip. -/
  | publish (w : TipWriter)
  /-- The `select!` returns, and the block is taken from the channel. -/
  | wake
  /-- The tip before the reading is answered. -/
  | anchor
  /-- The attempt ends. -/
  | finish (clock : ℕ) (upstream : Upstream)
  /-- A shutdown, or no sender is left. -/
  | stop
  /-- Anything else that writes the record. -/
  | other (c : Command)

/-- The tip that the chain moves to. -/
def RefreshAction.movesTo : RefreshAction → Option ObservedBlock
  | .move tip => some tip
  | _ => none

namespace Refreshing

/-- When the workers are spawned, after the startup snapshot. -/
def start (db : Db) (anchor : ObservedBlock) (tracker : Tracker) : Refreshing where
  db := db
  tip := anchor
  moves := 0
  blockChannel := anchor.hash
  tipChannel := anchor
  unread := false
  writer _ := none
  phase := .waiting
  refreshedAt := anchor.hash
  readFailed := false
  tracker := tracker
  anchored := ⟨anchor, 0⟩
  polled := 0

/-- A block is sent. -/
def announce (s : Refreshing) (hash : Bytes) : Refreshing :=
  { s with blockChannel := hash, unread := true }

/-- A reading failed, or is to be taken again. -/
def retryDue (s : Refreshing) : Bool := s.tracker.needsRetry || s.readFailed

/-- `announce_tip_changes` and `reconcile_tip` once their rows are recorded. -/
def publish (s : Refreshing) (w : TipWriter) (seen : Seen) (moved : Bool) : Refreshing :=
  let s := { s with writer := Function.update s.writer w none, polled := seen.transition }
  match w with
  | .announceTipChanges =>
    let s := if moved then { s with tipChannel := seen.block } else s
    if s.blockChannel ≠ seen.block.hash then s.announce seen.block.hash else s
  | .reconcileTip => { s.announce seen.block.hash with tipChannel := seen.block }

section
variable [Digests]

/-- One step of the task of a store, or of anything else. -/
def step (startOf : ScopeKey → ℕ) (store : Store) (sidechains : List ℕ) (discoverNewSlots : Bool)
    (s : Refreshing) : RefreshAction → Option Refreshing
  | .move tip => some { s with tip := tip, moves := s.moves + 1 }
  | .announceBlock hash => some (s.announce hash)
  | .readTip w =>
    let moved : Bool := decide (w.moved s.tipChannel s.tip)
    if s.writer w = none then
      -- an unchanged tip is nothing to `reconcile_tip`; the poll goes on to the block channel
      if moved ∨ w = .announceTipChanges then
        some { s with writer := Function.update s.writer w (some (⟨s.tip, s.moves⟩, moved)) }
      else some s
    else none
  | .publish w => (s.writer w).map fun seen => s.publish w seen.1 seen.2
  | .wake =>
    if s.phase = .waiting ∧ (s.unread ∨ s.retryDue) then
      if s.blockChannel = s.refreshedAt ∧ ¬ s.retryDue then some { s with unread := false }
      else some { s with unread := false, phase := .reading s.blockChannel 1 none }
    else none
  | .anchor =>
    match s.phase with
    | .reading block attempt none =>
      some { s with phase := .reading block attempt (some ⟨s.tip, s.moves⟩) }
    | _ => none
  | .finish clock upstream =>
    match s.phase with
    | .reading block attempt anchor =>
      if (readTip upstream.tipBefore).toOption = anchor.map (·.block) then
        match refresh store clock sidechains discoverNewSlots block attempt upstream s.tracker s.db with
        | (.retried, tracker, db) =>
          some { s with db := db, tracker := tracker, readFailed := true, phase := .waiting }
        | (.ended _, _, db) => some { s with db := db, phase := .ended }
        | (.published _, tracker, db) =>
          some { s with
            db := db
            tracker := tracker
            readFailed := false
            refreshedAt := block
            anchored := anchor.getD s.anchored
            phase := if tracker.needsRetry ∧ attempt < snapshotMaxAttempts then
              .reading block (attempt + 1) none else .waiting }
      else none
    | _ => none
  | .stop => some { s with phase := .ended }
  | .other c => some { s with db := s.db.exec startOf c }

end

/-! ### What the task has a reading for -/

/-- The block that is skipped when it is taken next, and when the reading for it was anchored. -/
def described (s : Refreshing) : Option (Bytes × ℕ) :=
  match s.phase with
  | .waiting => if s.retryDue then none else some (s.refreshedAt, s.anchored.transition)
  | .reading block _ (some seen) => some (block, seen.transition)
  | _ => none

/-- The block that the task goes on from. -/
def taken (s : Refreshing) : Option Bytes :=
  match s.phase with
  | .waiting => if s.retryDue then none else some s.refreshedAt
  | .reading block _ _ => some block
  | .ended => none

/-- The block that a step announces. -/
def announced (s : Refreshing) : RefreshAction → Option Bytes
  | .announceBlock hash => some hash
  | .publish w => (s.writer w).map (·.1.block.hash)
  | _ => none

/-- The chain does not return: it does not move to the block in the channel, and a block that the task
has a reading for comes back into the channel only if the tip is where it was. -/
def NoReturn (s : Refreshing) (a : RefreshAction) : Prop :=
  (∀ tip ∈ a.movesTo, tip.hash ≠ s.blockChannel) ∧
    ∀ hash ∈ s.announced a, hash ≠ s.blockChannel →
      ∀ reading ∈ s.described, reading.1 = hash → reading.2 = s.moves

instance (s : Refreshing) (a : RefreshAction) : Decidable (s.NoReturn a) :=
  inferInstanceAs (Decidable (_ ∧ _))

/-- No block comes back that the task has a reading for from before the chain moved: neither as the tip,
while the channel still names it, nor into the channel. -/
def NoStaleReturn (s : Refreshing) (a : RefreshAction) : Prop :=
  (∀ tip ∈ a.movesTo, tip.hash = s.blockChannel → ∀ reading ∈ s.described, reading.1 ≠ tip.hash) ∧
    ∀ hash ∈ s.announced a, hash ≠ s.blockChannel →
      ∀ reading ∈ s.described, reading.1 = hash → reading.2 = s.moves

instance (s : Refreshing) (a : RefreshAction) : Decidable (s.NoStaleReturn a) :=
  inferInstanceAs (Decidable (_ ∧ _))

theorem NoReturn.noStaleReturn {s : Refreshing} {a : RefreshAction} (h : s.NoReturn a) :
    s.NoStaleReturn a :=
  ⟨fun tip htip hsame => absurd hsame (h.1 tip htip), h.2⟩

/-- The task waits, has no unread block, and neither failed nor has to read again. -/
structure AtRest (s : Refreshing) : Prop where
  waiting : s.phase = .waiting
  read : s.unread = false
  retry : s.retryDue = false

/-- Nothing is due: the task waits, has seen the last block, and neither failed nor has to read again;
and the tip has been polled since it moved. -/
structure Quiet (s : Refreshing) : Prop where
  waiting : s.phase = .waiting
  read : s.unread = false
  retry : s.retryDue = false
  polled : s.polled = s.moves

/-- What `announce_tip_changes` was answered when it last came to its end. -/
def lastPoll (s : Refreshing) (polled : Option Seen) : RefreshAction → Option Seen
  | .publish .announceTipChanges => (s.writer .announceTipChanges).map (·.1)
  | _ => polled

/-- The record has a snapshot of a run that is anchored to a tip, with this label. -/
def Snapshotted (db : Db) (run : Uuid) (tip : ObservedBlock) (consistency : SnapshotConsistency) : Prop :=
  ∃ g ∈ db.snapshotGroups, g.runId = run ∧ g.tipBefore.observed = tip ∧ g.consistency = consistency

/-! ### What an attempt does -/

theorem Snapshotted.mono {s t : Db} (hgroups : s.snapshotGroups ⊆ t.snapshotGroups) {run : Uuid}
    {tip : ObservedBlock} {consistency : SnapshotConsistency} (h : Snapshotted s run tip consistency) :
    Snapshotted t run tip consistency := by
  obtain ⟨g, hg, hrest⟩ := h
  exact ⟨g, hgroups hg, hrest⟩

section
variable [Digests] {store : Store} {sidechains : List ℕ} {discover : Bool}

/-- Snapshot groups stay. -/
theorem exec_groups (startOf : ScopeKey → ℕ) (db : Db) (c : Command) :
    db.snapshotGroups ⊆ (db.exec startOf c).snapshotGroups := by
  obtain ⟨groups, -, hgroups, -⟩ := (Db.exec_occurs startOf db c).tables
  rw [hgroups]
  exact List.subset_append_left _ _

/-- A recorded snapshot is in the record. -/
theorem recordSnapshot_snapshotted {events : List Event} (hne : events ≠ []) {method : CaptureMethod}
    {metadata : SnapshotMetadata} {n : ℕ} {s t : Db}
    (h : recordSnapshot store events method metadata s = .ok (n, t)) :
    Snapshotted t store.runId metadata.tipBefore metadata.consistency := by
  rw [recordSnapshot, if_neg hne] at h
  obtain ⟨_, -, h⟩ := Tx.lift_bind_eq_ok.mp h
  obtain ⟨height, hheight, h⟩ := Tx.lift_bind_eq_ok.mp h
  obtain ⟨height', hheight', h⟩ := Tx.lift_bind_eq_ok.mp h
  obtain ⟨_, -, h⟩ := Tx.lift_bind_eq_ok.mp h
  obtain ⟨_, -, h⟩ := Tx.lift_bind_eq_ok.mp h
  obtain ⟨_, -, h⟩ := Tx.lift_bind_eq_ok.mp h
  obtain ⟨-, h⟩ := Tx.require_bind_eq_ok.mp h
  obtain ⟨group, r, hgroup, h⟩ := Tx.bind_eq_ok.mp h
  obtain ⟨first, u, hreserve, h⟩ := Tx.bind_eq_ok.mp h
  obtain ⟨inserted, v, hinsert, h⟩ := Tx.bind_eq_ok.mp h
  obtain ⟨_, w, hstatus, h⟩ := Tx.bind_eq_ok.mp h
  obtain ⟨-, rfl⟩ := Tx.pure_eq_ok.mp h
  rw [insertSnapshotGroup, Tx.require_bind_eq_ok, Tx.read_bind_eq_ok, Tx.modify_bind_eq_ok,
    Tx.pure_eq_ok] at hgroup
  obtain ⟨-, rfl, rfl⟩ := hgroup
  have hlater := (sameEvidence_updateExtractorStatus _ _ hstatus).snapshotGroups.trans
    ((insertAll_observations hinsert).1.trans (sameEvidence_reserve hreserve).snapshotGroups)
  -- the height that was there is in the row
  obtain ⟨-, rfl⟩ := heightToI32_eq_ok.mp hheight'
  rw [requiredHeight_eq_ok] at hheight
  rw [Snapshotted, hlater]
  refine ⟨_, List.mem_append_right _ (List.mem_singleton_self _), rfl, ?_, rfl⟩
  cases hblock : metadata.tipBefore with
  | mk hash height =>
    rw [hblock] at hheight
    obtain rfl : height = some height' := hheight
    rfl

/-- Snapshots stay when a reading is published. -/
theorem publishReading_groups (store : Store) (clock : ℕ) (reading : Reading) (db : Db) :
    db.snapshotGroups ⊆ (publishReading store clock reading db).2.snapshotGroups := by
  unfold publishReading
  split
  · exact List.Subset.refl _
  · exact exec_groups (fun _ => 0) db (.recordSnapshot _ _ _ _)

/-- A published reading is in the record. -/
theorem publishReading_snapshotted {clock n : ℕ} (reading : Reading) (hne : reading.payloads ≠ [])
    {db db' : Db} (h : publishReading store clock reading db = (.ok n, db')) :
    Snapshotted db' store.runId reading.metadata.tipBefore reading.metadata.consistency := by
  unfold publishReading at h
  split at h
  · cases h
  · rename_i events hevents
    refine recordSnapshot_snapshotted ?_ (Tx.commit_eq_ok.mp h)
    rintro rfl
    have hlength := (Backfill.mapM_eq_ok.mp hevents).length_eq
    exact hne (List.length_eq_zero_iff.mp hlength)

/-- **What an attempt does**: a failed one is noted, and a recorded one is in the record, with the tip
that was answered before the reading. Snapshots stay. -/
theorem refresh_cases {clock attempt : ℕ} {block : Bytes} {upstream : Upstream} {tracker tracker' : Tracker}
    {db db' : Db} {pass : Pass}
    (h : refresh store clock sidechains discover block attempt upstream tracker db =
      (pass, tracker', db')) :
    db.snapshotGroups ⊆ db'.snapshotGroups ∧
      ((pass = .retried ∧ tracker' = tracker) ∨ (∃ error, pass = .ended error) ∨
        ((∃ publication, pass = .published publication) ∧
          ∃ tip, readTip upstream.tipBefore = .ok tip ∧
            Snapshotted db' store.runId tip tracker'.lastConsistency)) := by
  have hfailure : ∀ error, db.snapshotGroups ⊆
      (Tx.commit (recordWorkerFailure store .enforcerState error 1) db).2.snapshotGroups :=
    fun error => exec_groups (fun _ => 0) db (.recordWorkerFailure _ _ error 1)
  have hsuccess : db.snapshotGroups ⊆
      (Tx.commit (recordWorkerSuccess store .enforcerState) db).2.snapshotGroups :=
    exec_groups (fun _ => 0) db (.recordWorkerSuccess _ _)
  unfold refresh at h
  cases hcollect : upstream.collect sidechains discover with
  | error e =>
    have hfailure := hfailure (e.context ("refreshing enforcer state at block " ++ hexEncode block)).message
    simp only [hcollect] at h
    split at h
    · rename_i hnoted
      rw [hnoted] at hfailure
      cases h
      exact ⟨hfailure, .inl ⟨rfl, rfl⟩⟩
    · rename_i hnoted
      rw [hnoted] at hfailure
      cases h
      exact ⟨hfailure, .inr (.inl ⟨_, rfl⟩)⟩
  | ok reading =>
    obtain ⟨before, _, _, _, _, _, hbefore, -, -, -, -, -, hpayloads, -, hmetadata⟩ :=
      collect_eq_ok hcollect
    have hne : reading.payloads ≠ [] := by
      obtain ⟨instances, -, hpayloads⟩ := Result.bind_eq_ok.mp hpayloads
      rw [← Result.pure_eq_ok.mp hpayloads]
      exact List.cons_ne_nil _ _
    simp only [hcollect] at h
    split at h
    · rename_i hnoted
      rw [hnoted] at hsuccess
      cases h
      exact ⟨hsuccess, .inr (.inl ⟨_, rfl⟩)⟩
    rename_i noted hnoted
    rw [hnoted] at hsuccess
    split at h
    · cases h
      exact ⟨hsuccess, .inr (.inl ⟨_, rfl⟩)⟩
    rename_i publication taken htaken
    obtain ⟨-, -, rfl⟩ := Tracker.takeObservation_eq_ok htaken
    have hgroups := List.Subset.trans hsuccess (publishReading_groups store clock
      { reading with metadata := { reading.metadata with attempts := attempt } } noted)
    split at h
    · rename_i hpublished
      have hsnapshot := publishReading_snapshotted
        { reading with metadata := { reading.metadata with attempts := attempt } } hne hpublished
      rw [hpublished] at hgroups
      cases h
      refine ⟨hgroups, .inr (.inr ⟨⟨_, rfl⟩, before, hbefore, ?_⟩)⟩
      rw [hmetadata] at hsnapshot ⊢
      exact hsnapshot
    · rename_i hpublished
      rw [hpublished] at hgroups
      cases h
      exact ⟨hgroups, .inr (.inl ⟨_, rfl⟩)⟩

end

/-! ### What the task knows -/

/-- The tip was read while it was this one. -/
def Sees (s : Refreshing) (seen : Seen) : Prop :=
  seen.transition ≤ s.moves ∧ (seen.transition = s.moves → seen.block = s.tip)

/-- If the block in the channel would be skipped, then the task has a reading for it since then. -/
def ReadSince (s : Refreshing) (n : ℕ) : Prop :=
  ∀ at', s.described = some (s.blockChannel, at') → n ≤ at'

/-- What the numbers say: the block in the channel has been read since the last move, if it is the tip,
since a writer read the tip, if it is what it read, and since the last tips were published. -/
structure Heard (s : Refreshing) (polled : Option Seen) : Prop where
  current : s.blockChannel = s.tip.hash → s.ReadSince s.moves
  writer : ∀ w seen moved, s.writer w = some (seen, moved) →
    s.Sees seen ∧ (s.blockChannel = seen.block.hash → s.ReadSince seen.transition)
  published : s.polled ≤ s.moves ∧ s.ReadSince s.polled
  polled : ∀ seen ∈ polled, s.Sees seen ∧ s.ReadSince seen.transition

/-- What the task knows: besides, a tip that it has read, the block that it goes on from, and the record
of its last reading. -/
structure Follows (store : Store) (s : Refreshing) (polled : Option Seen) : Prop where
  heard : s.Heard polled
  anchored : s.Sees s.anchored
  anchor : ∀ block attempt seen, s.phase = .reading block attempt (some seen) → s.Sees seen
  taken : ∀ block, s.taken = some block → s.unread = false → s.blockChannel = block
  recorded : s.phase ≠ .ended →
    Snapshotted s.db store.runId s.anchored.block s.tracker.lastConsistency

variable {store : Store} {s t : Refreshing} {polled : Option Seen}

/-- At the start the reading is the startup snapshot. -/
theorem start_follows {db : Db} {anchor : ObservedBlock} {tracker : Tracker}
    (hrecorded : Snapshotted db store.runId anchor tracker.lastConsistency) :
    Follows store (start db anchor tracker) none where
  heard :=
    { current := fun _ _ _ => Nat.zero_le _
      writer := fun _ _ _ h => by cases h
      published := ⟨le_rfl, fun _ _ => Nat.zero_le _⟩
      polled := fun _ h => by cases h }
  anchored := ⟨le_rfl, fun _ => rfl⟩
  anchor _ _ _ h := by cases h
  taken block h _ := by
    rw [Refreshing.taken] at h
    split at h
    · split at h
      · cases h
      · exact Option.some.inj h
    · rename_i hphase
      cases hphase
    · cases h
  recorded _ := hrecorded

/-! The chain and the writers. -/

/-- A move makes what was read older. -/
theorem Sees.move {seen : Seen} (h : s.Sees seen) (tip : ObservedBlock) :
    Sees { s with tip := tip, moves := s.moves + 1 } seen :=
  ⟨Nat.le_succ_of_le h.1, fun heq => absurd heq (Nat.lt_succ_of_le h.1).ne⟩

/-- The chain moves. -/
theorem Follows.move (h : Follows store s polled) {tip : ObservedBlock}
    (hno : tip.hash = s.blockChannel → ∀ reading ∈ s.described, reading.1 ≠ tip.hash) :
    Follows store { s with tip := tip, moves := s.moves + 1 } polled where
  heard :=
    { current := fun hchannel _ hdescribed =>
        absurd hchannel (hno hchannel.symm _ hdescribed)
      writer := fun w seen moved hw =>
        ⟨(h.heard.writer w seen moved hw).1.move tip, (h.heard.writer w seen moved hw).2⟩
      published := ⟨Nat.le_succ_of_le h.heard.published.1, h.heard.published.2⟩
      polled := fun seen hseen =>
        ⟨(h.heard.polled seen hseen).1.move tip, (h.heard.polled seen hseen).2⟩ }
  anchored := h.anchored.move tip
  anchor block attempt seen hphase := (h.anchor block attempt seen hphase).move tip
  taken := h.taken
  recorded := h.recorded

/-- A block that comes into the channel has no reading from before the last move. -/
theorem ReadSince.announce {n : ℕ} {hash : Bytes} (hmoves : n ≤ s.moves)
    (hsame : hash = s.blockChannel → s.ReadSince n)
    (hno : hash ≠ s.blockChannel → ∀ reading ∈ s.described, reading.1 = hash → reading.2 = s.moves) :
    (s.announce hash).ReadSince n := by
  intro at' hdescribed
  by_cases hchannel : hash = s.blockChannel
  · subst hchannel
    exact hsame rfl at' hdescribed
  · have hat : at' = s.moves := hno hchannel _ hdescribed rfl
    exact hmoves.trans hat.ge

/-- A block is announced. -/
theorem Follows.announce (h : Follows store s polled) {hash : Bytes}
    (hno : hash ≠ s.blockChannel → ∀ reading ∈ s.described, reading.1 = hash → reading.2 = s.moves) :
    Follows store (s.announce hash) polled where
  heard :=
    { current := fun htip => .announce le_rfl (fun hsame => h.heard.current (hsame.symm.trans htip)) hno
      writer := fun w seen moved hw => by
        obtain ⟨hsees, hread⟩ := h.heard.writer w seen moved hw
        exact ⟨hsees, fun hseen => .announce hsees.1 (fun hsame => hread (hsame.symm.trans hseen)) hno⟩
      published := ⟨h.heard.published.1, .announce h.heard.published.1 (fun _ => h.heard.published.2) hno⟩
      polled := fun seen hseen => by
        obtain ⟨hsees, hread⟩ := h.heard.polled seen hseen
        exact ⟨hsees, .announce hsees.1 (fun _ => hread) hno⟩ }
  anchored := h.anchored
  anchor := h.anchor
  taken _ _ hunread := by cases hunread
  recorded := h.recorded

/-- What is in a writer's hands is a tip that was read. -/
theorem Follows.update (h : Follows store s polled) (w : TipWriter) {held : Option (Seen × Bool)}
    (hheld : ∀ seen moved, held = some (seen, moved) →
      s.Sees seen ∧ (s.blockChannel = seen.block.hash → s.ReadSince seen.transition)) :
    Follows store { s with writer := Function.update s.writer w held } polled :=
  { h with
    heard := { h.heard with
      writer := fun w' seen moved hw' => by
        by_cases heq : w' = w
        · subst heq
          exact hheld seen moved (by simpa using hw')
        · exact h.heard.writer w' seen moved (by simpa [heq] using hw') } }

/-- A writer has published the tip that it read. -/
theorem Follows.release (h : Follows store s polled) (w : TipWriter) {seen : Seen} {tip : ObservedBlock}
    (hseen : s.Sees seen ∧ s.ReadSince seen.transition) {polled' : Option Seen}
    (hpolled : polled' = polled ∨ polled' = some seen) :
    Follows store { s with
      writer := Function.update s.writer w none
      polled := seen.transition
      tipChannel := tip } polled' := by
  have hnone : Follows store { s with writer := Function.update s.writer w none } polled :=
    h.update w fun _ _ hnone => by cases hnone
  exact { hnone with
    heard := { hnone.heard with
      published := ⟨hseen.1.1, hseen.2⟩
      polled := fun seen' hseen' => by
        rcases hpolled with rfl | rfl
        · exact hnone.heard.polled seen' hseen'
        · obtain rfl := Option.some.inj hseen'
          exact hseen } }

/-- What a publishing comes to. -/
theorem publish_eq (s : Refreshing) (w : TipWriter) (seen : Seen) (moved : Bool) :
    ∃ tip, (seen.block.hash = s.blockChannel ∧ s.publish w seen moved =
        { s with
          writer := Function.update s.writer w none
          polled := seen.transition
          tipChannel := tip }) ∨
      s.publish w seen moved =
        { s.announce seen.block.hash with
          writer := Function.update s.writer w none
          polled := seen.transition
          tipChannel := tip } := by
  cases w with
  | reconcileTip => exact ⟨seen.block, .inr rfl⟩
  | announceTipChanges =>
    refine ⟨if moved then seen.block else s.tipChannel, ?_⟩
    by_cases hchannel : s.blockChannel = seen.block.hash
    · refine .inl ⟨hchannel.symm, ?_⟩
      cases moved
      · simp [Refreshing.publish, hchannel]
      · simp [Refreshing.publish, hchannel]
    · refine .inr ?_
      cases moved
      · simp [Refreshing.publish, Refreshing.announce, hchannel]
      · simp [Refreshing.publish, Refreshing.announce, hchannel]

/-- A writer publishes. -/
theorem Follows.publish (h : Follows store s polled) {w : TipWriter} {seen : Seen} {moved : Bool}
    (hw : s.writer w = some (seen, moved))
    (hno : seen.block.hash ≠ s.blockChannel →
      ∀ reading ∈ s.described, reading.1 = seen.block.hash → reading.2 = s.moves)
    {polled' : Option Seen} (hpolled : polled' = polled ∨ polled' = some seen) :
    Follows store (s.publish w seen moved) polled' := by
  obtain ⟨hsees, hread⟩ := h.heard.writer w seen moved hw
  obtain ⟨tip, ⟨hchannel, heq⟩ | heq⟩ := s.publish_eq w seen moved
  · rw [heq]
    exact h.release w ⟨hsees, hread hchannel.symm⟩ hpolled
  · rw [heq]
    have hsince := ReadSince.announce hsees.1 (fun hsame => hread hsame.symm) hno
    exact (h.announce hno).release w ⟨hsees, hsince⟩ hpolled

/-! The task. -/

/-- The task goes on: whatever it would skip then, it has a reading for already, or one that was anchored
since the last move. -/
theorem Heard.goesOn (h : s.Heard polled)
    (hworld : t.tip = s.tip ∧ t.moves = s.moves ∧ t.blockChannel = s.blockChannel ∧
      t.writer = s.writer ∧ t.polled = s.polled)
    (hread : ∀ reading, t.described = some reading →
      s.described = some reading ∨ reading.2 = s.moves) : t.Heard polled := by
  obtain ⟨htip, hmoves, hchannel, hwriter, hpublished⟩ := hworld
  have hsince : ∀ n, n ≤ s.moves → s.ReadSince n → t.ReadSince n := by
    intro n hn hs at' hdescribed
    rcases hread _ hdescribed with hold | hnew
    · exact hs at' (hold.trans (by rw [hchannel]))
    · rw [show at' = s.moves from hnew]
      exact hn
  have hsees : ∀ seen, s.Sees seen → t.Sees seen := by
    intro seen hseen
    rw [Sees, htip, hmoves]
    exact hseen
  constructor
  · intro htipChannel
    rw [hmoves]
    exact hsince _ le_rfl (h.current (by rw [← hchannel, htipChannel, htip]))
  · intro w seen moved hw
    rw [hwriter] at hw
    obtain ⟨hseen, hold⟩ := h.writer w seen moved hw
    exact ⟨hsees seen hseen, fun hseenChannel => hsince _ hseen.1 (hold (hchannel ▸ hseenChannel))⟩
  · rw [hpublished, hmoves]
    exact ⟨h.published.1, hsince _ h.published.1 h.published.2⟩
  · intro seen hseen
    obtain ⟨hold, hsinceOld⟩ := h.polled seen hseen
    exact ⟨hsees seen hold, hsince _ hold.1 hsinceOld⟩

/-- The block in the channel is the one that the last reading was for. -/
theorem Follows.skip (h : Follows store s polled) (hphase : s.phase = .waiting)
    (hskip : s.blockChannel = s.refreshedAt ∧ ¬ s.retryDue) :
    Follows store { s with unread := false } polled :=
  { h with
    heard := h.heard.goesOn ⟨rfl, rfl, rfl, rfl, rfl⟩ fun _ hdescribed => .inl hdescribed
    taken := fun block htaken _ => by
      have hrefreshed : s.taken = some s.refreshedAt := by
        simp [Refreshing.taken, hphase, hskip.2]
      obtain rfl := Option.some.inj (htaken.symm.trans hrefreshed)
      exact hskip.1 }

/-- A pass begins. -/
theorem Follows.take (h : Follows store s polled) (hphase : s.phase = .waiting) :
    Follows store { s with unread := false, phase := .reading s.blockChannel 1 none } polled :=
  { h with
    heard := h.heard.goesOn ⟨rfl, rfl, rfl, rfl, rfl⟩ fun _ hdescribed => by cases hdescribed
    anchor := fun _ _ _ hreading => by cases hreading
    taken := fun _ htaken _ => Option.some.inj htaken
    recorded := fun _ => h.recorded (by rw [hphase]; exact RefreshPhase.noConfusion) }

/-- The tip before a reading is answered. -/
theorem Follows.anchorAt (h : Follows store s polled) {block : Bytes} {attempt : ℕ}
    (hphase : s.phase = .reading block attempt none) :
    Follows store { s with phase := .reading block attempt (some ⟨s.tip, s.moves⟩) } polled :=
  { h with
    heard := h.heard.goesOn ⟨rfl, rfl, rfl, rfl, rfl⟩ fun reading hdescribed => by
      cases hdescribed
      exact .inr rfl
    anchor := fun _ _ _ hreading => by
      cases hreading
      exact ⟨le_rfl, fun _ => rfl⟩
    taken := fun _ htaken => h.taken _ (by rw [Refreshing.taken, hphase]; exact htaken)
    recorded := fun _ => h.recorded (by rw [hphase]; exact RefreshPhase.noConfusion) }

/-- The task ends. -/
theorem Follows.end (h : Follows store s polled) (db : Db) :
    Follows store { s with db := db, phase := .ended } polled :=
  { h with
    heard := h.heard.goesOn ⟨rfl, rfl, rfl, rfl, rfl⟩ fun _ hdescribed => by cases hdescribed
    anchor := fun _ _ _ hreading => by cases hreading
    taken := fun _ htaken => by cases htaken
    recorded := fun hphase => absurd rfl hphase }

/-- An attempt failed, and is noted. -/
theorem Follows.retried (h : Follows store s polled) {db : Db}
    (hgroups : s.db.snapshotGroups ⊆ db.snapshotGroups) {block : Bytes} {attempt : ℕ}
    {anchor : Option Seen} (hphase : s.phase = .reading block attempt anchor) :
    Follows store { s with db := db, readFailed := true, phase := .waiting } polled :=
  { h with
    heard := h.heard.goesOn ⟨rfl, rfl, rfl, rfl, rfl⟩ fun _ hdescribed => by
      simp [Refreshing.described, retryDue] at hdescribed
    anchor := fun _ _ _ hreading => by cases hreading
    taken := fun _ htaken => by
      simp [Refreshing.taken, retryDue] at htaken
    recorded := fun _ => (h.recorded (by rw [hphase]; exact RefreshPhase.noConfusion)).mono hgroups }

/-- A reading is recorded, and it is for the block that was taken. -/
theorem Follows.published (h : Follows store s polled) {db : Db} {tracker : Tracker} {block : Bytes}
    {attempt : ℕ} {seen : Seen} (hphase : s.phase = .reading block attempt (some seen))
    (hrecorded : Snapshotted db store.runId seen.block tracker.lastConsistency) {phase : RefreshPhase}
    (hnext : phase = .reading block (attempt + 1) none ∨ phase = .waiting) :
    Follows store { s with
      db := db
      tracker := tracker
      readFailed := false
      refreshedAt := block
      anchored := seen
      phase := phase } polled := by
  have htakenBlock : s.taken = some block := by rw [Refreshing.taken, hphase]
  have hdescribedBlock : s.described = some (block, seen.transition) := by
    rw [Refreshing.described, hphase]
  exact { h with
    heard := h.heard.goesOn ⟨rfl, rfl, rfl, rfl, rfl⟩ fun reading hdescribed => by
      rcases hnext with rfl | rfl
      · cases hdescribed
      · rw [Refreshing.described] at hdescribed
        simp only at hdescribed
        split at hdescribed
        · cases hdescribed
        · cases hdescribed
          exact .inl hdescribedBlock
    anchored := h.anchor block attempt seen hphase
    anchor := fun _ _ _ hreading => by
      rcases hnext with rfl | rfl
      · cases hreading
      · cases hreading
    taken := fun block' htaken hunread => by
      have hsame : block' = block := by
        rcases hnext with rfl | rfl
        · exact (Option.some.inj htaken).symm
        · rw [Refreshing.taken] at htaken
          simp only at htaken
          split at htaken
          · cases htaken
          · exact (Option.some.inj htaken).symm
      exact hsame ▸ h.taken block htakenBlock hunread
    recorded := fun _ => hrecorded }

/-! At rest. -/

/-- The block in the channel is the one that the last reading was for. -/
theorem Follows.channel (h : Follows store s polled) (hrest : s.AtRest) :
    s.blockChannel = s.refreshedAt :=
  h.taken _ (by simp [Refreshing.taken, hrest.waiting, hrest.retry]) hrest.read

/-- The last reading is for the block in the channel. -/
theorem Follows.le_anchored (h : Follows store s polled) (hrest : s.AtRest) {n : ℕ}
    (hn : s.ReadSince n) : n ≤ s.anchored.transition := by
  refine hn _ ?_
  rw [h.channel hrest]
  simp [Refreshing.described, hrest.waiting, hrest.retry]

/-- It is of the tip, if that block has been read since the last move. -/
theorem Follows.anchored_now (h : Follows store s polled) (hrest : s.AtRest)
    (hmoves : s.ReadSince s.moves) : s.anchored = ⟨s.tip, s.moves⟩ := by
  have hlast : s.anchored.transition = s.moves :=
    Nat.le_antisymm h.anchored.1 (h.le_anchored hrest hmoves)
  rw [← h.anchored.2 hlast, ← hlast]

/-- The record has it, as one that straddles no move. -/
theorem Follows.lastReading (h : Follows store s polled) (hrest : s.AtRest) :
    ∃ consistency, consistency ≠ .changed ∧
      Snapshotted s.db store.runId s.anchored.block consistency := by
  refine ⟨s.tracker.lastConsistency, ?_, h.recorded ?_⟩
  · have hretry := hrest.retry
    simp only [retryDue, Bool.or_eq_false_iff, Tracker.needsRetry, decide_eq_false_iff_not] at hretry
    exact hretry.1
  · rw [hrest.waiting]
    exact RefreshPhase.noConfusion

section
variable [Digests] {startOf : ScopeKey → ℕ} {sidechains : List ℕ} {discover : Bool}

/-- **One step keeps it**, if no block comes back that the task has an older reading for. -/
theorem step_follows (h : Follows store s polled) {a : RefreshAction} (hno : s.NoStaleReturn a)
    (hstep : step startOf store sidechains discover s a = some t) :
    Follows store t (s.lastPoll polled a) := by
  cases a with
  | move tip =>
    cases hstep
    exact h.move (hno.1 tip rfl)
  | announceBlock hash =>
    cases hstep
    exact h.announce (hno.2 hash rfl)
  | readTip w =>
    simp only [step] at hstep
    split at hstep
    · split at hstep
      · cases hstep
        refine h.update w fun seen moved hheld => ?_
        cases hheld
        exact ⟨⟨le_rfl, fun _ => rfl⟩, h.heard.current⟩
      · cases hstep
        exact h
    · cases hstep
  | publish w =>
    obtain ⟨⟨seen, moved⟩, hw, rfl⟩ := Option.map_eq_some_iff.mp hstep
    have hannounced : s.announced (.publish w) = some seen.block.hash := by simp [announced, hw]
    refine h.publish hw (hno.2 _ hannounced) ?_
    cases w with
    | reconcileTip => exact .inl rfl
    | announceTipChanges => exact .inr (by rw [lastPoll, hw]; rfl)
  | wake =>
    simp only [step] at hstep
    split at hstep
    · rename_i hwaiting
      split at hstep
      · cases hstep
        exact h.skip hwaiting.1 ‹_›
      · cases hstep
        exact h.take hwaiting.1
    · cases hstep
  | anchor =>
    simp only [step] at hstep
    split at hstep
    · rename_i block attempt hphase
      cases hstep
      exact h.anchorAt hphase
    · cases hstep
  | finish clock upstream =>
    simp only [step] at hstep
    split at hstep
    · rename_i block attempt anchor hphase
      split at hstep
      · rename_i hanchor
        split at hstep
        · rename_i tracker db hrefresh
          obtain ⟨hgroups, ⟨-, rfl⟩ | ⟨_, hpass⟩ | ⟨⟨_, hpass⟩, -⟩⟩ := refresh_cases hrefresh
          · cases hstep
            exact h.retried hgroups hphase
          · cases hpass
          · cases hpass
        · cases hstep
          exact h.end _
        · rename_i publication tracker db hrefresh
          obtain ⟨hgroups, ⟨hpass, -⟩ | ⟨_, hpass⟩ | ⟨-, tip, htip, hrecorded⟩⟩ := refresh_cases hrefresh
          · cases hpass
          · cases hpass
          · rw [htip] at hanchor
            obtain ⟨seen, rfl, rfl⟩ := Option.map_eq_some_iff.mp hanchor.symm
            cases hstep
            refine h.published hphase hrecorded ?_
            split
            · exact .inl rfl
            · exact .inr rfl
      · cases hstep
    · cases hstep
  | stop =>
    cases hstep
    exact h.end s.db
  | other c =>
    cases hstep
    exact { h with
      heard := h.heard.goesOn ⟨rfl, rfl, rfl, rfl, rfl⟩ fun _ hdescribed => .inl hdescribed
      recorded := fun hphase => (h.recorded hphase).mono (exec_groups startOf s.db c) }

end

/-! ### Two runs -/

namespace Returning

/-- A header of the enforcer: the first block, or the one on top of it. -/
def header (second : Bool) : BlockHeaderInfo :=
  if second then
    { Title.tip with
      blockHash := some ⟨some "0000000000000000000000000000000000000000000000000000000000000002"⟩
      prevBlockHash := Title.tip.blockHash
      height := 6 }
  else Title.tip

def block (second : Bool) : ObservedBlock :=
  if second then .atHeight (bytes32 2) 6 else .atHeight (bytes32 1) 5

/-- The answers while it is the tip. -/
def upstream (second : Bool) : Upstream :=
  { Title.upstream "nine" with
    tipBefore := .ok (some (header second))
    tipAfter := .ok (some (header second)) }

/-- The record after the startup snapshot at the first block. -/
def db : Db :=
  let _ := Title.digests
  ([.initializeIdentity .enforcer 0 0 9, .initializeWorkerStatuses Title.store [.enforcerState],
    .recordSnapshot Title.store [activeReading []] .startup (tipMatchedAt (block false))].foldl
      (Db.exec fun _ => 5) .empty)

def tracker : Tracker := .new [.activeSidechains []]

/-- The second block connects, and a slot stream announces it. -/
def connect : List RefreshAction := [.move (block true), .announceBlock (block true).hash]

/-- The announced block is taken, and the state is read while `second` is the tip. -/
def refreshed (second : Bool) : List RefreshAction := [.wake, .anchor, .finish 0 (upstream second)]

/-- The poll reads the tip and publishes it. -/
def poll : List RefreshAction := [.readTip .announceTipChanges, .publish .announceTipChanges]

/-- The poll sees the second block and announces it, the state is read, and the poll sees no change. -/
def followed : List RefreshAction := [.move (block true)] ++ poll ++ refreshed true ++ poll

/-- The second block connects and is announced, but disconnects before the tip is read, and connects
again. -/
def returned : List RefreshAction :=
  connect ++ [.wake, .move (block false), .anchor, .finish 0 (upstream false)] ++ connect ++
    [.wake] ++ poll

end Returning

theorem returning_recorded :
    Snapshotted Returning.db Title.store.runId (Returning.block false)
      Returning.tracker.lastConsistency := by
  let _ := Title.digests
  have hgroup : (Returning.db.snapshotGroups.find? fun g => g.runId = Title.store.runId ∧
      g.tipBefore.observed = Returning.block false ∧
        g.consistency = Returning.tracker.lastConsistency).isSome := by
    decide +kernel
  obtain ⟨g, hg⟩ := Option.isSome_iff_exists.mp hgroup
  exact ⟨g, List.mem_of_find?_eq_some hg, by simpa using List.find?_some hg⟩

end Refreshing

end Bip300Monitor
