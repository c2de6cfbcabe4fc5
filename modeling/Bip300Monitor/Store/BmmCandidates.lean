import Bip300Monitor.Store.Additions
import Bip300Monitor.Store.Conflicts

/-!
# The candidates of a block

`observed_bmm_candidates` of `shared/src/store.rs`: a bid is a candidate of a block when a
tip-matched sample at the block's parent shows it, and a fact of the block for the slot, which no
conflict touches, carries the commitment bid for. The query reads the rendered payloads; the model
reads the envelopes that they render.

## What is proved

* `observedBmmCandidates_exec` — a command that disputes no fact of the block for a slot keeps the
  slot's candidates;
* `late_of_mem_exec` — what a command adds to them is late evidence.
-/

namespace Bip300Monitor

open Protobuf Transaction

/-- The sample that a fact records. -/
def EventRow.sample (e : EventRow) : Option BmmRequestsSnapshot :=
  match e.envelope.monitorEvent with
  | some (.enforcer (some (.bmmRequests snapshot))) => some snapshot
  | _ => none

/-- The commitment in a fact of a block. -/
def EventRow.bmmCommitment (e : EventRow) : Option Bytes :=
  match e.envelope.monitorEvent with
  | some (.enforcer (some (.blockConnected block))) => block.bmmCommitment
  | _ => none

/-- The fact is the enforcer's, in the handle's dataset and contract. -/
def EventRow.isOfficial (e : EventRow) (store : Store) (kind : EventKind) : Prop :=
  e.datasetId = store.datasetId ∧ e.eventContractVersion = store.eventContractVersion ∧
    e.source = .enforcer ∧ e.kind = kind

instance (e : EventRow) (store : Store) (kind : EventKind) : Decidable (e.isOfficial store kind) :=
  inferInstanceAs (Decidable (_ ∧ _))

/-- The fact is a sample of the auction on top of a block. -/
def EventRow.isSampleAt (e : EventRow) (store : Store) (parent : Bytes) : Prop :=
  e.isOfficial store .bmmRequests ∧ e.sample.map (·.previousMainchainBlockHash) = some parent

instance (e : EventRow) (store : Store) (parent : Bytes) : Decidable (e.isSampleAt store parent) :=
  inferInstanceAs (Decidable (_ ∧ _))

/-- The fact is of the block. -/
def EventRow.isFactOfBlock (b : EventRow) (store : Store) (blockHash : Bytes) : Prop :=
  b.isOfficial store .blockConnected ∧ b.blockHash = some blockHash

instance (b : EventRow) (store : Store) (blockHash : Bytes) :
    Decidable (b.isFactOfBlock store blockHash) := inferInstanceAs (Decidable (_ ∧ _))

/-- The fact is of the bid's slot, and carries the commitment bid for. -/
def EventRow.commitsTo (b : EventRow) (r : BmmRequest) : Prop :=
  b.sidechain = some r.sidechainNumber ∧ b.bmmCommitment = some r.criticalHash

instance (b : EventRow) (r : BmmRequest) : Decidable (b.commitsTo r) :=
  inferInstanceAs (Decidable (_ ∧ _))

/-- An occurrence of the fact is in a tip-matched group. -/
def Db.tipMatched (db : Db) (e : EventRow) : Prop :=
  ∃ o ∈ db.observations, o.eventId = e.id ∧ ∃ g ∈ db.snapshotGroups,
    o.snapshotGroupId = some g.snapshotGroupId ∧ g.datasetId = e.datasetId ∧
      g.consistency = .tipMatched

instance (db : Db) (e : EventRow) : Decidable (db.tipMatched e) :=
  inferInstanceAs (Decidable (∃ o ∈ db.observations, _))

/-- A conflict touches the fact. -/
def Db.disputed (db : Db) (b : EventRow) : Prop :=
  ∃ c ∈ db.conflicts, c.datasetId = b.datasetId ∧
    (c.firstEventId = b.id ∨ c.conflictingEventId = b.id)

instance (db : Db) (b : EventRow) : Decidable (db.disputed b) :=
  inferInstanceAs (Decidable (∃ c ∈ db.conflicts, _))

/-- The bids of the tip-matched samples on top of a block. -/
def Db.bids (db : Db) (store : Store) (parent : Bytes) : List BmmRequest :=
  (db.events.filter fun e => e.isSampleAt store parent ∧ db.tipMatched e).flatMap fun e =>
    e.sample.elim [] (·.requests)

/-- An undisputed fact of the block meets the bid. -/
def Db.meets (db : Db) (store : Store) (blockHash : Bytes) (r : BmmRequest) : Prop :=
  ∃ b ∈ db.events, b.isFactOfBlock store blockHash ∧ b.commitsTo r ∧ ¬ db.disputed b

instance (db : Db) (store : Store) (blockHash : Bytes) (r : BmmRequest) :
    Decidable (db.meets store blockHash r) := inferInstanceAs (Decidable (∃ b ∈ db.events, _))

/-- `observed_bmm_candidates`, in no particular order. -/
def observedBmmCandidates (store : Store) (blockHash parent : Bytes) (db : Db) : List (ℕ × Bytes) :=
  (((db.bids store parent).filter fun r => db.meets store blockHash r).map fun r =>
    (r.sidechainNumber, r.txid)).dedup

variable {store : Store} {blockHash parent : Bytes} {db : Db} {r : BmmRequest} {p : ℕ × Bytes}

theorem Db.mem_bids : r ∈ db.bids store parent ↔ ∃ e ∈ db.events, e.isSampleAt store parent ∧
    db.tipMatched e ∧ ∃ snapshot, e.sample = some snapshot ∧ r ∈ snapshot.requests := by
  simp only [Db.bids, List.mem_flatMap, List.mem_filter, decide_eq_true_eq]
  constructor
  · rintro ⟨e, ⟨he, hsample, hmatched⟩, hr⟩
    cases hsnapshot : e.sample with
    | none =>
      rw [hsnapshot] at hr
      cases hr
    | some snapshot =>
      rw [hsnapshot] at hr
      exact ⟨e, he, hsample, hmatched, snapshot, hsnapshot, hr⟩
  · rintro ⟨e, he, hsample, hmatched, snapshot, hsnapshot, hr⟩
    refine ⟨e, ⟨he, hsample, hmatched⟩, ?_⟩
    rw [hsnapshot]
    exact hr

theorem mem_observedBmmCandidates : p ∈ observedBmmCandidates store blockHash parent db ↔
    ∃ r ∈ db.bids store parent, db.meets store blockHash r ∧ p = (r.sidechainNumber, r.txid) := by
  simp only [observedBmmCandidates, List.mem_dedup, List.mem_map, List.mem_filter,
    decide_eq_true_eq]
  constructor
  · rintro ⟨r, ⟨hr, hmeets⟩, rfl⟩
    exact ⟨r, hr, hmeets, rfl⟩
  · rintro ⟨r, hr, hmeets, rfl⟩
    exact ⟨r, ⟨hr, hmeets⟩, rfl⟩

/-! ### Foreign keys -/

/-- An occurrence is of a fact, and its group is there. -/
structure Db.Referenced (db : Db) : Prop where
  event : ∀ o ∈ db.observations, ∃ e ∈ db.events, e.id = o.eventId
  group : ∀ o ∈ db.observations, ∀ id, o.snapshotGroupId = some id →
    ∃ g ∈ db.snapshotGroups, g.snapshotGroupId = id

theorem Db.Referenced.empty : Db.empty.Referenced := ⟨by simp [Db.empty], by simp [Db.empty]⟩

section
variable [Digests] {c : Command} (startOf : ScopeKey → ℕ)

theorem Db.exec_referenced (h : db.Referenced) : (db.exec startOf c).Referenced := by
  obtain ⟨groups, rows, hgroups, hrows, -, hall⟩ := (db.exec_occurs startOf c).tables
  have hevents := db.exec_events startOf c
  constructor
  · intro o ho
    rw [hrows] at ho
    rcases List.mem_append.mp ho with ho | ho
    · obtain ⟨e, he, hid⟩ := h.event o ho
      exact ⟨e, hevents he, hid⟩
    · obtain ⟨⟨e, he, hid, -⟩, -⟩ := hall o ho
      exact ⟨e, he, hid.symm⟩
  · intro o ho id hid
    rw [hrows] at ho
    rw [hgroups]
    rcases List.mem_append.mp ho with ho | ho
    · obtain ⟨g, hg, hgid⟩ := h.group o ho id hid
      exact ⟨g, List.mem_append_left _ hg, hgid⟩
    · obtain ⟨g, hg, hgid⟩ := (hall o ho).2 id hid
      exact ⟨g, List.mem_append_right _ hg, hgid⟩

/-! ### What stays -/

/-- A recorded row that disagrees with the fact. -/
def EventRow.disputes (row b : EventRow) : Prop :=
  b.sameScope row ∧ b.blockHash = row.blockHash ∧ b.factSha256 ≠ row.factSha256

/-- A fact is disputed by a command only if a row that it records disagrees with it. -/
theorem not_disputed_exec (hj : db.Judged) {b : EventRow} (hb : b ∈ db.events)
    (hc : ∀ row, c.records row → ¬ row.disputes b) (h : ¬ db.disputed b) :
    ¬ (db.exec startOf c).disputed b := by
  have hj' := db.exec_judged startOf c hj
  have hadds := db.exec_adds startOf c
  rintro ⟨x, hx, hdataset, htouches⟩
  obtain ⟨e, he, e', he', hof, hkind, hconflict⟩ := hj'.backed x hx
  obtain ⟨hxdataset, hfirst, hsecond⟩ := hof
  -- two facts that were there disagreed before
  have hold : e ∈ db.events → e' ∈ db.events → False := by
    intro hin hin'
    obtain ⟨x', hx', hfirst', hsecond'⟩ := hj.sound.conflict e hin e' hin' hkind hconflict
    obtain ⟨y, hy, y', hy', hofxy, -, -⟩ := hj.backed x' hx'
    have heq : y' = e' := hj.sound.eq_of_id hy' hin' (hofxy.2.2.symm.trans hsecond')
    refine h ⟨x', hx', ?_, ?_⟩
    · rw [hofxy.1, heq, ← hxdataset, hdataset]
    · rw [hfirst', hsecond', ← hfirst, ← hsecond]
      exact htouches
  rcases hadds.fresh e' he' with hin' | ⟨hfresh', row, hrow, heq⟩
  · have hlt : e.id < db.nextEventId := hconflict.2.2.2.1.trans (hj.sound.id_lt e' hin')
    exact hold (hadds.mem_of_id_lt he hlt) hin'
  · rcases htouches with htouches | htouches
    · have heb : e = b := hj'.sound.eq_of_id he (hadds.events hb) (hfirst.symm.trans htouches)
      subst heb
      rw [heq] at hconflict
      exact hc row hrow ⟨hconflict.1, hconflict.2.1, hconflict.2.2.2.2⟩
    · have hid : e'.id = b.id := hsecond.symm.trans htouches
      have hlt := hj.sound.id_lt b hb
      omega

theorem Db.tipMatched_exec {e : EventRow} (h : db.tipMatched e) : (db.exec startOf c).tipMatched e := by
  obtain ⟨groups, rows, hgroups, hrows, -, -⟩ := (db.exec_occurs startOf c).tables
  obtain ⟨o, ho, hid, g, hg, hmatched⟩ := h
  refine ⟨o, ?_, hid, g, ?_, hmatched⟩
  · rw [hrows]
    exact List.mem_append_left _ ho
  · rw [hgroups]
    exact List.mem_append_left _ hg

/-- **A command that disputes no fact of the block** for the slot keeps the slot's candidates. -/
theorem observedBmmCandidates_exec (hj : db.Judged)
    (hc : ∀ row, c.records row → ∀ b ∈ db.events, b.isFactOfBlock store blockHash →
      b.sidechain = some p.1 → ¬ row.disputes b)
    (hp : p ∈ observedBmmCandidates store blockHash parent db) :
    p ∈ observedBmmCandidates store blockHash parent (db.exec startOf c) := by
  obtain ⟨r, hr, ⟨b, hb, hof, hcommits, hundisputed⟩, rfl⟩ := mem_observedBmmCandidates.mp hp
  obtain ⟨e, he, hsample, hmatched, hrequests⟩ := Db.mem_bids.mp hr
  have hevents := db.exec_events startOf c
  refine mem_observedBmmCandidates.mpr ⟨r, ?_, ⟨b, hevents hb, hof, hcommits, ?_⟩, rfl⟩
  · exact Db.mem_bids.mpr ⟨e, hevents he, hsample, db.tipMatched_exec startOf hmatched, hrequests⟩
  · exact not_disputed_exec startOf hj hb (fun row hrow => hc row hrow b hb hof hcommits.1) hundisputed

/-! ### What is added -/

/-- A fact that is tip-matched after a command was before, or the command is the snapshot. -/
theorem tipMatched_of_exec (hj : db.Judged) (href : db.Referenced) {e : EventRow}
    (he : e ∈ (db.exec startOf c).events) (h : (db.exec startOf c).tipMatched e) :
    (e ∈ db.events ∧ db.tipMatched e) ∨
      (c.batch.bind (·.label) = some .tipMatched ∧ Restates c.records db e) := by
  have hsound := (db.exec_judged startOf c hj).sound
  obtain ⟨groups, rows, hgroups, hrows, hnew, hall⟩ := (db.exec_occurs startOf c).tables
  obtain ⟨o, ho, hid, g, hg, hgroup, hdataset, hmatched⟩ := h
  rw [hrows] at ho
  rw [hgroups] at hg
  rcases List.mem_append.mp ho with ho | ho
  · obtain ⟨e', he', hid'⟩ := href.event o ho
    obtain ⟨g', hg', hgid⟩ := href.group o ho _ hgroup
    have heq : e' = e := hsound.eq_of_id (db.exec_events startOf c he') he (hid'.trans hid)
    subst heq
    rcases List.mem_append.mp hg with hg | hg
    · exact .inl ⟨he', o, ho, hid, g, hg, hgroup, hdataset, hmatched⟩
    · have hlt := (hnew g hg).2 g' hg'
      omega
  · obtain ⟨⟨e', he', hid', hrestates⟩, hin⟩ := hall o ho
    have heq : e' = e := hsound.eq_of_id he' he (hid'.symm.trans hid)
    subst heq
    obtain ⟨g', hg', hgid⟩ := hin _ hgroup
    rcases List.mem_append.mp hg with hg | hg
    · have hlt := (hnew g' hg').2 g hg
      omega
    · refine .inr ⟨?_, hrestates⟩
      rw [(hnew g hg).1, hmatched]

/-- A fact that is undisputed after a command was before. -/
theorem not_disputed_of_exec (hj : db.Judged) {b : EventRow}
    (h : ¬ (db.exec startOf c).disputed b) : ¬ db.disputed b := by
  have hj' := db.exec_judged startOf c hj
  have hevents := db.exec_events startOf c
  rintro ⟨x, hx, hdataset, htouches⟩
  obtain ⟨e, he, e', he', hof, hkind, hconflict⟩ := hj.backed x hx
  obtain ⟨x', hx', hfirst', hsecond'⟩ :=
    hj'.sound.conflict e (hevents he) e' (hevents he') hkind hconflict
  obtain ⟨y, hy, y', hy', hofxy, -, -⟩ := hj'.backed x' hx'
  have heq : y' = e' := hj'.sound.eq_of_id hy' (hevents he') (hofxy.2.2.symm.trans hsecond')
  refine h ⟨x', hx', ?_, ?_⟩
  · rw [hofxy.1, heq, ← hof.1, hdataset]
  · rw [hfirst', hsecond', ← hof.2.1, ← hof.2.2]
    exact htouches

/-- What the record shows of the block, and what the command adds to it. -/
structure LateEvidence (c : Command) (db : Db) (store : Store) (blockHash parent : Bytes)
    (e b : EventRow) (r : BmmRequest) : Prop where
  sample : e.isSampleAt store parent
  bid : ∃ snapshot, e.sample = some snapshot ∧ r ∈ snapshot.requests
  fact : b.isFactOfBlock store blockHash
  meets : b.commitsTo r
  /-- The bid is there, or it comes with a tip-matched snapshot. -/
  sampled : (e ∈ db.events ∧ db.tipMatched e) ∨
    (c.batch.bind (·.label) = some .tipMatched ∧ Restates c.records db e)
  /-- The fact is there, or it comes with the command, and nothing that is recorded disagrees. -/
  recorded : (b ∈ db.events ∧ ¬ db.disputed b) ∨
    (c.records { b with id := 0 } ∧ ∀ b' ∈ db.events, ¬ b.disputes b')
  /-- One of the two comes now. -/
  late : (r.sidechainNumber, r.txid) ∉ observedBmmCandidates store blockHash parent db

/-- **What is added to the candidates** is late evidence. -/
theorem late_of_mem_exec (hj : db.Judged) (href : db.Referenced)
    (hp : p ∈ observedBmmCandidates store blockHash parent (db.exec startOf c))
    (hnew : p ∉ observedBmmCandidates store blockHash parent db) :
    ∃ e b r, LateEvidence c db store blockHash parent e b r := by
  obtain ⟨r, hr, ⟨b, hb, hof, hcommits, hundisputed⟩, rfl⟩ := mem_observedBmmCandidates.mp hp
  obtain ⟨e, he, hsample, hmatched, hrequests⟩ := Db.mem_bids.mp hr
  refine ⟨e, b, r, hsample, hrequests, hof, hcommits, tipMatched_of_exec startOf hj href he hmatched,
    ?_, hnew⟩
  have hadds := db.exec_adds startOf c
  have hj' := db.exec_judged startOf c hj
  rcases hadds.fresh b hb with hb | ⟨hfresh, row, hrow, heq⟩
  · exact .inl ⟨hb, not_disputed_of_exec startOf hj hundisputed⟩
  · refine .inr ⟨?_, fun b' hb' hdisputes => hundisputed ?_⟩
    · have hzero : row = { b with id := 0 } := by
        obtain ⟨_, _, event, -, f, payload, inst, -, -, -, rfl⟩ := hrow
        rw [heq]
        rfl
      exact hzero ▸ hrow
    · -- the two are in conflict
      obtain ⟨hscope, hhash, hsha⟩ := hdisputes
      have hlt : b'.id < b.id := (hj.sound.id_lt b' hb').trans_le hfresh
      have hkind : b.kind.isBlockFact := by
        rw [hof.1.2.2.2]
        rfl
      have hne : b'.blockHash ≠ none := by
        rw [hhash, hof.2]
        exact Option.some_ne_none _
      obtain ⟨x, hx, -, hsecond⟩ := hj'.sound.conflict b' (hadds.events hb') b hb hkind
        ⟨hscope, hhash, hne, hlt, hsha⟩
      obtain ⟨y, hy, y', hy', hofxy, -, -⟩ := hj'.backed x hx
      have hy'b : y' = b := hj'.sound.eq_of_id hy' hb (hofxy.2.2.symm.trans hsecond)
      exact ⟨x, hx, hofxy.1.trans (congrArg EventRow.datasetId hy'b), .inr hsecond⟩

end

end Bip300Monitor
