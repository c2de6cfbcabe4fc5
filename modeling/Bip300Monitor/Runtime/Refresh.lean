import Bip300Monitor.Runtime.Convert
import Bip300Monitor.Runtime.Readings
import Bip300Monitor.Runtime.Tracker

/-!
# Refreshing the state

One pass of `refresh_on_new_blocks` (`extractors/enforcer/src/runtime.rs`): the enforcer's
unary answers are collected and converted, and the reading is published. A reading that
cannot be taken is a recorded failure and is retried; one that cannot be published ends the
worker, and with it the extractor.

## What is proved

* `collect_eq_ok` — what a collected reading is made of;
* `refresh_survives` — exactly which upstream content the worker survives.
-/

namespace Bip300Monitor

open Protobuf Transaction

/-- The enforcer's answers while one reading is collected, and the wall clock. -/
structure Upstream where
  startedAt : ℕ
  tipBefore : Result (Option Mainchain.BlockHeaderInfo)
  sidechainProposals : Result (List Mainchain.SidechainProposal)
  sidechains : Result (List Mainchain.SidechainInfo)
  ctip : ℕ → Result (Option Mainchain.Ctip)
  withdrawalBundleProposals : ℕ → Result (List Mainchain.ResponseItem)
  tipAfter : Result (Option Mainchain.BlockHeaderInfo)
  finishedAt : ℕ

/-- One reading of the mutable state, and the tip it is anchored to. -/
structure Reading where
  anchor : ObservedBlock
  payloads : List EnforcerEvent
  metadata : SnapshotMetadata
  deriving DecidableEq, Repr

/-- `tip_anchor` of a converted chain tip. -/
def tipAnchor (tip : ChainTip) : Result ObservedBlock :=
  match tip.header with
  | some header => .ok (.atHeight header.hash header.height)
  | none => .error (.bail "chain-tip event is missing its block header")

/-- The tip an answer reports. -/
def readTip (answer : Result (Option Mainchain.BlockHeaderInfo)) : Result ObservedBlock := do
  let response ← answer
  let tip ← Convert.chainTip response
  tipAnchor tip

namespace Upstream

/-- The two payloads of a slot. -/
def slotPayloads (upstream : Upstream) (slot : ℕ) : Result (List EnforcerEvent) := do
  let response ← upstream.ctip slot
  let ctip ← Convert.ctip slot response
  let response ← upstream.withdrawalBundleProposals slot
  let bundles ← Convert.withdrawalBundleProposals slot response
  pure [ctip, bundles]

variable [Digests]

/-- `collect_payloads`, from the unconverted answers. -/
def collectPayloads (upstream : Upstream) (sidechains : List ℕ) (discoverNewSlots : Bool) :
    Result (List EnforcerEvent) := do
  let response ← upstream.sidechainProposals
  let proposals ← Convert.sidechainProposals response
  let response ← upstream.sidechains
  let active ← Convert.activeSidechains response
  let instances ← activeInstances active
  let selected := instances.filter fun inst => discoverNewSlots ∨ inst.sidechain ∈ sidechains
  let slots ← selected.mapM fun inst => upstream.slotPayloads inst.sidechain
  pure (.sidechainProposals proposals :: .activeSidechains active :: slots.flatten)

/-- `collect`. -/
def collect (upstream : Upstream) (sidechains : List ℕ) (discoverNewSlots : Bool) :
    Result Reading := do
  let tipBefore ← readTip upstream.tipBefore
  let payloads ← upstream.collectPayloads sidechains discoverNewSlots
  let tipAfter ← readTip upstream.tipAfter
  pure ⟨tipBefore, payloads, {
    revisionBefore := none
    revisionAfter := none
    startedAt := upstream.startedAt
    finishedAt := upstream.finishedAt
    tipBefore := tipBefore
    tipAfter := tipAfter
    consistency := if tipBefore.hash = tipAfter.hash then .tipMatched else .changed
    attempts := 1 }⟩

end Upstream

/-- How a pass of the refresh task ends. -/
inductive Pass where
  /-- The reading was rejected, and the failure is recorded. -/
  | retried
  /-- The reading is recorded. -/
  | published (publication : Publication)
  /-- The task returns the error, and every other worker ends with it. -/
  | ended (error : Failure)

/-- The pass does not end the extractor. -/
def Pass.Survives : Pass → Prop
  | .ended _ => False
  | _ => True

/-- `SNAPSHOT_MAX_ATTEMPTS`. -/
def snapshotMaxAttempts : ℕ := 3

section
variable [Digests]

/-- The publication of a reading: the closure that `monitor_state` hands to the task. -/
def publishReading (store : Store) (clock : ℕ) (reading : Reading) (db : Db) : Result ℕ × Db :=
  match reading.payloads.mapM fun payload =>
      Backfill.envelope (some payload) reading.anchor (.ok clock) with
  | .error e => (.error e, db)
  | .ok events => Tx.commit (recordSnapshot store events .poll reading.metadata) db

/-- One attempt of `refresh_on_new_blocks`: collect, note the worker's health, diff,
publish. -/
def refresh (store : Store) (clock : ℕ) (sidechains : List ℕ) (discoverNewSlots : Bool)
    (block : Bytes) (attempt : ℕ) (upstream : Upstream) (tracker : Tracker) (db : Db) :
    Pass × Tracker × Db :=
  match upstream.collect sidechains discoverNewSlots with
  | .error e =>
    let error := (e.context ("refreshing enforcer state at block " ++ hexEncode block)).message
    match Tx.commit (recordWorkerFailure store .enforcerState error 1) db with
    | (.ok _, db) => (.retried, tracker, db)
    | (.error e, db) => (.ended e, tracker, db)
  | .ok reading =>
    match Tx.commit (recordWorkerSuccess store .enforcerState) db with
    | (.error e, db) => (.ended e, tracker, db)
    | (.ok _, db) =>
      let reading := { reading with metadata := { reading.metadata with attempts := attempt } }
      match tracker.takeObservation reading.payloads reading.metadata.consistency with
      | .error e => (.ended e, tracker, db)
      | .ok (publication, tracker) =>
        match publishReading store clock reading db with
        | (.ok _, db) => (.published publication, tracker, db)
        | (.error e, db) =>
          (.ended (e.context "publishing refreshed enforcer state"), tracker, db)

end

/-! ### What the record asks of the answers -/

/-- The heights of an active sidechain are in order, and can be held. -/
def Mainchain.SidechainInfo.HeightsFit (sidechain : Mainchain.SidechainInfo) : Prop :=
  ∀ proposal ∈ sidechain.proposalHeight, ∀ activation ∈ sidechain.activationHeight,
    proposal ≤ activation ∧ activation ≤ maxHeight

/-- The texts of a declaration have no character that JSON columns cannot hold. -/
def Mainchain.TextsFit (declaration : Option Mainchain.SidechainDeclaration) : Prop :=
  ∀ text ∈ Convert.declarationTexts declaration, '\x00' ∉ text.toList

/-- The record can hold what the answers say: the sidechains' heights and the texts, and a
window whose tips fit, are one when their hashes are, and lie in the clock's order. -/
structure Upstream.Recordable (upstream : Upstream) : Prop where
  heights : ∀ response, upstream.sidechains = .ok response →
    ∀ sidechain ∈ response, sidechain.HeightsFit
  activeTexts : ∀ response, upstream.sidechains = .ok response →
    ∀ sidechain ∈ response, Mainchain.TextsFit sidechain.declaration
  proposalTexts : ∀ response, upstream.sidechainProposals = .ok response →
    ∀ proposal ∈ response, Mainchain.TextsFit proposal.declaration
  time : upstream.startedAt ≤ upstream.finishedAt
  tips : ∀ before after, readTip upstream.tipBefore = .ok before →
    readTip upstream.tipAfter = .ok after →
      before.Fits ∧ after.Fits ∧ (before.hash = after.hash → before = after)

/-! ### What a collected reading is -/

theorem readTip_reported {answer : Result (Option Mainchain.BlockHeaderInfo)} {tip : ObservedBlock}
    (h : readTip answer = .ok tip) : tip.Reported := by
  obtain ⟨response, -, h⟩ := Result.bind_eq_ok.mp h
  obtain ⟨converted, hconverted, h⟩ := Result.bind_eq_ok.mp h
  obtain ⟨info, -, hconverted⟩ := Result.bind_eq_ok.mp hconverted
  obtain ⟨header, hheader, hconverted⟩ := Result.bind_eq_ok.mp hconverted
  obtain rfl := Result.pure_eq_ok.mp hconverted
  cases h
  exact ⟨(Convert.blockHeader_eq_ok hheader).1, header.height, rfl⟩

/-- The converted answers, with what they say of each slot. -/
def Upstream.answers (upstream : Upstream) (proposals : List SidechainProposal)
    (active : List ActiveSidechain) : Answers where
  proposals := proposals
  active := active
  ctip slot := match upstream.slotPayloads slot with
    | .ok [.ctip snapshot, _] => snapshot.ctip
    | _ => none
  bundles slot := match upstream.slotPayloads slot with
    | .ok [_, .withdrawalBundleProposals snapshot] => snapshot.proposals
    | _ => []

theorem slotPayloads_eq_ok {upstream : Upstream} {slot : ℕ} {payloads : List EnforcerEvent}
    (proposals : List SidechainProposal) (active : List ActiveSidechain)
    (h : upstream.slotPayloads slot = .ok payloads) :
    payloads = (upstream.answers proposals active).slotPayloads slot := by
  have hslot := h
  obtain ⟨ctipResponse, -, h⟩ := Result.bind_eq_ok.mp h
  obtain ⟨ctip, hctip, h⟩ := Result.bind_eq_ok.mp h
  obtain ⟨bundlesResponse, -, h⟩ := Result.bind_eq_ok.mp h
  obtain ⟨bundles, hbundles, h⟩ := Result.bind_eq_ok.mp h
  obtain rfl := Result.pure_eq_ok.mp h
  obtain ⟨value, -, hctip⟩ := Result.bind_eq_ok.mp hctip
  obtain rfl := Result.pure_eq_ok.mp hctip
  obtain ⟨items, -, hbundles⟩ := Result.bind_eq_ok.mp hbundles
  obtain rfl := Result.pure_eq_ok.mp hbundles
  simp [Answers.slotPayloads, Upstream.answers, hslot]

section
variable [Digests]

/-- What a collected reading is made of. -/
theorem collect_eq_ok {upstream : Upstream} {sidechains : List ℕ} {discover : Bool}
    {reading : Reading} (h : upstream.collect sidechains discover = .ok reading) :
    ∃ before after proposalsResponse proposals activeResponse active,
      readTip upstream.tipBefore = .ok before ∧ readTip upstream.tipAfter = .ok after ∧
      upstream.sidechainProposals = .ok proposalsResponse ∧
      Convert.sidechainProposals proposalsResponse = .ok proposals ∧
      upstream.sidechains = .ok activeResponse ∧
      Convert.activeSidechains activeResponse = .ok active ∧
      collectPayloads (upstream.answers proposals active) sidechains discover =
        .ok reading.payloads ∧
      reading.anchor = before ∧ reading.metadata = {
        revisionBefore := none
        revisionAfter := none
        startedAt := upstream.startedAt
        finishedAt := upstream.finishedAt
        tipBefore := before
        tipAfter := after
        consistency := if before.hash = after.hash then .tipMatched else .changed
        attempts := 1 } := by
  obtain ⟨before, hbefore, h⟩ := Result.bind_eq_ok.mp h
  obtain ⟨payloads, hpayloads, h⟩ := Result.bind_eq_ok.mp h
  obtain ⟨after, hafter, h⟩ := Result.bind_eq_ok.mp h
  obtain rfl := Result.pure_eq_ok.mp h
  obtain ⟨proposalsResponse, hproposalsResponse, hpayloads⟩ := Result.bind_eq_ok.mp hpayloads
  obtain ⟨proposals, hproposals, hpayloads⟩ := Result.bind_eq_ok.mp hpayloads
  obtain ⟨activeResponse, hactiveResponse, hpayloads⟩ := Result.bind_eq_ok.mp hpayloads
  obtain ⟨active, hactive, hpayloads⟩ := Result.bind_eq_ok.mp hpayloads
  obtain ⟨instances, hinstances, hpayloads⟩ := Result.bind_eq_ok.mp hpayloads
  obtain ⟨slots, hslots, hpayloads⟩ := Result.bind_eq_ok.mp hpayloads
  obtain rfl := Result.pure_eq_ok.mp hpayloads
  refine ⟨before, after, proposalsResponse, proposals, activeResponse, active, hbefore, hafter,
    hproposalsResponse, hproposals, hactiveResponse, hactive, ?_, rfl, rfl⟩
  have hflatten : ∀ (selected : List SidechainInstanceRef) (slots : List (List EnforcerEvent)),
      List.Forall₂ (fun inst payloads => upstream.slotPayloads inst.sidechain = .ok payloads)
        selected slots →
      slots.flatten = selected.flatMap fun inst =>
        (upstream.answers proposals active).slotPayloads inst.sidechain := by
    intro selected slots hforall
    induction hforall with
    | nil => rfl
    | cons hslot _ ih =>
      rw [List.flatten_cons, List.flatMap_cons, ih, slotPayloads_eq_ok proposals active hslot]
  refine Result.bind_eq_ok.mpr ⟨instances, hinstances, ?_⟩
  rw [Result.pure_eq_ok, hflatten _ _ (Backfill.mapM_eq_ok.mp hslots)]
  rfl

/-- The payloads of a reading are those of the mutable state. -/
theorem collectPayloads_keys {answers : Answers} {sidechains : List ℕ} {discover : Bool}
    {payloads : List EnforcerEvent} (h : collectPayloads answers sidechains discover = .ok payloads) :
    ∀ payload ∈ payloads, ∃ key, payloadKey payload = .ok key := by
  obtain ⟨active, -, h⟩ := Result.bind_eq_ok.mp h
  obtain rfl := Result.pure_eq_ok.mp h
  intro payload hmem
  rcases List.mem_cons.mp hmem with rfl | hmem
  · exact ⟨_, rfl⟩
  rcases List.mem_cons.mp hmem with rfl | hmem
  · exact ⟨_, rfl⟩
  obtain ⟨inst, -, hmem⟩ := List.mem_flatMap.mp hmem
  simp only [Answers.slotPayloads, List.mem_cons, List.not_mem_nil, or_false] at hmem
  rcases hmem with rfl | rfl
  · exact ⟨_, rfl⟩
  · exact ⟨_, rfl⟩

omit [Digests] in
/-- Payloads of the mutable state are not anchored. -/
theorem IsEnvelope.unanchored {anchor : ObservedBlock} {payload : EnforcerEvent} {event : Event}
    {key : PayloadKey} (h : IsEnvelope anchor payload event) (hkey : payloadKey payload = .ok key) :
    event.observedAtBlock = none := by
  obtain ⟨now, h⟩ := h
  rw [Backfill.envelope, Result.context_eq_ok] at h
  cases h
  cases payload <;> first | rfl | cases hkey

end

/-! ### What the task survives -/

/-- A worker that has its health row can be noted healthy. -/
theorem succeeds_recordWorkerSuccess {store : Store} {worker : ExtractorWorker} {db : Db}
    (h : db.workerInitialized store.runId worker) :
    Tx.Succeeds (recordWorkerSuccess store worker) db := by
  rw [recordWorkerSuccess, Tx.succeeds_bind_of_ok (Tx.read_eq_ok.mpr ⟨rfl, rfl⟩),
    Tx.succeeds_bind_of_ok (a := ⟨⟩) (Tx.require_eq_ok.mpr ⟨h, rfl⟩),
    Tx.succeeds_bind_of_ok (a := ⟨⟩) (Tx.modify_eq_ok.mpr rfl)]
  exact (Tx.succeeds_modify _).mpr trivial

/-- Its failure can be noted too. -/
theorem succeeds_recordWorkerFailure {store : Store} {worker : ExtractorWorker} (error : String)
    {db : Db} (h : db.workerInitialized store.runId worker) :
    Tx.Succeeds (recordWorkerFailure store worker error 1) db := by
  obtain ⟨w, hw, hrun, hworker⟩ := h
  have hfind : ∃ row, db.workerStatus.find?
      (fun w => w.runId = store.runId ∧ w.worker = worker) = some row := by
    rw [← Option.isSome_iff_exists, List.find?_isSome]
    exact ⟨w, hw, by simp [hrun, hworker]⟩
  obtain ⟨row, hrow⟩ := hfind
  have hthreshold : (narrow maxHeight 1).context
      "worker degradation threshold does not fit in an i32" = .ok 1 := by
    rw [Result.context_eq_ok, narrow_eq_ok]
    exact ⟨by decide, rfl⟩
  rw [recordWorkerFailure,
    Tx.succeeds_bind_of_ok (a := ⟨⟩) (Tx.require_eq_ok.mpr ⟨Nat.one_ne_zero, rfl⟩),
    Tx.succeeds_bind_of_ok (Tx.lift_eq_ok.mpr ⟨hthreshold, rfl⟩),
    Tx.succeeds_bind_of_ok (Tx.read_eq_ok.mpr ⟨rfl, rfl⟩),
    Tx.succeeds_bind_of_ok (Tx.expect_eq_ok.mpr ⟨hrow, rfl⟩),
    Tx.succeeds_bind_of_ok (a := ⟨⟩) (Tx.modify_eq_ok.mpr rfl),
    Tx.succeeds_bind_of_ok (a := ⟨⟩) (Tx.modify_eq_ok.mpr rfl),
    recomputeExtractorError, Tx.succeeds_bind_of_ok (a := ⟨⟩) (Tx.modify_eq_ok.mpr rfl)]
  exact (Tx.succeeds_pure _).mpr trivial

section
variable [Digests]

/-- The accepted sidechains' heights are those of the answer. -/
theorem heightsFit_iff {response : List Mainchain.SidechainInfo} {active : List ActiveSidechain}
    (h : Convert.activeSidechains response = .ok active) :
    (∀ sidechain ∈ response, sidechain.HeightsFit) ↔ ∀ sidechain ∈ active, sidechain.HeightsFit := by
  apply PairedLists.forall_mem_iff (Convert.convertEach_eq_ok.mp h)
  intro info sidechain hinfo
  obtain ⟨hproposal, hactivation, -⟩ := Convert.activeSidechain_eq_ok hinfo
  simp [Mainchain.SidechainInfo.HeightsFit, ActiveSidechain.HeightsFit, hproposal, hactivation]

/-- So are the texts. -/
theorem activeTexts_iff {response : List Mainchain.SidechainInfo} {active : List ActiveSidechain}
    (h : Convert.activeSidechains response = .ok active) :
    (∀ sidechain ∈ response, Mainchain.TextsFit sidechain.declaration) ↔
      ∀ text ∈ MonitorEvent.texts (.enforcer (some (.activeSidechains active))),
        '\x00' ∉ text.toList := by
  have hiff := PairedLists.forall_mem_iff (P := fun info => Mainchain.TextsFit info.declaration)
    (Q := fun sidechain => ∀ text ∈ sidechain.declaration.toList.flatMap SidechainDeclaration.texts,
      '\x00' ∉ text.toList) (Convert.convertEach_eq_ok.mp h) fun info sidechain hinfo => by
    rw [(Convert.activeSidechain_eq_ok hinfo).2.2]
    exact Iff.rfl
  rw [hiff]
  simp only [MonitorEvent.texts, List.mem_flatMap, List.mem_filterMap, Option.mem_toList]
  constructor
  · rintro hall text ⟨declaration, ⟨sidechain, hmem, hdeclaration⟩, htext⟩
    exact hall sidechain hmem text ⟨declaration, hdeclaration, htext⟩
  · rintro hall sidechain hmem text ⟨declaration, hdeclaration, htext⟩
    exact hall text ⟨declaration, ⟨sidechain, hmem, hdeclaration⟩, htext⟩

theorem proposalTexts_iff {response : List Mainchain.SidechainProposal}
    {proposals : List SidechainProposal}
    (h : Convert.sidechainProposals response = .ok proposals) :
    (∀ proposal ∈ response, Mainchain.TextsFit proposal.declaration) ↔
      ∀ text ∈ MonitorEvent.texts (.enforcer (some (.sidechainProposals proposals))),
        '\x00' ∉ text.toList := by
  have hiff := PairedLists.forall_mem_iff (P := fun proposal => Mainchain.TextsFit proposal.declaration)
    (Q := fun proposal => ∀ text ∈ proposal.declaration.toList.flatMap SidechainDeclaration.texts,
      '\x00' ∉ text.toList) (Convert.convertEach_eq_ok.mp h) fun info proposal hinfo => by
    rw [Convert.sidechainProposal_texts hinfo]
    exact Iff.rfl
  rw [hiff]
  simp only [MonitorEvent.texts, List.mem_flatMap, List.mem_filterMap, Option.mem_toList]
  constructor
  · rintro hall text ⟨declaration, ⟨proposal, hmem, hdeclaration⟩, htext⟩
    exact hall proposal hmem text ⟨declaration, hdeclaration, htext⟩
  · rintro hall proposal hmem text ⟨declaration, hdeclaration, htext⟩
    exact hall text ⟨declaration, ⟨proposal, hmem, hdeclaration⟩, htext⟩

/-- **When a collected reading is published**, while the slots it has payloads of have
current instances: when the record can hold what the answers say. -/
theorem publishReading_ok {store : Store} {db : Db} (hledger : db.Ledger)
    (hrun : db.isRunning store.runId) (clock : ℕ)
    {upstream : Upstream} {sidechains : List ℕ} {discover : Bool} {reading : Reading}
    (hcollect : upstream.collect sidechains discover = .ok reading) {attempt : ℕ}
    (hattempt : 1 ≤ attempt ∧ attempt ≤ snapshotMaxAttempts)
    (hslots : ∀ p ∈ reading.payloads, ∀ slot ∈ p.sidechainNumber,
      ∃ id, db.currentInstance store.datasetId slot = some id) :
    (∃ n, (publishReading store clock
      { reading with metadata := { reading.metadata with attempts := attempt } } db).1 = .ok n) ↔
      upstream.Recordable := by
  obtain ⟨before, after, proposalsResponse, proposals, activeResponse, active, hbefore, hafter,
    hproposalsResponse, hproposals, hactiveResponse, hactive, hpayloads, hanchor, hmetadata⟩ :=
    collect_eq_ok hcollect
  have hkeys := collectPayloads_keys hpayloads
  -- the envelopes
  have henvelopes : ∃ events, (reading.payloads.mapM fun payload =>
      Backfill.envelope (some payload) reading.anchor (.ok clock)) = .ok events := by
    have hok : ∀ payloads : List EnforcerEvent, ∃ events, payloads.mapM (fun payload =>
        Backfill.envelope (some payload) reading.anchor (.ok clock)) = .ok events := by
      intro payloads
      induction payloads with
      | nil => exact ⟨[], rfl⟩
      | cons payload rest ih =>
        obtain ⟨events, hevents⟩ := ih
        have hpayload : ∃ event, Backfill.envelope (some payload) reading.anchor (.ok clock) =
            .ok event := ⟨_, rfl⟩
        obtain ⟨event, hevent⟩ := hpayload
        refine ⟨event :: events, ?_⟩
        rw [List.mapM_cons]
        exact Result.bind_eq_ok.mpr ⟨event, hevent, Result.bind_eq_ok.mpr ⟨events, hevents, rfl⟩⟩
    exact hok _
  obtain ⟨events, hevents⟩ := henvelopes
  have hforall : List.Forall₂ (IsEnvelope reading.anchor) (startupConstants none ++ reading.payloads)
      events := (Backfill.mapM_eq_ok.mp hevents).imp fun _ _ h => ⟨clock, h⟩
  have hcollected : SnapshotMetadata.Collected { reading.metadata with attempts := attempt } := by
    rw [hmetadata]
    refine ⟨readTip_reported hbefore, readTip_reported hafter, rfl, rfl, hattempt, ?_⟩
    by_cases hhash : before.hash = after.hash
    · simp [hhash]
    · simp [hhash]
  have hsucceeds : (∃ n, (publishReading store clock
      { reading with metadata := { reading.metadata with attempts := attempt } } db).1 = .ok n) ↔
      Tx.Succeeds (recordSnapshot store events .poll
        { reading.metadata with attempts := attempt }) db := by
    simp only [publishReading, hevents]
    rcases Tx.commit_snd_cases (recordSnapshot store events .poll
      { reading.metadata with attempts := attempt }) db with ⟨n, t, hok, hcommit⟩ | ⟨e, he, hcommit⟩
    · rw [hcommit]
      exact iff_of_true ⟨n, rfl⟩ ⟨n, t, hok⟩
    · rw [hcommit]
      refine iff_of_false (by simp) ?_
      rintro ⟨n, t, hok⟩
      rw [he] at hok
      cases hok
  have hanchorReported : reading.anchor.Reported := hanchor ▸ readTip_reported hbefore
  rw [hsucceeds, recordSnapshot_reading hledger hcollected hpayloads hanchorReported hforall,
    and_iff_right hrun]
  -- what the events of the reading need is what the answers say
  have htexts : (∀ event ∈ events, event.anchorFits ∧ event.textsOk) ↔
      (∀ proposal ∈ proposalsResponse, Mainchain.TextsFit proposal.declaration) ∧
        ∀ sidechain ∈ activeResponse, Mainchain.TextsFit sidechain.declaration := by
    have hpayload := PairedLists.forall_mem_iff (P := fun payload : EnforcerEvent =>
        ∀ text ∈ MonitorEvent.texts (.enforcer (some payload)), '\x00' ∉ text.toList)
      (Q := fun event => event.anchorFits ∧ event.textsOk)
      ((List.forall₂_and_left _ _).mpr ⟨hkeys, hforall⟩) fun payload event hevent => by
        obtain ⟨⟨key, hkey⟩, henvelope⟩ := hevent
        have hunanchored := henvelope.unanchored hkey
        obtain ⟨now, block, rfl, -⟩ := henvelope.eq
        obtain rfl : block = none := hunanchored
        simp [Event.anchorFits, Event.textsOk]
    rw [← hpayload, proposalTexts_iff hproposals, activeTexts_iff hactive]
    obtain ⟨instances, -, hpayloads⟩ := Result.bind_eq_ok.mp hpayloads
    rw [← Result.pure_eq_ok.mp hpayloads]
    simp only [List.forall_mem_cons]
    refine and_congr_right' (and_iff_left ?_)
    intro payload hmem
    obtain ⟨inst, -, hmem⟩ := List.mem_flatMap.mp hmem
    simp only [Answers.slotPayloads, List.mem_cons, List.not_mem_nil, or_false] at hmem
    rcases hmem with rfl | rfl
    · simp [MonitorEvent.texts]
    · simp [MonitorEvent.texts]
  have hheights : (∀ sidechain ∈ (upstream.answers proposals active).active, sidechain.HeightsFit) ↔
      ∀ sidechain ∈ activeResponse, sidechain.HeightsFit := (heightsFit_iff hactive).symm
  rw [htexts, hheights]
  constructor
  · rintro ⟨hconsistent, ⟨hproposalTexts, hactiveTexts⟩, hheights, -⟩
    rw [hmetadata] at hconsistent
    constructor
    · intro response hresponse
      cases hresponse.symm.trans hactiveResponse
      exact hheights
    · intro response hresponse
      cases hresponse.symm.trans hactiveResponse
      exact hactiveTexts
    · intro response hresponse
      cases hresponse.symm.trans hproposalsResponse
      exact hproposalTexts
    · exact hconsistent.time
    · intro before' after' hbefore' hafter'
      cases hbefore'.symm.trans hbefore
      cases hafter'.symm.trans hafter
      refine ⟨hconsistent.before_fits, hconsistent.after_fits, fun hhash => ?_⟩
      apply hconsistent.matched
      simp [hhash]
  · intro h
    obtain ⟨hbeforeFits, hafterFits, hsame⟩ := h.tips before after hbefore hafter
    refine ⟨?_, ⟨h.proposalTexts _ hproposalsResponse, h.activeTexts _ hactiveResponse⟩,
      h.heights _ hactiveResponse, .inr hslots⟩
    rw [hmetadata]
    refine ⟨h.time, fun hmatched => hsame ?_, hbeforeFits, hafterFits⟩
    by_contra hhash
    simp [hhash] at hmatched

/-- **What the refresh task survives.** While its run is running and the slots involved have
current instances, an attempt ends the extractor exactly when the converters accept answers
that the record cannot hold. -/
theorem refresh_survives {startOf : ScopeKey → ℕ} {commands : List Command} {r : Record}
    (hreach : Runs.run (Record.step startOf) Record.empty commands = some r) {store : Store}
    (hrun : r.db.isRunning store.runId) (hworker : r.db.workerInitialized store.runId .enforcerState)
    (clock : ℕ)
    {sidechains : List ℕ} {discover : Bool} (block : Bytes) {attempt : ℕ}
    (hattempt : 1 ≤ attempt ∧ attempt ≤ snapshotMaxAttempts) {upstream : Upstream}
    (hslots : ∀ reading, upstream.collect sidechains discover = .ok reading →
      ∀ p ∈ reading.payloads, ∀ slot ∈ p.sidechainNumber,
        ∃ id, r.db.currentInstance store.datasetId slot = some id) (tracker : Tracker) :
    (refresh store clock sidechains discover block attempt upstream tracker r.db).1.Survives ↔
      (∃ e, upstream.collect sidechains discover = .error e) ∨ upstream.Recordable := by
  have hledger : r.db.Ledger := Record.reachable_ledger hreach
  cases hcollect : upstream.collect sidechains discover with
  | error e =>
    -- the failure is noted, and the task goes on
    obtain ⟨n, t, hok⟩ := succeeds_recordWorkerFailure
      (e.context ("refreshing enforcer state at block " ++ hexEncode block)).message hworker
    have hcommit := Tx.commit_eq_ok.mpr hok
    simp [refresh, hcollect, hcommit, Pass.Survives]
  | ok reading =>
    obtain ⟨_, t, hok⟩ := succeeds_recordWorkerSuccess hworker
    have hbooks := (onlyHealth_recordWorkerSuccess store .enforcerState hok).sameEvidence.sameBooks
    have hcommit := Tx.commit_eq_ok.mpr hok
    obtain ⟨_, _, _, _, _, _, -, -, -, -, -, -, hpayloads, -⟩ := collect_eq_ok hcollect
    obtain ⟨taken, htaken⟩ := tracker.takeObservation_ok reading.metadata.consistency
      (collectPayloads_keys hpayloads)
    have hopen : t.isRunning store.runId := by
      rw [Db.isRunning, hbooks.runs]
      exact hrun
    have hpublish := publishReading_ok (hbooks.ledger hledger) hopen clock hcollect
      hattempt fun p hp slot hslot => by
        rw [hbooks.currentInstance]
        exact hslots reading hcollect p hp slot hslot
    rw [← hpublish]
    simp only [refresh, hcollect, hcommit, htaken]
    cases hresult : publishReading store clock
      { reading with metadata := { reading.metadata with attempts := attempt } } t with
    | mk result db =>
      cases result with
      | ok n => simp [Pass.Survives]
      | error e => simp [Pass.Survives]

end

/-! ### A title the record cannot hold -/

namespace Title

/-- A proposal for slot 9 whose declaration has this title. -/
def proposal (title : String) : Mainchain.SidechainProposal where
  sidechainNumber := some 9
  description := some ⟨some "020102"⟩
  declaration := some ⟨some ⟨some title, some "", some ⟨some ""⟩, some ⟨some ""⟩⟩⟩
  descriptionSha256dHash :=
    some ⟨some "db9b643a0e5bacf2a21cb7b532d65caae8b278c3c284cd3d51d215d9ce6aa576"⟩
  voteCount := some 0
  proposalHeight := some 3
  proposalAge := some 1

/-- The tip at height 5. -/
def tip : Mainchain.BlockHeaderInfo where
  blockHash := some ⟨some "0000000000000000000000000000000000000000000000000000000000000001"⟩
  prevBlockHash := some ⟨some "0000000000000000000000000000000000000000000000000000000000000000"⟩
  height := 5
  work := some ⟨some "0100000000000000000000000000000000000000000000000000000000000000"⟩
  timestamp := 0

/-- No sidechain is active, and one is proposed. -/
def upstream (title : String) : Upstream where
  startedAt := 0
  tipBefore := .ok (some tip)
  sidechainProposals := .ok [proposal title]
  sidechains := .ok []
  ctip _ := .ok none
  withdrawalBundleProposals _ := .ok []
  tipAfter := .ok (some tip)
  finishedAt := 0

/-- The payload of the proposals. -/
def payload (title : String) : MonitorEvent :=
  .enforcer (some (.sidechainProposals [⟨9, [2, 1, 2], slotNine.descriptionHash, 0, 3, 1,
    some ⟨some ⟨title, "", [], []⟩⟩⟩]))

/-- The digests of the payloads. -/
@[reducible] def digests : Digests := .ofPayloads [
  (payload "nine",
    0xe3fa1ef04ae926742f19aa4ef2e6db421177931930fdd0b967e8c2edc9d380d9),
  (payload "\x00",
    0xb2f61b07873d54b5c2fd4b38722a045d9fe67f2de3775d3d04178fc680d96729),
  (.enforcer (some (.activeSidechains [])),
    0x37aa3970b6801c9d286464f7d86e50bf41c88e54c7b4d08f3ff61935b3f59c3c)]

def store : Store := ⟨.enforcer, 0, 0, 9⟩

def commands : List Command :=
  [.initializeIdentity .enforcer 0 0 9, .initializeWorkerStatuses store [.enforcerState]]

end Title

/-- A proposal with a title is recorded. -/
theorem refresh_survives_title :
    ∃ r, Runs.run (@Record.step Title.digests fun _ => 5) Record.empty Title.commands = some r ∧
      (@refresh Title.digests Title.store 0 [9] false [] 1 (Title.upstream "nine") (Tracker.new [])
        r.db).1.Survives := by
  let _ := Title.digests
  have hruns : ((Runs.run (Record.step fun _ => 5) Record.empty Title.commands).filter fun r =>
      r.db.isRunning Title.store.runId ∧
        r.db.workerInitialized Title.store.runId .enforcerState).isSome := by
    decide +kernel
  obtain ⟨r, hr⟩ := Option.isSome_iff_exists.mp hruns
  obtain ⟨hr, hstate⟩ := Option.filter_eq_some_iff.mp hr
  obtain ⟨hrun, hworker⟩ := of_decide_eq_true hstate
  have hcollect : (Title.upstream "nine").collect [9] false = .ok ⟨.atHeight (bytes32 1) 5,
      [.sidechainProposals [⟨9, [2, 1, 2], slotNine.descriptionHash, 0, 3, 1,
        some ⟨some ⟨"nine", "", [], []⟩⟩⟩], .activeSidechains []],
      tipMatchedAt (.atHeight (bytes32 1) 5)⟩ := by
    decide +kernel
  have htip : readTip (.ok (some Title.tip)) = .ok (.atHeight (bytes32 1) 5) := by decide +kernel
  refine ⟨r, hr, (refresh_survives hr hrun hworker 0 [] (by decide) ?_ _).mpr (.inr ?_)⟩
  · intro reading hreading payload hpayload slot hslot
    cases hreading.symm.trans hcollect
    simp only [List.mem_cons, List.not_mem_nil, or_false] at hpayload
    rcases hpayload with rfl | rfl
    · cases hslot
    · cases hslot
  · constructor
    · intro response hresponse
      cases hresponse
      simp
    · intro response hresponse
      cases hresponse
      simp
    · intro response hresponse
      cases hresponse
      intro proposal hproposal
      obtain rfl := List.mem_singleton.mp hproposal
      simp [Mainchain.TextsFit, Convert.declarationTexts, Title.proposal]
    · exact le_rfl
    · intro before after hbefore hafter
      cases hbefore.symm.trans htip
      cases hafter.symm.trans htip
      refine ⟨?_, ?_, fun _ => rfl⟩
      · intro height hheight
        cases hheight
        decide
      · intro height hheight
        cases hheight
        decide

/-- **The title ends the extractor.** The converters accept a title that is the character
U+0000, and the record cannot hold it. -/
theorem title_ends_extractor :
    ∃ r, Runs.run (@Record.step Title.digests fun _ => 5) Record.empty Title.commands = some r ∧
      ¬ (@refresh Title.digests Title.store 0 [9] false [] 1 (Title.upstream "\x00")
        (Tracker.new []) r.db).1.Survives := by
  let _ := Title.digests
  have hruns : ((Runs.run (Record.step fun _ => 5) Record.empty Title.commands).filter fun r =>
      match (refresh Title.store 0 [9] false [] 1 (Title.upstream "\x00") (Tracker.new [])
        r.db).1 with
      | .ended _ => true
      | _ => false).isSome := by
    decide +kernel
  obtain ⟨r, hr⟩ := Option.isSome_iff_exists.mp hruns
  obtain ⟨hr, hended⟩ := Option.filter_eq_some_iff.mp hr
  refine ⟨r, hr, fun hsurvives => ?_⟩
  unfold Pass.Survives at hsurvives
  split at hsurvives
  case h_1 => exact hsurvives
  case h_2 hne =>
    split at hended
    · exact hne _ ‹_›
    · cases hended

end Bip300Monitor
