import Bip300Monitor.Runtime.Refresh

/-!
# Labels of a reading

Three collectors label what they read as taken at one tip: the attempts at startup
(`collect_initial_snapshot_attempts`), the refresh of the state (`state::collect`) and the sample of
the auction (`collect_bmm_sample`). Each decides from the tips it read, `record_snapshot` decides
again from the two that were recorded.

A collector compares the hashes of the tips, and the record the blocks, with their heights.

## What is proved

* `recordSnapshot_of_invalid` — what the record rejects ends in an error, whatever its state;
* `validateSnapshot_matched` — exactly when the record accepts the label of matched tips;
* `tipMatched_validates` — so exactly when what a collector labels is accepted;
* `tipMatched_rejected` — two answers that differ in the height only are labelled, and rejected.
-/

namespace Bip300Monitor

open Protobuf Transaction

/-! ### The check of the record -/

/-- What `record_snapshot` checks before it opens its transaction. -/
def validateSnapshot (store : Store) (metadata : SnapshotMetadata) : Result Unit := do
  checkSnapshot store metadata
  let before ← requiredHeight metadata.tipBefore "snapshot tip before"
  let _ ← heightToI32 before
  let after ← requiredHeight metadata.tipAfter "snapshot tip after"
  let _ ← heightToI32 after
  let attempts ← (narrow maxHeight metadata.attempts).context "snapshot attempts overflow"
  if attempts = 0 then .error (.bail "snapshot attempts must be positive") else .ok ()

/-- The heights of the two answers, where they are tips, are one height that the record can hold. -/
def OneHeight (before after : Result (Option Mainchain.BlockHeaderInfo)) : Prop :=
  ∀ tip tip', readTip before = .ok tip → readTip after = .ok tip' →
    tip.height = tip'.height ∧ tip.Fits

/-! ### The attempts at startup -/

/-- The enforcer's answers to one attempt at startup: the tips around the snapshot are those of the
state that is read, the snapshot reads a tip of its own. -/
structure StartupAnswers extends Upstream where
  chainTip : Result (Option Mainchain.BlockHeaderInfo)
  chainInfo : Result Mainchain.GetChainInfoResponse

/-- Events collected from a set of unary RPCs and the tip they describe. -/
structure InitialSnapshot where
  constants : List EnforcerEvent
  state : List EnforcerEvent
  anchor : ObservedBlock
  deriving DecidableEq, Repr

/-- `snapshot_tips_are_consistent`. -/
def snapshotTipsAreConsistent (tipBefore snapshotTip tipAfter : Bytes) : Prop :=
  tipBefore = snapshotTip ∧ snapshotTip = tipAfter

instance (tipBefore snapshotTip tipAfter : Bytes) :
    Decidable (snapshotTipsAreConsistent tipBefore snapshotTip tipAfter) :=
  inferInstanceAs (Decidable (_ ∧ _))

section
variable [Digests]

/-- `collect_snapshot`. -/
def collectSnapshot (answers : StartupAnswers) (sidechains : List ℕ) : Result InitialSnapshot := do
  let response ← answers.chainTip
  let chainTip ← Convert.chainTip response
  let anchor ← tipAnchor chainTip
  let response ← answers.chainInfo
  let chainInfo ← Convert.chainInfo response
  let state ← answers.toUpstream.collectPayloads sidechains false
  pure ⟨[.chainInfo chainInfo, .chainTip chainTip], state, anchor⟩

/-- The attempts that remain, the first of them with its number. -/
def initialSnapshotAttempts (answers : ℕ → StartupAnswers) (sidechains : List ℕ) (startedAt : ℕ) :
    ℕ → ℕ → Result (InitialSnapshot × SnapshotMetadata)
  | 0, _ => .error (.bail "the bounded snapshot loop always returns")
  | remaining + 1, attempts => do
    let tipBefore ← (readTip (answers attempts).tipBefore).context
      "reading the mainchain tip before collecting the snapshot"
    let snapshot ← (collectSnapshot (answers attempts) sidechains).context
      "collecting the initial enforcer snapshot"
    let tipAfter ← (readTip (answers attempts).tipAfter).context
      "reading the mainchain tip after collecting the snapshot"
    let consistency := if snapshotTipsAreConsistent tipBefore.hash snapshot.anchor.hash tipAfter.hash
      then SnapshotConsistency.tipMatched else .changed
    if consistency = .tipMatched ∨ attempts = snapshotMaxAttempts then
      pure (snapshot, {
        revisionBefore := none
        revisionAfter := none
        startedAt := startedAt
        finishedAt := (answers attempts).finishedAt
        tipBefore := tipBefore
        tipAfter := tipAfter
        consistency := consistency
        attempts := attempts })
    else initialSnapshotAttempts answers sidechains startedAt remaining (attempts + 1)

/-- `collect_initial_snapshot_attempts`. -/
def collectInitialSnapshotAttempts (answers : ℕ → StartupAnswers) (sidechains : List ℕ)
    (startedAt : ℕ) : Result (InitialSnapshot × SnapshotMetadata) :=
  initialSnapshotAttempts answers sidechains startedAt snapshotMaxAttempts 1

end

/-! ### A sample of the auction -/

/-- The enforcer's answers to one attempt at a sample. -/
structure BmmAnswers where
  tipBefore : Result (Option Mainchain.BlockHeaderInfo)
  /-- The requests on top of a block. -/
  bmmRequests : Bytes → Result (List Mainchain.BmmRequest)
  tipAfter : Result (Option Mainchain.BlockHeaderInfo)
  finishedAt : ℕ

/-- `revision`: the official enforcer claims none. -/
def revision : Result (Option String) := .ok none

/-- The attempts that remain, the first of them with its number. -/
def bmmSampleAttempts (answers : ℕ → BmmAnswers) (startedAt : ℕ) :
    ℕ → ℕ → Result (BmmRequestsSnapshot × SnapshotMetadata)
  | 0, _ => .error (.bail "mainchain tip changed during every BMM snapshot attempt")
  | remaining + 1, attempts => do
    let revisionBefore ← revision
    let tipBefore ← (readTip (answers attempts).tipBefore).context
      "reading the mainchain tip before sampling BMM requests"
    let response ← ((answers attempts).bmmRequests tipBefore.hash).context
      "sampling live BMM requests"
    let tipAfter ← (readTip (answers attempts).tipAfter).context
      "reading the mainchain tip after sampling BMM requests"
    let revisionAfter ← revision
    if tipBefore.hash = tipAfter.hash ∧ revisionBefore = revisionAfter then do
      let payload ← (Convert.bmmRequests tipBefore.hash response).context
        "converting live BMM requests"
      pure (payload, {
        revisionBefore := revisionBefore
        revisionAfter := revisionAfter
        startedAt := startedAt
        finishedAt := (answers attempts).finishedAt
        tipBefore := tipBefore
        tipAfter := tipAfter
        consistency := .tipMatched
        attempts := attempts })
    else bmmSampleAttempts answers startedAt remaining (attempts + 1)

/-- `collect_bmm_sample`, with the attempts that its worker asks for. -/
def collectBmmSample (answers : ℕ → BmmAnswers) (startedAt : ℕ) :
    Result (BmmRequestsSnapshot × SnapshotMetadata) :=
  bmmSampleAttempts answers startedAt snapshotMaxAttempts 1

/-! ### What the record accepts -/

section
variable [Digests]

/-- Metadata that is rejected is never recorded. -/
theorem recordSnapshot_of_invalid {store : Store} {events : List Event} (method : CaptureMethod)
    {metadata : SnapshotMetadata} (hne : events ≠ [])
    (h : ∀ u, validateSnapshot store metadata ≠ .ok u) (db : Db) :
    ¬ Tx.Succeeds (recordSnapshot store events method metadata) db := by
  rintro ⟨n, t, hok⟩
  rw [recordSnapshot, if_neg hne] at hok
  simp only [Tx.lift_bind_eq_ok, Tx.require_bind_eq_ok] at hok
  obtain ⟨⟨⟩, hcheck, before, hbefore, before', hbefore', after, hafter, after', hafter', attempts,
    hattempts, hpos, -⟩ := hok
  refine h () ?_
  simp only [validateSnapshot, Result.bind_eq_ok]
  exact ⟨(), hcheck, before, hbefore, before', hbefore', after, hafter, after', hafter', attempts,
    hattempts, if_neg hpos⟩

end

/-- **When matched tips are accepted.** -/
theorem validateSnapshot_matched (store : Store) {metadata : SnapshotMetadata}
    (h : metadata.Collected) (hlabel : metadata.consistency = .tipMatched)
    (hhash : metadata.tipBefore.hash = metadata.tipAfter.hash) :
    validateSnapshot store metadata = .ok () ↔
      metadata.tipBefore.height = metadata.tipAfter.height ∧ metadata.tipBefore.Fits := by
  obtain ⟨before, hbefore⟩ := h.tipBefore.height
  obtain ⟨after, hafter⟩ := h.tipAfter.height
  have hattempts : (narrow maxHeight metadata.attempts).context "snapshot attempts overflow" =
      .ok metadata.attempts := by
    rw [Result.context_eq_ok, narrow_eq_ok]
    exact ⟨h.attempts.2.trans (by decide), rfl⟩
  have hpos : metadata.attempts ≠ 0 := by
    have := h.attempts.1
    omega
  have htips : metadata.tipBefore = metadata.tipAfter ↔
      metadata.tipBefore.height = metadata.tipAfter.height := by
    constructor
    · intro heq
      rw [heq]
    · intro hheight
      calc metadata.tipBefore = ⟨metadata.tipBefore.hash, metadata.tipBefore.height⟩ := rfl
        _ = ⟨metadata.tipAfter.hash, metadata.tipAfter.height⟩ := by rw [hhash, hheight]
        _ = metadata.tipAfter := rfl
  have hchecks : validateSnapshot store metadata = .ok () ↔
      metadata.tipBefore = metadata.tipAfter ∧ before ≤ maxHeight ∧ after ≤ maxHeight := by
    simp only [validateSnapshot, Result.bind_eq_ok, requiredHeight_eq_ok, hattempts,
      heightToI32_eq_ok, hbefore, hafter]
    constructor
    · rintro ⟨⟨⟩, hcheck, _, ⟨⟩, _, ⟨hle, -⟩, _, ⟨⟩, _, ⟨hle', -⟩, -⟩
      exact ⟨(checkSnapshot_eq_ok store h).mp hcheck hlabel, hle, hle'⟩
    · rintro ⟨heq, hle, hle'⟩
      exact ⟨(), (checkSnapshot_eq_ok store h).mpr fun _ => heq, before, rfl, before, ⟨hle, rfl⟩,
        after, rfl, after, ⟨hle', rfl⟩, metadata.attempts, rfl, if_neg hpos⟩
  rw [hchecks, htips]
  constructor
  · rintro ⟨heq, hle, -⟩
    refine ⟨heq, fun height hheight => ?_⟩
    obtain rfl := Option.some.inj (hbefore.symm.trans hheight)
    exact hle
  · rintro ⟨heq, hfits⟩
    exact ⟨heq, hfits before hbefore, hfits after (heq.trans hafter)⟩

/-- The same of the answers that the tips were read from. -/
theorem validateSnapshot_answers (store : Store) {metadata : SnapshotMetadata}
    {before after : Result (Option Mainchain.BlockHeaderInfo)}
    (hbefore : readTip before = .ok metadata.tipBefore)
    (hafter : readTip after = .ok metadata.tipAfter) (h : metadata.Collected)
    (hlabel : metadata.consistency = .tipMatched)
    (hhash : metadata.tipBefore.hash = metadata.tipAfter.hash) :
    validateSnapshot store metadata = .ok () ↔ OneHeight before after := by
  rw [validateSnapshot_matched store h hlabel hhash]
  constructor
  · intro hok tip tip' htip htip'
    obtain rfl := Except.ok.inj (hbefore.symm.trans htip)
    obtain rfl := Except.ok.inj (hafter.symm.trans htip')
    exact hok
  · intro hone
    exact hone _ _ hbefore hafter

/-! ### What the collectors label -/

/-- The two tips that an attempt of a sample reads have one hash. -/
def BmmAnswers.Match (answers : BmmAnswers) : Prop :=
  ∃ before after, readTip answers.tipBefore = .ok before ∧ readTip answers.tipAfter = .ok after ∧
    before.hash = after.hash

/-- The three tips that an attempt at startup reads have one hash. -/
def StartupAnswers.Match (answers : StartupAnswers) : Prop :=
  ∃ before anchor after, readTip answers.tipBefore = .ok before ∧
    readTip answers.chainTip = .ok anchor ∧ readTip answers.tipAfter = .ok after ∧
    snapshotTipsAreConsistent before.hash anchor.hash after.hash

/-- The first of the attempts that holds. -/
def FirstAttempt (holds : ℕ → Prop) (n : ℕ) : Prop :=
  1 ≤ n ∧ n ≤ snapshotMaxAttempts ∧ holds n ∧ ∀ m, 1 ≤ m → m < n → ¬ holds m

/-- Metadata that a collector labels by its two tips. -/
structure LabelledAt (before after : Result (Option Mainchain.BlockHeaderInfo))
    (metadata : SnapshotMetadata) : Prop where
  before : readTip before = .ok metadata.tipBefore
  after : readTip after = .ok metadata.tipAfter
  collected : metadata.Collected
  label : metadata.consistency = .tipMatched
  hash : metadata.tipBefore.hash = metadata.tipAfter.hash

theorem LabelledAt.validates {before after : Result (Option Mainchain.BlockHeaderInfo)}
    {metadata : SnapshotMetadata} (h : LabelledAt before after metadata) (store : Store) :
    validateSnapshot store metadata = .ok () ↔ OneHeight before after :=
  validateSnapshot_answers store h.before h.after h.collected h.label h.hash

/-- A sample that is taken is labelled by the first attempt whose tips match. -/
theorem bmmSampleAttempts_labelled {answers : ℕ → BmmAnswers} {startedAt : ℕ}
    {payload : BmmRequestsSnapshot} {metadata : SnapshotMetadata} {remaining attempts : ℕ}
    (hfirst : 1 ≤ attempts) (hremaining : remaining + attempts = snapshotMaxAttempts + 1)
    (hbefore : ∀ m, 1 ≤ m → m < attempts → ¬ (answers m).Match)
    (h : bmmSampleAttempts answers startedAt remaining attempts = .ok (payload, metadata)) :
    ∃ n, FirstAttempt (fun n => (answers n).Match) n ∧
      LabelledAt (answers n).tipBefore (answers n).tipAfter metadata := by
  induction remaining generalizing attempts with
  | zero => cases h
  | succ remaining ih =>
    have hle : attempts ≤ 3 := by
      rw [snapshotMaxAttempts] at hremaining
      omega
    simp only [bmmSampleAttempts, Result.bind_eq_ok, Result.context_eq_ok] at h
    obtain ⟨_, ⟨⟩, tipBefore, htipBefore, response, -, tipAfter, htipAfter, _, ⟨⟩, h⟩ := h
    split_ifs at h with hmatch
    · simp only [Result.bind_eq_ok, Result.pure_eq_ok, Prod.mk.injEq] at h
      obtain ⟨_, -, -, rfl⟩ := h
      refine ⟨attempts, ⟨hfirst, by omega, ⟨tipBefore, tipAfter, htipBefore, htipAfter, hmatch.1⟩,
        hbefore⟩, htipBefore, htipAfter, ?_, rfl, hmatch.1⟩
      exact ⟨readTip_reported htipBefore, readTip_reported htipAfter, rfl, rfl,
        ⟨hfirst, hle⟩, .inl rfl⟩
    · refine ih (by omega) (by omega) (fun m hm hlt => ?_) h
      rcases Nat.lt_succ_iff_lt_or_eq.mp hlt with hlt | rfl
      · exact hbefore m hm hlt
      · rintro ⟨before, after, hb, ha, hhash⟩
        obtain rfl := Except.ok.inj (htipBefore.symm.trans hb)
        obtain rfl := Except.ok.inj (htipAfter.symm.trans ha)
        exact hmatch ⟨hhash, rfl⟩

section
variable [Digests]

/-- The anchor of a snapshot is the tip that it read. -/
theorem collectSnapshot_anchor {answers : StartupAnswers} {sidechains : List ℕ}
    {snapshot : InitialSnapshot} (h : collectSnapshot answers sidechains = .ok snapshot) :
    readTip answers.chainTip = .ok snapshot.anchor := by
  simp only [collectSnapshot, Result.bind_eq_ok, Result.pure_eq_ok] at h
  obtain ⟨response, hresponse, chainTip, hchainTip, anchor, hanchor, _, -, _, -, _, -, rfl⟩ := h
  simp only [readTip, Result.bind_eq_ok]
  exact ⟨response, hresponse, chainTip, hchainTip, hanchor⟩

/-- A snapshot at startup that is labelled is so by the first attempt whose tips match. -/
theorem initialSnapshotAttempts_labelled {answers : ℕ → StartupAnswers} {sidechains : List ℕ}
    {startedAt : ℕ} {snapshot : InitialSnapshot} {metadata : SnapshotMetadata}
    {remaining attempts : ℕ} (hfirst : 1 ≤ attempts)
    (hremaining : remaining + attempts = snapshotMaxAttempts + 1)
    (hbefore : ∀ m, 1 ≤ m → m < attempts → ¬ (answers m).Match)
    (h : initialSnapshotAttempts answers sidechains startedAt remaining attempts =
      .ok (snapshot, metadata))
    (hlabel : metadata.consistency = .tipMatched) :
    ∃ n, FirstAttempt (fun n => (answers n).Match) n ∧
      LabelledAt (answers n).tipBefore (answers n).tipAfter metadata := by
  induction remaining generalizing attempts with
  | zero => cases h
  | succ remaining ih =>
    have hle : attempts ≤ 3 := by
      rw [snapshotMaxAttempts] at hremaining
      omega
    simp only [initialSnapshotAttempts, Result.bind_eq_ok, Result.context_eq_ok] at h
    obtain ⟨tipBefore, htipBefore, snapshot', hsnapshot, tipAfter, htipAfter, h⟩ := h
    have hanchor := collectSnapshot_anchor hsnapshot
    by_cases hmatch : snapshotTipsAreConsistent tipBefore.hash snapshot'.anchor.hash tipAfter.hash
    · simp only [if_pos hmatch, true_or, if_true, Result.pure_eq_ok, Prod.mk.injEq] at h
      obtain ⟨-, rfl⟩ := h
      refine ⟨attempts, ⟨hfirst, by omega, ⟨tipBefore, snapshot'.anchor, tipAfter, htipBefore,
        hanchor, htipAfter, hmatch⟩, hbefore⟩, htipBefore, htipAfter, ?_, rfl,
        hmatch.1.trans hmatch.2⟩
      exact ⟨readTip_reported htipBefore, readTip_reported htipAfter, rfl, rfl,
        ⟨hfirst, hle⟩, .inl rfl⟩
    · simp only [if_neg hmatch, reduceCtorEq, false_or] at h
      by_cases hlast : attempts = snapshotMaxAttempts
      · simp only [if_pos hlast, Result.pure_eq_ok, Prod.mk.injEq] at h
        obtain ⟨-, rfl⟩ := h
        cases hlabel
      · rw [if_neg hlast] at h
        refine ih (by omega) (by omega) (fun m hm hlt => ?_) h
        rcases Nat.lt_succ_iff_lt_or_eq.mp hlt with hlt | rfl
        · exact hbefore m hm hlt
        · rintro ⟨before, anchor, after, hb, hmid, ha, hmatch'⟩
          obtain rfl := Except.ok.inj (htipBefore.symm.trans hb)
          obtain rfl := Except.ok.inj (hanchor.symm.trans hmid)
          obtain rfl := Except.ok.inj (htipAfter.symm.trans ha)
          exact hmatch hmatch'

/-- A reading of the state that is labelled is so by its two tips. -/
theorem collect_labelled {upstream : Upstream} {sidechains : List ℕ} {discover : Bool}
    {reading : Reading} (h : upstream.collect sidechains discover = .ok reading)
    (hlabel : reading.metadata.consistency = .tipMatched) :
    LabelledAt upstream.tipBefore upstream.tipAfter reading.metadata := by
  obtain ⟨before, after, _, _, _, _, hbefore, hafter, -, -, -, -, -, -, hmetadata⟩ :=
    collect_eq_ok h
  rw [hmetadata] at hlabel ⊢
  have hhash : before.hash = after.hash := by
    by_contra hne
    rw [if_neg hne] at hlabel
    cases hlabel
  exact ⟨hbefore, hafter, ⟨readTip_reported hbefore, readTip_reported hafter, rfl, rfl,
    ⟨le_rfl, Nat.le_add_left 1 2⟩, .inl hlabel⟩, hlabel, hhash⟩

/-- **What a collector labels, and the record accepts.** A reading labelled by any of the three
collectors passes the check of the record exactly when the two tips that decided the label, of one
hash, have one height, and one that the record can hold. Of several attempts these are the tips of
the first whose hashes match. -/
theorem tipMatched_validates (store : Store) :
    (∀ upstream sidechains discover reading,
      Upstream.collect upstream sidechains discover = .ok reading →
      reading.metadata.consistency = .tipMatched →
        (validateSnapshot store reading.metadata = .ok () ↔
          OneHeight upstream.tipBefore upstream.tipAfter)) ∧
    (∀ answers sidechains startedAt snapshot metadata,
      collectInitialSnapshotAttempts answers sidechains startedAt = .ok (snapshot, metadata) →
      metadata.consistency = .tipMatched →
        ∃ n, FirstAttempt (fun n => (answers n).Match) n ∧
          (validateSnapshot store metadata = .ok () ↔
            OneHeight (answers n).tipBefore (answers n).tipAfter)) ∧
    (∀ answers startedAt payload metadata,
      collectBmmSample answers startedAt = .ok (payload, metadata) →
      metadata.consistency = .tipMatched ∧
        ∃ n, FirstAttempt (fun n => (answers n).Match) n ∧
          (validateSnapshot store metadata = .ok () ↔
            OneHeight (answers n).tipBefore (answers n).tipAfter)) := by
  have hnone : ∀ holds : ℕ → Prop, ∀ m, 1 ≤ m → m < 1 → ¬ holds m := by
    intro holds m hm hlt
    omega
  refine ⟨?_, ?_, ?_⟩
  · intro upstream sidechains discover reading h hlabel
    exact (collect_labelled h hlabel).validates store
  · intro answers sidechains startedAt snapshot metadata h hlabel
    obtain ⟨n, hn, hat⟩ := initialSnapshotAttempts_labelled le_rfl rfl (hnone _) h hlabel
    exact ⟨n, hn, hat.validates store⟩
  · intro answers startedAt payload metadata h
    obtain ⟨n, hn, hat⟩ := bmmSampleAttempts_labelled le_rfl rfl (hnone _) h
    exact ⟨hat.label, n, hn, hat.validates store⟩

end

/-! ### One hash at two heights -/

namespace OneHash

def text : Option Mainchain.HexText :=
  some ⟨some "0000000000000000000000000000000000000000000000000000000000000001"⟩

/-- An answer with the one hash, at a height. -/
def tip (height : ℕ) : Result (Option Mainchain.BlockHeaderInfo) :=
  .ok (some ⟨text, text, height, text, 0⟩)

/-- No sidechain is active, and the second tip is at a height. -/
def upstream (after : ℕ) : Upstream where
  startedAt := 0
  tipBefore := tip 5
  sidechainProposals := .ok []
  sidechains := .ok []
  ctip _ := .ok none
  withdrawalBundleProposals _ := .ok []
  tipAfter := tip after
  finishedAt := 0

def startup (after : ℕ) : StartupAnswers where
  toUpstream := upstream after
  chainTip := tip 5
  chainInfo := .ok ⟨3, some ⟨0, 0, 0, 0, 0, 0, 0⟩⟩

def auction (after : ℕ) : BmmAnswers where
  tipBefore := tip 5
  bmmRequests _ := .ok []
  tipAfter := tip after
  finishedAt := 0

def metadata (after : ℕ) : SnapshotMetadata :=
  { tipMatchedAt (.atHeight (bytes32 1) 5) with tipAfter := .atHeight (bytes32 1) after }

@[reducible] def digests : Digests := .ofPayloads []

theorem noRequests : Convert.bmmRequests (bytes32 1) [] = .ok ⟨bytes32 1, []⟩ := by
  have hlength : (bytes32 1).length = 32 := by decide
  simp [Convert.bmmRequests, Convert.require32Bytes, hlength, Convert.duplicateRequest, bind,
    Except.bind, pure, Except.pure]

/-- What the three collectors take of these answers. -/
theorem collected (after : ℕ) :
    @Upstream.collect digests (upstream after) [] false =
        .ok ⟨.atHeight (bytes32 1) 5, [.sidechainProposals [], .activeSidechains []],
          metadata after⟩ ∧
      @collectInitialSnapshotAttempts digests (fun _ => startup after) [] 0 =
        .ok (⟨[.chainInfo ⟨3, some ⟨0, 0, 0, 0, 0, 0, 0⟩, 3⟩,
            .chainTip ⟨some ⟨bytes32 1, bytes32 1, 5, bytes32 1, [], 0⟩⟩],
          [.sidechainProposals [], .activeSidechains []], .atHeight (bytes32 1) 5⟩,
          metadata after) ∧
      collectBmmSample (fun _ => auction after) 0 = .ok (⟨bytes32 1, []⟩, metadata after) := by
  refine ⟨rfl, rfl, ?_⟩
  have hsample : collectBmmSample (fun _ => auction after) 0 =
      ((Convert.bmmRequests (bytes32 1) []).context "converting live BMM requests" >>=
        fun payload => .ok (payload, metadata after)) := rfl
  rw [hsample, noRequests]
  rfl

end OneHash

/-- Of one hash at one height, the label of each is accepted. -/
theorem tipMatched_validates_oneHash :
    ∃ reading snapshot metadata payload metadata',
      @Upstream.collect OneHash.digests (OneHash.upstream 5) [] false = .ok reading ∧
      @collectInitialSnapshotAttempts OneHash.digests (fun _ => OneHash.startup 5) [] 0 =
        .ok (snapshot, metadata) ∧
      collectBmmSample (fun _ => OneHash.auction 5) 0 = .ok (payload, metadata') ∧
      validateSnapshot Activation.store reading.metadata = .ok () ∧
      validateSnapshot Activation.store metadata = .ok () ∧
      validateSnapshot Activation.store metadata' = .ok () := by
  obtain ⟨hstate, hstartup, hauction⟩ := OneHash.collected 5
  have hone : OneHeight (OneHash.tip 5) (OneHash.tip 5) := by
    intro tip tip' htip htip'
    obtain rfl := Except.ok.inj (htip.symm.trans htip')
    refine ⟨rfl, fun height hheight => ?_⟩
    obtain rfl : tip = .atHeight (bytes32 1) 5 := Except.ok.inj htip.symm
    obtain rfl := Option.some.inj hheight
    decide
  have hvalid := @tipMatched_validates OneHash.digests Activation.store
  obtain ⟨_, -, hstartup'⟩ := hvalid.2.1 _ _ _ _ _ hstartup rfl
  obtain ⟨-, _, -, hauction'⟩ := hvalid.2.2 _ _ _ _ hauction
  exact ⟨_, _, _, _, _, hstate, hstartup, hauction, (hvalid.1 _ _ _ _ hstate rfl).mpr hone,
    hstartup'.mpr hone, hauction'.mpr hone⟩

/-- **One hash at two heights.** Each of the collectors labels the reading, and no record takes
it. -/
theorem tipMatched_rejected :
    ∃ reading snapshot payload metadata,
      @Upstream.collect OneHash.digests (OneHash.upstream 6) [] false = .ok reading ∧
      reading.metadata = metadata ∧
      @collectInitialSnapshotAttempts OneHash.digests (fun _ => OneHash.startup 6) [] 0 =
        .ok (snapshot, metadata) ∧
      collectBmmSample (fun _ => OneHash.auction 6) 0 = .ok (payload, metadata) ∧
      metadata.consistency = .tipMatched ∧
      (∀ store, validateSnapshot store metadata = .error (.bail
        "tip-matched snapshots require matching tips and no claimed server revision")) ∧
      ∀ store db method events, events ≠ [] →
        ¬ Tx.Succeeds (@recordSnapshot OneHash.digests store events method metadata) db := by
  obtain ⟨hstate, hstartup, hauction⟩ := OneHash.collected 6
  have hrejected : ∀ store, validateSnapshot store (OneHash.metadata 6) = .error (.bail
      "tip-matched snapshots require matching tips and no claimed server revision") :=
    fun _ => rfl
  refine ⟨_, _, _, _, hstate, rfl, hstartup, hauction, rfl, hrejected, ?_⟩
  intro store db method events hne
  let _ := OneHash.digests
  refine recordSnapshot_of_invalid method hne (fun u h => ?_) db
  rw [hrejected store] at h
  cases h

end Bip300Monitor
