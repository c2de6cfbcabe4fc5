import Bip300Monitor.EventLogger.Format
import Bip300Monitor.Runtime.FeeMonitor
import Bip300Monitor.Runtime.MainchainEvents

/-!
# The monitor and the event logger agree

The monitor checks what it is answered when it converts it (`extractors/enforcer/src/convert.rs`,
`mainchain.rs`, `node.rs`, `fees.rs`), the event logger checks what it receives
(`tools/event-logger/src/format.rs`). The checks of the logger ask for nothing that those of the monitor
have not established.

## What is proved

* a lemma for each producer: what it makes of any answer that it accepts is valid;
* `produced_rendered` — the logger renders every event with such a payload.
-/

namespace Bip300Monitor.EventLogger

open Protobuf Resumption

/-! ### The enforcer's answers -/

theorem fixedConsensusHex_length {value : Option Mainchain.HexText} {field : String} {bytes : Bytes}
    (h : Convert.fixedConsensusHex value field = .ok bytes) : bytes.length = 32 := by
  obtain ⟨_, -, h⟩ := Result.bind_eq_ok.mp h
  obtain ⟨hlength, rfl⟩ := Convert.require32Bytes_eq_ok.mp h
  exact hlength

theorem m6idDisplay_length {value : Option Mainchain.HexText} {field : String} {bytes : Bytes}
    (h : Convert.m6idDisplay value field = .ok bytes) : bytes.length = 32 := by
  obtain ⟨m6id, hm6id, h⟩ := Result.bind_eq_ok.mp h
  obtain rfl := Result.pure_eq_ok.mp h
  rw [List.length_reverse]
  exact fixedConsensusHex_length hm6id

theorem blockHeader_valid {info : Mainchain.BlockHeaderInfo} {header : BlockHeader}
    (h : Convert.blockHeader info = .ok header) : ValidHeader header := by
  obtain ⟨hash, hhash, h⟩ := Result.bind_eq_ok.mp h
  obtain ⟨previousHash, hprevious, h⟩ := Result.bind_eq_ok.mp h
  obtain ⟨blockWork, hwork, h⟩ := Result.bind_eq_ok.mp h
  obtain rfl := Result.pure_eq_ok.mp h
  exact ⟨Convert.hashFromReverse_length hhash, Convert.hashFromReverse_length hprevious,
    fixedConsensusHex_length hwork, .inl rfl⟩

/-- What each item is made into, all of the list is made of. -/
theorem mapM_forall {α β : Type} {f : α → Result β} {items : List α} {made : List β} {P : β → Prop}
    (h : items.mapM f = .ok made) (hP : ∀ a b, f a = .ok b → P b) : ∀ b ∈ made, P b := by
  have hmade := Backfill.mapM_eq_ok.mp h
  clear h
  induction hmade with
  | nil => exact fun b hb => by cases hb
  | cons hab _ ih => exact List.forall_mem_cons.mpr ⟨hP _ _ hab, ih⟩

theorem convertEach_forall {α β : Type} {what : String} {convert : α → Result β} {items : List α}
    {converted : List β} {P : β → Prop} (h : Convert.convertEach what convert items = .ok converted)
    (hP : ∀ a b, convert a = .ok b → P b) : ∀ b ∈ converted, P b :=
  mapM_forall h fun item b hb => hP item.1 b (Result.context_eq_ok.mp hb)

theorem bmmRequest_valid {request : Mainchain.BmmRequest} {index : ℕ} {converted : BmmRequest}
    (h : Convert.bmmRequest request index = .ok converted) : ValidBmmRequest converted := by
  unfold Convert.bmmRequest at h
  split_ifs at h
  obtain ⟨slot, hslot, h⟩ := Result.bind_eq_ok.mp h
  obtain ⟨txid, htxid, h⟩ := Result.bind_eq_ok.mp h
  obtain ⟨criticalHash, hcritical, h⟩ := Result.bind_eq_ok.mp h
  obtain rfl := Result.pure_eq_ok.mp h
  obtain ⟨hle, rfl⟩ := Convert.slot_eq_ok.mp hslot
  exact ⟨hle, Convert.hashFromReverse_length htxid, fixedConsensusHex_length hcritical⟩

theorem sidechainEvent_valid {event : Option Mainchain.BlockEvent} {converted : Option SidechainEvent}
    (h : Convert.sidechainEvent event = .ok converted) : ValidSidechainEvent converted := by
  obtain ⟨event, -, h⟩ := Result.bind_eq_ok.mp h
  cases event with
  | deposit deposit =>
    obtain ⟨deposit, hdeposit, h⟩ := Result.bind_eq_ok.mp h
    obtain rfl := Result.pure_eq_ok.mp h
    simp only [Convert.depositEvent, Result.bind_eq_ok, Result.pure_eq_ok] at hdeposit
    obtain ⟨_, -, _, -, _, -, txid, htxid, vout, -, _, -, _, -, rfl⟩ := hdeposit
    exact ⟨⟨txid, vout⟩, rfl, Convert.hashFromReverse_length htxid⟩
  | withdrawalBundle withdrawal =>
    obtain ⟨withdrawal, hwithdrawal, h⟩ := Result.bind_eq_ok.mp h
    obtain rfl := Result.pure_eq_ok.mp h
    simp only [Convert.withdrawalEvent, Result.bind_eq_ok, Result.pure_eq_ok] at hwithdrawal
    obtain ⟨_, -, _, -, state, -, _, -, rfl⟩ := hwithdrawal
    exact rfl

/-- A converted declaration has its version. -/
theorem sidechainDeclaration_isSome {declaration : Option Mainchain.SidechainDeclaration}
    {converted : Option SidechainDeclaration}
    (h : Result.transpose (declaration.map Convert.sidechainDeclaration) = .ok converted) :
    ∀ d ∈ converted, d.declaration.isSome := by
  rcases Result.transpose_map_eq_ok.mp h with ⟨-, rfl⟩ | ⟨_, d, -, hd, rfl⟩
  · exact fun d hd => by cases hd
  · simp only [Convert.sidechainDeclaration, Result.bind_eq_ok, Result.pure_eq_ok] at hd
    obtain ⟨_, -, _, -, _, -, _, -, _, -, rfl⟩ := hd
    rintro _ ⟨⟩
    rfl

section
variable [Digests]

theorem chainInfo_valid {response : Mainchain.GetChainInfoResponse} {info : ChainInfo}
    (h : Convert.chainInfo response = .ok info) : ValidEnforcer (.chainInfo info) := by
  obtain ⟨constants, -, h⟩ := Result.bind_eq_ok.mp h
  obtain rfl := Result.pure_eq_ok.mp h
  refine ⟨?_, rfl⟩
  -- a number that the schema does not define has become that of an unknown network
  unfold Convert.network
  split <;> rfl

theorem chainTip_valid {response : Option Mainchain.BlockHeaderInfo} {tip : ChainTip}
    (h : Convert.chainTip response = .ok tip) : ValidEnforcer (.chainTip tip) := by
  obtain ⟨info, -, h⟩ := Result.bind_eq_ok.mp h
  obtain ⟨header, hheader, h⟩ := Result.bind_eq_ok.mp h
  obtain rfl := Result.pure_eq_ok.mp h
  exact ⟨header, rfl, blockHeader_valid hheader⟩

theorem bmmRequests_valid {previous : Bytes} {response : List Mainchain.BmmRequest}
    {snapshot : BmmRequestsSnapshot} (h : Convert.bmmRequests previous response = .ok snapshot) :
    ValidEnforcer (.bmmRequests snapshot) := by
  obtain ⟨_, hprevious, h⟩ := Result.bind_eq_ok.mp h
  obtain ⟨hlength, rfl⟩ := Convert.require32Bytes_eq_ok.mp hprevious
  obtain ⟨requests, hrequests, h⟩ := Result.bind_eq_ok.mp h
  have hvalid := mapM_forall hrequests fun _ _ => bmmRequest_valid
  split at h
  · cases h
  · obtain rfl := Result.pure_eq_ok.mp h
    exact ⟨hlength, fun request hrequest => hvalid request ((List.mem_mergeSort).mp hrequest)⟩

theorem connectedBlock_valid {slot : ℕ} {info : Mainchain.BlockHeaderInfo} {block : Mainchain.BlockInfo}
    {event : EnforcerEvent} (h : Convert.connectedBlock slot info block = .ok event) :
    ValidEnforcer event := by
  obtain ⟨bmmCommitment, -, h⟩ := Result.bind_eq_ok.mp h
  obtain ⟨events, hevents, h⟩ := Result.bind_eq_ok.mp h
  obtain ⟨header, hheader, h⟩ := Result.bind_eq_ok.mp h
  obtain rfl := Result.pure_eq_ok.mp h
  exact ⟨⟨header, rfl, blockHeader_valid hheader⟩,
    convertEach_forall hevents fun _ _ => sidechainEvent_valid⟩

theorem blockInfo_valid {slot : ℕ} {infos : List Mainchain.Info} {events : List EnforcerEvent}
    (h : Convert.blockInfo slot infos = .ok events) : ∀ event ∈ events, ValidEnforcer event := by
  refine mapM_forall h fun item event hevent => ?_
  obtain ⟨header, -, hevent⟩ := Result.bind_eq_ok.mp hevent
  obtain ⟨info, -, hevent⟩ := Result.bind_eq_ok.mp hevent
  exact connectedBlock_valid (Result.context_eq_ok.mp hevent)

theorem subscriptionEvent_valid {slot : ℕ} {response : Mainchain.SubscribeEventsResponse}
    {event : EnforcerEvent} (h : Convert.subscriptionEvent slot response = .ok event) :
    ValidEnforcer event := by
  obtain ⟨_, -, h⟩ := Result.bind_eq_ok.mp h
  obtain ⟨answered, -, h⟩ := Result.bind_eq_ok.mp h
  cases answered with
  | connectBlock headerInfo blockInfo =>
    obtain ⟨header, -, h⟩ := Result.bind_eq_ok.mp h
    obtain ⟨info, -, h⟩ := Result.bind_eq_ok.mp h
    exact connectedBlock_valid h
  | disconnectBlock blockHash =>
    obtain ⟨hash, hhash, h⟩ := Result.bind_eq_ok.mp h
    obtain rfl := Result.pure_eq_ok.mp h
    exact Convert.hashFromReverse_length hhash

theorem ctip_valid {slot : ℕ} {response : Option Mainchain.Ctip} {event : EnforcerEvent}
    (h : Convert.ctip slot response = .ok event) : ValidEnforcer event := by
  obtain ⟨ctip, hctip, h⟩ := Result.bind_eq_ok.mp h
  obtain rfl := Result.pure_eq_ok.mp h
  rcases Result.transpose_map_eq_ok.mp hctip with ⟨-, rfl⟩ | ⟨_, converted, -, hconverted, rfl⟩
  · exact fun ctip hctip => by cases hctip
  · obtain ⟨txid, htxid, hconverted⟩ := Result.bind_eq_ok.mp hconverted
    obtain rfl := Result.pure_eq_ok.mp hconverted
    rintro _ ⟨⟩
    exact Convert.hashFromReverse_length htxid

theorem withdrawalBundleProposals_valid {slot : ℕ} {response : List Mainchain.ResponseItem}
    {event : EnforcerEvent} (h : Convert.withdrawalBundleProposals slot response = .ok event) :
    ValidEnforcer event := by
  obtain ⟨proposals, hproposals, h⟩ := Result.bind_eq_ok.mp h
  obtain rfl := Result.pure_eq_ok.mp h
  refine convertEach_forall hproposals fun item proposal hproposal => ?_
  obtain ⟨m6id, hm6id, hproposal⟩ := Result.bind_eq_ok.mp hproposal
  obtain ⟨_, -, hproposal⟩ := Result.bind_eq_ok.mp hproposal
  obtain ⟨_, -, hproposal⟩ := Result.bind_eq_ok.mp hproposal
  obtain rfl := Result.pure_eq_ok.mp hproposal
  exact m6idDisplay_length hm6id

/-- A description's hash has 32 bytes. -/
theorem sidechainDescriptionHash_length {encoded hash : Bytes}
    (h : sidechainDescriptionHash encoded = .ok hash) : hash.length = 32 := by
  unfold sidechainDescriptionHash at h
  split at h
  · cases h
    rw [List.length_reverse, Digests.sha256d_length]
  · cases h

/-- The hash that the enforcer reports is the one that the logger calculates. -/
theorem sidechainProposals_valid {response : List Mainchain.SidechainProposal}
    {proposals : List SidechainProposal} (h : Convert.sidechainProposals response = .ok proposals) :
    ValidEnforcer (.sidechainProposals proposals) := by
  refine convertEach_forall h fun item proposal hproposal => ?_
  simp only [Convert.sidechainProposal, Result.bind_eq_ok, Result.pure_eq_ok] at hproposal
  obtain ⟨rawDescription, -, hash, -, _, hchecked, _, -, _, -, _, -, _, -, _, -, declaration,
    hdeclaration, rfl⟩ := hproposal
  obtain ⟨calculated, hcalculated, hsame⟩ := Result.bind_eq_ok.mp hchecked
  have heq : calculated = hash := by
    by_contra hne
    rw [if_pos hne] at hsame
    cases hsame
  subst heq
  have hhash := Result.context_eq_ok.mp hcalculated
  exact ⟨sidechainDescriptionHash_length hhash, hhash, sidechainDeclaration_isSome hdeclaration⟩

/-- The enforcer reports none of an active sidechain: the monitor calculates it. -/
theorem activeSidechains_valid {response : List Mainchain.SidechainInfo}
    {sidechains : List ActiveSidechain} (h : Convert.activeSidechains response = .ok sidechains) :
    ValidEnforcer (.activeSidechains sidechains) := by
  refine convertEach_forall h fun item sidechain hsidechain => ?_
  simp only [Convert.activeSidechain, Result.bind_eq_ok, Result.pure_eq_ok] at hsidechain
  obtain ⟨rawDescription, -, hash, hcalculated, _, -, _, -, _, -, _, -, _, -, declaration,
    hdeclaration, rfl⟩ := hsidechain
  have hhash := Result.context_eq_ok.mp hcalculated
  exact ⟨sidechainDescriptionHash_length hhash, hhash, sidechainDeclaration_isSome hdeclaration⟩

/-! ### The mainchain's transitions -/

theorem globalEvent_valid {response : Mainchain.SubscribeEventsResponse} {event : EnforcerEvent}
    {anchor : ObservedBlock} (h : Mainchain.globalEvent response = .ok (event, anchor)) :
    ValidEnforcer event := by
  obtain ⟨reported, hreported, h⟩ := Result.bind_eq_ok.mp h
  have hvalid := subscriptionEvent_valid hreported
  cases reported with
  | blockConnected block =>
    obtain ⟨header, hheader, h⟩ := Result.bind_eq_ok.mp h
    obtain ⟨⟨header', hheader', hvalid⟩, -⟩ := hvalid
    rw [Backfill.expect_eq_ok, hheader'] at hheader
    cases hheader
    cases h
    refine ⟨?_, fun gapStart hgap => by cases hgap⟩
    rintro _ ⟨⟩
    exact hvalid
  | blockDisconnected block =>
    cases h
    exact ⟨fun header hheader => (by cases hheader), fun gapStart hgap => by cases hgap⟩
  | _ => cases h

theorem boundaryEvent_valid {response : Option Mainchain.BlockHeaderInfo} {tip : ChainTip}
    {gapStart : Option ObservedBlock} {event : EnforcerEvent} {anchor : ObservedBlock}
    (htip : Convert.chainTip response = .ok tip) (hstart : ∀ block ∈ gapStart, Mainchain.GapStart block)
    (h : Mainchain.boundaryEvent (some (.chainTip tip)) gapStart = .ok (event, anchor)) :
    ValidEnforcer event := by
  obtain ⟨header, hheader, h⟩ := Result.bind_eq_ok.mp h
  obtain ⟨header', hheader', hvalid⟩ := chainTip_valid htip
  rw [Backfill.expect_eq_ok, hheader'] at hheader
  cases hheader
  obtain ⟨start, hgap, h⟩ := Result.bind_eq_ok.mp h
  cases h
  refine ⟨?_, fun blockRef href => ?_⟩
  · rintro _ ⟨⟩
    exact hvalid
  · cases href
    rcases Result.transpose_map_eq_ok.mp hgap with ⟨-, hnone⟩ | ⟨block, made, hblock, hmade, heq⟩
    · cases hnone
    · cases heq
      obtain ⟨height, -, hmade⟩ := Result.bind_eq_ok.mp hmade
      obtain rfl := Result.pure_eq_ok.mp hmade
      exact (hstart block hblock).hash_length

end

/-! ### The node's answers -/

/-- A header that the node client returns, whatever is answered. -/
theorem nodeHeader_valid {E : Type} {R : E → Type} {A : (e : E) → R e → Prop}
    {rpc : Bytes → Fallible E R Failure Node.HeaderValue} {hash : Bytes} {header : BlockHeader}
    (h : Results A (Node.header rpc hash) header) : ValidHeader header := by
  simp only [Node.header, results_bind, results_attempt, results_pure, Backfill.ensure_eq_ok] at h
  obtain ⟨_, hlength, value, -, _, -, _, -, _, -, height, -, previousHash, hprevious, accumulated, -,
    below, -, _, -, _, -, rfl⟩ := h
  refine ⟨hlength, ?_, Node.toLeBytes_length _, .inr (Node.toLeBytes_length _)⟩
  split_ifs at hprevious
  · cases hprevious
    exact List.length_replicate ..
  · exact Node.hashBytes_length hprevious

theorem nodeBlock_valid [Node.BlockCodec] {A : (e : Node.Op) → e.Resp → Prop} {hash : Bytes}
    {block : MainchainBlock} (h : Results A (Node.block hash) block) :
    ∃ header, block.header = some header ∧ ValidHeader header := by
  simp only [Node.block, results_bind, results_attempt, results_pure] at h
  obtain ⟨header, hheader, _, -, _, -, _, -, _, -, _, -, _, -, _, -, _, -, rfl⟩ := h
  exact ⟨header, rfl, nodeHeader_valid hheader⟩

/-- The event of a block's fees carries a header of the node's. -/
theorem enrichment_valid [Digests] {A : (e : FeeMonitor.Op) → e.Resp → Prop} {block : ObservedBlock}
    {event : Event} (h : Results A (FeeMonitor.enrichment block) event) :
    ∃ payload, event.monitorEvent = some payload ∧ Valid payload := by
  simp only [FeeMonitor.enrichment, results_bind, results_attempt] at h
  obtain ⟨header, hheader, _, -, candidates, -, _, -, _, -, _, -, transactions, -, now, -, hevent⟩ := h
  have hnow : ∃ timestamp, event = ⟨timestamp, some block, some (.node (some (.confirmedBmmFees ⟨some header,
      candidates.filterMap (FeeMonitor.confirmedFee transactions),
      "ecash-node:getblock:3;observed_bids_only"⟩)))⟩ := by
    rw [Backfill.nodeEvent] at hevent
    cases now with
    | error e => cases hevent
    | ok timestamp => exact ⟨timestamp, (Except.ok.inj hevent).symm⟩
  obtain ⟨timestamp, rfl⟩ := hnow
  exact ⟨_, rfl, _, header, rfl, rfl, nodeHeader_valid hheader⟩

/-! ### Agreement -/

section
variable [Digests] [Node.BlockCodec]

/-- The payloads that the monitor makes of the answers it accepts, by the function that makes them. Any
answer is allowed for. -/
inductive Produced : MonitorEvent → Prop
  | chainInfo {response info} (h : Convert.chainInfo response = .ok info) :
      Produced (.enforcer (some (.chainInfo info)))
  | chainTip {response tip} (h : Convert.chainTip response = .ok tip) :
      Produced (.enforcer (some (.chainTip tip)))
  | bmmRequests {previous response snapshot} (h : Convert.bmmRequests previous response = .ok snapshot) :
      Produced (.enforcer (some (.bmmRequests snapshot)))
  | blockInfo {slot infos events event} (h : Convert.blockInfo slot infos = .ok events)
      (hevent : event ∈ events) : Produced (.enforcer (some event))
  | subscriptionEvent {slot response event} (h : Convert.subscriptionEvent slot response = .ok event) :
      Produced (.enforcer (some event))
  | sidechainProposals {response proposals} (h : Convert.sidechainProposals response = .ok proposals) :
      Produced (.enforcer (some (.sidechainProposals proposals)))
  | activeSidechains {response sidechains} (h : Convert.activeSidechains response = .ok sidechains) :
      Produced (.enforcer (some (.activeSidechains sidechains)))
  | ctip {slot response event} (h : Convert.ctip slot response = .ok event) :
      Produced (.enforcer (some event))
  | withdrawalBundleProposals {slot response event}
      (h : Convert.withdrawalBundleProposals slot response = .ok event) :
      Produced (.enforcer (some event))
  | globalEvent {response event anchor} (h : Mainchain.globalEvent response = .ok (event, anchor)) :
      Produced (.enforcer (some event))
  | boundaryEvent {response tip gapStart event anchor} (htip : Convert.chainTip response = .ok tip)
      (hstart : ∀ block ∈ gapStart, Mainchain.GapStart block)
      (h : Mainchain.boundaryEvent (some (.chainTip tip)) gapStart = .ok (event, anchor)) :
      Produced (.enforcer (some event))
  | nodeTip {hash header}
      (h : Results (fun _ _ => True) (Node.header Node.getblockheader hash) header) :
      Produced (.node (some (.chainTip ⟨some header⟩)))
  | nodeBlock {hash block} (h : Results (fun _ _ => True) (Node.block hash) block) :
      Produced (.node (some (.mainchainBlock block)))
  | fees {block event payload} (h : Results (fun _ _ => True) (FeeMonitor.enrichment block) event)
      (hpayload : event.monitorEvent = some payload) : Produced payload

theorem Produced.valid {payload : MonitorEvent} (h : Produced payload) : Valid payload := by
  cases h with
  | chainInfo h => exact ⟨_, rfl, chainInfo_valid h⟩
  | chainTip h => exact ⟨_, rfl, chainTip_valid h⟩
  | bmmRequests h => exact ⟨_, rfl, bmmRequests_valid h⟩
  | blockInfo h hevent => exact ⟨_, rfl, blockInfo_valid h _ hevent⟩
  | subscriptionEvent h => exact ⟨_, rfl, subscriptionEvent_valid h⟩
  | sidechainProposals h => exact ⟨_, rfl, sidechainProposals_valid h⟩
  | activeSidechains h => exact ⟨_, rfl, activeSidechains_valid h⟩
  | ctip h => exact ⟨_, rfl, ctip_valid h⟩
  | withdrawalBundleProposals h => exact ⟨_, rfl, withdrawalBundleProposals_valid h⟩
  | globalEvent h => exact ⟨_, rfl, globalEvent_valid h⟩
  | boundaryEvent htip hstart h => exact ⟨_, rfl, boundaryEvent_valid htip hstart h⟩
  | nodeTip h => exact ⟨_, _, rfl, rfl, nodeHeader_valid h⟩
  | nodeBlock h =>
    obtain ⟨header, hheader, hvalid⟩ := nodeBlock_valid h
    exact ⟨_, header, rfl, hheader, hvalid⟩
  | fees h hpayload =>
    obtain ⟨made, hmade, hvalid⟩ := enrichment_valid h
    rw [hpayload] at hmade
    cases hmade
    exact hvalid

/-- **The event logger accepts what the monitor produces**: every such payload meets the checks, and an
event with it is rendered and not counted as invalid, whatever its time, its anchor and the form asked
for. -/
theorem produced_rendered {payload : MonitorEvent} (h : Produced payload) (timestamp : ℕ)
    (anchor : Option ObservedBlock) (fullEvents : Bool) (invalidEventCount : ℕ) :
    Valid payload ∧ ∃ rendered, renderEvent ⟨timestamp, anchor, some payload⟩ fullEvents
      invalidEventCount = (some rendered, invalidEventCount) :=
  ⟨h.valid, renderEvent_eq_some fullEvents invalidEventCount rfl h.valid⟩

end

namespace Proposal

/-- An answer with one proposal, for slot 9, whose description is `[1, 2]`. -/
def response : List Mainchain.SidechainProposal := [{
  sidechainNumber := some 9
  description := some ⟨some "020102"⟩
  declaration := some ⟨some ⟨some "title", some "", some ⟨some ""⟩, some ⟨some "0A"⟩⟩⟩
  descriptionSha256dHash :=
    some ⟨some "db9b643a0e5bacf2a21cb7b532d65caae8b278c3c284cd3d51d215d9ce6aa576"⟩
  voteCount := some 1
  proposalHeight := some 3
  proposalAge := some 2 }]

/-- What it is converted to. -/
def proposals : List SidechainProposal := [{
  sidechainNumber := 9
  rawDescription := [2, 1, 2]
  descriptionHash :=
    bytes32 0xdb9b643a0e5bacf2a21cb7b532d65caae8b278c3c284cd3d51d215d9ce6aa576
  voteCount := 1
  proposalHeight := 3
  proposalAge := 2
  declaration := some ⟨some ⟨"title", "", [], [10]⟩⟩ }]

end Proposal

/-- A proposal whose hash is that of its description. -/
theorem produced_rendered_proposal :
    let _ := Digests.ofPayloads []
    let payload : MonitorEvent := .enforcer (some (.sidechainProposals Proposal.proposals))
    Valid payload ∧ ∃ rendered, renderEvent ⟨1700000000000, some (.atHeight (bytes32 7) 5),
      some payload⟩ true 0 = (some rendered, 0) := by
  let _ := Digests.ofPayloads []
  let _ : Node.BlockCodec := ⟨fun _ => none⟩
  have hconverted : Convert.sidechainProposals Proposal.response = .ok Proposal.proposals := by
    decide +kernel
  exact produced_rendered (.sidechainProposals hconverted) 1700000000000
    (some (.atHeight (bytes32 7) 5)) true 0

end Bip300Monitor.EventLogger
