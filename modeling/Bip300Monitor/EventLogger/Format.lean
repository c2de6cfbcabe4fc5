import Bip300Monitor.Backfill.Engine
import Bip300Monitor.Json
import Bip300Monitor.Store.Evidence

/-!
# The event logger

`render` of `tools/event-logger/src/format.rs`: a consumer of the published events checks each of them
against the contract and renders it as a line; `render_event` of `lib.rs` counts those it rejects.

## What is proved

* `Valid` — what the checks ask of a payload;
* `render_eq_ok` — an event is rendered if and only if its payload is there and meets them, whatever its
  time and its anchor.
-/

namespace Bip300Monitor.EventLogger

open Protobuf Backfill

/-- `RenderedEvent`. -/
structure RenderedEvent where
  kind : String
  summary : String
  fullJson : Option Json

/-! ### Checks -/

/-- `require_32_bytes`. -/
def require32Bytes (value : Bytes) (field : String) : Result Unit :=
  ensure (value.length = 32)
    (field ++ " must contain 32 bytes, got " ++ toString value.length)

/-- `validate_header`. -/
def validateHeader (header : BlockHeader) : Result Unit := do
  require32Bytes header.hash "block_header.hash"
  require32Bytes header.previousHash "block_header.previous_hash"
  require32Bytes header.blockWork "block_header.block_work"
  if header.cumulativeWork ≠ [] then
    require32Bytes header.cumulativeWork "block_header.cumulative_work"
  else pure ()

/-- One request of `validate_bmm_requests`. -/
def validateBmmRequest (request : BmmRequest) : Result Unit := do
  ensure (request.sidechainNumber ≤ 255)
    ("BMM request sidechain " ++ toString request.sidechainNumber ++ " is outside 0..=255")
  require32Bytes request.txid "bmm_request.txid"
  require32Bytes request.criticalHash "bmm_request.critical_hash"

/-- `validate_bmm_requests`. -/
def validateBmmRequests (snapshot : BmmRequestsSnapshot) : Result Unit := do
  require32Bytes snapshot.previousMainchainBlockHash "bmm_requests.previous_mainchain_block_hash"
  snapshot.requests.forM validateBmmRequest

/-- `validate_declaration`. -/
def validateDeclaration (declaration : Option SidechainDeclaration) : Result Unit :=
  match declaration with
  | some declaration => do
    let _ ← expect declaration.declaration "sidechain declaration is missing its concrete version"
    pure ()
  | none => .ok ()

/-- `validate_bundle_proposals`. -/
def validateBundleProposals (proposals : List WithdrawalBundleProposal) : Result Unit :=
  proposals.forM fun proposal => require32Bytes proposal.m6id "withdrawal_bundle_proposal.m6id"

/-- `validate_sidechain_events`: the numbers of deposits and of withdrawal bundles. -/
def validateSidechainEvents : List (Option SidechainEvent) → Result (ℕ × ℕ)
  | [] => .ok (0, 0)
  | event :: rest => do
    let event ← expect event "sidechain event is missing its concrete event"
    match event with
    | .deposit deposit => do
      let outpoint ← expect deposit.outpoint "deposit is missing its outpoint"
      require32Bytes outpoint.txid "deposit.outpoint.txid"
      let (deposits, withdrawalBundles) ← validateSidechainEvents rest
      pure (deposits + 1, withdrawalBundles)
    | .withdrawalBundle withdrawal => do
      let _ ← expect withdrawal.state "withdrawal bundle is missing its state"
      let (deposits, withdrawalBundles) ← validateSidechainEvents rest
      pure (deposits, withdrawalBundles + 1)

/-- `Network::try_from`, and `as_str_name` in lower case. -/
def networkName : ℤ → Option String
  | 0 => some "network_unspecified"
  | 1 => some "network_unknown"
  | 2 => some "network_mainnet"
  | 3 => some "network_regtest"
  | 4 => some "network_signet"
  | 5 => some "network_testnet"
  | _ => none

section
variable [Digests]

/-- `validate_proposal` and `validate_active_sidechain`, by the name of the message and of the sidechain
in the errors. -/
def validateDescription (message name : String) (descriptionHash rawDescription : Bytes)
    (declaration : Option SidechainDeclaration) : Result Unit := do
  require32Bytes descriptionHash (message ++ ".description_hash")
  let calculated ← (sidechainDescriptionHash rawDescription).context
    ("calculating " ++ message ++ ".description_hash")
  ensure (calculated = descriptionHash) (name ++ " description hash does not match its description")
  validateDeclaration declaration

/-- `validate_proposal`. -/
def validateProposal (proposal : SidechainProposal) : Result Unit :=
  validateDescription "sidechain_proposal" "sidechain proposal" proposal.descriptionHash
    proposal.rawDescription proposal.declaration

/-- `validate_active_sidechain`. -/
def validateActiveSidechain (sidechain : ActiveSidechain) : Result Unit :=
  validateDescription "active_sidechain" "active sidechain" sidechain.descriptionHash
    sidechain.rawDescription sidechain.declaration

/-! ### Rendering -/

/-- `summarize`. -/
def summarize : EnforcerEvent → Result String
  | .mainchainTransition event => do
    match event.header with
    | some header => validateHeader header
    | none => pure ()
    match event.gapStart with
    | some gapStart => require32Bytes gapStart.hash "mainchain_transition.gap_start.hash"
    | none => pure ()
    pure ("action=" ++ toString event.action ++
      event.gapStart.elim "" fun start => " gap_start_height=" ++ toString start.height)
  | .chainInfo chainInfo => do
    let network ← (expect (networkName chainInfo.network)
      ("unknown enumeration value " ++ toString chainInfo.network)).context
        "chain info contains an unknown network value"
    let constants ← expect chainInfo.bip300Constants "chain info is missing BIP300 constants"
    pure ("network=" ++ network ++ " raw_network=" ++ toString chainInfo.rawNetwork ++
      " activation_height=" ++ toString constants.activationHeight ++
      " withdrawal_bundle_max_age=" ++ toString constants.withdrawalBundleMaxAge)
  | .chainTip chainTip => do
    let header ← expect chainTip.header "chain tip is missing its block header"
    validateHeader header
    pure ("height=" ++ toString header.height ++ " block_hash=" ++ hexEncode header.hash)
  | .bmmRequests snapshot => do
    validateBmmRequests snapshot
    let maxBidSats := ((snapshot.requests.map (·.bidSats)).max?).getD 0
    pure ("parent_hash=" ++ hexEncode snapshot.previousMainchainBlockHash ++ " request_count=" ++
      toString snapshot.requests.length ++ " max_bid_sats=" ++ toString maxBidSats)
  | .sidechainProposals proposals => do
    proposals.forM validateProposal
    pure ("proposal_count=" ++ toString proposals.length)
  | .activeSidechains sidechains => do
    sidechains.forM validateActiveSidechain
    pure ("sidechain_count=" ++ toString sidechains.length)
  | .ctip snapshot =>
    match snapshot.ctip with
    | some ctip => do
      require32Bytes ctip.txid "ctip.txid"
      pure ("sidechain=" ++ toString snapshot.sidechainNumber ++ " present=true txid=" ++
        hexEncode ctip.txid ++ " vout=" ++ toString ctip.vout ++ " value_sats=" ++
        toString ctip.valueSats ++ " sequence_number=" ++ toString ctip.sequenceNumber)
    | none => .ok ("sidechain=" ++ toString snapshot.sidechainNumber ++ " present=false")
  | .blockConnected block => do
    let header ← expect block.header "connected block is missing its block header"
    validateHeader header
    let (deposits, withdrawalBundles) ← validateSidechainEvents block.events
    pure ("sidechain=" ++ toString block.sidechainNumber ++ " height=" ++ toString header.height ++
      " block_hash=" ++ hexEncode header.hash ++ " deposits=" ++ toString deposits ++
      " withdrawal_bundles=" ++ toString withdrawalBundles ++ " bmm_commitment=" ++
      toString block.bmmCommitment.isSome)
  | .blockDisconnected block => do
    require32Bytes block.blockHash "block_disconnected.block_hash"
    pure ("sidechain=" ++ toString block.sidechainNumber ++ " block_hash=" ++
      hexEncode block.blockHash)
  | .withdrawalBundleProposals snapshot => do
    validateBundleProposals snapshot.proposals
    let maxVoteCount := ((snapshot.proposals.map (·.voteCount)).max?).getD 0
    let oldestProposalHeight := ((snapshot.proposals.map (·.proposalHeight)).min?).getD 0
    pure ("sidechain=" ++ toString snapshot.sidechainNumber ++ " proposal_count=" ++
      toString snapshot.proposals.length ++ " max_vote_count=" ++ toString maxVoteCount ++
      " oldest_proposal_height=" ++ toString oldestProposalHeight)

/-- The full form, if it was asked for. -/
def fullJson (event : Event) (fullEvents : Bool) : Result (Option Json) :=
  if fullEvents then (Json.render event).map some else .ok none

/-- The hash of the anchor, which a transition's summary ends with. -/
def anchorHash (event : Event) : EnforcerEvent → String
  | .mainchainTransition _ => event.observedAtBlock.elim "" fun anchor => " hash=" ++ hexEncode anchor.hash
  | _ => ""

/-- `render`. -/
def render (event : Event) (fullEvents : Bool) : Result RenderedEvent :=
  match event.monitorEvent with
  | some (.node node) => do
    let payload ← expect node "missing node payload"
    let header ← expect payload.header "missing node header"
    validateHeader header
    let fullJson ← fullJson event fullEvents
    pure ⟨payload.kind.asStr, "source=node height=" ++ toString header.height ++ " hash=" ++
      hexEncode header.hash, fullJson⟩
  | some (.enforcer payload) => do
    let payload ← expect payload "enforcer event does not contain a concrete event"
    let summary ← summarize payload
    let fullJson ← fullJson event fullEvents
    pure ⟨payload.kind.asStr, summary ++ anchorHash event payload, fullJson⟩
  | none => .error (.bail "event envelope does not contain a monitor event")

/-- `render_event`, with the counter it is given. -/
def renderEvent (event : Event) (fullEvents : Bool) (invalidEventCount : ℕ) :
    Option RenderedEvent × ℕ :=
  match render event fullEvents with
  | .ok rendered => (some rendered, invalidEventCount)
  | .error _ => (none, min (invalidEventCount + 1) maxU64)

end

/-! ### What is accepted -/

structure ValidHeader (header : BlockHeader) : Prop where
  hash : header.hash.length = 32
  previousHash : header.previousHash.length = 32
  blockWork : header.blockWork.length = 32
  cumulativeWork : header.cumulativeWork = [] ∨ header.cumulativeWork.length = 32

structure ValidBmmRequest (request : BmmRequest) : Prop where
  sidechainNumber : request.sidechainNumber ≤ 255
  txid : request.txid.length = 32
  criticalHash : request.criticalHash.length = 32

/-- An event of a sidechain: the oneof, and what its message needs. -/
def ValidSidechainEvent : Option SidechainEvent → Prop
  | some (.deposit deposit) => ∃ outpoint, deposit.outpoint = some outpoint ∧ outpoint.txid.length = 32
  | some (.withdrawalBundle withdrawal) => withdrawal.state.isSome
  | none => False

section
variable [Digests]

/-- The hash is the description's, and a declaration has its version. -/
structure ValidDescription (descriptionHash rawDescription : Bytes)
    (declaration : Option SidechainDeclaration) : Prop where
  length : descriptionHash.length = 32
  hash : sidechainDescriptionHash rawDescription = .ok descriptionHash
  declaration : ∀ d ∈ declaration, d.declaration.isSome

/-- What the checks ask of an event of the enforcer's. -/
def ValidEnforcer : EnforcerEvent → Prop
  | .chainInfo info => (networkName info.network).isSome ∧ info.bip300Constants.isSome
  | .chainTip tip => ∃ header, tip.header = some header ∧ ValidHeader header
  | .sidechainProposals proposals => ∀ p ∈ proposals,
      ValidDescription p.descriptionHash p.rawDescription p.declaration
  | .activeSidechains sidechains => ∀ s ∈ sidechains,
      ValidDescription s.descriptionHash s.rawDescription s.declaration
  | .ctip snapshot => ∀ ctip ∈ snapshot.ctip, ctip.txid.length = 32
  | .blockConnected block => (∃ header, block.header = some header ∧ ValidHeader header) ∧
      ∀ event ∈ block.events, ValidSidechainEvent event
  | .blockDisconnected block => block.blockHash.length = 32
  | .withdrawalBundleProposals snapshot => ∀ p ∈ snapshot.proposals, p.m6id.length = 32
  | .bmmRequests snapshot => snapshot.previousMainchainBlockHash.length = 32 ∧
      ∀ request ∈ snapshot.requests, ValidBmmRequest request
  | .mainchainTransition transition => (∀ header ∈ transition.header, ValidHeader header) ∧
      ∀ gapStart ∈ transition.gapStart, gapStart.hash.length = 32

/-- What the checks ask of a payload. -/
def Valid : MonitorEvent → Prop
  | .enforcer payload => ∃ event, payload = some event ∧ ValidEnforcer event
  | .node payload => ∃ event header, payload = some event ∧ event.header = some header ∧
      ValidHeader header

omit [Digests] in
@[simp] theorem require32Bytes_eq_ok {value : Bytes} {field : String} {u : Unit} :
    require32Bytes value field = .ok u ↔ value.length = 32 := by
  simp [require32Bytes]

omit [Digests] in
theorem forM_eq_ok {α : Type} {check : α → Result Unit} {values : List α} {u : Unit} :
    forM values check = .ok u ↔ ∀ value ∈ values, check value = .ok () := by
  induction values with
  | nil => simp
  | cons value rest ih =>
    rw [List.forM_cons, Result.bind_eq_ok, List.forall_mem_cons, ih, exists_and_right]
    exact and_congr_left fun _ => ⟨fun ⟨_, hcheck⟩ => hcheck, fun hcheck => ⟨(), hcheck⟩⟩

omit [Digests] in
theorem validateHeader_eq_ok {header : BlockHeader} {u : Unit} :
    validateHeader header = .ok u ↔ ValidHeader header := by
  simp only [validateHeader, Result.bind_eq_ok, require32Bytes_eq_ok, exists_const]
  constructor
  · rintro ⟨hhash, hprevious, hwork, hcumulative⟩
    refine ⟨hhash, hprevious, hwork, ?_⟩
    split_ifs at hcumulative with hempty
    · exact .inr (require32Bytes_eq_ok.mp hcumulative)
    · exact .inl (not_not.mp hempty)
  · rintro ⟨hhash, hprevious, hwork, hcumulative⟩
    refine ⟨hhash, hprevious, hwork, ?_⟩
    split_ifs with hempty
    · exact require32Bytes_eq_ok.mpr (hcumulative.resolve_left hempty)
    · rfl

omit [Digests] in
theorem validateBmmRequest_eq_ok {request : BmmRequest} {u : Unit} :
    validateBmmRequest request = .ok u ↔ ValidBmmRequest request := by
  simp only [validateBmmRequest, Result.bind_eq_ok, ensure_eq_ok, require32Bytes_eq_ok, exists_const]
  constructor
  · rintro ⟨h, h', h''⟩
    exact ⟨h, h', h''⟩
  · rintro ⟨h, h', h''⟩
    exact ⟨h, h', h''⟩

omit [Digests] in
theorem validateDeclaration_eq_ok {declaration : Option SidechainDeclaration} {u : Unit} :
    validateDeclaration declaration = .ok u ↔ ∀ d ∈ declaration, d.declaration.isSome := by
  cases declaration with
  | none => simp [validateDeclaration]
  | some d => cases h : d.declaration <;> simp [validateDeclaration, h, expect, bind, Except.bind, pure, Except.pure]

theorem validateDescription_eq_ok {message name : String} {descriptionHash rawDescription : Bytes}
    {declaration : Option SidechainDeclaration} {u : Unit} :
    validateDescription message name descriptionHash rawDescription declaration = .ok u ↔
      ValidDescription descriptionHash rawDescription declaration := by
  simp only [validateDescription, Result.bind_eq_ok, require32Bytes_eq_ok, Result.context_eq_ok,
    ensure_eq_ok, exists_const, validateDeclaration_eq_ok]
  constructor
  · rintro ⟨hlength, calculated, hcalculated, rfl, hversion⟩
    exact ⟨hlength, hcalculated, hversion⟩
  · rintro ⟨hlength, hcalculated, hversion⟩
    exact ⟨hlength, descriptionHash, hcalculated, rfl, hversion⟩

omit [Digests] in
theorem validateSidechainEvents_eq_ok {events : List (Option SidechainEvent)} :
    (∃ counts, validateSidechainEvents events = .ok counts) ↔
      ∀ event ∈ events, ValidSidechainEvent event := by
  induction events with
  | nil => simp [validateSidechainEvents]
  | cons event rest ih =>
    rw [List.forall_mem_cons, ← ih]
    cases event with
    | none =>
      simp [validateSidechainEvents, ValidSidechainEvent, expect, bind, Except.bind]
    | some event =>
      cases event with
      | deposit deposit =>
        constructor
        · rintro ⟨counts, h⟩
          obtain ⟨event, hevent, h⟩ := Result.bind_eq_ok.mp h
          cases hevent
          obtain ⟨outpoint, houtpoint, h⟩ := Result.bind_eq_ok.mp h
          obtain ⟨_, htxid, h⟩ := Result.bind_eq_ok.mp h
          obtain ⟨counts, hrest, -⟩ := Result.bind_eq_ok.mp h
          exact ⟨⟨outpoint, expect_eq_ok.mp houtpoint, require32Bytes_eq_ok.mp htxid⟩, counts, hrest⟩
        · rintro ⟨⟨outpoint, houtpoint, htxid⟩, counts, hrest⟩
          refine ⟨(counts.1 + 1, counts.2), Result.bind_eq_ok.mpr ⟨_, rfl, ?_⟩⟩
          refine Result.bind_eq_ok.mpr ⟨outpoint, expect_eq_ok.mpr houtpoint, ?_⟩
          refine Result.bind_eq_ok.mpr ⟨(), require32Bytes_eq_ok.mpr htxid, ?_⟩
          exact Result.bind_eq_ok.mpr ⟨counts, hrest, rfl⟩
      | withdrawalBundle withdrawal =>
        constructor
        · rintro ⟨counts, h⟩
          obtain ⟨event, hevent, h⟩ := Result.bind_eq_ok.mp h
          cases hevent
          obtain ⟨state, hstate, h⟩ := Result.bind_eq_ok.mp h
          obtain ⟨counts, hrest, -⟩ := Result.bind_eq_ok.mp h
          exact ⟨Option.isSome_of_mem (expect_eq_ok.mp hstate), counts, hrest⟩
        · rintro ⟨hstate, counts, hrest⟩
          obtain ⟨state, hstate⟩ := Option.isSome_iff_exists.mp hstate
          refine ⟨(counts.1, counts.2 + 1), Result.bind_eq_ok.mpr ⟨_, rfl, ?_⟩⟩
          refine Result.bind_eq_ok.mpr ⟨state, expect_eq_ok.mpr hstate, ?_⟩
          exact Result.bind_eq_ok.mpr ⟨counts, hrest, rfl⟩

omit [Digests] in
/-- What is made of a checked value does not fail. -/
theorem map_ok {α β : Type} {checked : Result α} {text : α → β} :
    (∃ b, text <$> checked = .ok b) ↔ ∃ a, checked = .ok a := by
  cases checked <;> simp [Functor.map, Except.map]

omit [Digests] in
/-- A check with a value to hand on. -/
theorem bind_ok {α β : Type} {checked : Result α} {next : α → Result β} :
    (∃ b, (checked >>= next) = .ok b) ↔ ∃ a, checked = .ok a ∧ ∃ b, next a = .ok b := by
  simp only [Result.bind_eq_ok]
  constructor
  · rintro ⟨b, a, h, hb⟩
    exact ⟨a, h, b, hb⟩
  · rintro ⟨a, h, b, hb⟩
    exact ⟨b, a, h, hb⟩

/-- An event of the enforcer's has a summary if it meets its checks. -/
theorem summarize_eq_ok {event : EnforcerEvent} :
    (∃ summary, summarize event = .ok summary) ↔ ValidEnforcer event := by
  cases event with
  | mainchainTransition transition =>
    obtain ⟨action, header, gapStart⟩ := transition
    cases header <;> cases gapStart <;>
      simp [summarize, ValidEnforcer, bind_ok, map_ok, validateHeader_eq_ok]
  | chainInfo info =>
    simp [summarize, ValidEnforcer, bind_ok, map_ok, Option.isSome_iff_exists]
  | chainTip tip =>
    simp [summarize, ValidEnforcer, bind_ok, map_ok, validateHeader_eq_ok]
  | bmmRequests snapshot =>
    simp [summarize, ValidEnforcer, bind_ok, map_ok, validateBmmRequests, forM_eq_ok,
      validateBmmRequest_eq_ok]
  | sidechainProposals proposals =>
    simp [summarize, ValidEnforcer, map_ok, forM_eq_ok, validateProposal, validateDescription_eq_ok]
  | activeSidechains sidechains =>
    simp [summarize, ValidEnforcer, map_ok, forM_eq_ok, validateActiveSidechain,
      validateDescription_eq_ok]
  | ctip snapshot =>
    cases h : snapshot.ctip <;> simp [summarize, ValidEnforcer, map_ok, h]
  | blockConnected block =>
    have hheader : (∃ header, block.header = some header ∧ ValidHeader header ∧
        ∃ counts, validateSidechainEvents block.events = .ok counts) ↔
        ValidEnforcer (.blockConnected block) := by
      simp only [ValidEnforcer, ← validateSidechainEvents_eq_ok, ← and_assoc, exists_and_right]
    simp only [← hheader, summarize, bind_ok, expect_eq_ok, validateHeader_eq_ok]
    simp
  | blockDisconnected block => simp [summarize, ValidEnforcer, map_ok]
  | withdrawalBundleProposals snapshot =>
    simp [summarize, ValidEnforcer, map_ok, validateBundleProposals, forM_eq_ok]

omit [Digests] in
theorem fullJson_ok (event : Event) (fullEvents : Bool) :
    ∃ json, fullJson event fullEvents = .ok json := by
  cases fullEvents with
  | false => exact ⟨none, rfl⟩
  | true =>
    obtain ⟨json, h⟩ := Json.render_ok event
    exact ⟨some json, by simp [fullJson, h, Except.map]⟩

/-- An event is rendered if its payload is there and meets the checks: its time, its anchor and the form
asked for do not matter. -/
theorem render_eq_ok {event : Event} {fullEvents : Bool} :
    (∃ rendered, render event fullEvents = .ok rendered) ↔
      ∃ payload, event.monitorEvent = some payload ∧ Valid payload := by
  have hjson := fullJson_ok event fullEvents
  cases h : event.monitorEvent with
  | none => simp [render, h]
  | some payload =>
    cases payload with
    | node payload =>
      simp [render, h, Valid, bind_ok, map_ok, validateHeader_eq_ok, hjson]
    | enforcer payload =>
      simp [render, h, Valid, bind_ok, map_ok, hjson, ← summarize_eq_ok]

/-- An event with a valid payload is rendered, and not counted. -/
theorem renderEvent_eq_some {event : Event} {payload : MonitorEvent} (fullEvents : Bool)
    (invalidEventCount : ℕ) (hpayload : event.monitorEvent = some payload) (hvalid : Valid payload) :
    ∃ rendered, renderEvent event fullEvents invalidEventCount = (some rendered, invalidEventCount) := by
  have hrendered : ∃ rendered, render event fullEvents = .ok rendered :=
    render_eq_ok.mpr ⟨payload, hpayload, hvalid⟩
  obtain ⟨rendered, h⟩ := hrendered
  exact ⟨rendered, by simp [renderEvent, h]⟩

end

end Bip300Monitor.EventLogger
