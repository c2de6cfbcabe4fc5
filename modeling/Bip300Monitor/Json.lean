import Mathlib.Data.List.Basic
import Bip300Monitor.Failure
import Bip300Monitor.Protobuf

/-!
# Events as JSON

`shared/src/json.rs`: the value that serde makes of an event, and the walk that renders its byte
fields as hexadecimal text. The walk has no types to go by, and knows the byte fields by their names.

The fields of an object stand in the order of the schema. The text of a value is the JSON library's.

## What is proved

* `encodes_object_cons` — an object is rendered if the fields with these names hold bytes or nothing, and
  the others are rendered;
* `encodes_event` — so every event is.
-/

namespace Bip300Monitor

/-- `serde_json::Value`. -/
inductive Json where
  | null
  | number (n : ℤ)
  | string (s : String)
  | array (values : List Json)
  | object (entries : List (String × Json))

namespace Json

/-! ### The walk -/

/-- `BYTE_FIELDS`. -/
def byteFields : List String :=
  ["raw_block", "address", "block_hash", "bmm_commitment", "cumulative_work", "block_work",
    "critical_hash", "description_hash", "hash", "hash_id_1", "hash_id_2", "m6id", "previous_hash",
    "previous_mainchain_block_hash", "raw_description", "transaction", "txid"]

/-- One byte of `encode_bytes`. -/
def encodeByte (field : String) : Json → Result UInt8
  | .number (.ofNat n) => do
    let byte ← (narrow 255 n).context ("`" ++ field ++ "` contains a byte outside 0..=255")
    pure (UInt8.ofNat byte)
  | _ => .error (.bail ("`" ++ field ++ "` contains a non-numeric byte"))

/-- `encode_bytes`. -/
def encodeBytes (value : Json) (field : String) : Result Json :=
  match value with
  | .null => .ok .null
  | .array values => do
    let bytes ← values.mapM (encodeByte field)
    pure (.string (hexEncode bytes))
  | _ => .error (.bail ("`" ++ field ++ "` is not a byte array"))

mutual

/-- `encode_byte_fields`. -/
def encodeByteFields : Json → Result Json
  | .array values => do
    let values ← encodeValues values
    pure (.array values)
  | .object entries => do
    let entries ← encodeEntries entries
    pure (.object entries)
  | .null => .ok .null
  | .number n => .ok (.number n)
  | .string s => .ok (.string s)

def encodeValues : List Json → Result (List Json)
  | [] => .ok []
  | value :: rest => do
    let value ← encodeByteFields value
    let rest ← encodeValues rest
    pure (value :: rest)

def encodeEntries : List (String × Json) → Result (List (String × Json))
  | [] => .ok []
  | (key, value) :: rest => do
    let value ← (if key ∈ byteFields then encodeBytes value key else encodeByteFields value :
      Result Json)
    let rest ← encodeEntries rest
    pure ((key, value) :: rest)

end

/-! ### What is rendered -/

/-- The walk succeeds. -/
def Encodes (value : Json) : Prop := ∃ encoded, encodeByteFields value = .ok encoded

/-- What serde makes of a byte vector. -/
def bytes (value : Bytes) : Json := .array (value.map fun b => .number b.toNat)

/-- What serde makes of an optional field. -/
def option {α : Type} (f : α → Json) (value : Option α) : Json := value.elim .null f

theorem encodeBytes_bytes (value : Bytes) (field : String) :
    encodeBytes (bytes value) field = .ok (.string (hexEncode value)) := by
  have hmap : (value.map fun b => Json.number b.toNat).mapM (encodeByte field) = .ok value := by
    induction value with
    | nil => rfl
    | cons b rest ih =>
      rw [List.map_cons, List.mapM_cons, ih]
      have hbyte : encodeByte field (.number b.toNat) = .ok b := by
        have hle : b.toNat ≤ 255 := Nat.le_of_lt_succ b.toNat_lt
        simp only [encodeByte, narrow, hle, if_true]
        change Except.ok (UInt8.ofNat b.toNat) = _
        simp
      rw [hbyte]
      rfl
  rw [bytes, encodeBytes, hmap]
  rfl

@[simp] theorem encodes_null : Encodes .null := ⟨_, rfl⟩

@[simp] theorem encodes_number (n : ℤ) : Encodes (.number n) := ⟨_, rfl⟩

@[simp] theorem encodes_string (s : String) : Encodes (.string s) := ⟨_, rfl⟩

/-- A byte field is rendered. -/
def EncodesBytes (key : String) (value : Json) : Prop := ∃ encoded, encodeBytes value key = .ok encoded

@[simp] theorem encodesBytes_bytes (key : String) (value : Bytes) : EncodesBytes key (bytes value) :=
  ⟨_, encodeBytes_bytes value key⟩

@[simp] theorem encodesBytes_option (key : String) (value : Option Bytes) :
    EncodesBytes key (option bytes value) := by
  cases value with
  | none => exact ⟨.null, rfl⟩
  | some value => exact encodesBytes_bytes key value

@[simp] theorem encodes_array {values : List Json} :
    Encodes (.array values) ↔ ∀ value ∈ values, Encodes value := by
  have hvalues : (∃ encoded, encodeValues values = .ok encoded) ↔ ∀ value ∈ values, Encodes value := by
    induction values with
    | nil => simp [encodeValues]
    | cons value rest ih =>
      rw [List.forall_mem_cons, ← ih]
      simp only [encodeValues, Result.bind_eq_ok, Result.pure_eq_ok, Encodes]
      constructor
      · rintro ⟨_, encoded, hvalue, others, hrest, -⟩
        exact ⟨⟨encoded, hvalue⟩, others, hrest⟩
      · rintro ⟨⟨encoded, hvalue⟩, others, hrest⟩
        exact ⟨_, encoded, hvalue, others, hrest, rfl⟩
  rw [← hvalues]
  constructor
  · rintro ⟨_, h⟩
    obtain ⟨encoded, hencoded, -⟩ := Result.bind_eq_ok.mp h
    exact ⟨encoded, hencoded⟩
  · rintro ⟨encoded, hencoded⟩
    exact ⟨.array encoded, Result.bind_eq_ok.mpr ⟨encoded, hencoded, rfl⟩⟩

theorem encodes_object {entries : List (String × Json)} :
    Encodes (.object entries) ↔ ∃ encoded, encodeEntries entries = .ok encoded := by
  constructor
  · rintro ⟨_, h⟩
    obtain ⟨encoded, hencoded, -⟩ := Result.bind_eq_ok.mp h
    exact ⟨encoded, hencoded⟩
  · rintro ⟨encoded, hencoded⟩
    exact ⟨.object encoded, Result.bind_eq_ok.mpr ⟨encoded, hencoded, rfl⟩⟩

@[simp] theorem encodes_object_nil : Encodes (.object []) := ⟨_, rfl⟩

@[simp] theorem encodes_object_cons {key : String} {value : Json} {rest : List (String × Json)} :
    Encodes (.object ((key, value) :: rest)) ↔
      (if key ∈ byteFields then EncodesBytes key value else Encodes value) ∧ Encodes (.object rest) := by
  have hfield : (∃ encoded, (if key ∈ byteFields then encodeBytes value key
      else encodeByteFields value) = .ok encoded) ↔
      if key ∈ byteFields then EncodesBytes key value else Encodes value := by
    split_ifs
    · rfl
    · rfl
  rw [encodes_object, encodes_object, ← hfield]
  simp only [encodeEntries, Result.bind_eq_ok, Result.pure_eq_ok]
  constructor
  · rintro ⟨_, encoded, hvalue, others, hrest, -⟩
    exact ⟨⟨encoded, hvalue⟩, others, hrest⟩
  · rintro ⟨⟨encoded, hvalue⟩, others, hrest⟩
    exact ⟨_, encoded, hvalue, others, hrest, rfl⟩

@[simp] theorem encodes_option {α : Type} {f : α → Json} {value : Option α} :
    Encodes (option f value) ↔ ∀ a ∈ value, Encodes (f a) := by
  cases value with
  | none => simp [option]
  | some a => simp [option]

end Json

/-! ### What serde makes of the events -/

namespace Protobuf

open Json

def BlockHeader.toJson (h : BlockHeader) : Json :=
  .object [("hash", bytes h.hash), ("previous_hash", bytes h.previousHash),
    ("height", .number h.height), ("block_work", bytes h.blockWork),
    ("cumulative_work", bytes h.cumulativeWork), ("timestamp", .number h.timestamp)]

def Bip300Constants.toJson (c : Bip300Constants) : Json :=
  .object [("withdrawal_bundle_max_age", .number c.withdrawalBundleMaxAge),
    ("withdrawal_bundle_inclusion_threshold", .number c.withdrawalBundleInclusionThreshold),
    ("used_sidechain_slot_proposal_max_age", .number c.usedSidechainSlotProposalMaxAge),
    ("used_sidechain_slot_activation_threshold", .number c.usedSidechainSlotActivationThreshold),
    ("unused_sidechain_slot_proposal_max_age", .number c.unusedSidechainSlotProposalMaxAge),
    ("unused_sidechain_slot_activation_threshold", .number c.unusedSidechainSlotActivationThreshold),
    ("activation_height", .number c.activationHeight)]

def ChainInfo.toJson (info : ChainInfo) : Json :=
  .object [("network", .number info.network),
    ("bip300_constants", option Bip300Constants.toJson info.bip300Constants),
    ("raw_network", .number info.rawNetwork)]

def ChainTip.toJson (tip : ChainTip) : Json :=
  .object [("header", option BlockHeader.toJson tip.header)]

def BmmRequest.toJson (r : BmmRequest) : Json :=
  .object [("sidechain_number", .number r.sidechainNumber), ("txid", bytes r.txid),
    ("critical_hash", bytes r.criticalHash), ("bid_sats", .number r.bidSats)]

def BmmRequestsSnapshot.toJson (snapshot : BmmRequestsSnapshot) : Json :=
  .object [("previous_mainchain_block_hash", bytes snapshot.previousMainchainBlockHash),
    ("requests", .array (snapshot.requests.map BmmRequest.toJson))]

def SidechainDeclarationV0.toJson (d : SidechainDeclarationV0) : Json :=
  .object [("title", .string d.title), ("description", .string d.description),
    ("hash_id_1", bytes d.hashId1), ("hash_id_2", bytes d.hashId2)]

def SidechainDeclaration.toJson (d : SidechainDeclaration) : Json :=
  .object [("declaration", option (fun v0 => .object [("V0", v0.toJson)]) d.declaration)]

def SidechainProposal.toJson (p : SidechainProposal) : Json :=
  .object [("sidechain_number", .number p.sidechainNumber),
    ("raw_description", bytes p.rawDescription), ("description_hash", bytes p.descriptionHash),
    ("vote_count", .number p.voteCount), ("proposal_height", .number p.proposalHeight),
    ("proposal_age", .number p.proposalAge),
    ("declaration", option SidechainDeclaration.toJson p.declaration)]

def ActiveSidechain.toJson (s : ActiveSidechain) : Json :=
  .object [("sidechain_number", .number s.sidechainNumber),
    ("raw_description", bytes s.rawDescription), ("vote_count", .number s.voteCount),
    ("proposal_height", .number s.proposalHeight), ("activation_height", .number s.activationHeight),
    ("declaration", option SidechainDeclaration.toJson s.declaration),
    ("description_hash", bytes s.descriptionHash)]

def Ctip.toJson (c : Ctip) : Json :=
  .object [("txid", bytes c.txid), ("vout", .number c.vout), ("value_sats", .number c.valueSats),
    ("sequence_number", .number c.sequenceNumber)]

def CtipSnapshot.toJson (snapshot : CtipSnapshot) : Json :=
  .object [("sidechain_number", .number snapshot.sidechainNumber),
    ("ctip", option Ctip.toJson snapshot.ctip)]

def OutPoint.toJson (o : OutPoint) : Json :=
  .object [("txid", bytes o.txid), ("vout", .number o.vout)]

def Deposit.toJson (d : Deposit) : Json :=
  .object [("sequence_number", .number d.sequenceNumber),
    ("outpoint", option OutPoint.toJson d.outpoint), ("address", bytes d.address),
    ("value_sats", .number d.valueSats)]

def WithdrawalBundleState.toJson : WithdrawalBundleState → Json
  | .submitted => .object [("Submitted", .object [])]
  | .failed => .object [("Failed", .object [])]
  | .succeeded sequenceNumber transaction => .object [("Succeeded",
      .object [("sequence_number", .number sequenceNumber), ("transaction", bytes transaction)])]

def WithdrawalBundleEvent.toJson (e : WithdrawalBundleEvent) : Json :=
  .object [("m6id", bytes e.m6id), ("state", option WithdrawalBundleState.toJson e.state)]

def SidechainEvent.toJson : SidechainEvent → Json
  | .deposit d => .object [("Deposit", d.toJson)]
  | .withdrawalBundle event => .object [("WithdrawalBundle", event.toJson)]

def WithdrawalBundleProposal.toJson (p : WithdrawalBundleProposal) : Json :=
  .object [("m6id", bytes p.m6id), ("vote_count", .number p.voteCount),
    ("proposal_height", .number p.proposalHeight)]

def WithdrawalBundleProposalsSnapshot.toJson (snapshot : WithdrawalBundleProposalsSnapshot) : Json :=
  .object [("sidechain_number", .number snapshot.sidechainNumber),
    ("proposals", .array (snapshot.proposals.map WithdrawalBundleProposal.toJson))]

def BlockConnected.toJson (block : BlockConnected) : Json :=
  .object [("header", option BlockHeader.toJson block.header),
    ("sidechain_number", .number block.sidechainNumber),
    ("bmm_commitment", option bytes block.bmmCommitment),
    ("events", .array (block.events.map fun event =>
      .object [("event", option SidechainEvent.toJson event)]))]

def BlockDisconnected.toJson (block : BlockDisconnected) : Json :=
  .object [("block_hash", bytes block.blockHash), ("sidechain_number", .number block.sidechainNumber)]

def BlockRef.toJson (block : BlockRef) : Json :=
  .object [("hash", bytes block.hash), ("height", .number block.height)]

def MainchainTransition.toJson (t : MainchainTransition) : Json :=
  .object [("action", .number t.action), ("header", option BlockHeader.toJson t.header),
    ("gap_start", option BlockRef.toJson t.gapStart)]

def ConfirmedBmmFee.toJson (fee : ConfirmedBmmFee) : Json :=
  .object [("sidechain_number", .number fee.sidechainNumber), ("txid", bytes fee.txid),
    ("fee_sats", option (fun sats : ℕ => .number sats) fee.feeSats),
    ("unavailable_reason", .string fee.unavailableReason)]

def ConfirmedBmmFees.toJson (fees : ConfirmedBmmFees) : Json :=
  .object [("header", option BlockHeader.toJson fees.header),
    ("fees", .array (fees.fees.map ConfirmedBmmFee.toJson)), ("source", .string fees.source)]

def MainchainBlock.toJson (block : MainchainBlock) : Json :=
  .object [("header", option BlockHeader.toJson block.header), ("raw_block", bytes block.rawBlock)]

def EnforcerEvent.toJson : EnforcerEvent → Json
  | .chainInfo info => .object [("ChainInfo", info.toJson)]
  | .chainTip tip => .object [("ChainTip", tip.toJson)]
  | .sidechainProposals proposals => .object [("SidechainProposals",
      .object [("proposals", .array (proposals.map SidechainProposal.toJson))])]
  | .activeSidechains sidechains => .object [("ActiveSidechains",
      .object [("sidechains", .array (sidechains.map ActiveSidechain.toJson))])]
  | .ctip snapshot => .object [("Ctip", snapshot.toJson)]
  | .blockConnected block => .object [("BlockConnected", block.toJson)]
  | .blockDisconnected block => .object [("BlockDisconnected", block.toJson)]
  | .withdrawalBundleProposals snapshot => .object [("WithdrawalBundleProposals", snapshot.toJson)]
  | .bmmRequests snapshot => .object [("BmmRequests", snapshot.toJson)]
  | .mainchainTransition transition => .object [("MainchainTransition", transition.toJson)]

def NodeEvent.toJson : NodeEvent → Json
  | .mainchainBlock block => .object [("MainchainBlock", block.toJson)]
  | .chainTip tip => .object [("ChainTip", tip.toJson)]
  | .confirmedBmmFees fees => .object [("ConfirmedBmmFees", fees.toJson)]

def MonitorEvent.toJson : MonitorEvent → Json
  | .enforcer event => .object [("Enforcer", .object [("event", option EnforcerEvent.toJson event)])]
  | .node event => .object [("Node", .object [("event", option NodeEvent.toJson event)])]

def observedBlockJson (block : ObservedBlock) : Json :=
  .object [("hash", bytes block.hash), ("height", option (fun height : ℕ => .number height) block.height)]

def Event.toJson (event : Event) : Json :=
  .object [("timestamp", .number event.timestamp),
    ("observed_at_block", option observedBlockJson event.observedAtBlock),
    ("monitor_event", option MonitorEvent.toJson event.monitorEvent)]

/-! ### Every event is rendered -/

@[simp] theorem encodes_header (h : BlockHeader) : Encodes h.toJson := by
  simp [BlockHeader.toJson, byteFields]

@[simp] theorem encodes_declaration (d : SidechainDeclaration) : Encodes d.toJson := by
  simp [SidechainDeclaration.toJson, SidechainDeclarationV0.toJson, byteFields]

@[simp] theorem encodes_sidechainEvent (e : SidechainEvent) : Encodes e.toJson := by
  cases e with
  | deposit => simp [SidechainEvent.toJson, Deposit.toJson, OutPoint.toJson, byteFields]
  | withdrawalBundle event =>
    obtain ⟨m6id, state⟩ := event
    cases state with
    | none => simp [SidechainEvent.toJson, WithdrawalBundleEvent.toJson, byteFields]
    | some state =>
      cases state <;> simp [SidechainEvent.toJson, WithdrawalBundleEvent.toJson,
        WithdrawalBundleState.toJson, byteFields]

@[simp] theorem encodes_enforcerEvent (e : EnforcerEvent) : Encodes e.toJson := by
  cases e with
  | chainInfo info =>
    simp [EnforcerEvent.toJson, ChainInfo.toJson, Bip300Constants.toJson, byteFields]
  | chainTip tip => simp [EnforcerEvent.toJson, ChainTip.toJson, byteFields]
  | sidechainProposals proposals =>
    simp [EnforcerEvent.toJson, SidechainProposal.toJson, byteFields]
  | activeSidechains sidechains =>
    simp [EnforcerEvent.toJson, ActiveSidechain.toJson, byteFields]
  | ctip snapshot => simp [EnforcerEvent.toJson, CtipSnapshot.toJson, Ctip.toJson, byteFields]
  | blockConnected block => simp [EnforcerEvent.toJson, BlockConnected.toJson, byteFields]
  | blockDisconnected block => simp [EnforcerEvent.toJson, BlockDisconnected.toJson, byteFields]
  | withdrawalBundleProposals snapshot =>
    simp [EnforcerEvent.toJson, WithdrawalBundleProposalsSnapshot.toJson,
      WithdrawalBundleProposal.toJson, byteFields]
  | bmmRequests snapshot =>
    simp [EnforcerEvent.toJson, BmmRequestsSnapshot.toJson, BmmRequest.toJson, byteFields]
  | mainchainTransition transition =>
    simp [EnforcerEvent.toJson, MainchainTransition.toJson, BlockRef.toJson, byteFields]

@[simp] theorem encodes_nodeEvent (e : NodeEvent) : Encodes e.toJson := by
  cases e with
  | mainchainBlock block => simp [NodeEvent.toJson, MainchainBlock.toJson, byteFields]
  | chainTip tip => simp [NodeEvent.toJson, ChainTip.toJson, byteFields]
  | confirmedBmmFees fees =>
    simp [NodeEvent.toJson, ConfirmedBmmFees.toJson, ConfirmedBmmFee.toJson, byteFields]

/-- **Every event is rendered.** -/
theorem encodes_event (event : Event) : Encodes event.toJson := by
  have hpayload : ∀ payload : MonitorEvent, Encodes payload.toJson := by
    intro payload
    cases payload with
    | enforcer event => simp [MonitorEvent.toJson, byteFields]
    | node event => simp [MonitorEvent.toJson, byteFields]
  simp [Event.toJson, observedBlockJson, hpayload, byteFields]

end Protobuf

/-- `render` of `json.rs`; the value stands also for the line that `render_line` makes of it. -/
def Json.render (event : Protobuf.Event) : Result Json := encodeByteFields event.toJson

theorem Json.render_ok (event : Protobuf.Event) : ∃ value, Json.render event = .ok value :=
  Protobuf.encodes_event event

end Bip300Monitor
