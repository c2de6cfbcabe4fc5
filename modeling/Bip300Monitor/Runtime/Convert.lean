import Bip300Monitor.Backfill.Pages

/-!
# Converting upstream answers

`extractors/enforcer/src/convert.rs`: the fallible conversions from the upstream
validator API to monitor events, over the messages of its protobuf schema
(`proto/upstream/cusf/mainchain/v1/validator.proto`). A field the schema wraps is
optional on the wire, and a converter that needs it rejects the message without it.

## What is proved

* `convertEach_eq_ok` — a converted list has the converted items, in their order;
* `activeSidechain_eq_ok`, `sidechainProposal_texts` — what the accepted messages say is
  what the payloads say;
* `blockHeader_eq_ok` — a converted header has hashes of 32 bytes.
-/

namespace Bip300Monitor

open Protobuf

/-! ### The upstream messages -/

namespace Mainchain

/-- The three wrappers of hexadecimal text: consensus bytes, raw bytes, and a hash in
display order. -/
structure HexText where
  hex : Option String
  deriving DecidableEq, Repr

structure BlockHeaderInfo where
  blockHash : Option HexText
  prevBlockHash : Option HexText
  height : ℕ
  work : Option HexText
  timestamp : ℕ
  deriving DecidableEq, Repr

structure SidechainDeclarationV0 where
  title : Option String
  description : Option String
  hashId1 : Option HexText
  hashId2 : Option HexText
  deriving DecidableEq, Repr

/-- The declaration oneof has one version. -/
structure SidechainDeclaration where
  sidechainDeclaration : Option SidechainDeclarationV0
  deriving DecidableEq, Repr

structure SidechainProposal where
  sidechainNumber : Option ℕ
  description : Option HexText
  declaration : Option SidechainDeclaration
  descriptionSha256dHash : Option HexText
  voteCount : Option ℕ
  proposalHeight : Option ℕ
  proposalAge : Option ℕ
  deriving DecidableEq, Repr

structure SidechainInfo where
  sidechainNumber : Option ℕ
  description : Option HexText
  voteCount : Option ℕ
  proposalHeight : Option ℕ
  activationHeight : Option ℕ
  declaration : Option SidechainDeclaration
  deriving DecidableEq, Repr

structure Ctip where
  txid : Option HexText
  vout : ℕ
  value : ℕ
  sequenceNumber : ℕ
  deriving DecidableEq, Repr

/-- `GetWithdrawalBundleProposalsResponse.ResponseItem`. -/
structure ResponseItem where
  m6id : Option HexText
  voteCount : Option ℕ
  proposalHeight : Option ℕ
  deriving DecidableEq, Repr

structure OutPoint where
  txid : Option HexText
  vout : Option ℕ
  deriving DecidableEq, Repr

structure Output where
  address : Option HexText
  valueSats : Option ℕ
  deriving DecidableEq, Repr

structure Deposit where
  sequenceNumber : Option ℕ
  outpoint : Option OutPoint
  output : Option Output
  deriving DecidableEq, Repr

/-- The states of a withdrawal bundle's event. -/
inductive BundleEvent where
  | failed
  | succeeded (sequenceNumber : Option ℕ) (transaction : Option HexText)
  | submitted
  deriving DecidableEq, Repr

structure WithdrawalBundleEvent where
  m6id : Option HexText
  /-- The message, and in it the oneof. -/
  event : Option (Option BundleEvent)
  deriving DecidableEq, Repr

inductive BlockEvent where
  | deposit (deposit : Deposit)
  | withdrawalBundle (event : WithdrawalBundleEvent)
  deriving DecidableEq, Repr

structure BlockInfo where
  bmmCommitment : Option HexText
  events : List (Option BlockEvent)
  deriving DecidableEq, Repr

/-- `GetBlockInfoResponse.Info`. -/
structure Info where
  headerInfo : Option BlockHeaderInfo
  blockInfo : Option BlockInfo
  deriving DecidableEq, Repr

/-- The oneof of a subscription's event. -/
inductive StreamEvent where
  | connectBlock (headerInfo : Option BlockHeaderInfo) (blockInfo : Option BlockInfo)
  | disconnectBlock (blockHash : Option HexText)
  deriving DecidableEq, Repr

/-- `SubscribeEventsResponse`: the event, and in it the oneof. -/
structure SubscribeEventsResponse where
  event : Option (Option StreamEvent)
  deriving DecidableEq, Repr

/-- The networks that the vendored schema defines, by their numbers. -/
inductive Network where
  | unspecified | unknown | mainnet | regtest | signet | testnet
  deriving DecidableEq, Repr

/-- `Network::try_from`. -/
def Network.ofNumber : ℤ → Option Network
  | 0 => some .unspecified
  | 1 => some .unknown
  | 2 => some .mainnet
  | 3 => some .regtest
  | 4 => some .signet
  | 5 => some .testnet
  | _ => none

structure GetChainInfoResponse where
  network : ℤ
  /-- The fields of the two schemas are the same. -/
  bip300Constants : Option Bip300Constants
  deriving DecidableEq, Repr

/-- `GetSeenBmmRequestsResponse.BmmRequest`. -/
structure BmmRequest where
  sidechainNumber : ℕ
  txid : Option HexText
  criticalHash : Option HexText
  bidSats : ℕ
  deriving DecidableEq, Repr

end Mainchain

namespace Convert

open Mainchain (HexText)

/-! ### Fields -/

/-- `required`. -/
def required {α : Type} (value : Option α) (field : String) : Result α :=
  match value with
  | some a => .ok a
  | none => .error (.bail ("missing required field `" ++ field ++ "`"))

/-- The value of a hexadecimal digit, in either case. -/
def hexValue (b : UInt8) : Option ℕ :=
  if 48 ≤ b ∧ b ≤ 57 then some (b.toNat - 48)
  else if 65 ≤ b ∧ b ≤ 70 then some (b.toNat - 55)
  else if 97 ≤ b ∧ b ≤ 102 then some (b.toNat - 87)
  else none

/-- `char::escape_debug` of the character with the value of the byte. -/
def escapeDebug (b : UInt8) : String :=
  if b = 0 then "\\0"
  else if b = 9 then "\\t"
  else if b = 10 then "\\n"
  else if b = 13 then "\\r"
  else if b = 39 then "\\'"
  else if b = 92 then "\\\\"
  else if b < 32 ∨ (127 ≤ b ∧ b ≤ 160) ∨ b = 173 then
    "\\u\x7b" ++ String.ofList (Nat.toDigits 16 b.toNat) ++ "\x7d"
  else String.singleton (Char.ofNat b.toNat)

/-- A digit at a position of the text. -/
def hexDigit (b : UInt8) (position : ℕ) : Result ℕ :=
  match hexValue b with
  | some n => .ok n
  | none => .error (.bail ("Invalid character '" ++ escapeDebug b ++ "' at position " ++
      toString position))

/-- The bytes of an even number of digits, from a position on. -/
def hexPairs : ℕ → List UInt8 → Result Bytes
  | position, high :: low :: rest => do
    let high ← hexDigit high position
    let low ← hexDigit low (position + 1)
    let bytes ← hexPairs (position + 2) rest
    pure (UInt8.ofNat (high * 16 + low) :: bytes)
  | _, _ => .ok []

/-- `hex::decode`. -/
def hexDecode (text : String) : Result Bytes :=
  let digits := text.toUTF8.data.toList
  if digits.length % 2 = 0 then hexPairs 0 digits
  else .error (.bail "Odd number of digits")

/-- `decode_hex`. -/
def decodeHex (value : String) (field : String) : Result Bytes :=
  (hexDecode value).context ("decoding `" ++ field ++ "` as hex")

/-- `require_32_bytes`. -/
def require32Bytes (value : Bytes) (field : String) : Result Bytes :=
  if value.length = 32 then .ok value
  else .error (.bail ("`" ++ field ++ "` must contain exactly 32 bytes, got " ++
    toString value.length))

/-- `consensus_hex` and `raw_hex`. -/
def consensusHex (value : Option HexText) (field : String) : Result Bytes := do
  let value ← required value field
  let text ← required value.hex field
  decodeHex text field

/-- `fixed_consensus_hex`. -/
def fixedConsensusHex (value : Option HexText) (field : String) : Result Bytes := do
  let bytes ← consensusHex value field
  require32Bytes bytes field

/-- `hash_from_reverse`. -/
def hashFromReverse (value : Option HexText) (field : String) : Result Bytes := do
  let value ← required value field
  let text ← required value.hex field
  let bytes ← decodeHex text field
  require32Bytes bytes field

/-- `m6id_display`. -/
def m6idDisplay (value : Option HexText) (field : String) : Result Bytes := do
  let bytes ← fixedConsensusHex value field
  pure bytes.reverse

/-- `slot`. -/
def slot (value : ℕ) (field : String) : Result ℕ :=
  if value > 255 then
    .error (.bail ("invalid sidechain slot in " ++ field ++ ": " ++ toString value))
  else .ok value

/-- The conversion of a repeated field: the first item that fails names its index. -/
def convertEach {α β : Type} (what : String) (convert : α → Result β) (items : List α) :
    Result (List β) :=
  items.zipIdx.mapM fun item =>
    (convert item.1).context ("converting " ++ what ++ " at index " ++ toString item.2)

/-! ### Headers and tips -/

/-- `block_header`: the official enforcer reports the work of the block only. -/
def blockHeader (header : Mainchain.BlockHeaderInfo) : Result BlockHeader := do
  let hash ← hashFromReverse header.blockHash "block_header.block_hash"
  let previousHash ← hashFromReverse header.prevBlockHash "block_header.prev_block_hash"
  let blockWork ← fixedConsensusHex header.work "block_header.work"
  pure ⟨hash, previousHash, header.height, blockWork, [], header.timestamp⟩

/-- `chain_tip`. -/
def chainTip (response : Option Mainchain.BlockHeaderInfo) : Result ChainTip := do
  let info ← required response "chain_tip.block_header_info"
  let header ← blockHeader info
  pure ⟨some header⟩

/-- `network`: a number that the vendored schema does not define is survived. -/
def network (value : ℤ) : ℤ :=
  match Mainchain.Network.ofNumber value with
  | none => 1
  | some .unspecified => 0
  | some .unknown => 1
  | some .mainnet => 2
  | some .regtest => 3
  | some .signet => 4
  | some .testnet => 5

/-- `chain_info`. -/
def chainInfo (response : Mainchain.GetChainInfoResponse) : Result ChainInfo := do
  let constants ← required response.bip300Constants "chain_info.bip300_constants"
  pure ⟨network response.network, some constants, response.network⟩

/-! ### The auction -/

/-- One request of `bmm_requests`. -/
def bmmRequest (request : Mainchain.BmmRequest) (index : ℕ) : Result BmmRequest := do
  if request.sidechainNumber > 255 then
    .error (.bail ("BMM request at index " ++ toString index ++ " has invalid sidechain slot " ++
      toString request.sidechainNumber))
  else do
    let sidechainNumber ← slot request.sidechainNumber "request.sidechain_number"
    let txid ← hashFromReverse request.txid "bmm_request.txid"
    let criticalHash ← fixedConsensusHex request.criticalHash "bmm_request.critical_hash"
    pure ⟨sidechainNumber, txid, criticalHash, request.bidSats⟩

/-- The first request that repeats the slot and the transaction of one before it. -/
def duplicateRequest : List (ℕ × Bytes) → List BmmRequest → Option BmmRequest
  | _, [] => none
  | identities, r :: rest =>
    if (r.sidechainNumber, r.txid) ∈ identities then some r
    else duplicateRequest ((r.sidechainNumber, r.txid) :: identities) rest

/-- The order of a sample: by slot, then the richest bid first, then by transaction. -/
def requestLe (left right : BmmRequest) : Bool :=
  left.sidechainNumber < right.sidechainNumber ∨
    (left.sidechainNumber = right.sidechainNumber ∧
      (right.bidSats < left.bidSats ∨ (left.bidSats = right.bidSats ∧ left.txid ≤ right.txid)))

/-- `bmm_requests`. -/
def bmmRequests (previousMainchainBlockHash : Bytes) (response : List Mainchain.BmmRequest) :
    Result BmmRequestsSnapshot := do
  let previous ← require32Bytes previousMainchainBlockHash
    "bmm_requests.previous_mainchain_block_hash"
  let requests ← response.zipIdx.mapM fun item => bmmRequest item.1 item.2
  match duplicateRequest [] requests with
  | some r => .error (.bail ("duplicate BMM request for slot " ++ toString r.sidechainNumber ++
      " and txid " ++ hexEncode r.txid))
  | none => pure ⟨previous, requests.mergeSort requestLe⟩

/-! ### Blocks of a slot -/

/-- `deposit_event`. -/
def depositEvent (deposit : Mainchain.Deposit) : Result Deposit := do
  let outpoint ← required deposit.outpoint "deposit.outpoint"
  let output ← required deposit.output "deposit.output"
  let sequenceNumber ← required deposit.sequenceNumber "deposit.sequence_number"
  let txid ← hashFromReverse outpoint.txid "deposit.outpoint.txid"
  let vout ← required outpoint.vout "deposit.outpoint.vout"
  let address ← consensusHex output.address "deposit.output.address"
  let valueSats ← required output.valueSats "deposit.output.value_sats"
  pure ⟨sequenceNumber, some ⟨txid, vout⟩, address, valueSats⟩

/-- The state of a withdrawal bundle's event. -/
def bundleState : Mainchain.BundleEvent → Result WithdrawalBundleState
  | .submitted => .ok .submitted
  | .failed => .ok .failed
  | .succeeded sequenceNumber transaction => do
    let sequenceNumber ← required sequenceNumber "withdrawal_bundle.succeeded.sequence_number"
    let transaction ← consensusHex transaction "withdrawal_bundle.succeeded.transaction"
    pure (.succeeded sequenceNumber transaction)

/-- `withdrawal_event`. -/
def withdrawalEvent (withdrawal : Mainchain.WithdrawalBundleEvent) :
    Result WithdrawalBundleEvent := do
  let event ← required withdrawal.event "withdrawal_bundle.event"
  let event ← required event "withdrawal_bundle.event.event"
  let state ← bundleState event
  let m6id ← m6idDisplay withdrawal.m6id "withdrawal_bundle.m6id"
  pure ⟨m6id, some state⟩

/-- `sidechain_event`. -/
def sidechainEvent (event : Option Mainchain.BlockEvent) : Result (Option SidechainEvent) := do
  let event ← required event "block_info.event.event"
  match event with
  | .deposit deposit => do
    let deposit ← depositEvent deposit
    pure (some (.deposit deposit))
  | .withdrawalBundle withdrawal => do
    let withdrawal ← withdrawalEvent withdrawal
    pure (some (.withdrawalBundle withdrawal))

/-- `connected_block`. -/
def connectedBlock (sidechainNumber : ℕ) (header : Mainchain.BlockHeaderInfo)
    (info : Mainchain.BlockInfo) : Result EnforcerEvent := do
  let bmmCommitment ← Result.transpose (info.bmmCommitment.map fun value =>
    fixedConsensusHex (some value) "block_info.bmm_commitment")
  let events ← convertEach "sidechain event" sidechainEvent info.events
  let header ← blockHeader header
  pure (.blockConnected ⟨some header, sidechainNumber, bmmCommitment, events⟩)

/-- `block_info`, newest first as upstream answers. -/
def blockInfo (sidechainNumber : ℕ) (infos : List Mainchain.Info) :
    Result (List EnforcerEvent) :=
  infos.zipIdx.mapM fun item => do
    let header ← required item.1.headerInfo "block_info.infos[].header_info"
    let info ← required item.1.blockInfo "block_info.infos[].block_info"
    (connectedBlock sidechainNumber header info).context
      ("converting block info at index " ++ toString item.2)

/-- `subscription_event`. -/
def subscriptionEvent (sidechainNumber : ℕ) (response : Mainchain.SubscribeEventsResponse) :
    Result EnforcerEvent := do
  let event ← required response.event "subscribe_events.event"
  let event ← required event "subscribe_events.event.event"
  match event with
  | .connectBlock headerInfo blockInfo => do
    let header ← required headerInfo "connect_block.header_info"
    let info ← required blockInfo "connect_block.block_info"
    connectedBlock sidechainNumber header info
  | .disconnectBlock hash => do
    let blockHash ← hashFromReverse hash "disconnect_block.block_hash"
    pure (.blockDisconnected ⟨blockHash, sidechainNumber⟩)

/-! ### State -/

/-- `sidechain_declaration`. -/
def sidechainDeclaration (declaration : Mainchain.SidechainDeclaration) :
    Result SidechainDeclaration := do
  let v0 ← required declaration.sidechainDeclaration "sidechain_declaration.sidechain_declaration"
  let title ← required v0.title "sidechain_declaration.v0.title"
  let description ← required v0.description "sidechain_declaration.v0.description"
  let hashId1 ← consensusHex v0.hashId1 "sidechain_declaration.v0.hash_id_1"
  let hashId2 ← consensusHex v0.hashId2 "sidechain_declaration.v0.hash_id_2"
  pure ⟨some ⟨title, description, hashId1, hashId2⟩⟩

/-- `ctip_value`. -/
def ctipValue (ctip : Mainchain.Ctip) : Result Ctip := do
  let txid ← hashFromReverse ctip.txid "ctip.txid"
  pure ⟨txid, ctip.vout, ctip.value, ctip.sequenceNumber⟩

/-- `ctip`. -/
def ctip (sidechainNumber : ℕ) (response : Option Mainchain.Ctip) : Result EnforcerEvent := do
  let ctip ← Result.transpose (response.map ctipValue)
  pure (.ctip ⟨sidechainNumber, ctip⟩)

/-- `withdrawal_bundle_proposal`. -/
def withdrawalBundleProposal (proposal : Mainchain.ResponseItem) :
    Result WithdrawalBundleProposal := do
  let m6id ← m6idDisplay proposal.m6id "withdrawal_bundle_proposal.m6id"
  let voteCount ← required proposal.voteCount "withdrawal_bundle_proposal.vote_count"
  let proposalHeight ← required proposal.proposalHeight "withdrawal_bundle_proposal.proposal_height"
  pure ⟨m6id, voteCount, proposalHeight⟩

/-- `withdrawal_bundle_proposals`. -/
def withdrawalBundleProposals (sidechainNumber : ℕ) (response : List Mainchain.ResponseItem) :
    Result EnforcerEvent := do
  let proposals ← convertEach "withdrawal bundle proposal" withdrawalBundleProposal response
  pure (.withdrawalBundleProposals ⟨sidechainNumber, proposals⟩)

section
variable [Digests]

/-- `validate_description_hash`. -/
def validateDescriptionHash (encodedDescription reportedHash : Bytes) (field : String) :
    Result Unit := do
  let calculated ← (sidechainDescriptionHash encodedDescription).context
    ("calculating " ++ field ++ ".description_hash")
  if calculated ≠ reportedHash then
    .error (.bail ("`" ++ field ++ ".description_hash` is " ++ hexEncode reportedHash ++
      ", calculated " ++ hexEncode calculated))
  else .ok ()

/-- `sidechain_proposal`. -/
def sidechainProposal (proposal : Mainchain.SidechainProposal) : Result SidechainProposal := do
  let rawDescription ← consensusHex proposal.description "sidechain_proposal.description"
  let descriptionHash ← hashFromReverse proposal.descriptionSha256dHash
    "sidechain_proposal.description_sha256d_hash"
  validateDescriptionHash rawDescription descriptionHash "sidechain_proposal"
  let number ← required proposal.sidechainNumber "sidechain_proposal.sidechain_number"
  let sidechainNumber ← slot number "sidechain_proposal.sidechain_number"
  let voteCount ← required proposal.voteCount "sidechain_proposal.vote_count"
  let proposalHeight ← required proposal.proposalHeight "sidechain_proposal.proposal_height"
  let proposalAge ← required proposal.proposalAge "sidechain_proposal.proposal_age"
  let declaration ← Result.transpose (proposal.declaration.map sidechainDeclaration)
  pure ⟨sidechainNumber, rawDescription, descriptionHash, voteCount, proposalHeight, proposalAge,
    declaration⟩

/-- `sidechain_proposals`. -/
def sidechainProposals (response : List Mainchain.SidechainProposal) :
    Result (List SidechainProposal) :=
  convertEach "sidechain proposal" sidechainProposal response

/-- `active_sidechain`. -/
def activeSidechain (sidechain : Mainchain.SidechainInfo) : Result ActiveSidechain := do
  let rawDescription ← consensusHex sidechain.description "active_sidechain.description"
  let descriptionHash ← (sidechainDescriptionHash rawDescription).context
    "calculating active_sidechain.description_hash"
  let number ← required sidechain.sidechainNumber "active_sidechain.sidechain_number"
  let sidechainNumber ← slot number "active_sidechain.sidechain_number"
  let voteCount ← required sidechain.voteCount "active_sidechain.vote_count"
  let proposalHeight ← required sidechain.proposalHeight "active_sidechain.proposal_height"
  let activationHeight ← required sidechain.activationHeight "active_sidechain.activation_height"
  let declaration ← Result.transpose (sidechain.declaration.map sidechainDeclaration)
  pure ⟨sidechainNumber, rawDescription, voteCount, proposalHeight, activationHeight, declaration,
    descriptionHash⟩

/-- `active_sidechains`. -/
def activeSidechains (response : List Mainchain.SidechainInfo) : Result (List ActiveSidechain) :=
  convertEach "active sidechain" activeSidechain response

end

/-! ### What the accepted messages say -/

@[simp] theorem required_eq_ok {α : Type} {value : Option α} {field : String} {a : α} :
    required value field = .ok a ↔ value = some a := by
  cases value <;> simp [required]

@[simp] theorem require32Bytes_eq_ok {value bytes : Bytes} {field : String} :
    require32Bytes value field = .ok bytes ↔ value.length = 32 ∧ value = bytes := by
  by_cases h : value.length = 32 <;> simp [require32Bytes, h]

theorem hashFromReverse_length {value : Option HexText} {field : String} {hash : Bytes}
    (h : hashFromReverse value field = .ok hash) : hash.length = 32 := by
  obtain ⟨_, -, h⟩ := Result.bind_eq_ok.mp h
  obtain ⟨_, -, h⟩ := Result.bind_eq_ok.mp h
  obtain ⟨_, -, h⟩ := Result.bind_eq_ok.mp h
  obtain ⟨hlength, rfl⟩ := require32Bytes_eq_ok.mp h
  exact hlength

@[simp] theorem slot_eq_ok {value n : ℕ} {field : String} :
    slot value field = .ok n ↔ value ≤ 255 ∧ value = n := by
  by_cases h : value > 255
  · simp [slot, h]
  · simp [slot, h]
    omega

/-- A converted list has the converted items, in their order. -/
theorem convertEach_eq_ok {α β : Type} {what : String} {convert : α → Result β} {items : List α}
    {converted : List β} : convertEach what convert items = .ok converted ↔
      List.Forall₂ (fun a b => convert a = .ok b) items converted := by
  have hfst : items.zipIdx.map (·.1) = items := by simp
  conv_rhs => rw [← hfst, List.forall₂_map_left_iff]
  simp only [convertEach, Backfill.mapM_eq_ok, Result.context_eq_ok]

/-- A converted header keeps its height, and its hashes have 32 bytes. -/
theorem blockHeader_eq_ok {header : Mainchain.BlockHeaderInfo} {converted : BlockHeader}
    (h : blockHeader header = .ok converted) :
    converted.hash.length = 32 ∧ converted.previousHash.length = 32 ∧
      converted.height = header.height := by
  obtain ⟨hash, hhash, h⟩ := Result.bind_eq_ok.mp h
  obtain ⟨previousHash, hprevious, h⟩ := Result.bind_eq_ok.mp h
  obtain ⟨work, -, h⟩ := Result.bind_eq_ok.mp h
  obtain rfl := Result.pure_eq_ok.mp h
  exact ⟨hashFromReverse_length hhash, hashFromReverse_length hprevious, rfl⟩

/-- The text fields of a declaration. -/
def declarationTexts (declaration : Option Mainchain.SidechainDeclaration) : List String :=
  match declaration.bind (·.sidechainDeclaration) with
  | some v0 => v0.title.toList ++ v0.description.toList
  | none => []

/-- An accepted declaration has the texts it came with. -/
theorem sidechainDeclaration_texts {declaration : Option Mainchain.SidechainDeclaration}
    {converted : Option SidechainDeclaration}
    (h : Result.transpose (declaration.map sidechainDeclaration) = .ok converted) :
    converted.toList.flatMap SidechainDeclaration.texts = declarationTexts declaration := by
  rcases Result.transpose_map_eq_ok.mp h with ⟨rfl, rfl⟩ | ⟨d, c, rfl, hc, rfl⟩
  · rfl
  · obtain ⟨v0, hv0, hc⟩ := Result.bind_eq_ok.mp hc
    obtain ⟨title, htitle, hc⟩ := Result.bind_eq_ok.mp hc
    obtain ⟨description, hdescription, hc⟩ := Result.bind_eq_ok.mp hc
    obtain ⟨_, -, hc⟩ := Result.bind_eq_ok.mp hc
    obtain ⟨_, -, hc⟩ := Result.bind_eq_ok.mp hc
    obtain rfl := Result.pure_eq_ok.mp hc
    simp only [required_eq_ok] at hv0 htitle hdescription
    simp [declarationTexts, SidechainDeclaration.texts, hv0, htitle, hdescription]

section
variable [Digests]

/-- An accepted proposal has the texts it came with. -/
theorem sidechainProposal_texts {proposal : Mainchain.SidechainProposal}
    {converted : SidechainProposal} (h : sidechainProposal proposal = .ok converted) :
    converted.declaration.toList.flatMap SidechainDeclaration.texts =
      declarationTexts proposal.declaration := by
  obtain ⟨_, -, h⟩ := Result.bind_eq_ok.mp h
  obtain ⟨_, -, h⟩ := Result.bind_eq_ok.mp h
  obtain ⟨_, -, h⟩ := Result.bind_eq_ok.mp h
  obtain ⟨_, -, h⟩ := Result.bind_eq_ok.mp h
  obtain ⟨_, -, h⟩ := Result.bind_eq_ok.mp h
  obtain ⟨_, -, h⟩ := Result.bind_eq_ok.mp h
  obtain ⟨_, -, h⟩ := Result.bind_eq_ok.mp h
  obtain ⟨_, -, h⟩ := Result.bind_eq_ok.mp h
  obtain ⟨declaration, hdeclaration, h⟩ := Result.bind_eq_ok.mp h
  obtain rfl := Result.pure_eq_ok.mp h
  exact sidechainDeclaration_texts hdeclaration

/-- An accepted active sidechain has the heights and the texts it came with. -/
theorem activeSidechain_eq_ok {sidechain : Mainchain.SidechainInfo} {converted : ActiveSidechain}
    (h : activeSidechain sidechain = .ok converted) :
    sidechain.proposalHeight = some converted.proposalHeight ∧
      sidechain.activationHeight = some converted.activationHeight ∧
      converted.declaration.toList.flatMap SidechainDeclaration.texts =
        declarationTexts sidechain.declaration := by
  obtain ⟨_, -, h⟩ := Result.bind_eq_ok.mp h
  obtain ⟨_, -, h⟩ := Result.bind_eq_ok.mp h
  obtain ⟨_, -, h⟩ := Result.bind_eq_ok.mp h
  obtain ⟨_, -, h⟩ := Result.bind_eq_ok.mp h
  obtain ⟨_, -, h⟩ := Result.bind_eq_ok.mp h
  obtain ⟨proposalHeight, hproposal, h⟩ := Result.bind_eq_ok.mp h
  obtain ⟨activationHeight, hactivation, h⟩ := Result.bind_eq_ok.mp h
  obtain ⟨declaration, hdeclaration, h⟩ := Result.bind_eq_ok.mp h
  obtain rfl := Result.pure_eq_ok.mp h
  exact ⟨required_eq_ok.mp hproposal, required_eq_ok.mp hactivation,
    sidechainDeclaration_texts hdeclaration⟩

end

end Convert

end Bip300Monitor
