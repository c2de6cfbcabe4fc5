import Mathlib.Data.Int.Notation
import Mathlib.Data.Nat.Notation

/-!
# Monitor events

The protobuf schema of the record (`proto/event.proto`,
`proto/enforcer_extractor.proto`): what an extractor observes, wrapped in an
envelope with the time of the observation and the block it is anchored to.

A `bytes` field is a list of bytes of any length; that a hash has 32 of them is a
check of the code and of the schema, not of the type. Unsigned integers are
natural numbers: where the code narrows one, the model checks that it fits.
-/

namespace Bip300Monitor

/-- The contents of a `bytes` field. -/
abbrev Bytes := List UInt8

-- Lawful equality under names of its own, for the tests of membership in lists.
instance : LawfulBEq Bytes := inferInstance

instance : LawfulBEq (ℕ × Bytes) := inferInstance

instance lawfulBEqSlotString : LawfulBEq (ℕ × String) := inferInstance

/-- The mainchain block an observation is anchored to; a disconnect names its block
without a height. -/
structure ObservedBlock where
  /-- The block hash, in display order. -/
  hash : Bytes
  /-- Its height, when the source reported one. -/
  height : Option ℕ
  deriving DecidableEq, Repr

/-- Anchor to a block whose height is known. -/
def ObservedBlock.atHeight (hash : Bytes) (height : ℕ) : ObservedBlock := ⟨hash, some height⟩

/-- Anchor to a block the source named without a height. -/
def ObservedBlock.withoutHeight (hash : Bytes) : ObservedBlock := ⟨hash, none⟩

namespace Protobuf

/-- A block header. -/
structure BlockHeader where
  hash : Bytes
  previousHash : Bytes
  height : ℕ
  /-- Proof contributed by this block, 256 bits, little-endian. -/
  blockWork : Bytes
  /-- Accumulated proof; empty in the enforcer's headers. -/
  cumulativeWork : Bytes
  timestamp : ℕ
  deriving DecidableEq, Repr

structure Bip300Constants where
  withdrawalBundleMaxAge : ℕ
  withdrawalBundleInclusionThreshold : ℕ
  usedSidechainSlotProposalMaxAge : ℕ
  usedSidechainSlotActivationThreshold : ℕ
  unusedSidechainSlotProposalMaxAge : ℕ
  unusedSidechainSlotActivationThreshold : ℕ
  activationHeight : ℕ
  deriving DecidableEq, Repr

structure ChainInfo where
  network : ℤ
  bip300Constants : Option Bip300Constants
  rawNetwork : ℤ
  deriving DecidableEq, Repr

structure ChainTip where
  header : Option BlockHeader
  deriving DecidableEq, Repr

structure BmmRequest where
  sidechainNumber : ℕ
  txid : Bytes
  criticalHash : Bytes
  bidSats : ℕ
  deriving DecidableEq, Repr

structure BmmRequestsSnapshot where
  previousMainchainBlockHash : Bytes
  requests : List BmmRequest
  deriving DecidableEq, Repr

structure SidechainDeclarationV0 where
  title : String
  description : String
  hashId1 : Bytes
  hashId2 : Bytes
  deriving DecidableEq, Repr

/-- The declaration oneof has one version. -/
structure SidechainDeclaration where
  declaration : Option SidechainDeclarationV0
  deriving DecidableEq, Repr

structure SidechainProposal where
  sidechainNumber : ℕ
  rawDescription : Bytes
  descriptionHash : Bytes
  voteCount : ℕ
  proposalHeight : ℕ
  proposalAge : ℕ
  declaration : Option SidechainDeclaration
  deriving DecidableEq, Repr

structure ActiveSidechain where
  sidechainNumber : ℕ
  rawDescription : Bytes
  voteCount : ℕ
  proposalHeight : ℕ
  activationHeight : ℕ
  declaration : Option SidechainDeclaration
  descriptionHash : Bytes
  deriving DecidableEq, Repr

structure Ctip where
  txid : Bytes
  vout : ℕ
  valueSats : ℕ
  sequenceNumber : ℕ
  deriving DecidableEq, Repr

/-- The absence of a CTIP is meaningful: the sidechain has none. -/
structure CtipSnapshot where
  sidechainNumber : ℕ
  ctip : Option Ctip
  deriving DecidableEq, Repr

structure OutPoint where
  txid : Bytes
  vout : ℕ
  deriving DecidableEq, Repr

structure Deposit where
  sequenceNumber : ℕ
  outpoint : Option OutPoint
  address : Bytes
  valueSats : ℕ
  deriving DecidableEq, Repr

inductive WithdrawalBundleState where
  | submitted
  | failed
  | succeeded (sequenceNumber : ℕ) (transaction : Bytes)
  deriving DecidableEq, Repr

structure WithdrawalBundleEvent where
  m6id : Bytes
  state : Option WithdrawalBundleState
  deriving DecidableEq, Repr

inductive SidechainEvent where
  | deposit (deposit : Deposit)
  | withdrawalBundle (event : WithdrawalBundleEvent)
  deriving DecidableEq, Repr

structure WithdrawalBundleProposal where
  m6id : Bytes
  voteCount : ℕ
  proposalHeight : ℕ
  deriving DecidableEq, Repr

structure WithdrawalBundleProposalsSnapshot where
  sidechainNumber : ℕ
  proposals : List WithdrawalBundleProposal
  deriving DecidableEq, Repr

structure BlockConnected where
  header : Option BlockHeader
  sidechainNumber : ℕ
  bmmCommitment : Option Bytes
  events : List (Option SidechainEvent)
  deriving DecidableEq, Repr

structure BlockDisconnected where
  blockHash : Bytes
  sidechainNumber : ℕ
  deriving DecidableEq, Repr

/-- A block named by identity only. -/
structure BlockRef where
  hash : Bytes
  height : ℕ
  deriving DecidableEq, Repr

/-- A global transition: `action` is 1 for a connect, 2 for a disconnect and 3 for a
subscription boundary. -/
structure MainchainTransition where
  action : ℤ
  header : Option BlockHeader
  gapStart : Option BlockRef
  deriving DecidableEq, Repr

structure ConfirmedBmmFee where
  sidechainNumber : ℕ
  txid : Bytes
  feeSats : Option ℕ
  unavailableReason : String
  deriving DecidableEq, Repr

structure ConfirmedBmmFees where
  header : Option BlockHeader
  fees : List ConfirmedBmmFee
  source : String
  deriving DecidableEq, Repr

structure MainchainBlock where
  header : Option BlockHeader
  rawBlock : Bytes
  deriving DecidableEq, Repr

/-- The enforcer's events. -/
inductive EnforcerEvent where
  | chainInfo (info : ChainInfo)
  | chainTip (tip : ChainTip)
  | sidechainProposals (proposals : List SidechainProposal)
  | activeSidechains (sidechains : List ActiveSidechain)
  | ctip (snapshot : CtipSnapshot)
  | blockConnected (block : BlockConnected)
  | blockDisconnected (block : BlockDisconnected)
  | withdrawalBundleProposals (snapshot : WithdrawalBundleProposalsSnapshot)
  | bmmRequests (snapshot : BmmRequestsSnapshot)
  | mainchainTransition (transition : MainchainTransition)
  deriving DecidableEq, Repr

/-- The node's events. -/
inductive NodeEvent where
  | mainchainBlock (block : MainchainBlock)
  | chainTip (tip : ChainTip)
  | confirmedBmmFees (fees : ConfirmedBmmFees)
  deriving DecidableEq, Repr

/-- The two extractors' payloads; a payload's own oneof may be absent. -/
inductive MonitorEvent where
  | enforcer (event : Option EnforcerEvent)
  | node (event : Option NodeEvent)
  deriving DecidableEq, Repr

/-- The envelope of every recorded event. -/
structure Event where
  /-- Milliseconds since the Unix epoch when the monitor built the event. -/
  timestamp : ℕ
  observedAtBlock : Option ObservedBlock
  monitorEvent : Option MonitorEvent
  deriving DecidableEq, Repr

/-! ### Kinds -/

/-- The kinds of recorded facts. -/
inductive EventKind where
  | chainInfo | chainTip | sidechainProposals | activeSidechains | ctip | blockConnected
  | blockDisconnected | withdrawalBundleProposals | bmmRequests | mainchainTransition
  | mainchainBlock | confirmedBmmFees
  deriving DecidableEq, Repr

/-- The stable name of a kind. -/
def EventKind.asStr : EventKind → String
  | .chainInfo => "chain_info"
  | .chainTip => "chain_tip"
  | .sidechainProposals => "sidechain_proposals"
  | .activeSidechains => "active_sidechains"
  | .ctip => "ctip"
  | .blockConnected => "block_connected"
  | .blockDisconnected => "block_disconnected"
  | .withdrawalBundleProposals => "withdrawal_bundle_proposals"
  | .bmmRequests => "bmm_requests"
  | .mainchainTransition => "mainchain_transition"
  | .mainchainBlock => "mainchain_block"
  | .confirmedBmmFees => "confirmed_bmm_fees"

/-- The kind of an enforcer event. -/
def EnforcerEvent.kind : EnforcerEvent → EventKind
  | .chainInfo _ => .chainInfo
  | .chainTip _ => .chainTip
  | .sidechainProposals _ => .sidechainProposals
  | .activeSidechains _ => .activeSidechains
  | .ctip _ => .ctip
  | .blockConnected _ => .blockConnected
  | .blockDisconnected _ => .blockDisconnected
  | .withdrawalBundleProposals _ => .withdrawalBundleProposals
  | .bmmRequests _ => .bmmRequests
  | .mainchainTransition _ => .mainchainTransition

/-- The slot an enforcer event is scoped to. -/
def EnforcerEvent.sidechainNumber : EnforcerEvent → Option ℕ
  | .ctip s => some s.sidechainNumber
  | .blockConnected b => some b.sidechainNumber
  | .blockDisconnected b => some b.sidechainNumber
  | .withdrawalBundleProposals s => some s.sidechainNumber
  | _ => none

/-- The kind of a node event. -/
def NodeEvent.kind : NodeEvent → EventKind
  | .mainchainBlock _ => .mainchainBlock
  | .chainTip _ => .chainTip
  | .confirmedBmmFees _ => .confirmedBmmFees

/-- The header a node event carries. -/
def NodeEvent.header : NodeEvent → Option BlockHeader
  | .mainchainBlock b => b.header
  | .chainTip t => t.header
  | .confirmedBmmFees f => f.header

/-! ### Text fields -/

/-- The text fields of a declaration. -/
def SidechainDeclaration.texts (d : SidechainDeclaration) : List String :=
  match d.declaration with
  | some v0 => [v0.title, v0.description]
  | none => []

/-- The text fields of a payload: what its JSON rendering holds besides numbers and
hexadecimal. -/
def MonitorEvent.texts : MonitorEvent → List String
  | .enforcer (some (.sidechainProposals ps)) =>
    (ps.filterMap (·.declaration)).flatMap SidechainDeclaration.texts
  | .enforcer (some (.activeSidechains ss)) =>
    (ss.filterMap (·.declaration)).flatMap SidechainDeclaration.texts
  | .node (some (.confirmedBmmFees f)) => f.source :: f.fees.map (·.unavailableReason)
  | _ => []

end Protobuf

end Bip300Monitor
