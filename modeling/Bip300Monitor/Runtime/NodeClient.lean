import Mathlib.Data.Nat.Digits.Defs
import Bip300Monitor.Backfill.Descent
import Bip300Monitor.Backfill.Engine
import Bip300Monitor.Runtime.Convert

/-!
# The node client

`NodeClient` of `extractors/enforcer/src/node.rs`: the headers and the blocks that the monitor takes
from the node's JSON RPC. The node reports the accumulated work of a block, so that the work of the
block itself is the difference to its parent's; the raw block must bear it out.

What is read of an answer is its fields, each as the JSON accessor of the code returns it. The
answers may differ from one request to the next.

## What is proved

* `leNat_toLeBytes` — the 32 bytes of a work are all of it;
* `header_results`, `block_results`, `fetch_results` — what is returned when the accumulated work,
  the height and the parent of a block are functions of its hash.
-/

namespace Bip300Monitor

open Protobuf Resumption Backfill

namespace Node

/-! ### Work -/

/-- `Work` of the crate `bitcoin`: 256 bits. -/
abbrev Work := BitVec 256

/-- `Work::from_be_bytes`. -/
def fromBeBytes (bytes : Bytes) : Work :=
  BitVec.ofNat 256 (bytes.foldl (fun n b => 256 * n + b.toNat) 0)

/-- `Work::to_le_bytes`. -/
def toLeBytes (work : Work) : Bytes :=
  (List.range 32).map fun i => UInt8.ofNat (work.toNat / 256 ^ i)

/-- The number that bytes encode, the least significant first. -/
def leNat (bytes : Bytes) : ℕ := Nat.ofDigits 256 (bytes.map (·.toNat))

@[simp] theorem toLeBytes_length (work : Work) : (toLeBytes work).length = 32 := by
  simp [toLeBytes]

theorem ofDigits_range (n k : ℕ) :
    Nat.ofDigits 256 ((List.range k).map fun i => n / 256 ^ i % 256) = n % 256 ^ k := by
  induction k with
  | zero => simp [Nat.mod_one]
  | succ k ih =>
    rw [List.range_succ, List.map_append, Nat.ofDigits_append, ih, Nat.mod_pow_succ]
    simp

/-- **Nothing is truncated.** -/
theorem leNat_toLeBytes (work : Work) : leNat (toLeBytes work) = work.toNat := by
  have hbytes : (toLeBytes work).map (·.toNat) =
      (List.range 32).map fun i => work.toNat / 256 ^ i % 256 := by
    rw [toLeBytes, List.map_map]
    rfl
  rw [leNat, hbytes, ofDigits_range]
  exact Nat.mod_eq_of_lt work.isLt

/-! ### The answers -/

/-- What is read of the answer to `getblockheader`. -/
structure HeaderValue where
  hash : Option String
  height : Option ℕ
  previousblockhash : Option String
  chainwork : Option String
  time : Option ℕ
  deriving DecidableEq, Repr

/-- The requests, and with the last of them the verbosity 0. -/
inductive Op where
  | getblockheader (hash : Bytes)
  | getblock (hash : Bytes)
  deriving DecidableEq, Repr

/-- What a request answers: the text of a block is its serialization in hexadecimal. -/
@[reducible] def Op.Resp : Op → Type
  | .getblockheader _ => Result HeaderValue
  | .getblock _ => Result (Option String)

/-- A program of the client. -/
abbrev Client := Fallible Op Op.Resp Failure

/-- `hash_bytes`. -/
def hashBytes (v : Option String) : Result Bytes := do
  let text ← expect v "missing hash"
  let bytes ← Convert.hexDecode text
  ensure (bytes.length = 32) "hash must have 32 bytes"
  pure bytes

/-- `work`, and `work_from_parent`. -/
def work (v : Option String) : Result Work := do
  let bytes ← hashBytes v
  pure (fromBeBytes bytes)

/-! ### Headers -/

/-- The work accumulated below a block. -/
def parentWork {E : Type} {R : E → Type} (rpc : Bytes → Fallible E R Failure HeaderValue)
    (height : ℕ) (previousHash : Bytes) : Fallible E R Failure Work :=
  if height = 0 then pure 0
  else do
    let parent ← rpc previousHash
    let parentHash ← attempt (hashBytes parent.hash)
    attempt (ensure (parentHash = previousHash ∧ parent.height = some (height - 1))
      "invalid parent header")
    attempt (work parent.chainwork)

/-- `header`, over the request `getblockheader`. -/
def header {E : Type} {R : E → Type} (rpc : Bytes → Fallible E R Failure HeaderValue)
    (hash : Bytes) : Fallible E R Failure BlockHeader := do
  attempt (ensure (hash.length = 32) "invalid requested block hash")
  let value ← rpc hash
  let answered ← attempt (hashBytes value.hash)
  attempt (ensure (answered = hash) "node returned another block")
  let height ← attempt (expect value.height "missing header height")
  let height ← attempt (narrow maxU32 height)
  let previousHash ← attempt
    (if height = 0 then .ok (List.replicate 32 0) else hashBytes value.previousblockhash)
  let accumulated ← attempt (work value.chainwork)
  let below ← parentWork rpc height previousHash
  attempt (ensure (below < accumulated) "nonpositive block work")
  let timestamp ← attempt (expect value.time "missing block time")
  pure ⟨hash, previousHash, height, toLeBytes (accumulated - below), toLeBytes accumulated,
    timestamp⟩

/-! ### Blocks -/

/-- What is asked of a deserialized block. Hashes are in display order. -/
structure RawBlock where
  blockHash : Bytes
  prevBlockhash : Bytes
  time : ℕ
  merkleRootOk : Bool
  witnessCommitmentOk : Bool
  /-- The work that the target of the header stands for. -/
  work : Work
  deriving DecidableEq, Repr

/-- `deserialize` of the crate `bitcoin`, at blocks. -/
class BlockCodec where
  deserialize : Bytes → Option RawBlock

def getblockheader (hash : Bytes) : Client HeaderValue := do
  attempt (← call (Op.getblockheader hash))

def getblock (hash : Bytes) : Client (Option String) := do
  attempt (← call (Op.getblock hash))

section
variable [BlockCodec]

/-- `block`. -/
def block (hash : Bytes) : Client MainchainBlock := do
  let header ← header getblockheader hash
  let raw ← getblock hash
  let text ← attempt (expect raw "node block is not hex")
  let rawBlock ← attempt (Convert.hexDecode text)
  let decoded ← attempt (expect (BlockCodec.deserialize rawBlock) "invalid serialized node block")
  attempt (ensure (decoded.blockHash = hash) "raw block hash mismatch")
  attempt (ensure (decoded.prevBlockhash = header.previousHash ∧ decoded.time = header.timestamp)
    "node header fields differ from raw block")
  attempt (ensure (decoded.merkleRootOk ∧ decoded.witnessCommitmentOk)
    "invalid block transaction commitment")
  attempt (ensure (toLeBytes decoded.work = header.blockWork)
    "node chainwork increment differs from header proof")
  pure ⟨some header, rawBlock⟩

/-- `fetch` of `NodeHistory`: from a block down. -/
def fetch (hash : Bytes) : ℕ → Client (List MainchainBlock)
  | 0 => pure []
  | requested + 1 => do
    let block ← block hash
    let header ← attempt (expect block.header "missing header")
    let blocks ← fetch header.previousHash requested
    pure (block :: blocks)

end

/-! ### What is returned -/

/-- What a block hash determines. -/
structure Chain extends Headers where
  /-- The work accumulated up to the block. -/
  work : Bytes → Work

/-- The work accumulated below the block: none below the genesis block. -/
def Chain.below (chain : Chain) (hash : Bytes) : Work :=
  if chain.height hash = 0 then 0 else chain.work (chain.previousHash hash)

/-- The answers that report the chain; what is answered else is anything. -/
def Chain.Answers (chain : Chain) : (e : Op) → e.Resp → Prop
  | .getblockheader _, .ok value => ∀ hash, hashBytes value.hash = .ok hash →
    (∀ w, Node.work value.chainwork = .ok w → w = chain.work hash) ∧
    (∀ n, value.height = some n → n = chain.height hash) ∧
    ∀ p, hashBytes value.previousblockhash = .ok p → p = chain.previousHash hash
  | _, _ => True

/-- A header is that of its block in the chain, with the work added to its parent's. -/
structure Chain.HeaderOf (chain : Chain) (h : BlockHeader) : Prop where
  hash_length : h.hash.length = 32
  height : h.height = chain.height h.hash
  height_le : h.height ≤ maxU32
  previousHash_length : h.previousHash.length = 32
  previousHash : h.height ≠ 0 → h.previousHash = chain.previousHash h.hash ∧
    chain.height (chain.previousHash h.hash) = h.height - 1
  below_lt : chain.below h.hash < chain.work h.hash
  blockWork : h.blockWork = toLeBytes (chain.work h.hash - chain.below h.hash)
  cumulativeWork : h.cumulativeWork = toLeBytes (chain.work h.hash)

variable {chain : Chain} {hash : Bytes}

theorem hashBytes_length {v : Option String} {bytes : Bytes} (h : hashBytes v = .ok bytes) :
    bytes.length = 32 := by
  simp only [hashBytes, Result.bind_eq_ok, ensure_eq_ok, Result.pure_eq_ok] at h
  obtain ⟨_, -, _, -, _, hlength, rfl⟩ := h
  exact hlength

theorem results_getblockheader {value : HeaderValue}
    (h : Results chain.Answers (getblockheader hash) value) :
    chain.Answers (.getblockheader hash) (.ok value) := by
  simp only [getblockheader, results_bind, results_call, results_attempt] at h
  obtain ⟨r, hr, rfl⟩ := h
  exact hr

/-- **A header that is returned is that of the chain.** -/
theorem header_results {h : BlockHeader}
    (hres : Results chain.Answers (header getblockheader hash) h) :
    h.hash = hash ∧ chain.HeaderOf h := by
  simp only [header, results_bind, results_attempt, results_pure, ensure_eq_ok, expect_eq_ok,
    narrow_eq_ok] at hres
  obtain ⟨_, hlength, value, hvalue, answered, hanswered, _, rfl, _, hvalueHeight, height,
    ⟨hle, rfl⟩, previousHash, hprevious, accumulated, haccumulated, below, hbelow, _, hlt,
    timestamp, -, rfl⟩ := hres
  obtain ⟨hwork, hheight, hprev⟩ := results_getblockheader hvalue _ hanswered
  obtain rfl := hwork _ haccumulated
  obtain rfl := hheight _ hvalueHeight
  rw [parentWork] at hbelow
  by_cases hzero : chain.height answered = 0
  · rw [if_pos hzero] at hprevious hbelow
    have hbelow' : below = chain.below answered := by
      rw [Chain.below, if_pos hzero]
      exact (results_pure.mp hbelow).symm
    subst hbelow'
    obtain rfl := Except.ok.inj hprevious
    exact ⟨rfl, hlength, rfl, hle, List.length_replicate .., fun hne => absurd hzero hne, hlt, rfl,
      rfl⟩
  · rw [if_neg hzero] at hprevious hbelow
    obtain rfl := hprev _ hprevious
    simp only [results_bind, results_attempt, ensure_eq_ok] at hbelow
    obtain ⟨parent, hparent, parentHash, hparentHash, _, ⟨rfl, hparentHeight⟩, hbelow⟩ := hbelow
    obtain ⟨hparentWork, hparentTold, -⟩ := results_getblockheader hparent _ hparentHash
    have hbelow' : below = chain.below answered := by
      rw [Chain.below, if_neg hzero]
      exact hparentWork _ hbelow
    subst hbelow'
    exact ⟨rfl, hlength, rfl, hle, hashBytes_length hprevious,
      fun _ => ⟨rfl, (hparentTold _ hparentHeight).symm⟩, hlt, rfl, rfl⟩

/-! ### Blocks of the chain -/

section
variable [BlockCodec]

/-- The proof work in the raw header. -/
def proofWork (block : MainchainBlock) : Work :=
  (BlockCodec.deserialize block.rawBlock).elim 0 (·.work)

/-- A block is that of the chain, and its raw header bears out its work. -/
def Chain.BlockOf (chain : Chain) (block : MainchainBlock) : Prop :=
  ∃ h, block.header = some h ∧ chain.HeaderOf h ∧ h.blockWork = toLeBytes (proofWork block)

theorem block_results {b : MainchainBlock} (hres : Results chain.Answers (block hash) b) :
    chain.BlockOf b := by
  simp only [block, results_bind, results_attempt, results_pure, ensure_eq_ok, expect_eq_ok] at hres
  obtain ⟨h, hheader, raw, -, text, -, rawBlock, -, decoded, hdecoded, _, -, _, -, _, -, _, hwork,
    rfl⟩ := hres
  refine ⟨h, rfl, (header_results hheader).2, ?_⟩
  rw [proofWork, hdecoded]
  exact hwork.symm

/-- **What a fetch returns** are blocks of the chain. -/
theorem fetch_results {requested : ℕ} {blocks : List MainchainBlock}
    (hres : Results chain.Answers (fetch hash requested) blocks) :
    ∀ b ∈ blocks, chain.BlockOf b := by
  induction requested generalizing hash blocks with
  | zero =>
    obtain rfl := results_pure.mp hres
    exact fun b hb => by cases hb
  | succ requested ih =>
    simp only [fetch, results_bind, results_attempt, results_pure, expect_eq_ok] at hres
    obtain ⟨b, hb, h, -, rest, hrest, rfl⟩ := hres
    exact List.forall_mem_cons.mpr ⟨block_results hb, ih hrest⟩

end

end Node

end Bip300Monitor
