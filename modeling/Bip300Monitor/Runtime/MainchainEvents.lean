import Bip300Monitor.Runtime.Refresh
import Bip300Monitor.Store.WorkerRows

/-!
# Global observations

`extractors/enforcer/src/mainchain.rs`: the subscription to slot 0 reports the transitions of the
mainchain. Each event of it becomes a transition of its own, and each time the monitor subscribes it
records a boundary, which names the block that the gap before it began at.

## What is proved

* `GapStart.hash_length` — the block at which a gap is said to begin has a hash of 32 bytes, whether it
  was read from the enforcer or from the record of an earlier run.
-/

namespace Bip300Monitor

open Protobuf Transaction Runs

namespace Mainchain

/-- `SUBSCRIPTION_BOUNDARY`. -/
def subscriptionBoundary : ℤ := 3

/-- `boundary_event`. -/
def boundaryEvent (tip : Option EnforcerEvent) (gapStart : Option ObservedBlock) :
    Result (EnforcerEvent × ObservedBlock) :=
  match tip with
  | some (.chainTip tip) => do
    let header ← Backfill.expect tip.header "chain tip without header"
    let anchor := ObservedBlock.atHeight header.hash header.height
    let gapStart ← Result.transpose (gapStart.map fun block => do
      let height ← Backfill.expect block.height "gap start without height"
      pure (BlockRef.mk block.hash height))
    pure (.mainchainTransition ⟨subscriptionBoundary, some header, gapStart⟩, anchor)
  | _ => .error (.bail "expected a chain tip for the subscription boundary")

/-- `global_event`: slot 0 only selects the transport. -/
def globalEvent (response : SubscribeEventsResponse) : Result (EnforcerEvent × ObservedBlock) := do
  let event ← Convert.subscriptionEvent 0 response
  match event with
  | .blockConnected block => do
    let header ← Backfill.expect block.header "connection without header"
    pure (.mainchainTransition ⟨1, some header, none⟩, .atHeight header.hash header.height)
  | .blockDisconnected block =>
    pure (.mainchainTransition ⟨2, none, none⟩, .withoutHeight block.blockHash)
  | _ => .error (.bail "unexpected subscription event")

section
variable [Digests]

/-- What `monitor` takes for the start of a gap: the tip of the channel, which is one that the enforcer
answered, or the last tip of an earlier run, as the record tells it when the run is opened. -/
inductive GapStart : ObservedBlock → Prop
  | channel {response : Option BlockHeaderInfo} {tip : ChainTip} {block : ObservedBlock}
      (htip : Convert.chainTip response = .ok tip) (hblock : tipAnchor tip = .ok block) :
      GapStart block
  | previousRunTip {startOf : ScopeKey → ℕ} {commands : List Command} {r : Record} {source : Source}
      {datasetId runId : Uuid} {version : ℕ} {store : Store} {block : ObservedBlock} {db : Db}
      (hrun : run (Record.step startOf) Record.empty commands = some r)
      (hopen : initializeIdentity source datasetId runId version r.db = .ok ((store, some block), db)) :
      GapStart block

/-- In a record that the monitor wrote, the last tips have hashes of 32 bytes. -/
theorem hashedTips_run {startOf : ScopeKey → ℕ} {commands : List Command} {r : Record}
    (h : run (Record.step startOf) Record.empty commands = some r) : r.db.HashedTips := by
  have step : ∀ (r : Record) c r', r.db.HashedTips → r.step startOf c = some r' → r'.db.HashedTips := by
    intro r c r' hr hstep
    unfold Record.step at hstep
    split_ifs at hstep
    cases hstep
    exact Db.exec_hashedTips startOf hr c
  exact run_invariant step (by simp [Db.HashedTips, Record.empty, Db.empty]) h

/-- **A gap begins at a block whose hash has 32 bytes.** -/
theorem GapStart.hash_length {block : ObservedBlock} (h : GapStart block) : block.hash.length = 32 := by
  cases h with
  | channel htip hblock =>
    obtain ⟨info, -, htip⟩ := Result.bind_eq_ok.mp htip
    obtain ⟨header, hheader, htip⟩ := Result.bind_eq_ok.mp htip
    obtain rfl := Result.pure_eq_ok.mp htip
    cases hblock
    exact (Convert.blockHeader_eq_ok hheader).1
  | previousRunTip hrun hopen => exact initializeIdentity_lastTip (hashedTips_run hrun) hopen

end

end Mainchain

end Bip300Monitor
