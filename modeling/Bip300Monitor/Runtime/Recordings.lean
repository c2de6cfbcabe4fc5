import Bip300Monitor.Runtime.Convert
import Bip300Monitor.Store.BlockFacts

/-!
# Live and backfilled blocks

A connected block reaches the record on two ways: as an item of the live subscription
(`subscription_event`, anchored by `block_anchor`) and in a historical page
(`block_info`, anchored to its header). Both convert it by `connected_block`, so the one
block makes the one fact, whichever way it came first and however often.

## What is proved

* `blockInfo_singleton` — the two converters agree on a block;
* `block_facts_idempotent` — facts, occurrences and conflicts are determined by which
  blocks were recorded.
-/

namespace Bip300Monitor

open Protobuf Runs Backfill Bip300Monitor.Convert

/-! ### The two ways -/

/-- `block_anchor` (`extractors/enforcer/src/state.rs`). -/
def blockAnchor : EnforcerEvent → Result ObservedBlock
  | .blockConnected block => do
    let header ← expect block.header "connected block is missing its header"
    pure (.atHeight header.hash header.height)
  | .blockDisconnected block => .ok (.withoutHeight block.blockHash)
  | _ => .error (.bail "a live event carried an unexpected payload for a block anchor")

/-- A live item of the subscription, as `monitor_sidechain` records it. -/
def liveEvent (sidechain : ℕ) (response : Mainchain.SubscribeEventsResponse) (now : Result ℕ) :
    Result Event := do
  let payload ← (subscriptionEvent sidechain response).context
    ("converting a live event for sidechain " ++ toString sidechain)
  let anchor ← (blockAnchor payload).context
    ("anchoring a live event for sidechain " ++ toString sidechain)
  envelope (some payload) anchor now

/-- A block of a historical page, as `historical_events` makes it. -/
def historicalEvent (payload : EnforcerEvent) (now : Result ℕ) : Result Event := do
  let header ← connectedHeader (some payload)
  envelope (some payload) (.atHeight header.hash header.height) now

/-- A recording for a slot: from the subscription, or from an answer to `get_block_info`. -/
inductive IsRecording (sidechain : ℕ) (event : Event) : Prop
  | live (response : Mainchain.SubscribeEventsResponse) (now : Result ℕ)
      (h : liveEvent sidechain response now = .ok event)
  | backfilled (infos : List Mainchain.Info) (payloads : List EnforcerEvent)
      (payload : EnforcerEvent) (now : Result ℕ) (hpayloads : blockInfo sidechain infos = .ok payloads)
      (hpayload : payload ∈ payloads) (h : historicalEvent payload now = .ok event)

/-- The connected blocks that the command records are recordings for its instance. -/
def Command.RecordsBlocks (c : Command) : Prop :=
  ∀ b, c.batch = some b → ∀ event ∈ b.events, event.connects?.isSome →
    ∃ sidechain id, b.sidechain = some sidechain ∧ b.sidechainInstanceId = some id ∧
      IsRecording sidechain event

/-! ### Converting one block -/

/-- **Live and backfilled, a block is converted alike.** -/
theorem blockInfo_singleton {sidechain : ℕ} {header : Mainchain.BlockHeaderInfo}
    {info : Mainchain.BlockInfo} {payload : EnforcerEvent} :
    blockInfo sidechain [⟨some header, some info⟩] = .ok [payload] ↔
      subscriptionEvent sidechain ⟨some (some (.connectBlock (some header) (some info)))⟩ =
        .ok payload := by
  have hlive : subscriptionEvent sidechain
      ⟨some (some (.connectBlock (some header) (some info)))⟩ =
        connectedBlock sidechain header info := rfl
  rw [hlive, blockInfo, mapM_eq_ok, List.zipIdx_singleton, List.forall₂_cons]
  simp only [List.forall₂_nil_left_iff, and_true, Result.bind_eq_ok, required_eq_ok,
    Option.some.injEq, exists_eq_left', Result.context_eq_ok]

/-- An envelope of a connected block is anchored as it is asked. -/
theorem envelope_connects {payload : EnforcerEvent} {anchor : ObservedBlock} {now : Result ℕ}
    {event : Event} {block : BlockConnected} (h : envelope (some payload) anchor now = .ok event)
    (hconnects : event.connects? = some block) :
    payload = .blockConnected block ∧ event.observedAtBlock = some anchor := by
  cases now with
  | error e => cases h
  | ok timestamp =>
    cases h
    obtain rfl : payload = .blockConnected block := by
      have hpayload := Event.connects?_eq_some.mp hconnects
      simpa [BlockConnected.payload] using hpayload
    exact ⟨rfl, rfl⟩

/-- **A recording is anchored to the block it connects.** -/
theorem IsRecording.anchors {sidechain : ℕ} {event : Event} (h : IsRecording sidechain event)
    {block : BlockConnected} (hconnects : event.connects? = some block) : event.Anchors block := by
  have anchored {header : BlockHeader} (hheader : block.header = some header)
      (hanchor : event.observedAtBlock = some (.atHeight header.hash header.height)) :
      event.Anchors block := by
    rw [Event.Anchors, BlockConnected.hash?, hheader, hanchor]
    exact ⟨rfl, nofun⟩
  cases h with
  | live response now h =>
    obtain ⟨payload, -, h⟩ := Result.bind_eq_ok.mp h
    obtain ⟨anchor, hanchor, h⟩ := Result.bind_eq_ok.mp h
    obtain ⟨rfl, hevent⟩ := envelope_connects h hconnects
    obtain ⟨header, hheader, hanchor⟩ := Result.bind_eq_ok.mp (Result.context_eq_ok.mp hanchor)
    obtain rfl := Result.pure_eq_ok.mp hanchor
    exact anchored (expect_eq_ok.mp hheader) hevent
  | backfilled infos payloads payload now _ _ h =>
    obtain ⟨header, hheader, h⟩ := Result.bind_eq_ok.mp h
    obtain ⟨rfl, hevent⟩ := envelope_connects h hconnects
    obtain ⟨block', hblock, hheader⟩ := connectedHeader_eq_ok.mp hheader
    cases hblock
    exact anchored hheader hevent

theorem Command.RecordsBlocks.anchored {c : Command} (h : c.RecordsBlocks) : c.Anchored := by
  intro b hb event hevent block hconnects
  obtain ⟨sidechain, id, -, hid, hrecording⟩ := h b hb event hevent (by simp [hconnects])
  exact ⟨by simp [hid], hrecording.anchors hconnects⟩

/-! ### Every sequence of recordings -/

/-- The scope of an activation's connected blocks. -/
def blockScope (datasetId : Uuid) (eventContractVersion : ℕ) (inst : SidechainInstanceRef) :
    ScopeKey :=
  ⟨datasetId, eventContractVersion, .enforcer, .block, some inst.sidechain,
    some inst.sidechainInstanceId⟩

section
variable [Digests]

/-- **Facts are idempotent and conflicts are complete.** Whatever was recorded of connected
blocks for an instance, in whatever order and batches, among any other commands: the record
has one fact for each distinct payload, one occurrence for each recording, and one conflict
for each two distinct payloads of one block. So a block that was always recorded with one
payload, be it live or by backfill, has one fact and no conflict. -/
theorem block_facts_idempotent (startOf : ScopeKey → ℕ) (datasetId : Uuid)
    (eventContractVersion : ℕ) (inst : SidechainInstanceRef) (cs : List Command) (s : Tally)
    (hsha : Set.InjOn (fun block : BlockConnected => Digests.factSha256 block.payload)
      {block | ∃ c ∈ cs, ∃ event ∈ c.events, event.connects? = some block})
    (hcs : ∀ c ∈ cs, c.RecordsBlocks)
    (h : run (Tally.step startOf (blockScope datasetId eventContractVersion inst)) Tally.empty cs =
      some s) :
    let k := blockScope datasetId eventContractVersion inst
    ((s.db.factsIn k).map (·.envelope.connects?)).Perm (s.log.dedup.map some) ∧
    s.db.occurrencesIn k = s.log ∧
    (∀ x ∈ s.log, ∀ y ∈ s.log, (x ≠ y ∧ x.hash? = y.hash?) ↔
      ∃! c, c ∈ s.db.conflicts ∧ c.Between s.db k x y) ∧
    (∀ c ∈ s.db.conflicts, ∀ e ∈ s.db.factsIn k,
      c.firstEventId = e.id ∨ c.conflictingEventId = e.id →
        ∃ x ∈ s.log, ∃ y ∈ s.log, c.Between s.db k x y) ∧
    s.db.conflicts.Nodup ∧
    (∀ sidechain header info payload,
      blockInfo sidechain [⟨some header, some info⟩] = .ok [payload] ↔
        subscriptionEvent sidechain ⟨some (some (.connectBlock (some header) (some info)))⟩ =
          .ok payload) ∧
    ∀ x ∈ s.log, (∀ y ∈ s.log, y.hash? = x.hash? → y = x) →
      ∃! e, e ∈ s.db.factsIn k ∧ e.blockHash = x.hash? ∧
        ∀ c ∈ s.db.conflicts, c.firstEventId ≠ e.id ∧ c.conflictingEventId ≠ e.id := by
  intro k
  have hs : Tallied k (fun block => ∃ c ∈ cs, ∃ event ∈ c.events, event.connects? = some block)
      s.db s.log := by
    refine run_invariant_along (I := fun s : Tally => Tallied k _ s.db s.log)
      (C := fun _ c => c ∈ cs) (fun s c t hs hc hstep => ?_) Tallied.empty
      (along_of_forall fun c hc _ => hc) h
    exact Tally.step_tallied startOf rfl (fun x y hx hy heq => hsha hx hy heq) (hcs c hc).anchored
      (fun event hevent block hblock => ⟨c, hc, event, hevent, hblock⟩) hs hstep
  refine ⟨hs.facts_perm, hs.occurrences, fun x hx y hy => hs.conflict_iff hx hy,
    fun c hc e he hid => hs.between hc he hid, hs.judged.conflicts_nodup,
    fun _ _ _ _ => blockInfo_singleton, fun x hx honly => ?_⟩
  obtain ⟨e, he, hin, hconnects, hhash⟩ := hs.exists_fact hx
  -- another fact of the block has the same payload
  have same {e' : EventRow} (he' : e' ∈ s.db.factsIn k) (hhash' : e'.blockHash = x.hash?) :
      e'.envelope.connects? = some x := by
    obtain ⟨he', hin'⟩ := Db.mem_factsIn.mp he'
    obtain ⟨block, hblock, hconnects', -, -, hblockHash, -⟩ := hs.fact e' he' hin'
    rw [hconnects', honly block hblock (hblockHash.symm.trans hhash')]
  refine ⟨e, ⟨Db.mem_factsIn.mpr ⟨he, hin⟩, hhash, fun c hc => ?_⟩, ?_⟩
  · by_contra htouch
    rw [← not_or, not_not] at htouch
    obtain ⟨e', he', hne, hsame, -⟩ := hs.other hc (Db.mem_factsIn.mpr ⟨he, hin⟩) htouch
    obtain ⟨he'', hin'⟩ := Db.mem_factsIn.mp he'
    exact hne (hs.eq_of_connects he'' hin' he hin
      ((same he' (hsame.trans hhash)).trans hconnects.symm))
  · rintro e' ⟨he', hhash', -⟩
    obtain ⟨he'', hin'⟩ := Db.mem_factsIn.mp he'
    exact hs.eq_of_connects he'' hin' he hin ((same he' hhash').trans hconnects.symm)

end

/-! ### One block, both ways -/

namespace BothWays

/-- Hexadecimal text of 32 bytes. -/
def text (last : String) : Option Mainchain.HexText :=
  some ⟨some ("00000000000000000000000000000000000000000000000000000000000000" ++ last)⟩

/-- The upstream header of a block at height 5. -/
def header : Mainchain.BlockHeaderInfo := ⟨text "01", text "00", 5, text "00", 0⟩

/-- An item of the subscription, with a BMM commitment or without. -/
def item (bmmCommitment : Option Mainchain.HexText) : Mainchain.SubscribeEventsResponse :=
  ⟨some (some (.connectBlock (some header) (some ⟨bmmCommitment, []⟩)))⟩

/-- The converted block. -/
def block (bmmCommitment : Option Bytes) : BlockConnected :=
  ⟨some ⟨bytes32 1, bytes32 0, 5, bytes32 0, [], 0⟩, 9, bmmCommitment, []⟩

def tip : ObservedBlock := .atHeight (bytes32 1) 5

/-- Its event, recorded at a time. -/
def event (bmmCommitment : Option Bytes) (timestamp : ℕ) : Event :=
  ⟨timestamp, some tip, some (block bmmCommitment).payload⟩

/-- The digests of the payloads. -/
@[reducible] def digests : Digests := .ofPayloads [
  (.enforcer (some (.activeSidechains [slotNine])),
    0xf2a242527941e63799fa9b77cce23743b8893a0c8ca5904f5b3f83c313c8bfb4),
  ((block none).payload, 0xbb0ae4b03f12138661b106cdcfadcb6caf6b7d0dd882eb0d707d4e1dae07f351),
  ((block (some (bytes32 7))).payload,
    0xfa36088063d6ae5f5ad3639b04e49e8b3d87dcea3322ff92f171f4fae006e5c5)]

/-- The block live and in a page, and live again with another payload. -/
def commands : List Command :=
  let store : Store := ⟨.enforcer, 0, 0, 9⟩
  let scope : HistoryScope :=
    ⟨.block, some slotNineInstance.sidechain, some slotNineInstance.sidechainInstanceId⟩
  [.initializeIdentity .enforcer 0 0 9,
    .recordSnapshot store [activeReading [slotNine]] .poll (tipMatchedAt tip),
    .record store [event none 1] .live (some slotNineInstance),
    .beginHistoryCycle store scope none tip none (some 4) 100,
    .recordHistoryPage store [event none 2] ⟨scope, tip, none⟩,
    .record store [event (some (bytes32 7)) 3] .live (some slotNineInstance)]

theorem isRecording_live : IsRecording 9 (event none 1) :=
  .live (item none) (.ok 1) (by decide +kernel)

theorem isRecording_backfilled : IsRecording 9 (event none 2) :=
  .backfilled [⟨some header, some ⟨none, []⟩⟩] [.blockConnected (block none)] _ (.ok 2)
    (by decide +kernel) (List.mem_singleton_self _) (by decide +kernel)

theorem isRecording_changed : IsRecording 9 (event (some (bytes32 7)) 3) :=
  .live (item (text "07")) (.ok 3) (by decide +kernel)

/-- Every block of the commands is a recording. -/
theorem recordsBlocks : ∀ c ∈ commands, c.RecordsBlocks := by
  have slot {store : Store} {method : CaptureMethod} {events : List Event}
      (hevents : ∀ event ∈ events, IsRecording 9 event) (b : Batch)
      (hb : b = ⟨store, method, none, some slotNineInstance.sidechain,
        some slotNineInstance.sidechainInstanceId, events⟩) :
      ∀ event ∈ b.events, event.connects?.isSome → ∃ sidechain id, b.sidechain = some sidechain ∧
        b.sidechainInstanceId = some id ∧ IsRecording sidechain event := by
    subst hb
    exact fun event hevent _ => ⟨_, _, rfl, rfl, hevents event hevent⟩
  intro c hc b hb
  simp only [commands, List.mem_cons, List.not_mem_nil, or_false] at hc
  rcases hc with rfl | rfl | rfl | rfl | rfl | rfl
  · cases hb
  · cases hb
    intro event hevent hconnects
    rw [List.mem_singleton.mp hevent] at hconnects
    cases hconnects
  · exact slot (by simpa using isRecording_live) b (Option.some.inj hb).symm
  · cases hb
  · exact slot (by simpa using isRecording_backfilled) b (Option.some.inj hb).symm
  · exact slot (by simpa using isRecording_changed) b (Option.some.inj hb).symm

end BothWays

/-- The live block and the backfilled one are one fact with two occurrences; the block's
other payload is a second fact, and the two are in conflict. -/
theorem block_facts_idempotent_bothWays :
    ∃ s, run (@Tally.step BothWays.digests (fun _ => 5) (blockScope 0 9 slotNineInstance)) Tally.empty
        BothWays.commands = some s ∧
      ((s.db.factsIn (blockScope 0 9 slotNineInstance)).map (·.envelope.connects?)).Perm
        [some (BothWays.block none), some (BothWays.block (some (bytes32 7)))] ∧
      s.db.occurrencesIn (blockScope 0 9 slotNineInstance) =
        [BothWays.block none, BothWays.block none, BothWays.block (some (bytes32 7))] ∧
      ∃! c, c ∈ s.db.conflicts ∧ c.Between s.db (blockScope 0 9 slotNineInstance)
        (BothWays.block none) (BothWays.block (some (bytes32 7))) := by
  let _ := BothWays.digests
  have hrun : ((run (Tally.step (fun _ => 5) (blockScope 0 9 slotNineInstance)) Tally.empty
      BothWays.commands).filter fun s => s.log =
        [BothWays.block none, BothWays.block none, BothWays.block (some (bytes32 7))]).isSome := by
    decide +kernel
  have hblocks : (BothWays.commands.flatMap fun c => c.events.filterMap Event.connects?) =
      [BothWays.block none, BothWays.block none, BothWays.block (some (bytes32 7))] := by
    decide +kernel
  obtain ⟨s, hs⟩ := Option.isSome_iff_exists.mp hrun
  obtain ⟨hs, hlog⟩ := Option.filter_eq_some_iff.mp hs
  have hlog := of_decide_eq_true hlog
  have hsha : Set.InjOn (fun block : BlockConnected => Digests.factSha256 block.payload)
      {block | ∃ c ∈ BothWays.commands, ∃ event ∈ c.events, event.connects? = some block} := by
    have two {x : BlockConnected}
        (hx : ∃ c ∈ BothWays.commands, ∃ event ∈ c.events, event.connects? = some x) :
        x = BothWays.block none ∨ x = BothWays.block (some (bytes32 7)) := by
      obtain ⟨c, hc, event, hevent, hconnects⟩ := hx
      have hmem : x ∈ BothWays.commands.flatMap fun c => c.events.filterMap Event.connects? :=
        List.mem_flatMap.mpr ⟨c, hc, List.mem_filterMap.mpr ⟨event, hevent, hconnects⟩⟩
      rw [hblocks] at hmem
      simpa using hmem
    have hne : Digests.factSha256 (BothWays.block none).payload ≠
        Digests.factSha256 (BothWays.block (some (bytes32 7))).payload := by decide +kernel
    intro x hx y hy heq
    rcases two hx with rfl | rfl <;> rcases two hy with rfl | rfl
    · rfl
    · exact absurd heq hne
    · exact absurd heq.symm hne
    · rfl
  obtain ⟨hfacts, hoccurrences, hconflicts, -⟩ := block_facts_idempotent (fun _ => 5) 0 9
    slotNineInstance BothWays.commands s hsha BothWays.recordsBlocks hs
  have hdedup : [BothWays.block none, BothWays.block none, BothWays.block (some (bytes32 7))].dedup =
      [BothWays.block none, BothWays.block (some (bytes32 7))] := by decide +kernel
  rw [hlog, hdedup] at hfacts
  refine ⟨s, hs, hfacts, hoccurrences.trans hlog, ?_⟩
  exact (hconflicts _ (by simp [hlog]) _ (by simp [hlog])).mp (by decide +kernel)

end Bip300Monitor
