import Bip300Monitor.Runtime.Recorder
import Bip300Monitor.Runtime.Recordings
import Bip300Monitor.Store.CertifiedPrefix
import Mathlib.Data.List.Chain

/-!
# From history to live

The blocks of a slot come into the record in two ways: the history up to a target tip is imported by pages,
and what the slot's stream reports is recorded as it comes. `prepare_sidechain_activation` subscribes
before it fixes the target (`extractors/enforcer/src/runtime.rs`), so that between them no block is missed.

## The model

The enforcer's chain is what the items of the stream make of it: a connected block is put on top, and a
disconnected one taken off. An observation of the slot has a stream, which reports the items from the
subscription on, and the tips that were read since, which are the targets of its history. Any commands are
executed on the record, the import's among them.

## What is proved

* `Handover.step_inv` — what the stream has reported is recorded, and targets are no older than it;
* `handed_over` — as soon as one target is covered by the history, every block of the chain that the stream
  has got to has a fact, from the start height on.
-/

namespace Bip300Monitor

open Protobuf Runs Bip300Monitor.Convert

/-! ### The chain -/

/-- The block that an item of a slot's stream connects. -/
def connected (slot : ℕ) (response : Mainchain.SubscribeEventsResponse) : Option BlockHeader :=
  match subscriptionEvent slot response with
  | .ok (.blockConnected block) => block.header
  | _ => none

/-- The chain after an item, the tip first. -/
def follow (slot : ℕ) (chain : List BlockHeader) (response : Mainchain.SubscribeEventsResponse) :
    List BlockHeader :=
  match subscriptionEvent slot response with
  | .ok (.blockConnected block) => block.header.toList ++ chain
  | .ok (.blockDisconnected _) => chain.tail
  | _ => chain

/-- A block stands on its parent. -/
def Protobuf.BlockHeader.StandsOn (block parent : BlockHeader) : Prop :=
  block.previousHash = parent.hash ∧ block.height = parent.height + 1

instance (block parent : BlockHeader) : Decidable (block.StandsOn parent) :=
  inferInstanceAs (Decidable (_ ∧ _))

/-- The enforcer, seen by a slot: its chain at first, and the items since. -/
structure SlotFeed where
  base : List BlockHeader
  items : List Mainchain.SubscribeEventsResponse

/-- The chain after so many items. -/
def SlotFeed.chainAfter (feed : SlotFeed) (slot n : ℕ) : List BlockHeader :=
  (feed.items.take n).foldl (follow slot) feed.base

/-- How many items there have been. -/
def SlotFeed.now (feed : SlotFeed) : ℕ := feed.items.length

/-! ### The observation -/

/-- An observation of the slot: where its stream began, when the targets were read, how many items have
been recorded, and the event that is to be recorded next. -/
structure Observation where
  stream : ℕ
  targets : List ℕ
  forwarded : ℕ
  event : Option Event

/-- The record, the enforcer and the observation. -/
structure Handover where
  record : Record
  feed : SlotFeed
  observation : Option Observation

/-- What happens next. -/
inductive HandoverAction where
  /-- The chain moves. -/
  | item (response : Mainchain.SubscribeEventsResponse)
  /-- `open_sidechain_stream`. -/
  | openStream
  /-- `read_activation_tip`, or a later tip that asks for a reconciliation. -/
  | readTip
  /-- `stream.next()` returns an item. -/
  | next (observedAt : Result ℕ)
  /-- `record_for_instance` ends. -/
  | recordForInstance
  /-- The worker or the process ends. -/
  | stop
  /-- Anything else that writes the record. -/
  | other (c : Command)

/-- Before anything is observed. -/
def Handover.init (base : List BlockHeader) : Handover := ⟨.empty, ⟨base, []⟩, none⟩

section
variable [Digests]

/-- One step of the observation of an instance by a store, or of anything else. -/
def Handover.step (startOf : ScopeKey → ℕ) (store : Store) (inst : SidechainInstanceRef)
    (s : Handover) : HandoverAction → Option Handover
  | .item response =>
    let top := (s.feed.chainAfter inst.sidechain s.feed.now).head?
    -- a connected block stands on the tip
    if ∀ block ∈ connected inst.sidechain response, ∀ tip ∈ top, block.StandsOn tip then
      some { s with feed := { s.feed with items := s.feed.items ++ [response] } }
    else none
  | .openStream =>
    match s.observation with
    | none => some { s with observation := some ⟨s.feed.now, [], s.feed.now, none⟩ }
    | some _ => none
  | .readTip =>
    s.observation.map fun o => { s with observation := some { o with targets := s.feed.now :: o.targets } }
  | .next observedAt =>
    match s.observation with
    | some ⟨stream, target :: targets, forwarded, none⟩ =>
      match (s.feed.items[forwarded]?).map fun response => liveEvent inst.sidechain response observedAt with
      | some (.ok event) =>
        some { s with observation := some ⟨stream, target :: targets, forwarded, some event⟩ }
      | some (.error _) => some { s with observation := none }
      | none => none
    | _ => none
  | .recordForInstance =>
    match s.observation with
    | some ⟨stream, targets, forwarded, some event⟩ =>
      let c : Command := .record store [event] .live (some inst)
      (s.record.step startOf c).map fun record =>
        if s.record.db.commits c then
          { s with
            record := record
            observation := some ⟨stream, targets, forwarded + 1, none⟩ }
        else
          { s with
            record := record
            observation := none }
    | _ => none
  | .stop => some { s with observation := none }
  | .other c => (s.record.step startOf c).map fun record => { s with record := record }

end

/-! ### What is recorded of the stream -/

section
variable [Digests] {store : Store} {inst : SidechainInstanceRef} {response : Mainchain.SubscribeEventsResponse}
  {observedAt : Result ℕ} {event : Event} {block : BlockHeader}

/-- The key of the history of an instance. -/
def Store.historyKey (store : Store) (inst : SidechainInstanceRef) : ScopeKey :=
  store.key ⟨.block, some inst.sidechain, some inst.sidechainInstanceId⟩

/-- The record has a fact of a block in a scope. -/
def Db.HasBlock (db : Db) (k : ScopeKey) (hash : Bytes) : Prop := ∃ e ∈ db.events, e.isBlock k hash

omit [Digests] in
theorem connected_eq_some {slot : ℕ} : connected slot response = some block ↔
    ∃ payload, subscriptionEvent slot response = .ok (.blockConnected payload) ∧
      payload.header = some block := by
  unfold connected
  split
  · rename_i payload h
    simp [h]
  · rename_i hother
    constructor
    · intro h
      cases h
    · rintro ⟨payload, h, -⟩
      exact absurd h (hother payload)

/-- The fact of a connected block has its hash, and is in the scope of the instance. -/
theorem Db.RecordsFor.hasBlock {db : Db}
    (hrecorded : db.RecordsFor store (some inst.sidechain) (some inst.sidechainInstanceId) event)
    (hlive : liveEvent inst.sidechain response observedAt = .ok event)
    (hconnected : connected inst.sidechain response = some block) :
    db.HasBlock (store.historyKey inst) block.hash := by
  obtain ⟨payload, hpayload, hheader⟩ := connected_eq_some.mp hconnected
  obtain ⟨row, ⟨f, monitorEvent, id, hfacts, hmonitor, hinstance, rfl⟩, e, he, hscope, hhash, -⟩ :=
    hrecorded
  -- the event is that of the connected block, anchored to it
  obtain ⟨payload', hpayload', hlive⟩ := Result.bind_eq_ok.mp hlive
  cases (Result.context_eq_ok.mp hpayload').symm.trans hpayload
  obtain ⟨anchor, hanchor, hlive⟩ := Result.bind_eq_ok.mp hlive
  obtain ⟨header, hheader', hanchor⟩ := Result.bind_eq_ok.mp (Result.context_eq_ok.mp hanchor)
  obtain rfl := Result.pure_eq_ok.mp hanchor
  cases (Backfill.expect_eq_ok.mp hheader').symm.trans hheader
  cases observedAt with
  | error _ => cases hlive
  | ok timestamp =>
    cases hlive
    obtain ⟨slot, -, hfacts⟩ := Result.bind_eq_ok.mp hfacts
    obtain ⟨height, -, hfacts⟩ := Result.bind_eq_ok.mp hfacts
    obtain rfl := Result.pure_eq_ok.mp hfacts
    cases hinstance with
    | explicit hslot =>
      obtain rfl : slot = some inst.sidechain := hslot
      exact ⟨e, he, hscope, hhash⟩

end

/-! ### The chain, and what is left of it -/

theorem SlotFeed.chainAfter_append {base : List BlockHeader}
    {items more : List Mainchain.SubscribeEventsResponse} {slot n : ℕ} (hn : n ≤ items.length) :
    (SlotFeed.mk base (items ++ more)).chainAfter slot n = (SlotFeed.mk base items).chainAfter slot n := by
  simp only [SlotFeed.chainAfter]
  rw [List.take_append_of_le_length hn]

theorem SlotFeed.chainAfter_succ {feed : SlotFeed} {slot n : ℕ}
    {response : Mainchain.SubscribeEventsResponse} (hn : feed.items[n]? = some response) :
    feed.chainAfter slot (n + 1) = follow slot (feed.chainAfter slot n) response := by
  rw [SlotFeed.chainAfter, List.take_add_one, hn]
  simp [SlotFeed.chainAfter]

/-- A block of the chain after an item was there before, or is the one that is connected. -/
theorem mem_follow {slot : ℕ} {chain : List BlockHeader} {response : Mainchain.SubscribeEventsResponse}
    {block : BlockHeader} (h : block ∈ follow slot chain response) :
    block ∈ chain ∨ connected slot response = some block := by
  unfold follow at h
  split at h
  · rename_i payload hpayload
    rcases List.mem_append.mp h with h | h
    · exact .inr (connected_eq_some.mpr ⟨payload, hpayload, Option.mem_toList.mp h⟩)
    · exact .inl h
  · exact .inl (List.mem_of_mem_tail h)
  · exact .inl h

/-- **A block of a later chain was in the earlier one, or has been connected since.** -/
theorem SlotFeed.mem_later {feed : SlotFeed} {slot n m : ℕ} (hnm : n ≤ m) {block : BlockHeader}
    (h : block ∈ feed.chainAfter slot m) :
    block ∈ feed.chainAfter slot n ∨
      ∃ i response, n ≤ i ∧ i < m ∧ feed.items[i]? = some response ∧
        connected slot response = some block := by
  induction m, hnm using Nat.le_induction with
  | base => exact .inl h
  | succ m hnm ih =>
    cases hitem : feed.items[m]? with
    | none =>
      have hshort : feed.items.length ≤ m := List.getElem?_eq_none_iff.mp hitem
      have hsame : feed.chainAfter slot (m + 1) = feed.chainAfter slot m := by
        rw [SlotFeed.chainAfter, SlotFeed.chainAfter, List.take_of_length_le hshort,
          List.take_of_length_le (Nat.le_succ_of_le hshort)]
      rw [hsame] at h
      exact (ih h).imp_right fun ⟨i, response, hni, him, hi⟩ =>
        ⟨i, response, hni, Nat.lt_succ_of_lt him, hi⟩
    | some response =>
      rw [SlotFeed.chainAfter_succ hitem] at h
      rcases mem_follow h with h | h
      · exact (ih h).imp_right fun ⟨i, response', hni, him, hi⟩ =>
          ⟨i, response', hni, Nat.lt_succ_of_lt him, hi⟩
      · exact .inr ⟨m, response, hnm, Nat.lt_succ_self m, hitem, h⟩

/-- The items keep the chain one, if each connected block stands on the tip. -/
theorem isChain_follow {slot : ℕ} {chain : List BlockHeader}
    (hchain : chain.IsChain Protobuf.BlockHeader.StandsOn) {response : Mainchain.SubscribeEventsResponse}
    (hstands : ∀ block ∈ connected slot response, ∀ tip ∈ chain.head?, block.StandsOn tip) :
    (follow slot chain response).IsChain Protobuf.BlockHeader.StandsOn := by
  unfold follow
  split
  · rename_i payload hpayload
    cases hheader : payload.header with
    | none => exact hchain
    | some block =>
      have hconnected : connected slot response = some block :=
        connected_eq_some.mpr ⟨payload, hpayload, hheader⟩
      exact List.isChain_cons.mpr ⟨fun tip htip => hstands block hconnected tip htip, hchain⟩
  · exact hchain.tail
  · exact hchain

/-! ### What the history covers -/

/-- Blocks below are lower. -/
theorem height_lt_of_mem {tip block : BlockHeader} {rest : List BlockHeader}
    (hchain : (tip :: rest).IsChain Protobuf.BlockHeader.StandsOn) (h : block ∈ rest) :
    block.height < tip.height := by
  induction rest generalizing tip with
  | nil => cases h
  | cons parent rest ih =>
    obtain ⟨hstands, hrest⟩ := List.isChain_cons.mp hchain
    have hparent : tip.height = parent.height + 1 := (hstands parent rfl).2
    rcases List.mem_cons.mp h with rfl | h
    · omega
    · have hlower := ih hrest h
      omega

/-- **The chain below a certified tip has facts**, down to the start height, if the record agrees with the
headers of the chain. -/
theorem CertifiedPrefix.hasBlock_chain {startOf : ScopeKey → ℕ} {db : Db} (hdb : CertifiedPrefix startOf db)
    {k : ScopeKey} {chain : List BlockHeader} (hchain : chain.IsChain Protobuf.BlockHeader.StandsOn)
    (hheaders : ∀ e ∈ db.events, ∀ block ∈ chain, e.isBlock k block.hash →
      e.previousHash = some block.previousHash)
    (hcertified : ∀ tip ∈ chain.head?, db.certifies k ⟨tip.hash, tip.height⟩) {block : BlockHeader}
    (hblock : block ∈ chain) (hstart : startOf k ≤ block.height) : db.HasBlock k block.hash := by
  induction chain with
  | nil => cases hblock
  | cons tip rest ih =>
    obtain ⟨c, hc, rfl, hhash, hheight⟩ := hcertified tip rfl
    have hheight : c.height = tip.height := hheight
    obtain ⟨e, he, hisBlock, hprevious, -⟩ := hdb.fact c hc
    rw [hhash] at hisBlock
    rcases List.mem_cons.mp hblock with rfl | hblock
    · exact ⟨e, he, hisBlock⟩
    · obtain ⟨hstands, hrest⟩ := List.isChain_cons.mp hchain
      refine ih hrest (fun e he block hmem => hheaders e he block (List.mem_cons_of_mem _ hmem)) ?_ hblock
      intro parent hparent
      have hlower : block.height < tip.height := height_lt_of_mem hchain hblock
      obtain ⟨hparentHash, hparentHeight⟩ := hstands parent hparent
      rcases hdb.stands c hc with hatStart | ⟨c', hc', hscope, hhash', hheight'⟩
      · rw [hheight] at hatStart
        exact absurd hstart (by omega)
      · have hprevious' := hheaders e he tip List.mem_cons_self hisBlock
        rw [hprevious] at hprevious'
        have hparent : c'.height = parent.height := by
          rw [hheight] at hheight'
          exact Nat.succ.inj (hheight'.trans hparentHeight)
        refine ⟨c', hc', hscope, ?_, hparent⟩
        rw [hhash', Option.some.inj hprevious']
        exact hparentHash

/-! ### What holds of an observation -/

namespace Handover

section
variable {startOf : ScopeKey → ℕ} {store : Store} {inst : SidechainInstanceRef} {s t : Handover}

/-- What holds of an observation: what its stream has reported is recorded, and the targets were read
after the subscription. -/
structure Observed (store : Store) (inst : SidechainInstanceRef) (s : Handover) (o : Observation) : Prop where
  started : o.stream ≤ o.forwarded
  reported : o.forwarded ≤ s.feed.now
  targets : ∀ n ∈ o.targets, o.stream ≤ n ∧ n ≤ s.feed.now
  recorded : ∀ i response, o.stream ≤ i → i < o.forwarded → s.feed.items[i]? = some response →
    ∀ block, connected inst.sidechain response = some block →
      s.record.db.HasBlock (store.historyKey inst) block.hash
  event : ∀ event, o.event = some event → ∃ response observedAt,
    s.feed.items[o.forwarded]? = some response ∧ liveEvent inst.sidechain response observedAt = .ok event

/-- What holds in every state. -/
structure Inv (startOf : ScopeKey → ℕ) (store : Store) (inst : SidechainInstanceRef) (s : Handover) :
    Prop where
  record : s.record.Inv startOf
  linked : ∀ n, (s.feed.chainAfter inst.sidechain n).IsChain Protobuf.BlockHeader.StandsOn
  observed : ∀ o, s.observation = some o → Observed store inst s o

theorem inv_init {base : List BlockHeader} (hbase : base.IsChain Protobuf.BlockHeader.StandsOn) :
    (init base).Inv startOf store inst where
  record := ⟨.empty, fun _ h => by cases h⟩
  linked n := by
    rw [SlotFeed.chainAfter]
    simpa [init] using hbase
  observed _ h := by cases h

/-- Facts stay. -/
theorem Observed.record {o : Observation} (h : Observed store inst s o) {record : Record}
    (hevents : s.record.db.events ⊆ record.db.events) :
    Observed store inst { s with record := record } o :=
  { h with
    recorded := fun i response hi hlt hitem block hblock => by
      obtain ⟨e, he, hisBlock⟩ := h.recorded i response hi hlt hitem block hblock
      exact ⟨e, hevents he, hisBlock⟩ }

/-- The chain moves. -/
theorem Inv.item (h : s.Inv startOf store inst) {response : Mainchain.SubscribeEventsResponse}
    (hstands : ∀ block ∈ connected inst.sidechain response,
      ∀ tip ∈ (s.feed.chainAfter inst.sidechain s.feed.now).head?, block.StandsOn tip) :
    Inv startOf store inst { s with feed := { s.feed with items := s.feed.items ++ [response] } } where
  record := h.record
  linked n := by
    by_cases hn : n ≤ s.feed.items.length
    · rw [SlotFeed.chainAfter_append hn]
      exact h.linked n
    · have hall : (SlotFeed.mk s.feed.base (s.feed.items ++ [response])).chainAfter inst.sidechain n =
          follow inst.sidechain (s.feed.chainAfter inst.sidechain s.feed.now) response := by
        rw [SlotFeed.chainAfter, List.take_of_length_le (by simp; omega), List.foldl_append]
        simp [SlotFeed.chainAfter, SlotFeed.now]
      rw [hall]
      exact isChain_follow (h.linked s.feed.now) hstands
  observed o ho := by
    obtain ⟨hstarted, hreported, htargets, hrecorded, hevent⟩ := h.observed o ho
    have hnow : SlotFeed.now { s.feed with items := s.feed.items ++ [response] } = s.feed.now + 1 := by
      simp [SlotFeed.now]
    refine ⟨hstarted, ?_, fun n hn => ?_, fun i response' hi hlt hitem => ?_, fun event he => ?_⟩
    · rw [hnow]
      exact Nat.le_succ_of_le hreported
    · rw [hnow]
      exact ⟨(htargets n hn).1, Nat.le_succ_of_le (htargets n hn).2⟩
    · have hold : i < s.feed.items.length := Nat.lt_of_lt_of_le hlt hreported
      rw [List.getElem?_append_left hold] at hitem
      exact hrecorded i response' hi hlt hitem
    · obtain ⟨response', observedAt, hitem, hlive⟩ := hevent event he
      refine ⟨response', observedAt, ?_, hlive⟩
      have hold : o.forwarded < s.feed.items.length := (List.getElem?_eq_some_iff.mp hitem).1
      rw [List.getElem?_append_left hold]
      exact hitem

section
variable [Digests]

/-- **One step keeps it.** -/
theorem step_inv (h : s.Inv startOf store inst) {a : HandoverAction}
    (hstep : step startOf store inst s a = some t) : t.Inv startOf store inst := by
  -- the record after a command
  have hrecords {c : Command} {record : Record} (hc : s.record.step startOf c = some record) :
      record.Inv startOf ∧ s.record.db.events ⊆ record.db.events := by
    refine ⟨Record.step_inv _ _ _ h.record hc, ?_⟩
    unfold Record.step at hc
    split_ifs at hc
    cases hc
    exact Db.exec_events startOf s.record.db c
  cases a with
  | item response =>
    simp only [step] at hstep
    split_ifs at hstep with hstands
    cases hstep
    exact h.item hstands
  | openStream =>
    simp only [step] at hstep
    split at hstep
    · cases hstep
      refine ⟨h.record, h.linked, fun o ho => ?_⟩
      cases ho
      exact {
        started := le_rfl
        reported := le_rfl
        targets := fun _ hn => by cases hn
        recorded := fun i response hi hlt => absurd hlt (Nat.not_lt.mpr hi)
        event := fun _ he => by cases he }
    · cases hstep
  | readTip =>
    obtain ⟨o, ho, rfl⟩ := Option.map_eq_some_iff.mp hstep
    refine ⟨h.record, h.linked, fun o' ho' => ?_⟩
    cases ho'
    have hobserved := h.observed o ho
    exact { hobserved with
      targets := fun n hn => by
        rcases List.mem_cons.mp hn with rfl | hn
        · exact ⟨hobserved.started.trans hobserved.reported, le_rfl⟩
        · exact hobserved.targets n hn }
  | next observedAt =>
    simp only [step] at hstep
    split at hstep
    · rename_i stream target targets forwarded ho
      have hobserved := h.observed _ ho
      split at hstep
      · rename_i event hlive
        cases hstep
        refine ⟨h.record, h.linked, fun o' ho' => ?_⟩
        cases ho'
        exact { hobserved with
          event := fun event' he => by
            cases he
            obtain ⟨response, hitem, hlive⟩ := Option.map_eq_some_iff.mp hlive
            exact ⟨response, observedAt, hitem, hlive⟩ }
      · cases hstep
        exact ⟨h.record, h.linked, fun _ ho' => by cases ho'⟩
      · cases hstep
    · cases hstep
  | recordForInstance =>
    simp only [step] at hstep
    split at hstep
    · rename_i stream targets forwarded event ho
      have hobserved := h.observed _ ho
      obtain ⟨record, hrecord, rfl⟩ := Option.map_eq_some_iff.mp hstep
      obtain ⟨hinv, hevents⟩ := hrecords hrecord
      split_ifs with hcommits
      · refine ⟨hinv, h.linked, fun o' ho' => ?_⟩
        cases ho'
        obtain ⟨response, observedAt, hitem, hlive⟩ := hobserved.event event rfl
        have hkept := (hobserved.record hevents).recorded
        have hdb : record.db = s.record.db.exec startOf (.record store [event] .live (some inst)) := by
          unfold Record.step at hrecord
          split_ifs at hrecord
          cases hrecord
          rfl
        exact {
          started := Nat.le_succ_of_le hobserved.started
          reported := (List.getElem?_eq_some_iff.mp hitem).1
          targets := hobserved.targets
          recorded := fun i response' hi hlt hitem' block hblock => by
            rcases Nat.lt_succ_iff_lt_or_eq.mp hlt with hlt | rfl
            · exact hkept i response' hi hlt hitem' block hblock
            · -- the event that has been recorded is the fact of its block
              cases hitem.symm.trans hitem'
              have hrecorded : record.db.RecordsFor store (some inst.sidechain)
                  (some inst.sidechainInstanceId) event := by
                rw [hdb]
                exact Db.commits_records rfl hcommits (List.mem_singleton.mpr rfl)
              exact hrecorded.hasBlock hlive hblock
          event := fun _ he => by cases he }
      · exact ⟨hinv, h.linked, fun _ ho' => by cases ho'⟩
    · cases hstep
  | stop =>
    cases hstep
    exact ⟨h.record, h.linked, fun _ ho => by cases ho⟩
  | other c =>
    obtain ⟨record, hrecord, rfl⟩ := Option.map_eq_some_iff.mp hstep
    obtain ⟨hinv, hevents⟩ := hrecords hrecord
    exact ⟨hinv, h.linked, fun o ho => (h.observed o ho).record hevents⟩

/-- **No block is missed between history and stream.** Whatever else happens, and in whatever order: once a
target of an observation is covered, every block of the chain at each item from the target on that has been
forwarded has a fact, from the start height on, provided the facts of the target's chain have its headers'
parents. -/
theorem handed_over {base : List BlockHeader} (hbase : base.IsChain Protobuf.BlockHeader.StandsOn)
    {as : List HandoverAction} (hrun : run (step startOf store inst) (init base) as = some s)
    {o : Observation} (ho : s.observation = some o) {n m : ℕ} (hn : n ∈ o.targets) (hnm : n ≤ m)
    (hm : m ≤ o.forwarded) {row : CoverageRow} {tip : BlockHeader}
    (htip : tip ∈ (s.feed.chainAfter inst.sidechain n).head?)
    (hcoverage : s.record.db.coverage (store.historyKey inst) = some row)
    (hcovered : row.coveredTip = some ⟨tip.hash, tip.height⟩)
    (hheaders : ∀ e ∈ s.record.db.events, ∀ block ∈ s.feed.chainAfter inst.sidechain n,
      e.isBlock (store.historyKey inst) block.hash → e.previousHash = some block.previousHash)
    {block : BlockHeader} (hblock : block ∈ s.feed.chainAfter inst.sidechain m)
    (hstart : startOf (store.historyKey inst) ≤ block.height) :
    s.record.db.HasBlock (store.historyKey inst) block.hash := by
  have h : s.Inv startOf store inst :=
    run_invariant (fun _ _ _ h hstep => step_inv h hstep) (inv_init hbase) hrun
  have hobserved := h.observed o ho
  rcases SlotFeed.mem_later hnm hblock with hblock | ⟨i, response, hni, him, hitem, hconnected⟩
  · -- it was there when the target was read
    refine h.record.1.hasBlock_chain (h.linked n) hheaders (fun tip' htip' => ?_) hblock hstart
    cases Option.some.inj (htip.symm.trans htip')
    exact h.record.1.covered _ row _ hcoverage hcovered
  · -- it has been connected since, and the stream began before the target was read
    have hstarted : o.stream ≤ i := (hobserved.targets n hn).1.trans hni
    exact hobserved.recorded i response hstarted (him.trans_le hm) hitem block hconnected

end

end

/-! ### One block from the history, and the next from the stream -/

namespace TwoWays

/-- The block at the start height. -/
def first : BlockHeader := ⟨bytes32 1, bytes32 0, 5, bytes32 0, [], 0⟩

/-- Its child. -/
def second : BlockHeader := ⟨bytes32 2, bytes32 1, 6, bytes32 0, [], 0⟩

/-- The item that connects the child. -/
def item : Mainchain.SubscribeEventsResponse :=
  ⟨some (some (.connectBlock
    (some ⟨BothWays.text "02", BothWays.text "01", 6, BothWays.text "00", 0⟩) (some ⟨none, []⟩)))⟩

@[reducible] def digests : Digests := .ofPayloads [
  (.enforcer (some (.activeSidechains [slotNine])),
    0xf2a242527941e63799fa9b77cce23743b8893a0c8ca5904f5b3f83c313c8bfb4),
  ((BothWays.block none).payload, 0xbb0ae4b03f12138661b106cdcfadcb6caf6b7d0dd882eb0d707d4e1dae07f351),
  (.enforcer (some (.blockConnected ⟨some second, 9, none, []⟩)),
    0xa3f44e6fd0c344eb6b91ef7e63910063a5ba687847520c71c304e894bc1adfbd)]

def store : Store := ⟨.enforcer, 0, 0, 9⟩

/-- The target is the block at the start height, and the child is connected before that is imported. -/
def actions : List HandoverAction :=
  let scope : HistoryScope :=
    ⟨.block, some slotNineInstance.sidechain, some slotNineInstance.sidechainInstanceId⟩
  [.other (.initializeIdentity .enforcer 0 0 9),
    .other (.recordSnapshot store [activeReading [slotNine]] .poll (tipMatchedAt BothWays.tip)),
    .openStream, .readTip, .item item, .next (.ok 1), .recordForInstance,
    .other (.beginHistoryCycle store scope none BothWays.tip none (some 4) 100),
    .other (.recordHistoryPage store [BothWays.event none 2] ⟨scope, BothWays.tip, none⟩)]

end TwoWays

/-- Both blocks have a fact. -/
theorem handed_over_twoWays :
    let _ := TwoWays.digests
    ∃ s, run (step (fun _ => 5) TwoWays.store slotNineInstance) (init [TwoWays.first]) TwoWays.actions =
        some s ∧
      s.feed.chainAfter 9 1 = [TwoWays.second, TwoWays.first] ∧
      ∀ block ∈ [TwoWays.second, TwoWays.first],
        s.record.db.HasBlock (TwoWays.store.historyKey slotNineInstance) block.hash := by
  let _ := TwoWays.digests
  let k := TwoWays.store.historyKey slotNineInstance
  have hruns : ((run (step (fun _ => 5) TwoWays.store slotNineInstance) (init [TwoWays.first])
      TwoWays.actions).filter fun s =>
        s.observation.map (fun o => (o.targets, o.forwarded)) = some ([0], 1) ∧
        s.feed.chainAfter 9 0 = [TwoWays.first] ∧
        s.feed.chainAfter 9 1 = [TwoWays.second, TwoWays.first] ∧
        (s.record.db.coverage k).map (·.coveredTip) = some (some ⟨bytes32 1, 5⟩) ∧
        ∀ e ∈ s.record.db.events, e.inScope k → e.blockHash = some (bytes32 1) →
          e.previousHash = some (bytes32 0)).isSome := by
    decide +kernel
  obtain ⟨s, hs⟩ := Option.isSome_iff_exists.mp hruns
  obtain ⟨hs, hstate⟩ := Option.filter_eq_some_iff.mp hs
  obtain ⟨hobservation, hbefore, hafter, hcoverage, hheaders⟩ := of_decide_eq_true hstate
  obtain ⟨o, ho, hwindow⟩ := Option.map_eq_some_iff.mp hobservation
  obtain ⟨htargets, hforwarded⟩ := Prod.mk.inj hwindow
  obtain ⟨row, hrow, hcovered⟩ := Option.map_eq_some_iff.mp hcoverage
  have hslot : slotNineInstance.sidechain = 9 := rfl
  have htip : TwoWays.first ∈ (s.feed.chainAfter slotNineInstance.sidechain 0).head? := by
    rw [hslot, hbefore]
    rfl
  have hparent : ∀ e ∈ s.record.db.events, ∀ block ∈ s.feed.chainAfter slotNineInstance.sidechain 0,
      e.isBlock k block.hash → e.previousHash = some block.previousHash := by
    intro e he block hmem
    rw [hslot, hbefore] at hmem
    obtain rfl := List.mem_singleton.mp hmem
    exact fun hisBlock => hheaders e he hisBlock.1 hisBlock.2
  have hheights : ∀ block ∈ [TwoWays.second, TwoWays.first], 5 ≤ block.height := by decide
  exact ⟨s, hs, hafter, fun block hblock => handed_over (List.isChain_singleton _) hs ho
    (htargets ▸ List.mem_singleton_self 0) (Nat.zero_le 1) hforwarded.ge htip hrow hcovered hparent
    (by rw [hslot, hafter]; exact hblock) (hheights block hblock)⟩

end Handover

end Bip300Monitor
