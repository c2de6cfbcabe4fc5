import Bip300Monitor.Backfill.Pages
import Bip300Monitor.Store.CurrentSet

/-!
# Recording a reading

A reading of the enforcer's mutable state (`extractors/enforcer/src/state.rs`) is one
batch: the proposals, the active set, and two payloads for every selected active slot. A
reading taken while the tip moved is labelled so and is to be recorded all the same.

It cannot always be. The payloads of a slot are tagged with the slot's current instance;
only a tip-matched active set makes an instance current, so in any other reading the slot
must have a current instance already.

## What is proved

* `insertAll_succeeds` — exactly when a batch of events can be inserted;
* `recordSnapshot_reading` — exactly when a reading can be recorded, by a handle whose run is open or not;
* `reading_recordable` — the same in every state of the record.
-/

namespace Bip300Monitor

open Protobuf Transaction

/-! ### Collecting -/

section
variable [Digests]

/-- `sidechain_instance_ref`. -/
def sidechainInstanceRef (sidechain : ActiveSidechain) : Result SidechainInstanceRef := do
  let identity ← sidechainInstanceIdentity sidechain
  pure identity.1

/-- `active_instances` of an active-sidechains payload. -/
def activeInstances (sidechains : List ActiveSidechain) : Result (List SidechainInstanceRef) :=
  sidechains.mapM sidechainInstanceRef

/-- The enforcer's converted answers while a reading is taken. -/
structure Answers where
  proposals : List SidechainProposal
  active : List ActiveSidechain
  ctip : ℕ → Option Ctip
  bundles : ℕ → List WithdrawalBundleProposal

/-- The payloads of one slot. -/
def Answers.slotPayloads (answers : Answers) (slot : ℕ) : List EnforcerEvent :=
  [.ctip ⟨slot, answers.ctip slot⟩, .withdrawalBundleProposals ⟨slot, answers.bundles slot⟩]

/-- `collect_payloads`. -/
def collectPayloads (answers : Answers) (sidechains : List ℕ) (discoverNewSlots : Bool) :
    Result (List EnforcerEvent) := do
  let active ← activeInstances answers.active
  let selected := active.filter fun inst => discoverNewSlots ∨ inst.sidechain ∈ sidechains
  pure (.sidechainProposals answers.proposals :: .activeSidechains answers.active ::
    selected.flatMap fun inst => answers.slotPayloads inst.sidechain)

/-- The payloads a snapshot at startup has before its reading of state. -/
def startupConstants : Option (ChainInfo × ChainTip) → List EnforcerEvent
  | some (info, tip) => [.chainInfo info, .chainTip tip]
  | none => []

end

/-- The event is the payload in an envelope. -/
def IsEnvelope (anchor : ObservedBlock) (payload : EnforcerEvent) (event : Event) : Prop :=
  ∃ now, Backfill.envelope (some payload) anchor (.ok now) = .ok event

/-! ### What a batch needs -/

/-- The slot an event is scoped to. -/
def Protobuf.Event.slot? (event : Event) : Option ℕ :=
  match event.monitorEvent with
  | some (.enforcer (some payload)) => payload.sidechainNumber
  | _ => none

/-- No text of the event has the one character that the record's JSON cannot hold. -/
def Protobuf.Event.textsOk (event : Event) : Prop :=
  ∀ payload ∈ event.monitorEvent, ∀ text ∈ payload.texts, '\x00' ∉ text.toList

/-- The instance of the slot's events can be looked up. -/
def Db.knows (db : Db) (dataset : Uuid) (cache : InstanceCache) (slot : ℕ) : Prop :=
  (∃ id, cache slot = some id) ∨ ∃ id, db.currentInstance dataset slot = some id

/-- An authoritative active set decides which slots the events after it can be of. -/
def knownAfter (authoritative : Bool) (known : ℕ → Prop) (event : Event) : ℕ → Prop :=
  match authoritative, event.activeSidechains? with
  | true, some sidechains => fun slot => ∃ sidechain ∈ sidechains, sidechain.sidechainNumber = slot
  | _, _ => known

/-- Each event's slot is known when its turn comes. -/
def Resolvable (authoritative : Bool) : (ℕ → Prop) → List Event → Prop
  | _, [] => True
  | known, event :: rest => (∀ slot ∈ event.slot?, knownAfter authoritative known event slot) ∧
      Resolvable authoritative (knownAfter authoritative known event) rest

/-- A batch is being recorded: its group has the label, its next sequence number is fresh,
and the current instances are registered. -/
structure Db.Receives (db : Db) (run : Uuid) (group : ℕ) (label : SnapshotConsistency)
    (captureSeq : ℕ) : Prop where
  group : (db.snapshotGroups.find? (·.snapshotGroupId = group)).map (·.consistency) = some label
  fresh : ∀ o ∈ db.observations, o.runId = run → o.captureSeq < captureSeq
  current : ∀ c ∈ db.currentInstances, db.isRegistered c.datasetId c.sidechainInstanceId

theorem Recorded.receives {run : Uuid} {group captureSeq : ℕ} {label : SnapshotConsistency}
    {s t : Db} (h : Recorded run captureSeq s t) (hs : s.Receives run group label captureSeq) :
    t.Receives run group label (captureSeq + 1) where
  group := by rw [h.snapshotGroups]; exact hs.group
  fresh o ho hrun := by
    obtain ⟨o', ho', hseq, hobs⟩ := h.observations
    rw [hobs] at ho
    rcases List.mem_append.mp ho with ho | ho
    · exact Nat.lt_succ_of_lt (hs.fresh o ho hrun)
    · rw [List.mem_singleton.mp ho, hseq]
      exact Nat.lt_succ_self _
  current := h.current hs.current

/-- Every instance the cache holds is registered. -/
def InstanceCache.Registered (cache : InstanceCache) (db : Db) (dataset : Uuid) : Prop :=
  ∀ slot id, cache slot = some id → db.isRegistered dataset id

/-! ### Looking an instance up -/

theorem currentInstance_isRegistered {db : Db} {dataset : Uuid} {slot : ℕ} {id : String}
    (hcurrent : ∀ c ∈ db.currentInstances, db.isRegistered c.datasetId c.sidechainInstanceId)
    (h : db.currentInstance dataset slot = some id) : db.isRegistered dataset id := by
  obtain ⟨c, hc, rfl⟩ := Option.map_eq_some_iff.mp h
  have hfound := List.find?_some hc
  obtain ⟨rfl, -⟩ := of_decide_eq_true hfound
  exact hcurrent c (List.mem_of_find?_eq_some hc)

/-- An event without an explicit instance finds one exactly when its slot is known. -/
theorem succeeds_resolveInstance {dataset : Uuid} {f : Facts} {cache : InstanceCache} {db : Db} :
    Tx.Succeeds (resolveInstance dataset f none none cache) db ↔
      ∀ slot ∈ f.sidechain, db.knows dataset cache slot := by
  cases hslot : f.sidechain with
  | none => simp [resolveInstance, hslot]
  | some slot =>
    cases hcache : cache slot with
    | some id => simp [resolveInstance, hslot, hcache, Db.knows]
    | none =>
      cases hcurrent : db.currentInstance dataset slot with
      | none => simp [resolveInstance, hslot, hcache, hcurrent, Db.knows, Tx.Succeeds, Tx.bind_eq_ok]
      | some id => simp [resolveInstance, hslot, hcache, hcurrent, Db.knows, Tx.Succeeds, Tx.bind_eq_ok]

/-- What it finds is registered, and the cache then knows as much as before. -/
theorem resolveInstance_inv {dataset : Uuid} {f : Facts} {cache : InstanceCache} {db t : Db}
    {r : Option String × InstanceCache} (hcache : cache.Registered db dataset)
    (hcurrent : ∀ c ∈ db.currentInstances, db.isRegistered c.datasetId c.sidechainInstanceId)
    (h : resolveInstance dataset f none none cache db = .ok (r, t)) :
    (∀ id ∈ r.1, db.isRegistered dataset id) ∧ r.2.Registered db dataset ∧
      ∀ slot, db.knows dataset r.2 slot ↔ db.knows dataset cache slot := by
  cases hslot : f.sidechain with
  | none =>
    simp only [resolveInstance, hslot, Tx.pure_eq_ok] at h
    obtain ⟨rfl, -⟩ := h
    exact ⟨by simp, hcache, fun _ => Iff.rfl⟩
  | some slot =>
    cases hfound : cache slot with
    | some id =>
      simp only [resolveInstance, hslot, hfound, Tx.pure_eq_ok] at h
      obtain ⟨rfl, -⟩ := h
      exact ⟨by simpa using hcache slot id hfound, hcache, fun _ => Iff.rfl⟩
    | none =>
      simp only [resolveInstance, hslot, hfound, Tx.read_bind_eq_ok, Tx.expect_bind_eq_ok,
        Tx.pure_eq_ok] at h
      obtain ⟨id, hid, rfl, -⟩ := h
      have hreg : db.isRegistered dataset id := currentInstance_isRegistered hcurrent hid
      refine ⟨by simpa using hreg, fun slot' id' hid' => ?_, fun slot' => ?_⟩
      · by_cases heq : slot' = slot
        · subst heq
          simp only [Function.update_self, Option.some.injEq] at hid'
          rw [← hid']
          exact hreg
        · simp only [Function.update_of_ne heq] at hid'
          exact hcache slot' id' hid'
      · by_cases heq : slot' = slot
        · subst heq
          simp [Db.knows, hid]
        · simp [Db.knows, Function.update_of_ne heq]

/-! ### Registering the active set -/

theorem ofCurrent_eq_some {current : List (ℕ × String)} {slot : ℕ} {id : String}
    (h : InstanceCache.ofCurrent current slot = some id) : (slot, id) ∈ current := by
  have hfold : ∀ (ps : List (ℕ × String)) (cache : InstanceCache),
      ps.foldl (fun (cache : InstanceCache) p => Function.update cache p.1 (some p.2)) cache slot = some id →
        cache slot = some id ∨ (slot, id) ∈ ps := by
    intro ps
    induction ps with
    | nil => exact fun cache h => .inl h
    | cons p ps ih =>
      intro cache h
      rcases ih _ h with h | h
      · by_cases heq : slot = p.1
        · subst heq
          simp only [Function.update_self, Option.some.injEq] at h
          rw [← h]
          exact .inr List.mem_cons_self
        · simp only [Function.update_of_ne heq] at h
          exact .inl h
      · exact .inr (List.mem_cons_of_mem p h)
  rcases hfold _ _ h with h | h
  · cases h
  · exact h

theorem ofCurrent_of_mem {current : List (ℕ × String)} {slot : ℕ} (h : slot ∈ current.map (·.1)) :
    ∃ id, InstanceCache.ofCurrent current slot = some id := by
  have hfold : ∀ (ps : List (ℕ × String)) (cache : InstanceCache),
      (∃ id, cache slot = some id) ∨ slot ∈ ps.map (·.1) →
        ∃ id, ps.foldl (fun (cache : InstanceCache) p => Function.update cache p.1 (some p.2)) cache slot =
          some id := by
    intro ps
    induction ps with
    | nil =>
      rintro cache (h | h)
      · exact h
      · cases h
    | cons p ps ih =>
      intro cache h
      apply ih
      by_cases heq : slot = p.1
      · subst heq
        exact .inl ⟨p.2, Function.update_self ..⟩
      · simp only [Function.update_of_ne heq]
        exact h.imp_right fun h => (List.mem_cons.mp h).resolve_left heq
  exact hfold _ _ (.inr h)

section
variable [Digests]

/-- What the tables ask of an active sidechain: a slot, an identity that its fields bear
out, and heights in order. -/
structure Protobuf.ActiveSidechain.Valid (sidechain : ActiveSidechain) : Prop where
  identity : ∃ identity, sidechainInstanceIdentity sidechain = .ok identity
  height_le : sidechain.activationHeight ≤ maxHeight
  proposal_le : sidechain.proposalHeight ≤ sidechain.activationHeight

theorem sidechainInstanceIdentity_inv {sidechain : ActiveSidechain}
    {identity : SidechainInstanceRef × Bytes}
    (h : sidechainInstanceIdentity sidechain = .ok identity) :
    sidechain.sidechainNumber ≤ 255 ∧ identity.1.sidechain = sidechain.sidechainNumber ∧
      identity.2.length = 32 := by
  obtain ⟨slot, hslot, h⟩ := Result.bind_eq_ok.mp h
  obtain ⟨hle, rfl⟩ := narrow_eq_ok.mp (Result.context_eq_ok.mp hslot)
  obtain ⟨hash, hhash, h⟩ := Result.bind_eq_ok.mp h
  rw [Result.context_eq_ok] at hhash
  split_ifs at h
  cases h
  refine ⟨hle, rfl, ?_⟩
  unfold sidechainDescriptionHash at hhash
  split at hhash
  · cases hhash
    rw [List.length_reverse, Digests.sha256d_length]
  · cases hhash

/-- The instances of valid sidechains can be recorded, slot by slot. -/
theorem recordInstances_of_valid (dataset : Uuid) (observedAt : ℕ)
    {sidechains : List ActiveSidechain} (h : ∀ sidechain ∈ sidechains, sidechain.Valid) (s : Db) :
    ∃ current t, recordInstances dataset observedAt sidechains s = .ok (current, t) ∧
      current.map (·.1) = sidechains.map (·.sidechainNumber) := by
  induction sidechains generalizing s with
  | nil => exact ⟨[], s, rfl, rfl⟩
  | cons sidechain rest ih =>
    obtain ⟨⟨identity, hidentity⟩, hheight, hproposal⟩ := h sidechain List.mem_cons_self
    obtain ⟨hslot, -, hlength⟩ := sidechainInstanceIdentity_inv hidentity
    have hrow : ∀ row : SidechainInstanceRow, row.sidechain ≤ 255 ∧
        row.descriptionSha256d.length = 32 ∧ row.proposalHeight ≤ row.activationHeight →
        Tx.Succeeds (recordSidechainInstance row) s := by
      intro row hok
      exact (Tx.succeeds_bind (Tx.succeeds_require _ _)
        fun _ _ _ => Tx.succeeds_modify _).mpr ⟨hok, trivial⟩
    obtain ⟨_, u, hu⟩ := hrow ⟨dataset, identity.1.sidechainInstanceId, sidechain.sidechainNumber,
      sidechain.rawDescription, identity.2, sidechain.proposalHeight, sidechain.activationHeight,
      observedAt, observedAt⟩ ⟨hslot, hlength, hproposal⟩
    obtain ⟨current, t, ht, hmap⟩ := ih (fun sidechain' h' => h sidechain' (List.mem_cons_of_mem _ h')) u
    refine ⟨(sidechain.sidechainNumber, identity.1.sidechainInstanceId) :: current, t, ?_, ?_⟩
    · rw [recordInstances, recordInstancesWith, Tx.lift_bind_eq_ok]
      refine ⟨sidechain.sidechainNumber, ?_, Tx.require_bind_eq_ok.mpr ⟨hslot, ?_⟩⟩
      · rw [Result.context_eq_ok, narrow_eq_ok]
        exact ⟨hslot.trans (by decide), rfl⟩
      rw [Tx.lift_bind_eq_ok]
      refine ⟨_, heightToI32_eq_ok.mpr ⟨hproposal.trans hheight, rfl⟩, ?_⟩
      rw [Tx.lift_bind_eq_ok]
      refine ⟨_, heightToI32_eq_ok.mpr ⟨hheight, rfl⟩, ?_⟩
      rw [Tx.lift_bind_eq_ok]
      refine ⟨identity, hidentity, Tx.bind_eq_ok.mpr ⟨_, u, hu, Tx.bind_eq_ok.mpr ⟨current, t, ht, ?_⟩⟩⟩
      exact Tx.pure_eq_ok.mpr ⟨rfl, rfl⟩
    · rw [List.map_cons, List.map_cons, hmap]

/-- **What a reading of the active set does to what is known**: an authoritative one knows
its own slots, any other what was known before. -/
theorem updateSidechainInstances_knows (dataset : Uuid) {event : Event} (observedAt : ℕ)
    (cache : InstanceCache) (authoritative : Bool)
    (hvalid : ∀ sidechains, event.activeSidechains? = some sidechains →
      ∀ sidechain ∈ sidechains, sidechain.Valid) (s : Db) :
    ∃ cache' t, updateSidechainInstances dataset event observedAt cache authoritative s =
        .ok (cache', t) ∧
      (cache.Registered s dataset → cache'.Registered t dataset) ∧
      ∀ slot, t.knows dataset cache' slot ↔
        knownAfter authoritative (s.knows dataset cache) event slot := by
  cases hactive : event.activeSidechains? with
  | none =>
    refine ⟨cache, s, ?_, id, fun slot => ?_⟩
    · simp [updateSidechainInstances, updateSidechainInstancesWith, hactive]
    · cases authoritative <;> simp [knownAfter, hactive]
  | some sidechains =>
    obtain ⟨current, u, hu, hmap⟩ := recordInstances_of_valid dataset observedAt
      (hvalid sidechains hactive) s
    obtain ⟨hsu, hreg, hcurrent⟩ := recordInstances_inv hu
    cases authoritative with
    | false =>
      refine ⟨cache, u, ?_, fun h slot id hid => hsu.registered _ _ (h slot id hid), fun slot => ?_⟩
      · simp only [updateSidechainInstances, updateSidechainInstancesWith, hactive, Tx.bind_eq_ok]
        exact ⟨current, u, hu, Tx.pure_eq_ok.mpr ⟨rfl, rfl⟩⟩
      · simp only [knownAfter, Db.knows, Db.currentInstance, hcurrent]
    | true =>
      let v : Db :=
        { u with currentInstances := replaceCurrent dataset observedAt current u.currentInstances }
      refine ⟨.ofCurrent current, v, ?_, fun _ slot id hid => ?_, fun slot => ?_⟩
      · rw [updateSidechainInstances, updateSidechainInstancesWith, hactive]
        exact Tx.bind_eq_ok.mpr ⟨current, u, hu, Tx.bind_eq_ok.mpr
          ⟨⟨⟩, v, Tx.modify_eq_ok.mpr rfl, Tx.pure_eq_ok.mpr ⟨rfl, rfl⟩⟩⟩
      · exact hreg _ (ofCurrent_eq_some hid)
      · have hslots : (∃ sidechain ∈ sidechains, sidechain.sidechainNumber = slot) ↔
            slot ∈ current.map (·.1) := by
          rw [hmap, List.mem_map]
        simp only [knownAfter, hactive, hslots]
        constructor
        · rintro (⟨id, hid⟩ | ⟨id, hid⟩)
          · exact List.mem_map_of_mem (ofCurrent_eq_some hid)
          · obtain ⟨c, hc, rfl⟩ := Option.map_eq_some_iff.mp hid
            have hfound := List.find?_some hc
            obtain ⟨hdataset, rfl⟩ := of_decide_eq_true hfound
            rcases mem_replaceCurrent (List.mem_of_find?_eq_some hc) with ⟨-, hne⟩ | ⟨-, hmem⟩
            · exact absurd hdataset hne
            · exact List.mem_map_of_mem hmem
        · exact fun h => .inl (ofCurrent_of_mem h)

/-! ### Inserting a batch -/

/-- What the code itself makes sure of in the events of a batch. -/
structure Protobuf.Event.Described (event : Event) : Prop where
  facts : ∃ f, facts event = .ok f ∧ f.sidechain = event.slot?
  payload : ∃ payload, event.monitorEvent = some payload
  anchor : ∀ block ∈ event.observedAtBlock, block.hash.length = 32
  previous : previousHash event = none
  active : ∀ sidechains, event.activeSidechains? = some sidechains →
    ∀ sidechain ∈ sidechains, sidechain.Valid

/-- The row of a described event meets the constraints exactly when its texts do. -/
theorem factRow_valid {store : Store} {event : Event} {f : Facts} {payload : MonitorEvent}
    {inst : Option String} (hd : event.Described) (hf : facts event = .ok f) :
    (factRow store event f payload inst).valid ↔ event.textsOk := by
  have hblock : ∀ h ∈ f.blockHash, h.length = 32 := by
    rw [facts_blockHash hf]
    intro h hh
    obtain ⟨block, hb, rfl⟩ := Option.map_eq_some_iff.mp hh
    exact hd.anchor block hb
  constructor
  · exact fun h => h.2.2
  · refine fun h => ⟨hblock, fun hash hh => ?_, h⟩
    rw [factRow, hd.previous] at hh
    cases hh

omit [Digests] in
/-- A fact with a registered instance can be inserted exactly when its row is valid. -/
theorem succeeds_insertFact {row : EventRow} {db : Db}
    (h : ∀ id ∈ row.sidechainInstanceId, db.isRegistered row.datasetId id) :
    Tx.Succeeds (insertFact row) db ↔ row.valid := by
  constructor
  · rintro ⟨a, t, hok⟩
    exact (insertFact_eq_ok.mp hok).1
  · intro hvalid
    cases hrow : db.recordedFact row with
    | some e => exact ⟨_, _, insertFact_eq_ok.mpr ⟨hvalid, .inl ⟨e, hrow, rfl, rfl⟩⟩⟩
    | none => exact ⟨_, _, insertFact_eq_ok.mpr ⟨hvalid, .inr ⟨hrow, h, rfl, rfl⟩⟩⟩

/-- **When one event can be inserted**: its texts can be held, and its slot is known once
its own reading of the active set has been taken. -/
theorem succeeds_insert {store : Store} {method : CaptureMethod} {group captureSeq : ℕ}
    {label : SnapshotConsistency} {event : Event} {cache : InstanceCache} {s : Db}
    (hs : s.Receives store.runId group label captureSeq) (hd : event.Described)
    (hcache : cache.Registered s store.datasetId) :
    Tx.Succeeds (insert store method (some group) none none captureSeq event cache) s ↔
      event.textsOk ∧ ∀ slot ∈ event.slot?,
        knownAfter label.authoritative (s.knows store.datasetId cache) event slot := by
  obtain ⟨f, hf, hslot⟩ := hd.facts
  obtain ⟨payload, hp⟩ := hd.payload
  obtain ⟨cache', u, hu, hreg, hknows⟩ := updateSidechainInstances_knows
    store.datasetId event.timestamp cache label.authoritative hd.active s
  have hsu := (updateSidechainInstances_inv hu).1
  have hresolved : Tx.Succeeds (do
      let resolved ← resolveInstance store.datasetId f none none cache'
      let fact ← insertFact (factRow store event f payload resolved.1)
      insertObservation ⟨store.datasetId, store.runId, captureSeq, method, fact.1, some group,
        event.timestamp⟩
      pure (if fact.2 then 1 else 0, resolved.2)) u ↔
      (∀ slot ∈ f.sidechain, u.knows store.datasetId cache' slot) ∧ event.textsOk ∧ True := by
    refine Tx.succeeds_bind succeeds_resolveInstance fun resolved t ht => ?_
    obtain rfl : u = t := reads_resolveInstance _ _ _ _ _ ht
    obtain ⟨hinst, -⟩ := resolveInstance_inv (hreg hcache) (hsu.current hs.current) ht
    refine Tx.succeeds_bind ((succeeds_insertFact hinst).trans (factRow_valid hd hf))
      fun fact v hv => iff_true_intro ?_
    have huv := sameBooks_insertFact _ hv
    have hobs : Tx.Succeeds (insertObservation ⟨store.datasetId, store.runId, captureSeq, method,
        fact.1, some group, event.timestamp⟩) v := by
      rw [insertObservation, Tx.succeeds_bind_of_ok (Tx.read_eq_ok.mpr ⟨rfl, rfl⟩)]
      refine (Tx.succeeds_bind (Tx.succeeds_require _ _) fun _ _ _ => Tx.succeeds_modify _).mpr
        ⟨fun o ho heq => ?_, trivial⟩
      rw [huv.observations, hsu.observations] at ho
      exact absurd heq.2 (Nat.ne_of_lt (hs.fresh o ho heq.1))
    exact (Tx.succeeds_bind (iff_true_intro hobs) fun _ _ _ => Tx.succeeds_pure _).mpr
      ⟨trivial, trivial⟩
  rw [insert, insertWith, Tx.succeeds_bind_of_ok (Tx.lift_eq_ok.mpr ⟨Result.context_eq_ok.mpr hf, rfl⟩),
    Tx.succeeds_bind_of_ok (Tx.expect_eq_ok.mpr ⟨hp, rfl⟩),
    Tx.succeeds_bind_of_ok (isAuthoritative_eq_ok hs.group), Tx.succeeds_bind_of_ok hu, hresolved,
    hslot]
  simp only [hknows, and_true]
  exact and_comm

/-- What is known after an event. -/
theorem insert_knows {store : Store} {method : CaptureMethod} {group captureSeq : ℕ}
    {label : SnapshotConsistency} {event : Event} {cache : InstanceCache} {s t : Db}
    {r : ℕ × InstanceCache} (hs : s.Receives store.runId group label captureSeq)
    (hd : event.Described) (hcache : cache.Registered s store.datasetId)
    (h : insert store method (some group) none none captureSeq event cache s = .ok (r, t)) :
    r.2.Registered t store.datasetId ∧ ∀ slot, t.knows store.datasetId r.2 slot ↔
      knownAfter label.authoritative (s.knows store.datasetId cache) event slot := by
  obtain ⟨f, payload, authoritative, cache', u, resolved, fact, v, -, -, hauth, hupd, hres, hfact,
    hobs, hcache'⟩ := insert_pieces h
  obtain ⟨rfl, -⟩ := Prod.mk.inj (Except.ok.inj (hauth.symm.trans (isAuthoritative_eq_ok hs.group)))
  obtain ⟨cache'', u', hu, hreg, hknows⟩ := updateSidechainInstances_knows
    store.datasetId event.timestamp cache label.authoritative hd.active s
  obtain ⟨rfl, rfl⟩ := Prod.mk.inj (Except.ok.inj (hupd.symm.trans hu))
  have hsu := (updateSidechainInstances_inv hupd).1
  obtain ⟨-, hreg', hknows'⟩ := resolveInstance_inv (hreg hcache) (hsu.current hs.current) hres
  have huv := sameBooks_insertFact _ hfact
  obtain ⟨-, hobs⟩ := Tx.require_bind_eq_ok.mp (Tx.read_bind_eq_ok.mp hobs)
  obtain rfl := Tx.modify_eq_ok.mp hobs
  rw [hcache']
  refine ⟨fun slot id hid => ?_, fun slot => ?_⟩
  · exact (huv.isRegistered _ _).mpr (hreg' slot id hid)
  · rw [← hknows, ← hknows', Db.knows, Db.knows]
    exact or_congr_right (exists_congr fun id => by
      rw [← huv.currentInstance store.datasetId slot, Db.currentInstance, Db.currentInstance])

/-- **When a batch can be inserted**: all its texts can be held, and each event's slot is
known when its turn comes. -/
theorem insertAll_succeeds {store : Store} {method : CaptureMethod} {group captureSeq : ℕ}
    {label : SnapshotConsistency} {events : List Event} {cache : InstanceCache} {s : Db}
    {known : ℕ → Prop} (hs : s.Receives store.runId group label captureSeq)
    (hd : ∀ event ∈ events, event.Described) (hcache : cache.Registered s store.datasetId)
    (hknown : ∀ slot, s.knows store.datasetId cache slot ↔ known slot) :
    Tx.Succeeds (insertAll store method (some group) none none captureSeq events cache) s ↔
      (∀ event ∈ events, event.textsOk) ∧ Resolvable label.authoritative known events := by
  induction events generalizing captureSeq cache s known with
  | nil => simp [insertAll, insertAllWith, Resolvable]
  | cons event rest ih =>
    obtain rfl : s.knows store.datasetId cache = known := funext fun slot => propext (hknown slot)
    have hevent := hd event List.mem_cons_self
    rw [insertAll, insertAllWith, Tx.succeeds_bind (succeeds_insert hs hevent hcache) fun r t ht => ?_]
    rotate_left
    · exact (∀ event ∈ rest, event.textsOk) ∧ Resolvable label.authoritative
        (knownAfter label.authoritative (s.knows store.datasetId cache) event) rest
    · obtain ⟨hreg, hknows⟩ := insert_knows hs hevent hcache ht
      rw [← and_true (_ ∧ _)]
      exact Tx.succeeds_bind (ih ((insert_recorded ht).receives hs)
        (fun event h => hd event (List.mem_cons_of_mem _ h)) hreg hknows)
        fun _ _ _ => Tx.succeeds_pure _
    · simp only [List.forall_mem_cons, Resolvable]
      tauto

/-! ### A reading -/

omit [Digests] in
theorem IsEnvelope.eq {anchor : ObservedBlock} {payload : EnforcerEvent} {event : Event}
    (h : IsEnvelope anchor payload event) : ∃ now block,
      event = ⟨now, block, some (.enforcer (some payload))⟩ ∧ ∀ b ∈ block, b = anchor := by
  obtain ⟨now, h⟩ := h
  rw [Backfill.envelope, Result.context_eq_ok] at h
  cases h
  refine ⟨now, _, rfl, fun b hb => ?_⟩
  split_ifs at hb
  · cases hb
  · exact (Option.some.inj hb).symm

/-- The payloads a reading is made of. -/
def Protobuf.EnforcerEvent.ofReading : EnforcerEvent → Prop
  | .chainInfo _ | .chainTip _ | .sidechainProposals _ | .activeSidechains _ | .ctip _
  | .withdrawalBundleProposals _ => True
  | _ => False

/-- A block as the converters report it: a hash of 32 bytes, and a height. -/
structure ObservedBlock.Reported (block : ObservedBlock) : Prop where
  hash : block.hash.length = 32
  height : ∃ height, block.height = some height

/-- The block's height fits in the column of a height. -/
def ObservedBlock.Fits (block : ObservedBlock) : Prop := ∀ height ∈ block.height, height ≤ maxHeight

/-- The height of the event's anchor does. -/
def Protobuf.Event.anchorFits (event : Event) : Prop := ∀ block ∈ event.observedAtBlock, block.Fits

/-- A payload of a reading is described. -/
theorem IsEnvelope.described {anchor : ObservedBlock} {payload : EnforcerEvent} {event : Event}
    (h : IsEnvelope anchor payload event) (hanchor : anchor.Reported) (hfits : event.anchorFits)
    (hof : payload.ofReading)
    (hslot : ∀ slot ∈ payload.sidechainNumber, slot ≤ 255)
    (hactive : ∀ sidechains, payload = .activeSidechains sidechains →
      ∀ sidechain ∈ sidechains, sidechain.Valid) : event.Described := by
  obtain ⟨now, block, rfl, hblock⟩ := h.eq
  refine ⟨?_, ⟨_, rfl⟩, fun b hb => hblock b hb ▸ hanchor.hash, ?_, fun sidechains hs => ?_⟩
  · have hnarrow : Result.transpose (payload.sidechainNumber.map fun slot =>
        (narrow maxSmallint slot).context
          ("sidechain slot " ++ toString slot ++ " does not fit in a u8")) =
        .ok payload.sidechainNumber := by
      rw [Result.transpose_map_eq_ok]
      cases hnumber : payload.sidechainNumber with
      | none => exact .inl ⟨rfl, rfl⟩
      | some slot =>
        have hle : slot ≤ 255 := hslot slot hnumber
        refine .inr ⟨slot, slot, rfl, ?_, rfl⟩
        rw [Result.context_eq_ok, narrow_eq_ok]
        exact ⟨hle.trans (by decide), rfl⟩
    have hheight : ∃ height, Result.transpose
        ((Event.anchorHeight ⟨now, block, some (.enforcer (some payload))⟩).map heightToI32) =
          .ok height := by
      cases block with
      | none => exact ⟨none, rfl⟩
      | some b =>
        obtain ⟨height, heq⟩ := hanchor.height
        rw [← hblock b rfl] at heq
        refine ⟨some height, ?_⟩
        rw [Result.transpose_map_eq_ok]
        exact .inr ⟨height, height, heq, heightToI32_eq_ok.mpr ⟨hfits b rfl height heq, rfl⟩, rfl⟩
    obtain ⟨height, hheight⟩ := hheight
    refine ⟨⟨payload.kind, payload.sidechainNumber, block.map (·.hash), height⟩, ?_, rfl⟩
    simp only [facts, hnarrow, hheight]
    rfl
  · cases payload <;> first | rfl | cases hof
  · cases payload <;> cases hs
    exact hactive _ rfl

omit [Digests] in
/-- Events of other payloads before a reading change nothing in what it needs. -/
theorem resolvable_global (authoritative : Bool) (known : ℕ → Prop) {anchor : ObservedBlock}
    {globals payloads : List EnforcerEvent} {events : List Event}
    (hglobal : ∀ p ∈ globals, p.sidechainNumber = none ∧ ∀ ss, p ≠ .activeSidechains ss)
    (h : List.Forall₂ (IsEnvelope anchor) (globals ++ payloads) events) :
    ∃ rest, List.Forall₂ (IsEnvelope anchor) payloads rest ∧
      (Resolvable authoritative known events ↔ Resolvable authoritative known rest) := by
  induction globals generalizing events with
  | nil => exact ⟨events, h, Iff.rfl⟩
  | cons p globals ih =>
    obtain ⟨event, others, hp, hothers, rfl⟩ := List.forall₂_cons_left_iff.mp h
    obtain ⟨rest, hrest, hiff⟩ := ih (fun q hq => hglobal q (List.mem_cons_of_mem p hq)) hothers
    obtain ⟨hslot, hactive⟩ := hglobal p List.mem_cons_self
    obtain ⟨now, block, rfl, -⟩ := hp.eq
    refine ⟨rest, hrest, Iff.trans ?_ hiff⟩
    have hknown : knownAfter authoritative known ⟨now, block, some (.enforcer (some p))⟩ = known := by
      cases authoritative
      · rfl
      · cases p <;> first | rfl | exact absurd rfl (hactive _)
    simp [Resolvable, Event.slot?, hslot, hknown]

omit [Digests] in
/-- Without another reading of the active set, every slot must be known from the start. -/
theorem resolvable_slots (authoritative : Bool) (known : ℕ → Prop) {anchor : ObservedBlock}
    {payloads : List EnforcerEvent} {events : List Event}
    (hactive : ∀ p ∈ payloads, ∀ ss, p ≠ .activeSidechains ss)
    (h : List.Forall₂ (IsEnvelope anchor) payloads events) :
    Resolvable authoritative known events ↔
      ∀ p ∈ payloads, ∀ slot ∈ p.sidechainNumber, known slot := by
  induction h with
  | nil => simp [Resolvable]
  | @cons p event payloads events hp hrest ih =>
    obtain ⟨now, block, rfl, -⟩ := hp.eq
    have hp := hactive p List.mem_cons_self
    have hknown : knownAfter authoritative known ⟨now, block, some (.enforcer (some p))⟩ = known := by
      cases authoritative
      · rfl
      · cases p <;> first | rfl | exact absurd rfl (hp _)
    rw [Resolvable, hknown, ih fun q hq => hactive q (List.mem_cons_of_mem p hq), List.forall_mem_cons]
    rfl

/-- Metadata the collectors produce: two tips the record can hold, no claimed revision, at
most three attempts, and one of the labels of the official API. -/
structure SnapshotMetadata.Collected (metadata : SnapshotMetadata) : Prop where
  tipBefore : metadata.tipBefore.Reported
  tipAfter : metadata.tipAfter.Reported
  revisionBefore : metadata.revisionBefore = none
  revisionAfter : metadata.revisionAfter = none
  attempts : 1 ≤ metadata.attempts ∧ metadata.attempts ≤ 3
  consistency : metadata.consistency = .tipMatched ∨ metadata.consistency = .changed ∨
    metadata.consistency = .unknown

/-- The label is one the window bears out, the clock did not go back in it, and the heights
of its tips can be held. -/
structure SnapshotMetadata.Consistent (metadata : SnapshotMetadata) : Prop where
  time : metadata.startedAt ≤ metadata.finishedAt
  matched : metadata.consistency = .tipMatched → metadata.tipBefore = metadata.tipAfter
  before_fits : metadata.tipBefore.Fits
  after_fits : metadata.tipAfter.Fits

omit [Digests] in
theorem checkSnapshot_eq_ok (store : Store) {metadata : SnapshotMetadata}
    (h : metadata.Collected) : checkSnapshot store metadata = .ok () ↔
      (metadata.consistency = .tipMatched → metadata.tipBefore = metadata.tipAfter) := by
  have hstable : metadata.consistency ≠ .stable := by
    rcases h.consistency with hc | hc | hc <;> simp [hc]
  simp only [checkSnapshot, requireHash, if_pos h.tipBefore.hash, if_pos h.tipAfter.hash,
    h.revisionBefore, h.revisionAfter, hstable]
  by_cases hmatched : metadata.consistency = .tipMatched
  · by_cases htips : metadata.tipBefore = metadata.tipAfter <;> simp [hmatched, htips, bind, Except.bind]
  · simp [hmatched, bind, Except.bind]

omit [Digests] in
/-- The sequence numbers of a batch can be reserved while its run is running. -/
theorem succeeds_reserveCaptureSequences {run : Uuid} {count : ℕ} {db : Db} (hcount : count ≠ 0)
    (hrun : db.isRunning run) : Tx.Succeeds (reserveCaptureSequences run count) db := by
  obtain ⟨row, hmem, hrow⟩ := hrun
  have hfind : ∃ row, db.runs.find? (fun r => r.runId = run ∧ r.status = .running) = some row := by
    rw [← Option.isSome_iff_exists, List.find?_isSome]
    exact ⟨row, hmem, decide_eq_true hrow⟩
  obtain ⟨row, hfind⟩ := hfind
  rw [reserveCaptureSequences,
    Tx.succeeds_bind_of_ok (a := ⟨⟩) (Tx.require_eq_ok.mpr ⟨hcount, rfl⟩),
    Tx.succeeds_bind_of_ok (Tx.read_eq_ok.mpr ⟨rfl, rfl⟩),
    Tx.succeeds_bind_of_ok (Tx.expect_eq_ok.mpr ⟨hfind, rfl⟩),
    Tx.succeeds_bind_of_ok (a := ⟨⟩) (Tx.modify_eq_ok.mpr rfl)]
  exact (Tx.succeeds_pure _).mpr trivial

omit [Digests] in
theorem succeeds_updateExtractorStatus (store : Store) {tip : ObservedBlock} (h : tip.Reported)
    (hfits : tip.Fits) (db : Db) : Tx.Succeeds (updateExtractorStatus store tip) db := by
  obtain ⟨height, hheight⟩ := h.height
  rw [updateExtractorStatus,
    Tx.succeeds_bind_of_ok (Tx.lift_eq_ok.mpr ⟨requiredHeight_eq_ok.mpr hheight, rfl⟩),
    Tx.succeeds_bind_of_ok (Tx.lift_eq_ok.mpr ⟨heightToI32_eq_ok.mpr ⟨hfits _ hheight, rfl⟩, rfl⟩)]
  exact (Tx.succeeds_modify _).mpr trivial

/-- The run of a recorded snapshot is open, its tips fit, and its events are inserted. -/
theorem recordSnapshot_pieces {store : Store} {events : List Event} {method : CaptureMethod}
    {metadata : SnapshotMetadata} {s t : Db} {n : ℕ} (hne : events ≠ [])
    (h : recordSnapshot store events method metadata s = .ok (n, t)) :
    s.isRunning store.runId ∧ metadata.tipBefore.Fits ∧ metadata.tipAfter.Fits ∧ ∃ group first u v,
      insertAll store method (some group) none none first events (fun _ => none) u = .ok (n, v) := by
  rw [recordSnapshot, if_neg hne] at h
  obtain ⟨-, -, h⟩ := Tx.lift_bind_eq_ok.mp h
  obtain ⟨before, hbefore, h⟩ := Tx.lift_bind_eq_ok.mp h
  obtain ⟨_, hbeforeLe, h⟩ := Tx.lift_bind_eq_ok.mp h
  obtain ⟨after, hafter, h⟩ := Tx.lift_bind_eq_ok.mp h
  obtain ⟨_, hafterLe, h⟩ := Tx.lift_bind_eq_ok.mp h
  obtain ⟨_, -, h⟩ := Tx.lift_bind_eq_ok.mp h
  obtain ⟨-, h⟩ := Tx.require_bind_eq_ok.mp h
  obtain ⟨group, _, hgroup, h⟩ := Tx.bind_eq_ok.mp h
  obtain ⟨first, u, hreserve, h⟩ := Tx.bind_eq_ok.mp h
  obtain ⟨inserted, v, hinsert, h⟩ := Tx.bind_eq_ok.mp h
  obtain ⟨_, _, -, h⟩ := Tx.bind_eq_ok.mp h
  obtain ⟨rfl, -⟩ := Tx.pure_eq_ok.mp h
  obtain ⟨rows, -, hrows⟩ := insertSnapshotGroup_inv hgroup
  have hrunning := isRunning_of_reserve hreserve
  rw [hrows] at hrunning
  have fits {block : ObservedBlock} {name : String} {height m : ℕ}
      (hrequired : requiredHeight block name = .ok height) (hle : heightToI32 height = .ok m) :
      block.Fits := by
    intro height' hheight'
    obtain rfl := Option.some.inj ((requiredHeight_eq_ok.mp hrequired).symm.trans hheight')
    exact (heightToI32_eq_ok.mp hle).1
  exact ⟨hrunning, fits hbefore hbeforeLe, fits hafter hafterLe, group, first, u, v,
    hinsert⟩

/-- **When a snapshot can be recorded**, while its run is running: its metadata is
consistent and its batch can be inserted. -/
theorem recordSnapshot_succeeds {store : Store} {events : List Event} {method : CaptureMethod}
    {metadata : SnapshotMetadata} {db : Db} (hledger : db.Ledger)
    (hmetadata : metadata.Collected) (hne : events ≠ []) (hd : ∀ event ∈ events, event.Described) :
    Tx.Succeeds (recordSnapshot store events method metadata) db ↔
      db.isRunning store.runId ∧ metadata.Consistent ∧ (∀ event ∈ events, event.textsOk) ∧
        Resolvable metadata.consistency.authoritative
          (fun slot => ∃ id, db.currentInstance store.datasetId slot = some id) events := by
  by_cases hrun : db.isRunning store.runId
  swap
  · refine iff_of_false ?_ fun h => hrun h.1
    rintro ⟨_, _, h⟩
    exact hrun (recordSnapshot_pieces hne h).1
  rw [and_iff_right hrun]
  by_cases hfits : metadata.tipBefore.Fits ∧ metadata.tipAfter.Fits
  swap
  · refine iff_of_false ?_ fun h => hfits ⟨h.1.before_fits, h.1.after_fits⟩
    rintro ⟨_, _, h⟩
    obtain ⟨-, hbefore, hafter, -⟩ := recordSnapshot_pieces hne h
    exact hfits ⟨hbefore, hafter⟩
  obtain ⟨before, hbefore⟩ := hmetadata.tipBefore.height
  obtain ⟨after, hafter⟩ := hmetadata.tipAfter.height
  have hbeforeLe := hfits.1 before hbefore
  have hafterLe := hfits.2 after hafter
  have hcheck : Tx.Succeeds (Tx.lift (checkSnapshot store metadata)) db ↔
      (metadata.consistency = .tipMatched → metadata.tipBefore = metadata.tipAfter) := by
    rw [Tx.succeeds_lift, ← checkSnapshot_eq_ok store hmetadata]
    refine ⟨?_, fun h => ⟨(), h⟩⟩
    rintro ⟨_, h⟩
    exact h
  have hgroup : Tx.Succeeds (insertSnapshotGroup store method metadata before after) db ↔
      metadata.startedAt ≤ metadata.finishedAt := by
    refine (Tx.succeeds_bind (Tx.succeeds_require _ _) fun _ t _ => iff_true_intro ?_).trans
      (iff_of_eq (and_true _))
    exact ⟨_, _, Tx.read_bind_eq_ok.mpr (Tx.modify_bind_eq_ok.mpr (Tx.pure_eq_ok.mpr ⟨rfl, rfl⟩))⟩
  have hbatch : ∀ group t, insertSnapshotGroup store method metadata before after db =
      .ok (group, t) → (Tx.Succeeds (do
        let first ← reserveCaptureSequences store.runId events.length
        let inserted ← insertAll store method (some group) none none first events fun _ => none
        updateExtractorStatus store metadata.tipAfter
        pure inserted) t ↔
          ((∀ event ∈ events, event.textsOk) ∧ Resolvable metadata.consistency.authoritative
            (fun slot => ∃ id, db.currentInstance store.datasetId slot = some id) events) ∧ True) := by
    intro group t ht
    obtain ⟨rows, hfound, rfl⟩ := insertSnapshotGroup_inv ht
    have ht' : Db.Ledger { db with snapshotGroups := rows } :=
      ⟨hledger.run, hledger.captured, hledger.current⟩
    have hreserve : Tx.Succeeds (reserveCaptureSequences store.runId events.length)
        { db with snapshotGroups := rows } :=
      succeeds_reserveCaptureSequences (mt List.length_eq_zero_iff.mp hne) hrun
    obtain ⟨first, u, hu⟩ := hreserve
    obtain ⟨hu', -, hfresh, hgroups, hinstances, hcurrent'⟩ := reserveCaptureSequences_inv ht' hu
    have hreceives : u.Receives store.runId group metadata.consistency first :=
      ⟨by rw [hgroups]; exact hfound, hfresh, hu'.current⟩
    rw [Tx.succeeds_bind_of_ok hu]
    refine Tx.succeeds_bind (insertAll_succeeds hreceives hd (fun _ _ h => by cases h)
      fun slot => ?_) fun _ v _ => iff_true_intro ?_
    · simp [Db.knows, Db.currentInstance, hcurrent']
    · obtain ⟨_, w, hw⟩ := succeeds_updateExtractorStatus store hmetadata.tipAfter hfits.2 v
      rw [Tx.succeeds_bind_of_ok hw]
      exact (Tx.succeeds_pure _).mpr trivial
  rw [recordSnapshot, if_neg hne]
  refine (Tx.succeeds_bind (Q := metadata.startedAt ≤ metadata.finishedAt ∧
    ((∀ event ∈ events, event.textsOk) ∧ Resolvable metadata.consistency.authoritative
      (fun slot => ∃ id, db.currentInstance store.datasetId slot = some id) events) ∧ True)
    hcheck fun _ t ht => ?_).trans ?_
  · obtain ⟨-, rfl⟩ := Tx.lift_eq_ok.mp ht
    rw [Tx.succeeds_bind_of_ok (Tx.lift_eq_ok.mpr ⟨requiredHeight_eq_ok.mpr hbefore, rfl⟩),
      Tx.succeeds_bind_of_ok (Tx.lift_eq_ok.mpr ⟨heightToI32_eq_ok.mpr ⟨hbeforeLe, rfl⟩, rfl⟩),
      Tx.succeeds_bind_of_ok (Tx.lift_eq_ok.mpr ⟨requiredHeight_eq_ok.mpr hafter, rfl⟩),
      Tx.succeeds_bind_of_ok (Tx.lift_eq_ok.mpr ⟨heightToI32_eq_ok.mpr ⟨hafterLe, rfl⟩, rfl⟩),
      Tx.succeeds_bind_of_ok (Tx.lift_eq_ok.mpr ⟨Result.context_eq_ok.mpr (narrow_eq_ok.mpr
        ⟨hmetadata.attempts.2.trans (by decide), rfl⟩), rfl⟩),
      Tx.succeeds_bind_of_ok (a := ⟨⟩) (Tx.require_eq_ok.mpr ⟨Nat.ne_of_gt hmetadata.attempts.1, rfl⟩)]
    exact Tx.succeeds_bind hgroup hbatch
  · rw [and_true]
    constructor
    · rintro ⟨hmatched, htime, hbatch⟩
      exact ⟨⟨htime, hmatched, hfits.1, hfits.2⟩, hbatch⟩
    · rintro ⟨hconsistent, hbatch⟩
      exact ⟨hconsistent.matched, hconsistent.time, hbatch⟩

/-! ### When a reading can be recorded -/

/-- Only valid sidechains can be recorded. -/
theorem recordInstances_valid {dataset : Uuid} {observedAt : ℕ} {sidechains : List ActiveSidechain}
    {s t : Db} {current : List (ℕ × String)}
    (h : recordInstances dataset observedAt sidechains s = .ok (current, t)) :
    ∀ sidechain ∈ sidechains, sidechain.Valid := by
  induction sidechains generalizing s t current with
  | nil => exact fun _ hmem => nomatch hmem
  | cons sidechain rest ih =>
    obtain ⟨slot, -, h⟩ := Tx.lift_bind_eq_ok.mp h
    obtain ⟨-, h⟩ := Tx.require_bind_eq_ok.mp h
    obtain ⟨proposalHeight, hproposal, h⟩ := Tx.lift_bind_eq_ok.mp h
    obtain ⟨activationHeight, hactivation, h⟩ := Tx.lift_bind_eq_ok.mp h
    obtain ⟨identity, hidentity, h⟩ := Tx.lift_bind_eq_ok.mp h
    obtain ⟨_, u, hu, h⟩ := Tx.bind_eq_ok.mp h
    obtain ⟨others, v, hv, -⟩ := Tx.bind_eq_ok.mp h
    intro sidechain' hmem
    rcases List.mem_cons.mp hmem with rfl | hmem
    · obtain ⟨⟨-, -, hle⟩, -⟩ := Tx.require_bind_eq_ok.mp hu
      obtain ⟨-, rfl⟩ := heightToI32_eq_ok.mp hproposal
      obtain ⟨hheight, rfl⟩ := heightToI32_eq_ok.mp hactivation
      exact ⟨⟨identity, hidentity⟩, hheight, hle⟩
    · exact ih hv sidechain' hmem

/-- What the code and the tables check of an event that is inserted. -/
theorem insertAll_valid {store : Store} {method : CaptureMethod} {group slot : Option ℕ}
    {id : Option String} {captureSeq n : ℕ} {events : List Event} {cache : InstanceCache}
    {s t : Db} (h : insertAll store method group slot id captureSeq events cache s = .ok (n, t)) :
    ∀ event ∈ events, (∃ f, facts event = .ok f) ∧
      ∀ sidechains, event.activeSidechains? = some sidechains →
        ∀ sidechain ∈ sidechains, sidechain.Valid := by
  induction events generalizing captureSeq cache s t n with
  | nil => exact fun _ hmem => nomatch hmem
  | cons event rest ih =>
    obtain ⟨r, u, hr, hrest⟩ := Tx.bind_eq_ok.mp h
    obtain ⟨m, v, hm, -⟩ := Tx.bind_eq_ok.mp hrest
    intro event' hmem
    rcases List.mem_cons.mp hmem with rfl | hmem
    · obtain ⟨f, payload, authoritative, cache', u, resolved, fact, v, hf, -, -, hupd, -⟩ :=
        insert_pieces hr
      refine ⟨⟨f, hf⟩, fun sidechains hactive => ?_⟩
      rw [updateSidechainInstances, updateSidechainInstancesWith, hactive] at hupd
      obtain ⟨current, w, hw, -⟩ := Tx.bind_eq_ok.mp hupd
      exact recordInstances_valid hw
    · exact ih hm event' hmem

omit [Digests] in
/-- Of an enforcer event with facts the anchor fits. -/
theorem facts_anchorFits {event : Event} {payload : Option EnforcerEvent} {f : Facts}
    (hp : event.monitorEvent = some (.enforcer payload)) (h : facts event = .ok f) :
    event.anchorFits := by
  intro block hblock height hheight
  rw [facts, hp] at h
  cases payload with
  | none => cases h
  | some payload =>
    obtain ⟨slot, -, h⟩ := Result.bind_eq_ok.mp h
    obtain ⟨anchor, hanchor, -⟩ := Result.bind_eq_ok.mp h
    have hsome : event.anchorHeight = some height := by
      rw [Event.anchorHeight, Option.mem_def.mp hblock]
      exact hheight
    rw [hsome] at hanchor
    rcases Result.transpose_map_eq_ok.mp hanchor with ⟨hnone, -⟩ | ⟨a, b, ha, hb, -⟩
    · cases hnone
    · obtain rfl := Option.some.inj ha
      exact (heightToI32_eq_ok.mp hb).1

/-- The heights of an active sidechain are in order, and can be held. -/
def Protobuf.ActiveSidechain.HeightsFit (sidechain : ActiveSidechain) : Prop :=
  sidechain.proposalHeight ≤ sidechain.activationHeight ∧ sidechain.activationHeight ≤ maxHeight

/-- The payloads of a reading: proposals, the active set, each of which has an identity, and
payloads of active slots. -/
theorem collectPayloads_eq_ok {answers : Answers} {sidechains : List ℕ} {discover : Bool}
    {payloads : List EnforcerEvent} (h : collectPayloads answers sidechains discover = .ok payloads) :
    (∀ sidechain ∈ answers.active, ∃ identity, sidechainInstanceIdentity sidechain = .ok identity) ∧
      ∃ slots, payloads =
          [.sidechainProposals answers.proposals] ++ .activeSidechains answers.active :: slots ∧
        ∀ p ∈ slots, p.ofReading ∧ (∀ ss, p ≠ .activeSidechains ss) ∧
          ∀ slot ∈ p.sidechainNumber, slot ≤ 255 ∧
            ∃ sidechain ∈ answers.active, sidechain.sidechainNumber = slot := by
  obtain ⟨active, hactive, h⟩ := Result.bind_eq_ok.mp h
  have hactive : List.Forall₂ (fun sidechain inst => sidechainInstanceRef sidechain = .ok inst)
      answers.active active := Backfill.mapM_eq_ok.mp hactive
  obtain rfl := Result.pure_eq_ok.mp h
  have hidentity {sidechain : ActiveSidechain} {inst : SidechainInstanceRef}
      (hinst : sidechainInstanceRef sidechain = .ok inst) :
      ∃ identity, sidechainInstanceIdentity sidechain = .ok identity ∧ identity.1 = inst := by
    obtain ⟨identity, hok, hpure⟩ := Result.bind_eq_ok.mp hinst
    exact ⟨identity, hok, Result.pure_eq_ok.mp hpure⟩
  have hslots : ∀ inst ∈ active, inst.sidechain ≤ 255 ∧
      ∃ sidechain ∈ answers.active, sidechain.sidechainNumber = inst.sidechain := by
    intro inst hmem
    obtain ⟨sidechain, hsidechain, hinst⟩ := PairedLists.exists_mem hactive.flip hmem
    obtain ⟨identity, hok, rfl⟩ := hidentity hinst
    obtain ⟨hle, heq, -⟩ := sidechainInstanceIdentity_inv hok
    exact ⟨heq ▸ hle, sidechain, hsidechain, heq.symm⟩
  refine ⟨fun sidechain hmem => ?_, _, rfl, fun p hp => ?_⟩
  · obtain ⟨inst, -, hinst⟩ := PairedLists.exists_mem hactive hmem
    obtain ⟨identity, hok, -⟩ := hidentity hinst
    exact ⟨identity, hok⟩
  · obtain ⟨inst, hmem, hp⟩ := List.mem_flatMap.mp hp
    have hslot := hslots inst (List.mem_filter.mp hmem).1
    rcases List.mem_cons.mp hp with rfl | hp
    · exact ⟨trivial, by simp, by simpa [EnforcerEvent.sidechainNumber] using hslot⟩
    · obtain rfl := List.mem_singleton.mp hp
      exact ⟨trivial, by simp, by simpa [EnforcerEvent.sidechainNumber] using hslot⟩

/-- **When a reading can be recorded.** -/
theorem recordSnapshot_reading {store : Store} {method : CaptureMethod} {metadata : SnapshotMetadata}
    {db : Db} (hledger : db.Ledger) (hmetadata : metadata.Collected) {answers : Answers} {sidechains : List ℕ} {discover : Bool}
    {payloads : List EnforcerEvent} (hcollect : collectPayloads answers sidechains discover = .ok payloads)
    {constants : Option (ChainInfo × ChainTip)} {anchor : ObservedBlock} (hanchor : anchor.Reported)
    {events : List Event}
    (hevents : List.Forall₂ (IsEnvelope anchor) (startupConstants constants ++ payloads) events) :
    Tx.Succeeds (recordSnapshot store events method metadata) db ↔
      db.isRunning store.runId ∧ metadata.Consistent ∧
        (∀ event ∈ events, event.anchorFits ∧ event.textsOk) ∧
        (∀ sidechain ∈ answers.active, sidechain.HeightsFit) ∧
        (metadata.consistency = .tipMatched ∨ ∀ p ∈ payloads, ∀ slot ∈ p.sidechainNumber,
          ∃ id, db.currentInstance store.datasetId slot = some id) := by
  obtain ⟨hidentity, slots, hpayloads, hslots⟩ := collectPayloads_eq_ok hcollect
  have hglobal : ∀ p ∈ startupConstants constants ++ [.sidechainProposals answers.proposals],
      p.ofReading ∧ p.sidechainNumber = none ∧ ∀ ss, p ≠ .activeSidechains ss := by
    intro p hp
    rcases List.mem_append.mp hp with hp | hp
    · cases constants with
      | none => cases hp
      | some c =>
        simp only [startupConstants, List.mem_cons, List.not_mem_nil, or_false] at hp
        rcases hp with rfl | rfl
        · exact ⟨trivial, rfl, by simp⟩
        · exact ⟨trivial, rfl, by simp⟩
    · obtain rfl := List.mem_singleton.mp hp
      exact ⟨trivial, rfl, by simp⟩
  have hactive : ∀ p ∈ startupConstants constants ++ payloads, p.ofReading ∧
      (∀ slot ∈ p.sidechainNumber, slot ≤ 255) ∧
      ∀ ss, p = .activeSidechains ss → ss = answers.active := by
    intro p hp
    rw [hpayloads, ← List.append_assoc] at hp
    rcases List.mem_append.mp hp with hp | hp
    · obtain ⟨hof, hnone, hne⟩ := hglobal p hp
      exact ⟨hof, by simp [hnone], fun ss h => absurd h (hne ss)⟩
    · rcases List.mem_cons.mp hp with rfl | hp
      · exact ⟨trivial, by simp [EnforcerEvent.sidechainNumber], fun ss h => by cases h; rfl⟩
      · obtain ⟨hof, hne, hslot⟩ := hslots p hp
        exact ⟨hof, fun slot h => (hslot slot h).1, fun ss h => absurd h (hne ss)⟩
  have hne : events ≠ [] := by
    rintro rfl
    rw [hpayloads] at hevents
    simp at hevents
  by_cases hall : (∀ event ∈ events, event.anchorFits) ∧
      ∀ sidechain ∈ answers.active, sidechain.HeightsFit
  swap
  · -- what is inserted has passed these checks
    refine iff_of_false (fun ⟨n, t, h⟩ => hall ?_) fun h => hall ⟨fun event hev => (h.2.2.1 event hev).1,
      h.2.2.2.1⟩
    obtain ⟨-, -, -, group, first, u, v, hinsert⟩ := recordSnapshot_pieces hne h
    have hvalid := insertAll_valid hinsert
    refine ⟨fun event hev => ?_, fun sidechain hmem => ?_⟩
    · obtain ⟨p, -, hp⟩ := PairedLists.exists_mem hevents.flip hev
      obtain ⟨now, block, rfl, -⟩ := IsEnvelope.eq hp
      obtain ⟨f, hf⟩ := (hvalid _ hev).1
      exact facts_anchorFits rfl hf
    · have hmemPayload : .activeSidechains answers.active ∈ startupConstants constants ++ payloads := by
        simp [hpayloads]
      obtain ⟨event, hev, hp⟩ := PairedLists.exists_mem hevents hmemPayload
      obtain ⟨now, block, rfl, -⟩ := IsEnvelope.eq hp
      have hsidechain := (hvalid _ hev).2 answers.active rfl sidechain hmem
      exact ⟨hsidechain.proposal_le, hsidechain.height_le⟩
  have hvalid : ∀ sidechain ∈ answers.active, sidechain.Valid := fun sidechain hmem =>
    ⟨hidentity sidechain hmem, (hall.2 sidechain hmem).2, (hall.2 sidechain hmem).1⟩
  have hdescribed : ∀ event ∈ events, event.Described := by
    intro event hev
    obtain ⟨p, hp, henvelope⟩ := PairedLists.exists_mem hevents.flip hev
    obtain ⟨hof, hslot, hss⟩ := hactive p hp
    exact IsEnvelope.described henvelope hanchor (hall.1 event hev) hof hslot fun ss h => hss ss h ▸ hvalid
  rw [recordSnapshot_succeeds hledger hmetadata hne hdescribed, and_congr_right_iff]
  intro _
  rw [hpayloads, ← List.append_assoc] at hevents
  -- the active set decides what the payloads after it can be of
  obtain ⟨rest, hrest, hresolvable⟩ := resolvable_global metadata.consistency.authoritative
    (fun slot => ∃ id, db.currentInstance store.datasetId slot = some id)
    (fun p hp => (hglobal p hp).2) hevents
  obtain ⟨active, others, hset, hothers, rfl⟩ := List.forall₂_cons_left_iff.mp hrest
  obtain ⟨now, block, rfl, -⟩ := hset.eq
  have hslotsIff := resolvable_slots metadata.consistency.authoritative
    (knownAfter metadata.consistency.authoritative
      (fun slot => ∃ id, db.currentInstance store.datasetId slot = some id)
      ⟨now, block, some (.enforcer (some (.activeSidechains answers.active)))⟩)
    (fun p hp => (hslots p hp).2.1) hothers
  have hpayload : (∀ p ∈ payloads, ∀ slot ∈ p.sidechainNumber,
      ∃ id, db.currentInstance store.datasetId slot = some id) ↔
        ∀ p ∈ slots, ∀ slot ∈ p.sidechainNumber,
          ∃ id, db.currentInstance store.datasetId slot = some id := by
    simp [hpayloads, EnforcerEvent.sidechainNumber]
  have hknown : Resolvable metadata.consistency.authoritative
      (fun slot => ∃ id, db.currentInstance store.datasetId slot = some id) events ↔
      metadata.consistency = .tipMatched ∨ ∀ p ∈ payloads, ∀ slot ∈ p.sidechainNumber,
        ∃ id, db.currentInstance store.datasetId slot = some id := by
    rw [hresolvable, Resolvable, hslotsIff, hpayload]
    have hnone : (∀ slot ∈ Event.slot?
        ⟨now, block, some (.enforcer (some (.activeSidechains answers.active)))⟩,
        knownAfter metadata.consistency.authoritative
          (fun slot => ∃ id, db.currentInstance store.datasetId slot = some id)
          ⟨now, block, some (.enforcer (some (.activeSidechains answers.active)))⟩ slot) ↔ True := by
      simp [Event.slot?, EnforcerEvent.sidechainNumber]
    rw [hnone, true_and]
    by_cases hmatched : metadata.consistency = .tipMatched
    · rw [hmatched]
      exact iff_of_true (fun p hp slot hslot => ((hslots p hp).2.2 slot hslot).2) (.inl rfl)
    · have hfalse : metadata.consistency.authoritative = false := by
        rcases hmetadata.consistency with h | h | h
        · exact absurd h hmatched
        · rw [h]
          rfl
        · rw [h]
          rfl
      rw [hfalse]
      exact (or_iff_right hmatched).symm
  rw [hknown]
  constructor
  · exact fun ⟨hconsistent, htexts, hslot⟩ =>
      ⟨hconsistent, fun event hev => ⟨hall.1 event hev, htexts event hev⟩, hall.2, hslot⟩
  · exact fun ⟨hconsistent, hevent, _, hslot⟩ =>
      ⟨hconsistent, fun event hev => (hevent event hev).2, hslot⟩

/-- **Which readings can be recorded.** In every state a sequence of commands leads to, a
reading of valid sidechains can be recorded exactly when the run is still open, the record can
hold its heights and texts, its window bears its label out, and it is tip-matched or every
slot it has payloads of has a current instance. -/
theorem reading_recordable {startOf : ScopeKey → ℕ} {commands : List Command} {r : Record}
    (hreach : Runs.run (Record.step startOf) Record.empty commands = some r) {store : Store}
    {answers : Answers} {sidechains : List ℕ} {discover : Bool} {payloads : List EnforcerEvent}
    (hcollect : collectPayloads answers sidechains discover = .ok payloads)
    (hheights : ∀ sidechain ∈ answers.active, sidechain.HeightsFit)
    {constants : Option (ChainInfo × ChainTip)} {anchor : ObservedBlock} (hanchor : anchor.Reported)
    {events : List Event}
    (hevents : List.Forall₂ (IsEnvelope anchor) (startupConstants constants ++ payloads) events)
    (method : CaptureMethod) {metadata : SnapshotMetadata} (hmetadata : metadata.Collected) :
    Tx.Succeeds (recordSnapshot store events method metadata) r.db ↔
      r.db.isRunning store.runId ∧ metadata.Consistent ∧
        (∀ event ∈ events, event.anchorFits ∧ event.textsOk) ∧
        (metadata.consistency = .tipMatched ∨ ∀ p ∈ payloads, ∀ slot ∈ p.sidechainNumber,
          ∃ id, r.db.currentInstance store.datasetId slot = some id) := by
  have hledger : r.db.Ledger := Record.reachable_ledger hreach
  rw [recordSnapshot_reading hledger hmetadata hcollect hanchor hevents,
    and_iff_right hheights]

end

/-! ### A new activation, read while the tip moves -/

namespace Activation

/-- Slot 9 has become active. -/
def answers : Answers := ⟨[], [slotNine], fun _ => none, fun _ => []⟩

/-- The payloads of slot 9 beside the two global ones. -/
def payloads : List EnforcerEvent :=
  [.sidechainProposals [], .activeSidechains [slotNine], .ctip ⟨9, none⟩,
    .withdrawalBundleProposals ⟨9, []⟩]

def events : List Event := payloads.map fun payload => ⟨0, none, some (.enforcer (some payload))⟩

/-- The digests of the payloads. -/
@[reducible] def digests : Digests := .ofPayloads [
  (.enforcer (some (.sidechainProposals [])),
    0xfdbb66f97af044e4b88b0bb0a4789f8f014f98b53f5fe11102bd19f45d53c45b),
  (.enforcer (some (.activeSidechains [slotNine])),
    0xf2a242527941e63799fa9b77cce23743b8893a0c8ca5904f5b3f83c313c8bfb4),
  (.enforcer (some (.ctip ⟨9, none⟩)),
    0xc926e4b6406d363d36d8572666e12b78491845e7a94bbf2dd93fc9c512cb2aff),
  (.enforcer (some (.withdrawalBundleProposals ⟨9, []⟩)),
    0x6b01c0020dcb725db87b838cb1e0a9b719309745e260135c41c79fbdb0c3dec1)]

def store : Store := ⟨.enforcer, 0, 0, 9⟩

def commands : List Command := [.initializeIdentity .enforcer 0 0 9]

def tip : ObservedBlock := .atHeight (bytes32 1) 5

/-- The tip moved on while the reading was taken. -/
def moved : SnapshotMetadata :=
  { tipMatchedAt tip with tipAfter := .atHeight (bytes32 2) 6, consistency := .changed }

theorem collects : @collectPayloads digests answers [9] false = .ok payloads := by
  decide +kernel

theorem envelopes : List.Forall₂ (IsEnvelope tip) (startupConstants none ++ payloads) events := by
  refine .cons ⟨0, rfl⟩ (.cons ⟨0, rfl⟩ (.cons ⟨0, rfl⟩ (.cons ⟨0, rfl⟩ .nil)))

end Activation

/-- Read while the tip stayed, the activation can be recorded. -/
theorem reading_recordable_activation :
    ∃ r, Runs.run (@Record.step Activation.digests fun _ => 5) Record.empty Activation.commands =
        some r ∧
      Tx.Succeeds (@recordSnapshot Activation.digests Activation.store Activation.events .poll
        (tipMatchedAt Activation.tip)) r.db := by
  let _ := Activation.digests
  have hruns : ((Runs.run (Record.step fun _ => 5) Record.empty Activation.commands).filter
      fun r => r.db.isRunning Activation.store.runId).isSome := by
    decide +kernel
  obtain ⟨r, hr⟩ := Option.isSome_iff_exists.mp hruns
  obtain ⟨hr, hrun⟩ := Option.filter_eq_some_iff.mp hr
  have htip : Activation.tip.Reported := ⟨by decide, 5, rfl⟩
  have hfits : Activation.tip.Fits := by
    intro height hheight
    obtain rfl := Option.some.inj hheight
    decide
  refine ⟨r, hr, (reading_recordable hr Activation.collects ?_ htip Activation.envelopes .poll ?_).mpr
    ⟨of_decide_eq_true hrun, ?_, ?_, .inl rfl⟩⟩
  · intro sidechain hmem
    obtain rfl := List.mem_singleton.mp hmem
    exact ⟨by decide, by decide⟩
  · exact ⟨htip, htip, rfl, rfl, by decide, .inl rfl⟩
  · exact ⟨le_rfl, fun _ => rfl, hfits, hfits⟩
  · intro event hev
    obtain ⟨payload, hp, rfl⟩ := List.mem_map.mp hev
    refine ⟨fun block hblock => ?_, fun p hp' text htext => ?_⟩
    · cases hblock
    · obtain rfl := Option.some.inj hp'
      simp only [Activation.payloads, List.mem_cons, List.not_mem_nil, or_false] at hp
      rcases hp with rfl | rfl | rfl | rfl <;> cases htext

/-- **The reading is lost.** Read while the tip moved, the same activation cannot be
recorded: nothing makes the new instance current, and its payloads find none. -/
theorem reading_lost :
    ∃ r, Runs.run (@Record.step Activation.digests fun _ => 5) Record.empty Activation.commands =
        some r ∧
      @collectPayloads Activation.digests Activation.answers [9] false = .ok Activation.payloads ∧
      List.Forall₂ (IsEnvelope Activation.tip) (startupConstants none ++ Activation.payloads)
        Activation.events ∧
      Activation.moved.Collected ∧
      ¬ Tx.Succeeds (@recordSnapshot Activation.digests Activation.store Activation.events .poll
        Activation.moved) r.db := by
  let _ := Activation.digests
  have hruns : ((Runs.run (Record.step fun _ => 5) Record.empty Activation.commands).filter
      fun r => (recordSnapshot Activation.store Activation.events .poll Activation.moved r.db).toOption.isNone).isSome := by
    decide +kernel
  obtain ⟨r, hr⟩ := Option.isSome_iff_exists.mp hruns
  obtain ⟨hr, hnone⟩ := Option.filter_eq_some_iff.mp hr
  refine ⟨r, hr, Activation.collects, Activation.envelopes, ?_, ?_⟩
  · exact ⟨⟨by decide, 5, rfl⟩, ⟨by decide, 6, rfl⟩, rfl, rfl, by decide, .inr (.inl rfl)⟩
  rintro ⟨n, t, h⟩
  rw [h] at hnone
  cases hnone

end Bip300Monitor
