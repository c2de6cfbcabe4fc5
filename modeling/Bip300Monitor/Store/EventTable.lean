import Bip300Monitor.Store.Evidence
import Mathlib.Data.List.Nodup

/-!
# What recording does to the record

Every path that records events ends in `insert`. Here is what one `insert` can do to
the record, and from it what a batch can do.

## What is proved

* `Grows` — recording only adds: facts and conflicts are kept, coverage and
  certification are not touched, and the table of facts stays sound
  (`Grows.sound`);
* `Db.Sound` — a fact is determined by its identity, and two facts of one scope that
  disagree about a block are a retained conflict, so that without one the block hash
  determines the fact (`Db.Sound.eq_of_blockHash`);
* `insertAll_records` — a recorded batch has a fact for each of its events.
-/

namespace Bip300Monitor

open Protobuf Transaction

/-- What the table of facts always is. -/
structure Db.Sound (db : Db) : Prop where
  id_lt : ∀ e ∈ db.events, e.id < db.nextEventId
  id_nodup : (db.events.map (·.id)).Nodup
  identity : ∀ e ∈ db.events, ∀ e' ∈ db.events, e.sameIdentity e' → e = e'
  /-- A disagreement about a block is retained. -/
  conflict : ∀ e ∈ db.events, ∀ e' ∈ db.events, e'.kind.isBlockFact → e.conflictsWith e' →
    ∃ c ∈ db.conflicts, c.firstEventId = e.id ∧ c.conflictingEventId = e'.id

theorem Db.Sound.empty : Db.empty.Sound where
  id_lt := by simp [Db.empty]
  id_nodup := List.nodup_nil
  identity := by simp [Db.empty]
  conflict := by simp [Db.empty]

/-- A conflict retained among the facts of one scope. -/
def Db.retainsConflict (db : Db) (k : ScopeKey) : Prop :=
  ∃ c ∈ db.conflicts, ∃ e ∈ db.events, e.id = c.firstEventId ∧ e.inScope k

instance (db : Db) (k : ScopeKey) : Decidable (db.retainsConflict k) :=
  inferInstanceAs (Decidable (∃ c ∈ db.conflicts, _))

theorem EventRow.inScope.sameScope {e e' : EventRow} {k : ScopeKey} (h : e.inScope k)
    (h' : e'.inScope k) : e.sameScope e' := by
  obtain ⟨h₁, h₂, h₃, h₄, h₅, h₆⟩ := h
  obtain ⟨h₁', h₂', h₃', h₄', h₅', h₆'⟩ := h'
  exact ⟨h₁.trans h₁'.symm, h₂.trans h₂'.symm, h₃.trans h₃'.symm, h₄.trans h₄'.symm,
    h₅.trans h₅'.symm, h₆.trans h₆'.symm⟩

theorem StreamName.kind_isBlockFact (stream : StreamName) : stream.kind.isBlockFact := by
  cases stream <;> rfl

/-- **Without a retained conflict the block hash determines the fact.** -/
theorem Db.Sound.eq_of_blockHash {db : Db} (hdb : db.Sound) {k : ScopeKey}
    (hk : ¬ db.retainsConflict k) {e e' : EventRow} (he : e ∈ db.events) (he' : e' ∈ db.events)
    (hs : e.inScope k) (hs' : e'.inScope k) (hhash : e.blockHash = e'.blockHash)
    (hsome : e.blockHash ≠ none) : e = e' := by
  by_contra hne
  have hsha : e.factSha256 ≠ e'.factSha256 := fun hsha =>
    hne (hdb.identity e he e' he' ⟨hs.sameScope hs', hhash, hsha⟩)
  have hid : e.id ≠ e'.id := fun hid =>
    hne (List.inj_on_of_nodup_map hdb.id_nodup he he' hid)
  have hblock {f : EventRow} (hf : f.inScope k) : f.kind.isBlockFact := by
    rw [hf.2.2.2.1]
    exact k.stream.kind_isBlockFact
  rcases Nat.lt_or_gt_of_ne hid with hlt | hgt
  · obtain ⟨c, hc, hfirst, -⟩ := hdb.conflict e he e' he' (hblock hs')
      ⟨hs.sameScope hs', hhash, hsome, hlt, hsha⟩
    exact hk ⟨c, hc, e, he, hfirst.symm, hs⟩
  · obtain ⟨c, hc, hfirst, -⟩ := hdb.conflict e' he' e he (hblock hs)
      ⟨hs'.sameScope hs, hhash.symm, hhash ▸ hsome, hgt, hsha.symm⟩
    exact hk ⟨c, hc, e', he', hfirst.symm, hs'⟩

/-! ### Growing -/

/-- What recording may do: add facts and conflicts, and keep the table sound. -/
structure Grows (s t : Db) : Prop where
  sound : s.Sound → t.Sound
  events : s.events ⊆ t.events
  conflicts : s.conflicts ⊆ t.conflicts
  coverage : t.coverage = s.coverage
  certified : t.certified = s.certified

instance : Std.Refl Grows := ⟨fun _ => ⟨id, fun _ h => h, fun _ h => h, rfl, rfl⟩⟩

instance : IsTrans Db Grows := ⟨fun _ _ _ h h' => ⟨h'.sound ∘ h.sound,
  fun _ he => h'.events (h.events he), fun _ hc => h'.conflicts (h.conflicts hc),
  h'.coverage.trans h.coverage, h'.certified.trans h.certified⟩⟩

/-- The tables of facts, conflicts and coverage are as they were. -/
structure SameFacts (s t : Db) : Prop where
  events : t.events = s.events
  nextEventId : t.nextEventId = s.nextEventId
  conflicts : t.conflicts = s.conflicts
  coverage : t.coverage = s.coverage
  certified : t.certified = s.certified

instance : Std.Refl SameFacts := ⟨fun _ => ⟨rfl, rfl, rfl, rfl, rfl⟩⟩

instance : IsTrans Db SameFacts := ⟨fun _ _ _ h h' => ⟨h'.events.trans h.events,
  h'.nextEventId.trans h.nextEventId, h'.conflicts.trans h.conflicts,
  h'.coverage.trans h.coverage, h'.certified.trans h.certified⟩⟩

/-- Changing other tables grows the record. -/
theorem SameFacts.grows {s t : Db} (h : SameFacts s t) : Grows s t where
  sound hs := ⟨by rw [h.events, h.nextEventId]; exact hs.id_lt, by rw [h.events]; exact hs.id_nodup,
    by rw [h.events]; exact hs.identity, by rw [h.events, h.conflicts]; exact hs.conflict⟩
  events := by rw [h.events]; exact fun _ h => h
  conflicts := by rw [h.conflicts]; exact fun _ h => h
  coverage := h.coverage
  certified := h.certified

theorem Grows.retainsConflict {s t : Db} (h : Grows s t) {k : ScopeKey}
    (hk : s.retainsConflict k) : t.retainsConflict k := by
  obtain ⟨c, hc, e, he, hid, hs⟩ := hk
  exact ⟨c, h.conflicts hc, e, h.events he, hid, hs⟩

theorem Grows.addFact {db : Db} {row : EventRow} (hrow : db.recordedFact row = none) :
    Grows db (db.addFact row) where
  sound h := by
    have hfresh : ∀ e ∈ db.events, ¬ e.sameIdentity row := by
      intro e he
      simpa using List.find?_eq_none.mp hrow e he
    refine ⟨?_, ?_, ?_, ?_⟩
    · intro e he
      rcases List.mem_append.mp he with he | he
      · exact Nat.lt_succ_of_lt (h.id_lt e he)
      · rw [List.mem_singleton.mp he]
        exact Nat.lt_succ_self _
    · change ((db.events ++ [_]).map EventRow.id).Nodup
      rw [List.map_append, List.nodup_append]
      refine ⟨h.id_nodup, List.nodup_singleton _, fun i hi j hj => ?_⟩
      obtain ⟨e, he, rfl⟩ := List.mem_map.mp hi
      rw [List.map_singleton, List.mem_singleton] at hj
      rw [hj]
      exact Nat.ne_of_lt (h.id_lt e he)
    · intro e he e' he' hid
      rcases List.mem_append.mp he with he | he <;> rcases List.mem_append.mp he' with he' | he'
      · exact h.identity e he e' he' hid
      · rw [List.mem_singleton.mp he'] at hid
        exact absurd hid (hfresh e he)
      · rw [List.mem_singleton.mp he] at hid
        obtain ⟨⟨h₁, h₂, h₃, h₄, h₅, h₆⟩, h₇, h₈⟩ := hid
        exact absurd ⟨⟨h₁.symm, h₂.symm, h₃.symm, h₄.symm, h₅.symm, h₆.symm⟩, h₇.symm, h₈.symm⟩
          (hfresh e' he')
      · rw [List.mem_singleton.mp he, List.mem_singleton.mp he']
    · intro e he e' he' hkind hconf
      rcases List.mem_append.mp he with he | he
      · rcases List.mem_append.mp he' with he' | he'
        · obtain ⟨c, hc, hids⟩ := h.conflict e he e' he' hkind hconf
          exact ⟨c, List.mem_append_left _ hc, hids⟩
        · obtain rfl := List.mem_singleton.mp he'
          refine ⟨⟨row.datasetId, e.id, db.nextEventId⟩, List.mem_append_right _ ?_, rfl, rfl⟩
          have hrowKind : row.kind.isBlockFact := hkind
          rw [observeBlockFact, if_pos hrowKind]
          exact List.mem_map.mpr ⟨e, List.mem_filter.mpr ⟨he, by simpa using hconf⟩, rfl⟩
      · -- the new fact is the newest, so it does not conflict with a later one
        have hlt := hconf.2.2.2.1
        rw [List.mem_singleton.mp he] at hlt
        rcases List.mem_append.mp he' with he' | he'
        · exact absurd (h.id_lt e' he') (Nat.not_lt.mpr (Nat.le_of_lt hlt))
        · rw [List.mem_singleton.mp he'] at hlt
          exact absurd hlt (Nat.lt_irrefl _)
  events := fun _ he => List.mem_append_left _ he
  conflicts := fun _ hc => List.mem_append_left _ hc
  coverage := rfl
  certified := rfl

/-- What inserting a fact does: nothing when the fact is recorded, else one more row. -/
theorem insertFact_eq_ok {row : EventRow} {s t : Db} {a : ℕ × Bool} :
    insertFact row s = .ok (a, t) ↔ row.valid ∧
      ((∃ e, s.recordedFact row = some e ∧ a = (e.id, false) ∧ t = s) ∨
        (s.recordedFact row = none ∧
          (∀ id ∈ row.sidechainInstanceId, s.isRegistered row.datasetId id) ∧
          a = (s.nextEventId, true) ∧ t = s.addFact row)) := by
  simp only [insertFact, Tx.bind_eq_ok, Tx.require_eq_ok, Tx.read_eq_ok]
  cases hrow : s.recordedFact row with
  | some e => simp [hrow, @eq_comm _ s t, @eq_comm _ (e.id, false) a]
  | none => simp [hrow, Tx.bind_eq_ok, @eq_comm _ t (s.addFact row), @eq_comm _ a]

theorem guarantees_insertFact (row : EventRow) : Tx.Guarantees Grows (insertFact row) := by
  intro s a t h
  rcases (insertFact_eq_ok.mp h).2 with ⟨e, -, -, rfl⟩ | ⟨hrow, -, -, rfl⟩
  · exact Std.Refl.refl t
  · exact Grows.addFact hrow

/-! ### Everything else keeps the facts -/

theorem sameFacts_insertObservation (row : EventObservation) :
    Tx.Guarantees SameFacts (insertObservation row) :=
  Tx.guarantees_read.bind fun _ => (Tx.guarantees_require _ _).bind fun _ =>
    Tx.guarantees_modify fun _ => ⟨rfl, rfl, rfl, rfl, rfl⟩

theorem sameFacts_reserveCaptureSequences (runId : Uuid) (count : ℕ) :
    Tx.Guarantees SameFacts (reserveCaptureSequences runId count) :=
  (Tx.guarantees_require _ _).bind fun _ => Tx.guarantees_read.bind fun _ =>
    (Tx.guarantees_expect _ _).bind fun _ =>
      (Tx.guarantees_modify fun _ => ⟨rfl, rfl, rfl, rfl, rfl⟩).bind fun _ =>
        Tx.guarantees_pure _

theorem reads_validateSidechainInstance (dataset : Uuid) (sidechain : ℕ) (id : String) :
    Tx.Guarantees Eq (validateSidechainInstance dataset sidechain id) :=
  Tx.guarantees_read.bind fun _ => Tx.guarantees_require _ _

theorem reads_validateExplicit (dataset : Uuid) (sidechain : Option ℕ) (id : Option String) :
    Tx.Guarantees Eq (validateExplicit dataset sidechain id) := by
  unfold validateExplicit
  split
  · exact reads_validateSidechainInstance _ _ _
  · exact Tx.guarantees_pure _

theorem sameFacts_recordSidechainInstance (row : SidechainInstanceRow) :
    Tx.Guarantees SameFacts (recordSidechainInstance row) := by
  refine (Tx.guarantees_require _ _).bind fun _ => Tx.guarantees_modify fun db => ?_
  split_ifs
  · exact ⟨rfl, rfl, rfl, rfl, rfl⟩
  · exact ⟨rfl, rfl, rfl, rfl, rfl⟩

theorem reads_resolveInstance (dataset : Uuid) (facts : Facts) (slot : Option ℕ)
    (id : Option String) (cache : InstanceCache) :
    Tx.Guarantees Eq (resolveInstance dataset facts slot id cache) := by
  unfold resolveInstance
  split
  · exact Tx.guarantees_pure _
  · exact Tx.guarantees_fail _
  · exact (Tx.guarantees_require _ _).bind fun _ => Tx.guarantees_pure _
  · exact Tx.guarantees_fail _
  · exact Tx.guarantees_fail _
  · split
    · exact Tx.guarantees_pure _
    · exact Tx.guarantees_read.bind fun _ => (Tx.guarantees_expect _ _).bind fun _ =>
        Tx.guarantees_pure _

theorem reads_isAuthoritative (group : Option ℕ) :
    Tx.Guarantees Eq (isAuthoritative group) := by
  unfold isAuthoritative
  split
  · exact Tx.guarantees_pure _
  · exact Tx.guarantees_read.bind fun _ => (Tx.guarantees_expect _ _).bind fun _ =>
      Tx.guarantees_pure _

theorem sameFacts_updateExtractorStatus (store : Store) (tip : ObservedBlock) :
    Tx.Guarantees SameFacts (updateExtractorStatus store tip) :=
  (Tx.guarantees_lift _).bind fun _ => (Tx.guarantees_lift _).bind fun _ =>
    Tx.guarantees_modify fun _ => ⟨rfl, rfl, rfl, rfl, rfl⟩

theorem sameFacts_recordTipObservation (store : Store) (tip : ObservedBlock)
    (previous : Option ObservedBlock) (method : CaptureMethod) (observedAt : ℕ) :
    Tx.Guarantees SameFacts (recordTipObservation store tip previous method observedAt) :=
  (Tx.guarantees_lift _).bind fun _ => (Tx.guarantees_lift _).bind fun _ =>
    (Tx.guarantees_lift _).bind fun _ => (Tx.guarantees_lift _).bind fun _ =>
      (sameFacts_reserveCaptureSequences _ _).bind fun _ => Tx.guarantees_read.bind fun _ =>
        (Tx.guarantees_require _ _).bind fun _ =>
          (Tx.guarantees_modify fun _ => ⟨rfl, rfl, rfl, rfl, rfl⟩).bind fun _ =>
            sameFacts_updateExtractorStatus _ _

theorem sameFacts_insertSnapshotGroup (store : Store) (method : CaptureMethod)
    (metadata : SnapshotMetadata) (before after : ℕ) :
    Tx.Guarantees SameFacts (insertSnapshotGroup store method metadata before after) :=
  (Tx.guarantees_require _ _).bind fun _ => Tx.guarantees_read.bind fun _ =>
    (Tx.guarantees_modify fun _ => ⟨rfl, rfl, rfl, rfl, rfl⟩).bind fun _ => Tx.guarantees_pure _

theorem facts_blockHash {event : Event} {f : Facts} (h : facts event = .ok f) :
    f.blockHash = event.observedAtBlock.map (·.hash) := by
  unfold facts at h
  split at h
  · cases h
  · obtain ⟨height, -, h⟩ := Result.bind_eq_ok.mp h
    cases h
    rfl
  · cases h
  · obtain ⟨slot, -, h⟩ := Result.bind_eq_ok.mp h
    obtain ⟨height, -, h⟩ := Result.bind_eq_ok.mp h
    cases h
    rfl
  · cases h

/-- How an event's row came to its instance: a global event has none, an explicit one is
the caller's, and otherwise it was looked up. -/
inductive InstanceOf (facts : Facts) : Option ℕ → Option String → Option String → Prop
  | global : facts.sidechain = none → InstanceOf facts none none none
  | explicit {slot id} : facts.sidechain = some slot →
    InstanceOf facts (some slot) (some id) (some id)
  | current {slot} (id) : facts.sidechain = some slot → InstanceOf facts none none (some id)

theorem resolveInstance_instanceOf {dataset : Uuid} {facts : Facts} {slot : Option ℕ}
    {id : Option String} {cache : InstanceCache} {s t : Db} {r : Option String × InstanceCache}
    (h : resolveInstance dataset facts slot id cache s = .ok (r, t)) :
    InstanceOf facts slot id r.1 := by
  cases hs : facts.sidechain with
  | none =>
    cases slot <;> cases id <;> simp [resolveInstance, hs] at h
    rw [← h.1]
    exact .global hs
  | some sidechain =>
    cases slot with
    | some instanceSidechain =>
      cases id with
      | none => simp [resolveInstance, hs] at h
      | some i =>
        simp only [resolveInstance, hs, Tx.bind_eq_ok, Tx.require_eq_ok, Tx.pure_eq_ok] at h
        obtain ⟨-, -, ⟨rfl, -⟩, rfl, -⟩ := h
        exact .explicit hs
    | none =>
      cases id with
      | some i => simp [resolveInstance, hs] at h
      | none =>
        cases hc : cache sidechain with
        | some i =>
          simp only [resolveInstance, hs, hc, Tx.pure_eq_ok] at h
          rw [← h.1]
          exact .current i hs
        | none =>
          simp only [resolveInstance, hs, hc, Tx.bind_eq_ok, Tx.pure_eq_ok] at h
          obtain ⟨-, -, -, i, -, -, rfl, -⟩ := h
          exact .current i hs

variable [Digests]

theorem sameFacts_recordInstances (dataset : Uuid) (observedAt : ℕ)
    (sidechains : List ActiveSidechain) :
    Tx.Guarantees SameFacts (recordInstances dataset observedAt sidechains) := by
  induction sidechains with
  | nil => exact Tx.guarantees_pure _
  | cons sidechain rest ih =>
    exact (Tx.guarantees_lift _).bind fun _ => (Tx.guarantees_require _ _).bind fun _ =>
      (Tx.guarantees_lift _).bind fun _ => (Tx.guarantees_lift _).bind fun _ =>
        (Tx.guarantees_lift _).bind fun _ => (sameFacts_recordSidechainInstance _).bind fun _ =>
          ih.bind fun _ => Tx.guarantees_pure _

theorem sameFacts_updateSidechainInstances (dataset : Uuid) (event : Event) (observedAt : ℕ)
    (cache : InstanceCache) (authoritative : Bool) :
    Tx.Guarantees SameFacts
      (updateSidechainInstances dataset event observedAt cache authoritative) := by
  unfold updateSidechainInstances updateSidechainInstancesWith
  split
  · exact Tx.guarantees_pure _
  · refine (sameFacts_recordInstances _ _ _).bind fun _ => ?_
    split_ifs
    · exact (Tx.guarantees_modify fun _ => ⟨rfl, rfl, rfl, rfl, rfl⟩).bind fun _ =>
        Tx.guarantees_pure _
    · exact Tx.guarantees_pure _

/-! ### Events and batches -/

/-- The pieces of recording one event. -/
theorem insert_pieces {store : Store} {method : CaptureMethod} {group slot : Option ℕ}
    {id : Option String} {captureSeq : ℕ} {event : Event} {cache : InstanceCache} {s t : Db}
    {r : ℕ × InstanceCache}
    (h : insert store method group slot id captureSeq event cache s = .ok (r, t)) :
    ∃ f payload authoritative cache' u resolved fact v, facts event = .ok f ∧
      event.monitorEvent = some payload ∧ isAuthoritative group s = .ok (authoritative, s) ∧
      updateSidechainInstances store.datasetId event event.timestamp cache authoritative s =
        .ok (cache', u) ∧
      resolveInstance store.datasetId f slot id cache' u = .ok (resolved, u) ∧
      insertFact (factRow store event f payload resolved.1) u = .ok (fact, v) ∧
      insertObservation ⟨store.datasetId, store.runId, captureSeq, method, fact.1, group,
        event.timestamp⟩ v = .ok (⟨⟩, t) ∧ r = (if fact.2 then 1 else 0, resolved.2) := by
  simp only [insert, insertWith, Tx.bind_eq_ok, Tx.lift_eq_ok, Tx.expect_eq_ok, Tx.pure_eq_ok,
    Result.context_eq_ok] at h
  obtain ⟨f, _, ⟨hf, rfl⟩, payload, _, ⟨hp, rfl⟩, authoritative, s₁, hauth, cache', u, hupd,
    resolved, w, hres, fact, v, hfact, ⟨⟩, _, hobs, rfl, rfl⟩ := h
  obtain rfl : _ = s₁ := reads_isAuthoritative _ hauth
  obtain rfl : u = w := reads_resolveInstance _ _ _ _ _ hres
  exact ⟨f, payload, authoritative, cache', u, resolved, fact, v, hf, hp, hauth, hupd, hres, hfact,
    hobs, rfl⟩

/-- **What recording one event does**: it inserts the event's fact, and otherwise keeps
the facts. -/
theorem insert_inv {store : Store} {method : CaptureMethod} {group slot : Option ℕ}
    {id : Option String} {captureSeq : ℕ} {event : Event} {cache : InstanceCache} {s t : Db}
    {r : ℕ × InstanceCache}
    (h : insert store method group slot id captureSeq event cache s = .ok (r, t)) :
    ∃ f payload inst u v a, facts event = .ok f ∧ event.monitorEvent = some payload ∧
      InstanceOf f slot id inst ∧ SameFacts s u ∧
      insertFact (factRow store event f payload inst) u = .ok (a, v) ∧ SameFacts v t := by
  obtain ⟨f, payload, _, _, u, resolved, fact, v, hf, hp, -, hupd, hres, hfact, hobs, -⟩ :=
    insert_pieces h
  exact ⟨f, payload, resolved.1, u, v, fact, hf, hp, resolveInstance_instanceOf hres,
    sameFacts_updateSidechainInstances _ _ _ _ _ hupd, hfact, sameFacts_insertObservation _ hobs⟩

theorem grows_insert (store : Store) (method : CaptureMethod) (group slot : Option ℕ)
    (id : Option String) (captureSeq : ℕ) (event : Event) (cache : InstanceCache) :
    Tx.Guarantees Grows (insert store method group slot id captureSeq event cache) := by
  intro s r t h
  obtain ⟨f, payload, inst, u, v, a, -, -, -, hsu, hfact, hvt⟩ := insert_inv h
  exact IsTrans.trans _ _ _ (IsTrans.trans _ _ _ hsu.grows (guarantees_insertFact _ hfact))
    hvt.grows

/-- A batch grows the record. -/
theorem grows_insertAll (store : Store) (method : CaptureMethod) (group slot : Option ℕ)
    (id : Option String) (captureSeq : ℕ) (events : List Event) (cache : InstanceCache) :
    Tx.Guarantees Grows (insertAll store method group slot id captureSeq events cache) := by
  induction events generalizing captureSeq cache with
  | nil => exact Tx.guarantees_pure _
  | cons event rest ih =>
    exact (grows_insert _ _ _ _ _ _ _ _).bind fun _ => (ih _ _).bind fun _ =>
      Tx.guarantees_pure _

/-- `row` is what the event is recorded as. -/
def RecordedAs (store : Store) (slot : Option ℕ) (id : Option String) (event : Event)
    (row : EventRow) : Prop :=
  ∃ f payload inst, facts event = .ok f ∧ event.monitorEvent = some payload ∧
    InstanceOf f slot id inst ∧ row = factRow store event f payload inst

/-- One event's fact is in the record afterwards. -/
theorem insert_records {store : Store} {method : CaptureMethod} {group slot : Option ℕ}
    {id : Option String} {captureSeq : ℕ} {event : Event} {cache : InstanceCache} {s t : Db}
    {r : ℕ × InstanceCache}
    (h : insert store method group slot id captureSeq event cache s = .ok (r, t)) :
    ∃ row, RecordedAs store slot id event row ∧ ∃ e ∈ t.events, e.sameIdentity row := by
  obtain ⟨f, payload, inst, u, v, a, hf, hp, hi, -, hfact, hvt⟩ := insert_inv h
  refine ⟨_, ⟨f, payload, inst, hf, hp, hi, rfl⟩, ?_⟩
  rw [hvt.events]
  rcases (insertFact_eq_ok.mp hfact).2 with ⟨e, he, -, rfl⟩ | ⟨-, -, -, rfl⟩
  · exact ⟨e, List.mem_of_find?_eq_some he, by simpa using List.find?_some he⟩
  · exact ⟨_, List.mem_append_right _ (List.mem_singleton_self _),
      ⟨rfl, rfl, rfl, rfl, rfl, rfl⟩, rfl, rfl⟩

/-- A fact that was not there is one the event is recorded as. -/
theorem insert_new {store : Store} {method : CaptureMethod} {group slot : Option ℕ}
    {id : Option String} {captureSeq : ℕ} {event : Event} {cache : InstanceCache} {s t : Db}
    {r : ℕ × InstanceCache}
    (h : insert store method group slot id captureSeq event cache s = .ok (r, t))
    {e : EventRow} (he : e ∈ t.events) :
    e ∈ s.events ∨ ∃ row, RecordedAs store slot id event row ∧ e = { row with id := e.id } := by
  obtain ⟨f, payload, inst, u, v, a, hf, hp, hi, hsu, hfact, hvt⟩ := insert_inv h
  rw [hvt.events] at he
  rw [← hsu.events]
  rcases (insertFact_eq_ok.mp hfact).2 with ⟨-, -, -, rfl⟩ | ⟨-, -, -, rfl⟩
  · exact .inl he
  · rcases List.mem_append.mp he with he | he
    · exact .inl he
    · refine .inr ⟨_, ⟨f, payload, inst, hf, hp, hi, rfl⟩, ?_⟩
      rw [List.mem_singleton.mp he]

/-- **A recorded batch has a fact for each of its events.** -/
theorem insertAll_records {store : Store} {method : CaptureMethod} {group slot : Option ℕ}
    {id : Option String} {captureSeq n : ℕ} {events : List Event} {cache : InstanceCache}
    {s t : Db} (h : insertAll store method group slot id captureSeq events cache s = .ok (n, t))
    {event : Event} (hev : event ∈ events) :
    ∃ row, RecordedAs store slot id event row ∧ ∃ e ∈ t.events, e.sameIdentity row := by
  induction events generalizing captureSeq cache s n with
  | nil => cases hev
  | cons event' rest ih =>
    obtain ⟨r, u, hr, hrest⟩ := Tx.bind_eq_ok.mp h
    obtain ⟨m, v, hm, hn⟩ := Tx.bind_eq_ok.mp hrest
    obtain ⟨-, rfl⟩ := Tx.pure_eq_ok.mp hn
    rcases List.mem_cons.mp hev with rfl | hev
    · obtain ⟨row, hrow, e, he, hid⟩ := insert_records hr
      exact ⟨row, hrow, e, (grows_insertAll _ _ _ _ _ _ _ _ hm).events he, hid⟩
    · exact ih hm hev

/-- A fact that was not there is one that some event of the batch is recorded as. -/
theorem insertAll_new {store : Store} {method : CaptureMethod} {group slot : Option ℕ}
    {id : Option String} {captureSeq n : ℕ} {events : List Event} {cache : InstanceCache}
    {s t : Db} (h : insertAll store method group slot id captureSeq events cache s = .ok (n, t))
    {e : EventRow} (he : e ∈ t.events) :
    e ∈ s.events ∨
      ∃ event ∈ events, ∃ row, RecordedAs store slot id event row ∧ e = { row with id := e.id } := by
  induction events generalizing captureSeq cache s n with
  | nil =>
    obtain ⟨-, rfl⟩ := Tx.pure_eq_ok.mp h
    exact .inl he
  | cons event' rest ih =>
    obtain ⟨r, u, hr, hrest⟩ := Tx.bind_eq_ok.mp h
    obtain ⟨m, v, hm, hn⟩ := Tx.bind_eq_ok.mp hrest
    obtain ⟨-, rfl⟩ := Tx.pure_eq_ok.mp hn
    rcases ih hm with heu | ⟨event, hev, hrow⟩
    · rcases insert_new hr heu with hes | hrow
      · exact .inl hes
      · exact .inr ⟨event', List.mem_cons_self, hrow⟩
    · exact .inr ⟨event, List.mem_cons_of_mem _ hev, hrow⟩

/-- What an event adds: its fact if it is new, and the conflicts it brings to light. -/
theorem insert_added {store : Store} {method : CaptureMethod} {group slot : Option ℕ}
    {id : Option String} {captureSeq : ℕ} {event : Event} {cache : InstanceCache} {s t : Db}
    {r : ℕ × InstanceCache}
    (h : insert store method group slot id captureSeq event cache s = .ok (r, t)) :
    (∃ new, t.events = s.events ++ new ∧ new.length = r.1) ∧ s.conflicts <+: t.conflicts := by
  obtain ⟨f, payload, _, _, u, resolved, fact, v, -, -, -, hupd, -, hfact, hobs, rfl⟩ :=
    insert_pieces h
  have hsu := sameFacts_updateSidechainInstances _ _ _ _ _ hupd
  have hvt := sameFacts_insertObservation _ hobs
  rw [hvt.events, hvt.conflicts, ← hsu.events, ← hsu.conflicts]
  rcases (insertFact_eq_ok.mp hfact).2 with ⟨e, -, rfl, rfl⟩ | ⟨-, -, rfl, rfl⟩
  · exact ⟨⟨[], (List.append_nil _).symm, rfl⟩, List.prefix_refl _⟩
  · exact ⟨⟨[_], rfl, rfl⟩, List.prefix_append _ _⟩

/-- **What a batch adds**: as many facts as it says, and the conflicts they bring to light. -/
theorem insertAll_added {store : Store} {method : CaptureMethod} {group slot : Option ℕ}
    {id : Option String} {captureSeq n : ℕ} {events : List Event} {cache : InstanceCache}
    {s t : Db} (h : insertAll store method group slot id captureSeq events cache s = .ok (n, t)) :
    (∃ new, t.events = s.events ++ new ∧ new.length = n) ∧ s.conflicts <+: t.conflicts := by
  induction events generalizing captureSeq cache s n with
  | nil =>
    obtain ⟨rfl, rfl⟩ := Tx.pure_eq_ok.mp h
    exact ⟨⟨[], (List.append_nil _).symm, rfl⟩, List.prefix_refl _⟩
  | cons event rest ih =>
    obtain ⟨r, u, hr, hrest⟩ := Tx.bind_eq_ok.mp h
    obtain ⟨m, v, hm, hn⟩ := Tx.bind_eq_ok.mp hrest
    obtain ⟨rfl, rfl⟩ := Tx.pure_eq_ok.mp hn
    obtain ⟨⟨new, hnew, hlen⟩, hconflicts⟩ := insert_added hr
    obtain ⟨⟨new', hnew', hlen'⟩, hconflicts'⟩ := ih hm
    refine ⟨⟨new ++ new', ?_, ?_⟩, hconflicts.trans hconflicts'⟩
    · rw [hnew', hnew, List.append_assoc]
    · rw [List.length_append, hlen, hlen']

/-! ### The recording transactions -/

theorem grows_recordBatch (store : Store) (events : List Event) (method : CaptureMethod)
    (inst : Option SidechainInstanceRef) :
    Tx.Guarantees Grows (recordBatch store events method inst) := by
  unfold recordBatch
  split_ifs
  · exact Tx.guarantees_pure _
  · exact (reads_validateExplicit _ _ _).of_eq.bind fun _ =>
      ((sameFacts_reserveCaptureSequences _ _).mono fun _ _ h => h.grows).bind fun _ =>
        grows_insertAll _ _ _ _ _ _ _ _

theorem grows_recordSnapshot (store : Store) (events : List Event) (method : CaptureMethod)
    (metadata : SnapshotMetadata) :
    Tx.Guarantees Grows (recordSnapshot store events method metadata) := by
  unfold recordSnapshot
  split_ifs
  · exact Tx.guarantees_pure _
  · exact (Tx.guarantees_lift _).bind fun _ => (Tx.guarantees_lift _).bind fun _ =>
      (Tx.guarantees_lift _).bind fun _ => (Tx.guarantees_lift _).bind fun _ =>
        (Tx.guarantees_lift _).bind fun _ => (Tx.guarantees_lift _).bind fun _ =>
          (Tx.guarantees_require _ _).bind fun _ =>
            ((sameFacts_insertSnapshotGroup _ _ _ _ _).mono fun _ _ h => h.grows).bind fun _ =>
              ((sameFacts_reserveCaptureSequences _ _).mono fun _ _ h => h.grows).bind fun _ =>
                (grows_insertAll _ _ _ _ _ _ _ _).bind fun _ =>
                  ((sameFacts_updateExtractorStatus _ _).mono fun _ _ h => h.grows).bind fun _ =>
                    Tx.guarantees_pure _

end Bip300Monitor
