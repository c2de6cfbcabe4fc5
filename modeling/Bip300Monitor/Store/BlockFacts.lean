import Bip300Monitor.Store.Conflicts
import Bip300Monitor.Store.Ledger
import Mathlib.Data.List.Dedup

/-!
# Facts about connected blocks

The blocks connected to one activation of a slot, however often, in whatever order and
batches they were recorded, and by which runs: a fact for each distinct payload, an
occurrence for each recording, and a conflict for each two payloads of one block.

## The model

`Tally` is the record and the connected blocks that commands have recorded in a scope,
in order. A connected block is recorded for an explicit instance and is anchored to
itself (`Command.Anchored`); SHA-256 has no collision among the recorded payloads.

## What is proved

* `Tallied` — the invariant, and that each event keeps it (`Tallied.insert`);
* `Tallied.facts_perm`, `Tallied.conflict_iff` — what it says of facts and conflicts.
-/

namespace Bip300Monitor

open Protobuf Transaction Runs

/-! ### Connected blocks -/

/-- The payload of a connected block. -/
def Protobuf.BlockConnected.payload (block : BlockConnected) : MonitorEvent :=
  .enforcer (some (.blockConnected block))

/-- The hash of the block. -/
def Protobuf.BlockConnected.hash? (block : BlockConnected) : Option Bytes :=
  block.header.map (·.hash)

/-- The block that an event connects. -/
def Protobuf.Event.connects? (event : Event) : Option BlockConnected :=
  match event.monitorEvent with
  | some (.enforcer (some (.blockConnected block))) => some block
  | _ => none

theorem Protobuf.Event.connects?_eq_some {event : Event} {block : BlockConnected} :
    event.connects? = some block ↔ event.monitorEvent = some block.payload := by
  unfold Event.connects? BlockConnected.payload
  split
  · rename_i b hb
    rw [hb]
    simp
  · rename_i hno
    exact iff_of_false nofun (hno block)

/-- The events of this kind are those that connect a block. -/
theorem facts_kind_blockConnected {event : Event} {f : Facts} (h : facts event = .ok f) :
    f.kind = .blockConnected ↔ ∃ block, event.connects? = some block := by
  simp only [Event.connects?_eq_some, BlockConnected.payload]
  unfold facts at h
  split at h
  · cases h
  · rename_i payload hpayload
    obtain ⟨_, -, h⟩ := Result.bind_eq_ok.mp h
    cases h
    rw [hpayload]
    cases payload <;> simp [NodeEvent.kind]
  · cases h
  · rename_i payload hpayload
    obtain ⟨_, -, h⟩ := Result.bind_eq_ok.mp h
    obtain ⟨_, -, h⟩ := Result.bind_eq_ok.mp h
    cases h
    rw [hpayload]
    cases payload <;> simp [EnforcerEvent.kind]
  · cases h

/-- The scope a batch records connected blocks in. -/
def Batch.blockKey (b : Batch) : ScopeKey := b.store.scopeKey .block b.sidechain b.sidechainInstanceId

/-- The connected blocks a command records in a scope, in order. -/
def Command.connected (k : ScopeKey) (c : Command) : List BlockConnected :=
  match c.batch with
  | some b => if b.blockKey = k then b.events.filterMap Event.connects? else []
  | none => []

/-- The event connects a block and is anchored to it. -/
def Protobuf.Event.Anchors (event : Event) (block : BlockConnected) : Prop :=
  event.observedAtBlock.map (·.hash) = block.hash? ∧ block.hash? ≠ none

/-- Connected blocks are recorded for an explicit instance, each anchored to itself. -/
def Command.Anchored (c : Command) : Prop :=
  ∀ b, c.batch = some b → ∀ event ∈ b.events, ∀ block, event.connects? = some block →
    b.sidechainInstanceId.isSome ∧ event.Anchors block

/-! ### The tally -/

/-- The block connected by a fact of the scope. -/
def Db.connectedAt (db : Db) (k : ScopeKey) (id : ℕ) : Option BlockConnected :=
  (db.events.find? fun e => e.id = id ∧ e.inScope k).bind (·.envelope.connects?)

/-- The facts of a scope. -/
def Db.factsIn (db : Db) (k : ScopeKey) : List EventRow := db.events.filter (·.inScope k)

/-- The blocks of the occurrences of facts of a scope, in order. -/
def Db.occurrencesIn (db : Db) (k : ScopeKey) : List BlockConnected :=
  db.observations.filterMap fun o => db.connectedAt k o.eventId

theorem Db.mem_factsIn {db : Db} {k : ScopeKey} {e : EventRow} :
    e ∈ db.factsIn k ↔ e ∈ db.events ∧ e.inScope k := by
  simp [Db.factsIn, List.mem_filter]

/-- A fact is found by its id. -/
theorem Db.Judged.connectedAt {db : Db} (h : db.Judged) (k : ScopeKey) {e : EventRow}
    (he : e ∈ db.events) :
    db.connectedAt k e.id = if e.inScope k then e.envelope.connects? else none := by
  unfold Db.connectedAt
  cases hfind : db.events.find? fun e' => e'.id = e.id ∧ e'.inScope k with
  | none =>
    have hnone := List.find?_eq_none.mp hfind e he
    rw [decide_eq_true_eq, not_and] at hnone
    rw [if_neg (hnone rfl)]
    rfl
  | some e' =>
    have hfound := List.find?_some hfind
    obtain ⟨hid, hs⟩ := of_decide_eq_true hfound
    obtain rfl := h.sound.eq_of_id (List.mem_of_find?_eq_some hfind) he hid
    rw [if_pos hs]
    rfl

/-- A new fact is found under no older id. -/
theorem Db.connectedAt_addFact (db : Db) (k : ScopeKey) (row : EventRow) {id : ℕ}
    (h : id < db.nextEventId) : (db.addFact row).connectedAt k id = db.connectedAt k id := by
  have hnew : [({ row with id := db.nextEventId } : EventRow)].find?
      (fun e => decide (e.id = id ∧ e.inScope k)) = none := by
    rw [List.find?_singleton]
    exact if_neg fun hfound => Nat.ne_of_gt h (of_decide_eq_true hfound).1
  unfold Db.connectedAt Db.addFact
  rw [List.find?_append, hnew, Option.or_none]

section
variable [Digests]

/-- The record counts the connected blocks of a scope as they were recorded: `known` are the
payloads without a collision. -/
structure Tallied (k : ScopeKey) (known : BlockConnected → Prop) (db : Db)
    (log : List BlockConnected) : Prop where
  judged : db.Judged
  fact : ∀ e ∈ db.events, e.inScope k → ∃ block ∈ log, e.envelope.connects? = some block ∧
    known block ∧ e.factSha256 = Digests.factSha256 block.payload ∧ e.blockHash = block.hash? ∧
      block.hash? ≠ none
  older : ∀ o ∈ db.observations, o.eventId < db.nextEventId
  occurrences : db.occurrencesIn k = log

variable {k : ScopeKey} {known : BlockConnected → Prop} {log : List BlockConnected} {s t : Db}

theorem Tallied.empty : Tallied k known Db.empty [] where
  judged := .empty
  fact := by simp [Db.empty]
  older := by simp [Db.empty]
  occurrences := rfl

theorem Tallied.congr (h : Tallied k known s log) (hevents : t.events = s.events)
    (hnext : t.nextEventId = s.nextEventId) (hconflicts : t.conflicts = s.conflicts)
    (hobservations : t.observations = s.observations) : Tallied k known t log where
  judged := h.judged.congr hevents hnext hconflicts
  fact := by rw [hevents]; exact h.fact
  older := by rw [hobservations, hnext]; exact h.older
  occurrences := by
    rw [← h.occurrences]
    simp only [Db.occurrencesIn, Db.connectedAt, hobservations, hevents]

/-- The row of an event is of the scope when the event connects a block for it. -/
theorem RecordedAs.inScope_iff {store : Store} {slot : Option ℕ} {id : Option String}
    {event : Event} {row : EventRow} (h : RecordedAs store slot id event row)
    (hk : k.stream = .block) (hid : ∀ block, event.connects? = some block → id.isSome) :
    row.inScope k ↔ store.scopeKey .block slot id = k ∧ ∃ block, event.connects? = some block := by
  obtain ⟨f, payload, inst, hf, -, hinst, rfl⟩ := h
  rw [← facts_kind_blockConnected hf]
  have hkind : k.stream.kind = .blockConnected := by rw [hk]; rfl
  have hexplicit (h : f.kind = .blockConnected) : f.sidechain = slot ∧ inst = id := by
    obtain ⟨block, hblock⟩ := (facts_kind_blockConnected hf).mp h
    have hsome := hid block hblock
    cases hinst with
    | global => cases hsome
    | explicit hslot => exact ⟨hslot, rfl⟩
    | current => cases hsome
  constructor
  · rintro ⟨h₁, h₂, h₃, h₄, h₅, h₆⟩
    have hconnected : f.kind = .blockConnected := h₄.trans hkind
    obtain ⟨hslot, hinst⟩ := hexplicit hconnected
    refine ⟨?_, hconnected⟩
    cases k
    simp only [Store.scopeKey, ScopeKey.mk.injEq]
    exact ⟨h₁, h₂, h₃, hk.symm, hslot.symm.trans h₅, hinst.symm.trans h₆⟩
  · rintro ⟨rfl, hconnected⟩
    obtain ⟨hslot, hinst⟩ := hexplicit hconnected
    exact ⟨rfl, rfl, rfl, hconnected.trans hkind.symm, hslot, hinst⟩

omit [Digests] in
theorem EventRow.sameScope.inScope_iff {e e' : EventRow} (h : e.sameScope e') :
    e.inScope k ↔ e'.inScope k := by
  obtain ⟨h₁, h₂, h₃, h₄, h₅, h₆⟩ := h
  rw [EventRow.inScope, EventRow.inScope, h₁, h₂, h₃, h₄, h₅, h₆]

/-- An occurrence of a fact is counted, if the fact is of the scope. -/
theorem Tallied.observe {blocks : List BlockConnected} (hjudged : s.Judged)
    (hfact : ∀ e ∈ s.events, e.inScope k → ∃ block ∈ log ++ blocks,
      e.envelope.connects? = some block ∧ known block ∧
        e.factSha256 = Digests.factSha256 block.payload ∧ e.blockHash = block.hash? ∧
      block.hash? ≠ none)
    (holder : ∀ o ∈ s.observations, o.eventId < s.nextEventId) (hlog : s.occurrencesIn k = log)
    {o : EventObservation} {e : EventRow} (he : e ∈ s.events) (hid : e.id = o.eventId)
    (hblocks : (if e.inScope k then e.envelope.connects? else none).toList = blocks)
    (ht : t = { s with observations := s.observations ++ [o] }) :
    Tallied k known t (log ++ blocks) := by
  subst ht
  refine ⟨hjudged.congr rfl rfl rfl, hfact, fun o' ho' => ?_, ?_⟩
  · rcases List.mem_append.mp ho' with ho' | ho'
    · exact holder o' ho'
    · rw [List.mem_singleton.mp ho', ← hid]
      exact hjudged.sound.id_lt e he
  · have hone : ([o].filterMap fun o => s.connectedAt k o.eventId) = blocks := by
      rw [← hblocks, ← hjudged.connectedAt k he, hid]
      cases hat : s.connectedAt k o.eventId <;> simp [hat]
    rw [← hlog, ← hone]
    exact List.filterMap_append

/-- **Each event is counted**: its fact is new or has the same payload, and its occurrence
is one more. -/
theorem Tallied.insert {store : Store} {method : CaptureMethod} {group slot : Option ℕ}
    {id : Option String} {captureSeq : ℕ} {event : Event} {cache : InstanceCache}
    {r : ℕ × InstanceCache} (hs : Tallied k known s log) (hk : k.stream = .block)
    (hsha : ∀ x y, known x → known y →
      Digests.factSha256 x.payload = Digests.factSha256 y.payload → x = y)
    (hevent : ∀ block, event.connects? = some block → id.isSome ∧ event.Anchors block ∧ known block)
    (h : Bip300Monitor.insert store method group slot id captureSeq event cache s = .ok (r, t)) :
    Tallied k known t
      (log ++ if store.scopeKey .block slot id = k then event.connects?.toList else []) := by
  obtain ⟨f, payload, _, _, u, resolved, fact, v, hf, hp, -, hupd, hres, hfact, hobs, -⟩ :=
    insert_pieces h
  have hu : Tallied k known u log := by
    have hsu := sameFacts_updateSidechainInstances _ _ _ _ _ hupd
    exact hs.congr hsu.events hsu.nextEventId hsu.conflicts
      (updateSidechainInstances_inv hupd).1.observations
  obtain ⟨-, hobs⟩ := Tx.require_bind_eq_ok.mp (Tx.read_bind_eq_ok.mp hobs)
  have ht := Tx.modify_eq_ok.mp hobs
  have hrow : RecordedAs store slot id event (factRow store event f payload resolved.1) :=
    ⟨f, payload, resolved.1, hf, hp, resolveInstance_instanceOf hres, rfl⟩
  have hscope := hrow.inScope_iff hk fun block hblock => (hevent block hblock).1
  -- the event's block is counted when its fact, new or old, is of the scope
  have hcount {e : EventRow} (hsame : e.sameScope (factRow store event f payload resolved.1))
      (hblock : e.inScope k → ∀ block, event.connects? = some block →
        e.envelope.connects? = some block) :
      (if e.inScope k then e.envelope.connects? else none).toList =
        if store.scopeKey .block slot id = k then event.connects?.toList else [] := by
    by_cases hin : e.inScope k
    · obtain ⟨hkey, block, hconnects⟩ := hscope.mp (hsame.inScope_iff.mp hin)
      rw [if_pos hin, if_pos hkey, hblock hin block hconnects, hconnects]
    · rw [if_neg hin]
      split_ifs with hkey
      · cases hconnects : event.connects? with
        | none => rfl
        | some block => exact absurd (hsame.inScope_iff.mpr (hscope.mpr ⟨hkey, block, hconnects⟩)) hin
      · rfl
  have hpayload {block : BlockConnected} (hconnects : event.connects? = some block) :
      payload = block.payload :=
    Option.some.inj (hp.symm.trans (Event.connects?_eq_some.mp hconnects))
  rcases (insertFact_eq_ok.mp hfact).2 with ⟨e, hrecorded, rfl, rfl⟩ | ⟨hnew, -, rfl, rfl⟩
  · have he : e ∈ v.events := List.mem_of_find?_eq_some hrecorded
    have hfound := List.find?_some hrecorded
    obtain ⟨hsame, -, hfactSha⟩ := of_decide_eq_true hfound
    refine Tallied.observe hu.judged (fun e' he' hin => ?_) hu.older hu.occurrences he rfl
      (hcount hsame fun hin block hconnects => ?_) ht
    · obtain ⟨block, hmem, hrest⟩ := hu.fact e' he' hin
      exact ⟨block, List.mem_append_left _ hmem, hrest⟩
    · obtain ⟨block', -, hconnects', hknown', hsha', -⟩ := hu.fact e he hin
      have heq : block' = block := by
        refine hsha _ _ hknown' (hevent block hconnects).2.2 ?_
        rw [← hsha', hfactSha, ← hpayload hconnects]
        rfl
      rw [hconnects', heq]
  · have holder : ∀ o ∈ (u.addFact (factRow store event f payload resolved.1)).observations,
        o.eventId < (u.addFact (factRow store event f payload resolved.1)).nextEventId :=
      fun o ho => Nat.lt_succ_of_lt (hu.older o ho)
    let new : EventRow := { factRow store event f payload resolved.1 with id := u.nextEventId }
    have hblocks : (if new.inScope k then new.envelope.connects? else none).toList = _ :=
      hcount ⟨rfl, rfl, rfl, rfl, rfl, rfl⟩ fun _ block hconnects => hconnects
    refine Tallied.observe (hu.judged.addFact hnew) (fun e he hin => ?_) holder ?_
      (List.mem_append_right _ (List.mem_singleton_self _)) rfl hblocks ht
    · rcases List.mem_append.mp he with he | he
      · obtain ⟨block, hmem, hrest⟩ := hu.fact e he hin
        exact ⟨block, List.mem_append_left _ hmem, hrest⟩
      · obtain rfl := List.mem_singleton.mp he
        obtain ⟨hkey, block, hconnects⟩ := hscope.mp hin
        obtain ⟨-, hanchor, hknown⟩ := hevent block hconnects
        refine ⟨block, List.mem_append_right _ ?_, hconnects, hknown, ?_, ?_, hanchor.2⟩
        · rw [if_pos hkey, hconnects]
          exact List.mem_singleton_self _
        · rw [← hpayload hconnects]
          rfl
        · exact (facts_blockHash hf).trans hanchor.1
    · rw [← hu.occurrences]
      exact List.filterMap_congr fun o ho => Db.connectedAt_addFact _ _ _ (hu.older o ho)

/-- A batch is counted. -/
theorem Tallied.insertAll {store : Store} {method : CaptureMethod} {group slot : Option ℕ}
    {id : Option String} {captureSeq n : ℕ} {events : List Event} {cache : InstanceCache}
    (hs : Tallied k known s log) (hk : k.stream = .block)
    (hsha : ∀ x y, known x → known y →
      Digests.factSha256 x.payload = Digests.factSha256 y.payload → x = y)
    (hevents : ∀ event ∈ events, ∀ block, event.connects? = some block →
      id.isSome ∧ event.Anchors block ∧ known block)
    (h : Bip300Monitor.insertAll store method group slot id captureSeq events cache s =
      .ok (n, t)) :
    Tallied k known t (log ++ if store.scopeKey .block slot id = k then
      events.filterMap Event.connects? else []) := by
  induction events generalizing captureSeq cache s n log with
  | nil =>
    obtain ⟨-, rfl⟩ := Tx.pure_eq_ok.mp h
    simpa using hs
  | cons event rest ih =>
    obtain ⟨r, u, hr, hrest⟩ := Tx.bind_eq_ok.mp h
    obtain ⟨m, v, hm, hn⟩ := Tx.bind_eq_ok.mp hrest
    obtain ⟨-, rfl⟩ := Tx.pure_eq_ok.mp hn
    have hone := hs.insert hk hsha (hevents event List.mem_cons_self) hr
    have hall := ih hone (fun e he => hevents e (List.mem_cons_of_mem _ he)) hm
    rw [List.append_assoc] at hall
    have hcons : (if store.scopeKey .block slot id = k then event.connects?.toList else []) ++
        (if store.scopeKey .block slot id = k then rest.filterMap Event.connects? else []) =
        if store.scopeKey .block slot id = k then (event :: rest).filterMap Event.connects?
          else [] := by
      split_ifs
      · cases hconnects : event.connects? <;> simp [hconnects]
      · rfl
    exact hcons ▸ hall

/-! ### What the tally says -/

/-- The facts of a block, told apart by its payloads. -/
theorem Tallied.eq_of_connects (h : Tallied k known s log) {e e' : EventRow} (he : e ∈ s.events)
    (hin : e.inScope k) (he' : e' ∈ s.events) (hin' : e'.inScope k)
    (heq : e.envelope.connects? = e'.envelope.connects?) : e = e' := by
  obtain ⟨block, -, hconnects, -, hsha, hhash, -⟩ := h.fact e he hin
  obtain ⟨block', -, hconnects', -, hsha', hhash', -⟩ := h.fact e' he' hin'
  obtain rfl : block = block' := Option.some.inj (hconnects.symm.trans (heq.trans hconnects'))
  exact h.judged.sound.identity e he e' he'
    ⟨hin.sameScope hin', hhash.trans hhash'.symm, hsha.trans hsha'.symm⟩

/-- **A fact for each distinct payload.** -/
theorem Tallied.facts_perm (h : Tallied k known s log) :
    ((s.factsIn k).map (·.envelope.connects?)).Perm (log.dedup.map some) := by
  have hnodup : ((s.factsIn k).map (·.envelope.connects?)).Nodup := by
    refine List.Nodup.map_on (fun e he e' he' heq => ?_)
      ((List.Nodup.of_map _ h.judged.sound.id_nodup).filter _)
    obtain ⟨he, hin⟩ := Db.mem_factsIn.mp he
    obtain ⟨he', hin'⟩ := Db.mem_factsIn.mp he'
    exact h.eq_of_connects he hin he' hin' heq
  refine (List.perm_ext_iff_of_nodup hnodup
    ((List.nodup_dedup log).map (Option.some_injective _))).mpr fun x => ?_
  simp only [List.mem_map, List.mem_dedup]
  constructor
  · rintro ⟨e, he, rfl⟩
    obtain ⟨he, hin⟩ := Db.mem_factsIn.mp he
    obtain ⟨block, hmem, hconnects, -⟩ := h.fact e he hin
    exact ⟨block, hmem, hconnects.symm⟩
  · rintro ⟨block, hmem, rfl⟩
    rw [← h.occurrences] at hmem
    obtain ⟨o, -, hat⟩ := List.mem_filterMap.mp hmem
    obtain ⟨e, hfind, hconnects⟩ := Option.bind_eq_some_iff.mp hat
    have hfound := List.find?_some hfind
    exact ⟨e, Db.mem_factsIn.mpr ⟨List.mem_of_find?_eq_some hfind, (of_decide_eq_true hfound).2⟩,
      hconnects⟩

/-- A recorded block has a fact. -/
theorem Tallied.exists_fact (h : Tallied k known s log) {block : BlockConnected}
    (hblock : block ∈ log) : ∃ e ∈ s.events, e.inScope k ∧ e.envelope.connects? = some block ∧
      e.blockHash = block.hash? := by
  have hmem : some block ∈ (s.factsIn k).map (·.envelope.connects?) :=
    h.facts_perm.mem_iff.mpr (List.mem_map_of_mem (List.mem_dedup.mpr hblock))
  obtain ⟨e, he, hconnects⟩ := List.mem_map.mp hmem
  obtain ⟨he, hin⟩ := Db.mem_factsIn.mp he
  obtain ⟨block', -, hconnects', -, -, hhash, -⟩ := h.fact e he hin
  obtain rfl : block = block' := Option.some.inj (hconnects.symm.trans hconnects')
  exact ⟨e, he, hin, hconnects, hhash⟩

end

/-- The conflict is of two facts of the scope, the first with one payload and the second with
the other. -/
def EventConflict.IsOf (c : EventConflict) (db : Db) (k : ScopeKey) (x y : BlockConnected) : Prop :=
  ∃ e ∈ db.factsIn k, ∃ e' ∈ db.factsIn k, c.isOf e e' ∧
    e.envelope.connects? = some x ∧ e'.envelope.connects? = some y

theorem EventConflict.isOf.eq {c c' : EventConflict} {e e' : EventRow} (h : c.isOf e e')
    (h' : c'.isOf e e') : c = c' := by
  obtain ⟨h₁, h₂, h₃⟩ := h
  obtain ⟨h₁', h₂', h₃'⟩ := h'
  cases c
  cases c'
  rw [EventConflict.mk.injEq]
  exact ⟨h₁.trans h₁'.symm, h₂.trans h₂'.symm, h₃.trans h₃'.symm⟩

/-- The conflict is of the two payloads. -/
def EventConflict.Between (c : EventConflict) (db : Db) (k : ScopeKey) (x y : BlockConnected) :
    Prop := c.IsOf db k x y ∨ c.IsOf db k y x

section
variable [Digests] {k : ScopeKey} {known : BlockConnected → Prop} {log : List BlockConnected}
  {s t : Db}

/-- A retained conflict of two payloads is of distinct payloads of one block. -/
theorem Tallied.of_isOf (h : Tallied k known s log) {c : EventConflict} (hc : c ∈ s.conflicts)
    {x y : BlockConnected} (hof : c.IsOf s k x y) : x ≠ y ∧ x.hash? = y.hash? := by
  obtain ⟨e, he, e', he', ⟨-, hfirst, hsecond⟩, hx, hy⟩ := hof
  obtain ⟨he, hin⟩ := Db.mem_factsIn.mp he
  obtain ⟨he', hin'⟩ := Db.mem_factsIn.mp he'
  obtain ⟨f, hf, f', hf', ⟨-, hfirst', hsecond'⟩, -, hconf⟩ := h.judged.backed c hc
  obtain rfl := h.judged.sound.eq_of_id he hf (hfirst.symm.trans hfirst')
  obtain rfl := h.judged.sound.eq_of_id he' hf' (hsecond.symm.trans hsecond')
  obtain ⟨block, -, hconnects, -, hsha, hhash, -⟩ := h.fact e he hin
  obtain ⟨block', -, hconnects', -, hsha', hhash', -⟩ := h.fact e' he' hin'
  obtain rfl : block = x := Option.some.inj (hconnects.symm.trans hx)
  obtain rfl : block' = y := Option.some.inj (hconnects'.symm.trans hy)
  obtain ⟨-, hsame, -, -, hne⟩ := hconf
  refine ⟨?_, hhash.symm.trans (hsame.trans hhash')⟩
  rintro rfl
  exact hne (hsha.trans hsha'.symm)

/-- **A conflict for each two payloads of one block**, and one only. -/
theorem Tallied.conflict_iff (h : Tallied k known s log) {x y : BlockConnected} (hx : x ∈ log)
    (hy : y ∈ log) : (x ≠ y ∧ x.hash? = y.hash?) ↔
      ∃! c, c ∈ s.conflicts ∧ c.Between s k x y := by
  constructor
  · rintro ⟨hne, hhash⟩
    obtain ⟨e, he, hin, hex, heh⟩ := h.exists_fact hx
    obtain ⟨e', he', hin', hey, heh'⟩ := h.exists_fact hy
    obtain ⟨block, -, hconnects, -, -, hblock, hsome⟩ := h.fact e he hin
    have hee : e ≠ e' := by
      rintro rfl
      exact hne (Option.some.inj (hex.symm.trans hey))
    obtain ⟨c, hc, hids⟩ := h.judged.sound.conflict_of_blockHash he he' hin hin'
      (heh.trans (hhash.trans heh'.symm)) (hblock ▸ hsome) hee
    have hF := Db.mem_factsIn.mpr ⟨he, hin⟩
    have hF' := Db.mem_factsIn.mpr ⟨he', hin'⟩
    -- the dataset of a conflict is that of its facts
    have isOf {c : EventConflict} (hc : c ∈ s.conflicts) {g g' : EventRow} (hg : g ∈ s.events)
        (hg' : g' ∈ s.events) (h₁ : c.firstEventId = g.id) (h₂ : c.conflictingEventId = g'.id) :
        c.isOf g g' ∧ g.id < g'.id := by
      obtain ⟨f, hf, f', hf', ⟨hdataset, hfirst, hsecond⟩, -, hconf⟩ := h.judged.backed c hc
      obtain rfl := h.judged.sound.eq_of_id hg hf (h₁.symm.trans hfirst)
      obtain rfl := h.judged.sound.eq_of_id hg' hf' (h₂.symm.trans hsecond)
      exact ⟨⟨hdataset, hfirst, hsecond⟩, hconf.2.2.2.1⟩
    have hbetween : c.Between s k x y := by
      rcases hids with ⟨h₁, h₂⟩ | ⟨h₁, h₂⟩
      · exact .inl ⟨e, hF, e', hF', (isOf hc he he' h₁ h₂).1, hex, hey⟩
      · exact .inr ⟨e', hF', e, hF, (isOf hc he' he h₁ h₂).1, hey, hex⟩
    -- the ids of the two facts, whose order is fixed, determine the row
    have determined {c' : EventConflict} (hc' : c' ∈ s.conflicts) (hb : c'.Between s k x y) :
        (c'.isOf e e' ∧ e.id < e'.id) ∨ (c'.isOf e' e ∧ e'.id < e.id) := by
      rcases hb with ⟨g, hg, g', hg', hof, hgx, hgy⟩ | ⟨g, hg, g', hg', hof, hgy, hgx⟩
      · obtain ⟨hg, hgin⟩ := Db.mem_factsIn.mp hg
        obtain ⟨hg', hgin'⟩ := Db.mem_factsIn.mp hg'
        obtain rfl := h.eq_of_connects hg hgin he hin (hgx.trans hex.symm)
        obtain rfl := h.eq_of_connects hg' hgin' he' hin' (hgy.trans hey.symm)
        exact .inl (isOf hc' hg hg' hof.2.1 hof.2.2)
      · obtain ⟨hg, hgin⟩ := Db.mem_factsIn.mp hg
        obtain ⟨hg', hgin'⟩ := Db.mem_factsIn.mp hg'
        obtain rfl := h.eq_of_connects hg hgin he' hin' (hgy.trans hey.symm)
        obtain rfl := h.eq_of_connects hg' hgin' he hin (hgx.trans hex.symm)
        exact .inr (isOf hc' hg hg' hof.2.1 hof.2.2)
    refine ⟨c, ⟨hc, hbetween⟩, ?_⟩
    rintro c' ⟨hc', hb'⟩
    rcases determined hc hbetween with ⟨hof, hlt⟩ | ⟨hof, hlt⟩ <;>
      rcases determined hc' hb' with ⟨hof', hlt'⟩ | ⟨hof', hlt'⟩
    · exact hof'.eq hof
    · omega
    · omega
    · exact hof'.eq hof
  · rintro ⟨c, ⟨hc, hb⟩, -⟩
    rcases hb with hof | hof
    · exact h.of_isOf hc hof
    · obtain ⟨hne, hhash⟩ := h.of_isOf hc hof
      exact ⟨hne.symm, hhash.symm⟩

/-- A conflict that touches a fact of the scope is with another fact about its block. -/
theorem Tallied.other (h : Tallied k known s log) {c : EventConflict} (hc : c ∈ s.conflicts)
    {e : EventRow} (he : e ∈ s.factsIn k) (hid : c.firstEventId = e.id ∨ c.conflictingEventId = e.id) :
    ∃ e' ∈ s.factsIn k, e' ≠ e ∧ e'.blockHash = e.blockHash ∧ (c.isOf e e' ∨ c.isOf e' e) := by
  obtain ⟨he, hin⟩ := Db.mem_factsIn.mp he
  obtain ⟨f, hf, f', hf', hof, -, hscope, hhash, -, hlt, -⟩ := h.judged.backed c hc
  have hne : f ≠ f' := by
    rintro rfl
    exact lt_irrefl _ hlt
  rcases hid with hid | hid
  · obtain rfl := h.judged.sound.eq_of_id hf he (hof.2.1.symm.trans hid)
    exact ⟨f', Db.mem_factsIn.mpr ⟨hf', hscope.inScope_iff.mp hin⟩, hne.symm, hhash.symm, .inl hof⟩
  · obtain rfl := h.judged.sound.eq_of_id hf' he (hof.2.2.symm.trans hid)
    exact ⟨f, Db.mem_factsIn.mpr ⟨hf, hscope.inScope_iff.mpr hin⟩, hne, hhash, .inr hof⟩

/-- It is of two recorded payloads. -/
theorem Tallied.between (h : Tallied k known s log) {c : EventConflict} (hc : c ∈ s.conflicts)
    {e : EventRow} (he : e ∈ s.factsIn k) (hid : c.firstEventId = e.id ∨ c.conflictingEventId = e.id) :
    ∃ x ∈ log, ∃ y ∈ log, c.Between s k x y := by
  obtain ⟨e', he', -, -, hof⟩ := h.other hc he hid
  obtain ⟨x, hx, hconnects, -⟩ := h.fact e (Db.mem_factsIn.mp he).1 (Db.mem_factsIn.mp he).2
  obtain ⟨y, hy, hconnects', -⟩ := h.fact e' (Db.mem_factsIn.mp he').1 (Db.mem_factsIn.mp he').2
  refine ⟨x, hx, y, hy, ?_⟩
  rcases hof with hof | hof
  · exact .inl ⟨e, he, e', he', hof, hconnects, hconnects'⟩
  · exact .inr ⟨e', he', e, he, hof, hconnects', hconnects⟩

/-! ### Commands -/

/-- The record, and the connected blocks recorded in a scope so far. -/
structure Tally where
  db : Db
  log : List BlockConnected

/-- A freshly migrated record. -/
def Tally.empty : Tally := ⟨.empty, []⟩

/-- One command. -/
def Tally.step (startOf : ScopeKey → ℕ) (k : ScopeKey) (s : Tally) (c : Command) : Option Tally :=
  some ⟨s.db.exec startOf c, s.log ++ if s.db.commits c then c.connected k else []⟩

/-- **Every command keeps the tally.** -/
theorem Tally.step_tallied (startOf : ScopeKey → ℕ) {s s' : Tally} {c : Command}
    (hk : k.stream = .block)
    (hsha : ∀ x y, known x → known y →
      Digests.factSha256 x.payload = Digests.factSha256 y.payload → x = y)
    (hc : c.Anchored)
    (hknown : ∀ event ∈ c.events, ∀ block, event.connects? = some block → known block)
    (hs : Tallied k known s.db s.log) (h : s.step startOf k c = some s') :
    Tallied k known s'.db s'.log := by
  cases h
  have same {u t : Db} {log : List BlockConnected} (hu : Tallied k known u log)
      (heq : SameEvidence u t) : Tallied k known t log :=
    hu.congr heq.events heq.nextEventId heq.conflicts heq.observations
  have runs {u : Db} {log : List BlockConnected} (hu : Tallied k known u log)
      (rows : List ExtractorRun) : Tallied k known { u with runs := rows } log :=
    hu.congr rfl rfl rfl rfl
  have quiet (hnone : s.db.commits c → c.connected k = []) {t : Db}
      (ht : Tallied k known t s.log) :
      Tallied k known t (s.log ++ if s.db.commits c then c.connected k else []) := by
    have hnil : (if s.db.commits c then c.connected k else []) = [] := by
      split_ifs with hcommits
      · exact hnone hcommits
      · rfl
    rw [hnil, List.append_nil]
    exact ht
  have noBatch (hnone : c.batch = none) : c.connected k = [] := by
    rw [Command.connected, hnone]
  cases s.db.exec_effect startOf c with
  | same hb heq =>
    refine quiet (fun hcommits => ?_) (same hs heq)
    cases hbatch : c.batch with
    | none => exact noBatch hbatch
    | some b =>
      have hnil : b.events = [] := by
        have hcaptures := hb hcommits
        rw [Command.captures_of_batch hbatch] at hcaptures
        exact List.map_eq_nil_iff.mp hcaptures
      simp [Command.connected, hbatch, hnil]
  | opened hc hok =>
    exact quiet (fun _ => noBatch (by rw [hc]; rfl))
      (same (runs hs _) (initializeIdentity_inv hok).2)
  | closed hc hok =>
    exact quiet (fun _ => noBatch (by rw [hc]; rfl)) (same (runs hs _) (finishRun_inv hok).2)
  | tip hc _ hok =>
    obtain ⟨_, _, _, u, -, -, hreserve, ht⟩ := recordTipObservation_inv hok
    refine quiet (fun _ => noBatch (by rw [hc]; rfl)) ?_
    have hu : Tallied k known u s.log := same (runs hs _) (sameEvidence_reserve hreserve)
    exact hu.congr ht.events ht.nextEventId ht.conflicts ht.observations
  | @batch b hb hcommits hrec =>
    obtain ⟨group, r, first, u, n, v, hopens, hreserve, hinsert, hvt⟩ := hrec.steps
    have hr : Tallied k known r s.log := by
      cases hopens with
      | alone => exact hs
      | group => exact hs.congr rfl rfl rfl rfl
    have hu : Tallied k known u s.log := same (runs hr _) (sameEvidence_reserve hreserve)
    rw [if_pos hcommits, Command.connected, hb]
    refine same (hu.insertAll hk hsha (fun event hevent block hblock => ?_) hinsert) hvt
    obtain ⟨hid, hanchors⟩ := hc b hb event hevent block hblock
    exact ⟨hid, hanchors, hknown event (Command.events_of_batch hb ▸ hevent) block hblock⟩

end

end Bip300Monitor
