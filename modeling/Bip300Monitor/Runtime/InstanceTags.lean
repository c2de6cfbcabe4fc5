import Bip300Monitor.Runtime.Refresh

/-!
# The instances that tag a batch

A batch carries a cache of the instances it has looked up. An authoritative active set changes both
the cache and the table of current instances, by rules of their own: the cache holds what the set
names last for a slot (`instance_cache.extend`), the table keeps its row where the set names it,
and else takes what the set names first (`ON CONFLICT … DO NOTHING`).

## What is proved

* `ofCurrent_apply`, `currentInstance_replace` — what each rule leaves for a slot;
* `everyPoint_iff` — from a cache that is in step with the table, it stays so through a batch
  exactly while the two rules agree;
* `tags_current_iff` — so of every batch that is inserted, whatever it holds;
* `tags_diverge` — a refresh that names a slot twice is recorded under an instance that is not the
  current one.
-/

namespace Bip300Monitor

open Protobuf Transaction

/-! ### The two rules -/

/-- The instance that the set names last for the slot. -/
def ActiveReading.namesLast (r : ActiveReading) (slot : ℕ) : Option String :=
  (r.active.reverse.find? (·.1 = slot)).map (·.2)

/-- The instance that the set names first for the slot. -/
def ActiveReading.namesFirst (r : ActiveReading) (slot : ℕ) : Option String :=
  (r.active.find? (·.1 = slot)).map (·.2)

/-- The instance of the slot's row, where the set names it. -/
def ActiveReading.confirms (r : ActiveReading) (rows : List CurrentInstanceRow) (slot : ℕ) :
    Option String :=
  (rows.find? fun c => c.datasetId = r.datasetId ∧ c.sidechain = slot ∧
    (c.sidechain, c.sidechainInstanceId) ∈ r.active).map (·.sidechainInstanceId)

/-- For every slot that the set names, the one it names last is the one whose row it confirms, or
the one it names first where it confirms none. -/
def ActiveReading.Agrees (r : ActiveReading) (rows : List CurrentInstanceRow) : Prop :=
  ∀ p ∈ r.active, r.namesLast p.1 = (r.confirms rows p.1).or (r.namesFirst p.1)

instance (r : ActiveReading) (rows : List CurrentInstanceRow) : Decidable (r.Agrees rows) :=
  inferInstanceAs (Decidable (∀ p ∈ r.active, _))

/-- The readings agree with the rows, each with those that the ones before it leave. -/
def ReadingsAgree : List ActiveReading → List CurrentInstanceRow → Prop
  | [], _ => True
  | r :: rest, rows => r.Agrees rows ∧ ReadingsAgree rest (r.replace rows)

theorem ofCurrent_apply (current : List (ℕ × String)) (slot : ℕ) :
    InstanceCache.ofCurrent current slot = (current.reverse.find? (·.1 = slot)).map (·.2) := by
  induction current using List.reverseRecOn with
  | nil => rfl
  | append_singleton current p ih =>
    rw [InstanceCache.ofCurrent, List.foldl_append, List.foldl_cons, List.foldl_nil,
      ← InstanceCache.ofCurrent, List.reverse_append, List.reverse_singleton,
      List.singleton_append, List.find?_cons]
    by_cases hslot : p.1 = slot
    · subst hslot
      simp
    · rw [Function.update_of_ne (Ne.symm hslot), ih]
      simp [hslot]

/-- An insertion that skips slots that have a row leaves the first row of each slot. -/
theorem find_foldl_insertCurrent (dataset : Uuid) (observedAt : ℕ) (ps : List (ℕ × String))
    (rows : List CurrentInstanceRow) (slot : ℕ) :
    ((ps.foldl (insertCurrent dataset observedAt) rows).find? fun c =>
        c.datasetId = dataset ∧ c.sidechain = slot).map (·.sidechainInstanceId) =
      ((rows.find? fun c => c.datasetId = dataset ∧ c.sidechain = slot).map
        (·.sidechainInstanceId)).or ((ps.find? (·.1 = slot)).map (·.2)) := by
  induction ps generalizing rows with
  | nil => simp
  | cons p ps ih =>
    rw [List.foldl_cons, ih, insertCurrent]
    by_cases hslot : p.1 = slot
    · subst hslot
      rw [List.find?_cons_of_pos (by simp)]
      split_ifs with hany
      · obtain ⟨c, hc, hrow⟩ := List.any_eq_true.mp hany
        have hfound : (rows.find? fun c => c.datasetId = dataset ∧ c.sidechain = p.1).isSome :=
          List.find?_isSome.mpr ⟨c, hc, hrow⟩
        obtain ⟨c', hc'⟩ := Option.isSome_iff_exists.mp hfound
        rw [hc']
        rfl
      · have hnone : (rows.find? fun c => c.datasetId = dataset ∧ c.sidechain = p.1) = none := by
          rw [List.find?_eq_none]
          intro c hc hrow
          exact hany (List.any_eq_true.mpr ⟨c, hc, hrow⟩)
        rw [List.find?_append, hnone]
        simp
    · rw [List.find?_cons_of_neg (by simp [hslot])]
      split_ifs with hany
      · rfl
      · rw [List.find?_append]
        simp [hslot]

/-- **What the table leaves for a slot.** -/
theorem currentInstance_replace (db : Db) (r : ActiveReading) (slot : ℕ) :
    Db.currentInstance { db with currentInstances := r.replace db.currentInstances } r.datasetId
        slot =
      (r.confirms db.currentInstances slot).or (r.namesFirst slot) := by
  rw [Db.currentInstance, ActiveReading.replace, replaceCurrent, find_foldl_insertCurrent,
    List.find?_filter, ActiveReading.confirms, ActiveReading.namesFirst]
  congr 2
  refine congrArg (fun p => List.find? p db.currentInstances) (funext fun c => ?_)
  rw [Bool.eq_iff_iff]
  simp only [decide_eq_true_eq]
  constructor
  · rintro ⟨hne | hmem, hdataset, hslot⟩
    · exact absurd hdataset hne
    · exact ⟨hdataset, hslot, hmem⟩
  · rintro ⟨hdataset, hslot, hmem⟩
    exact ⟨.inr hmem, hdataset, hslot⟩

/-! ### The cache and the table -/

/-- Each instance that the cache holds is the current one of its slot. -/
def InstanceCache.Current (cache : InstanceCache) (dataset : Uuid) (db : Db) : Prop :=
  ∀ slot id, cache slot = some id → db.currentInstance dataset slot = some id

theorem InstanceCache.Current.congr {cache : InstanceCache} {dataset : Uuid} {s t : Db}
    (h : cache.Current dataset s) (heq : t.currentInstances = s.currentInstances) :
    cache.Current dataset t := by
  intro slot id hid
  rw [Db.currentInstance, heq]
  exact h slot id hid

/-- The cache of a set is in step with the table that it leaves exactly when the rules agree. -/
theorem current_ofCurrent_iff (db : Db) (r : ActiveReading) :
    (InstanceCache.ofCurrent r.active).Current r.datasetId
        { db with currentInstances := r.replace db.currentInstances } ↔
      r.Agrees db.currentInstances := by
  constructor
  · intro h p hp
    rw [ActiveReading.namesLast, ← ofCurrent_apply, ← currentInstance_replace]
    have hfound : ∃ id, InstanceCache.ofCurrent r.active p.1 = some id :=
      ofCurrent_of_mem (List.mem_map_of_mem hp)
    obtain ⟨id, hid⟩ := hfound
    rw [h p.1 id hid, hid]
  · intro h slot id hid
    have hagrees := h (slot, id) (ofCurrent_eq_some hid)
    rw [currentInstance_replace, ← hagrees, ActiveReading.namesLast, ← ofCurrent_apply, hid]

/-- What is looked up is current. -/
theorem current_resolveInstance {dataset : Uuid} {f : Facts} {slot : Option ℕ} {id : Option String}
    {cache : InstanceCache} {db : Db} {r : Option String × InstanceCache}
    (hcache : cache.Current dataset db) (h : resolveInstance dataset f slot id cache db = .ok (r, db)) :
    r.2.Current dataset db ∧ (slot = none → id = none → ∀ n ∈ f.sidechain,
      ∃ inst, r.1 = some inst ∧ db.currentInstance dataset n = some inst) := by
  cases hs : f.sidechain with
  | none =>
    cases slot <;> cases id <;> simp [resolveInstance, hs] at h
    rw [← h]
    exact ⟨hcache, by simp⟩
  | some n =>
    cases slot with
    | some m =>
      cases id with
      | none => simp [resolveInstance, hs] at h
      | some inst =>
        simp only [resolveInstance, hs, Tx.require_bind_eq_ok, Tx.pure_eq_ok] at h
        obtain ⟨-, rfl, -⟩ := h
        exact ⟨hcache, fun hnone => by cases hnone⟩
    | none =>
      cases id with
      | some inst => simp [resolveInstance, hs] at h
      | none =>
        cases hc : cache n with
        | some inst =>
          simp only [resolveInstance, hs, hc, Tx.pure_eq_ok] at h
          obtain ⟨rfl, -⟩ := h
          exact ⟨hcache, fun _ _ m hm => Option.mem_some_iff.mp hm ▸ ⟨inst, rfl, hcache n inst hc⟩⟩
        | none =>
          simp only [resolveInstance, hs, hc, Tx.read_bind_eq_ok, Tx.expect_bind_eq_ok,
            Tx.pure_eq_ok] at h
          obtain ⟨inst, hinst, rfl, -⟩ := h
          refine ⟨fun m id hid => ?_, fun _ _ m hm => Option.mem_some_iff.mp hm ▸ ⟨inst, rfl, hinst⟩⟩
          change Function.update cache n (some inst) m = some id at hid
          by_cases hm : m = n
          · subst hm
            rw [Function.update_self] at hid
            rw [hinst, hid]
          · rw [Function.update_of_ne hm] at hid
            exact hcache m id hid

section
variable [Digests]

/-- The reading that decides what is current, if the event is one. -/
def readingOf (dataset : Uuid) (authoritative : Bool) (event : Event) : Option ActiveReading :=
  if authoritative then ActiveReading.ofEvent dataset event else none

/-- **What an event does to the cache and the table.** -/
theorem updateSidechainInstances_current {dataset : Uuid} {event : Event} {cache cache' : InstanceCache}
    {authoritative : Bool} {s t : Db} (hcache : cache.Current dataset s)
    (h : updateSidechainInstances dataset event event.timestamp cache authoritative s =
      .ok (cache', t)) :
    (cache'.Current dataset t ↔
      ∀ r ∈ readingOf dataset authoritative event, r.Agrees s.currentInstances) ∧
    t.currentInstances = (readingOf dataset authoritative event).elim s.currentInstances
      (ActiveReading.replace s.currentInstances) := by
  unfold updateSidechainInstances updateSidechainInstancesWith at h
  cases hactive : event.activeSidechains? with
  | none =>
    rw [hactive] at h
    obtain ⟨rfl, rfl⟩ := Tx.pure_eq_ok.mp h
    have hnone : readingOf dataset authoritative event = none := by
      simp [readingOf, ActiveReading.ofEvent, hactive]
    rw [hnone]
    exact ⟨iff_of_true hcache (by simp), rfl⟩
  | some sidechains =>
    rw [hactive] at h
    obtain ⟨current, u, hu, h⟩ := Tx.bind_eq_ok.mp h
    obtain ⟨-, -, hcurrent⟩ := recordInstances_inv hu
    obtain rfl := recordInstances_active hu
    cases authoritative with
    | false =>
      obtain ⟨rfl, rfl⟩ := Tx.pure_eq_ok.mp h
      exact ⟨iff_of_true (hcache.congr hcurrent) (by simp [readingOf]), hcurrent⟩
    | true =>
      obtain ⟨_, v, hv, h⟩ := Tx.bind_eq_ok.mp h
      obtain ⟨rfl, rfl⟩ := Tx.pure_eq_ok.mp h
      obtain rfl := Tx.modify_eq_ok.mp hv
      have hreading : readingOf dataset true event =
          some ⟨dataset, event.timestamp, sidechains.filterMap activeInstance⟩ := by
        simp [readingOf, ActiveReading.ofEvent, hactive]
      have hiff := current_ofCurrent_iff u ⟨dataset, event.timestamp, sidechains.filterMap activeInstance⟩
      rw [hcurrent] at hiff
      rw [hreading, hcurrent]
      refine ⟨hiff.trans ?_, rfl⟩
      simp

/-! ### A batch -/

/-- The occurrence of a sequence number is of a fact that is tagged with the current instance of its
slot. -/
def TaggedCurrent (store : Store) (captureSeq slot : ℕ) (db : Db) : Prop :=
  ∃ id, db.currentInstance store.datasetId slot = some id ∧
    ∃ o ∈ db.observations, o.runId = store.runId ∧ o.captureSeq = captureSeq ∧
      ∃ e ∈ db.events, e.id = o.eventId ∧ e.sidechain = some slot ∧ e.sidechainInstanceId = some id

/-- At every point of a batch, where an event has updated the instances and where it is inserted,
the cache is in step with the table, and an event of a slot that has no explicit instance is tagged
with the current one. -/
def EveryPoint (store : Store) (method : CaptureMethod) (group slot : Option ℕ)
    (id : Option String) (authoritative : Bool) : ℕ → List Event → InstanceCache → Db → Prop
  | _, [], _, _ => True
  | captureSeq, event :: rest, cache, db =>
    (∀ cache' u, updateSidechainInstances store.datasetId event event.timestamp cache authoritative
        db = .ok (cache', u) → cache'.Current store.datasetId u) ∧
      ∀ r t, insert store method group slot id captureSeq event cache db = .ok (r, t) →
        r.2.Current store.datasetId t ∧
          (slot = none → id = none → ∀ f, facts event = .ok f → ∀ n ∈ f.sidechain,
            TaggedCurrent store captureSeq n t) ∧
          EveryPoint store method group slot id authoritative (captureSeq + 1) rest r.2 t

/-- One event from a cache that is in step. -/
theorem insert_point {store : Store} {method : CaptureMethod} {group slot : Option ℕ}
    {id : Option String} {captureSeq : ℕ} {event : Event} {cache : InstanceCache}
    {authoritative : Bool} {s t : Db} {r : ℕ × InstanceCache}
    (hauth : isAuthoritative group s = .ok (authoritative, s))
    (hcache : cache.Current store.datasetId s)
    (h : insert store method group slot id captureSeq event cache s = .ok (r, t))
    (hagrees : ∀ r ∈ readingOf store.datasetId authoritative event, r.Agrees s.currentInstances) :
    r.2.Current store.datasetId t ∧
      (slot = none → id = none → ∀ f, facts event = .ok f → ∀ n ∈ f.sidechain,
        TaggedCurrent store captureSeq n t) := by
  obtain ⟨f, payload, authoritative', cache', u, resolved, fact, v, hf, hp, hauth', hupd, hres,
    hfact, hobs, rfl⟩ := insert_pieces h
  obtain rfl : authoritative' = authoritative := by
    rw [hauth] at hauth'
    cases hauth'
    rfl
  have hstep := (updateSidechainInstances_current hcache hupd).1.mpr hagrees
  obtain ⟨hresolved, htag⟩ := current_resolveInstance hstep hres
  have huv : SameBooks u v := sameBooks_insertFact _ hfact
  obtain ⟨-, hobs⟩ := Tx.require_bind_eq_ok.mp (Tx.read_bind_eq_ok.mp hobs)
  obtain rfl := Tx.modify_eq_ok.mp hobs
  refine ⟨hresolved.congr huv.currentInstances, fun hslot hid f' hf' n hn => ?_⟩
  obtain rfl := Except.ok.inj (hf.symm.trans hf')
  obtain ⟨inst, hinst, hcurrent⟩ := htag hslot hid n hn
  have hrow : ∃ e ∈ v.events, e.id = fact.1 ∧ e.sidechain = some n ∧
      e.sidechainInstanceId = some inst := by
    have hfields : (factRow store event f payload resolved.1).sidechain = some n ∧
        (factRow store event f payload resolved.1).sidechainInstanceId = some inst := ⟨hn, hinst⟩
    rcases (insertFact_eq_ok.mp hfact).2 with ⟨e, he, rfl, rfl⟩ | ⟨-, -, rfl, rfl⟩
    · have hsame : e.sameIdentity (factRow store event f payload resolved.1) := by
        simpa using List.find?_some he
      obtain ⟨-, -, -, -, hsidechain, hinstance⟩ := hsame.1
      exact ⟨e, List.mem_of_find?_eq_some he, rfl, hsidechain.trans hfields.1,
        hinstance.trans hfields.2⟩
    · exact ⟨_, List.mem_append_right _ (List.mem_singleton.mpr rfl), rfl, hfields⟩
  refine ⟨inst, ?_, _, List.mem_append_right _ (List.mem_singleton.mpr rfl), rfl, rfl, hrow⟩
  rw [Db.currentInstance]
  change Option.map _ (v.currentInstances.find? _) = _
  rw [huv.currentInstances]
  exact hcurrent

/-- **Through a batch**, the cache stays in step exactly while the rules agree. -/
theorem everyPoint_iff {store : Store} {method : CaptureMethod} {group slot : Option ℕ}
    {id : Option String} {captureSeq n : ℕ} {events : List Event} {cache : InstanceCache}
    {authoritative : Bool} {s t : Db}
    (hauth : isAuthoritative group s = .ok (authoritative, s))
    (hcache : cache.Current store.datasetId s)
    (h : insertAll store method group slot id captureSeq events cache s = .ok (n, t)) :
    EveryPoint store method group slot id authoritative captureSeq events cache s ↔
      ReadingsAgree (events.filterMap (readingOf store.datasetId authoritative))
        s.currentInstances := by
  induction events generalizing captureSeq cache s n with
  | nil => exact Iff.rfl
  | cons event rest ih =>
    obtain ⟨r, u, hr, hrest⟩ := Tx.bind_eq_ok.mp h
    obtain ⟨m, v, hm, hn⟩ := Tx.bind_eq_ok.mp hrest
    obtain ⟨-, rfl⟩ := Tx.pure_eq_ok.mp hn
    obtain ⟨f, payload, authoritative', cache', w, resolved, fact, x, hf, hp, hauth', hupd, hres,
      hfact, hobs, -⟩ := insert_pieces hr
    obtain rfl : authoritative' = authoritative := by
      rw [hauth] at hauth'
      cases hauth'
      rfl
    obtain ⟨hiff, hw⟩ := updateSidechainInstances_current hcache hupd
    have hcurrent : u.currentInstances =
        (readingOf store.datasetId authoritative' event).elim s.currentInstances
          (ActiveReading.replace s.currentInstances) := by
      rw [insert_current hauth hr]
      cases authoritative' <;> rfl
    have hauthu := isAuthoritative_congr (insert_recorded hr).snapshotGroups hauth
    -- the event's own reading, and those of the rest from the table it leaves
    have hsplit : ReadingsAgree ((event :: rest).filterMap (readingOf store.datasetId authoritative'))
        s.currentInstances ↔
        (∀ r ∈ readingOf store.datasetId authoritative' event, r.Agrees s.currentInstances) ∧
          ReadingsAgree (rest.filterMap (readingOf store.datasetId authoritative'))
            u.currentInstances := by
      rw [hcurrent]
      cases hreading : readingOf store.datasetId authoritative' event with
      | none => simp [List.filterMap_cons_none hreading]
      | some reading => simp [List.filterMap_cons_some hreading, ReadingsAgree]
    rw [hsplit]
    constructor
    · rintro ⟨hpoint, hafter⟩
      obtain ⟨hcache', -, hpoints⟩ := hafter r u hr
      exact ⟨hiff.mp (hpoint cache' w hupd), (ih hauthu hcache' hm).mp hpoints⟩
    · rintro ⟨hagrees, hagreesRest⟩
      refine ⟨fun cache'' w' hupd' => ?_, fun r' u' hr' => ?_⟩
      · exact (updateSidechainInstances_current hcache hupd').1.mpr hagrees
      · cases hr.symm.trans hr'
        obtain ⟨hcache', htag⟩ := insert_point hauth hcache hr hagrees
        exact ⟨hcache', htag, (ih hauthu hcache' hm).mpr hagreesRest⟩

omit [Digests] in
/-- Whether the readings of a batch in the group decide what is current. -/
def Db.decides (db : Db) : Option ℕ → Bool
  | none => true
  | some group => (db.snapshotGroups.find? (·.snapshotGroupId = group)).any
      (·.consistency.authoritative)

omit [Digests] in
theorem isAuthoritative_decides {group : Option ℕ} {authoritative : Bool} {db : Db}
    (h : isAuthoritative group db = .ok (authoritative, db)) : authoritative = db.decides group := by
  cases group with
  | none =>
    obtain ⟨rfl, -⟩ := Tx.pure_eq_ok.mp h
    rfl
  | some group =>
    rw [isAuthoritative, Tx.read_bind_eq_ok, Tx.expect_bind_eq_ok] at h
    obtain ⟨row, hrow, h⟩ := h
    obtain ⟨rfl, -⟩ := Tx.pure_eq_ok.mp h
    rw [Db.decides, hrow]
    rfl

/-- **Tags and the table.** Of every batch that is inserted, in every state: at every point its cache
is in step with the table and its events are tagged with the current instances, exactly when each
authoritative set of the batch names last, of every slot, the instance whose row it confirms, or,
where it confirms none, the one it names first. -/
theorem tags_current_iff {store : Store} {method : CaptureMethod} {group slot : Option ℕ}
    {id : Option String} {captureSeq n : ℕ} {events : List Event} {s t : Db}
    (h : insertAll store method group slot id captureSeq events (fun _ => none) s = .ok (n, t)) :
    EveryPoint store method group slot id (s.decides group) captureSeq events (fun _ => none) s ↔
      ReadingsAgree (events.filterMap (readingOf store.datasetId (s.decides group)))
        s.currentInstances := by
  cases events with
  | nil => exact Iff.rfl
  | cons event rest =>
    obtain ⟨r, u, hr, -⟩ := Tx.bind_eq_ok.mp h
    obtain ⟨_, _, _, _, _, _, _, _, -, -, hauth, -⟩ := insert_pieces hr
    obtain rfl := isAuthoritative_decides hauth
    exact everyPoint_iff hauth (fun _ _ hnone => by cases hnone) h

end

/-! ### A slot that is named twice -/

/-- The activation of one sidechain is inserted with its tags. -/
theorem tags_current_iff_activation :
    ∃ r n t, Runs.run (@Record.step Activation.digests fun _ => 5) Record.empty Activation.commands =
        some r ∧
      @insertAll Activation.digests Activation.store .poll none none none 1 Activation.events
        (fun _ => none) r.db = .ok (n, t) ∧
      @EveryPoint Activation.digests Activation.store .poll none none none true 1 Activation.events
        (fun _ => none) r.db := by
  let _ := Activation.digests
  have hruns : ((Runs.run (Record.step fun _ => 5) Record.empty Activation.commands).filter fun r =>
      (insertAll Activation.store .poll none none none 1 Activation.events (fun _ => none)
        r.db).toOption.isSome ∧
      ∀ reading ∈ Activation.events.filterMap (readingOf Activation.store.datasetId true),
        reading.Agrees r.db.currentInstances).isSome := by
    decide +kernel
  obtain ⟨r, hr⟩ := Option.isSome_iff_exists.mp hruns
  obtain ⟨hr, hstate⟩ := Option.filter_eq_some_iff.mp hr
  obtain ⟨hinserted, hagrees⟩ := of_decide_eq_true hstate
  obtain ⟨⟨n, t⟩, hok⟩ : ∃ inserted, insertAll Activation.store .poll none none none 1
      Activation.events (fun _ => none) r.db = .ok inserted := by
    cases hok : insertAll Activation.store .poll none none none 1 Activation.events
        (fun _ => none) r.db with
    | error e =>
      rw [hok] at hinserted
      cases hinserted
    | ok inserted => exact ⟨inserted, rfl⟩
  obtain ⟨reading, hone⟩ : ∃ reading,
      Activation.events.filterMap (readingOf Activation.store.datasetId true) = [reading] :=
    ⟨_, rfl⟩
  refine ⟨r, n, t, hr, hok, (tags_current_iff hok).mpr ?_⟩
  change ReadingsAgree (Activation.events.filterMap (readingOf Activation.store.datasetId true)) _
  rw [hone] at hagrees ⊢
  exact ⟨hagrees reading List.mem_cons_self, trivial⟩

namespace Twice

/-- Slot 9, with the heights of its proposal and of its activation. -/
def sidechain (activationHeight : ℕ) : Mainchain.SidechainInfo where
  sidechainNumber := some 9
  description := some ⟨some "020102"⟩
  voteCount := some 0
  proposalHeight := some 3
  activationHeight := some activationHeight
  declaration := none

/-- The slot is named as active since height 5, and again as active since height 4. -/
def upstream : Upstream :=
  { Title.upstream "" with
    sidechainProposals := .ok []
    sidechains := .ok [sidechain 5, sidechain 4] }

/-- The digests of the payloads. -/
@[reducible] def digests : Digests := .ofPayloads [
  (.enforcer (some (.sidechainProposals [])),
    0xfdbb66f97af044e4b88b0bb0a4789f8f014f98b53f5fe11102bd19f45d53c45b),
  (.enforcer (some (.activeSidechains [slotNine, { slotNine with activationHeight := 4 }])),
    0x397ea7321e9b032d66ce2303a3cf573c1282a6f481ac5a49043314f9b9607f6b),
  (.enforcer (some (.ctip ⟨9, none⟩)),
    0xc926e4b6406d363d36d8572666e12b78491845e7a94bbf2dd93fc9c512cb2aff),
  (.enforcer (some (.withdrawalBundleProposals ⟨9, []⟩)),
    0x6b01c0020dcb725db87b838cb1e0a9b719309745e260135c41c79fbdb0c3dec1)]

/-- The record after the refresh. -/
def refreshed (r : Record) : Db :=
  (@refresh digests Title.store 0 [9] false [] 1 upstream (Tracker.new []) r.db).2.2

end Twice

/-- **The tags diverge.** A refresh that names slot 9 twice is published. The fact of its CTIP has
the instance named last, and the table the one named first. -/
theorem tags_diverge :
    ∃ r, Runs.run (@Record.step Twice.digests fun _ => 5) Record.empty Title.commands = some r ∧
      (Twice.refreshed r).currentInstance 0 9 = some slotNineInstance.sidechainInstanceId ∧
      ∃ e ∈ (Twice.refreshed r).events, e.kind = .ctip ∧ e.sidechain = some 9 ∧
        e.sidechainInstanceId =
          some "9:3:4:db9b643a0e5bacf2a21cb7b532d65caae8b278c3c284cd3d51d215d9ce6aa576" := by
  let _ := Twice.digests
  have hruns : ((Runs.run (Record.step fun _ => 5) Record.empty Title.commands).filter fun r =>
      (Twice.refreshed r).currentInstance 0 9 = some slotNineInstance.sidechainInstanceId ∧
      ∃ e ∈ (Twice.refreshed r).events, e.kind = .ctip ∧ e.sidechain = some 9 ∧
        e.sidechainInstanceId =
          some "9:3:4:db9b643a0e5bacf2a21cb7b532d65caae8b278c3c284cd3d51d215d9ce6aa576").isSome := by
    decide +kernel
  obtain ⟨r, hr⟩ := Option.isSome_iff_exists.mp hruns
  obtain ⟨hr, hstate⟩ := Option.filter_eq_some_iff.mp hr
  exact ⟨r, hr, of_decide_eq_true hstate⟩

end Bip300Monitor
