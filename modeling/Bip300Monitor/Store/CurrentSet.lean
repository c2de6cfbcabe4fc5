import Bip300Monitor.Store.Ledger

/-!
# The current instances

`current_sidechain_instance` is kept by deleting what a reading no longer holds and
inserting what it holds anew. Over any sequence of commands it is the active set of the
last authoritative reading, and a row's time says since when its instance is active.

## The model

`Observed` is the record and the authoritative readings committed to it, the latest
first. A reading outside a snapshot group is authoritative, and one whose group has a
label that says that the tip stayed fixed.

## What is proved

* `Follows.replace` — one reading, of any slots and instances, keeps the rows of its
  dataset in step with the readings;
* `current_set_follows` — so they are after every sequence of commands.
-/

namespace Bip300Monitor

open Protobuf Transaction Runs

/-- The label of a group whose readings decide the current set. -/
def SnapshotConsistency.authoritative (label : SnapshotConsistency) : Bool :=
  label = .stable ∨ label = .tipMatched

/-- A reading of the active set of a dataset. -/
structure ActiveReading where
  datasetId : Uuid
  observedAt : ℕ
  /-- The slots and their instances. -/
  active : List (ℕ × String)

/-- The instance a row is about. -/
def CurrentInstanceRow.instance (c : CurrentInstanceRow) : ℕ × String :=
  (c.sidechain, c.sidechainInstanceId)

/-- The latest readings, back to the first of those that all hold the instance. -/
def unbroken (p : ℕ × String) (readings : List ActiveReading) : List ActiveReading :=
  readings.takeWhile (p ∈ ·.active)

/-- The rows of a dataset are what its readings, the latest first, say. -/
structure Follows (readings : List ActiveReading) (rows : List CurrentInstanceRow) : Prop where
  /-- The rows are the active set of the last reading, each instance once. -/
  active : (rows.map (·.instance)).Perm (readings.head?.elim [] (·.active))
  slots : (rows.map (·.sidechain)).Nodup
  /-- A row's time is that of the first reading since which the instance is active. -/
  since : ∀ c ∈ rows,
    (unbroken c.instance readings).getLast?.map (·.observedAt) = some c.observedAt

theorem Follows.empty : Follows [] [] where
  active := List.Perm.nil
  slots := List.nodup_nil
  since := by simp

/-! ### One reading -/

/-- The row of a new instance. -/
def ActiveReading.row (r : ActiveReading) (p : ℕ × String) : CurrentInstanceRow :=
  ⟨r.datasetId, p.1, p.2, r.observedAt⟩

/-- Some row of the dataset is about the slot. -/
def occupied (dataset : Uuid) (rows : List CurrentInstanceRow) (slot : ℕ) : Bool :=
  rows.any fun c => c.datasetId = dataset ∧ c.sidechain = slot

/-- Inserting instances of distinct slots: those whose slot is free are added. -/
theorem foldl_insertCurrent (r : ActiveReading) {ps : List (ℕ × String)}
    (h : (ps.map (·.1)).Nodup) (rows : List CurrentInstanceRow) :
    ps.foldl (insertCurrent r.datasetId r.observedAt) rows =
      rows ++ (ps.filter fun p => ¬ occupied r.datasetId rows p.1).map r.row := by
  induction ps generalizing rows with
  | nil => simp
  | cons p ps ih =>
    rw [List.map_cons, List.nodup_cons] at h
    rw [List.foldl_cons, ih h.2]
    by_cases hp : occupied r.datasetId rows p.1 = true
    · have hinsert : insertCurrent r.datasetId r.observedAt rows p = rows := if_pos hp
      rw [hinsert, List.filter_cons_of_neg (by simp [hp])]
    · have hinsert : insertCurrent r.datasetId r.observedAt rows p = rows ++ [r.row p] := if_neg hp
      -- the new row occupies no slot of a later instance
      have hrest : ps.filter (fun q => ¬ occupied r.datasetId (rows ++ [r.row p]) q.1) =
          ps.filter fun q => ¬ occupied r.datasetId rows q.1 := by
        apply List.filter_congr
        intro q hq
        have hne : p.1 ≠ q.1 := fun heq => h.1 (heq ▸ List.mem_map_of_mem hq)
        simp [occupied, ActiveReading.row, hne]
      rw [hinsert, hrest, List.filter_cons_of_pos (by simp [hp]), List.map_cons,
        List.append_assoc, List.singleton_append]

/-- What a reading does to the rows. -/
def ActiveReading.replace (rows : List CurrentInstanceRow) (r : ActiveReading) :
    List CurrentInstanceRow := replaceCurrent r.datasetId r.observedAt r.active rows

/-- Rows of other datasets are not touched. -/
theorem replace_of_ne {r : ActiveReading} (h : (r.active.map (·.1)).Nodup) {dataset : Uuid}
    (hne : r.datasetId ≠ dataset) (rows : List CurrentInstanceRow) :
    (r.replace rows).filter (·.datasetId = dataset) = rows.filter (·.datasetId = dataset) := by
  have hnew : ∀ ps : List (ℕ × String), (ps.map r.row).filter (·.datasetId = dataset) = [] := by
    intro ps
    rw [List.filter_eq_nil_iff]
    intro c hc
    obtain ⟨p, -, rfl⟩ := List.mem_map.mp hc
    simp [ActiveReading.row, hne]
  rw [ActiveReading.replace, replaceCurrent, foldl_insertCurrent r h, List.filter_append, hnew,
    List.append_nil, List.filter_filter]
  apply List.filter_congr
  intro c _
  by_cases hc : c.datasetId = dataset
  · simp [hc, hne.symm]
  · simp [hc]

/-- The rows of the dataset: those the reading still holds, and its new instances. -/
theorem replace_self {r : ActiveReading} (h : (r.active.map (·.1)).Nodup)
    (rows : List CurrentInstanceRow) :
    (r.replace rows).filter (·.datasetId = r.datasetId) =
      let kept := (rows.filter (·.datasetId = r.datasetId)).filter (·.instance ∈ r.active)
      kept ++ (r.active.filter fun p => p.1 ∉ kept.map (·.sidechain)).map r.row := by
  have hnew : ∀ ps : List (ℕ × String),
      (ps.map r.row).filter (·.datasetId = r.datasetId) = ps.map r.row := by
    intro ps
    rw [List.filter_eq_self]
    intro c hc
    obtain ⟨p, -, rfl⟩ := List.mem_map.mp hc
    simp [ActiveReading.row]
  have hkept : (rows.filter fun c => c.datasetId ≠ r.datasetId ∨
        (c.sidechain, c.sidechainInstanceId) ∈ r.active).filter (·.datasetId = r.datasetId) =
      (rows.filter (·.datasetId = r.datasetId)).filter (·.instance ∈ r.active) := by
    rw [List.filter_filter, List.filter_filter]
    apply List.filter_congr
    intro c _
    rw [Bool.eq_iff_iff]
    simp only [Bool.and_eq_true, decide_eq_true_eq]
    constructor
    · rintro ⟨hdataset, hne | hmem⟩
      · exact absurd hdataset hne
      · exact ⟨hmem, hdataset⟩
    · exact fun ⟨hmem, hdataset⟩ => ⟨hdataset, .inr hmem⟩
  rw [ActiveReading.replace, replaceCurrent, foldl_insertCurrent r h, List.filter_append, hnew,
    hkept]
  congr 2
  apply List.filter_congr
  intro p _
  rw [← hkept]
  apply decide_eq_decide.mpr
  apply not_congr
  simp only [occupied, List.any_eq_true, List.mem_map, List.mem_filter, decide_eq_true_eq]
  constructor
  · rintro ⟨c, hc, hdataset, hslot⟩
    exact ⟨c, ⟨hc, hdataset⟩, hslot⟩
  · rintro ⟨c, ⟨hc, hdataset⟩, hslot⟩
    exact ⟨c, hc, hdataset, hslot⟩

/-- Readings of distinct slots hold one instance a slot. -/
theorem eq_of_slot {ps : List (ℕ × String)} (h : (ps.map (·.1)).Nodup) {p q : ℕ × String}
    (hp : p ∈ ps) (hq : q ∈ ps) (hslot : p.1 = q.1) : p = q :=
  List.inj_on_of_nodup_map h hp hq hslot

theorem unbroken_cons_of_mem {p : ℕ × String} {r : ActiveReading} (h : p ∈ r.active)
    (readings : List ActiveReading) : unbroken p (r :: readings) = r :: unbroken p readings := by
  simp [unbroken, h]

/-- **One reading keeps the rows of its dataset in step.** -/
theorem Follows.replace {r : ActiveReading} {readings : List ActiveReading}
    {rows : List CurrentInstanceRow} (hslots : (r.active.map (·.1)).Nodup)
    (h : Follows readings (rows.filter (·.datasetId = r.datasetId))) :
    Follows (r :: readings) ((r.replace rows).filter (·.datasetId = r.datasetId)) := by
  rw [replace_self hslots]
  set old := rows.filter (·.datasetId = r.datasetId) with hold
  set kept := old.filter (·.instance ∈ r.active) with hkept
  set fresh := r.active.filter (fun p => p.1 ∉ kept.map (·.sidechain)) with hfresh
  have mem_kept {c : CurrentInstanceRow} : c ∈ kept ↔ c ∈ old ∧ c.instance ∈ r.active := by
    rw [hkept, List.mem_filter, decide_eq_true_eq]
  have mem_fresh {p : ℕ × String} :
      p ∈ fresh ↔ p ∈ r.active ∧ p.1 ∉ kept.map (·.sidechain) := by
    rw [hfresh, List.mem_filter, decide_eq_true_eq]
  have hfreshRows : (fresh.map r.row).map (·.instance) = fresh := by
    rw [List.map_map]
    exact List.map_id _
  have hfreshSlots : (fresh.map r.row).map (·.sidechain) = fresh.map (·.1) := by
    rw [List.map_map]
    rfl
  -- one row a slot
  have hnodup : ((kept ++ fresh.map r.row).map (·.sidechain)).Nodup := by
    rw [List.map_append, hfreshSlots, List.nodup_append]
    refine ⟨h.slots.sublist (List.filter_sublist.map _), hslots.sublist (List.filter_sublist.map _),
      fun slot hslot slot' hslot' heq => ?_⟩
    obtain ⟨p, hp, rfl⟩ := List.mem_map.mp hslot'
    exact (mem_fresh.mp hp).2 (heq ▸ hslot)
  refine ⟨?_, hnodup, ?_⟩
  · -- the rows and the reading have the same instances
    have hrows : ((kept ++ fresh.map r.row).map (·.instance)).Nodup := by
      apply List.Nodup.of_map Prod.fst
      rw [List.map_map]
      exact hnodup
    apply (List.perm_ext_iff_of_nodup hrows (List.Nodup.of_map _ hslots)).mpr
    intro p
    rw [List.map_append, List.mem_append, hfreshRows]
    constructor
    · rintro (hp | hp)
      · obtain ⟨c, hc, rfl⟩ := List.mem_map.mp hp
        exact (mem_kept.mp hc).2
      · exact (mem_fresh.mp hp).1
    · intro hp
      by_cases hslot : p.1 ∈ kept.map (·.sidechain)
      · obtain ⟨c, hc, hcslot⟩ := List.mem_map.mp hslot
        have heq : c.instance = p := eq_of_slot hslots (mem_kept.mp hc).2 hp hcslot
        exact .inl (List.mem_map.mpr ⟨c, hc, heq⟩)
      · exact .inr (mem_fresh.mpr ⟨hp, hslot⟩)
  · intro c hc
    rcases List.mem_append.mp hc with hc | hc
    · -- a row that stays: its run of readings is one longer
      obtain ⟨hcold, hactive⟩ := mem_kept.mp hc
      have hsince := h.since c hcold
      rw [unbroken_cons_of_mem hactive]
      cases hrun : unbroken c.instance readings with
      | nil =>
        rw [hrun] at hsince
        cases hsince
      | cons r' rest =>
        rw [hrun] at hsince
        rw [List.getLast?_cons_cons]
        exact hsince
    · -- a new row: the reading before did not hold its instance
      obtain ⟨p, hp, rfl⟩ := List.mem_map.mp hc
      obtain ⟨hactive, hslot⟩ := mem_fresh.mp hp
      have hrow : (r.row p).instance = p := rfl
      rw [hrow, unbroken_cons_of_mem hactive]
      cases readings with
      | nil => rfl
      | cons last earlier =>
        have hlast : p ∉ last.active := by
          intro hmem
          obtain ⟨c, hc, hcp⟩ := List.mem_map.mp (h.active.mem_iff.mpr hmem)
          have hck : c ∈ kept := mem_kept.mpr ⟨hc, hcp ▸ hactive⟩
          have hcslot : c.sidechain = p.1 := congrArg Prod.fst hcp
          exact hslot (hcslot ▸ List.mem_map_of_mem (f := (·.sidechain)) hck)
        have hnone : unbroken p (last :: earlier) = [] := by simp [unbroken, hlast]
        rw [hnone]
        rfl

/-! ### Recording a reading -/

/-- The label of the group decides whether its readings are authoritative. -/
theorem isAuthoritative_eq_ok {group : ℕ} {label : SnapshotConsistency} {db : Db}
    (h : (db.snapshotGroups.find? (·.snapshotGroupId = group)).map (·.consistency) = some label) :
    isAuthoritative (some group) db = .ok (label.authoritative, db) := by
  obtain ⟨row, hrow, rfl⟩ := Option.map_eq_some_iff.mp h
  rw [isAuthoritative, Tx.read_bind_eq_ok, Tx.expect_bind_eq_ok]
  exact ⟨row, hrow, Tx.pure_eq_ok.mpr ⟨rfl, rfl⟩⟩

theorem isAuthoritative_congr {group : Option ℕ} {authoritative : Bool} {s t : Db}
    (hgroups : t.snapshotGroups = s.snapshotGroups)
    (h : isAuthoritative group s = .ok (authoritative, s)) :
    isAuthoritative group t = .ok (authoritative, t) := by
  cases group with
  | none =>
    obtain ⟨rfl, -⟩ := Tx.pure_eq_ok.mp h
    rfl
  | some g =>
    rw [isAuthoritative, Tx.read_bind_eq_ok, Tx.expect_bind_eq_ok] at h ⊢
    obtain ⟨row, hrow, h⟩ := h
    obtain ⟨rfl, -⟩ := Tx.pure_eq_ok.mp h
    rw [hgroups]
    exact ⟨row, hrow, Tx.pure_eq_ok.mpr ⟨rfl, rfl⟩⟩

section
variable [Digests]

/-- The slot and the instance of an active sidechain, when its fields bear it out. -/
def activeInstance (sidechain : ActiveSidechain) : Option (ℕ × String) :=
  match sidechainInstanceIdentity sidechain with
  | .ok identity => some (sidechain.sidechainNumber, identity.1.sidechainInstanceId)
  | .error _ => none

/-- The reading an event carries. -/
def ActiveReading.ofEvent (dataset : Uuid) (event : Event) : Option ActiveReading :=
  event.activeSidechains?.map fun sidechains =>
    ⟨dataset, event.timestamp, sidechains.filterMap activeInstance⟩

/-- The readings of a batch that decide what is current, in order. -/
def Batch.readings (b : Batch) : List ActiveReading :=
  if b.label.elim true (·.authoritative) then
    b.events.filterMap (ActiveReading.ofEvent b.store.datasetId)
  else []

/-- The instances a reading records are those of its sidechains. -/
theorem recordInstances_active {dataset : Uuid} {observedAt : ℕ}
    {sidechains : List ActiveSidechain} {current : List (ℕ × String)} {s t : Db}
    (h : recordInstances dataset observedAt sidechains s = .ok (current, t)) :
    current = sidechains.filterMap activeInstance := by
  induction sidechains generalizing s current with
  | nil =>
    obtain ⟨rfl, -⟩ := Tx.pure_eq_ok.mp h
    rfl
  | cons sidechain rest ih =>
    obtain ⟨slot, hslot, h⟩ := Tx.lift_bind_eq_ok.mp h
    obtain ⟨-, h⟩ := Tx.require_bind_eq_ok.mp h
    obtain ⟨_, -, h⟩ := Tx.lift_bind_eq_ok.mp h
    obtain ⟨_, -, h⟩ := Tx.lift_bind_eq_ok.mp h
    obtain ⟨identity, hidentity, h⟩ := Tx.lift_bind_eq_ok.mp h
    obtain ⟨_, u, -, h⟩ := Tx.bind_eq_ok.mp h
    obtain ⟨others, v, hv, h⟩ := Tx.bind_eq_ok.mp h
    obtain ⟨rfl, rfl⟩ := Tx.pure_eq_ok.mp h
    obtain ⟨-, rfl⟩ := narrow_eq_ok.mp (Result.context_eq_ok.mp hslot)
    have hactive : activeInstance sidechain =
        some (sidechain.sidechainNumber, identity.1.sidechainInstanceId) := by
      simp [activeInstance, hidentity]
    rw [List.filterMap_cons_some hactive, ih hv]

/-- What one event does to the current rows: an authoritative reading replaces them. -/
theorem insert_current {store : Store} {method : CaptureMethod} {group slot : Option ℕ}
    {id : Option String} {captureSeq : ℕ} {event : Event} {cache : InstanceCache}
    {authoritative : Bool} {s t : Db} {r : ℕ × InstanceCache}
    (hauth : isAuthoritative group s = .ok (authoritative, s))
    (h : insert store method group slot id captureSeq event cache s = .ok (r, t)) :
    t.currentInstances = if authoritative then
        (ActiveReading.ofEvent store.datasetId event).elim s.currentInstances
          (ActiveReading.replace s.currentInstances)
      else s.currentInstances := by
  obtain ⟨f, payload, authoritative', cache', u, resolved, fact, v, -, -, hauth', hupd, -, hfact,
    hobs, -⟩ := insert_pieces h
  obtain rfl : authoritative' = authoritative := by
    rw [hauth] at hauth'
    cases hauth'
    rfl
  have huv : SameBooks u v := sameBooks_insertFact _ hfact
  obtain ⟨-, hobs⟩ := Tx.require_bind_eq_ok.mp (Tx.read_bind_eq_ok.mp hobs)
  obtain rfl := Tx.modify_eq_ok.mp hobs
  change v.currentInstances = _
  rw [huv.currentInstances]
  unfold updateSidechainInstances updateSidechainInstancesWith at hupd
  cases hactive : event.activeSidechains? with
  | none =>
    rw [hactive] at hupd
    obtain ⟨-, rfl⟩ := Tx.pure_eq_ok.mp hupd
    simp [ActiveReading.ofEvent, hactive]
  | some sidechains =>
    rw [hactive] at hupd
    obtain ⟨current, w, hw, hupd⟩ := Tx.bind_eq_ok.mp hupd
    obtain ⟨-, -, hcurrent⟩ := recordInstances_inv hw
    obtain rfl := recordInstances_active hw
    cases authoritative' with
    | false =>
      obtain ⟨-, rfl⟩ := Tx.pure_eq_ok.mp hupd
      rw [hcurrent]
      rfl
    | true =>
      obtain ⟨_, x, hx, hupd⟩ := Tx.bind_eq_ok.mp hupd
      obtain ⟨-, rfl⟩ := Tx.pure_eq_ok.mp hupd
      obtain rfl := Tx.modify_eq_ok.mp hx
      simp [ActiveReading.ofEvent, hactive, ActiveReading.replace, hcurrent]

/-- What a batch of events does to the current rows: its readings replace them in turn. -/
theorem insertAll_current {store : Store} {method : CaptureMethod} {group slot : Option ℕ}
    {id : Option String} {captureSeq n : ℕ} {events : List Event} {cache : InstanceCache}
    {authoritative : Bool} {s t : Db} (hauth : isAuthoritative group s = .ok (authoritative, s))
    (h : insertAll store method group slot id captureSeq events cache s = .ok (n, t)) :
    t.currentInstances = if authoritative then
        (events.filterMap (ActiveReading.ofEvent store.datasetId)).foldl ActiveReading.replace
          s.currentInstances
      else s.currentInstances := by
  induction events generalizing captureSeq cache s n with
  | nil =>
    obtain ⟨-, rfl⟩ := Tx.pure_eq_ok.mp h
    simp
  | cons event rest ih =>
    obtain ⟨r, u, hr, hrest⟩ := Tx.bind_eq_ok.mp h
    obtain ⟨m, v, hm, hn⟩ := Tx.bind_eq_ok.mp hrest
    obtain ⟨-, rfl⟩ := Tx.pure_eq_ok.mp hn
    rw [ih (isAuthoritative_congr (insert_recorded hr).snapshotGroups hauth) hm,
      insert_current hauth hr]
    cases authoritative with
    | false => rfl
    | true => cases hreading : ActiveReading.ofEvent store.datasetId event <;> simp [hreading]

/-- **What a committed batch does to the current rows.** -/
theorem Batch.Recorded.currentInstances {b : Batch} {s t : Db} (h : b.Recorded s t) :
    t.currentInstances = b.readings.foldl ActiveReading.replace s.currentInstances := by
  obtain ⟨group, r, first, u, n, v, hopens, hreserve, hinsert, hvt⟩ := h.steps
  have hreserved := sameEvidence_reserve hreserve
  have hgroups : u.snapshotGroups = r.snapshotGroups := hreserved.snapshotGroups
  have hcurrent : u.currentInstances = r.currentInstances := hreserved.currentInstances
  rw [hvt.currentInstances, Batch.readings]
  cases hopens with
  | alone hlabel =>
    have hauth : isAuthoritative none u = .ok (true, u) := rfl
    rw [insertAll_current hauth hinsert, hcurrent, hlabel]
    rfl
  | group hlabel hfound =>
    have hauth := isAuthoritative_congr hgroups (isAuthoritative_eq_ok hfound)
    rw [insertAll_current hauth hinsert, hcurrent, hlabel]
    cases hauthoritative : SnapshotConsistency.authoritative _ <;> simp [hauthoritative]

/-! ### Sequences of commands -/

/-- The record, and the authoritative readings committed to it, the latest first. -/
structure Observed where
  db : Db
  readings : List ActiveReading

/-- A freshly migrated record. -/
def Observed.empty : Observed := ⟨.empty, []⟩

/-- One command, and the authoritative readings it commits. -/
def Observed.step (startOf : ScopeKey → ℕ) (o : Observed) (c : Command) : Option Observed :=
  some ⟨o.db.exec startOf c,
    (if o.db.commits c then c.batch.elim [] Batch.readings else []).reverse ++ o.readings⟩

/-- The current rows of every dataset are what its readings say. -/
def Observed.Inv (o : Observed) : Prop :=
  ∀ dataset, Follows (o.readings.filter (·.datasetId = dataset))
    (o.db.currentInstances.filter (·.datasetId = dataset))

/-- The readings of an event name each slot once. -/
def Protobuf.Event.distinctSlots (event : Event) : Prop :=
  ∀ sidechains ∈ event.activeSidechains?, (sidechains.map (·.sidechainNumber)).Nodup

theorem slots_activeInstance (sidechains : List ActiveSidechain) :
    ((sidechains.filterMap activeInstance).map (·.1)).Sublist
      (sidechains.map (·.sidechainNumber)) := by
  induction sidechains with
  | nil => exact List.Sublist.slnil
  | cons sidechain rest ih =>
    cases hidentity : sidechainInstanceIdentity sidechain with
    | error e =>
      rw [List.filterMap_cons_none (by simp [activeInstance, hidentity])]
      exact ih.cons _
    | ok identity =>
      rw [List.filterMap_cons_some (by simp only [activeInstance, hidentity]; rfl)]
      exact ih.cons_cons _

/-- So do the readings of a batch of such events. -/
theorem Batch.readings_slots {b : Batch} (h : ∀ event ∈ b.events, event.distinctSlots)
    {r : ActiveReading} (hr : r ∈ b.readings) : (r.active.map (·.1)).Nodup := by
  unfold Batch.readings at hr
  split_ifs at hr
  · obtain ⟨event, hevent, hreading⟩ := List.mem_filterMap.mp hr
    obtain ⟨sidechains, hactive, rfl⟩ := Option.map_eq_some_iff.mp hreading
    exact (h event hevent sidechains hactive).sublist (slots_activeInstance sidechains)
  · cases hr

omit [Digests] in
/-- Readings in turn keep the rows of every dataset in step. -/
theorem follows_foldl {rs : List ActiveReading} (hslots : ∀ r ∈ rs, (r.active.map (·.1)).Nodup)
    {readings : List ActiveReading} {rows : List CurrentInstanceRow}
    (h : ∀ dataset, Follows (readings.filter (·.datasetId = dataset))
      (rows.filter (·.datasetId = dataset))) (dataset : Uuid) :
    Follows ((rs.reverse ++ readings).filter (·.datasetId = dataset))
      ((rs.foldl ActiveReading.replace rows).filter (·.datasetId = dataset)) := by
  induction rs generalizing readings rows with
  | nil => exact h dataset
  | cons r rs ih =>
    rw [List.reverse_cons, List.append_assoc, List.singleton_append, List.foldl_cons]
    apply ih (fun r' hr' => hslots r' (List.mem_cons_of_mem r hr'))
    intro other
    have hr := hslots r List.mem_cons_self
    by_cases hdataset : r.datasetId = other
    · subst hdataset
      rw [List.filter_cons_of_pos (by simp)]
      exact (h r.datasetId).replace hr
    · rw [List.filter_cons_of_neg (by simpa using hdataset), replace_of_ne hr hdataset]
      exact h other

/-- One command keeps the current rows in step with the readings. -/
theorem Observed.step_inv (startOf : ScopeKey → ℕ) {o o' : Observed} {c : Command}
    (hslots : ∀ event ∈ c.events, event.distinctSlots) (ho : o.Inv)
    (h : o.step startOf c = some o') : o'.Inv := by
  cases h
  -- a command that commits no reading and leaves the current rows alone
  have quiet (hb : o.db.commits c → c.batch.elim [] Batch.readings = [])
      (hrows : (o.db.exec startOf c).currentInstances = o.db.currentInstances) :
      Observed.Inv ⟨o.db.exec startOf c,
        (if o.db.commits c then c.batch.elim [] Batch.readings else []).reverse ++ o.readings⟩ := by
    have hnone : (if o.db.commits c then c.batch.elim [] Batch.readings else []) = [] := by
      by_cases hc : o.db.commits c
      · rw [if_pos hc, hb hc]
      · rw [if_neg hc]
    intro dataset
    simp only [hnone, hrows]
    exact ho dataset
  cases o.db.exec_effect startOf c with
  | same hb heq =>
    refine quiet (fun hc => ?_) heq.currentInstances
    cases hbatch : c.batch with
    | none => rfl
    | some b =>
      have hnil := hb hc
      rw [Command.captures_of_batch hbatch, List.map_eq_nil_iff] at hnil
      simp [Batch.readings, hnil]
  | opened hc hok =>
    subst hc
    exact quiet (fun _ => rfl) (initializeIdentity_inv hok).2.currentInstances
  | closed hc hok =>
    subst hc
    exact quiet (fun _ => rfl) (finishRun_inv hok).2.currentInstances
  | tip hc _ hok =>
    subst hc
    obtain ⟨_, _, _, u, -, -, hreserve, ht⟩ := recordTipObservation_inv hok
    have hu : u.currentInstances = o.db.currentInstances :=
      (sameEvidence_reserve hreserve).currentInstances
    exact quiet (fun _ => rfl) (ht.currentInstances.trans hu)
  | batch hb hc hrec =>
    intro dataset
    simp only [hb, hc, if_true, Option.elim_some, hrec.currentInstances]
    refine follows_foldl (fun r hr => Batch.readings_slots (fun event hevent => ?_) hr) ho dataset
    apply hslots
    rw [Command.events_of_batch hb]
    exact hevent

/-- **The current instance set is the last authoritative reading.** After any sequence of
commands whose readings have distinct slots, the current rows of every dataset are the
active set of its last authoritative reading, and say since when; and no snapshot labelled
changed or unknown alters them. -/
theorem current_set_follows (startOf : ScopeKey → ℕ) (cs : List Command) (o : Observed)
    (hslots : ∀ c ∈ cs, ∀ event ∈ c.events, event.distinctSlots)
    (h : run (Observed.step startOf) Observed.empty cs = some o) :
    (∀ dataset, Follows (o.readings.filter (·.datasetId = dataset))
      (o.db.currentInstances.filter (·.datasetId = dataset))) ∧
    ∀ store events method metadata,
      metadata.consistency = .changed ∨ metadata.consistency = .unknown →
        (o.db.exec startOf (.recordSnapshot store events method metadata)).currentInstances =
          o.db.currentInstances := by
  constructor
  · have hempty : Observed.empty.Inv := fun _ => Follows.empty
    have halong : Along (Observed.step startOf) (fun _ c => ∀ event ∈ c.events, event.distinctSlots)
        Observed.empty cs := along_of_forall fun c hc _ => hslots c hc
    exact run_invariant_along (fun _ _ _ ho hc hstep => Observed.step_inv startOf hc ho hstep)
      hempty halong h
  · intro store events method metadata hlabel
    cases o.db.exec_effect startOf (.recordSnapshot store events method metadata) with
    | same _ heq => exact heq.currentInstances
    | opened hc => cases hc
    | closed hc => cases hc
    | tip hc => cases hc
    | batch hb _ hrec =>
      cases hb
      have hnone : Batch.readings ⟨store, method, some metadata.consistency, none, none, events⟩ =
          [] := by
        rcases hlabel with hlabel | hlabel <;>
          simp [Batch.readings, hlabel, SnapshotConsistency.authoritative]
      rw [hrec.currentInstances, hnone]
      rfl

end

/-! ### An instance read through a moving tip -/

namespace Reread

/-- The digests of the two payloads. -/
@[reducible] def digests : Digests := .ofPayloads [
  (.enforcer (some (.activeSidechains [slotNine])),
    0xf2a242527941e63799fa9b77cce23743b8893a0c8ca5904f5b3f83c313c8bfb4),
  (.enforcer (some (.activeSidechains [])),
    0x37aa3970b6801c9d286464f7d86e50bf41c88e54c7b4d08f3ff61935b3f59c3c)]

/-- A reading at a time, under a label. -/
def reading (sidechains : List ActiveSidechain) (time : ℕ) (label : SnapshotConsistency) : Command :=
  .recordSnapshot ⟨.enforcer, 0, 0, 9⟩ [{ activeReading sidechains with timestamp := time }] .poll
    { tipMatchedAt (.atHeight (bytes32 1) 5) with consistency := label }

/-- The slot is active at 1, empty at 2 while the tip moves, and active again at 3. -/
def commands : List Command :=
  [.initializeIdentity .enforcer 0 0 9, reading [slotNine] 1 .tipMatched, reading [] 2 .changed,
    reading [slotNine] 3 .tipMatched]

end Reread

/-- The instance is current since 1: the reading at 2 said nothing. -/
theorem current_set_follows_reread :
    ∃ o, run (@Observed.step Reread.digests fun _ => 5) Observed.empty Reread.commands = some o ∧
      o.db.currentInstances = [⟨0, 9, slotNineInstance.sidechainInstanceId, 1⟩] ∧
      Follows (o.readings.filter (·.datasetId = 0))
        (o.db.currentInstances.filter (·.datasetId = 0)) := by
  let _ := Reread.digests
  have hrun : ((run (Observed.step fun _ => 5) Observed.empty Reread.commands).filter fun o =>
      o.db.currentInstances = [⟨0, 9, slotNineInstance.sidechainInstanceId, 1⟩]).isSome := by
    decide +kernel
  obtain ⟨o, ho⟩ := Option.isSome_iff_exists.mp hrun
  obtain ⟨ho, hrows⟩ := Option.filter_eq_some_iff.mp ho
  have hslots : ∀ c ∈ Reread.commands, ∀ event ∈ c.events, event.distinctSlots := by
    simp [Reread.commands, Reread.reading, Command.events, Event.distinctSlots, activeReading,
      Event.activeSidechains?]
  exact ⟨o, ho, of_decide_eq_true hrows, (current_set_follows _ _ o hslots ho).1 0⟩

end Bip300Monitor
