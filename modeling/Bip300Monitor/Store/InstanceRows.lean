import Bip300Monitor.Foundations.KeyedTables
import Bip300Monitor.Store.CurrentSet
import Bip300Monitor.Texts

/-!
# The instances of the sidechains

Every reading of the active set is recorded in `sidechain_instance`, under a text made of the slot, the
two heights and the hash of the description. The table also has the constraint
`sidechain_instance_fields`, that no two rows of a dataset share these four
(`shared/schema/0004_observation_provenance.sql`).

## The model

`recordUnderConstraint` is the upsert of `Bip300Monitor.Store.Evidence` with the constraint; the
functions above it take the upsert as a parameter. `Retained` is the record with the instances that the
committed readings have had.

## What is proved

* `sidechainInstanceId_injective` — the text tells the four fields;
* `insertAllWith_constraint` — the constraint never fails;
* `instance_identity_exact` — the rows are the instances that have been read, each once.
-/

namespace Bip300Monitor

open Protobuf Transaction Runs

/-! ### Identities -/

/-- The fields of `sidechain_instance_fields`. -/
structure InstanceFields where
  datasetId : Uuid
  sidechain : ℕ
  descriptionSha256d : Bytes
  proposalHeight : ℕ
  activationHeight : ℕ
  deriving DecidableEq, Repr

/-- The text of `sidechain_instance_identity`. -/
def InstanceFields.sidechainInstanceId (f : InstanceFields) : String :=
  toString f.sidechain ++ ":" ++ toString f.proposalHeight ++ ":" ++ toString f.activationHeight ++
    ":" ++ hexEncode f.descriptionSha256d

/-- The primary key that the fields make. -/
def InstanceFields.key (f : InstanceFields) : Uuid × String := (f.datasetId, f.sidechainInstanceId)

/-- The fields of a row. -/
def SidechainInstanceRow.fields (row : SidechainInstanceRow) : InstanceFields :=
  ⟨row.datasetId, row.sidechain, row.descriptionSha256d, row.proposalHeight, row.activationHeight⟩

/-- The primary key of a row. -/
def SidechainInstanceRow.key (row : SidechainInstanceRow) : Uuid × String :=
  (row.datasetId, row.sidechainInstanceId)

/-- The fields of an active sidechain. -/
def InstanceFields.of (dataset : Uuid) (sidechain : ActiveSidechain) : InstanceFields :=
  ⟨dataset, sidechain.sidechainNumber, sidechain.descriptionHash, sidechain.proposalHeight,
    sidechain.activationHeight⟩

/-- **The text tells the four fields.** -/
theorem sidechainInstanceId_injective {f g : InstanceFields} :
    f.sidechainInstanceId = g.sidechainInstanceId ↔ f.sidechain = g.sidechain ∧
      f.proposalHeight = g.proposalHeight ∧ f.activationHeight = g.activationHeight ∧
      f.descriptionSha256d = g.descriptionSha256d := by
  have hgroup (f : InstanceFields) : f.sidechainInstanceId = toString f.sidechain ++ ":" ++
      (toString f.proposalHeight ++ ":" ++ (toString f.activationHeight ++ ":" ++
        hexEncode f.descriptionSha256d)) := by
    simp only [InstanceFields.sidechainInstanceId, String.append_assoc]
  rw [hgroup, hgroup, append_colon_inj (noColon_toString _) (noColon_toString _),
    append_colon_inj (noColon_toString _) (noColon_toString _),
    append_colon_inj (noColon_toString _) (noColon_toString _), toString_inj, toString_inj, toString_inj,
    hexEncode_inj]

theorem InstanceFields.key_injective : Function.Injective InstanceFields.key := by
  intro f g h
  obtain ⟨hdataset, hid⟩ := Prod.mk.inj h
  obtain ⟨hslot, hproposal, hactivation, hhash⟩ := sidechainInstanceId_injective.mp hid
  cases f
  cases g
  simp only at hdataset hslot hproposal hactivation hhash
  subst hdataset hslot hproposal hactivation hhash
  rfl

section
variable [Digests]

/-- An identity that is accepted is the text of the sidechain's fields. -/
theorem sidechainInstanceIdentity_eq_ok {sidechain : ActiveSidechain}
    {identity : SidechainInstanceRef × Bytes} (dataset : Uuid)
    (h : sidechainInstanceIdentity sidechain = .ok identity) :
    identity.1.sidechainInstanceId = (InstanceFields.of dataset sidechain).sidechainInstanceId ∧
      identity.2 = sidechain.descriptionHash := by
  obtain ⟨slot, hslot, h⟩ := Result.bind_eq_ok.mp h
  obtain ⟨-, rfl⟩ := narrow_eq_ok.mp (Result.context_eq_ok.mp hslot)
  obtain ⟨hash, -, h⟩ := Result.bind_eq_ok.mp h
  split_ifs at h with hne
  cases h
  have hhash : sidechain.descriptionHash = hash := not_not.mp hne
  subst hhash
  exact ⟨rfl, rfl⟩

/-! ### The upsert, with its second constraint -/

/-- The upsert of an instance, with the constraint `sidechain_instance_fields`. -/
def recordUnderConstraint (row : SidechainInstanceRow) : Write Unit := do
  let db ← Tx.read
  Tx.require (db.isRegistered row.datasetId row.sidechainInstanceId ∨
      row.fields ∉ db.sidechainInstances.map (·.fields))
    (.bail "recording a sidechain instance: the row violates sidechain_instance_fields")
  recordSidechainInstance row

/-! ### What the readings leave -/

/-- The rows are those of the instances that have been read, each once, under their texts. -/
def Db.InstancesExact (db : Db) (instances : List InstanceFields) : Prop :=
  KeyedTables.Exact InstanceFields.key SidechainInstanceRow.key SidechainInstanceRow.fields instances
    db.sidechainInstances

omit [Digests] in
theorem Db.isRegistered_iff {db : Db} {row : SidechainInstanceRow} :
    db.isRegistered row.datasetId row.sidechainInstanceId ↔
      ∃ r ∈ db.sidechainInstances, r.key = row.key := by
  simp only [Db.isRegistered, SidechainInstanceRow.key, Prod.mk.injEq]

omit [Digests] in
/-- The upsert, on the rows. -/
theorem recordSidechainInstance_rows {row : SidechainInstanceRow} {s t : Db}
    (h : recordSidechainInstance row s = .ok (⟨⟩, t)) :
    t.sidechainInstances = KeyedTables.upsert SidechainInstanceRow.key
      (fun i => { i with lastSeenAt := row.lastSeenAt }) row s.sidechainInstances := by
  obtain ⟨-, h⟩ := Tx.require_bind_eq_ok.mp h
  obtain rfl := Tx.modify_eq_ok.mp h
  by_cases hregistered : s.isRegistered row.datasetId row.sidechainInstanceId
  · rw [if_pos hregistered, KeyedTables.upsert, if_pos (Db.isRegistered_iff.mp hregistered)]
    refine List.map_congr_left fun i _ => ?_
    simp only [SidechainInstanceRow.key, Prod.mk.injEq]
  · rw [if_neg hregistered, KeyedTables.upsert, if_neg (mt Db.isRegistered_iff.mpr hregistered)]

omit [Digests] in
theorem Db.InstancesExact.upsert {row : SidechainInstanceRow} {s t : Db} {instances : List InstanceFields}
    (hs : s.InstancesExact instances) (hrow : row.key = row.fields.key)
    (h : recordSidechainInstance row s = .ok (⟨⟩, t)) : t.InstancesExact (row.fields :: instances) := by
  unfold InstancesExact
  rw [recordSidechainInstance_rows h]
  exact KeyedTables.Exact.upsert hs InstanceFields.key_injective hrow (fun _ => rfl) fun _ => rfl

omit [Digests] in
/-- **The constraint never fails** on a row that has the text of its fields. -/
theorem Db.InstancesExact.constraint {row : SidechainInstanceRow} {s : Db}
    {instances : List InstanceFields} (hs : s.InstancesExact instances) (hrow : row.key = row.fields.key) :
    recordUnderConstraint row s = recordSidechainInstance row s := by
  have hfresh : s.isRegistered row.datasetId row.sidechainInstanceId ∨
      row.fields ∉ s.sidechainInstances.map (·.fields) := by
    by_cases hregistered : s.isRegistered row.datasetId row.sidechainInstanceId
    · exact .inl hregistered
    · exact .inr (hs.fresh InstanceFields.key_injective hrow (mt Db.isRegistered_iff.mpr hregistered))
  rw [recordUnderConstraint, Tx.bind_of_ok (Tx.read_eq_ok.mpr ⟨rfl, rfl⟩),
    Tx.bind_of_ok ((Tx.require_eq_ok (a := ⟨⟩)).mpr ⟨hfresh, rfl⟩)]

/-- The row of an accepted sidechain. -/
def instanceRow (dataset : Uuid) (observedAt : ℕ) (sidechain : ActiveSidechain)
    (identity : SidechainInstanceRef × Bytes) : SidechainInstanceRow :=
  ⟨dataset, identity.1.sidechainInstanceId, sidechain.sidechainNumber, sidechain.rawDescription,
    identity.2, sidechain.proposalHeight, sidechain.activationHeight, observedAt, observedAt⟩

/-- It has the fields of the sidechain, and their text. -/
theorem instanceRow_key (dataset : Uuid) (observedAt : ℕ) {sidechain : ActiveSidechain}
    {identity : SidechainInstanceRef × Bytes} (h : sidechainInstanceIdentity sidechain = .ok identity) :
    (instanceRow dataset observedAt sidechain identity).fields = InstanceFields.of dataset sidechain ∧
      (instanceRow dataset observedAt sidechain identity).key =
        (instanceRow dataset observedAt sidechain identity).fields.key := by
  obtain ⟨htext, hhash⟩ := sidechainInstanceIdentity_eq_ok dataset h
  have hfields : (instanceRow dataset observedAt sidechain identity).fields =
      InstanceFields.of dataset sidechain := by
    simp only [instanceRow, SidechainInstanceRow.fields, InstanceFields.of, hhash]
  refine ⟨hfields, ?_⟩
  rw [hfields]
  exact Prod.ext rfl htext

/-- **Recording a reading** adds its instances, and meets no constraint. -/
theorem Db.InstancesExact.recordInstances {dataset : Uuid} {observedAt : ℕ}
    {sidechains : List ActiveSidechain} {instances : List InstanceFields} {s t : Db}
    {current : List (ℕ × String)} (hs : s.InstancesExact instances)
    (h : recordInstances dataset observedAt sidechains s = .ok (current, t)) :
    t.InstancesExact ((sidechains.map (InstanceFields.of dataset)).reverse ++ instances) := by
  induction sidechains generalizing s current instances with
  | nil =>
    obtain ⟨-, rfl⟩ := Tx.pure_eq_ok.mp h
    exact hs
  | cons sidechain rest ih =>
    obtain ⟨slot, hslot, h⟩ := Tx.lift_bind_eq_ok.mp h
    obtain ⟨-, h⟩ := Tx.require_bind_eq_ok.mp h
    obtain ⟨proposalHeight, hproposal, h⟩ := Tx.lift_bind_eq_ok.mp h
    obtain ⟨activationHeight, hactivation, h⟩ := Tx.lift_bind_eq_ok.mp h
    obtain ⟨identity, hidentity, h⟩ := Tx.lift_bind_eq_ok.mp h
    obtain ⟨_, u, hu, h⟩ := Tx.bind_eq_ok.mp h
    obtain ⟨others, v, hv, h⟩ := Tx.bind_eq_ok.mp h
    obtain ⟨rfl, rfl⟩ := Tx.pure_eq_ok.mp h
    obtain ⟨-, rfl⟩ := narrow_eq_ok.mp (Result.context_eq_ok.mp hslot)
    obtain ⟨-, rfl⟩ := heightToI32_eq_ok.mp hproposal
    obtain ⟨-, rfl⟩ := heightToI32_eq_ok.mp hactivation
    obtain ⟨hfields, hkey⟩ := instanceRow_key dataset observedAt hidentity
    have hu := hs.upsert hkey hu
    rw [hfields] at hu
    have hv := ih hu hv
    rw [List.map_cons, List.reverse_cons, List.append_assoc]
    exact hv

/-- The steps of a reading meet no constraint. -/
theorem Db.InstancesExact.recordInstancesWith {dataset : Uuid} {observedAt : ℕ}
    {sidechains : List ActiveSidechain} {instances : List InstanceFields} {s : Db}
    (hs : s.InstancesExact instances) :
    recordInstancesWith recordUnderConstraint dataset observedAt sidechains s =
      Bip300Monitor.recordInstances dataset observedAt sidechains s := by
  induction sidechains generalizing s instances with
  | nil => rfl
  | cons sidechain rest ih =>
    unfold Bip300Monitor.recordInstances Bip300Monitor.recordInstancesWith
    refine Tx.bind_congr rfl fun slot _ hlift => ?_
    obtain ⟨hslot, rfl⟩ := Tx.lift_eq_ok.mp hlift
    obtain ⟨-, rfl⟩ := narrow_eq_ok.mp (Result.context_eq_ok.mp hslot)
    refine Tx.bind_congr rfl fun _ _ hrequire => ?_
    obtain ⟨-, rfl⟩ := Tx.require_eq_ok.mp hrequire
    refine Tx.bind_congr rfl fun proposalHeight _ hlift => ?_
    obtain ⟨hproposal, rfl⟩ := Tx.lift_eq_ok.mp hlift
    obtain ⟨-, rfl⟩ := heightToI32_eq_ok.mp hproposal
    refine Tx.bind_congr rfl fun activationHeight _ hlift => ?_
    obtain ⟨hactivation, rfl⟩ := Tx.lift_eq_ok.mp hlift
    obtain ⟨-, rfl⟩ := heightToI32_eq_ok.mp hactivation
    refine Tx.bind_congr rfl fun identity _ hlift => ?_
    obtain ⟨hidentity, rfl⟩ := Tx.lift_eq_ok.mp hlift
    obtain ⟨hfields, hkey⟩ := instanceRow_key dataset observedAt hidentity
    refine Tx.bind_congr (hs.constraint hkey) fun _ u hu => ?_
    exact Tx.bind_congr (ih (hs.upsert hkey hu)) fun _ _ _ => rfl

/-! #### Events and batches -/

/-- The instances that an event reads. -/
def eventInstances (dataset : Uuid) (event : Event) : List InstanceFields :=
  (event.activeSidechains?.getD []).map (InstanceFields.of dataset)

omit [Digests] in
theorem Db.InstancesExact.congr {instances : List InstanceFields} {s t : Db}
    (hs : s.InstancesExact instances) (h : t.sidechainInstances = s.sidechainInstances) :
    t.InstancesExact instances := by
  unfold InstancesExact
  rw [h]
  exact hs

theorem Db.InstancesExact.updateSidechainInstances {dataset : Uuid} {event : Event} {observedAt : ℕ}
    {cache cache' : InstanceCache} {authoritative : Bool} {instances : List InstanceFields} {s t : Db}
    (hs : s.InstancesExact instances)
    (h : updateSidechainInstances dataset event observedAt cache authoritative s = .ok (cache', t)) :
    t.InstancesExact ((eventInstances dataset event).reverse ++ instances) := by
  unfold Bip300Monitor.updateSidechainInstances Bip300Monitor.updateSidechainInstancesWith at h
  cases hactive : event.activeSidechains? with
  | none =>
    rw [hactive] at h
    obtain ⟨-, rfl⟩ := Tx.pure_eq_ok.mp h
    simpa [eventInstances, hactive] using hs
  | some sidechains =>
    rw [hactive] at h
    obtain ⟨current, u, hu, h⟩ := Tx.bind_eq_ok.mp h
    have hu := hs.recordInstances hu
    have hevent : eventInstances dataset event = sidechains.map (InstanceFields.of dataset) := by
      simp [eventInstances, hactive]
    rw [hevent]
    cases authoritative with
    | false =>
      obtain ⟨-, rfl⟩ := Tx.pure_eq_ok.mp h
      exact hu
    | true =>
      obtain ⟨_, v, hv, h⟩ := Tx.bind_eq_ok.mp h
      obtain ⟨-, rfl⟩ := Tx.pure_eq_ok.mp h
      obtain rfl := Tx.modify_eq_ok.mp hv
      exact hu.congr rfl

theorem Db.InstancesExact.updateSidechainInstancesWith {dataset : Uuid} {event : Event} {observedAt : ℕ}
    {cache : InstanceCache} {authoritative : Bool} {instances : List InstanceFields} {s : Db}
    (hs : s.InstancesExact instances) :
    updateSidechainInstancesWith recordUnderConstraint dataset event observedAt cache authoritative s =
      Bip300Monitor.updateSidechainInstances dataset event observedAt cache authoritative s := by
  unfold Bip300Monitor.updateSidechainInstances Bip300Monitor.updateSidechainInstancesWith
  cases event.activeSidechains? with
  | none => rfl
  | some sidechains => exact Tx.bind_congr hs.recordInstancesWith fun _ _ _ => rfl

theorem Db.InstancesExact.insert {store : Store} {method : CaptureMethod} {group slot : Option ℕ}
    {id : Option String} {captureSeq : ℕ} {event : Event} {cache : InstanceCache}
    {instances : List InstanceFields} {s t : Db} {r : ℕ × InstanceCache}
    (hs : s.InstancesExact instances)
    (h : insert store method group slot id captureSeq event cache s = .ok (r, t)) :
    t.InstancesExact ((eventInstances store.datasetId event).reverse ++ instances) := by
  obtain ⟨f, payload, authoritative, cache', u, resolved, fact, v, -, -, -, hupd, -, hfact, hobs, -⟩ :=
    insert_pieces h
  obtain ⟨-, hobs⟩ := Tx.require_bind_eq_ok.mp (Tx.read_bind_eq_ok.mp hobs)
  obtain rfl := Tx.modify_eq_ok.mp hobs
  have huv : SameBooks u v := sameBooks_insertFact _ hfact
  exact (hs.updateSidechainInstances hupd).congr huv.sidechainInstances

theorem Db.InstancesExact.insertWith {store : Store} {method : CaptureMethod} {group slot : Option ℕ}
    {id : Option String} {captureSeq : ℕ} {event : Event} {cache : InstanceCache}
    {instances : List InstanceFields} {s : Db} (hs : s.InstancesExact instances) :
    insertWith recordUnderConstraint store method group slot id captureSeq event cache s =
      Bip300Monitor.insert store method group slot id captureSeq event cache s := by
  unfold Bip300Monitor.insert Bip300Monitor.insertWith
  refine Tx.bind_congr rfl fun facts _ hfacts => ?_
  obtain ⟨-, rfl⟩ := Tx.lift_eq_ok.mp hfacts
  refine Tx.bind_congr rfl fun payload _ hpayload => ?_
  obtain ⟨-, rfl⟩ := Tx.expect_eq_ok.mp hpayload
  refine Tx.bind_congr rfl fun authoritative t hauthoritative => ?_
  obtain rfl := reads_isAuthoritative group hauthoritative
  exact Tx.bind_congr hs.updateSidechainInstancesWith fun _ _ _ => rfl

/-- What a batch of events adds. -/
theorem Db.InstancesExact.insertAll {store : Store} {method : CaptureMethod} {group slot : Option ℕ}
    {id : Option String} {captureSeq n : ℕ} {events : List Event} {cache : InstanceCache}
    {instances : List InstanceFields} {s t : Db} (hs : s.InstancesExact instances)
    (h : insertAll store method group slot id captureSeq events cache s = .ok (n, t)) :
    t.InstancesExact ((events.flatMap (eventInstances store.datasetId)).reverse ++ instances) := by
  induction events generalizing captureSeq cache s n instances with
  | nil =>
    obtain ⟨-, rfl⟩ := Tx.pure_eq_ok.mp h
    exact hs
  | cons event rest ih =>
    obtain ⟨r, u, hr, hrest⟩ := Tx.bind_eq_ok.mp h
    obtain ⟨m, v, hm, hn⟩ := Tx.bind_eq_ok.mp hrest
    obtain ⟨-, rfl⟩ := Tx.pure_eq_ok.mp hn
    rw [List.flatMap_cons, List.reverse_append, List.append_assoc]
    exact ih (hs.insert hr) hm

/-- **The constraint never fails in a batch.** -/
theorem insertAllWith_constraint {store : Store} {method : CaptureMethod} {group slot : Option ℕ}
    {id : Option String} {captureSeq : ℕ} {events : List Event} {cache : InstanceCache}
    {instances : List InstanceFields} {s : Db} (hs : s.InstancesExact instances) :
    insertAllWith recordUnderConstraint store method group slot id captureSeq events cache s =
      insertAll store method group slot id captureSeq events cache s := by
  induction events generalizing captureSeq cache s instances with
  | nil => rfl
  | cons event rest ih =>
    unfold insertAll insertAllWith
    refine Tx.bind_congr hs.insertWith fun r u hr => ?_
    exact Tx.bind_congr (ih (hs.insert hr)) fun _ _ _ => rfl

/-! ### Sequences of commands -/

/-- The instances that a batch reads. -/
def Batch.instances (b : Batch) : List InstanceFields :=
  b.events.flatMap (eventInstances b.store.datasetId)

theorem Batch.Recorded.instancesExact {b : Batch} {instances : List InstanceFields} {s t : Db}
    (hs : s.InstancesExact instances) (h : b.Recorded s t) :
    t.InstancesExact (b.instances.reverse ++ instances) := by
  obtain ⟨group, r, first, u, n, v, hopens, hreserve, hinsert, hvt⟩ := h.steps
  have hr : r.InstancesExact instances := by
    cases hopens with
    | alone => exact hs
    | group => exact hs.congr rfl
  have hu : u.InstancesExact instances := hr.congr (sameEvidence_reserve hreserve).sidechainInstances
  exact (hu.insertAll hinsert).congr hvt.sidechainInstances

/-- The record, and the instances of the readings committed to it. -/
structure Retained where
  db : Db
  instances : List InstanceFields

/-- A freshly migrated record. -/
def Retained.empty : Retained := ⟨.empty, []⟩

/-- One command, and the instances of the readings it commits. -/
def Retained.step (startOf : ScopeKey → ℕ) (r : Retained) (c : Command) : Option Retained :=
  some ⟨r.db.exec startOf c,
    (if r.db.commits c then c.batch.elim [] Batch.instances else []).reverse ++ r.instances⟩

/-- **A command adds the instances that it reads.** -/
theorem Retained.step_exact {startOf : ScopeKey → ℕ} {r t : Retained} {c : Command}
    (hr : r.db.InstancesExact r.instances) (h : r.step startOf c = some t) :
    t.db.InstancesExact t.instances := by
  cases h
  -- a command that reads no instance and leaves the table alone
  have quiet (hb : r.db.commits c → c.batch.elim [] Batch.instances = [])
      (hrows : (r.db.exec startOf c).sidechainInstances = r.db.sidechainInstances) :
      (r.db.exec startOf c).InstancesExact
        ((if r.db.commits c then c.batch.elim [] Batch.instances else []).reverse ++ r.instances) := by
    have hnone : (if r.db.commits c then c.batch.elim [] Batch.instances else []) = [] := by
      by_cases hc : r.db.commits c
      · rw [if_pos hc, hb hc]
      · rw [if_neg hc]
    rw [hnone]
    exact hr.congr hrows
  cases r.db.exec_effect startOf c with
  | same hb heq =>
    refine quiet (fun hc => ?_) heq.sidechainInstances
    cases hbatch : c.batch with
    | none => rfl
    | some b =>
      have hnil := hb hc
      rw [Command.captures_of_batch hbatch, List.map_eq_nil_iff] at hnil
      simp [Batch.instances, hnil]
  | opened hc hok =>
    subst hc
    exact quiet (fun _ => rfl) (initializeIdentity_inv hok).2.sidechainInstances
  | closed hc hok =>
    subst hc
    exact quiet (fun _ => rfl) (finishRun_inv hok).2.sidechainInstances
  | tip hc _ hok =>
    subst hc
    obtain ⟨_, _, _, u, -, -, hreserve, ht⟩ := recordTipObservation_inv hok
    have hu : u.sidechainInstances = r.db.sidechainInstances :=
      (sameEvidence_reserve hreserve).sidechainInstances
    exact quiet (fun _ => rfl) (ht.sidechainInstances.trans hu)
  | batch hb hc hrec =>
    simp only [hb, hc, if_true, Option.elim_some]
    exact hrec.instancesExact hr

/-- **The identity of an instance is exact.** Two accepted sidechains have one text exactly if they
have the same slot, heights and description hash. After any sequence of commands the rows are those of
the instances that its readings have had, each once and under its text; and in whatever batch comes
next the constraint on the fields makes no difference. -/
theorem instance_identity_exact (startOf : ScopeKey → ℕ) (cs : List Command) (r : Retained)
    (h : run (Retained.step startOf) Retained.empty cs = some r) :
    (∀ a b a' b', sidechainInstanceIdentity a = .ok a' → sidechainInstanceIdentity b = .ok b' →
      (a'.1.sidechainInstanceId = b'.1.sidechainInstanceId ↔
        a.sidechainNumber = b.sidechainNumber ∧ a.proposalHeight = b.proposalHeight ∧
          a.activationHeight = b.activationHeight ∧ a.descriptionHash = b.descriptionHash)) ∧
    (r.db.sidechainInstances.map (·.key)).Nodup ∧
    (∀ f ∈ r.instances, (r.db.sidechainInstances.map (·.fields)).count f = 1) ∧
    (∀ row ∈ r.db.sidechainInstances, row.fields ∈ r.instances ∧
      row.sidechainInstanceId = row.fields.sidechainInstanceId) ∧
    ∀ store method group slot id captureSeq events cache db,
      db.sidechainInstances = r.db.sidechainInstances →
        insertAllWith recordUnderConstraint store method group slot id captureSeq events cache db =
          insertAll store method group slot id captureSeq events cache db := by
  have hempty : Retained.empty.db.InstancesExact Retained.empty.instances := KeyedTables.Exact.empty
  have hr : r.db.InstancesExact r.instances :=
    run_invariant (I := fun r => r.db.InstancesExact r.instances)
      (fun _ _ _ hr hstep => Retained.step_exact hr hstep) hempty h
  refine ⟨fun a b a' b' ha hb => ?_, hr.keys InstanceFields.key_injective, fun f hf => hr.count hf,
    fun row hrow => ⟨(hr.retained _).mpr (List.mem_map_of_mem hrow), congrArg Prod.snd (hr.named row hrow)⟩,
    fun store method group slot id captureSeq events cache db hdb =>
      insertAllWith_constraint (hr.congr hdb)⟩
  rw [(sidechainInstanceIdentity_eq_ok 0 ha).1, (sidechainInstanceIdentity_eq_ok 0 hb).1]
  exact sidechainInstanceId_injective

end

/-! ### A slot that goes back to its first sidechain -/

namespace ReturningSlot

/-- The sidechain that takes the slot in between. -/
def successor : ActiveSidechain :=
  { slotNine with
    proposalHeight := 6
    activationHeight := 8 }

@[reducible] def digests : Digests := .ofPayloads [
  (.enforcer (some (.activeSidechains [slotNine])),
    0xf2a242527941e63799fa9b77cce23743b8893a0c8ca5904f5b3f83c313c8bfb4),
  (.enforcer (some (.activeSidechains [successor])),
    0x9256eaee5e470b6197394bae64b97a4bc8a9366a62c66a4c58683648eb2afcec)]

/-- A reading of the slot. -/
def reading (sidechain : ActiveSidechain) : Command :=
  .recordSnapshot ⟨.enforcer, 0, 0, 9⟩ [activeReading [sidechain]] .poll (tipMatchedAt (.atHeight (bytes32 1) 5))

def commands : List Command :=
  [.initializeIdentity .enforcer 0 0 9, reading slotNine, reading successor, reading slotNine]

end ReturningSlot

open ReturningSlot in
/-- Each of the two has one row. -/
theorem instance_identity_exact_returning :
    ∃ r, run (@Retained.step ReturningSlot.digests fun _ => 5) Retained.empty commands = some r ∧
      r.instances = [slotNine, successor, slotNine].map (InstanceFields.of 0) ∧
      (r.db.sidechainInstances.map (·.fields)).count (InstanceFields.of 0 slotNine) = 1 ∧
      (r.db.sidechainInstances.map (·.fields)).count (InstanceFields.of 0 successor) = 1 := by
  let _ := ReturningSlot.digests
  have hrun : ((run (Retained.step fun _ => 5) Retained.empty commands).filter fun r =>
      r.instances = [slotNine, successor, slotNine].map (InstanceFields.of 0)).isSome := by
    decide +kernel
  obtain ⟨r, hr⟩ := Option.isSome_iff_exists.mp hrun
  obtain ⟨hr, hinstances⟩ := Option.filter_eq_some_iff.mp hr
  have hinstances := of_decide_eq_true hinstances
  obtain ⟨-, -, honce, -⟩ := instance_identity_exact _ _ r hr
  rw [hinstances] at honce
  exact ⟨r, hr, hinstances, honce _ (by simp), honce _ (by simp)⟩

end Bip300Monitor
