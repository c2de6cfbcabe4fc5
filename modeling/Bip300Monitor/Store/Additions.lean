import Bip300Monitor.Store.Ledger

/-!
# What a command adds

The table of facts only grows, and at its end: a command keeps every fact, and a fact that was not
there has an identity that no fact had before, and is what an event of the command is recorded as
(`Db.exec_adds`). An occurrence that is added is of such a fact, or of one that has the identity of
a recorded row already, and its group is a new one (`Db.exec_occurs`).
-/

namespace Bip300Monitor

open Protobuf Transaction

/-- What is added to the facts, where `recorded` are the rows that events are recorded as. -/
structure Adds (recorded : EventRow → Prop) (s t : Db) : Prop where
  events : s.events ⊆ t.events
  next : s.nextEventId ≤ t.nextEventId
  fresh : ∀ e ∈ t.events, e ∈ s.events ∨
    (s.nextEventId ≤ e.id ∧ ∃ row, recorded row ∧ e = { row with id := e.id })

variable {recorded recorded' : EventRow → Prop} {s t u : Db} {e : EventRow}

instance : Std.Refl (Adds recorded) := ⟨fun _ => ⟨fun _ h => h, le_rfl, fun _ h => .inl h⟩⟩

instance : IsTrans Db (Adds recorded) := ⟨fun _ _ _ h h' =>
  { events := fun _ he => h'.events (h.events he)
    next := h.next.trans h'.next
    fresh := fun e he => by
      rcases h'.fresh e he with he | ⟨hid, hrow⟩
      · exact h.fresh e he
      · exact .inr ⟨h.next.trans hid, hrow⟩ }⟩

theorem Adds.mono (h : Adds recorded s t) (hr : ∀ row, recorded row → recorded' row) :
    Adds recorded' s t where
  events := h.events
  next := h.next
  fresh e he := (h.fresh e he).imp_right fun ⟨hid, row, hrow, heq⟩ => ⟨hid, row, hr row hrow, heq⟩

/-- Facts that stay as they are. -/
theorem Adds.of_eq (hevents : t.events = s.events) (hnext : t.nextEventId = s.nextEventId) :
    Adds recorded s t where
  events := by rw [hevents]; exact fun _ h => h
  next := hnext.ge
  fresh e he := .inl (hevents ▸ he)

theorem SameFacts.adds (h : SameFacts s t) : Adds recorded s t := .of_eq h.events h.nextEventId

theorem SameEvidence.adds (h : SameEvidence s t) : Adds recorded s t := .of_eq h.events h.nextEventId

/-- A fact that was there is told from one that is added by its identity. -/
theorem Adds.mem_of_id_lt (h : Adds recorded s t) {e : EventRow} (he : e ∈ t.events)
    (hid : e.id < s.nextEventId) : e ∈ s.events := by
  rcases h.fresh e he with he | ⟨hle, -⟩
  · exact he
  · exact absurd hid (Nat.not_lt.mpr hle)

/-- The fact of one row. -/
theorem adds_insertFact {row : EventRow} {a : ℕ × Bool} (hrow : recorded row)
    (h : insertFact row s = .ok (a, t)) : Adds recorded s t := by
  rcases (insertFact_eq_ok.mp h).2 with ⟨_, -, -, rfl⟩ | ⟨-, -, -, rfl⟩
  · exact Std.Refl.refl t
  · refine ⟨fun _ he => List.mem_append_left _ he, Nat.le_succ _, fun e he => ?_⟩
    rcases List.mem_append.mp he with he | he
    · exact .inl he
    · obtain rfl := List.mem_singleton.mp he
      exact .inr ⟨le_rfl, row, hrow, rfl⟩

section
variable [Digests]

/-- The rows that the events of a batch are recorded as. -/
def Batch.records (b : Batch) (row : EventRow) : Prop :=
  ∃ event ∈ b.events, RecordedAs b.store b.sidechain b.sidechainInstanceId event row

/-- The rows that the events of a command are recorded as. -/
def Command.records (c : Command) (row : EventRow) : Prop := ∃ b, c.batch = some b ∧ b.records row

theorem adds_insertAll {store : Store} {method : CaptureMethod} {group slot : Option ℕ}
    {id : Option String} {captureSeq n : ℕ} {events : List Event} {cache : InstanceCache}
    (h : insertAll store method group slot id captureSeq events cache s = .ok (n, t)) :
    Adds (fun row => ∃ event ∈ events, RecordedAs store slot id event row) s t := by
  induction events generalizing captureSeq cache s n with
  | nil =>
    obtain ⟨-, rfl⟩ := Tx.pure_eq_ok.mp h
    exact Std.Refl.refl s
  | cons event rest ih =>
    obtain ⟨r, w, hr, hrest⟩ := Tx.bind_eq_ok.mp h
    obtain ⟨m, x, hm, hn⟩ := Tx.bind_eq_ok.mp hrest
    obtain ⟨-, rfl⟩ := Tx.pure_eq_ok.mp hn
    obtain ⟨f, payload, inst, u, v, a, hf, hp, hinst, hsu, hfact, hvw⟩ := insert_inv hr
    have huv : Adds (fun row => ∃ event' ∈ event :: rest, RecordedAs store slot id event' row) u v :=
      adds_insertFact ⟨event, List.mem_cons_self, f, payload, inst, hf, hp, hinst, rfl⟩ hfact
    have hrest := (ih hm).mono fun row ⟨event', hmem, hrow⟩ =>
      (⟨event', List.mem_cons_of_mem event hmem, hrow⟩ :
        ∃ event' ∈ event :: rest, RecordedAs store slot id event' row)
    exact IsTrans.trans _ _ _ (IsTrans.trans _ _ _ (IsTrans.trans _ _ _ hsu.adds huv) hvw.adds) hrest

omit [Digests] in
theorem Batch.Opens.adds {b : Batch} {group : Option ℕ} (h : b.Opens s group t) :
    Adds recorded s t := by
  cases h with
  | alone => exact Std.Refl.refl s
  | group => exact .of_eq rfl rfl

/-- A committed batch adds what its events are recorded as. -/
theorem Batch.Recorded.adds {b : Batch} (h : b.Recorded s t) : Adds b.records s t := by
  obtain ⟨group, r, first, u, n, v, hopens, hreserve, hinsert, hvt⟩ := h.steps
  have hru : Adds b.records r u := (sameFacts_reserveCaptureSequences _ _ hreserve).adds
  have huv : Adds b.records u v := adds_insertAll hinsert
  exact IsTrans.trans _ _ _ (IsTrans.trans _ _ _ (IsTrans.trans _ _ _ hopens.adds hru) huv) hvt.adds

/-- **What a command adds.** -/
theorem Db.exec_adds (startOf : ScopeKey → ℕ) (db : Db) (c : Command) :
    Adds c.records db (db.exec startOf c) := by
  cases db.exec_effect startOf c with
  | same _ heq => exact heq.adds
  | opened _ hok =>
    obtain ⟨-, heq⟩ := initializeIdentity_inv hok
    exact .of_eq heq.events heq.nextEventId
  | closed _ hok =>
    obtain ⟨-, heq⟩ := finishRun_inv hok
    exact .of_eq heq.events heq.nextEventId
  | tip _ _ hok => exact (sameFacts_recordTipObservation _ _ _ _ _ hok).adds
  | batch hb _ hrec => exact hrec.adds.mono fun row hrow => ⟨_, hb, hrow⟩

/-! ### Occurrences -/

omit [Digests] in
/-- The fact is one of the recorded rows, or has been recorded before with the identity of one. -/
def Restates (recorded : EventRow → Prop) (s : Db) (e : EventRow) : Prop :=
  ∃ row, recorded row ∧ ((e ∈ s.events ∧ e.sameIdentity row) ∨ e = { row with id := e.id })

omit [Digests] in
theorem Restates.mono (h : Restates recorded s e) (hr : ∀ row, recorded row → recorded' row) :
    Restates recorded' s e := by
  obtain ⟨row, hrow, he⟩ := h
  exact ⟨row, hr row hrow, he⟩

omit [Digests] in
/-- What is restated later was recorded before, or is of the rows that were added in between. -/
theorem Restates.of_adds (h : Restates recorded t e) (hadds : Adds recorded s t) :
    Restates recorded s e := by
  obtain ⟨row, hrow, ⟨he, hsame⟩ | heq⟩ := h
  · rcases hadds.fresh e he with he | ⟨-, row', hrow', heq⟩
    · exact ⟨row, hrow, .inl ⟨he, hsame⟩⟩
    · exact ⟨row', hrow', .inr heq⟩
  · exact ⟨row, hrow, .inr heq⟩

/-- What is added to the groups and the occurrences, where `label` is that of the group. -/
structure Occurs (recorded : EventRow → Prop) (label : Option SnapshotConsistency) (s t : Db) :
    Prop where
  tables : ∃ groups rows, t.snapshotGroups = s.snapshotGroups ++ groups ∧
    t.observations = s.observations ++ rows ∧
    (∀ g ∈ groups, label = some g.consistency ∧
      ∀ g' ∈ s.snapshotGroups, g'.snapshotGroupId < g.snapshotGroupId) ∧
    ∀ o ∈ rows, (∃ e ∈ t.events, o.eventId = e.id ∧ Restates recorded s e) ∧
      ∀ id, o.snapshotGroupId = some id → ∃ g ∈ groups, g.snapshotGroupId = id

variable {label : Option SnapshotConsistency}

omit [Digests] in
theorem SameEvidence.occurs (h : SameEvidence s t) : Occurs recorded label s t :=
  ⟨[], [], by rw [h.snapshotGroups, List.append_nil], by rw [h.observations, List.append_nil],
    by simp, by simp⟩

omit [Digests] in
theorem le_foldr_max {ns : List ℕ} {n : ℕ} (h : n ∈ ns) : n ≤ ns.foldr max 0 := by
  induction ns with
  | nil => cases h
  | cons m ns ih =>
    rw [List.foldr_cons]
    rcases List.mem_cons.mp h with rfl | h
    · exact le_max_left _ _
    · exact (ih h).trans (le_max_right _ _)

/-- The occurrences of one event. -/
theorem insert_observation {store : Store} {method : CaptureMethod} {group slot : Option ℕ}
    {id : Option String} {captureSeq : ℕ} {event : Event} {cache : InstanceCache}
    {r : ℕ × InstanceCache}
    (h : insert store method group slot id captureSeq event cache s = .ok (r, t)) :
    t.snapshotGroups = s.snapshotGroups ∧ ∃ o, t.observations = s.observations ++ [o] ∧
      o.snapshotGroupId = group ∧ ∃ e ∈ t.events, o.eventId = e.id ∧
        Restates (RecordedAs store slot id event) s e := by
  obtain ⟨f, payload, authoritative, _, u, resolved, fact, v, hf, hp, -, hupd, hres, hfact, hobs,
    -⟩ := insert_pieces h
  obtain ⟨hsu, -⟩ := updateSidechainInstances_inv hupd
  have hfacts := sameFacts_updateSidechainInstances _ _ _ _ _ hupd
  obtain ⟨-, hobs⟩ := Tx.require_bind_eq_ok.mp (Tx.read_bind_eq_ok.mp hobs)
  obtain rfl := Tx.modify_eq_ok.mp hobs
  have hrow : RecordedAs store slot id event (factRow store event f payload resolved.1) :=
    ⟨f, payload, resolved.1, hf, hp, resolveInstance_instanceOf hres, rfl⟩
  rcases (insertFact_eq_ok.mp hfact).2 with ⟨e, he, rfl, rfl⟩ | ⟨-, -, rfl, rfl⟩
  · refine ⟨hsu.snapshotGroups, _, congrArg (· ++ _) hsu.observations, rfl, e,
      List.mem_of_find?_eq_some he, rfl, _, hrow, .inl ⟨?_, by simpa using List.find?_some he⟩⟩
    rw [← hfacts.events]
    exact List.mem_of_find?_eq_some he
  · exact ⟨hsu.snapshotGroups, _, congrArg (· ++ _) hsu.observations, rfl, _,
      List.mem_append_right _ (List.mem_singleton_self _), rfl, _, hrow, .inr rfl⟩

/-- The occurrences of a batch are in its group. -/
theorem insertAll_observations {store : Store} {method : CaptureMethod} {group slot : Option ℕ}
    {id : Option String} {captureSeq n : ℕ} {events : List Event} {cache : InstanceCache}
    (h : insertAll store method group slot id captureSeq events cache s = .ok (n, t)) :
    t.snapshotGroups = s.snapshotGroups ∧ ∃ rows, t.observations = s.observations ++ rows ∧
      ∀ o ∈ rows, o.snapshotGroupId = group ∧ ∃ e ∈ t.events, o.eventId = e.id ∧
        Restates (fun row => ∃ event ∈ events, RecordedAs store slot id event row) s e := by
  induction events generalizing captureSeq cache s n with
  | nil =>
    obtain ⟨-, rfl⟩ := Tx.pure_eq_ok.mp h
    exact ⟨rfl, [], (List.append_nil _).symm, by simp⟩
  | cons event rest ih =>
    obtain ⟨r, u, hr, hrest⟩ := Tx.bind_eq_ok.mp h
    obtain ⟨m, v, hm, hn⟩ := Tx.bind_eq_ok.mp hrest
    obtain ⟨-, rfl⟩ := Tx.pure_eq_ok.mp hn
    obtain ⟨hgroups, o, ho, hgroup, e, he, hid, hrestates⟩ := insert_observation hr
    obtain ⟨hgroups', rows, hrows, hall⟩ := ih hm
    have hlater := (adds_insertAll hm).events
    have hfirst : Adds (fun row => ∃ event' ∈ event :: rest, RecordedAs store slot id event' row)
        s u := by
      refine (adds_insertAll (insertAll_singleton hr)).mono fun row ⟨event', hmem, hrow⟩ => ?_
      obtain rfl := List.mem_singleton.mp hmem
      exact ⟨event', List.mem_cons_self, hrow⟩
    refine ⟨hgroups'.trans hgroups, o :: rows, ?_, fun o' ho' => ?_⟩
    · rw [hrows, ho, List.append_assoc, List.singleton_append]
    · rcases List.mem_cons.mp ho' with rfl | ho'
      · exact ⟨hgroup, e, hlater he, hid,
          hrestates.mono fun row hrow => ⟨event, List.mem_cons_self, hrow⟩⟩
      · obtain ⟨hgroup', e', he', hid', hrestates'⟩ := hall o' ho'
        have hmore := hrestates'.mono fun row ⟨event', hmem, hrow⟩ =>
          (⟨event', List.mem_cons_of_mem event hmem, hrow⟩ :
            ∃ event' ∈ event :: rest, RecordedAs store slot id event' row)
        exact ⟨hgroup', e', he', hid', hmore.of_adds hfirst⟩

/-- A batch that is no snapshot opens no group. -/
theorem Batch.Recorded.occurs {b : Batch} (h : b.Recorded s t) (hlabel : b.label = none) :
    Occurs b.records none s t := by
  obtain ⟨group, r, first, u, n, v, hopens, hreserve, hinsert, hvt⟩ := h.steps
  cases hopens with
  | group hsome =>
    rw [hlabel] at hsome
    cases hsome
  | alone =>
    have hu := sameEvidence_reserve hreserve
    obtain ⟨hgroups, rows, hrows, hall⟩ := insertAll_observations hinsert
    refine ⟨[], rows, ?_, ?_, by simp, fun o ho => ?_⟩
    · rw [hvt.snapshotGroups, hgroups, hu.snapshotGroups, List.append_nil]
    · rw [hvt.observations, hrows, hu.observations]
    · obtain ⟨hgroup, e, he, hid, hrestates⟩ := hall o ho
      refine ⟨⟨e, hvt.events ▸ he, hid, ?_⟩, fun id hsome => ?_⟩
      · exact hrestates.of_adds (.of_eq hu.events hu.nextEventId)
      · rw [hgroup] at hsome
        cases hsome

/-- A snapshot opens a group that no occurrence was in. -/
theorem recordSnapshot_occurs {store : Store} {events : List Event} {method : CaptureMethod}
    {metadata : SnapshotMetadata} {n : ℕ}
    (h : recordSnapshot store events method metadata s = .ok (n, t)) :
    Occurs (Command.recordSnapshot store events method metadata).records
      (some metadata.consistency) s t := by
  by_cases hne : events = []
  · rw [recordSnapshot, if_pos hne] at h
    obtain ⟨-, rfl⟩ := Tx.pure_eq_ok.mp h
    exact (Std.Refl.refl s : SameEvidence s s).occurs
  · rw [recordSnapshot, if_neg hne] at h
    obtain ⟨_, -, h⟩ := Tx.lift_bind_eq_ok.mp h
    obtain ⟨_, -, h⟩ := Tx.lift_bind_eq_ok.mp h
    obtain ⟨_, -, h⟩ := Tx.lift_bind_eq_ok.mp h
    obtain ⟨_, -, h⟩ := Tx.lift_bind_eq_ok.mp h
    obtain ⟨_, -, h⟩ := Tx.lift_bind_eq_ok.mp h
    obtain ⟨_, -, h⟩ := Tx.lift_bind_eq_ok.mp h
    obtain ⟨-, h⟩ := Tx.require_bind_eq_ok.mp h
    obtain ⟨group, r, hgroup, h⟩ := Tx.bind_eq_ok.mp h
    obtain ⟨first, u, hreserve, h⟩ := Tx.bind_eq_ok.mp h
    obtain ⟨inserted, v, hinsert, h⟩ := Tx.bind_eq_ok.mp h
    obtain ⟨_, w, hstatus, h⟩ := Tx.bind_eq_ok.mp h
    obtain ⟨-, rfl⟩ := Tx.pure_eq_ok.mp h
    rw [insertSnapshotGroup, Tx.require_bind_eq_ok, Tx.read_bind_eq_ok, Tx.modify_bind_eq_ok,
      Tx.pure_eq_ok] at hgroup
    obtain ⟨-, rfl, rfl⟩ := hgroup
    have hu := sameEvidence_reserve hreserve
    have hvw := sameEvidence_updateExtractorStatus _ _ hstatus
    obtain ⟨hgroups, rows, hrows, hall⟩ := insertAll_observations hinsert
    refine ⟨[_], rows, (hvw.snapshotGroups.trans hgroups).trans hu.snapshotGroups, ?_, ?_,
      fun o ho => ?_⟩
    · rw [hvw.observations, hrows, hu.observations]
    · intro g hg
      obtain rfl := List.mem_singleton.mp hg
      refine ⟨rfl, fun g' hg' => Nat.lt_succ_of_le ?_⟩
      exact le_foldr_max (List.mem_map_of_mem hg')
    · obtain ⟨hgroup, e, he, hid, hrestates⟩ := hall o ho
      refine ⟨⟨e, hvw.events ▸ he, hid, ?_⟩, fun id hsome => ?_⟩
      · exact (hrestates.of_adds (.of_eq hu.events hu.nextEventId)).mono fun row hrow =>
          ⟨_, rfl, hrow⟩
      · rw [hgroup] at hsome
        exact ⟨_, List.mem_singleton_self _, Option.some.inj hsome⟩

omit [Digests] in
/-- A batch without a label is no snapshot. -/
theorem Command.label_eq_none {c : Command} {b : Batch}
    (hc : ¬ ∃ store events method metadata, c = .recordSnapshot store events method metadata)
    (hb : c.batch = some b) : b.label = none := by
  cases c <;> simp only [Command.batch, Option.some.injEq, reduceCtorEq] at hb <;> subst hb
  case recordSnapshot => exact absurd ⟨_, _, _, _, rfl⟩ hc
  all_goals rfl

/-- **What a command adds to the occurrences.** -/
theorem Db.exec_occurs (startOf : ScopeKey → ℕ) (db : Db) (c : Command) :
    Occurs c.records (c.batch.bind (·.label)) db (db.exec startOf c) := by
  by_cases hsnapshot : ∃ store events method metadata, c = .recordSnapshot store events method metadata
  · obtain ⟨store, events, method, metadata, rfl⟩ := hsnapshot
    rcases Tx.commit_snd_cases (recordSnapshot store events method metadata) db with
      ⟨_, t, hok, hcommit⟩ | ⟨e, -, hcommit⟩
    · rw [Db.exec, hcommit]
      exact recordSnapshot_occurs hok
    · rw [Db.exec, hcommit]
      exact (Std.Refl.refl db : SameEvidence db db).occurs
  · cases db.exec_effect startOf c with
    | same _ heq => exact heq.occurs
    | opened _ hok =>
      obtain ⟨-, heq⟩ := initializeIdentity_inv hok
      exact ⟨[], [], by rw [heq.snapshotGroups, List.append_nil],
        by rw [heq.observations, List.append_nil], by simp, by simp⟩
    | closed _ hok =>
      obtain ⟨-, heq⟩ := finishRun_inv hok
      exact ⟨[], [], by rw [heq.snapshotGroups, List.append_nil],
        by rw [heq.observations, List.append_nil], by simp, by simp⟩
    | tip _ _ hok =>
      obtain ⟨_, _, _, u, -, -, hreserve, heq⟩ := recordTipObservation_inv hok
      have hu := sameEvidence_reserve hreserve
      exact ⟨[], [], by rw [heq.snapshotGroups, List.append_nil]; exact hu.snapshotGroups,
        by rw [heq.observations, List.append_nil]; exact hu.observations, by simp, by simp⟩
    | batch hb _ hrec =>
      have hlabel : Batch.label _ = none := c.label_eq_none hsnapshot hb
      rw [hb, Option.bind_some, hlabel]
      obtain ⟨groups, rows, hgroups, hrows, hnew, hall⟩ := (hrec.occurs hlabel).tables
      refine ⟨groups, rows, hgroups, hrows, hnew, fun o ho => ?_⟩
      obtain ⟨⟨e, he, hid, hrestates⟩, hgroup⟩ := hall o ho
      exact ⟨⟨e, he, hid, hrestates.mono fun row hrow => ⟨_, hb, hrow⟩⟩, hgroup⟩

end

end Bip300Monitor
