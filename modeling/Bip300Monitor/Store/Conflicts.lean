import Bip300Monitor.Store.Effects

/-!
# Conflicts

Two facts of a scope that disagree about a block are a retained conflict, and there is no
other. So the two notions of ambiguity, the rows of `event_conflict` and two facts that
name one block hash, are the same, whichever way the facts came.

## What is proved

* `Db.Judged` — the table of conflicts has one row for each two facts that disagree, in
  every state (`Db.exec_judged`);
* `completes_without_conflict` — a scope is completed and its blocks are certified only
  when no conflict is retained in it.
-/

namespace Bip300Monitor

open Protobuf Transaction Runs

/-- The row is of two facts that disagree about a block. -/
def EventConflict.isOf (c : EventConflict) (e e' : EventRow) : Prop :=
  c.datasetId = e'.datasetId ∧ c.firstEventId = e.id ∧ c.conflictingEventId = e'.id

/-- What the tables of facts and conflicts always are. -/
structure Db.Judged (db : Db) : Prop where
  sound : db.Sound
  /-- A retained conflict is of two recorded facts that disagree. -/
  backed : ∀ c ∈ db.conflicts, ∃ e ∈ db.events, ∃ e' ∈ db.events,
    c.isOf e e' ∧ e'.kind.isBlockFact ∧ e.conflictsWith e'
  conflicts_nodup : db.conflicts.Nodup

theorem Db.Judged.empty : Db.empty.Judged where
  sound := .empty
  backed := by simp [Db.empty]
  conflicts_nodup := List.nodup_nil

theorem Db.Judged.congr {s t : Db} (hs : s.Judged) (hevents : t.events = s.events)
    (hnext : t.nextEventId = s.nextEventId) (hconflicts : t.conflicts = s.conflicts) :
    t.Judged where
  sound := ⟨by rw [hevents, hnext]; exact hs.sound.id_lt, by rw [hevents]; exact hs.sound.id_nodup,
    by rw [hevents]; exact hs.sound.identity,
    by rw [hevents, hconflicts]; exact hs.sound.conflict⟩
  backed := by rw [hevents, hconflicts]; exact hs.backed
  conflicts_nodup := by rw [hconflicts]; exact hs.conflicts_nodup

/-- The rows of facts are told apart by their ids. -/
theorem Db.Sound.eq_of_id {db : Db} (h : db.Sound) {e e' : EventRow} (he : e ∈ db.events)
    (he' : e' ∈ db.events) (hid : e.id = e'.id) : e = e' :=
  List.inj_on_of_nodup_map h.id_nodup he he' hid

/-- A new fact brings its conflicts to light, each once. -/
theorem Db.Judged.addFact {db : Db} {row : EventRow} (h : db.Judged)
    (hrow : db.recordedFact row = none) : (db.addFact row).Judged where
  sound := (Grows.addFact hrow).sound h.sound
  backed c hc := by
    rcases List.mem_append.mp hc with hc | hc
    · obtain ⟨e, he, e', he', hof⟩ := h.backed c hc
      exact ⟨e, List.mem_append_left _ he, e', List.mem_append_left _ he', hof⟩
    · unfold observeBlockFact at hc
      split_ifs at hc with hkind
      · obtain ⟨e, he, rfl⟩ := List.mem_map.mp hc
        obtain ⟨he, hconf⟩ := List.mem_filter.mp he
        exact ⟨e, List.mem_append_left _ he, _,
          List.mem_append_right _ (List.mem_singleton_self _), ⟨rfl, rfl, rfl⟩, hkind,
          of_decide_eq_true hconf⟩
      · cases hc
  conflicts_nodup := by
    refine List.nodup_append.mpr ⟨h.conflicts_nodup, ?_, fun c hc c' hc' heq => ?_⟩
    · unfold observeBlockFact
      split_ifs
      · -- the ids of the facts tell the new rows apart
        have hids : ((db.events.filter fun e => decide
            (e.conflictsWith { row with id := db.nextEventId })).map EventRow.id).Nodup :=
          h.sound.id_nodup.sublist (List.filter_sublist.map _)
        refine List.Nodup.of_map EventConflict.firstEventId ?_
        rw [List.map_map]
        exact hids
      · exact List.nodup_nil
    · -- no earlier row is about the new fact
      obtain ⟨e, he, e', he', ⟨-, -, hid⟩, -⟩ := h.backed c hc
      have hlt := h.sound.id_lt e' he'
      unfold observeBlockFact at hc'
      split_ifs at hc'
      · obtain ⟨f, -, rfl⟩ := List.mem_map.mp hc'
        rw [heq] at hid
        simp only at hid
        omega
      · cases hc'

section
variable [Digests]

/-- A batch of events judges its facts. -/
theorem judged_insertAll {store : Store} {method : CaptureMethod} {group slot : Option ℕ}
    {id : Option String} {captureSeq n : ℕ} {events : List Event} {cache : InstanceCache}
    {s t : Db} (hs : s.Judged)
    (h : insertAll store method group slot id captureSeq events cache s = .ok (n, t)) :
    t.Judged := by
  induction events generalizing captureSeq cache s n with
  | nil =>
    obtain ⟨-, rfl⟩ := Tx.pure_eq_ok.mp h
    exact hs
  | cons event rest ih =>
    obtain ⟨r, w, hr, hrest⟩ := Tx.bind_eq_ok.mp h
    obtain ⟨m, x, hm, hn⟩ := Tx.bind_eq_ok.mp hrest
    obtain ⟨-, rfl⟩ := Tx.pure_eq_ok.mp hn
    obtain ⟨_, _, _, u, v, _, -, -, -, hsu, hfact, hvw⟩ := insert_inv hr
    have hu : u.Judged := hs.congr hsu.events hsu.nextEventId hsu.conflicts
    have hv : v.Judged := by
      rcases (insertFact_eq_ok.mp hfact).2 with ⟨e, -, -, rfl⟩ | ⟨hrow, -, -, rfl⟩
      · exact hu
      · exact hu.addFact hrow
    exact ih (hv.congr hvw.events hvw.nextEventId hvw.conflicts) hm

/-- **Every command judges the facts it records.** -/
theorem Db.exec_judged (startOf : ScopeKey → ℕ) (db : Db) (c : Command) (h : db.Judged) :
    (db.exec startOf c).Judged := by
  have same {s t : Db} (hs : s.Judged) (heq : SameEvidence s t) : t.Judged :=
    hs.congr heq.events heq.nextEventId heq.conflicts
  have runs {s : Db} (hs : s.Judged) (rows : List ExtractorRun) : Db.Judged { s with runs := rows } :=
    hs.congr rfl rfl rfl
  cases db.exec_effect startOf c with
  | same _ heq => exact same h heq
  | opened _ hok => exact same (runs h _) (initializeIdentity_inv hok).2
  | closed _ hok => exact same (runs h _) (finishRun_inv hok).2
  | tip _ _ hok =>
    obtain ⟨_, _, _, u, -, -, hreserve, ht⟩ := recordTipObservation_inv hok
    have hu : u.Judged := same (runs h _) (sameEvidence_reserve hreserve)
    exact hu.congr ht.events ht.nextEventId ht.conflicts
  | batch _ _ hrec =>
    obtain ⟨group, r, first, u, n, v, hopens, hreserve, hinsert, hvt⟩ := hrec.steps
    have hr : r.Judged := by
      cases hopens with
      | alone => exact h
      | group => exact h.congr rfl rfl rfl
    have hu : u.Judged := same (runs hr _) (sameEvidence_reserve hreserve)
    exact same (judged_insertAll hu hinsert) hvt

/-! ### Completing -/

omit [Digests] in
/-- No conflict is about a fact of a scope without a retained conflict. -/
theorem Db.Judged.no_conflict {db : Db} (h : db.Judged) {k : ScopeKey}
    (hk : ¬ db.retainsConflict k) {e : EventRow} (he : e ∈ db.events) (hs : e.inScope k)
    {c : EventConflict} (hc : c ∈ db.conflicts) :
    c.firstEventId ≠ e.id ∧ c.conflictingEventId ≠ e.id := by
  obtain ⟨f, hf, f', hf', ⟨-, hfirst, hsecond⟩, -, hconf⟩ := h.backed c hc
  constructor
  · intro hid
    exact hk ⟨c, hc, e, he, hid.symm, hs⟩
  · intro hid
    obtain rfl : f' = e := h.sound.eq_of_id hf' he (hsecond.symm.trans hid)
    -- the first fact of the conflict is of the same scope
    have hfs : f.inScope k := by
      obtain ⟨h₁, h₂, h₃, h₄, h₅, h₆⟩ := hs
      obtain ⟨h₁', h₂', h₃', h₄', h₅', h₆'⟩ := hconf.1
      exact ⟨h₁'.trans h₁, h₂'.trans h₂, h₃'.trans h₃, h₄'.trans h₄, h₅'.trans h₅, h₆'.trans h₆⟩
    exact hk ⟨c, hc, f, hf, hfirst.symm, hfs⟩

omit [Digests] in
/-- Two facts of a scope that name one block are a retained conflict. -/
theorem Db.Sound.conflict_of_blockHash {db : Db} (h : db.Sound) {k : ScopeKey} {e e' : EventRow}
    (he : e ∈ db.events) (he' : e' ∈ db.events) (hs : e.inScope k) (hs' : e'.inScope k)
    (hhash : e.blockHash = e'.blockHash) (hsome : e.blockHash ≠ none) (hne : e ≠ e') :
    ∃ c ∈ db.conflicts, (c.firstEventId = e.id ∧ c.conflictingEventId = e'.id) ∨
      (c.firstEventId = e'.id ∧ c.conflictingEventId = e.id) := by
  have hsha : e.factSha256 ≠ e'.factSha256 := fun hsha =>
    hne (h.identity e he e' he' ⟨hs.sameScope hs', hhash, hsha⟩)
  have hkind {f : EventRow} (hf : f.inScope k) : f.kind.isBlockFact := by
    rw [hf.2.2.2.1]
    exact k.stream.kind_isBlockFact
  rcases Nat.lt_trichotomy e.id e'.id with hlt | heq | hgt
  · obtain ⟨c, hc, hids⟩ := h.conflict e he e' he' (hkind hs')
      ⟨hs.sameScope hs', hhash, hsome, hlt, hsha⟩
    exact ⟨c, hc, .inl hids⟩
  · exact absurd (h.eq_of_id he he' heq) hne
  · obtain ⟨c, hc, hids⟩ := h.conflict e' he' e he (hkind hs)
      ⟨hs'.sameScope hs, hhash.symm, hhash ▸ hsome, hgt, hsha.symm⟩
    exact ⟨c, hc, .inr hids⟩

omit [Digests] in
/-- A page certifies blocks of its own scope only. -/
theorem Db.certify_scope {db : Db} {k : ScopeKey} {row : CoverageRow} {x : CertifiedRow}
    (hx : x ∈ (db.certify k row).certified) : x ∈ db.certified ∨ x.scope = k := by
  rcases mem_foldl_insertCertified hx with hx | hx
  · exact .inl hx
  · obtain ⟨p, -, hp⟩ := List.mem_filterMap.mp hx
    exact .inr (PathRow.certifiedRow_eq_some hp).1

/-- **What a page can complete**: nothing, or its own scope, in which no conflict is
retained then. -/
theorem recordHistoryPageTx_completes {store : Store} {events : List Event} {page : HistoryPage}
    {r : ℕ × Bool} {s t : Db} (h : recordHistoryPageTx store events page s = .ok (r, t)) :
    (t.certified = s.certified ∧ ∀ k row, t.coverage k = some row → row.status = .complete →
        s.coverage k = some row) ∨
      (¬ t.retainsConflict (store.key page.scope) ∧
        (∀ x ∈ t.certified, x ∈ s.certified ∨ x.scope = store.key page.scope) ∧
        ∀ k, k ≠ store.key page.scope → t.coverage k = s.coverage k) := by
  obtain ⟨inserted, conflict⟩ := r
  obtain ⟨-, expectedHeight, next, row, u, -, hnext, hinsert, hconflict, -, -, -, hw⟩ :=
    recordHistoryPageTx_inv h
  have hsu : Grows s u := grows_insertPage _ _ _ hinsert
  by_cases hstatus : (row.afterPage ⟨page.expectedNext.hash, expectedHeight⟩ next conflict
      inserted).status = .complete
  · -- the page is the last, and no conflict is retained in the scope
    obtain ⟨-, w, hcert, rfl⟩ := writeCoverage_inv hw
    obtain ⟨rfl, rfl⟩ : conflict = false ∧ next = none := by
      cases conflict <;> cases next <;> simp_all [CoverageRow.afterPage]
    have hfinal : page.next = none := by
      rcases optionalBlockParts_eq_ok hnext with ⟨h, -⟩ | ⟨_, _, -, -, h⟩
      · exact h
      · cases h
    have hno : ¬ u.retainsConflict (store.key page.scope) := by
      intro hk
      exact of_decide_eq_false hconflict.symm (.inr ⟨by rw [hfinal]; rfl, hk⟩)
    obtain ⟨-, -, -, rfl⟩ := (certifyHistory_eq_ok hstatus).mp hcert
    refine .inr ⟨hno, fun x hx => ?_, fun k hk => ?_⟩
    · rcases Db.certify_scope hx with hx | hx
      · exact .inl (hsu.certified ▸ hx)
      · exact .inr hx
    · rw [Db.setCoverage_coverage_of_ne _ _ hk]
      exact congrFun hsu.coverage k
  · obtain ⟨-, rfl⟩ := (writeCoverage_eq_ok hstatus).mp hw
    refine .inl ⟨hsu.certified, fun k row' hrow' hcomplete => ?_⟩
    by_cases hk : k = store.key page.scope
    · subst hk
      rw [Db.setCoverage_coverage_self] at hrow'
      cases hrow'
      exact absurd hcomplete hstatus
    · rw [Db.setCoverage_coverage_of_ne _ _ hk, hsu.coverage] at hrow'
      exact hrow'

/-- The transaction completes the scope, or certifies blocks for it. -/
def Completes (k : ScopeKey) (s t : Db) : Prop :=
  (∃ row, t.coverage k = some row ∧ row.status = .complete ∧ s.coverage k ≠ some row) ∨
    ∃ x ∈ t.certified, x.scope = k ∧ x ∉ s.certified

/-- **No completion over a retained conflict.** After any sequence of commands, a command
that completes a scope or certifies blocks for it leaves no conflict of a fact of the scope;
and two facts of a scope that name one block are a retained conflict. -/
theorem completes_without_conflict (startOf : ScopeKey → ℕ) (cs : List Command) (db : Db)
    (h : run (Db.step startOf) Db.empty cs = some db) :
    (∀ c k, Completes k db (db.exec startOf c) → ∀ e ∈ (db.exec startOf c).events, e.inScope k →
      ∀ x ∈ (db.exec startOf c).conflicts, x.firstEventId ≠ e.id ∧ x.conflictingEventId ≠ e.id) ∧
    ∀ k, ∀ e ∈ db.events, ∀ e' ∈ db.events, e.inScope k → e'.inScope k → e ≠ e' →
      e.blockHash = e'.blockHash → e.blockHash ≠ none →
        ∃ x ∈ db.conflicts, (x.firstEventId = e.id ∧ x.conflictingEventId = e'.id) ∨
          (x.firstEventId = e'.id ∧ x.conflictingEventId = e.id) := by
  have hdb : db.Judged := by
    refine run_invariant (fun s c t hs hstep => ?_) Db.Judged.empty h
    cases hstep
    exact s.exec_judged startOf c hs
  refine ⟨fun c k hcompletes e he hs x hx => ?_, fun k e he e' he' hs hs' hne hhash hsome =>
    hdb.sound.conflict_of_blockHash he he' hs hs' hhash hsome hne⟩
  have ht : (db.exec startOf c).Judged := db.exec_judged startOf c hdb
  suffices hno : ¬ (db.exec startOf c).retainsConflict k from ht.no_conflict hno he hs hx
  cases db.exec_covers startOf c with
  | same hcoverage hcertified =>
    rcases hcompletes with ⟨row, hrow, -, hnew⟩ | ⟨x, hx, -, hnew⟩
    · exact absurd (hcoverage ▸ hrow) hnew
    · exact absurd (hcertified ▸ hx) hnew
  | @set k' row' _ hrow' _ heq =>
    rw [heq] at hcompletes
    rcases hcompletes with ⟨row, hrow, hcomplete, hnew⟩ | ⟨x, hx, -, hnew⟩
    · by_cases hk : k = k'
      · subst hk
        rw [Db.setCoverage_coverage_self] at hrow
        cases hrow
        exact absurd hcomplete hrow'
      · rw [Db.setCoverage_coverage_of_ne _ _ hk] at hrow
        exact absurd hrow hnew
    · exact absurd hx hnew
  | @page store _ page _ _ hok =>
    rcases recordHistoryPageTx_completes hok with ⟨hcertified, hcoverage⟩ | ⟨hno, hcertified, hcoverage⟩
    · rcases hcompletes with ⟨row, hrow, hcomplete, hnew⟩ | ⟨x, hx, -, hnew⟩
      · exact absurd (hcoverage k row hrow hcomplete) hnew
      · exact absurd (hcertified ▸ hx) hnew
    · rcases hcompletes with ⟨row, hrow, -, hnew⟩ | ⟨x, hx, hk, hnew⟩
      · have hk : k = store.key page.scope := by
          by_contra hk
          exact hnew (hcoverage k hk ▸ hrow)
        rw [hk]
        exact hno
      · rcases hcertified x hx with hold | hscope
        · exact absurd hold hnew
        · rw [← hk, hscope]
          exact hno

end

/-- The node's import of two blocks completes its scope, over no conflict. -/
theorem completes_without_conflict_twoBlocks :
    ∃ db, run (@Db.step TwoBlocks.digests fun _ => 5) Db.empty (TwoBlocks.commands.take 2) =
        some db ∧
      ∃ c ∈ TwoBlocks.commands.getLast?, ∃ k,
        Completes k db (@Db.exec TwoBlocks.digests (fun _ => 5) db c) ∧
        ∀ e ∈ (@Db.exec TwoBlocks.digests (fun _ => 5) db c).events, e.inScope k →
          ∀ x ∈ (@Db.exec TwoBlocks.digests (fun _ => 5) db c).conflicts,
            x.firstEventId ≠ e.id ∧ x.conflictingEventId ≠ e.id := by
  let _ := TwoBlocks.digests
  let page := TwoBlocks.commands.getLast (by simp [TwoBlocks.commands])
  let k : ScopeKey := ⟨0, 9, .node, .mainchainBlock, none, none⟩
  have hrun : ((run (Db.step fun _ => 5) Db.empty (TwoBlocks.commands.take 2)).filter fun db =>
      ((db.exec (fun _ => 5) page).coverage k).map (·.status) = some .complete ∧
        (db.coverage k).map (·.status) = some .running).isSome := by
    decide +kernel
  obtain ⟨db, hdb⟩ := Option.isSome_iff_exists.mp hrun
  obtain ⟨hdb, hstatus⟩ := Option.filter_eq_some_iff.mp hdb
  obtain ⟨hafter, hbefore⟩ := of_decide_eq_true hstatus
  obtain ⟨row, hrow, hcomplete⟩ := Option.map_eq_some_iff.mp hafter
  have hcompletes : Completes k db (db.exec (fun _ => 5) page) := by
    refine .inl ⟨row, hrow, hcomplete, fun hsame => ?_⟩
    rw [hsame, Option.map_some, hcomplete] at hbefore
    cases hbefore
  exact ⟨db, hdb, page, rfl, k, hcompletes,
    (completes_without_conflict _ _ db hdb).1 page k hcompletes⟩

end Bip300Monitor
