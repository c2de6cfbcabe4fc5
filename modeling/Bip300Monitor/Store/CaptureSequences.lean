import Bip300Monitor.Store.Ledger
import Mathlib.Data.List.Forall2

/-!
# Sequence numbers

The occurrences and the tip observations of a run share one counter, of which every
transaction takes its range at once. So their numbers are `1, 2, …` without a gap, in
the order of the transactions and, within one, of its events.

## The model

`Captured` is the record and what has been captured, in order: the events of every
batch that was committed and the tips.

## What is proved

* `Aligned.append` — a transaction that takes the next range and fills it keeps the rows
  of a run aligned with what the run captured;
* `capture_sequences_dense` — so they are after every sequence of commands, and a closed
  run captures nothing more.
-/

namespace Bip300Monitor

open Protobuf Transaction Runs

/-! ### Numbered captures -/

/-- The event captured, if it is one. -/
def Capture.event? : Capture → Option Event
  | .event e => some e
  | .tip .. => none

/-- The tip captured, if it is one. -/
def Capture.tip? : Capture → Option (ObservedBlock × Option ObservedBlock)
  | .event _ => none
  | .tip block previous => some (block, previous)

/-- The captures of one kind, with their numbers. -/
def numbered {α : Type} (kind : Capture → Option α) (captures : List (Capture × ℕ)) :
    List (α × ℕ) :=
  captures.filterMap fun p => (kind p.1).map fun a => (a, p.2)

theorem numbered_append {α : Type} (kind : Capture → Option α) (xs ys : List (Capture × ℕ)) :
    numbered kind (xs ++ ys) = numbered kind xs ++ numbered kind ys :=
  List.filterMap_append

/-- A batch captures its events. -/
theorem numbered_events (events : List Event) (first : ℕ) :
    numbered Capture.event? ((events.map Capture.event).zipIdx first) = events.zipIdx first := by
  induction events generalizing first with
  | nil => rfl
  | cons event rest ih => exact congrArg ((event, first) :: ·) (ih (first + 1))

/-- A batch captures no tip. -/
theorem numbered_events_tip (events : List Event) (first : ℕ) :
    numbered Capture.tip? ((events.map Capture.event).zipIdx first) = [] := by
  induction events generalizing first with
  | nil => rfl
  | cons event rest ih => exact ih (first + 1)

/-- Events and tips together have all the numbers. -/
theorem perm_numbered (captures : List (Capture × ℕ)) :
    ((numbered Capture.event? captures).map (·.2) ++
      (numbered Capture.tip? captures).map (·.2)).Perm (captures.map (·.2)) := by
  induction captures with
  | nil => exact List.Perm.nil
  | cons p rest ih =>
    obtain ⟨capture, n⟩ := p
    cases capture with
    | event event => exact ih.cons n
    | tip tip previous => exact (List.perm_middle).trans (ih.cons n)

/-! ### Rows and captures -/

section
variable [Digests]

/-- The occurrence is of the event: it has its time, and its fact has its payload and its
block. -/
def EventObservation.isOf (o : EventObservation) (db : Db) (event : Event) : Prop :=
  o.observedAt = event.timestamp ∧ ∃ e ∈ db.events, e.id = o.eventId ∧
    e.blockHash = event.observedAtBlock.map (·.hash) ∧
    event.monitorEvent.map Digests.factSha256 = some e.factSha256

/-- The tip observation is of the tip and of the one before it. -/
def TipObservation.isOf (o : TipObservation) (p : ObservedBlock × Option ObservedBlock) : Prop :=
  p.1 = o.tip.observed ∧ p.2 = o.previousObserved.map Block.observed

/-- The last number a run has taken. -/
def Db.lastCaptureSeq (db : Db) (run : Uuid) : ℕ :=
  ((db.runs.find? (·.runId = run)).map (·.lastCaptureSeq)).getD 0

/-- The rows of a run are, in order, what the run captured, numbered from one. -/
structure Aligned (db : Db) (run : Uuid) (captures : List Capture) : Prop where
  last : db.lastCaptureSeq run = captures.length
  occurrences : List.Forall₂ (fun o p => o.captureSeq = p.2 ∧ o.isOf db p.1)
    (db.observations.filter (·.runId = run)) (numbered Capture.event? (captures.zipIdx 1))
  tips : List.Forall₂ (fun o p => o.captureSeq = p.2 ∧ o.isOf p.1)
    (db.tipObservations.filter (·.runId = run)) (numbered Capture.tip? (captures.zipIdx 1))

/-- **The next range of numbers, filled.** -/
theorem Aligned.append {s t : Db} {run : Uuid} {captures : List Capture} (new : List Capture)
    (observations : List EventObservation) (tips : List TipObservation)
    (h : Aligned s run captures) (hevents : s.events ⊆ t.events)
    (hlast : t.lastCaptureSeq run = s.lastCaptureSeq run + new.length)
    (hobservations : t.observations.filter (·.runId = run) =
      s.observations.filter (·.runId = run) ++ observations)
    (htips : t.tipObservations.filter (·.runId = run) =
      s.tipObservations.filter (·.runId = run) ++ tips)
    (hnewObservations : List.Forall₂ (fun o p => o.captureSeq = p.2 ∧ o.isOf t p.1) observations
      (numbered Capture.event? (new.zipIdx (s.lastCaptureSeq run + 1))))
    (hnewTips : List.Forall₂ (fun o p => o.captureSeq = p.2 ∧ o.isOf p.1) tips
      (numbered Capture.tip? (new.zipIdx (s.lastCaptureSeq run + 1)))) :
    Aligned t run (captures ++ new) := by
  have hnext : 1 + captures.length = s.lastCaptureSeq run + 1 := by
    rw [h.last]
    omega
  refine ⟨by rw [hlast, h.last, List.length_append], ?_, ?_⟩
  · rw [hobservations, List.zipIdx_append, numbered_append, hnext]
    refine List.rel_append (h.occurrences.imp fun o p hop => ?_) hnewObservations
    obtain ⟨hseq, htime, e, he, hfact⟩ := hop
    exact ⟨hseq, htime, e, hevents he, hfact⟩
  · rw [htips, List.zipIdx_append, numbered_append, hnext]
    exact List.rel_append h.tips hnewTips

/-- A transaction that captures nothing for the run. -/
theorem Aligned.idle {s t : Db} {run : Uuid} {captures : List Capture}
    (h : Aligned s run captures) (hevents : s.events ⊆ t.events)
    (hlast : t.lastCaptureSeq run = s.lastCaptureSeq run)
    (hobservations : t.observations.filter (·.runId = run) =
      s.observations.filter (·.runId = run))
    (htips : t.tipObservations.filter (·.runId = run) =
      s.tipObservations.filter (·.runId = run)) : Aligned t run captures := by
  have happend := h.append [] [] [] hevents
    (by rw [hlast]; rfl) (by rw [hobservations, List.append_nil])
    (by rw [htips, List.append_nil]) .nil .nil
  rw [List.append_nil] at happend
  exact happend

/-- The numbers of the rows of a run. -/
def Db.captureSeqs (db : Db) (run : Uuid) : List ℕ :=
  (db.observations.filter (·.runId = run)).map (·.captureSeq) ++
    (db.tipObservations.filter (·.runId = run)).map (·.captureSeq)

/-- **The numbers of aligned rows are dense.** -/
theorem Aligned.dense {db : Db} {run : Uuid} {captures : List Capture}
    (h : Aligned db run captures) :
    (db.captureSeqs run).Perm (List.range' 1 (db.lastCaptureSeq run)) := by
  have seqs {α β : Type} {seq : α → ℕ} {R : α → β → Prop} {rows : List α} {ps : List (β × ℕ)}
      (hrows : List.Forall₂ (fun o p => seq o = p.2 ∧ R o p.1) rows ps) :
      rows.map seq = ps.map (·.2) := by
    induction hrows with
    | nil => rfl
    | cons hop _ ih => rw [List.map_cons, List.map_cons, hop.1, ih]
  rw [Db.captureSeqs, seqs h.occurrences, seqs h.tips, h.last,
    ← List.zipIdx_map_snd 1 captures]
  exact perm_numbered _

/-! ### Counters -/

omit [Digests] in
/-- A run's row has its last number. -/
theorem Db.Ledger.lastCaptureSeq {db : Db} (h : db.Ledger) {r : ExtractorRun} (hr : r ∈ db.runs) :
    db.lastCaptureSeq r.runId = r.lastCaptureSeq := by
  unfold Db.lastCaptureSeq
  cases hfind : db.runs.find? (·.runId = r.runId) with
  | none =>
    have hnone := List.find?_eq_none.mp hfind r hr
    simp at hnone
  | some r' =>
    have hrun : r'.runId = r.runId := by simpa using List.find?_some hfind
    rw [h.run r' (List.mem_of_find?_eq_some hfind) r hr hrun]
    rfl

omit [Digests] in
/-- Changing rows of runs without changing their identities or counters. -/
theorem lastCaptureSeq_map {f : ExtractorRun → ExtractorRun}
    (hf : ∀ r, (f r).runId = r.runId ∧ (f r).lastCaptureSeq = r.lastCaptureSeq) {s t : Db}
    (hruns : t.runs = s.runs.map f) (run : Uuid) : t.lastCaptureSeq run = s.lastCaptureSeq run := by
  have hid : ((fun r : ExtractorRun => decide (r.runId = run)) ∘ f) = fun r => decide (r.runId = run) := by
    funext r
    simp [(hf r).1]
  rw [Db.lastCaptureSeq, Db.lastCaptureSeq, hruns, List.find?_map, hid, Option.map_map]
  congr 2
  funext r
  exact (hf r).2

omit [Digests] in
/-- A new run has taken no number. -/
theorem lastCaptureSeq_open {s t : Db} {row : ExtractorRun} (hrow : row.lastCaptureSeq = 0)
    (hruns : t.runs = s.runs ++ [row]) (run : Uuid) :
    t.lastCaptureSeq run = s.lastCaptureSeq run := by
  rw [Db.lastCaptureSeq, Db.lastCaptureSeq, hruns, List.find?_append]
  cases s.runs.find? (·.runId = run) with
  | some r => rfl
  | none => by_cases hrun : row.runId = run <;> simp [hrun, hrow]

omit [Digests] in
/-- **What reserving does to the counters**: the numbers after the last of the running run
are taken, and no other run is touched. -/
theorem reserve_lastCaptureSeq {run : Uuid} {count first : ℕ} {s t : Db} (hs : s.Ledger)
    (h : reserveCaptureSequences run count s = .ok (first, t)) :
    (∃ r ∈ s.runs, r.runId = run ∧ r.status = .running) ∧ first = s.lastCaptureSeq run + 1 ∧
      (∀ other, t.lastCaptureSeq other =
        s.lastCaptureSeq other + if other = run then count else 0) ∧
      ∀ r ∈ s.runs, r.status ≠ .running → r ∈ t.runs := by
  obtain ⟨-, h⟩ := Tx.require_bind_eq_ok.mp h
  obtain ⟨row, hrow, h⟩ := Tx.expect_bind_eq_ok.mp (Tx.read_bind_eq_ok.mp h)
  rw [Tx.modify_bind_eq_ok, Tx.pure_eq_ok] at h
  obtain ⟨rfl, rfl⟩ := h
  have hmem : row ∈ s.runs := List.mem_of_find?_eq_some hrow
  have hfound := List.find?_some hrow
  obtain ⟨rfl, hrunning⟩ := of_decide_eq_true hfound
  refine ⟨⟨row, hmem, rfl, hrunning⟩, by rw [hs.lastCaptureSeq hmem], fun other => ?_,
    fun r hr hstatus => ?_⟩
  · let f : ExtractorRun → ExtractorRun := fun r =>
      if r.runId = row.runId ∧ r.status = .running then
        { r with lastCaptureSeq := r.lastCaptureSeq + count } else r
    have hid : ((fun r : ExtractorRun => decide (r.runId = other)) ∘ f) =
        fun r => decide (r.runId = other) := by
      funext r
      by_cases hr : r.runId = row.runId ∧ r.status = .running <;> simp [f, hr]
    change (((s.runs.map f).find? (·.runId = other)).map (·.lastCaptureSeq)).getD 0 = _
    rw [List.find?_map, hid, Db.lastCaptureSeq]
    cases hfind : s.runs.find? (·.runId = other) with
    | none =>
      have hne : other ≠ row.runId := by
        rintro rfl
        have hnone := List.find?_eq_none.mp hfind row hmem
        simp at hnone
      simp [hne]
    | some r =>
      have hr : r.runId = other := by simpa using List.find?_some hfind
      by_cases hother : other = row.runId
      · obtain rfl := hs.run r (List.mem_of_find?_eq_some hfind) row hmem (hr.trans hother)
        simp [f, hrunning, hother]
      · have hne : r.runId ≠ row.runId := by rw [hr]; exact hother
        simp [f, hne, hother]
  · refine List.mem_map.mpr ⟨r, hr, ?_⟩
    rw [if_neg fun hrun => hstatus hrun.2]

/-! ### Inserting -/

/-- The occurrence of one event. -/
theorem insert_occurrence {store : Store} {method : CaptureMethod} {group slot : Option ℕ}
    {id : Option String} {captureSeq : ℕ} {event : Event} {cache : InstanceCache} {s t : Db}
    {r : ℕ × InstanceCache}
    (h : insert store method group slot id captureSeq event cache s = .ok (r, t)) :
    t.tipObservations = s.tipObservations ∧ ∃ o, t.observations = s.observations ++ [o] ∧
      o.runId = store.runId ∧ o.captureSeq = captureSeq ∧ o.isOf t event := by
  obtain ⟨f, payload, authoritative, _, u, resolved, fact, v, hf, hp, -, hupd, -, hfact, hobs, -⟩ :=
    insert_pieces h
  obtain ⟨hsu, -⟩ := updateSidechainInstances_inv hupd
  obtain ⟨-, hobs⟩ := Tx.require_bind_eq_ok.mp (Tx.read_bind_eq_ok.mp hobs)
  obtain rfl := Tx.modify_eq_ok.mp hobs
  have huv := sameBooks_insertFact _ hfact
  have hblock : f.blockHash = event.observedAtBlock.map (·.hash) := facts_blockHash hf
  let o : EventObservation :=
    ⟨store.datasetId, store.runId, captureSeq, method, fact.1, group, event.timestamp⟩
  refine ⟨huv.tipObservations.trans hsu.tipObservations, o, ?_, rfl, rfl, rfl, ?_⟩
  · rw [huv.observations, hsu.observations]
  · rw [hp, Option.map_some]
    rcases (insertFact_eq_ok.mp hfact).2 with ⟨e, he, rfl, rfl⟩ | ⟨-, -, rfl, rfl⟩
    · have hsame := List.find?_some he
      obtain ⟨-, hhash, hsha⟩ := of_decide_eq_true hsame
      exact ⟨e, List.mem_of_find?_eq_some he, rfl, hhash.trans hblock, congrArg some hsha.symm⟩
    · exact ⟨_, List.mem_append_right _ (List.mem_singleton_self _), rfl, hblock, rfl⟩

/-- The occurrences of a batch: one an event, in order, with consecutive numbers. -/
theorem insertAll_occurrences {store : Store} {method : CaptureMethod} {group slot : Option ℕ}
    {id : Option String} {captureSeq n : ℕ} {events : List Event} {cache : InstanceCache}
    {s t : Db} (h : insertAll store method group slot id captureSeq events cache s = .ok (n, t)) :
    t.runs = s.runs ∧ t.tipObservations = s.tipObservations ∧ ∃ rows,
      t.observations = s.observations ++ rows ∧ (∀ o ∈ rows, o.runId = store.runId) ∧
      List.Forall₂ (fun o p => o.captureSeq = p.2 ∧ o.isOf t p.1) rows
        (events.zipIdx captureSeq) := by
  induction events generalizing captureSeq cache s n with
  | nil =>
    obtain ⟨-, rfl⟩ := Tx.pure_eq_ok.mp h
    exact ⟨rfl, rfl, [], (List.append_nil _).symm, by simp, .nil⟩
  | cons event rest ih =>
    obtain ⟨r, u, hr, hrest⟩ := Tx.bind_eq_ok.mp h
    obtain ⟨m, v, hm, hn⟩ := Tx.bind_eq_ok.mp hrest
    obtain ⟨-, rfl⟩ := Tx.pure_eq_ok.mp hn
    obtain ⟨htips, o, ho, hrun, hseq, htime, e, he, hfact⟩ := insert_occurrence hr
    obtain ⟨hsame, htips', rows, hrows, hruns, hall⟩ := ih hm
    have hsub := (grows_insertAll _ _ _ _ _ _ _ _ hm).events
    refine ⟨hsame.trans (insert_recorded hr).runs, htips'.trans htips, o :: rows, ?_, ?_, ?_⟩
    · rw [hrows, ho, List.append_assoc, List.singleton_append]
    · intro o' ho'
      rcases List.mem_cons.mp ho' with rfl | ho'
      · exact hrun
      · exact hruns o' ho'
    · rw [List.zipIdx_cons]
      exact .cons ⟨hseq, htime, e, hsub he, hfact⟩ hall

omit [Digests] in
/-- Reserving looks at the runs alone. -/
theorem reserve_congr {run : Uuid} {count first : ℕ} {s r u : Db} (hr : r.runs = s.runs)
    (h : reserveCaptureSequences run count r = .ok (first, u)) :
    reserveCaptureSequences run count s = .ok (first, { s with runs := u.runs }) := by
  obtain ⟨hcount, h⟩ := Tx.require_bind_eq_ok.mp h
  obtain ⟨row, hrow, h⟩ := Tx.expect_bind_eq_ok.mp (Tx.read_bind_eq_ok.mp h)
  rw [Tx.modify_bind_eq_ok, Tx.pure_eq_ok] at h
  obtain ⟨rfl, rfl⟩ := h
  rw [hr] at hrow
  refine Tx.require_bind_eq_ok.mpr ⟨hcount, Tx.read_bind_eq_ok.mpr ?_⟩
  refine Tx.expect_bind_eq_ok.mpr ⟨row, hrow, Tx.modify_bind_eq_ok.mpr ?_⟩
  rw [Tx.pure_eq_ok, hr]
  exact ⟨rfl, rfl⟩

/-- **What a committed batch does to the runs and their rows**: it reserves its numbers, and
adds an occurrence an event with them. -/
theorem Batch.Recorded.occurrences {b : Batch} {s t : Db} (h : b.Recorded s t) :
    ∃ first u rows, reserveCaptureSequences b.store.runId b.events.length s = .ok (first, u) ∧
      t.runs = u.runs ∧ t.tipObservations = s.tipObservations ∧
      t.observations = s.observations ++ rows ∧ (∀ o ∈ rows, o.runId = b.store.runId) ∧
      List.Forall₂ (fun o p => o.captureSeq = p.2 ∧ o.isOf t p.1) rows
        (b.events.zipIdx first) := by
  obtain ⟨group, r, first, u, n, v, hopens, hreserve, hinsert, hvt⟩ := h.steps
  have hr : SameEvidence { s with snapshotGroups := r.snapshotGroups } r := by
    cases hopens with
    | alone => exact Std.Refl.refl _
    | group => exact Std.Refl.refl _
  have hu := sameEvidence_reserve hreserve
  obtain ⟨hruns, htips, rows, hrows, hof, hall⟩ := insertAll_occurrences hinsert
  refine ⟨first, _, rows, reserve_congr hr.runs hreserve, hvt.runs.trans hruns, ?_, ?_, hof,
    hall.imp fun o p hop => ?_⟩
  · exact hvt.tipObservations.trans (htips.trans (hu.tipObservations.trans hr.tipObservations))
  · rw [hvt.observations, hrows, hu.observations]
    exact congrArg (· ++ rows) hr.observations
  · obtain ⟨hseq, htime, e, he, hfact⟩ := hop
    exact ⟨hseq, htime, e, by rw [hvt.events]; exact he, hfact⟩

/-! ### Commands -/

/-- The record, and what has been captured, in order. -/
structure Captured where
  db : Db
  log : List (Uuid × Capture)

/-- A freshly migrated record. -/
def Captured.empty : Captured := ⟨.empty, []⟩

/-- One command, and what it captures when it commits. -/
def Captured.step (startOf : ScopeKey → ℕ) (s : Captured) (c : Command) : Option Captured :=
  some ⟨s.db.exec startOf c, s.log ++ if s.db.commits c then c.captures else []⟩

/-- What a run has captured, in order. -/
def Captured.of (s : Captured) (run : Uuid) : List Capture :=
  (s.log.filter (·.1 = run)).map (·.2)

/-- The books are in order, and the rows of every run are what it captured. -/
structure Captured.Inv (s : Captured) : Prop where
  ledger : s.db.Ledger
  aligned : ∀ run, Aligned s.db run (s.of run)

theorem Captured.Inv.empty : Captured.empty.Inv where
  ledger := .empty
  aligned _ := ⟨rfl, .nil, .nil⟩

omit [Digests] in
/-- Rows of a run are of no other. -/
theorem filter_run {α : Type} (runOf : α → Uuid) {rows : List α} {run : Uuid}
    (h : ∀ o ∈ rows, runOf o = run) (other : Uuid) :
    rows.filter (runOf · = other) = if other = run then rows else [] := by
  by_cases hrun : other = run
  · rw [if_pos hrun, List.filter_eq_self]
    intro o ho
    simp [h o ho, hrun]
  · rw [if_neg hrun, List.filter_eq_nil_iff]
    intro o ho
    simp [h o ho, Ne.symm hrun]

omit [Digests] in
/-- What every run has captured, after captures for one. -/
theorem Captured.of_append (s : Captured) (db : Db) (run : Uuid) (new : List Capture)
    (other : Uuid) : Captured.of ⟨db, s.log ++ new.map (run, ·)⟩ other =
      s.of other ++ if other = run then new else [] := by
  have hnew : ∀ p ∈ new.map (run, ·), p.1 = run := by
    intro p hp
    obtain ⟨capture, -, rfl⟩ := List.mem_map.mp hp
    rfl
  rw [Captured.of, Captured.of, List.filter_append, List.map_append, filter_run Prod.fst hnew]
  by_cases hrun : other = run
  · rw [if_pos hrun, if_pos hrun, List.map_map]
    congr 1
    exact List.map_id _
  · rw [if_neg hrun, if_neg hrun]
    rfl

/-- Captures of one run, with the numbers after its last, keep every run aligned. -/
theorem Captured.Inv.capture {s : Captured} (hs : s.Inv) {t : Db} {run : Uuid} (first : ℕ)
    {new : List Capture} (rows : List EventObservation) (tips : List TipObservation)
    (hevents : s.db.events ⊆ t.events) (hfirst : first = s.db.lastCaptureSeq run + 1)
    (hlast : ∀ other, t.lastCaptureSeq other =
      s.db.lastCaptureSeq other + if other = run then new.length else 0)
    (hobservations : t.observations = s.db.observations ++ rows)
    (htips : t.tipObservations = s.db.tipObservations ++ tips)
    (hrows : ∀ o ∈ rows, o.runId = run) (htipRows : ∀ o ∈ tips, o.runId = run)
    (hnewRows : List.Forall₂ (fun o p => o.captureSeq = p.2 ∧ o.isOf t p.1) rows
      (numbered Capture.event? (new.zipIdx first)))
    (hnewTips : List.Forall₂ (fun o p => o.captureSeq = p.2 ∧ o.isOf p.1) tips
      (numbered Capture.tip? (new.zipIdx first))) (other : Uuid) :
    Aligned t other (s.of other ++ if other = run then new else []) := by
  have hobservations' : t.observations.filter (·.runId = other) =
      s.db.observations.filter (·.runId = other) ++ if other = run then rows else [] := by
    rw [hobservations, List.filter_append, filter_run EventObservation.runId hrows]
  have htips' : t.tipObservations.filter (·.runId = other) =
      s.db.tipObservations.filter (·.runId = other) ++ if other = run then tips else [] := by
    rw [htips, List.filter_append, filter_run TipObservation.runId htipRows]
  by_cases hrun : other = run
  · subst hrun
    simp only [if_true] at hobservations' htips' ⊢
    rw [hfirst] at hnewRows hnewTips
    exact (hs.aligned other).append _ _ _ hevents (by rw [hlast, if_pos rfl]) hobservations' htips'
      hnewRows hnewTips
  · simp only [if_neg hrun, List.append_nil] at hobservations' htips' ⊢
    exact (hs.aligned other).idle hevents (by rw [hlast, if_neg hrun]; rfl) hobservations' htips'

/-- **One command keeps every run aligned.** -/
theorem Captured.step_inv (startOf : ScopeKey → ℕ) {s s' : Captured} {c : Command} (hs : s.Inv)
    (h : s.step startOf c = some s') : s'.Inv := by
  cases h
  refine ⟨s.db.exec_ledger startOf c hs.ledger, fun run => ?_⟩
  have hsub : s.db.events ⊆ (s.db.exec startOf c).events := s.db.exec_events startOf c
  -- a command that captures nothing
  have quiet (hc : s.db.commits c → c.captures = [])
      (hlast : (s.db.exec startOf c).lastCaptureSeq run = s.db.lastCaptureSeq run)
      (hobservations : (s.db.exec startOf c).observations = s.db.observations)
      (htips : (s.db.exec startOf c).tipObservations = s.db.tipObservations) :
      Aligned (s.db.exec startOf c) run (Captured.of ⟨s.db.exec startOf c,
        s.log ++ if s.db.commits c then c.captures else []⟩ run) := by
    have hnone : (if s.db.commits c then c.captures else []) = [] := by
      by_cases hk : s.db.commits c
      · rw [if_pos hk, hc hk]
      · rw [if_neg hk]
    rw [Captured.of, hnone, List.append_nil]
    exact (hs.aligned run).idle hsub hlast (by rw [hobservations]) (by rw [htips])
  cases s.db.exec_effect startOf c with
  | same hc heq =>
    exact quiet hc (by rw [Db.lastCaptureSeq, heq.runs]; rfl) heq.observations heq.tipObservations
  | @opened source datasetId _ _ _ hc hok =>
    subst hc
    obtain ⟨-, ht⟩ := initializeIdentity_inv hok
    refine quiet (fun _ => rfl) ?_ ht.observations ht.tipObservations
    let closed : Db := { s.db with runs := s.db.runs.map (.orphan datasetId source) }
    have hopen := lastCaptureSeq_open (s := closed) rfl ht.runs run
    have hclosed : closed.lastCaptureSeq run = s.db.lastCaptureSeq run :=
      lastCaptureSeq_map (fun r => by
        unfold ExtractorRun.orphan
        split_ifs <;> simp) rfl run
    exact hopen.trans hclosed
  | closed hc hok =>
    subst hc
    obtain ⟨-, ht⟩ := finishRun_inv hok
    refine quiet (fun _ => rfl) ?_ ht.observations ht.tipObservations
    exact lastCaptureSeq_map (fun r => by
      unfold ExtractorRun.finish
      split_ifs <;> simp) ht.runs run
  | @tip store block previous method observedAt hc hk hok =>
    obtain ⟨height, before, captureSeq, u, hblock, hbefore, hreserve, ht⟩ :=
      recordTipObservation_inv hok
    obtain ⟨-, hfirst, hlast, -⟩ := reserve_lastCaptureSeq hs.ledger hreserve
    have hu := sameEvidence_reserve hreserve
    have hcaptures : (if s.db.commits c then c.captures else []) =
        [Capture.tip block previous].map (store.runId, ·) := by
      rw [if_pos hk, hc]
      rfl
    have hprevious : previous = before.map Block.observed := by
      rcases optionalBlockParts_eq_ok hbefore with ⟨rfl, rfl⟩ | ⟨_, _, rfl, -, rfl⟩
      · rfl
      · rfl
    rw [hcaptures, s.of_append]
    refine hs.capture _ [] [_] hsub hfirst (fun other => ?_)
      (by rw [ht.observations, List.append_nil]; exact hu.observations)
      (by rw [ht.tipObservations]; exact congrArg (· ++ _) hu.tipObservations) (by simp) (by simp)
      .nil (.cons ⟨rfl, ?_, hprevious⟩ .nil) run
    · have hsame : (s.db.exec startOf c).lastCaptureSeq other = u.lastCaptureSeq other := by
        rw [Db.lastCaptureSeq, ht.runs]
        rfl
      exact hsame.trans (hlast other)
    · exact hblock
  | @batch b hb hk hrec =>
    obtain ⟨first, u, rows, hreserve, hruns, htips, hrows, hof, hall⟩ := hrec.occurrences
    obtain ⟨-, hfirst, hlast, -⟩ := reserve_lastCaptureSeq hs.ledger hreserve
    have hcaptures : (if s.db.commits c then c.captures else []) =
        (b.events.map Capture.event).map (b.store.runId, ·) := by
      rw [if_pos hk, Command.captures_of_batch hb, List.map_map]
      rfl
    rw [hcaptures, s.of_append]
    refine hs.capture first rows [] hsub hfirst (fun other => ?_) hrows
      (by rw [htips, List.append_nil]) hof (by simp) ?_ ?_ run
    · have hsame : (s.db.exec startOf c).lastCaptureSeq other = u.lastCaptureSeq other := by
        rw [Db.lastCaptureSeq, hruns]
        rfl
      rw [hsame, hlast other, List.length_map]
    · rw [numbered_events]
      exact hall
    · rw [numbered_events_tip]
      exact .nil

/-! ### Closed runs -/

/-- The row of a run and the rows it recorded are as they were. -/
structure SameRun (r : ExtractorRun) (s t : Db) : Prop where
  run : r ∈ s.runs → r ∈ t.runs
  observations : t.observations.filter (·.runId = r.runId) =
    s.observations.filter (·.runId = r.runId)
  tipObservations : t.tipObservations.filter (·.runId = r.runId) =
    s.tipObservations.filter (·.runId = r.runId)

omit [Digests] in
/-- Rows of another run change nothing of this one. -/
theorem filter_append_other {α : Type} (runOf : α → Uuid) {rows new : List α} {run : Uuid}
    (other : Uuid) (h : ∀ o ∈ new, runOf o = other) (hne : run ≠ other) :
    (rows ++ new).filter (runOf · = run) = rows.filter (runOf · = run) := by
  rw [List.filter_append, filter_run runOf h, if_neg hne, List.append_nil]

/-- **A closed run captures nothing more.** -/
theorem Db.exec_closed (startOf : ScopeKey → ℕ) {db : Db} (c : Command) (hdb : db.Ledger)
    {r : ExtractorRun} (hr : r ∈ db.runs) (hstatus : r.status ≠ .running) :
    SameRun r db (db.exec startOf c) := by
  -- a run that is running is another
  have other {run : Uuid} (hrun : ∃ r' ∈ db.runs, r'.runId = run ∧ r'.status = .running) :
      r.runId ≠ run := by
    rintro rfl
    obtain ⟨r', hr', hid, hrunning⟩ := hrun
    obtain rfl := hdb.run r' hr' r hr hid
    exact hstatus hrunning
  cases db.exec_effect startOf c with
  | same _ heq =>
    exact ⟨fun h => by rw [heq.runs]; exact h, by rw [heq.observations], by rw [heq.tipObservations]⟩
  | @opened source datasetId _ _ _ _ hok =>
    obtain ⟨-, ht⟩ := initializeIdentity_inv hok
    refine ⟨fun h => ?_, by rw [ht.observations], by rw [ht.tipObservations]⟩
    have hsame : ExtractorRun.orphan datasetId source r = r := if_neg fun h => hstatus h.2.2
    rw [ht.runs]
    exact List.mem_append_left _ (List.mem_map.mpr ⟨r, h, hsame⟩)
  | @closed store status _ _ hok =>
    obtain ⟨-, ht⟩ := finishRun_inv hok
    refine ⟨fun h => ?_, by rw [ht.observations], by rw [ht.tipObservations]⟩
    have hsame : ExtractorRun.finish store.runId status r = r := if_neg fun h => hstatus h.2
    rw [ht.runs]
    exact List.mem_map.mpr ⟨r, h, hsame⟩
  | @tip store _ _ _ _ _ _ hok =>
    obtain ⟨_, _, _, u, -, -, hreserve, ht⟩ := recordTipObservation_inv hok
    obtain ⟨hrun, -, -, hkeep⟩ := reserve_lastCaptureSeq hdb hreserve
    have hu := sameEvidence_reserve hreserve
    refine ⟨fun h => ?_, ?_, ?_⟩
    · rw [ht.runs]
      exact hkeep r h hstatus
    · rw [ht.observations]
      exact congrArg _ hu.observations
    · rw [ht.tipObservations]
      refine (filter_append_other TipObservation.runId store.runId (by simp) (other hrun)).trans ?_
      exact congrArg _ hu.tipObservations
  | @batch b _ _ hrec =>
    obtain ⟨first, u, rows, hreserve, hruns, htips, hrows, hof, -⟩ := hrec.occurrences
    obtain ⟨hrun, -, -, hkeep⟩ := reserve_lastCaptureSeq hdb hreserve
    refine ⟨fun h => ?_, ?_, by rw [htips]⟩
    · rw [hruns]
      exact hkeep r h hstatus
    · rw [hrows, filter_append_other EventObservation.runId _ hof (other hrun)]

/-- **Capture sequences are dense.** After any sequence of commands, the numbers of the
occurrences and tips of a run are `1, …, lastCaptureSeq`, each once; in their order the rows
are what the run's transactions captured, one after the other; and whatever follows, a
closed run has no more rows. -/
theorem capture_sequences_dense (startOf : ScopeKey → ℕ) (cs : List Command) (s : Captured)
    (h : run (Captured.step startOf) Captured.empty cs = some s) :
    ∀ r ∈ s.db.runs, (s.db.captureSeqs r.runId).Perm (List.range' 1 r.lastCaptureSeq) ∧
      Aligned s.db r.runId (s.of r.runId) ∧
      (r.status ≠ .running → ∀ cs' s', run (Captured.step startOf) s cs' = some s' →
        r ∈ s'.db.runs ∧ SameRun r s.db s'.db) := by
  have hinv : s.Inv := run_invariant (fun _ _ _ hs hstep => Captured.step_inv startOf hs hstep)
    Captured.Inv.empty h
  intro r hr
  refine ⟨?_, hinv.aligned r.runId, fun hstatus cs' s' h' => ?_⟩
  · have hdense := (hinv.aligned r.runId).dense
    rw [hinv.ledger.lastCaptureSeq hr] at hdense
    exact hdense
  · have hclosed : s'.Inv ∧ r ∈ s'.db.runs ∧ SameRun r s.db s'.db := by
      refine run_invariant (I := fun s' => s'.Inv ∧ r ∈ s'.db.runs ∧ SameRun r s.db s'.db)
        (fun t c t' ht hstep => ?_) ⟨hinv, hr, id, rfl, rfl⟩ h'
      obtain ⟨htinv, hrt, hsame⟩ := ht
      refine ⟨Captured.step_inv startOf htinv hstep, ?_⟩
      cases hstep
      have hnext := Db.exec_closed startOf c htinv.ledger hrt hstatus
      exact ⟨hnext.run hrt, hnext.run ∘ hsame.run,
        hnext.observations.trans hsame.observations,
        hnext.tipObservations.trans hsame.tipObservations⟩
    exact hclosed.2

end

/-- A page of two blocks, a tip, and a tip after the run was closed. -/
def TwoBlocks.recordings : List Command :=
  let store : Store := ⟨.node, 0, 0, 9⟩
  let tip := Command.recordTipObservation store (.atHeight (bytes32 2) 6) none .startup 0
  TwoBlocks.commands ++ [tip, .finishRun store .completed none, tip]

/-- The page's blocks and the first tip are numbered; the second tip is refused. -/
theorem capture_sequences_dense_twoBlocks :
    ∃ s, run (@Captured.step TwoBlocks.digests fun _ => 5) Captured.empty TwoBlocks.recordings =
        some s ∧
      ∃ r ∈ s.db.runs, r.status = .completed ∧ (s.db.captureSeqs r.runId).Perm [1, 2, 3] := by
  let _ := TwoBlocks.digests
  have hrun : ((run (Captured.step fun _ => 5) Captured.empty TwoBlocks.recordings).filter fun s =>
      ∃ r ∈ s.db.runs, r.status = .completed ∧ r.lastCaptureSeq = 3).isSome := by
    decide +kernel
  obtain ⟨s, hs⟩ := Option.isSome_iff_exists.mp hrun
  obtain ⟨hs, hclosed⟩ := Option.filter_eq_some_iff.mp hs
  obtain ⟨r, hr, hstatus, hlast⟩ := of_decide_eq_true hclosed
  have hdense := (capture_sequences_dense _ _ s hs r hr).1
  rw [hlast] at hdense
  exact ⟨s, hs, r, hr, hstatus, hdense⟩

end Bip300Monitor
