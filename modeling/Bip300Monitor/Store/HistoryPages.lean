import Bip300Monitor.Store.Conflicts
import Bip300Monitor.Store.CaptureSequences

/-!
# Pages

`record_history_page` records a page and moves the cursor behind it in one transaction.
Seen from outside, a call ends in one of three ways: the page and the cursor have moved
together, the page is kept and its scope suspended, or nothing has happened.

## What is proved

* `existsUnique_outcome` — every call in a reachable record ends in exactly one of them;
* `Db.exec_cursor` — within a cycle, a cursor only goes down;
* `PageAdvanced.only` — so once a page has moved the cursor away from a block, no other
  call that expects it there moves it again.
-/

namespace Bip300Monitor

open Protobuf Transaction Runs

/-! ### The three outcomes -/

section
variable [Digests]

/-- The rows of a page are recorded: as many facts as are new, an occurrence an event with
the numbers after the run's last, and the conflicts among the facts. -/
structure PageRecorded (store : Store) (events : List Event) (scope : HistoryScope) (inserted : ℕ)
    (s t : Db) : Prop where
  facts : ∃ new, t.events = s.events ++ new ∧ new.length = inserted
  ofPage : ∀ e ∈ t.events, e ∈ s.events ∨ ∃ event ∈ events, ∃ row,
    RecordedAs store scope.sidechain scope.sidechainInstanceId event row ∧ e = { row with id := e.id }
  recorded : ∀ event ∈ events, ∃ row,
    RecordedAs store scope.sidechain scope.sidechainInstanceId event row ∧
      ∃ e ∈ t.events, e.sameIdentity row
  occurrences : ∃ rows, t.observations = s.observations ++ rows ∧
    (∀ o ∈ rows, o.runId = store.runId) ∧
    List.Forall₂ (fun o p => o.captureSeq = p.2 ∧ o.isOf t p.1) rows
      (events.zipIdx (s.lastCaptureSeq store.runId + 1))
  numbers : ∀ run, t.lastCaptureSeq run =
    s.lastCaptureSeq run + if run = store.runId then events.length else 0
  conflicts : s.conflicts <+: t.conflicts
  judged : t.Judged

/-- The scope's row is running, with its cursor at the block the page expects. -/
def Db.expects (db : Db) (k : ScopeKey) (page : HistoryPage) (row : CoverageRow) : Prop :=
  db.coverage k = some row ∧ row.status = .running ∧
    row.next.map Block.observed = some page.expectedNext

/-- The only coverage row that differs is the scope's. -/
def SameElsewhere (k : ScopeKey) (s t : Db) : Prop := ∀ k', k' ≠ k → t.coverage k' = s.coverage k'

/-- The scope is certified down from its target. -/
structure Certifies (k : ScopeKey) (row : CoverageRow) (s t : Db) : Prop where
  subset : s.certified ⊆ t.certified
  new : ∀ c ∈ t.certified, c ∈ s.certified ∨
    (c.scope = k ∧ c.hasFact t ∧ c.stands t row.coverageStartHeight)
  target : t.certifies k row.targetTip

/-- The page and the cursor have moved together. -/
def PageAdvanced (store : Store) (events : List Event) (page : HistoryPage) (s : Db)
    (out : Result ℕ × Db) : Prop :=
  ∃ row next inserted, s.expects (store.key page.scope) page row ∧
    next.map Block.observed = page.next ∧
    PageRecorded store events page.scope inserted s out.2 ∧
    ¬ out.2.pageConflict (store.key page.scope) (pageHashes events) page.next.isNone ∧
    out.1 = .ok inserted ∧
    out.2.coverage (store.key page.scope) = some { row with
      next := next
      status := if next.isNone then .complete else .running
      coveredTip := if next.isNone then some row.targetTip else row.coveredTip
      rowsRecorded := row.rowsRecorded + inserted
      lastError := none } ∧
    SameElsewhere (store.key page.scope) s out.2 ∧
    (next.isSome → out.2.certified = s.certified) ∧
    (next = none → Certifies (store.key page.scope) row s out.2)

/-- The page is recorded, but it met a conflict: the cursor stays and its scope is
suspended. -/
def PageSuspended (store : Store) (events : List Event) (page : HistoryPage) (s : Db)
    (out : Result ℕ × Db) : Prop :=
  ∃ row inserted, s.expects (store.key page.scope) page row ∧
    PageRecorded store events page.scope inserted s out.2 ∧
    out.2.pageConflict (store.key page.scope) (pageHashes events) page.next.isNone ∧
    out.1 = .error HistoryConflict ∧
    out.2.coverage (store.key page.scope) = some { row with
      status := .error
      rowsRecorded := row.rowsRecorded + inserted
      lastError := some historyConflict } ∧
    SameElsewhere (store.key page.scope) s out.2 ∧ out.2.certified = s.certified

/-- How a call of `record_history_page` can end. -/
inductive PageOutcome where
  | advanced | suspended | failed
  deriving DecidableEq, Repr

/-- The call has ended so. -/
def PageOutcome.holds (store : Store) (events : List Event) (page : HistoryPage) (s : Db)
    (out : Result ℕ × Db) : PageOutcome → Prop
  | .advanced => PageAdvanced store events page s out
  | .suspended => PageSuspended store events page s out
  | .failed => ∃ e, out = (.error e, s)

/-! ### A committed page -/

/-- What holds of the record whenever a page is recorded. -/
structure Db.Booked (db : Db) : Prop where
  ledger : db.Ledger
  judged : db.Judged
  proven : ∀ c ∈ db.certified, c.hasFact db

omit [Digests] in
theorem Db.Booked.empty : Db.empty.Booked := ⟨.empty, .empty, by simp [Db.empty]⟩

variable {store : Store} {events : List Event} {page : HistoryPage} {scope : HistoryScope}
  {inserted : ℕ} {s t u : Db}

theorem PageRecorded.congr (h : PageRecorded store events scope inserted s u)
    (hut : SameEvidence u t) : PageRecorded store events scope inserted s t where
  facts := by rw [hut.events]; exact h.facts
  ofPage := by rw [hut.events]; exact h.ofPage
  recorded := by rw [hut.events]; exact h.recorded
  occurrences := by
    obtain ⟨rows, hrows, hruns, hall⟩ := h.occurrences
    refine ⟨rows, by rw [hut.observations, hrows], hruns, hall.imp fun o p hop => ?_⟩
    obtain ⟨hseq, htime, e, he, hfact⟩ := hop
    exact ⟨hseq, htime, e, by rw [hut.events]; exact he, hfact⟩
  numbers run := by
    rw [← h.numbers run, Db.lastCaptureSeq, hut.runs]
    rfl
  conflicts := by rw [hut.conflicts]; exact h.conflicts
  judged := h.judged.congr hut.events hut.nextEventId hut.conflicts

/-- The rows of a page. -/
theorem insertPage_recorded (hledger : s.Ledger) (hjudged : s.Judged)
    (h : insertPage store events scope s = .ok (inserted, u)) :
    PageRecorded store events scope inserted s u := by
  obtain ⟨_, v, hvalidate, h⟩ := Tx.bind_eq_ok.mp h
  obtain rfl : s = v := reads_validateExplicit _ _ _ hvalidate
  obtain ⟨first, v, hreserve, h⟩ := Tx.bind_eq_ok.mp h
  obtain ⟨-, hfirst, hlast, -⟩ := reserve_lastCaptureSeq hledger hreserve
  have hv := sameEvidence_reserve hreserve
  obtain ⟨hruns, -, rows, hrows, hrun, hall⟩ := insertAll_occurrences h
  obtain ⟨hnew, hconflicts⟩ := insertAll_added h
  have hevents : v.events = s.events := hv.events
  have hvconflicts : v.conflicts = s.conflicts := hv.conflicts
  exact {
    facts := hevents ▸ hnew
    ofPage := fun e he => hevents ▸ insertAll_new h he
    recorded := fun event hevent => insertAll_records h hevent
    occurrences := ⟨rows, hrows.trans (congrArg (· ++ rows) hv.observations), hrun, hfirst ▸ hall⟩
    numbers := fun run => by rw [← hlast run, Db.lastCaptureSeq, hruns]; rfl
    conflicts := hvconflicts ▸ hconflicts
    judged := judged_insertAll (hjudged.congr hv.events hv.nextEventId hv.conflicts) h }

/-- A page that was recorded is more than was there. -/
theorem PageRecorded.ne (h : PageRecorded store events scope inserted s t) (hne : events ≠ []) :
    t ≠ s := by
  rintro rfl
  obtain ⟨rows, hrows, -, hall⟩ := h.occurrences
  have hnil : rows = [] := by simpa using hrows
  have hlen := hall.length_eq
  rw [hnil, List.length_zipIdx] at hlen
  exact hne (List.length_eq_zero_iff.mp hlen.symm)

omit [Digests] in
theorem map_observed_of_optionalBlockParts {tip : Option ObservedBlock} {b : Option Block}
    (h : optionalBlockParts tip = .ok b) : b.map Block.observed = tip := by
  rcases optionalBlockParts_eq_ok h with ⟨rfl, rfl⟩ | ⟨hash, height, rfl, -, rfl⟩
  · rfl
  · rfl

/-- **A committed page** moved the cursor, or met a conflict and stayed. -/
theorem recordHistoryPage_committed {conflict : Bool} (hs : s.Booked)
    (h : recordHistoryPageTx store events page s = .ok ((inserted, conflict), t)) :
    events ≠ [] ∧
      PageOutcome.holds store events page s
        (if conflict then .error HistoryConflict else .ok inserted, t)
        (if conflict then .suspended else .advanced) := by
  obtain ⟨hne, expectedHeight, next, row, u, hexpected, hnext, hinsert, hconflict, hrow, hcursor,
    hrun, hw⟩ := recordHistoryPageTx_inv h
  have hpage := insertPage_recorded hs.ledger hs.judged hinsert
  have hsu : Grows s u := grows_insertPage _ _ _ hinsert
  have hexpects : s.expects (store.key page.scope) page row := by
    refine ⟨hrow, hrun, ?_⟩
    rw [hcursor, Option.map_some, Block.observed, ObservedBlock.atHeight, ← hexpected]
  have hpageT := hpage.congr (sameEvidence_writeCoverage _ _ hw)
  have hmap := map_observed_of_optionalBlockParts hnext
  refine ⟨hne, ?_⟩
  cases conflict with
  | true =>
    obtain ⟨-, rfl⟩ := (writeCoverage_eq_ok (by simp [CoverageRow.afterPage])).mp hw
    refine ⟨row, inserted, hexpects, hpageT, of_decide_eq_true hconflict.symm, rfl, ?_,
      fun k hk => ?_, hsu.certified⟩
    · rw [Db.setCoverage_coverage_self]
      simp [CoverageRow.afterPage, hcursor]
    · rw [Db.setCoverage_coverage_of_ne _ _ hk, hsu.coverage]
  | false =>
    have hno : ¬ u.pageConflict (store.key page.scope) (pageHashes events) page.next.isNone :=
      of_decide_eq_false hconflict.symm
    cases next with
    | some b =>
      obtain ⟨-, rfl⟩ := (writeCoverage_eq_ok (by simp [CoverageRow.afterPage])).mp hw
      refine ⟨row, some b, inserted, hexpects, hmap, hpageT, hno, rfl, ?_, fun k hk => ?_,
        fun _ => hsu.certified, fun h => by cases h⟩
      · rw [Db.setCoverage_coverage_self]
        rfl
      · rw [Db.setCoverage_coverage_of_ne _ _ hk, hsu.coverage]
    | none =>
      obtain ⟨-, w, hcert, rfl⟩ := writeCoverage_inv hw
      have hscope : ¬ u.retainsConflict (store.key page.scope) := fun hk =>
        hno (.inr ⟨by rw [← hmap]; rfl, hk⟩)
      obtain ⟨hwu, hsub, hnew, htarget⟩ := certifyHistory_sound
        (hpage.judged.sound.unambiguous hscope)
        (fun c hc _ => (hs.proven c (hsu.certified ▸ hc)).mono hsu.events) rfl hcert
      have hwevents : w.events = u.events := by rw [hwu]
      have hwconflicts : w.conflicts = u.conflicts := by rw [hwu]
      refine ⟨row, none, inserted, hexpects, hmap, hpageT, ?_, rfl, ?_, fun k hk => ?_,
        fun h => (Bool.false_ne_true h).elim, fun _ => ⟨hsu.certified ▸ hsub, hsu.certified ▸ hnew, htarget⟩⟩
      · simp only [Db.pageConflict, Db.retainsPageConflict, Db.retainsConflict] at hno ⊢
        rw [Db.setCoverage_events, Db.setCoverage_conflicts, hwevents, hwconflicts]
        exact hno
      · rw [Db.setCoverage_coverage_self]
        rfl
      · rw [Db.setCoverage_coverage_of_ne _ _ hk]
        obtain ⟨-, hwcoverage, -⟩ := certifyHistory_frame hcert
        rw [hwcoverage, hsu.coverage]

/-- **Every command keeps the books and backs what is certified.** -/
theorem Db.exec_booked (startOf : ScopeKey → ℕ) (db : Db) (c : Command) (h : db.Booked) :
    (db.exec startOf c).Booked := by
  refine ⟨db.exec_ledger startOf c h.ledger, db.exec_judged startOf c h.judged, ?_⟩
  have hevents := db.exec_events startOf c
  have kept (hcertified : (db.exec startOf c).certified = db.certified) :
      ∀ x ∈ (db.exec startOf c).certified, x.hasFact (db.exec startOf c) := by
    rw [hcertified]
    exact fun x hx => (h.proven x hx).mono hevents
  cases db.exec_covers startOf c with
  | same _ hcertified => exact kept hcertified
  | set _ _ _ heq => exact kept (by rw [heq, Db.setCoverage_certified])
  | @page _ _ _ r _ hok =>
    obtain ⟨inserted, conflict⟩ := r
    obtain ⟨-, hholds⟩ := recordHistoryPage_committed h hok
    cases conflict with
    | true =>
      obtain ⟨_, _, -, -, -, -, -, -, hcertified⟩ := hholds
      exact kept hcertified
    | false =>
      obtain ⟨_, next, _, -, -, -, -, -, -, -, hsame, hnew⟩ := hholds
      cases next with
      | some b => exact kept (hsame rfl)
      | none =>
        intro x hx
        rcases (hnew rfl).new x hx with hx | ⟨-, hfact, -⟩
        · exact (h.proven x hx).mono hevents
        · exact hfact

/-- **A call ends in exactly one way.** -/
theorem existsUnique_outcome (hs : s.Booked) (store : Store) (events : List Event)
    (page : HistoryPage) :
    ∃! o : PageOutcome, o.holds store events page s (recordHistoryPage store events page s) := by
  rcases Tx.commit_snd_cases (recordHistoryPageTx store events page) s with
    ⟨⟨inserted, conflict⟩, t, hx, hcommit⟩ | ⟨e, -, hcommit⟩
  · have hout : recordHistoryPage store events page s =
        (if conflict then .error HistoryConflict else .ok inserted, t) := by
      rw [recordHistoryPage, hcommit]
    obtain ⟨hne, hholds⟩ := recordHistoryPage_committed hs hx
    rw [hout]
    refine ⟨_, hholds, fun o ho => ?_⟩
    cases conflict with
    | true =>
      obtain ⟨_, _, -, hrec, -⟩ := hholds
      cases o with
      | advanced =>
        obtain ⟨_, _, _, -, -, -, -, hanswer, -⟩ := ho
        cases hanswer
      | suspended => rfl
      | failed =>
        obtain ⟨e, he⟩ := ho
        exact absurd (congrArg Prod.snd he) (hrec.ne hne)
    | false =>
      cases o with
      | advanced => rfl
      | suspended =>
        obtain ⟨_, _, -, -, -, hanswer, -⟩ := ho
        cases hanswer
      | failed =>
        obtain ⟨e, he⟩ := ho
        cases he
  · have hout : recordHistoryPage store events page s = (.error e, s) := by
      rw [recordHistoryPage, hcommit]
    rw [hout]
    refine ⟨.failed, ⟨e, rfl⟩, fun o ho => ?_⟩
    cases o with
    | advanced =>
      obtain ⟨_, _, _, -, -, -, -, hanswer, -⟩ := ho
      cases hanswer
    | suspended =>
      obtain ⟨row, n, ⟨hrow, hrun, -⟩, -, -, -, hcoverage, -⟩ := ho
      rw [hrow] at hcoverage
      have hstatus := congrArg CoverageRow.status (Option.some.inj hcoverage)
      rw [hrun] at hstatus
      cases hstatus
    | failed => rfl

/-! ### The cursor of a scope -/

/-- The cursor of a scope. -/
def Db.cursor (db : Db) (k : ScopeKey) : Option Block := (db.coverage k).bind (·.next)

/-- The next cursor of the page is below the one it expects. -/
def HistoryPage.Descends (page : HistoryPage) : Prop :=
  ∀ n ∈ page.next, ∃ expected height, page.expectedNext.height = some expected ∧
    n.height = some height ∧ height < expected

/-- The command neither begins a cycle of the scope nor records a page of it that goes up. -/
def Command.WithinCycle (k : ScopeKey) : Command → Prop
  | .beginHistoryCycle store scope .. => store.key scope ≠ k
  | .recordHistoryPage store _ page => store.key page.scope = k → page.Descends
  | _ => True

omit [Digests] in
theorem Db.cursor_setCoverage {k k' : ScopeKey} {row row' : CoverageRow}
    (hrow : s.coverage k' = some row) (hnext : row'.next = row.next) :
    (s.setCoverage k' row').cursor k = s.cursor k := by
  unfold Db.cursor
  by_cases hk : k = k'
  · rw [hk, Db.setCoverage_coverage_self, hrow]
    exact hnext
  · rw [Db.setCoverage_coverage_of_ne _ _ hk]

/-- **Within a cycle, a cursor only goes down**: a command leaves it where it is, or moves
it below, or ends the walk. -/
theorem Db.exec_cursor (startOf : ScopeKey → ℕ) (db : Db) {c : Command} {k : ScopeKey}
    (hc : c.WithinCycle k) :
    (db.exec startOf c).cursor k = db.cursor k ∨
      ∃ b, db.cursor k = some b ∧ ∀ b' ∈ (db.exec startOf c).cursor k, b'.height < b.height := by
  by_cases hkey : c.coverageKey = some k
  swap
  · rw [Db.cursor, (db.exec_elsewhere startOf c hkey).coverage]
    exact .inl rfl
  cases db.exec_covers startOf c with
  | same hcoverage _ =>
    rw [Db.cursor, hcoverage]
    exact .inl rfl
  | @set k' row hk _ hnext heq =>
    obtain rfl : k = k' := Option.some.inj (hkey.symm.trans hk)
    rcases hnext with hbegins | ⟨old, hold, hnext⟩
    · -- a new cycle of this scope is no part of this one
      cases c <;> first | exact absurd hbegins Bool.false_ne_true | skip
      exact absurd (Option.some.inj hkey) hc
    · rw [heq]
      exact .inl (Db.cursor_setCoverage hold hnext)
  | @page store events page r hpage hok =>
    subst hpage
    obtain rfl : store.key page.scope = k := Option.some.inj hkey
    obtain ⟨inserted, conflict⟩ := r
    obtain ⟨-, expectedHeight, next, row, u, hexpected, hnext, -, -, hrow, hcursor, -, hw⟩ :=
      recordHistoryPageTx_inv hok
    obtain ⟨-, w, -, ht⟩ := writeCoverage_inv hw
    have hbefore : db.cursor (store.key page.scope) =
        some ⟨page.expectedNext.hash, expectedHeight⟩ := by
      rw [Db.cursor, hrow]
      exact hcursor
    rw [hbefore, ht, Db.cursor, Db.setCoverage_coverage_self]
    cases conflict with
    | true => exact .inl rfl
    | false =>
      refine .inr ⟨_, rfl, fun b hb => ?_⟩
      obtain rfl : next = some b := hb
      obtain ⟨expected, height, hexpected', hheight, hlt⟩ :=
        hc rfl b.observed (map_observed_of_optionalBlockParts hnext ▸ rfl)
      rw [hexpected] at hexpected'
      cases hexpected'
      cases hheight
      exact hlt

/-- **One caller of two.** Once a page has moved the cursor away from a block, it stays
below it for the rest of the cycle, and no other call that expects it there moves it. -/
theorem PageAdvanced.only (startOf : ScopeKey → ℕ) {db db' : Db} {cs : List Command}
    {out : Result ℕ × Db} (hpage : page.Descends) (h : PageAdvanced store events page db out)
    (hcs : ∀ c ∈ cs, c.WithinCycle (store.key page.scope))
    (hrun : run (Db.step startOf) out.2 cs = some db') :
    (∀ b ∈ db'.cursor (store.key page.scope), ∀ height,
        page.expectedNext.height = some height → b.height < height) ∧
      ∀ store' events' page' out', store'.key page'.scope = store.key page.scope →
        page'.expectedNext = page.expectedNext →
          ¬ PageAdvanced store' events' page' db' out' := by
  obtain ⟨row, next, inserted, ⟨-, -, hcursor⟩, hnext, -, -, -, hcoverage, -⟩ := h
  obtain ⟨b₀, -, hb₀⟩ := Option.map_eq_some_iff.mp hcursor
  have hheight : page.expectedNext.height = some b₀.height := hb₀ ▸ rfl
  have hbelow : ∀ b ∈ db'.cursor (store.key page.scope), b.height < b₀.height := by
    refine run_invariant_along
      (I := fun s => ∀ b ∈ s.cursor (store.key page.scope), b.height < b₀.height)
      (C := fun _ c => c.WithinCycle (store.key page.scope))
      (fun s c t hs hc hstep => ?_) (fun b hb => ?_) (along_of_forall fun c hc _ => hcs c hc) hrun
    · cases hstep
      rcases s.exec_cursor startOf hc with hsame | ⟨b, hb, hlt⟩
      · rw [hsame]
        exact hs
      · exact fun b' hb' => (hlt b' hb').trans (hs b hb)
    · rw [Db.cursor, hcoverage] at hb
      obtain rfl : next = some b := hb
      obtain ⟨expected, height, hexpected, hbheight, hlt⟩ := hpage b.observed (hnext ▸ rfl)
      rw [hheight] at hexpected
      cases hexpected
      cases hbheight
      exact hlt
  refine ⟨fun b hb height hh => ?_, fun store' events' page' out' hkey hexpected hout => ?_⟩
  · rw [hheight] at hh
    cases hh
    exact hbelow b hb
  · obtain ⟨row', _, _, ⟨hrow', -, hcursor'⟩, -⟩ := hout
    obtain ⟨b, hb, hbo⟩ := Option.map_eq_some_iff.mp hcursor'
    have hmem : b ∈ db'.cursor (store.key page.scope) := by
      rw [Db.cursor, ← hkey, hrow']
      exact hb
    have hsame : b = b₀ := by
      cases b
      cases b₀
      cases hbo.trans (hexpected.trans hb₀.symm)
      rfl
    exact absurd (hbelow b hmem) (hsame ▸ lt_irrefl _)

end

end Bip300Monitor
