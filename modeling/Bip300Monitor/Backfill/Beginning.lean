import Bip300Monitor.Backfill.Agreement
import Bip300Monitor.Backfill.Serving

/-!
# A call up to its loop, on time

The pieces of `run_history` again, for an upstream that serves (`Import.serving`): not only that they keep
the scope, but that none fails, and how many operations each takes. A round of the loop is paid for by what
it leaves less of (`Locals.budget`): blocks to walk, ways to make the page smaller, and the one walk that
may have to be made again.

An outline (`Backfill.Outline`) says what a piece leaves behind if it does not fail, so it is of no use
here: why a piece does not fail, and what it takes, is another argument for each of them.

## What is proved

* `timely_prepareCycle` — a cycle is begun, resumed or extended, or there is nothing to do;
* `timely_runHistory` — a call gets to its loop with enough time left for the rest.
-/

namespace Bip300Monitor.Backfill

open Protobuf Transaction Runs Resumption

variable {P : Type} {imp : Import P} {hdr : Headers} {run : Uuid} {bound n : ℕ}

/-! ### The loop -/

/-- The blocks that are left through the floor. -/
def Locals.remaining (l : Locals) : ℕ :=
  l.progress.next.elim 0 fun b => l.progress.floorHeight.elim (b.height + 1) fun floor => b.height - floor

/-- How many steps the rest of a call takes at most: eight a block, five for each time that the page can be
made smaller, and those of a second walk if the branch may yet have to be repaired. -/
def Locals.budget (l : Locals) : ℕ :=
  8 * l.remaining + 5 * l.progress.effectivePageBlocks +
    if l.restartedFromActivation then 0 else 8 * (l.progress.targetTip.height + 1) + 6

/-- The loop is on its way to the target. -/
structure Import.Walking (imp : Import P) (target : Block) (l : Locals) (db : Db) : Prop where
  loop : imp.LoopInv l db
  target : l.progress.targetTip = target
  pos : 0 < l.progress.effectivePageBlocks
  sized : l.progress.effectivePageBlocks ≤ maxHeight
  noFloor : l.restartedFromActivation = true → l.progress.floorHash = none

/-- The scope is complete through the target. -/
def Import.Complete (imp : Import P) (target : Block) (db : Db) : Prop :=
  ∃ row b, imp.row db = some row ∧ row.status = .complete ∧ row.coveredTip = some b ∧ b.hash = target.hash

/-- The scope is suspended, by a conflict that is retained in it. -/
def Import.Suspended (imp : Import P) (db : Db) : Prop :=
  (∃ row, imp.row db = some row ∧ row.quarantined) ∧ db.retainsConflict imp.key

/-- How a call that is served leaves its loop. -/
def Import.Left (imp : Import P) (target : Block) (o : Outcome) (db : Db) : Prop :=
  match o with
  | .upToDate _ | .completed .. => imp.Complete target db
  | .quarantined _ => imp.Suspended db
  | .deferred .. | .superseded .. | .interrupted .. => False

section
variable {db db' : Db} {target : Block} {l : Locals}

theorem Import.Walking.goes (h : imp.Walking target l db) (hgoes : imp.Goes db db') :
    imp.Walking target l db' :=
  { h with loop := h.loop.rely hgoes.toRely }

theorem Import.Left.goes {o : Outcome} (h : imp.Left target o db) (hgoes : imp.Goes db db') :
    imp.Left target o db' := by
  have complete (h : imp.Complete target db) : imp.Complete target db' := by
    obtain ⟨row, b, hrow, hrest⟩ := h
    exact ⟨row, b, hgoes.row.trans hrow, hrest⟩
  cases o with
  | upToDate => exact complete h
  | completed => exact complete h
  | quarantined =>
    obtain ⟨⟨row, hrow, hq⟩, c, hc, e, he, hrest⟩ := h
    exact ⟨⟨row, hgoes.row.trans hrow, hq⟩, c, hgoes.conflicts hc, e, hgoes.events he, hrest⟩
  | deferred | superseded | interrupted => exact h

/-- The blocks of the loop. -/
theorem Locals.remaining_eq {cursor : Block} {remaining : ℕ} (hnext : l.progress.next = some cursor)
    (h : blocksThroughFloor cursor.height l.progress.floorHeight = .ok remaining) :
    l.remaining = remaining := by
  unfold Locals.remaining
  rw [hnext]
  rcases blocksThroughFloor_eq_ok.mp h with ⟨hnone, rfl⟩ | ⟨floor, hsome, -, rfl⟩
  · rw [hnone]
    rfl
  · rw [hsome]
    rfl

end

section
variable [Digests] {s t : imp.Readied hdr run}

/-- The engine's programs, with a bound on their operations. -/
abbrev Timely {α : Type} (imp : Import P) (hdr : Headers) (run : Uuid) (bound : ℕ) (p : Engine P α)
    (Q : α → imp.Readied hdr run → ℕ → Prop) (s : imp.Readied hdr run) (n : ℕ) : Prop :=
  Total (imp.serving hdr run) bound p Q s n

theorem timely_ask (e : Op P) {Q : e.Resp → imp.Readied hdr run → ℕ → Prop} :
    Timely imp hdr run bound (ask e) Q s n ↔ ∀ t : imp.Readied hdr run, imp.Goes s.1 t.1 →
      ((imp.Pre (served hdr) t.1 e ∧ imp.Due e) ∧ n < bound) ∧
      ∀ r (u : imp.Readied hdr run),
        (∃ env, imp.Answers hdr env e ∧ imp.perform run env t.1 e = (r, u.1)) → Q r u (n + 1) :=
  total_call e

omit [Digests] in
/-- What an operation answers when the connection holds. -/
theorem deliver_quiet {α : Type} {env : Environment P} (henv : env.Quiet) (db : Db) (out : Result α × Db) :
    env.deliver db out = out := by
  simp only [Environment.deliver, henv.fault]

omit [Digests] in
theorem Import.Goes.refl (db : Db) : imp.Goes db db := ⟨.refl db, fun _ h => h⟩

omit [Digests] in
theorem Import.Goes.trans {s t u : Db} (h : imp.Goes s t) (h' : imp.Goes t u) : imp.Goes s u :=
  ⟨h.toRely.trans h'.toRely, fun _ hc => h'.conflicts (h.conflicts hc)⟩

/-! ### Up to the loop -/

theorem timely_scopeIsCurrent (hn : n < bound) : Timely imp hdr run bound (scopeIsCurrent imp.stream.scope)
    (fun current t m => current = true ∧ imp.Goes s.1 t.1 ∧ m ≤ n + 1) s n := by
  unfold scopeIsCurrent
  split
  · rename_i slot id hslot hid
    simp only [Timely, total_bind, total_attempt, total_pure]
    refine (timely_ask _).mpr fun t hst => ⟨⟨⟨trivial, trivial⟩, hn⟩, ?_⟩
    rintro r u ⟨env, henv, hperform⟩
    simp only [Import.perform, deliver_quiet henv.quiet, Prod.mk.injEq] at hperform
    obtain ⟨rfl, htu⟩ := hperform
    have hcurrent := t.2.stands.current slot hslot (by simp [hid])
    refine ⟨_, rfl, ?_, htu ▸ hst, le_rfl⟩
    rw [hcurrent, hid]
    simp
  · simp only [Timely, total_pure]
    exact ⟨trivial, .refl _, Nat.le_succ n⟩

theorem timely_historyCoverage {Q : Result (Option CoverageRow) → imp.Readied hdr run → ℕ → Prop}
    (hscope : validateHistoryScope imp.stream.scope = .ok ()) (hn : n < bound)
    (h : ∀ t : imp.Readied hdr run, imp.Goes s.1 t.1 → Q (.ok (imp.row t.1)) t (n + 1)) :
    Timely imp hdr run bound (ask .historyCoverage) Q s n := by
  refine (timely_ask _).mpr fun t hst => ⟨⟨⟨trivial, trivial⟩, hn⟩, ?_⟩
  rintro r u ⟨env, henv, hperform⟩
  have hread : historyCoverage (imp.store run) imp.stream.scope t.1 = .ok (imp.row t.1, t.1) :=
    Tx.lift_bind_eq_ok.mpr ⟨(), hscope, Tx.read_bind_eq_ok.mpr rfl⟩
  simp only [Import.perform, deliver_quiet henv.quiet, Tx.commit_eq_ok.mpr hread, Prod.mk.injEq] at hperform
  obtain ⟨rfl, htu⟩ := hperform
  obtain rfl : t = u := Subtype.ext htu
  exact h t hst

theorem timely_isQuarantined (hscope : validateHistoryScope imp.stream.scope = .ok ())
    (hq : ¬ imp.Quarantined s.1) (hn : n < bound) :
    Timely imp hdr run bound (isQuarantined imp.stream.scope)
      (fun quarantined t m => quarantined = false ∧ imp.Goes s.1 t.1 ∧ m = n + 1) s n := by
  simp only [isQuarantined, Timely, total_bind, total_attempt, total_pure]
  refine timely_historyCoverage hscope hn fun t hst => ⟨_, Result.context_eq_ok.mpr rfl, ?_, hst, rfl⟩
  refine decide_eq_false fun hrow => hq ?_
  obtain ⟨row, hrow, hquarantined⟩ := hrow
  exact ⟨row, hst.row.symm.trans hrow, hquarantined⟩


/-- A cycle may be begun towards the target. -/
structure Import.Targets (imp : Import P) (target : Block) : Prop where
  scope : validateHistoryScope imp.stream.scope = .ok ()
  slot : ∀ slot ∈ imp.stream.scope.sidechain, slot ≤ 255
  above : imp.stream.activationHeight ≤ target.height
  fits : target.height ≤ maxHeight
  hash : target.hash.length = 32

/-- A cycle that has just begun. -/
structure Import.Starts (imp : Import P) (target : Block) (floorHash : Option Bytes)
    (floorHeight : Option ℕ) (page : ℕ) (row : CoverageRow) (db : Db) : Prop where
  begun : imp.Begun row db
  next : row.next = some target
  towards : row.targetTip = target
  floorHash : row.floorHash = floorHash
  floorHeight : row.floorHeight = floorHeight
  page : row.effectivePageBlocks = page

omit [Digests] in
theorem Import.BeginOk.goes {db db' : Db} {coveredTip : Option ObservedBlock} {targetTip : ObservedBlock}
    {floorHash : Option Bytes} {floorHeight : Option ℕ}
    (h : imp.BeginOk db coveredTip targetTip floorHash floorHeight) (hgoes : imp.Goes db db') :
    imp.BeginOk db' coveredTip targetTip floorHash floorHeight := by
  refine h.imp_right fun h => ?_
  obtain ⟨b, hcovered, hhash, hheight, hcert, hlt⟩ := h
  exact ⟨b, hcovered, hhash, hheight, hcert.mono hgoes.certified, hlt⟩

omit [Digests] in
theorem Import.Goes.not_quarantined {db db' : Db} (hgoes : imp.Goes db db') (h : ¬ imp.Quarantined db) :
    ¬ imp.Quarantined db' :=
  hgoes.toRely.not_quarantined h

/-- A cycle is begun towards its target. -/
theorem timely_beginHistoryCycle {target : Block} (covered : Option Block) {floorHash : Option Bytes}
    {floorHeight : Option ℕ} {page : ℕ} {Q : Result CoverageRow → imp.Readied hdr run → ℕ → Prop}
    (htarget : imp.Targets target) (hq : ¬ imp.Quarantined s.1)
    (hbegin : imp.BeginOk s.1 (covered.map Block.observed) target.observed floorHash floorHeight)
    (hcovered : ∀ b ∈ covered, b.hash.length = 32) (hpos : 0 < page) (hsized : page ≤ maxHeight)
    (hn : n < bound)
    (h : ∀ row (t : imp.Readied hdr run), imp.Starts target floorHash floorHeight page row t.1 →
      Q (.ok row) t (n + 1)) :
    Timely imp hdr run bound (ask (.beginHistoryCycle imp.stream.activationHeight
      (covered.map Block.observed) target.observed floorHash floorHeight page)) Q s n := by
  refine (timely_ask _).mpr fun t hst => ?_
  have hbegin := hbegin.goes hst
  have hfloorLt : ∀ floor ∈ floorHeight, floor < target.height :=
    fun floor hfloor => hbegin.floor_lt rfl htarget.above hfloor
  have hcoveredLt : ∀ b ∈ covered, b.height < target.height := by
    intro b hb
    rcases hbegin with ⟨hnone, -⟩ | ⟨b', hb', -, -, -, hlt⟩
    · rw [hb] at hnone
      cases hnone
    · rw [hb] at hb'
      obtain rfl : b = b' := observed_injective (Option.some.inj hb')
      exact hlt target.height rfl
  have hfloorHash : (∀ hash ∈ floorHash, hash.length = 32) ∧ (floorHash = none ∨ floorHeight ≠ none) := by
    rcases hbegin with ⟨-, rfl, -⟩ | ⟨b, hb, rfl, rfl, -, -⟩
    · exact ⟨fun _ h => (by cases h), .inl rfl⟩
    · obtain ⟨b', hb', heq⟩ := Option.map_eq_some_iff.mp hb
      obtain rfl : b' = b := observed_injective heq
      refine ⟨fun hash hhash => ?_, .inr (Option.some_ne_none _)⟩
      cases hhash
      exact hcovered b' hb'
  refine ⟨⟨⟨⟨rfl, fun _ => hst.not_quarantined hq, hbegin⟩, hsized, _, rfl, htarget.above⟩, hn⟩, ?_⟩
  rintro r u ⟨env, henv, hperform⟩
  have hvalid : CoverageRow.valid ⟨imp.stream.activationHeight,
      covered <|> (t.1.coverage imp.key).bind (·.coveredTip), target, floorHash, floorHeight, some target,
      .running, (t.1.coverage imp.key).elim 0 (·.rowsRecorded), page, none⟩ imp.key := by
    refine ⟨htarget.slot, fun tip htip => ?_, htarget.hash, hfloorHash.1, fun next hnext => ?_,
      hfloorHash.2, hpos, iff_of_false (by simp) (Option.some_ne_none _)⟩
    · cases hc : covered with
      | some b =>
        rw [hc] at htip
        cases htip
        exact hcovered _ hc
      | none =>
        rw [hc] at htip
        obtain ⟨old, hold, htip⟩ := Option.bind_eq_some_iff.mp htip
        exact (t.2.durable.row old hold).valid.2.1 tip htip
    · cases hnext
      exact htarget.hash
  have haccepts : ∃ row, beginHistoryCycle (imp.store run) imp.stream.scope imp.stream.activationHeight
      (covered.map Block.observed) target.observed floorHash floorHeight page t.1 =
        .ok (row, t.1.setCoverage imp.key row) :=
    beginHistoryCycle_accepts htarget.scope (htarget.above.trans htarget.fits)
      (fun b hb => (hcoveredLt b hb).le.trans htarget.fits) htarget.fits
      (fun floor hfloor => (hfloorLt floor hfloor).le.trans htarget.fits) hsized t.2.stands.registered hvalid
  obtain ⟨row, hok⟩ := haccepts
  simp only [Import.perform, deliver_quiet henv.quiet, Tx.commit_eq_ok.mpr hok, Prod.mk.injEq] at hperform
  obtain ⟨rfl, htu⟩ := hperform
  obtain ⟨_, height, -, -, hheight, -, -, -, rfl⟩ := beginHistoryCycle_inv hok
  obtain rfl : target.height = height := Option.some.inj hheight
  exact h _ u ⟨⟨htu ▸ Db.setCoverage_coverage_self _ _ _, rfl⟩, rfl, rfl, rfl, rfl, rfl⟩

/-- A full cycle is begun. -/
theorem timely_beginFullCycle {target : Block} {page : ℕ} (htarget : imp.Targets target)
    (hq : ¬ imp.Quarantined s.1) (hpos : 0 < page) (hsized : page ≤ maxHeight) (hn : n < bound) :
    Timely imp hdr run bound (beginFullCycle imp.stream target.observed page) (fun row t m =>
      imp.Starts target none (checkedSub imp.stream.activationHeight 1) page row t.1 ∧ m = n + 1) s n := by
  simp only [beginFullCycle, Timely, total_bind, total_attempt]
  refine timely_beginHistoryCycle none htarget hq (.inl ⟨rfl, rfl, rfl⟩)
    (fun _ h => (by cases h)) hpos hsized hn fun row t hrow => ?_
  exact ⟨row, Result.context_eq_ok.mpr rfl, hrow, rfl⟩

/-- A row that failed or was superseded is resumed. -/
theorem timely_resumeCycle {row : CoverageRow} (hrow : imp.row s.1 = some row)
    (hstatus : row.status = .error ∨ row.status = .superseded) (hq : ¬ imp.Quarantined s.1)
    (hn : n < bound) :
    Timely imp hdr run bound (resumeCycle imp.stream row) (fun row' t m => imp.Begun row' t.1 ∧
      row'.targetTip = row.targetTip ∧ row'.effectivePageBlocks = row.effectivePageBlocks ∧ m = n + 1)
      s n := by
  simp only [resumeCycle, Timely, total_bind, total_attempt, total_pure]
  refine (timely_ask _).mpr fun t hst => ⟨⟨⟨fun _ => hst.not_quarantined hq, trivial⟩, hn⟩, ?_⟩
  rintro r u ⟨env, henv, hperform⟩
  have hrowT : imp.row t.1 = some row := hst.row.trans hrow
  have hinv := t.2.durable.row row hrowT
  have hok : resumeHistory (imp.store run) imp.stream.scope t.1 = .ok ((), t.1.setCoverage imp.key
      { row with status := .running, lastError := none }) :=
    resumeHistory_accepts hinv.scope hrowT hstatus hinv.valid
  simp only [Import.perform, deliver_quiet henv.quiet, Tx.commit_eq_ok.mpr hok, Prod.mk.injEq] at hperform
  obtain ⟨rfl, htu⟩ := hperform
  refine ⟨(), Result.context_eq_ok.mpr rfl, ⟨?_, rfl⟩, ?_⟩
  · rw [← htu]
    exact Db.setCoverage_coverage_self _ _ _
  · simp only [and_self]

/-- What a call walks towards: the target of a walk that was not finished, else the tip. -/
def Import.goal (imp : Import P) (tip : Block) (db : Db) : Block :=
  ((imp.row db).filter (·.status ≠ .complete)).elim tip (·.targetTip)

/-- The page that it begins with. -/
def Import.page (imp : Import P) (configured : ℕ) (db : Db) : ℕ :=
  (imp.row db).elim configured fun row =>
    if row.status = .complete then min row.effectivePageBlocks configured else row.effectivePageBlocks

section
variable {db : Db} {row : CoverageRow} {configured : ℕ}

omit [Digests] in
theorem Import.goal_of_unfinished (tip : Block) (hrow : imp.row db = some row)
    (h : row.status ≠ .complete) : imp.goal tip db = row.targetTip := by
  rw [Import.goal, hrow, Option.filter_some, if_pos (decide_eq_true h), Option.elim_some]

omit [Digests] in
theorem Import.goal_of_complete (tip : Block) (hrow : imp.row db = some row)
    (h : row.status = .complete) : imp.goal tip db = tip := by
  rw [Import.goal, hrow, Option.filter_some, if_neg (by simp [h]), Option.elim_none]

omit [Digests] in
theorem Import.page_of_unfinished (hrow : imp.row db = some row) (h : row.status ≠ .complete) :
    imp.page configured db = row.effectivePageBlocks := by
  rw [Import.page, hrow, Option.elim_some, if_neg h]

omit [Digests] in
theorem Import.page_of_complete (hrow : imp.row db = some row) (h : row.status = .complete) :
    imp.page configured db = min row.effectivePageBlocks configured := by
  rw [Import.page, hrow, Option.elim_some, if_pos h]

end

/-- How a cycle is prepared: there is nothing to do, or there is a running row. -/
structure Import.Prepared (imp : Import P) (target : Block) (page : ℕ) (r : Option CoverageRow) (db : Db) :
    Prop where
  none : r = none → imp.Complete target db
  some : ∀ row, r = some row → imp.Begun row db ∧ row.targetTip = target ∧ row.effectivePageBlocks = page

omit [Digests] in
theorem Import.Starts.prepared {target : Block} {floorHash : Option Bytes} {floorHeight : Option ℕ}
    {page : ℕ} {row : CoverageRow} {db : Db} (h : imp.Starts target floorHash floorHeight page row db) :
    imp.Prepared target page (.some row) db where
  none hnone := by cases hnone
  some row' hrow' := by
    cases hrow'
    exact ⟨h.begun, h.towards, h.page⟩

/-- A complete row is extended, unless the tip is what it covers. -/
theorem timely_extendCycle {row : CoverageRow} {target : Block} {configured : ℕ}
    (htarget : imp.Targets target) (hrow : imp.row s.1 = some row) (hstatus : row.status = .complete)
    (hpos : 0 < configured) (hn : n < bound) :
    Timely imp hdr run bound (extendCycle imp.stream row target.observed target.height configured)
      (fun r t m => imp.Prepared target (min row.effectivePageBlocks configured) r t.1 ∧ m ≤ n + 1) s n := by
  have hinv := s.2.durable.row row hrow
  have hq : ¬ imp.Quarantined s.1 := by
    rintro ⟨row', hrow', herror, -⟩
    obtain rfl : row = row' := Option.some.inj (hrow.symm.trans hrow')
    rw [hstatus] at herror
    cases herror
  obtain ⟨covered, hcovered⟩ := Option.isSome_iff_exists.mp
    (s.2.durable.certified.complete _ row hrow hstatus)
  have hpagePos : 0 < min row.effectivePageBlocks configured :=
    lt_min hinv.valid.2.2.2.2.2.2.1 hpos
  have hsized : min row.effectivePageBlocks configured ≤ maxHeight :=
    (min_le_left _ _).trans (s.2.sized row hrow)
  simp only [extendCycle, Timely, total_bind, total_attempt, expect_eq_ok]
  refine ⟨covered, hcovered, ?_⟩
  split_ifs with hsame hlt
  · simp only [total_pure]
    refine ⟨⟨fun _ => ⟨row, covered, hrow, hstatus, hcovered, hsame⟩, fun _ h => (by cases h)⟩, ?_⟩
    exact Nat.le_succ n
  · simp only [total_bind, total_attempt, total_pure]
    refine timely_beginHistoryCycle (some covered) htarget hq (.inr ⟨covered, rfl, rfl, rfl, ?_, ?_⟩)
      ?_ hpagePos hsized hn fun row' t hstarts => ⟨row', Result.context_eq_ok.mpr rfl, hstarts.prepared, le_rfl⟩
    · exact s.2.durable.certified.covered _ row covered hrow hcovered
    · intro height hheight
      cases hheight
      exact hlt
    · intro b hb
      cases hb
      exact hinv.valid.2.1 covered hcovered
  · simp only [total_bind, total_pure]
    refine total_mono (fun row' t m h => ?_) (timely_beginFullCycle htarget hq hpagePos hsized hn)
    exact ⟨h.1.prepared, h.2.le⟩

/-- **A cycle is prepared.** -/
theorem timely_prepareCycle {target : Block} {configured : ℕ} (htarget : imp.Targets target)
    (hq : ¬ imp.Quarantined s.1) (hpos : 0 < configured) (hsized : configured ≤ maxHeight)
    (hn : n + 2 ≤ bound) :
    Timely imp hdr run bound (prepareCycle imp.stream target.observed configured) (fun r t m =>
      imp.Prepared (imp.goal target s.1) (imp.page configured s.1) r t.1 ∧ m ≤ n + 2) s n := by
  simp only [prepareCycle, Timely, total_bind, total_attempt, requiredHeight_eq_ok, ensure_eq_ok]
  refine ⟨target.height, rfl, (), htarget.above, ?_⟩
  refine timely_historyCoverage htarget.scope (by omega) fun t hst => ⟨_, Result.context_eq_ok.mpr rfl, ?_⟩
  have hqT := hst.not_quarantined hq
  have hnext : n + 1 < bound := by omega
  have hgoal : imp.goal target s.1 = imp.goal target t.1 := by rw [Import.goal, Import.goal, hst.row]
  have hpage : imp.page configured s.1 = imp.page configured t.1 := by rw [Import.page, Import.page, hst.row]
  rw [hgoal, hpage]
  cases hrow : imp.row t.1 with
  | none =>
    have hnew : imp.goal target t.1 = target ∧ imp.page configured t.1 = configured := by
      rw [Import.goal, Import.page, hrow]
      exact ⟨rfl, rfl⟩
    rw [hnew.1, hnew.2]
    simp only [total_bind, total_pure]
    refine total_mono (fun row u m h => ?_) (timely_beginFullCycle htarget hqT hpos hsized hnext)
    exact ⟨h.1.prepared, h.2.le⟩
  | some row =>
    have hstart : row.coverageStartHeight = imp.stream.activationHeight :=
      (t.2.durable.certified.start _ row hrow).trans imp.startOf_key
    have resumes (hstatus : row.status = .error ∨ row.status = .superseded) :
        Timely imp hdr run bound (resumeCycle imp.stream row) (fun row' u m =>
          imp.Prepared (imp.goal target t.1) (imp.page configured t.1) (some row') u.1 ∧ m ≤ n + 2)
          t (n + 1) := by
      have hnot : row.status ≠ .complete := by
        rcases hstatus with h | h <;> simp [h]
      rw [Import.goal_of_unfinished target hrow hnot, Import.page_of_unfinished hrow hnot]
      refine total_mono (fun row' u m h => ?_) (timely_resumeCycle hrow hstatus hqT hnext)
      obtain ⟨hbegun, htip, hpage, rfl⟩ := h
      refine ⟨⟨fun h => (by cases h), fun row h => ?_⟩, le_rfl⟩
      cases h
      exact ⟨hbegun, htip, hpage⟩
    simp only [total_bind, total_attempt, ensure_eq_ok]
    refine ⟨(), hstart, ?_⟩
    cases hstatus : row.status with
    | running =>
      have hnot : row.status ≠ .complete := by simp [hstatus]
      rw [Import.goal_of_unfinished target hrow hnot, Import.page_of_unfinished hrow hnot]
      simp only [total_pure]
      refine ⟨⟨fun h => (by cases h), fun row' h => ?_⟩, Nat.le_succ _⟩
      cases h
      exact ⟨⟨hrow, hstatus⟩, rfl, rfl⟩
    | error =>
      simp only [total_bind, total_pure]
      exact resumes (.inl hstatus)
    | superseded =>
      simp only [total_bind, total_pure]
      exact resumes (.inr hstatus)
    | complete =>
      rw [Import.goal_of_complete target hrow hstatus, Import.page_of_complete hrow hstatus]
      exact timely_extendCycle htarget hrow hstatus hpos hnext

/-- The call goes round its loop again, and has time for the rest. -/
def Import.WalksOn (imp : Import P) (target : Block) (bound : ℕ) (l : Locals) (db : Db) (m : ℕ) : Prop :=
  imp.Walking target l db ∧ m + 1 + l.budget ≤ bound

/-- It has left the loop, and has time to return. -/
def Import.IsOut (imp : Import P) (target : Block) (bound : ℕ) (o : Outcome) (db : Db) (m : ℕ) : Prop :=
  imp.Left target o db ∧ m + 1 ≤ bound

/-- How an iteration ends. -/
abbrev Import.Ended (imp : Import P) (target : Block) (bound : ℕ) (r : Locals ⊕ Outcome) (db : Db) (m : ℕ) :
    Prop :=
  Sum.elim (fun l => imp.WalksOn target bound l db m) (fun o => imp.IsOut target bound o db m) r

/-- The steps that a call takes at most. -/
def allowance (target : Block) (page : ℕ) : ℕ := 16 * (target.height + 1) + 5 * page + 11

omit [Digests] in
/-- A walk begins at its target or below. -/
theorem Import.Walking.remaining_le {C : Conditions} {db : Db} {target : Block} {l : Locals}
    (h : imp.Walking target l db) (hdb : imp.Durable C db) : l.remaining ≤ target.height + 1 := by
  obtain ⟨row, hrow, hagrees⟩ := h.loop
  unfold Locals.remaining
  cases hnext : l.progress.next with
  | none => exact Nat.zero_le _
  | some b =>
    have hle : b.height ≤ target.height := by
      rw [← h.target, ← hagrees.target]
      exact (hdb.row row hrow).next_le b (hagrees.next.trans hnext)
    cases l.progress.floorHeight with
    | none => exact Nat.succ_le_succ hle
    | some floor =>
      change b.height - floor ≤ _
      omega

/-- **A call gets to its loop in time**, or finds that there is nothing to do. -/
theorem timely_runHistory {target : Block} {settings : Settings} (htarget : imp.Targets target)
    (hq : ¬ imp.Quarantined s.1) (hpos : 0 < settings.pageBlocks) (hsized : settings.pageBlocks ≤ maxHeight)
    (hn : n + allowance (imp.goal target s.1) (imp.page settings.pageBlocks s.1) ≤ bound) :
    Timely imp hdr run bound (runHistory imp.stream target.observed settings)
      (fun r t m => imp.Ended (imp.goal target s.1) bound r t.1 m) s n := by
  unfold allowance at hn
  simp only [runHistory, Timely, total_bind]
  refine total_mono (fun current t m hcurrent => ?_) (timely_scopeIsCurrent (by omega))
  obtain ⟨rfl, hst, hm⟩ := hcurrent
  simp only [if_true, total_bind]
  refine total_mono (fun quarantined u m' hquarantined => ?_)
    (timely_isQuarantined htarget.scope (hst.not_quarantined hq) (by omega))
  obtain ⟨rfl, htu, rfl⟩ := hquarantined
  have hsu := hst.trans htu
  have hgoal : imp.goal target s.1 = imp.goal target u.1 := by rw [Import.goal, Import.goal, hsu.row]
  have hpage : imp.page settings.pageBlocks s.1 = imp.page settings.pageBlocks u.1 := by
    rw [Import.page, Import.page, hsu.row]
  simp only [Bool.false_eq_true, if_false, total_bind]
  refine total_mono (fun r v m' hr => ?_)
    (timely_prepareCycle htarget (hsu.not_quarantined hq) hpos hsized (by omega))
  obtain ⟨hprepared, hm'⟩ := hr
  rw [← hgoal, ← hpage] at hprepared
  cases r with
  | none =>
    simp only [total_pure]
    exact ⟨hprepared.none rfl, by omega⟩
  | some row =>
    obtain ⟨hbegun, htip, hrowPage⟩ := hprepared.some row rfl
    let l : Locals := ⟨row, 0, 0, decide (row.floorHash = none)⟩
    have hwalking : imp.Walking (imp.goal target s.1) l v.1 := {
      loop := hbegun.loopInv rfl
      target := htip
      pos := (v.2.durable.row row hbegun.1).valid.2.2.2.2.2.2.1
      sized := v.2.sized row hbegun.1
      noFloor := fun h => of_decide_eq_true h }
    simp only [total_pure]
    refine ⟨hwalking, ?_⟩
    have hremaining := hwalking.remaining_le v.2.durable
    have hlPage : l.progress.effectivePageBlocks = imp.page settings.pageBlocks s.1 := hrowPage
    have hbudget : l.budget ≤ 8 * l.remaining + 5 * l.progress.effectivePageBlocks +
        (8 * (l.progress.targetTip.height + 1) + 6) := by
      unfold Locals.budget
      split_ifs <;> omega
    rw [hwalking.target, hlPage] at hbudget
    change m' + 1 + l.budget ≤ bound
    omega

end

end Bip300Monitor.Backfill
