import Bip300Monitor.Backfill.PageSizes
import Bip300Monitor.Backfill.Quarantine

/-!
# What a call has reached

A call that returns that its history is up to date or completed has left the row of the scope complete,
with the block that it names as the proven tip. The state here is that row alone.

## What is proved

* `perform_finishes` — a page that ends a cycle completes its row;
* `runHistory_reaches`, `iterate_reaches` — a call says that it reached a target only if its row does;
* `Import.step_truthful` — so does every call of every run;
* `Import.Steady.step` — where no instance can be retired, a step keeps what is certified, and what is
  suspended.
-/

namespace Bip300Monitor.Backfill

open Protobuf Transaction Runs Resumption

/-- The row is complete, with this block as its proven tip. -/
def Reached (target : ObservedBlock) (s : Option CoverageRow) : Prop :=
  ∃ row ∈ s, row.status = .complete ∧ ∃ tip ∈ row.coveredTip, tip.hash = target.hash

variable {P : Type} {s t : Option CoverageRow} {row : CoverageRow}

/-! ### The interface -/

/-- What a page that ends a cycle does to the row. -/
def finishes : (e : Op P) → Option CoverageRow → e.Resp → Option CoverageRow → Prop
  | .recordHistoryPage _ _ none, s, r, t => (∃ inserted, r = .ok inserted) →
    ∃ row ∈ s, ∃ row' ∈ t, row'.status = .complete ∧ row'.coveredTip = some row.targetTip
  | _, _, _, _ => True

/-- The engine's operations on its row; it asks for no instance but that of its own slot. -/
def reaches (scope : HistoryScope) : Interface (Option CoverageRow) (Op P) Op.Resp where
  __ := sizes (P := P)
  pre e _ := ∀ slot ∈ e.checkedSlot?, scope.sidechain = some slot
  sem e s r t := moves e s r t ∧ finishes e s r t

section
variable [Digests] {imp : Import P} {run : Uuid} {env : Environment P} {db : Db}

/-- **The page that ends a cycle** completes its row. -/
theorem perform_finishes (e : Op P) :
    finishes e (imp.row db) (imp.perform run env db e).1 (imp.row (imp.perform run env db e).2) := by
  cases e with
  | recordHistoryPage events expectedNext next =>
    cases next with
    | some next => trivial
    | none =>
      rintro ⟨inserted, h⟩
      obtain ⟨row, expected, next, hrow, hparts, ht⟩ :=
        recordHistoryPage_row (Environment.deliver_eq_ok (Prod.ext h rfl))
      obtain rfl : next = none := by
        rcases optionalBlockParts_eq_ok hparts with ⟨-, hnone⟩ | ⟨hash, height, hsome, -, -⟩
        · exact hnone
        · cases hsome
      exact ⟨row, hrow, _, ht, rfl, rfl⟩
  | _ => trivial

end

/-! ### What is known of the row -/

/-- The row has the target of the loop. -/
def Aims (l : Locals) (s : Option CoverageRow) : Prop := ∃ row ∈ s, row.targetTip = l.progress.targetTip

/-- What is asked of the end of an iteration: if it goes round again, that the row has the target of the
loop, and if it leaves with a target that was reached, that the row says so. -/
structure Ended (r : Locals ⊕ Outcome) (s : Option CoverageRow) : Prop where
  goes : ∀ l, r = .inl l → Aims l s
  leaves : ∀ o, r = .inr o → ∀ target ∈ o.reached?, Reached target s

theorem ended_inl {l : Locals} : Ended (.inl l) s ↔ Aims l s := by
  constructor
  · exact fun h => h.goes l rfl
  · intro h
    refine ⟨fun l' hl => ?_, fun _ ho => by cases ho⟩
    cases hl
    exact h

theorem ended_inr {o : Outcome} : Ended (.inr o) s ↔ ∀ target ∈ o.reached?, Reached target s := by
  constructor
  · exact fun h => h.leaves o rfl
  · intro h
    refine ⟨fun _ hl => (by cases hl), fun o' ho => ?_⟩
    cases ho
    exact h

variable {l : Locals} {scope : HistoryScope} {stream : HistoryStream P}

/-- The programs of the engine, with what becomes of the row. -/
abbrev Reaching {α : Type} (scope : HistoryScope) (p : Engine P α) (Q : α → Option CoverageRow → Prop)
    (s : Option CoverageRow) : Prop :=
  wpe (reaches scope) p Q s

/-- An operation other than a check of the instance. -/
theorem reaches_pre {e : Op P} (he : e.checkedSlot? = none) : (reaches scope).pre e s := by
  intro slot hslot
  rw [he] at hslot
  cases hslot

/-! ### The outline -/

/-- What is known of the row at each point of a call. -/
def ReachedAt : Point P → Option CoverageRow → Prop
  | .start, _ | .retired, _ | .free, _ | .begins _, _ => True
  | .read existing, s => s = existing
  | .begun row, s => s = some row
  | .loop l, s | .page l .., s | .marked l .., s | .commit l .., s => Aims l s
  | .reached target, s => Reached target s

/-- Where the row is written without its target, the loop aims at it still. -/
theorem Aims.written {l' : Locals} {row' : CoverageRow} (h : Aims l s)
    (ht : ∃ row ∈ s, t = some row' ∧ row'.targetTip = row.targetTip)
    (hl : l'.progress.targetTip = l.progress.targetTip) : Aims l' t := by
  obtain ⟨row, hrow, rfl, htarget⟩ := ht
  obtain ⟨old, hold, haims⟩ := h
  obtain rfl : row = old := Option.some.inj (hrow.symm.trans hold)
  exact ⟨row', rfl, htarget.trans (haims.trans hl.symm)⟩

/-- The last page has reached the target, and any other leaves the row with it. -/
theorem record_reaches {cursor : Block} {next : Option Block} (events : List Event) :
    Leads (reaches scope) (Aims l)
      (.recordHistoryPage events cursor.observed (next.map Block.observed) : Op P) fun r t =>
        ∀ inserted, r = .ok inserted → (next = none → Reached l.target t) ∧
          (next ≠ none → Aims (l.moved events.length inserted next) t) := by
  rintro s ⟨row, hrow, htarget⟩
  refine ⟨reaches_pre rfl, ?_⟩
  rintro r t ⟨hmoves, hfinishes⟩ inserted rfl
  refine ⟨fun hnone => ?_, fun hne => ?_⟩
  · subst hnone
    obtain ⟨row', hrow', done, hdone, hstatus, hcovered⟩ := hfinishes ⟨inserted, rfl⟩
    obtain rfl : row = row' := Option.some.inj (hrow.symm.trans hrow')
    refine ⟨done, hdone, hstatus, row.targetTip, hcovered, ?_⟩
    rw [htarget]
    rfl
  · obtain ⟨b, rfl⟩ := Option.ne_none_iff_exists'.mp hne
    obtain ⟨row', hrow', moved, hmoved, -, htarget', -, -⟩ := hmoves ⟨inserted, rfl⟩ b rfl
    obtain rfl : row = row' := Option.some.inj (hrow.symm.trans hrow')
    exact ⟨moved, hmoved, htarget'.trans htarget⟩

/-- **The loop says the truth**, at every point. -/
def reachesLoop (stream : HistoryStream P) : LoopOutline (reaches (P := P) stream.scope) stream where
  At := ReachedAt
  stable _ _ _ h hst := hst ▸ h
  asks e he s := by
    refine ⟨reaches_pre (by cases e <;> trivial), fun r t ht => ?_⟩
    cases e with
    | shutdownRequested | currentTip | now | pagePause => exact ht.1
    | _ => exact he.elim
  settle _ _ := reaches_pre rfl
  current hslot _ s := by
    refine ⟨fun slot' hslot' => ?_, fun _ _ ht => ⟨ht.1, fun _ => trivial⟩⟩
    cases hslot'
    exact hslot
  supersede _ _ _ _ _ := reaches_pre rfl
  begin _ _ _ _ := ⟨reaches_pre rfl, fun _ _ ht row hr => (ht.1 row hr).1⟩
  enter l _ h := ⟨l.progress, h, rfl⟩
  anew _ _ _ := trivial
  fetch _ _ _ _ _ s h := by
    refine ⟨reaches_pre rfl, ?_⟩
    rintro r t ⟨rfl, -⟩
    exact ⟨h, fun _ _ _ _ _ _ => h⟩
  probe _ _ _ _ _ s h := by
    refine ⟨reaches_pre rfl, ?_⟩
    rintro r t ⟨rfl, -⟩
    exact h
  shrink l _ s h := by
    refine ⟨reaches_pre rfl, fun r t ht hr => ?_⟩
    obtain ⟨row, hrow, rfl⟩ := ht.1 hr
    exact h.written ⟨row, hrow, rfl, rfl⟩ rfl
  floor _ _ _ _ s h := by
    refine ⟨reaches_pre rfl, ?_⟩
    rintro r t ⟨rfl, -⟩ _ _
    exact h
  cut _ _ _ _ _ _ _ _ _ _ _ _ _ s h := by
    refine ⟨reaches_pre rfl, fun r t ht hr => ?_⟩
    obtain ⟨row, hrow, rfl⟩ := ht.1 hr
    exact Aims.written h ⟨row, hrow, rfl, rfl⟩ rfl
  keep _ _ _ _ _ _ _ _ _ _ _ _ _ _ _ _ _ _ h := h
  repair _ _ _ _ _ _ := trivial
  recut _ _ _ _ _ := trivial
  record _ _ _ _ events _ := record_reaches events

/-- And so does a call: nothing is to be done above a proven tip that is the block itself. -/
def reachesOutline (stream : HistoryStream P) (settings : Settings) :
    Outline (reaches (P := P) stream.scope) stream settings where
  __ := reachesLoop stream
  check _ _ := ⟨reaches_pre rfl, fun _ _ _ _ _ _ => trivial⟩
  read s _ := by
    refine ⟨reaches_pre rfl, ?_⟩
    rintro r t ⟨⟨hread, rfl⟩, -⟩ existing hr
    exact (hread existing hr).symm
  first _ _ := trivial
  running _ _ _ h := h
  resume row s h := by
    refine ⟨reaches_pre rfl, fun r t ht hr => ?_⟩
    have hrow : s = some row := h
    obtain ⟨row', hrow', rfl⟩ := ht.1 hr
    obtain rfl : row = row' := Option.some.inj (hrow.symm.trans hrow')
    rfl
  upToDate row covered _ _ hcomplete hcovered hhash h := ⟨row, h, hcomplete, covered, hcovered, hhash⟩
  extend _ _ _ _ _ _ _ _ _ := ⟨reaches_pre rfl, fun _ _ ht row hr => (ht.1 row hr).1⟩
  again _ _ _ := trivial

theorem reachesLoop_ends {r : Locals ⊕ Outcome} (h : (reachesLoop stream).Ends r s) : Ended r s := by
  cases r with
  | inl l => exact ended_inl.mpr h
  | inr o => exact ended_inr.mpr h

/-- **Up to its loop** a call says that it is up to date only if it is. -/
theorem runHistory_reaches (tip : ObservedBlock) (settings : Settings) :
    Reaching stream.scope (runHistory stream tip settings) Ended s :=
  wpe_mono _ (fun _ _ => reachesLoop_ends) ((reachesOutline stream settings).runHistory_ends tip trivial)

/-- **An iteration** says that the target is reached only if it is. -/
theorem iterate_reaches {settings : Settings} (h : Aims l s) :
    Reaching stream.scope (iterate stream settings l) Ended s :=
  wpe_mono _ (fun _ _ => reachesLoop_ends) ((reachesLoop stream).iterate_ends h)

/-! ### Every run -/

section
variable [Digests] {imp : Import P} {st st' : State P}

/-- Whatever is left of a call says that a target is reached only if it is. -/
def Import.Truthful (imp : Import P) (st : State P) : Prop :=
  ∀ c, st.call = some c → Reaching imp.stream.scope c.proc Ended (imp.row st.record.db)

omit [Digests] in
theorem Import.truthful_of_idle (h : st.call = none) : imp.Truthful st := fun c hc => by
  rw [h] at hc
  cases hc

/-- **A step** leaves a call that says the truth. -/
theorem Import.step_truthful {a : Action P} (h : imp.Truthful st) (hstep : imp.step st a = some st') :
    imp.Truthful st' := by
  intro c hc
  cases Import.step_cases hstep with
  | world command hkey _ =>
    have hrow : imp.row (st.record.db.exec imp.startOf command) = imp.row st.record.db :=
      (st.record.db.exec_elsewhere imp.startOf command hkey).coverage
    exact hrow ▸ h c hc
  | call run tip settings =>
    cases hc
    exact runHistory_reaches tip settings
  | op env hcall =>
    cases hc
    exact (h _ hcall _ rfl).2 _ _ ⟨perform_moves _, perform_finishes _⟩
  | @round env run settings l hcall =>
    have hl : Aims l (imp.row st.record.db) := (h _ hcall (.inl l) rfl).goes l rfl
    cases hc
    exact iterate_reaches hl
  | leave | crash => cases hc

omit [Digests] in
/-- A target that a call returns is reached. -/
theorem Import.Truthful.reached (h : imp.Truthful st) {c : Call P} (hc : st.call = some c) {o : Outcome}
    (hproc : c.proc = .ret (.ok (.inr o))) {target : ObservedBlock} (htarget : target ∈ o.reached?) :
    Reached target (imp.row st.record.db) := by
  have hleft := h c hc
  rw [hproc] at hleft
  exact (hleft (.inr o) rfl).leaves o rfl target htarget

omit [Digests] in
/-- A call of a scope without a slot asks for no instance. -/
theorem Import.Truthful.unchecked (h : imp.Truthful st) (hscope : imp.stream.scope.sidechain = none)
    {e : Op P} (he : st.next? = some e) : e.checkedSlot? = none := by
  obtain ⟨⟨run, settings, proc⟩, hcall, he⟩ := Option.bind_eq_some_iff.mp he
  have hleft := h _ hcall
  cases proc with
  | ret r => cases he
  | op e' k =>
    cases he
    refine Option.eq_none_iff_forall_ne_some.mpr fun slot hslot => ?_
    have hpre := (hleft _ rfl).1 slot hslot
    rw [hscope] at hpre
    cases hpre

/-! ### A scope without a slot -/

/-- What holds in every state of a run, when the scope is of no slot. -/
structure Import.Steady (imp : Import P) (st : State P) : Prop where
  inv : imp.Inv unretired st
  truthful : imp.Truthful st

theorem Import.steady_empty : imp.Steady State.empty := ⟨Import.inv_empty, Import.truthful_of_idle rfl⟩

/-- The assumption is met: no instance is asked for. -/
theorem Import.Steady.holds (h : imp.Steady st) (hscope : imp.stream.scope.sidechain = none)
    (a : Action P) : imp.Holds unretired st a := by
  cases a with
  | advance env =>
    intro e he
    have hunchecked := h.truthful.unchecked hscope he
    cases e with
    | currentSidechainInstanceId => cases hunchecked
    | fetch | beginHistoryCycle => exact fun hfalse => hfalse.elim
    | _ => trivial
  | world command => exact fun hfalse => hfalse.elim
  | _ => trivial

/-- **One step** keeps what is certified, and what is suspended. -/
theorem Import.Steady.step (h : imp.Steady st) (hscope : imp.stream.scope.sidechain = none) {a : Action P}
    (hstep : imp.step st a = some st') :
    imp.Steady st' ∧ imp.Safe unretired st.record.db st'.record.db := by
  have hkeeps := Import.step_inv h.inv (h.holds hscope a) hstep
  refine ⟨⟨hkeeps.inv, Import.step_truthful h.truthful hstep⟩, hkeeps.inv.durable, ?_, hkeeps.quarantined⟩
  cases Import.step_cases hstep with
  | world command _ hread =>
    exact (st.record.db.exec_keeps command fun p hp => h.inv.record.2 p (hread hp)).certified
  | @op env run settings e k hcall =>
    have hguard : imp.Guard unretired env st.record.db e :=
      h.holds hscope (.advance env) e (by simp [State.next?, hcall, Prog.next?])
    exact (Import.perform_safe h.inv.durable hguard (good_pre (h.inv.call _ hcall))).certified
  | call | round | leave | crash => exact fun _ hc => hc

/-- So does a run. -/
theorem Import.Steady.run (h : imp.Steady st) (hscope : imp.stream.scope.sidechain = none)
    {as : List (Action P)} (hrun : Runs.run imp.step st as = some st') :
    imp.Steady st' ∧ imp.Safe unretired st.record.db st'.record.db := by
  refine run_invariant (I := fun u => imp.Steady u ∧ imp.Safe unretired st.record.db u.record.db)
    (fun u a v hu hstep => ?_) ⟨h, h.inv.durable.safe⟩ hrun
  obtain ⟨hsteady, hsafe⟩ := hu.1.step hscope hstep
  exact ⟨hsteady, hsafe.durable, fun _ hc => hsafe.certified (hu.2.certified hc),
    fun hs hq => hsafe.quarantined hs (hu.2.quarantined hs hq)⟩

end

/-- A target that is reached is certified. -/
theorem Reached.certifies {imp : Import P} {db : Db} {target : ObservedBlock} (h : Reached target (imp.row db))
    (hdb : CertifiedPrefix imp.startOf db) : ∃ b : Block, b.hash = target.hash ∧ db.certifies imp.key b := by
  obtain ⟨row, hrow, -, tip, htip, hhash⟩ := h
  exact ⟨tip, hhash, hdb.covered _ row tip hrow htip⟩

/-- **Below a certified block** the record has a fact for each block down to the start. -/
theorem Import.exists_factChain {imp : Import P} {db : Db} {b : Block} (hdb : CertifiedPrefix imp.startOf db)
    (h : db.certifies imp.key b) :
    ∃ chain, IsFactChain db imp.key b imp.stream.activationHeight chain := by
  obtain ⟨c, hc, hscope, hblock, hheight⟩ := h
  obtain ⟨chain, hchain⟩ := hdb.exists_factChain hc
  rw [hscope, hblock, hheight, imp.startOf_key] at hchain
  exact ⟨chain, hchain⟩

end Bip300Monitor.Backfill
