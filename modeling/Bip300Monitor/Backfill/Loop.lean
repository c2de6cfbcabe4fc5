import Bip300Monitor.Backfill.Durable
import Bip300Monitor.Backfill.Outline

/-!
# The engine keeps the scope

A call of `run_history`, in any state of the record that meets the invariant and
whatever the rest of the monitor does between its operations, performs only operations
it may perform (`Import.Pre`). The invariant of the loop is that the row is running
and stands where the loop's own variables say; the outline of the loop (`Import.loopOutline`) has
it at the top.

## What is proved

* `runHistory_good`, `iterate_good` — a call is a good process from its first operation to
  its last.
-/

namespace Bip300Monitor.Backfill

open Protobuf Transaction Resumption

variable {P : Type} {C : Conditions} {imp : Import P} {row : CoverageRow}

/-! ### What is known of the row -/

/-- The row is running and stands where the variables of the loop say. -/
structure Agrees (progress row : CoverageRow) : Prop where
  status : row.status = .running
  next : row.next = progress.next
  target : row.targetTip = progress.targetTip
  floorHash : row.floorHash = progress.floorHash
  floorHeight : row.floorHeight = progress.floorHeight

/-- The invariant of the loop. -/
def Import.LoopInv (imp : Import P) (l : Locals) (db : Db) : Prop :=
  ∃ row, imp.row db = some row ∧ Agrees l.progress row

/-- The row is running, as returned. -/
def Import.Begun (imp : Import P) (row : CoverageRow) (db : Db) : Prop :=
  imp.row db = some row ∧ row.status = .running

/-- What an iteration must establish: if it goes round again, the invariant. -/
def Import.Next (imp : Import P) (r : Locals ⊕ Outcome) (db : Db) : Prop :=
  ∀ l, r = .inl l → imp.LoopInv l db

theorem Import.Begun.loopInv {db : Db} (h : imp.Begun row db) {l : Locals}
    (hl : l.progress = row) : imp.LoopInv l db :=
  ⟨row, h.1, ⟨h.2, by rw [hl], by rw [hl], by rw [hl], by rw [hl]⟩⟩

theorem Import.LoopInv.rely {db db' : Db} {l : Locals} (h : imp.LoopInv l db)
    (hr : imp.Rely db db') : imp.LoopInv l db' := by
  obtain ⟨row, hrow, hagrees⟩ := h
  exact ⟨row, hr.row.trans hrow, hagrees⟩

theorem Import.LoopInv.not_quarantined {db : Db} {l : Locals} (h : imp.LoopInv l db) :
    ¬ imp.Quarantined db := by
  rintro ⟨row, hrow, hq⟩
  obtain ⟨row', hrow', hagrees⟩ := h
  obtain rfl : row = row' := Option.some.inj (hrow.symm.trans hrow')
  exact not_quarantined_of_running hagrees.status hq

theorem Import.Rely.not_quarantined {db db' : Db} (hr : imp.Rely db db')
    (h : ¬ imp.Quarantined db) : ¬ imp.Quarantined db' := by
  rintro ⟨row, hrow, hq⟩
  exact h ⟨row, hr.row.symm.trans hrow, hq⟩

/-- The scope is not suspended: its row may be rewritten. -/
def Import.MaySupersede (C : Conditions) (imp : Import P) (db : Db) : Prop :=
  C.sticky → ¬ imp.Quarantined db

theorem Import.MaySupersede.rely {db db' : Db} (h : imp.MaySupersede C db) (hr : imp.Rely db db') :
    imp.MaySupersede C db' :=
  fun hs => hr.not_quarantined (h hs)

theorem Import.LoopInv.maySupersede {db : Db} {l : Locals} (h : imp.LoopInv l db) :
    imp.MaySupersede C db :=
  fun _ => h.not_quarantined

/-- The floor below a certified block is one a walk can join. -/
theorem Import.Durable.floorOk {db : Db} {header : BlockHeader} (h : imp.Durable C db)
    (hh : C.honest) (ht : Tells C.hdr header)
    (hc : ∃ c ∈ db.certified, c.scope = imp.key ∧ c.blockHash = header.hash) :
    db.certifies imp.key header.block ∧ db.FloorOk imp.key imp.stream.activationHeight
      ((checkedSub header.height 1).map fun _ => header.previousHash) (checkedSub header.height 1) := by
  obtain ⟨hcert, hparent⟩ := h.certified.parent (h.honest hh) hc
  rw [ht.1] at hcert hparent
  rw [ht.2, imp.startOf_key] at hparent
  refine ⟨hcert, ?_⟩
  cases hfloor : checkedSub header.height 1 with
  | none =>
    unfold checkedSub at hfloor
    split_ifs at hfloor
    change imp.stream.activationHeight = 0
    rcases hparent with h | ⟨height, h, -⟩
    · omega
    · omega
  | some floor =>
    obtain ⟨hle, hfloorEq⟩ := checkedSub_eq_some.mp hfloor
    rcases hparent with h | ⟨height, h, hbelow⟩
    · refine .inl ?_
      omega
    · obtain rfl : floor = height := by omega
      exact .inr ⟨header.previousHash, rfl, hbelow⟩

/-! ### The interface -/

theorem Import.Rely.refl (s : Db) : imp.Rely s s := ⟨rfl, fun _ h => h, fun _ h => h⟩

theorem Import.Rely.trans {s t u : Db} (h : imp.Rely s t) (h' : imp.Rely t u) : imp.Rely s u :=
  ⟨h'.row.trans h.row, fun _ he => h'.events (h.events he),
    fun _ hc => h'.certified (h.certified hc)⟩

/-- A record that meets the invariant. -/
abbrev Import.Kept (C : Conditions) (imp : Import P) : Type := { db : Db // imp.Durable C db }

section
variable [Digests] {run : Uuid} {s t u : imp.Kept C}

/-- What the engine may rely on, and what its operations do. -/
def Import.interface (C : Conditions) (imp : Import P) (run : Uuid) :
    Interface (imp.Kept C) (Op P) Op.Resp where
  rely s t := imp.Rely s.1 t.1
  pre e s := imp.Pre C s.1 e
  sem e s r t := ∃ env, imp.Guard C env s.1 e ∧ imp.perform run env s.1 e = (r, t.1)
  rely_refl s := .refl s.1
  rely_trans _ _ _ h h' := h.trans h'

/-- The engine's programs, verified. -/
abbrev Verified {α : Type} (imp : Import P) (C : Conditions) (run : Uuid) (p : Engine P α)
    (Q : α → imp.Kept C → Prop) (s : imp.Kept C) : Prop :=
  wpe (imp.interface C run) p Q s

/-! ### What the operations answer -/

section
variable {env : Environment P} {db db' : Db}

theorem perform_currentInstance {slot : ℕ} {r : Option String}
    (h : imp.perform run env db (.currentSidechainInstanceId slot) = (.ok r, db')) :
    db' = db ∧ r = db.currentInstance imp.datasetId slot := by
  cases Environment.deliver_eq_ok h
  exact ⟨rfl, rfl⟩

theorem perform_historyCoverage {r : Option CoverageRow}
    (h : imp.perform run env db .historyCoverage = (.ok r, db')) : db' = db ∧ r = imp.row db :=
  historyCoverage_inv (Tx.commit_eq_ok.mp (Environment.deliver_eq_ok h))

theorem perform_beginHistoryCycle {start : ℕ} {coveredTip : Option ObservedBlock}
    {targetTip : ObservedBlock} {floorHash : Option Bytes} {floorHeight : Option ℕ} {page : ℕ}
    (h : imp.perform run env db
      (.beginHistoryCycle start coveredTip targetTip floorHash floorHeight page) = (.ok row, db')) :
    imp.Begun row db' := by
  obtain ⟨covered, height, -, -, -, -, -, rfl, rfl⟩ :=
    beginHistoryCycle_inv (Tx.commit_eq_ok.mp (Environment.deliver_eq_ok h))
  exact ⟨Db.setCoverage_coverage_self _ _ _, rfl⟩

theorem perform_resumeHistory (h : imp.perform run env db .resumeHistory = (.ok (), db'))
    (hrow : imp.row db = some row) :
    imp.Begun { row with status := .running, lastError := none } db' := by
  obtain ⟨row', hrow', -, -, -, rfl⟩ :=
    resumeHistory_inv (Tx.commit_eq_ok.mp (Environment.deliver_eq_ok h))
  obtain rfl : row = row' := Option.some.inj (hrow.symm.trans hrow')
  exact ⟨Db.setCoverage_coverage_self _ _ _, rfl⟩

theorem perform_resizeHistoryPage {l : Locals} {page : ℕ} {error : String}
    (h : imp.perform run env db (.resizeHistoryPage page error) = (.ok (), db'))
    (hl : imp.LoopInv l db) :
    imp.LoopInv { l with progress := { l.progress with effectivePageBlocks := page } } db' := by
  obtain ⟨row, hrow, hagrees⟩ := hl
  obtain ⟨row', hrow', -, -, rfl⟩ :=
    resizeHistoryPage_inv (Tx.commit_eq_ok.mp (Environment.deliver_eq_ok h))
  obtain rfl : row = row' := Option.some.inj (hrow.symm.trans hrow')
  exact ⟨_, Db.setCoverage_coverage_self _ _ _,
    ⟨hagrees.status, hagrees.next, hagrees.target, hagrees.floorHash, hagrees.floorHeight⟩⟩

theorem perform_certifiedHistoryFloor {hashes : List Bytes} {r : Option ObservedBlock}
    (h : imp.perform run env db (.certifiedHistoryFloor hashes) = (.ok r, db')) :
    db' = db ∧ ∀ floor, r = some floor → ∃ c ∈ db.certified, c.scope = imp.key ∧
      c.blockHash ∈ hashes ∧ floor = .atHeight c.blockHash c.height :=
  certifiedHistoryFloor_inv (Tx.commit_eq_ok.mp (Environment.deliver_eq_ok h))

theorem perform_setHistoryFloor {l : Locals} {cursor : ObservedBlock} {floorHash : Option Bytes}
    {floorHeight : Option ℕ}
    (h : imp.perform run env db (.setHistoryFloor cursor floorHash floorHeight) = (.ok (), db'))
    (hl : imp.LoopInv l db) :
    imp.LoopInv { l with
      progress := { l.progress with floorHash := floorHash, floorHeight := floorHeight } } db' ∧
      db'.certified = db.certified := by
  obtain ⟨row, hrow, hagrees⟩ := hl
  obtain ⟨row', hrow', -, -, -, rfl⟩ :=
    setHistoryFloor_inv (Tx.commit_eq_ok.mp (Environment.deliver_eq_ok h))
  obtain rfl : row = row' := Option.some.inj (hrow.symm.trans hrow')
  exact ⟨⟨_, Db.setCoverage_coverage_self _ _ _,
    ⟨hagrees.status, hagrees.next, hagrees.target, rfl, rfl⟩⟩, rfl⟩

/-- A page the caller is told is recorded moved the cursor. -/
theorem perform_recordHistoryPage {l l' : Locals} {events : List Event}
    {expectedNext : ObservedBlock} {next : Option Block} {inserted : ℕ}
    (h : imp.perform run env db (.recordHistoryPage events expectedNext (next.map Block.observed)) =
      (.ok inserted, db')) (hl : imp.LoopInv l db) (hnext : next ≠ none)
    (hl' : l'.progress = { l.progress with
      rowsRecorded := l.progress.rowsRecorded + inserted, next := next }) :
    imp.LoopInv l' db' := by
  obtain ⟨row, hrow, hagrees⟩ := hl
  obtain ⟨row', expected, next', hrow', hparts, hafter⟩ :=
    recordHistoryPage_row (Environment.deliver_eq_ok h)
  obtain rfl : row = row' := Option.some.inj (hrow.symm.trans hrow')
  obtain ⟨b, rfl⟩ := Option.ne_none_iff_exists'.mp hnext
  have hb : next' = some b := by
    rcases optionalBlockParts_eq_ok hparts with ⟨hnone, -⟩ | ⟨hash, height, hsome, -, rfl⟩
    · cases hnone
    · cases b
      cases hsome
      rfl
  subst hb
  refine ⟨_, hafter, ?_⟩
  rw [hl']
  exact ⟨rfl, rfl, hagrees.target, hagrees.floorHash, hagrees.floorHeight⟩

end

/-! ### A page -/

/-- The page the loop is about to commit. -/
structure PageAt (C : Conditions) (imp : Import P) (l : Locals) (cursor : Block) (payloads : List P)
    (hs : List BlockHeader) (db : Db) : Prop where
  loop : imp.LoopInv l db
  next : l.progress.next = some cursor
  headers : List.Forall₂ (fun p h => imp.stream.header p = .ok h) payloads hs
  page : IsPage cursor hs
  tells : C.honest → ∀ h ∈ hs, Tells C.hdr h

omit [Digests] in
theorem PageAt.rely {l : Locals} {cursor : Block} {payloads : List P} {hs : List BlockHeader}
    {db db' : Db} (h : PageAt C imp l cursor payloads hs db) (hr : imp.Rely db db') :
    PageAt C imp l cursor payloads hs db' :=
  { h with loop := h.loop.rely hr }

omit [Digests] in
theorem observed_injective {b b' : Block} (h : b.observed = b'.observed) : b = b' := by
  cases b
  cases b'
  cases h
  rfl

/-- What the loop knows of the cursor that follows a page. -/
structure NextOk (C : Conditions) (imp : Import P) (l : Locals) (cursor : Block)
    (oldest : BlockHeader) (next : Option Block) (db : Db) : Prop where
  goesOn : ∀ b, next = some b → oldest.height = b.height + 1 ∧ oldest.previousHash = b.hash ∧
    b.height < cursor.height ∧ ∀ floor, l.progress.floorHeight = some floor → floor < b.height
  ends : next = none → C.honest → imp.Ends db oldest

omit [Digests] in
theorem Import.Ends.rely {db db' : Db} {oldest : BlockHeader} (h : imp.Ends db oldest)
    (hr : imp.Rely db db') : imp.Ends db' oldest := by
  rcases h with h | h | ⟨height, hheight, h⟩
  · exact .inl (h.mono hr.certified)
  · exact .inr (.inl h)
  · exact .inr (.inr ⟨height, hheight, h.mono hr.certified⟩)

omit [Digests] in
/-- The events of a page carry its headers. -/
theorem PageAt.honestPage {l : Locals} {cursor : Block} {payloads : List P} {hs : List BlockHeader}
    {db : Db} {events : List Event} {oldest : BlockHeader} {next : Option Block}
    (h : PageAt C imp l cursor payloads hs db) (hh : C.honest)
    (hevents : List.Forall₂ (fun p event => ∃ h, imp.stream.header p = .ok h ∧
      Carries imp.stream.scope event h) payloads.reverse events)
    (hlast : hs.getLast? = some oldest) (hnext : NextOk C imp l cursor oldest next db) :
    events ≠ [] ∧ imp.HonestPage C.hdr db events (next.map Block.observed) cursor hs oldest := by
  have hheaders {p : P} {x y : BlockHeader} (hx : imp.stream.header p = .ok x)
      (hy : imp.stream.header p = .ok y) : x = y := Except.ok.inj (hx.symm.trans hy)
  have hrecorded : ∀ x ∈ hs, ∃ event ∈ events, Carries imp.stream.scope event x := by
    intro x hx
    obtain ⟨p, hp, hpx⟩ := PairedLists.exists_mem (List.Forall₂.flip h.headers) hx
    obtain ⟨event, hevent, y, hy, hcarries⟩ :=
      PairedLists.exists_mem hevents (List.mem_reverse.mpr hp)
    exact ⟨event, hevent, hheaders hy hpx ▸ hcarries⟩
  have hcarried : ∀ event ∈ events, ∃ x ∈ hs, Carries imp.stream.scope event x := by
    intro event hevent
    obtain ⟨p, hp, y, hy, hcarries⟩ := PairedLists.exists_mem (List.Forall₂.flip hevents) hevent
    obtain ⟨x, hx, hpx⟩ := PairedLists.exists_mem h.headers (List.mem_reverse.mp hp)
    exact ⟨x, hx, hheaders hy hpx ▸ hcarries⟩
  refine ⟨fun hnil => ?_, h.page, hlast, h.tells hh, hrecorded, hcarried, fun b hb => ?_, fun hn => ?_⟩
  · obtain ⟨event, hevent, -⟩ := hrecorded oldest (List.mem_of_getLast? hlast)
    rw [hnil] at hevent
    cases hevent
  · obtain ⟨b', hb', heq⟩ := Option.map_eq_some_iff.mp hb
    obtain rfl : b' = b := observed_injective heq
    exact ⟨(hnext.goesOn b' hb').1, (hnext.goesOn b' hb').2.1⟩
  · exact hnext.ends (Option.map_eq_none_iff.mp hn) hh

omit [Digests] in
/-- The blocks the loop still has to walk, and where the floor is. -/
theorem blocksThroughFloor_eq_ok {height remaining : ℕ} {floorHeight : Option ℕ} :
    blocksThroughFloor height floorHeight = .ok remaining ↔
      (floorHeight = none ∧ remaining = height + 1) ∨
        ∃ floor, floorHeight = some floor ∧ floor < height ∧ remaining = height - floor := by
  unfold blocksThroughFloor
  cases floorHeight with
  | none => simp [eq_comm]
  | some floor =>
    simp only [expect_eq_ok, Option.filter_eq_some_iff, checkedSub_eq_some, decide_eq_true_eq,
      reduceCtorEq, false_and, Option.some.injEq, exists_eq_left', false_or]
    omega

omit [Digests] in
/-- A page that completes the cycle and joins its floor ends well: at a certified block, at
the start, or just above its certified floor. -/
theorem PageAt.ends {l : Locals} {cursor : Block} {payloads : List P} {hs : List BlockHeader}
    {db : Db} {oldest : BlockHeader} {remaining : ℕ} (h : PageAt C imp l cursor payloads hs db)
    (hdb : imp.Durable C db) (hh : C.honest) (hlast : hs.getLast? = some oldest)
    (hremaining : blocksThroughFloor cursor.height l.progress.floorHeight = .ok remaining)
    (hlength : payloads.length = remaining) (hjoins : ¬ missesFloor l true oldest) :
    imp.Ends db oldest := by
  obtain ⟨row, hrow, hagrees⟩ := h.loop
  have hfloor := (hdb.row row hrow).floor hh
  rw [hagrees.floorHash, hagrees.floorHeight] at hfloor
  have hheight : oldest.height + payloads.length = cursor.height + 1 :=
    h.headers.length_eq ▸ h.page.height_last hlast
  rcases blocksThroughFloor_eq_ok.mp hremaining with ⟨hnone, rfl⟩ | ⟨floor, hsome, hlt, rfl⟩
  · rw [hnone] at hfloor
    have hzero : imp.stream.activationHeight = 0 := hfloor
    refine .inr (.inl ?_)
    omega
  · rw [hsome] at hfloor
    rcases hfloor with hstart | ⟨hash, hhash, hcert⟩
    · refine .inr (.inl ?_)
      omega
    · have hprevious : oldest.previousHash = hash := by
        by_contra hne
        exact hjoins ⟨rfl, hash, hhash, hne⟩
      exact .inr (.inr ⟨floor, by omega, hprevious ▸ hcert⟩)

omit [Digests] in
theorem nextCursor_none {completesCycle : Bool} {oldest : BlockHeader}
    (h : nextCursor completesCycle oldest = .ok none) : completesCycle = true := by
  cases completesCycle with
  | true => rfl
  | false =>
    simp only [nextCursor, Bool.false_eq_true, if_false, Result.bind_eq_ok] at h
    obtain ⟨height, -, h⟩ := h
    cases h

omit [Digests] in
theorem nextCursor_some {completesCycle : Bool} {oldest : BlockHeader} {b : Block}
    (h : nextCursor completesCycle oldest = .ok (some b)) : completesCycle = false := by
  cases completesCycle with
  | true => cases h
  | false => rfl

omit [Digests] in
/-- The next cursor stays above the floor. -/
theorem PageAt.goesOn {l : Locals} {cursor b : Block} {payloads : List P} {hs : List BlockHeader}
    {db : Db} {oldest : BlockHeader} {remaining : ℕ} (h : PageAt C imp l cursor payloads hs db)
    (hlast : hs.getLast? = some oldest)
    (hremaining : blocksThroughFloor cursor.height l.progress.floorHeight = .ok remaining)
    (hlength : payloads.length < remaining) (hb : nextCursor false oldest = .ok (some b)) :
    oldest.height = b.height + 1 ∧ oldest.previousHash = b.hash ∧ b.height < cursor.height ∧
      ∀ floor, l.progress.floorHeight = some floor → floor < b.height := by
  have hheight : oldest.height + payloads.length = cursor.height + 1 :=
    h.headers.length_eq ▸ h.page.height_last hlast
  simp only [nextCursor, Bool.false_eq_true, if_false, Result.bind_eq_ok, expect_eq_ok,
    checkedSub_eq_some, Result.pure_eq_ok, Option.some.injEq] at hb
  obtain ⟨height, ⟨hone, rfl⟩, rfl⟩ := hb
  refine ⟨(Nat.sub_add_cancel hone).symm, rfl, ?_, fun floor hfloor => ?_⟩
  · change oldest.height - 1 < cursor.height
    have hle := h.page.height_le (List.mem_of_getLast? hlast)
    omega
  · change floor < oldest.height - 1
    rcases blocksThroughFloor_eq_ok.mp hremaining with ⟨hnone, -⟩ | ⟨floor', hsome, -, rfl⟩
    · rw [hnone] at hfloor
      cases hfloor
    · rw [hsome] at hfloor
      cases hfloor
      omega

/-! ### The outline -/

/-- What holds at each point of a call. -/
def Import.At (C : Conditions) (imp : Import P) : Point P → Db → Prop
  | .start, _ | .reached _, _ => True
  | .retired, db | .free, db | .begins _, db => imp.MaySupersede C db
  | .read existing, db => imp.MaySupersede C db ∧ imp.row db = existing
  | .begun row, db => imp.Begun row db
  | .loop l, db => imp.LoopInv l db
  | .page l cursor payloads hs, db => PageAt C imp l cursor payloads hs db
  | .marked l cursor payloads hs certified, db => PageAt C imp l cursor payloads hs db ∧
    ∀ floor, certified = some floor → ∃ c ∈ db.certified, c.scope = imp.key ∧ c.blockHash = floor.hash
  | .commit l cursor payloads next, db => ∃ hs oldest, PageAt C imp l cursor payloads hs db ∧
    hs.getLast? = some oldest ∧ NextOk C imp l cursor oldest next db

omit [Digests] in
theorem Import.At.rely {db db' : Db} {p : Point P} (h : imp.At C p db) (hr : imp.Rely db db') :
    imp.At C p db' := by
  cases p with
  | start | reached => trivial
  | retired | free | begins => exact Import.MaySupersede.rely h hr
  | read existing => exact ⟨h.1.rely hr, hr.row.trans h.2⟩
  | begun row => exact ⟨hr.row.trans h.1, h.2⟩
  | loop l => exact Import.LoopInv.rely h hr
  | page l cursor payloads hs => exact PageAt.rely h hr
  | marked l cursor payloads hs certified =>
    refine ⟨h.1.rely hr, fun floor hfloor => ?_⟩
    obtain ⟨c, hc, hrest⟩ := h.2 floor hfloor
    exact ⟨c, hr.certified hc, hrest⟩
  | commit l cursor payloads next =>
    obtain ⟨hs, oldest, hpage, hlast, hnext⟩ := h
    exact ⟨hs, oldest, hpage.rely hr, hlast, hnext.goesOn, fun hn hh => (hnext.ends hn hh).rely hr⟩

/-- A scope found not current is not suspended. -/
theorem current_leads {slot : ℕ} {id : String} (hid : imp.stream.scope.sidechainInstanceId = some id)
    (c : Option String) (h : (imp.interface C run).sem (.currentSidechainInstanceId slot) s (.ok c) t) :
    t = s ∧ (c ≠ some id → imp.MaySupersede C t.1) := by
  obtain ⟨env, hguard, hperform⟩ := h
  obtain ⟨hts, hcurrent⟩ := perform_currentInstance hperform
  refine ⟨Subtype.ext hts, fun hne hs hq => hne ?_⟩
  rw [hts] at hq
  rw [hcurrent, hguard hs hq]
  exact hid

theorem begin_leads (tip : ObservedBlock) (page : ℕ) : Leads (imp.interface C run)
    (fun s => imp.MaySupersede C s.1) (.beginHistoryCycle imp.stream.activationHeight none tip none
      (checkedSub imp.stream.activationHeight 1) page)
    fun r t => ∀ row, r = .ok row → imp.Begun row t.1 := by
  refine fun s hs => ⟨⟨rfl, hs, .inl ⟨rfl, rfl, rfl⟩⟩, ?_⟩
  rintro r t ⟨env, -, hperform⟩ row rfl
  exact perform_beginHistoryCycle hperform

/-- An extension begins above the proven tip, which is certified. -/
theorem extend_leads {covered : Block} {tip : ObservedBlock} {height : ℕ}
    (hcovered : row.coveredTip = some covered) (hheight : tip.height = some height)
    (hlt : covered.height < height) (page : ℕ) : Leads (imp.interface C run)
    (fun s => imp.MaySupersede C s.1 ∧ imp.row s.1 = some row)
    (.beginHistoryCycle imp.stream.activationHeight (some covered.observed) tip (some covered.hash)
      (some covered.height) page)
    fun r t => ∀ row, r = .ok row → imp.Begun row t.1 := by
  refine fun s hs => ⟨⟨rfl, hs.1, .inr ⟨covered, rfl, rfl, rfl, ?_, fun height' hheight' => ?_⟩⟩, ?_⟩
  · exact s.2.certified.covered _ row covered hs.2 hcovered
  · rw [hheight] at hheight'
    cases hheight'
    exact hlt
  · rintro r t ⟨env, -, hperform⟩ row' rfl
    exact perform_beginHistoryCycle hperform

/-- What the upstream answers tells the truth where the headers of a page must. -/
theorem fetch_leads {l : Locals} {cursor : Block} {requested : ℕ} (hnext : l.progress.next = some cursor) :
    Leads (imp.interface C run) (fun s => imp.LoopInv l s.1) (.fetch cursor.observed requested)
      fun r t => imp.LoopInv l t.1 ∧ ∀ payloads hs, r = .ok payloads →
        PageOf imp.stream cursor payloads hs → PageAt C imp l cursor payloads hs t.1 := by
  refine fun s hs => ⟨trivial, ?_⟩
  rintro r t ⟨env, hguard, hperform⟩
  obtain rfl : s = t := Subtype.ext (congrArg Prod.snd hperform)
  obtain rfl : env.fetched = r := congrArg Prod.fst hperform
  refine ⟨hs, fun payloads hs' hpayloads hpage => ⟨hs, hnext, hpage.headers, hpage.page, fun hh x hx => ?_⟩⟩
  obtain ⟨p, hp, hpx⟩ := PairedLists.exists_mem (List.Forall₂.flip hpage.headers) hx
  exact hguard hh payloads hpayloads p hp x hpx

/-- **Cutting a page at a certified block** leaves a page whose oldest block is certified. -/
theorem cut_leads {l : Locals} {cursor : Block} {payloads : List P} {hs : List BlockHeader}
    {certified : ObservedBlock} {index : ℕ} {header : BlockHeader} (hget : hs[index]? = some header)
    (hhash : header.hash = certified.hash) : Leads (imp.interface C run)
    (fun s => imp.At C (.marked l cursor payloads hs (some certified)) s.1)
    (.setHistoryFloor cursor.observed ((checkedSub header.height 1).map fun _ => header.previousHash)
      (checkedSub header.height 1))
    fun r t => r = .ok () → imp.At C (.commit { l with progress := { l.progress with
      floorHash := (checkedSub header.height 1).map fun _ => header.previousHash
      floorHeight := checkedSub header.height 1 } } cursor (payloads.take (index + 1)) none) t.1 := by
  rintro s ⟨h, hcertified⟩
  have hmem : header ∈ hs := List.mem_of_getElem? hget
  obtain ⟨row, hrow, hagrees⟩ := h.loop
  have hc : ∃ c ∈ s.1.certified, c.scope = imp.key ∧ c.blockHash = header.hash := by
    rw [hhash]
    exact hcertified certified rfl
  refine ⟨⟨row, cursor, hrow, hagrees.next.trans h.next, fun below hbelow => ?_, fun hh => ?_⟩, ?_⟩
  · obtain ⟨hone, rfl⟩ := checkedSub_eq_some.mp hbelow
    have := h.page.height_le hmem
    omega
  · exact (s.2.floorOk hh (h.tells hh header hmem) hc).2
  · rintro r t ⟨env, -, hperform⟩ rfl
    obtain ⟨hloop, hsame⟩ := perform_setHistoryFloor hperform h.loop
    refine ⟨hs.take (index + 1), header, ⟨hloop, h.next, List.forall₂_take _ h.headers, h.page.take index,
      fun hh x hx => h.tells hh x (List.mem_of_mem_take hx)⟩, ?_, fun _ hb => (by cases hb), fun _ hh => ?_⟩
    · rw [List.getLast?_take, if_neg (Nat.succ_ne_zero _), Nat.add_sub_cancel, hget]
      rfl
    · obtain ⟨c, hmemc, hceq⟩ := (s.2.floorOk hh (h.tells hh header hmem) hc).1
      exact .inl ⟨c, hsame ▸ hmemc, hceq⟩

omit [Digests] in
/-- What the loop knows of the cursor after a page that is not cut. -/
theorem PageAt.nextOk {l : Locals} {cursor : Block} {payloads : List P} {hs : List BlockHeader} {db : Db}
    {remaining : ℕ} {oldest : BlockHeader} {next : Option Block} (h : PageAt C imp l cursor payloads hs db)
    (hdb : imp.Durable C db)
    (hremaining : blocksThroughFloor cursor.height l.progress.floorHeight = .ok remaining)
    (hlength : payloads.length ≤ remaining) (hlast : hs.getLast? = some oldest)
    (hjoins : ¬ missesFloor l (decide (payloads.length = remaining)) oldest)
    (hnext : nextCursor (decide (payloads.length = remaining)) oldest = .ok next) :
    NextOk C imp l cursor oldest next db where
  goesOn b hb := by
    subst hb
    have hincomplete := nextCursor_some hnext
    rw [hincomplete] at hnext
    have hlt : payloads.length < remaining := lt_of_le_of_ne hlength (of_decide_eq_false hincomplete)
    exact h.goesOn hlast hremaining hlt hnext
  ends hnone hh := by
    subst hnone
    have hcomplete := nextCursor_none hnext
    rw [hcomplete] at hjoins
    exact h.ends hdb hh hlast hremaining (of_decide_eq_true hcomplete) hjoins

/-- **A page is committed** at its cursor, with the one that follows. -/
theorem record_leads {l : Locals} {cursor : Block} {payloads : List P} {next : Option Block}
    {events : List Event} (hevents : List.Forall₂ imp.stream.EventOf payloads.reverse events) :
    Leads (imp.interface C run) (fun s => imp.At C (.commit l cursor payloads next) s.1)
      (.recordHistoryPage events cursor.observed (next.map Block.observed)) fun r t =>
        ∀ inserted, r = .ok inserted → next ≠ none →
          imp.LoopInv (l.moved events.length inserted next) t.1 := by
  rintro s ⟨hs, oldest, h, hlast, hnext⟩
  have hcarries : List.Forall₂ (fun p event => ∃ h, imp.stream.header p = .ok h ∧
      Carries imp.stream.scope event h) payloads.reverse events := by
    refine hevents.imp fun p event hevent => ?_
    obtain ⟨header, now, hheader, henvelope⟩ := hevent
    obtain ⟨hanchor, hprevious, hkind⟩ := imp.stream.envelope_faithful p header _ now event hheader henvelope
    exact ⟨header, hheader, hanchor, hprevious, hkind⟩
  obtain ⟨row, hrow, hagrees⟩ := h.loop
  refine ⟨⟨row, cursor, hrow, hagrees.next.trans h.next, hagrees.status, rfl, fun n hn => ?_,
    fun hh => ?_⟩, ?_⟩
  · obtain ⟨b, hb, rfl⟩ := Option.map_eq_some_iff.mp hn
    obtain ⟨-, -, hlt, hbelow⟩ := hnext.goesOn b hb
    exact ⟨b, rfl, hlt, fun floor hfloor => hbelow floor (hagrees.floorHeight ▸ hfloor)⟩
  · obtain ⟨hne, hpage⟩ := h.honestPage hh hcarries hlast hnext
    exact ⟨hne, hs, oldest, hpage⟩
  · rintro r t ⟨env, -, hperform⟩ inserted rfl hne
    exact perform_recordHistoryPage hperform h.loop hne rfl

/-- **The engine keeps the scope**, at every point of its loop. -/
def Import.loopOutline (C : Conditions) (imp : Import P) (run : Uuid) :
    LoopOutline (imp.interface C run) imp.stream where
  At p s := imp.At C p s.1
  stable _ _ _ h hr := h.rely hr
  asks e he s := by
    refine ⟨by cases e <;> trivial, ?_⟩
    rintro r t ⟨env, -, hperform⟩
    cases e with
    | shutdownRequested | currentTip | now | pagePause =>
      exact (Subtype.ext (congrArg Prod.snd hperform)).symm
    | _ => exact he.elim
  settle _ _ := trivial
  current _ hid _ := ⟨trivial, fun c _ h => current_leads hid c h⟩
  supersede hslot hid _ _ h := ⟨hslot, hid, h⟩
  begin tip page := begin_leads tip page
  enter _ _ h := h.loopInv rfl
  anew _ _ h := h.maySupersede
  fetch _ _ _ hnext _ := (fetch_leads hnext).mono _ (fun _ h => h) fun _ _ h =>
    ⟨h.1, fun payloads hs hpayloads _ hof _ => h.2 payloads hs hpayloads hof⟩
  probe _ _ _ _ _ s h := by
    refine ⟨trivial, ?_⟩
    rintro r t ⟨env, -, hperform⟩
    obtain rfl : s = t := Subtype.ext (congrArg Prod.snd hperform)
    exact h
  shrink l _ s h := by
    refine ⟨trivial, ?_⟩
    rintro r t ⟨env, -, hperform⟩ rfl
    exact perform_resizeHistoryPage hperform h
  floor _ _ _ _ s h := by
    refine ⟨trivial, ?_⟩
    rintro r t ⟨env, -, hperform⟩ certified rfl
    obtain ⟨hts, hcertified⟩ := perform_certifiedHistoryFloor hperform
    obtain rfl : t = s := Subtype.ext hts
    refine ⟨h, fun floor hfloor => ?_⟩
    obtain ⟨c, hc, hscope, -, rfl⟩ := hcertified floor hfloor
    exact ⟨c, hc, hscope, rfl⟩
  cut _ _ _ _ _ _ _ _ _ _ _ hget hhash := cut_leads hget hhash
  keep l cursor payloads hs remaining payload oldest next s _ hremaining hlength _ _ hlast _ hjoins hnext h :=
    ⟨hs, oldest, h.1, hlast, h.1.nextOk s.2 hremaining hlength hlast hjoins hnext⟩
  repair _ _ _ _ _ h := h.1.loop.maySupersede
  recut _ _ _ _ h := by
    obtain ⟨hs, oldest, hpage, -⟩ := h
    exact hpage.loop.maySupersede
  record _ _ _ _ _ hevents := (record_leads hevents).mono _ (fun _ h => h) fun _ _ h inserted hr =>
    ⟨fun _ => trivial, h inserted hr⟩

/-- And at every point of a call. -/
def Import.outline (C : Conditions) (imp : Import P) (run : Uuid) (settings : Settings) :
    Outline (imp.interface C run) imp.stream settings where
  __ := imp.loopOutline C run
  check s _ := by
    refine ⟨trivial, ?_⟩
    rintro r t ⟨env, -, hperform⟩ existing rfl hfree _ ⟨row, hrow, hq⟩
    obtain ⟨hts, hexisting⟩ := perform_historyCoverage hperform
    rw [hts] at hrow
    exact hfree ⟨row, hexisting.trans hrow, hq⟩
  read s h := by
    refine ⟨trivial, ?_⟩
    rintro r t ⟨env, -, hperform⟩ existing rfl
    obtain ⟨hts, hexisting⟩ := perform_historyCoverage hperform
    obtain rfl : t = s := Subtype.ext hts
    exact ⟨h, hexisting.symm⟩
  first _ h := h.1
  running _ _ hrunning h := ⟨h.2, hrunning⟩
  resume row s h := by
    refine ⟨h.1, ?_⟩
    rintro r t ⟨env, -, hperform⟩ rfl
    exact perform_resumeHistory hperform h.2
  upToDate _ _ _ _ _ _ _ _ := trivial
  extend _ _ _ _ hcovered hheight hlt := extend_leads hcovered hheight hlt _
  again _ _ h := h.1

/-- What the outline says of the end of an iteration. -/
theorem Import.outline_ends {r : Locals ⊕ Outcome} (h : (imp.loopOutline C run).Ends r s) :
    imp.Next r s.1 := by
  rintro l rfl
  exact h

/-- **A call is good until its loop.** -/
theorem runHistory_good (tip : ObservedBlock) (settings : Settings) :
    Verified imp C run (runHistory imp.stream tip settings) (fun r t => imp.Next r t.1) s :=
  wpe_mono _ (fun _ _ h => Import.outline_ends h) ((imp.outline C run settings).runHistory_ends tip trivial)

/-- **An iteration is good.** -/
theorem iterate_good {settings : Settings} {l : Locals} (h : imp.LoopInv l s.1) :
    Verified imp C run (iterate imp.stream settings l) (fun r t => imp.Next r t.1) s :=
  wpe_mono _ (fun _ _ h => Import.outline_ends h) ((imp.loopOutline C run).iterate_ends h)

end

end Bip300Monitor.Backfill
