import Bip300Monitor.Backfill.Import
import Bip300Monitor.Backfill.Pages

/-!
# What an import leaves in the record

`Import.Durable` is what holds of a scope between any two operations, and so whatever
happens next: it is what a crash leaves behind. `Import.Pre` says when the engine may
perform an operation; performed so, the operation keeps it (`perform_safe`). The rest of
the monitor keeps it too (`world_safe`).

Three assumptions can be made or left out (`Conditions`); what depends on one is stated
under it.
-/

namespace Bip300Monitor

open Protobuf Transaction Runs Resumption

/-- What a walk must join: the exclusive floor below its last block is certified, or lies
just below the start. -/
def Db.FloorOk (db : Db) (k : ScopeKey) (start : ℕ) (floorHash : Option Bytes)
    (floorHeight : Option ℕ) : Prop :=
  match floorHeight with
  | none => start = 0
  | some height => height + 1 = start ∨
      ∃ hash, floorHash = some hash ∧ db.certifies k ⟨hash, height⟩

theorem Db.FloorOk.mono {s t : Db} {k : ScopeKey} {start : ℕ} {hash : Option Bytes}
    {height : Option ℕ} (h : s.FloorOk k start hash height) (hst : s.certified ⊆ t.certified) :
    t.FloorOk k start hash height := by
  cases height with
  | none => exact h
  | some height =>
    rcases h with h | ⟨hash, hh, hc⟩
    · exact .inl h
    · exact .inr ⟨hash, hh, hc.mono hst⟩

namespace Backfill

/-! ### Assumptions -/

/-- Which assumptions are made. -/
structure Conditions where
  hdr : Headers
  /-- Every block has one height and one parent, those of `hdr`. -/
  honest : Prop
  /-- No call finds its instance retired while the scope is suspended. -/
  sticky : Prop
  /-- No cycle begins towards a target below the activation height. -/
  above : Prop

/-- No assumption is made. -/
def Conditions.none : Conditions where
  hdr := ⟨fun _ => 0, fun _ => []⟩
  honest := False
  sticky := False
  above := False

variable {P : Type} (C : Conditions) (imp : Import P)

/-- The scope is suspended. -/
def Import.Quarantined (db : Db) : Prop := ∃ row, imp.row db = some row ∧ row.quarantined

/-- An event about a block of the scope's kind tells the block truly. -/
def Import.HonestEvent (hdr : Headers) (event : Event) : Prop :=
  ∀ f, facts event = .ok f → f.kind = imp.stream.scope.stream.kind →
    ∀ hash, f.blockHash = some hash →
      f.height = some (hdr.height hash) ∧ previousHash event = some (hdr.previousHash hash)

/-- The assumptions about one operation. -/
def Import.Guard (env : Environment P) (db : Db) : Op P → Prop
  | .fetch .. => C.honest → ∀ payloads, env.fetched = .ok payloads → ∀ p ∈ payloads, ∀ h,
      imp.stream.header p = .ok h → Tells C.hdr h
  | .currentSidechainInstanceId slot => C.sticky → imp.Quarantined db →
      db.currentInstance imp.datasetId slot = imp.stream.scope.sidechainInstanceId
  | .beginHistoryCycle _ _ targetTip .. => C.above → ∀ height, targetTip.height = some height →
      imp.stream.activationHeight ≤ height
  | _ => True

/-- The assumptions about one step. -/
def Import.Holds (s : State P) : Action P → Prop
  | .world command => C.honest → ∀ event ∈ command.events, imp.HonestEvent C.hdr event
  | .advance env => ∀ e, s.next? = some e → imp.Guard C env s.record.db e
  | _ => True

/-! ### The invariant -/

/-- What holds of the scope's row. -/
structure Import.RowInv (db : Db) (row : CoverageRow) : Prop where
  scope : validateHistoryScope imp.stream.scope = .ok ()
  valid : row.valid imp.key
  target_le : row.targetTip.height ≤ maxHeight
  next_le : ∀ n, row.next = some n → n.height ≤ row.targetTip.height
  resumable : C.above → ∀ n, row.next = some n →
    imp.stream.activationHeight ≤ row.targetTip.height ∧
      ∀ floor, row.floorHeight = some floor → floor < n.height
  descends : C.honest → ∀ n, row.next = some n → db.Descends imp.key row.targetTip n
  floor : C.honest →
    db.FloorOk imp.key imp.stream.activationHeight row.floorHash row.floorHeight

/-- What holds of the record between any two operations. -/
structure Import.Durable (db : Db) : Prop where
  certified : CertifiedPrefix imp.startOf db
  honest : C.honest → db.Honest C.hdr imp.key
  row : ∀ row, imp.row db = some row → imp.RowInv C db row

/-- What an operation may do: it keeps the invariant, what is certified stays certified,
and what is suspended stays suspended. -/
structure Import.Safe (s t : Db) : Prop where
  durable : imp.Durable C t
  certified : s.certified ⊆ t.certified
  quarantined : C.sticky → imp.Quarantined s → imp.Quarantined t

variable {C imp} {s t : Db} {row row' : CoverageRow}

theorem Import.Durable.safe (h : imp.Durable C s) : imp.Safe C s s := ⟨h, fun _ h => h, fun _ h => h⟩

/-- The invariant of a row survives what only adds to the record. -/
theorem Import.RowInv.mono (h : imp.RowInv C s row) (hevents : s.events ⊆ t.events)
    (hcertified : s.certified ⊆ t.certified) : imp.RowInv C t row where
  scope := h.scope
  valid := h.valid
  target_le := h.target_le
  next_le := h.next_le
  resumable := h.resumable
  descends hh n hn := (h.descends hh n hn).mono hevents
  floor hh := (h.floor hh).mono hcertified

/-- A change of status and of what no clause speaks of. -/
theorem Import.RowInv.of_eq (h : imp.RowInv C s row) (hvalid : row'.valid imp.key)
    (htarget : row'.targetTip = row.targetTip) (hnext : row'.next = row.next)
    (hhash : row'.floorHash = row.floorHash) (hheight : row'.floorHeight = row.floorHeight) :
    imp.RowInv C s row' where
  scope := h.scope
  valid := hvalid
  target_le := htarget ▸ h.target_le
  next_le := by rw [htarget, hnext]; exact h.next_le
  resumable := by rw [htarget, hnext, hheight]; exact h.resumable
  descends := by rw [htarget, hnext]; exact h.descends
  floor := by rw [hhash, hheight]; exact h.floor

/-- Writing the row. -/
theorem Import.Durable.setRow (h : imp.Durable C s) (hrow : imp.RowInv C s row)
    (hstart : row.coverageStartHeight = imp.stream.activationHeight)
    (hcovered : ∀ tip, row.coveredTip = some tip → s.certifies imp.key tip)
    (hstatus : row.status ≠ .complete) (hq : C.sticky → ¬ imp.Quarantined s) :
    imp.Safe C s (s.setCoverage imp.key row) where
  durable := {
    certified := h.certified.setCoverage (hstart.trans imp.startOf_key.symm) hcovered
      fun hc => absurd hc hstatus
    honest := h.honest
    row := fun row' hrow' => by
      rw [Import.row, Db.setCoverage_coverage_self] at hrow'
      cases hrow'
      exact hrow.mono (fun _ h => h) fun _ h => h }
  certified := fun _ h => h
  quarantined hs hqs := absurd hqs (hq hs)

/-- Rewriting a row's status and what no clause speaks of. -/
theorem Import.Durable.update (h : imp.Durable C s) (hrow : imp.row s = some row)
    (hvalid : row'.valid imp.key) (htarget : row'.targetTip = row.targetTip)
    (hnext : row'.next = row.next) (hhash : row'.floorHash = row.floorHash)
    (hheight : row'.floorHeight = row.floorHeight)
    (hstart : row'.coverageStartHeight = row.coverageStartHeight)
    (hcovered : row'.coveredTip = row.coveredTip) (hstatus : row'.status ≠ .complete)
    (hq : C.sticky → ¬ row.quarantined) : imp.Safe C s (s.setCoverage imp.key row') := by
  refine h.setRow ((h.row row hrow).of_eq hvalid htarget hnext hhash hheight) ?_ ?_ hstatus ?_
  · rw [hstart, ← imp.startOf_key]
    exact h.certified.start _ row hrow
  · intro tip htip
    exact h.certified.covered _ row tip hrow (hcovered ▸ htip)
  · rintro hs ⟨old, hold, hquarantined⟩
    rw [hrow] at hold
    cases hold
    exact hq hs hquarantined

theorem not_quarantined_of_running (h : row.status = .running) : ¬ row.quarantined := by
  rintro ⟨herror, -⟩
  rw [h] at herror
  cases herror

/-! ### When an operation may be performed -/

/-- The oldest block of a final page is certified, at the start, or above a certified one. -/
def Import.Ends (imp : Import P) (db : Db) (oldest : BlockHeader) : Prop :=
  db.certifies imp.key oldest.block ∨ oldest.height = imp.stream.activationHeight ∨
    ∃ height, oldest.height = height + 1 ∧ db.certifies imp.key ⟨oldest.previousHash, height⟩

/-- Events that are a page of headers told truly, from the cursor down to the last, and
the cursor after it. -/
structure Import.HonestPage (imp : Import P) (hdr : Headers) (db : Db) (events : List Event)
    (next : Option ObservedBlock) (cursor : Block) (hs : List BlockHeader) (oldest : BlockHeader) :
    Prop where
  page : IsPage cursor hs
  last : hs.getLast? = some oldest
  tells : ∀ h ∈ hs, Tells hdr h
  recorded : ∀ h ∈ hs, ∃ event ∈ events, Carries imp.stream.scope event h
  carried : ∀ event ∈ events, ∃ h ∈ hs, Carries imp.stream.scope event h
  goesOn : ∀ b : Block, next = some b.observed → oldest.height = b.height + 1 ∧
    oldest.previousHash = b.hash
  ends : next = none → imp.Ends db oldest

/-- When a page may be recorded. -/
def Import.PageOk (C : Conditions) (imp : Import P) (db : Db) (events : List Event)
    (expectedNext : ObservedBlock) (next : Option ObservedBlock) : Prop :=
  ∃ row cursor, imp.row db = some row ∧ row.next = some cursor ∧ row.status = .running ∧
    expectedNext = cursor.observed ∧
    (∀ n, next = some n → ∃ b : Block, n = b.observed ∧ b.height < cursor.height ∧
      ∀ floor, row.floorHeight = some floor → floor < b.height) ∧
    (C.honest → events ≠ [] ∧ ∃ hs oldest, imp.HonestPage C.hdr db events next cursor hs oldest)

/-- When a cycle may be begun: over the whole range, or above a proven tip. -/
def Import.BeginOk (imp : Import P) (db : Db) (coveredTip : Option ObservedBlock)
    (targetTip : ObservedBlock) (floorHash : Option Bytes) (floorHeight : Option ℕ) : Prop :=
  (coveredTip = none ∧ floorHash = none ∧ floorHeight = checkedSub imp.stream.activationHeight 1) ∨
    ∃ b : Block, coveredTip = some b.observed ∧ floorHash = some b.hash ∧
      floorHeight = some b.height ∧ db.certifies imp.key b ∧
      ∀ height, targetTip.height = some height → b.height < height

/-- When the engine may perform an operation. -/
def Import.Pre (C : Conditions) (imp : Import P) (db : Db) : Op P → Prop
  | .supersedeHistory slot id _ => imp.stream.scope.sidechain = some slot ∧
      imp.stream.scope.sidechainInstanceId = some id ∧ (C.sticky → ¬ imp.Quarantined db)
  | .beginHistoryCycle start coveredTip targetTip floorHash floorHeight _ =>
      start = imp.stream.activationHeight ∧ (C.sticky → ¬ imp.Quarantined db) ∧
        imp.BeginOk db coveredTip targetTip floorHash floorHeight
  | .resumeHistory => C.sticky → ¬ imp.Quarantined db
  | .setHistoryFloor _ floorHash floorHeight => ∃ row cursor, imp.row db = some row ∧
      row.next = some cursor ∧ (∀ floor, floorHeight = some floor → floor < cursor.height) ∧
      (C.honest → db.FloorOk imp.key imp.stream.activationHeight floorHash floorHeight)
  | .recordHistoryPage events expectedNext next => imp.PageOk C db events expectedNext next
  | _ => True

/-! ### What each operation keeps -/

section
variable {run : Uuid}

theorem safe_supersedeHistory {slot : ℕ} {id reason : String} (h : imp.Durable C s)
    (hpre : imp.Pre C s (.supersedeHistory slot id reason))
    (hok : supersedeHistory (imp.store run) imp.stream.scope.stream slot id reason s = .ok ((), t)) :
    imp.Safe C s t := by
  obtain ⟨hslot, hid, hq⟩ := hpre
  have hkey : (imp.store run).key ⟨imp.stream.scope.stream, some slot, some id⟩ = imp.key := by
    rw [← hslot, ← hid]
    rfl
  rcases supersedeHistory_inv hok with ⟨rfl, -⟩ | ⟨row, hrow, hstatus, hvalid, rfl⟩
  · exact h.safe
  · rw [hkey] at hrow hvalid ⊢
    exact h.update hrow hvalid rfl rfl rfl rfl rfl rfl (by simp)
      fun hs hquarantined => hq hs ⟨row, hrow, hquarantined⟩

theorem safe_resumeHistory (h : imp.Durable C s) (hpre : imp.Pre C s .resumeHistory)
    (hok : resumeHistory (imp.store run) imp.stream.scope s = .ok ((), t)) :
    imp.Safe C s t := by
  obtain ⟨row, hrow, -, -, hvalid, rfl⟩ := resumeHistory_inv hok
  exact h.update hrow hvalid rfl rfl rfl rfl rfl rfl (by simp)
    fun hs hquarantined => hpre hs ⟨row, hrow, hquarantined⟩

theorem safe_resizeHistoryPage {page : ℕ} {error : String} (h : imp.Durable C s)
    (hok : resizeHistoryPage (imp.store run) imp.stream.scope page error s = .ok ((), t)) :
    imp.Safe C s t := by
  obtain ⟨row, hrow, hrun, hvalid, rfl⟩ := resizeHistoryPage_inv hok
  exact h.update hrow hvalid rfl rfl rfl rfl rfl rfl (by simp [hrun])
    fun _ => not_quarantined_of_running hrun

theorem safe_settleHistoryFailure {error : String} {status : HistoryStatus} (h : imp.Durable C s)
    (hok : settleHistoryFailure (imp.store run) imp.stream.scope error s = .ok (status, t)) :
    imp.Safe C s t := by
  obtain ⟨row, hrow, ⟨-, -, rfl⟩ | ⟨hrun, -, -, rfl⟩ | ⟨hrun, -, -, rfl⟩⟩ :=
    settleHistoryFailure_inv hok
  · exact h.safe
  · exact h.update hrow ((h.row row hrow).valid.of_status (by simp [hrun]) (by simp) _)
      rfl rfl rfl rfl rfl rfl (by simp) fun _ => not_quarantined_of_running hrun
  · exact h.update hrow ((h.row row hrow).valid.of_status (by simp [hrun]) (by simp) _)
      rfl rfl rfl rfl rfl rfl (by simp) fun _ => not_quarantined_of_running hrun

theorem safe_setHistoryFloor {cursor : ObservedBlock} {floorHash : Option Bytes}
    {floorHeight : Option ℕ} (h : imp.Durable C s)
    (hpre : imp.Pre C s (.setHistoryFloor cursor floorHash floorHeight))
    (hok : setHistoryFloor (imp.store run) imp.stream.scope cursor floorHash floorHeight s =
      .ok ((), t)) : imp.Safe C s t := by
  obtain ⟨row, hrow, -, hrun, hvalid, rfl⟩ := setHistoryFloor_inv hok
  obtain ⟨row', cursor', hrow', hnext, hbelow, hfloor⟩ := hpre
  obtain rfl : row = row' := Option.some.inj (hrow.symm.trans hrow')
  have hinv := h.row row hrow
  have hinv' : imp.RowInv C s { row with floorHash := floorHash, floorHeight := floorHeight } :=
    { hinv with
      valid := hvalid
      resumable := fun habove n hn => by
        obtain rfl : cursor' = n := Option.some.inj (hnext.symm.trans hn)
        exact ⟨(hinv.resumable habove _ hn).1, hbelow⟩
      floor := hfloor }
  refine h.setRow hinv' ?_ ?_ (by simp [hrun]) ?_
  · exact (h.certified.start _ row hrow).trans imp.startOf_key
  · exact fun tip htip => h.certified.covered _ row tip hrow htip
  · rintro - ⟨old, hold, hquarantined⟩
    obtain rfl : row = old := Option.some.inj (hrow.symm.trans hold)
    exact not_quarantined_of_running hrun hquarantined

/-- A floor at the start, or at a proven tip. -/
theorem Import.BeginOk.floorOk {coveredTip : Option ObservedBlock} {targetTip : ObservedBlock}
    {floorHash : Option Bytes} {floorHeight : Option ℕ}
    (h : imp.BeginOk s coveredTip targetTip floorHash floorHeight) :
    s.FloorOk imp.key imp.stream.activationHeight floorHash floorHeight := by
  rcases h with ⟨-, rfl, rfl⟩ | ⟨b, -, rfl, rfl, hcert, -⟩
  · unfold checkedSub
    split_ifs with hle
    · exact .inl (Nat.sub_add_cancel hle)
    · exact Nat.lt_one_iff.mp (Nat.not_le.mp hle)
  · exact .inr ⟨b.hash, rfl, hcert⟩

/-- The floor is below a target that is not below the start. -/
theorem Import.BeginOk.floor_lt {coveredTip : Option ObservedBlock} {targetTip : ObservedBlock}
    {floorHash : Option Bytes} {floorHeight : Option ℕ} {height floor : ℕ}
    (h : imp.BeginOk s coveredTip targetTip floorHash floorHeight)
    (htarget : targetTip.height = some height) (hle : imp.stream.activationHeight ≤ height)
    (hfloor : floorHeight = some floor) : floor < height := by
  rcases h with ⟨-, -, rfl⟩ | ⟨b, -, -, rfl, -, hlt⟩
  · obtain ⟨hone, rfl⟩ := checkedSub_eq_some.mp hfloor
    omega
  · cases hfloor
    exact hlt height htarget

theorem safe_beginHistoryCycle {env : Environment P} {start : ℕ} {coveredTip : Option ObservedBlock}
    {targetTip : ObservedBlock} {floorHash : Option Bytes} {floorHeight : Option ℕ} {page : ℕ}
    (h : imp.Durable C s)
    (hguard : imp.Guard C env s
      (.beginHistoryCycle start coveredTip targetTip floorHash floorHeight page))
    (hpre : imp.Pre C s (.beginHistoryCycle start coveredTip targetTip floorHash floorHeight page))
    (hok : beginHistoryCycle (imp.store run) imp.stream.scope start coveredTip targetTip floorHash
      floorHeight page s = .ok (row, t)) : imp.Safe C s t := by
  obtain ⟨rfl, hq, hbegin⟩ := hpre
  have hcovered : ∀ tip ∈ coveredTip, ∃ b : Block, tip = b.observed ∧ s.certifies imp.key b := by
    intro tip htip
    rcases hbegin with ⟨rfl, -⟩ | ⟨b, rfl, -, -, hcert, -⟩
    · cases htip
    · cases htip
      exact ⟨b, rfl, hcert⟩
  have hkeeps : Keeps imp.startOf s t := by
    have hok' := hok
    rw [← imp.startOf_key] at hok'
    exact keeps_beginHistoryCycle hcovered hok'
  obtain ⟨covered, targetHeight, hscope, -, htarget, hle, hvalid, rfl, hrow⟩ :=
    beginHistoryCycle_inv hok
  have hinv : imp.RowInv C s row := by
    rw [imp.store_key] at hvalid
    subst hrow
    exact {
      scope := hscope
      valid := hvalid
      target_le := hle
      next_le := fun n hn => by
        cases hn
        exact le_rfl
      resumable := fun habove n hn => by
        cases hn
        have hstart := hguard habove targetHeight htarget
        exact ⟨hstart, fun floor hfloor => hbegin.floor_lt htarget hstart hfloor⟩
      descends := fun _ n hn => by
        cases hn
        exact .refl _
      floor := fun _ => hbegin.floorOk }
  exact {
    durable := {
      certified := hkeeps.inv h.certified
      honest := h.honest
      row := fun row' hrow' => by
        rw [imp.store_key, Import.row, Db.setCoverage_coverage_self] at hrow'
        cases hrow'
        exact hinv.mono (fun _ h => h) fun _ h => h }
    certified := hkeeps.certified
    quarantined := fun hs hqs => absurd hqs (hq hs) }

section
variable [Digests] {events : List Event} {expectedNext : ObservedBlock}
  {next : Option ObservedBlock} {inserted : ℕ} {u : Db}

/-- **What an honest page leaves behind**: honest facts, and a descent from its cursor to its
oldest block, which is recorded with its parent. -/
theorem Import.HonestPage.recordedFacts {cursor : Block} {hs : List BlockHeader}
    {oldest : BlockHeader} {hdr : Headers}
    (hp : imp.HonestPage hdr s events next cursor hs oldest) (hhonest : s.Honest hdr imp.key)
    (hi : insertPage (imp.store run) events imp.stream.scope s = .ok (inserted, u)) :
    u.Honest hdr imp.key ∧ u.Descends imp.key cursor oldest.block ∧
      ∃ e ∈ u.events, e.isBlock imp.key oldest.hash ∧ e.height = some oldest.height ∧
        e.previousHash = some oldest.previousHash := by
  have hu : u.Honest hdr imp.key := insertPage_honest hi hhonest fun event hevent => by
    obtain ⟨h, hh, hcarries⟩ := hp.carried event hevent
    exact ⟨h, hcarries, hp.tells h hh⟩
  have hfacts : ∀ h ∈ hs, ∃ e ∈ u.events, e.isBlock imp.key h.hash ∧ e.height = some h.height ∧
      e.previousHash = some h.previousHash := fun h hh => by
    obtain ⟨event, hevent, hcarries⟩ := hp.recorded h hh
    exact insertPage_records hi hu hevent hcarries (hp.tells h hh)
  exact ⟨hu, hp.page.descends hfacts hp.last, hfacts oldest (List.mem_of_getLast? hp.last)⟩

theorem safe_recordHistoryPage {conflict : Bool} (h : imp.Durable C s)
    (hpre : imp.Pre C s (.recordHistoryPage events expectedNext next))
    (hok : recordHistoryPageTx (imp.store run) events ⟨imp.stream.scope, expectedNext, next⟩ s =
      .ok ((inserted, conflict), t)) : imp.Safe C s t := by
  have hkeeps : Keeps imp.startOf s t := keeps_recordHistoryPage _ _ hok
  obtain ⟨row, cursor, hrow, hcursor, hrun, rfl, hnextOk, hpage⟩ := hpre
  obtain ⟨-, expectedHeight, next', row', u, hexpected, hnext, hi, -, hrow', hcursor', -, hw⟩ :=
    recordHistoryPageTx_inv hok
  obtain rfl : row = row' := Option.some.inj (hrow.symm.trans hrow')
  obtain rfl : cursor.height = expectedHeight := Option.some.inj hexpected
  obtain ⟨hvalid, w, hcertify, rfl⟩ := writeCoverage_inv hw
  obtain ⟨hevents, -, hcertified⟩ := certifyHistory_frame hcertify
  have hsu : Grows s u := grows_insertPage _ _ _ hi
  have hu : imp.RowInv C u row :=
    (h.row row hrow).mono hsu.events (by rw [hsu.certified]; exact fun _ h => h)
  have hhonest : C.honest → u.Honest C.hdr imp.key := fun hh => by
    obtain ⟨-, hs, oldest, hp⟩ := hpage hh
    exact (hp.recordedFacts (h.honest hh) hi).1
  have hinv : imp.RowInv C u
      (row.afterPage ⟨cursor.hash, cursor.height⟩ next' conflict inserted) := by
    by_cases hstay : conflict = true
    · subst hstay
      exact hu.of_eq hvalid rfl hcursor.symm rfl rfl
    obtain rfl : conflict = false := by simpa using hstay
    rcases optionalBlockParts_eq_ok hnext with ⟨-, rfl⟩ | ⟨hash, height, hn, -, rfl⟩
    · exact { hu with
        valid := hvalid
        next_le := fun n hn => by cases hn
        resumable := fun _ n hn => by cases hn
        descends := fun _ n hn => by cases hn }
    obtain ⟨b, hb, hlt, hbelow⟩ := hnextOk _ hn
    obtain rfl : b = ⟨hash, height⟩ := by
      cases b
      cases hb
      rfl
    exact { hu with
      valid := hvalid
      next_le := fun n hn => by
        cases hn
        exact (Nat.le_of_lt hlt).trans (hu.next_le cursor hcursor)
      resumable := fun habove n hn => by
        cases hn
        exact ⟨(hu.resumable habove cursor hcursor).1, hbelow⟩
      descends := fun hh n hn' => by
        cases hn'
        obtain ⟨-, hs, oldest, hp⟩ := hpage hh
        obtain ⟨-, hd, e, he, heb, heh, hep⟩ := hp.recordedFacts (h.honest hh) hi
        obtain ⟨hheight, hprevious⟩ := hp.goesOn ⟨hash, height⟩ hn
        rw [hheight] at heh
        rw [hprevious] at hep
        have hstep : u.Descends imp.key oldest.block ⟨hash, height⟩ := by
          rw [BlockHeader.block, hheight]
          exact .step he heb heh hep (.refl _)
        exact ((hu.descends hh cursor hcursor).trans hd).trans hstep }
  exact {
    durable := {
      certified := hkeeps.inv h.certified
      honest := fun hh e he => by
        rw [Db.setCoverage_events, hevents] at he
        exact hhonest hh e he
      row := fun row'' hrow'' => by
        rw [imp.store_key, Import.row, Db.setCoverage_coverage_self] at hrow''
        cases hrow''
        exact hinv.mono (by rw [Db.setCoverage_events, hevents]; exact fun _ h => h) hcertified }
    certified := hkeeps.certified
    quarantined := by
      rintro - ⟨old, hold, hquarantined⟩
      obtain rfl : row = old := Option.some.inj (hrow.symm.trans hold)
      exact absurd hquarantined (not_quarantined_of_running hrun) }

omit [Digests] in
/-- On a connection that may fail an operation does what it would do, or nothing. -/
theorem safe_deliver {α : Type} {env : Environment P} {out : Result α × Db} (h : imp.Durable C s)
    (hout : imp.Safe C s out.2) : imp.Safe C s (env.deliver s out).2 := by
  unfold Environment.deliver
  split
  · exact hout
  · rename_i applied e _
    cases applied
    · exact h.safe
    · exact hout

omit [Digests] in
/-- A committed transaction is safe when its successes are. -/
theorem safe_commit {α : Type} {x : Write α} (h : imp.Durable C s)
    (hx : ∀ a t, x s = .ok (a, t) → imp.Safe C s t) : imp.Safe C s (Tx.commit x s).2 := by
  rcases Tx.commit_snd_cases x s with ⟨a, t, hok, hc⟩ | ⟨e, -, hc⟩
  · rw [hc]
    exact hx a t hok
  · rw [hc]
    exact h.safe

/-- **Every operation the engine may perform is safe.** -/
theorem Import.perform_safe {env : Environment P} {e : Op P} (h : imp.Durable C s)
    (hguard : imp.Guard C env s e) (hpre : imp.Pre C s e) :
    imp.Safe C s (imp.perform run env s e).2 := by
  cases e with
  | shutdownRequested | pagePause | fetch | currentTip | now => exact h.safe
  | currentSidechainInstanceId => exact safe_deliver h h.safe
  | supersedeHistory =>
    exact safe_deliver h (safe_commit h fun _ _ hok => safe_supersedeHistory h hpre hok)
  | historyCoverage =>
    exact safe_deliver h (safe_commit h fun _ _ hok => (historyCoverage_inv hok).1 ▸ h.safe)
  | beginHistoryCycle =>
    exact safe_deliver h (safe_commit h fun _ _ hok => safe_beginHistoryCycle h hguard hpre hok)
  | resumeHistory => exact safe_deliver h (safe_commit h fun _ _ hok => safe_resumeHistory h hpre hok)
  | resizeHistoryPage => exact safe_deliver h (safe_commit h fun _ _ hok => safe_resizeHistoryPage h hok)
  | settleHistoryFailure =>
    exact safe_deliver h (safe_commit h fun _ _ hok => safe_settleHistoryFailure h hok)
  | certifiedHistoryFloor =>
    exact safe_deliver h (safe_commit h fun _ _ hok => (certifiedHistoryFloor_inv hok).1 ▸ h.safe)
  | setHistoryFloor =>
    exact safe_deliver h (safe_commit h fun _ _ hok => safe_setHistoryFloor h hpre hok)
  | recordHistoryPage events expectedNext next =>
    refine safe_deliver h ?_
    rw [recordHistoryPage_snd]
    exact safe_commit h fun _ _ hok => safe_recordHistoryPage h hpre hok

end

end

/-! ### The rest of the monitor -/

/-- What the rest of the monitor does to a scope: it adds facts and certifies blocks. -/
structure Import.Rely (imp : Import P) (s t : Db) : Prop where
  row : imp.row t = imp.row s
  events : s.events ⊆ t.events
  certified : s.certified ⊆ t.certified

/-- **The rest of the monitor is safe**, and the scope can rely on it. -/
theorem Import.world_safe [Digests] {command : Command} (h : imp.Durable C s)
    (hkey : command.coverageKey ≠ some imp.key)
    (hhonest : C.honest → ∀ event ∈ command.events, imp.HonestEvent C.hdr event)
    (hkeeps : Keeps imp.startOf s (s.exec imp.startOf command)) :
    imp.Safe C s (s.exec imp.startOf command) ∧ imp.Rely s (s.exec imp.startOf command) := by
  have helse := s.exec_elsewhere imp.startOf command hkey
  have hrow : imp.row (s.exec imp.startOf command) = imp.row s := helse.coverage
  refine ⟨{ durable := ?_, certified := hkeeps.certified, quarantined := ?_ },
    hrow, helse.events, hkeeps.certified⟩
  · exact {
      certified := hkeeps.inv h.certified
      honest := fun hh e he hash hb => by
        rcases helse.fresh e he with he | ⟨event, hevent, f, hf, hkind, hblock, hheight, hprevious⟩
        · exact h.honest hh e he hash hb
        · rw [hheight, hprevious]
          exact hhonest hh event hevent f hf (hkind.symm.trans hb.1.2.2.2.1) hash
            (hblock.symm.trans hb.2)
      row := fun row hr => (h.row row (hrow ▸ hr)).mono helse.events hkeeps.certified }
  · rintro - ⟨row, hr, hq⟩
    exact ⟨row, hrow.trans hr, hq⟩

end Backfill

end Bip300Monitor
