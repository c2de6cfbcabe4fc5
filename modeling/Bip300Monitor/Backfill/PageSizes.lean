import Bip300Monitor.Backfill.Cursor
import Bip300Monitor.Backfill.Outline

/-!
# The sizes of pages

The page size of a scope is configured within bounds, halved when a request is too large, kept in
the row and taken up again by the next call, whose own configuration may be another. What a request
asks for is the smaller of that size and of what is left through the floor.

The state here is the row of the scope alone: nobody else writes it, so that between two operations
of a call it stays as it is.

## What is proved

* `perform_moves`, `perform_shrinks` — what an operation of the engine does to the row, and that its
  page size stays in bounds and does not grow;
* `runHistory_within`, `iterate_within` — a call asks for pages within the size and the floor;
* `page_size_bounds` — so does every call of every run.
-/

namespace Bip300Monitor.Backfill

open Protobuf Transaction Runs Resumption

/-! ### Sizes -/

/-- The largest page that can be configured. -/
def maxPageBlocks : ℕ := 512

/-- The page size is one that the command line accepts. -/
def Settings.Configured (settings : Settings) : Prop :=
  1 ≤ settings.pageBlocks ∧ settings.pageBlocks ≤ maxPageBlocks

/-- The page size of a row is one that can be configured. -/
def Sized (s : Option CoverageRow) : Prop :=
  ∀ row ∈ s, 1 ≤ row.effectivePageBlocks ∧ row.effectivePageBlocks ≤ maxPageBlocks

/-- A row stays in bounds and there, and its page size does not grow. -/
structure Shrinks (s t : Option CoverageRow) : Prop where
  sized : Sized s → Sized t
  le : ∀ row ∈ s, ∃ row' ∈ t, row'.effectivePageBlocks ≤ row.effectivePageBlocks

instance : Std.Refl Shrinks := ⟨fun _ => ⟨id, fun row hrow => ⟨row, hrow, le_rfl⟩⟩⟩

instance : IsTrans (Option CoverageRow) Shrinks where
  trans _ _ _ h h' := by
    refine ⟨h'.sized ∘ h.sized, fun row hrow => ?_⟩
    obtain ⟨row', hrow', hle⟩ := h.le row hrow
    obtain ⟨row'', hrow'', hle'⟩ := h'.le row' hrow'
    exact ⟨row'', hrow'', hle'.trans hle⟩

/-- A page size that a row may be given. -/
structure PageFits (s : Option CoverageRow) (page : ℕ) : Prop where
  pos : 1 ≤ page
  le : page ≤ maxPageBlocks
  shrinks : ∀ row ∈ s, page ≤ row.effectivePageBlocks

variable {P : Type} {s t : Option CoverageRow} {row row' : CoverageRow} {page : ℕ}

/-- A row that is written with a size that fits. -/
theorem PageFits.shrinks_to (h : PageFits s page) (hrow : row.effectivePageBlocks = page) :
    Shrinks s (some row) where
  sized _ row' hrow' := by
    cases hrow'
    rw [hrow]
    exact ⟨h.pos, h.le⟩
  le row' hrow' := ⟨row, rfl, hrow.trans_le (h.shrinks row' hrow')⟩

theorem Sized.fits (h : Sized s) (hrow : s = some row) : PageFits s row.effectivePageBlocks where
  pos := (h row hrow).1
  le := (h row hrow).2
  shrinks row' hrow' := by
    obtain rfl : row = row' := Option.some.inj (hrow.symm.trans hrow')
    exact le_rfl

/-! ### Requests -/

/-- The height is above the floor. -/
def AboveFloor (floorHeight : Option ℕ) (height : ℕ) : Prop := ∀ floor ∈ floorHeight, floor < height

/-- A request, when the cursor of the row is `b` and `remaining` blocks are left through its floor:
it is for the page at the cursor, or it asks whether the target is there. -/
structure Request (row : CoverageRow) (b : Block) (remaining : ℕ) (cursor : ObservedBlock)
    (requested : ℕ) : Prop where
  next : row.next = some b
  left : blocksThroughFloor b.height row.floorHeight = .ok remaining
  pos : 1 ≤ requested
  le : requested ≤ min remaining row.effectivePageBlocks
  purpose : (cursor = b.observed ∧ requested = min remaining row.effectivePageBlocks) ∨
    (cursor = row.targetTip.observed ∧ requested = 1)

/-- The event is anchored to a block above the floor. -/
def AnchoredAbove (floorHeight : Option ℕ) (event : Event) : Prop :=
  ∃ hash height, event.observedAtBlock = some (.atHeight hash height) ∧
    AboveFloor floorHeight height

/-! ### What the operations do to the row -/

/-- What an operation that is answered does to the row; of some nothing is used. -/
def moves : (e : Op P) → Option CoverageRow → e.Resp → Option CoverageRow → Prop
  | .historyCoverage, s, r, t => (∀ row, r = .ok row → row = s) ∧ t = s
  | .beginHistoryCycle _ _ _ _ _ page, _, r, t =>
    ∀ row, r = .ok row → t = some row ∧ row.effectivePageBlocks = page
  | .resumeHistory, s, r, t => r = .ok () →
    ∃ row ∈ s, t = some { row with
      status := .running
      lastError := none }
  | .resizeHistoryPage page error, s, r, t => r = .ok () →
    ∃ row ∈ s, t = some { row with
      effectivePageBlocks := page
      lastError := some error }
  | .setHistoryFloor _ floorHash floorHeight, s, r, t => r = .ok () →
    ∃ row ∈ s, t = some { row with
      floorHash := floorHash
      floorHeight := floorHeight }
  | .recordHistoryPage _ _ next, s, r, t => (∃ inserted, r = .ok inserted) →
    ∀ b, next = some (Block.observed b) → ∃ row ∈ s, ∃ row' ∈ t, row'.next = some b ∧
      row'.targetTip = row.targetTip ∧ row'.floorHeight = row.floorHeight ∧
      row'.effectivePageBlocks = row.effectivePageBlocks
  | .supersedeHistory .., _, _, _ | .settleHistoryFailure _, _, _, _ => True
  | _, s, _, t => t = s

/-- The engine's operations on its row, with what it has to keep to. -/
def sizes : Interface (Option CoverageRow) (Op P) Op.Resp where
  rely s t := t = s
  pre e s := match e with
    | .beginHistoryCycle _ _ _ _ _ page | .resizeHistoryPage page _ => PageFits s page
    | .fetch cursor requested => ∃ row ∈ s, ∃ b remaining, Request row b remaining cursor requested
    | .recordHistoryPage events _ _ =>
      ∃ row ∈ s, ∀ event ∈ events, AnchoredAbove row.floorHeight event
    | _ => True
  sem := moves
  rely_refl _ := rfl
  rely_trans _ _ _ h h' := h'.trans h

section
variable [Digests] {imp : Import P} {run : Uuid} {env : Environment P} {db db' u : Db}

omit [Digests] in
/-- Whichever row is written: one that has the page size of the row before. -/
theorem shrinks_setCoverage {k : ScopeKey} (hu : u.coverage = db.coverage)
    (hrow : db.coverage k = some row)
    (hsize : row'.effectivePageBlocks = row.effectivePageBlocks) :
    Shrinks (imp.row db) (imp.row (u.setCoverage k row')) := by
  by_cases hk : imp.key = k
  · subst hk
    have ht : imp.row (u.setCoverage imp.key row') = some row' := Db.setCoverage_coverage_self _ _ _
    rw [ht]
    refine ⟨fun hs x hx => ?_, fun x hx => ⟨row', rfl, ?_⟩⟩
    · cases hx
      rw [hsize]
      exact hs row hrow
    · obtain rfl : row = x := Option.some.inj (hrow.symm.trans hx)
      exact hsize.le
  · have ht : imp.row (u.setCoverage k row') = imp.row db :=
      (Db.setCoverage_coverage_of_ne _ _ hk).trans (congrFun hu _)
    rw [ht]
    exact Std.Refl.refl _

/-- Rows of records. -/
abbrev Import.ShrinksRow (imp : Import P) (s t : Db) : Prop := Shrinks (imp.row s) (imp.row t)

omit [Digests] in
instance : Std.Refl imp.ShrinksRow := ⟨fun _ => Std.Refl.refl _⟩

/-- **No operation lets the page size grow**, also when the connection fails. -/
theorem perform_shrinks {e : Op P} (he : sizes.pre e (imp.row db)) :
    Shrinks (imp.row db) (imp.row (imp.perform run env db e).2) := by
  have deliver {α : Type} {out : Result α × Db} (h : imp.ShrinksRow db out.2) :
      imp.ShrinksRow db (env.deliver db out).2 := deliver_rel env h
  have reads {α : Type} {x : Write α} (h : ∀ a t, x db = .ok (a, t) → t = db) :
      imp.ShrinksRow db (Tx.commit x db).2 :=
    Tx.commit_rel fun a t hx => by
      rw [h a t hx]
      exact Std.Refl.refl _
  cases e with
  | shutdownRequested | pagePause | fetch | currentTip | now => exact Std.Refl.refl _
  | currentSidechainInstanceId => exact deliver (Std.Refl.refl db)
  | historyCoverage => exact deliver (reads fun _ _ h => (historyCoverage_inv h).1)
  | certifiedHistoryFloor hashes => exact deliver (reads fun _ _ h => (certifiedHistoryFloor_inv h).1)
  | supersedeHistory slot id reason =>
    refine deliver (Tx.commit_rel fun _ t h => ?_)
    rcases supersedeHistory_inv h with ⟨rfl, -⟩ | ⟨row, hrow, -, -, rfl⟩
    · exact Std.Refl.refl _
    · exact shrinks_setCoverage rfl hrow rfl
  | beginHistoryCycle start coveredTip targetTip floorHash floorHeight page =>
    refine deliver (Tx.commit_rel fun row t h => ?_)
    obtain ⟨covered, height, -, -, -, -, -, rfl, rfl⟩ := beginHistoryCycle_inv h
    change Shrinks (imp.row db) ((db.setCoverage imp.key _).coverage imp.key)
    rw [Db.setCoverage_coverage_self]
    exact PageFits.shrinks_to he rfl
  | resumeHistory =>
    refine deliver (Tx.commit_rel fun _ t h => ?_)
    obtain ⟨row, hrow, -, -, -, rfl⟩ := resumeHistory_inv h
    exact shrinks_setCoverage rfl hrow rfl
  | resizeHistoryPage page error =>
    refine deliver (Tx.commit_rel fun _ t h => ?_)
    obtain ⟨row, hrow, -, -, rfl⟩ := resizeHistoryPage_inv h
    change Shrinks (imp.row db) ((db.setCoverage imp.key _).coverage imp.key)
    rw [Db.setCoverage_coverage_self]
    exact PageFits.shrinks_to he rfl
  | settleHistoryFailure error =>
    refine deliver (Tx.commit_rel fun _ t h => ?_)
    obtain ⟨row, hrow, ⟨-, -, rfl⟩ | ⟨-, -, -, rfl⟩ | ⟨-, -, -, rfl⟩⟩ := settleHistoryFailure_inv h
    · exact Std.Refl.refl _
    · exact shrinks_setCoverage rfl hrow rfl
    · exact shrinks_setCoverage rfl hrow rfl
  | setHistoryFloor cursor floorHash floorHeight =>
    refine deliver (Tx.commit_rel fun _ t h => ?_)
    obtain ⟨row, hrow, -, -, -, rfl⟩ := setHistoryFloor_inv h
    exact shrinks_setCoverage rfl hrow rfl
  | recordHistoryPage events expectedNext next =>
    refine deliver ?_
    rw [recordHistoryPage_snd]
    refine Tx.commit_rel fun _ t h => ?_
    obtain ⟨-, _, _, row, u, -, -, hinsert, -, hrow, -, -, hw⟩ := recordHistoryPageTx_inv h
    obtain ⟨-, v, hcertify, rfl⟩ := writeCoverage_inv hw
    obtain ⟨-, hcoverage, -⟩ := certifyHistory_frame hcertify
    exact shrinks_setCoverage (hcoverage.trans (grows_insertPage _ _ _ hinsert).coverage) hrow rfl

/-- **What the operations answer** tells what became of the row. -/
theorem perform_moves (e : Op P) :
    moves e (imp.row db) (imp.perform run env db e).1 (imp.row (imp.perform run env db e).2) := by
  have committed {α : Type} {x : Write α} {a : α}
      (h : (env.deliver db (Tx.commit x db)).1 = .ok a) :
      x db = .ok (a, (env.deliver db (Tx.commit x db)).2) :=
    Tx.commit_eq_ok.mp (Environment.deliver_eq_ok (Prod.ext h rfl))
  have untouched {α : Type} {x : Write α} (h : ∀ a t, x db = .ok (a, t) → t = db) :
      imp.row (env.deliver db (Tx.commit x db)).2 = imp.row db :=
    congrArg imp.row (deliver_rel (R := Eq) env (Tx.commit_rel fun a t hx => (h a t hx).symm)).symm
  cases e with
  | shutdownRequested | pagePause | fetch | currentTip | now => rfl
  | currentSidechainInstanceId slot =>
    exact congrArg imp.row (deliver_rel (R := Eq) env rfl).symm
  | historyCoverage =>
    exact ⟨fun row h => (historyCoverage_inv (committed h)).2,
      untouched fun _ _ h => (historyCoverage_inv h).1⟩
  | certifiedHistoryFloor hashes => exact untouched fun _ _ h => (certifiedHistoryFloor_inv h).1
  | supersedeHistory slot id reason => trivial
  | beginHistoryCycle start coveredTip targetTip floorHash floorHeight page =>
    intro row h
    obtain ⟨covered, height, -, -, -, -, -, ht, hrow⟩ := beginHistoryCycle_inv (committed h)
    rw [Import.perform, ht, hrow]
    exact ⟨Db.setCoverage_coverage_self _ _ _, rfl⟩
  | resumeHistory =>
    intro h
    obtain ⟨row, hrow, -, -, -, ht⟩ := resumeHistory_inv (committed h)
    rw [Import.perform, ht]
    exact ⟨row, hrow, Db.setCoverage_coverage_self _ _ _⟩
  | resizeHistoryPage page error =>
    intro h
    obtain ⟨row, hrow, -, -, ht⟩ := resizeHistoryPage_inv (committed h)
    rw [Import.perform, ht]
    exact ⟨row, hrow, Db.setCoverage_coverage_self _ _ _⟩
  | settleHistoryFailure error => trivial
  | setHistoryFloor cursor floorHash floorHeight =>
    intro h
    obtain ⟨row, hrow, -, -, -, ht⟩ := setHistoryFloor_inv (committed h)
    rw [Import.perform, ht]
    exact ⟨row, hrow, Db.setCoverage_coverage_self _ _ _⟩
  | recordHistoryPage events expectedNext next =>
    rintro ⟨inserted, h⟩ b rfl
    obtain ⟨row, expected, next, hrow, hparts, ht⟩ :=
      recordHistoryPage_row (Environment.deliver_eq_ok (Prod.ext h rfl))
    rcases optionalBlockParts_eq_ok hparts with ⟨hnone, -⟩ | ⟨hash, height, hsome, -, rfl⟩
    · cases hnone
    · refine ⟨row, hrow, _, ht, ?_, rfl, rfl, rfl⟩
      cases b
      cases hsome
      rfl

end

/-! ### What is known of the row -/

/-- The row stands where the variables of the loop say, with their page size. -/
structure Held (l : Locals) (s : Option CoverageRow) : Prop where
  row : ∃ row ∈ s, row.next = l.progress.next ∧ row.targetTip = l.progress.targetTip ∧
    row.floorHeight = l.progress.floorHeight ∧
    row.effectivePageBlocks = l.progress.effectivePageBlocks
  sized : Sized s

/-- What an iteration must establish: if it goes round again, that the row stands there. -/
def Onward (r : Locals ⊕ Outcome) (s : Option CoverageRow) : Prop := ∀ l, r = .inl l → Held l s

variable {l : Locals}

/-- The row that a cycle begins or goes on with. -/
theorem Sized.held (h : Sized s) (hrow : s = some row) (hl : l.progress = row) : Held l s :=
  ⟨⟨row, hrow, by rw [hl], by rw [hl], by rw [hl], by rw [hl]⟩, h⟩

theorem Held.fits (h : Held l s) : PageFits s l.progress.effectivePageBlocks := by
  obtain ⟨row, hrow, -, -, -, hsize⟩ := h.row
  exact hsize ▸ h.sized.fits hrow

/-- Half the page, but not less than one block. -/
theorem PageFits.half (h : PageFits s page) : PageFits s (max (page / 2) 1) := by
  have hle : max (page / 2) 1 ≤ page := max_le (Nat.div_le_self _ _) h.pos
  exact ⟨le_max_right _ _, hle.trans h.le, fun row hrow => hle.trans (h.shrinks row hrow)⟩

/-- The loop at its cursor, with what is left through the floor. -/
structure AtCursor (l : Locals) (cursor : Block) (remaining : ℕ) (s : Option CoverageRow) : Prop
    extends Held l s where
  next : l.progress.next = some cursor
  left : blocksThroughFloor cursor.height l.progress.floorHeight = .ok remaining

theorem AtCursor.pos {cursor : Block} {remaining : ℕ} (h : AtCursor l cursor remaining s) :
    1 ≤ remaining := by
  rcases blocksThroughFloor_eq_ok.mp h.left with ⟨-, rfl⟩ | ⟨floor, -, hlt, rfl⟩
  · omega
  · omega

/-- The request for the page at the cursor. -/
theorem AtCursor.fetches {cursor : Block} {remaining : ℕ} (h : AtCursor l cursor remaining s) :
    ∃ row ∈ s, ∃ b n, Request row b n cursor.observed
      (min remaining l.progress.effectivePageBlocks) := by
  obtain ⟨row, hrow, hnext, -, hfloor, hsize⟩ := h.row
  have hpos : 1 ≤ min remaining l.progress.effectivePageBlocks := le_min h.pos h.fits.pos
  refine ⟨row, hrow, cursor, remaining, hnext.trans h.next, hfloor ▸ h.left, hpos, ?_, .inl ⟨rfl, ?_⟩⟩
  · rw [hsize]
  · rw [hsize]

/-- The request whether the target is there. -/
theorem AtCursor.probes {cursor : Block} {remaining : ℕ} (h : AtCursor l cursor remaining s) :
    ∃ row ∈ s, ∃ b n, Request row b n l.target 1 := by
  obtain ⟨row, hrow, hnext, htarget, hfloor, hsize⟩ := h.row
  refine ⟨row, hrow, cursor, remaining, hnext.trans h.next, hfloor ▸ h.left, le_rfl, ?_, .inr ⟨?_, rfl⟩⟩
  · rw [hsize]
    exact le_min h.pos h.fits.pos
  · rw [htarget]
    rfl

variable {stream : HistoryStream P}

/-- A row that a cycle has begun with. -/
def Begun (row : CoverageRow) (s : Option CoverageRow) : Prop := s = some row ∧ Sized s

theorem Begun.held (h : Begun row s) (hl : l.progress = row) : Held l s := h.2.held h.1 hl

theorem PageFits.begun (h : PageFits s page) (ht : t = some row ∧ row.effectivePageBlocks = page) :
    Begun row t := by
  obtain ⟨rfl, rfl⟩ := ht
  refine ⟨rfl, fun x hx => ?_⟩
  cases hx
  exact ⟨h.pos, h.le⟩

/-! ### A page -/

variable {cursor : Block} {remaining : ℕ}

/-- All blocks of the page are above the floor of the loop. -/
structure Lands (stream : HistoryStream P) (l : Locals) (payloads : List P)
    (s : Option CoverageRow) : Prop extends Held l s where
  above : ∀ p ∈ payloads, ∀ h, stream.header p = .ok h →
    AboveFloor l.progress.floorHeight h.height

/-- **A page of no more blocks than are left** stays above the floor. -/
theorem IsPage.above {payloads : List P} {hs : List BlockHeader} {floorHeight : Option ℕ}
    (hp : IsPage cursor hs)
    (hheaders : List.Forall₂ (fun p h => stream.header p = .ok h) payloads hs)
    (hleft : blocksThroughFloor cursor.height floorHeight = .ok remaining)
    (hlength : payloads.length ≤ remaining) {p : P} (hmem : p ∈ payloads) {h : BlockHeader}
    (hh : stream.header p = .ok h) : AboveFloor floorHeight h.height := by
  intro floor hfloor
  rcases blocksThroughFloor_eq_ok.mp hleft with ⟨rfl, -⟩ | ⟨floor', hsome, hlt, rfl⟩
  · cases hfloor
  · obtain rfl : floor' = floor := Option.some.inj (hsome.symm.trans hfloor)
    obtain ⟨x, hx, hpx⟩ := PairedLists.exists_mem hheaders hmem
    obtain rfl : x = h := Except.ok.inj (hpx.symm.trans hh)
    obtain ⟨i, hi⟩ := List.mem_iff_getElem?.mp hx
    have hheight := hp.height hi
    have hlt' := (List.getElem?_eq_some_iff.mp hi).1
    have hlen := hheaders.length_eq
    omega

/-! ### The outline -/

/-- What is known of the row at each point of a call. -/
def SizedAt (stream : HistoryStream P) : Point P → Option CoverageRow → Prop
  | .retired, _ | .reached _, _ => True
  | .start, s | .free, s => Sized s
  | .read existing, s => s = existing ∧ Sized s
  | .begins page, s => PageFits s page
  | .begun row, s => Begun row s
  | .loop l, s => Held l s
  | .page l _ payloads _, s | .marked l _ payloads _ _, s | .commit l _ payloads _, s =>
    Lands stream l payloads s

/-- Half the page from now on. -/
theorem shrink_leads (l : Locals) (error : String) : Leads sizes (Held l)
    (.resizeHistoryPage (max (l.progress.effectivePageBlocks / 2) 1) error : Op P) fun r t => r = .ok () →
      Held { l with progress := { l.progress with
        effectivePageBlocks := max (l.progress.effectivePageBlocks / 2) 1 } } t := by
  refine fun s h => ⟨h.fits.half, fun r t ht hr => ?_⟩
  obtain ⟨row, hrow, rfl⟩ := ht hr
  obtain ⟨row', hrow', hnext, htarget, hfloor, -⟩ := h.row
  obtain rfl : row = row' := Option.some.inj (hrow.symm.trans hrow')
  refine ⟨⟨_, rfl, hnext, htarget, hfloor, rfl⟩, fun x hx => ?_⟩
  cases hx
  exact ⟨h.fits.half.pos, h.fits.half.le⟩

/-- Cut at a certified block, the page stays above what becomes the floor. -/
theorem cut_lands {payloads : List P} {hs : List BlockHeader} {index : ℕ} {header : BlockHeader}
    (hpage : PageOf stream cursor payloads hs) (hget : hs[index]? = some header) :
    Leads sizes (Lands stream l payloads) (.setHistoryFloor cursor.observed
      ((checkedSub header.height 1).map fun _ => header.previousHash) (checkedSub header.height 1) : Op P)
      fun r t => r = .ok () → Lands stream { l with progress := { l.progress with
        floorHash := (checkedSub header.height 1).map fun _ => header.previousHash
        floorHeight := checkedSub header.height 1 } } (payloads.take (index + 1)) t := by
  refine fun s h => ⟨trivial, fun r t ht hr => ?_⟩
  obtain ⟨row, hrow, rfl⟩ := ht hr
  obtain ⟨row', hrow', hnext, htarget, -, hsize⟩ := h.row
  obtain rfl : row = row' := Option.some.inj (hrow.symm.trans hrow')
  refine ⟨⟨⟨_, rfl, hnext, htarget, rfl, hsize⟩, fun x hx => ?_⟩, fun p hmem x hx => ?_⟩
  · cases hx
    exact h.sized row hrow
  · -- the blocks kept are those down to the certified one
    obtain ⟨y, hy, hpy⟩ := PairedLists.exists_mem (List.forall₂_take (index + 1) hpage.headers) hmem
    obtain rfl : y = x := Except.ok.inj (hpy.symm.trans hx)
    obtain ⟨i, hi⟩ := List.mem_iff_getElem?.mp hy
    have hi' : i < index + 1 :=
      lt_of_lt_of_le (List.getElem?_eq_some_iff.mp hi).1 (List.length_take_le _ _)
    rw [List.getElem?_take_of_lt hi'] at hi
    have hheight := hpage.page.height hget
    have hheight' := hpage.page.height hi
    intro below hbelow
    obtain ⟨hone, rfl⟩ := checkedSub_eq_some.mp hbelow
    omega

/-- The page that is recorded is above the floor, and the row moves to the next cursor. -/
theorem record_lands {payloads : List P} {next : Option Block} {events : List Event}
    (hevents : List.Forall₂ stream.EventOf payloads.reverse events) :
    Leads sizes (Lands stream l payloads)
      (.recordHistoryPage events cursor.observed (next.map Block.observed) : Op P) fun r t =>
        ∀ inserted, r = .ok inserted → next ≠ none → Held (l.moved events.length inserted next) t := by
  intro s h
  obtain ⟨row, hrow, hnext, htarget, hfloor, hsize⟩ := h.row
  refine ⟨⟨row, hrow, fun event hevent => ?_⟩, fun r t ht inserted hr hne => ?_⟩
  · obtain ⟨p, hp, header, now, hheader, henvelope⟩ :=
      PairedLists.exists_mem (List.Forall₂.flip hevents) hevent
    have hanchor := (stream.envelope_faithful p header _ now event hheader henvelope).1
    exact ⟨header.hash, header.height, hanchor,
      hfloor ▸ h.above p (List.mem_reverse.mp hp) header hheader⟩
  · obtain ⟨b, rfl⟩ := Option.ne_none_iff_exists'.mp hne
    obtain ⟨row', hrow', row'', hrow'', hnext', htarget', hfloor', hsize'⟩ := ht ⟨inserted, hr⟩ b rfl
    obtain rfl : row = row' := Option.some.inj (hrow.symm.trans hrow')
    refine ⟨⟨row'', hrow'', hnext', htarget'.trans htarget, hfloor'.trans hfloor,
      hsize'.trans hsize⟩, fun x hx => ?_⟩
    obtain rfl : row'' = x := Option.some.inj (hrow''.symm.trans hx)
    rw [hsize']
    exact h.sized row hrow

/-- A completed row goes on with the smaller of its own size and the configured one. -/
theorem Sized.fits_min {configured : ℕ} (h : Sized s) (hrow : s = some row) (hconfigured : 1 ≤ configured) :
    PageFits s (min row.effectivePageBlocks configured) := by
  have hrow := h.fits hrow
  exact ⟨le_min hrow.pos hconfigured, (min_le_left _ _).trans hrow.le,
    fun x hx => (min_le_left _ _).trans (hrow.shrinks x hx)⟩

/-- **The loop keeps to the bounds**, at every point. -/
def sizesLoop (stream : HistoryStream P) : LoopOutline (sizes (P := P)) stream where
  At := SizedAt stream
  stable _ s t h hst := hst ▸ h
  asks e he s := by
    refine ⟨by cases e <;> trivial, fun r t ht => ?_⟩
    cases e with
    | shutdownRequested | currentTip | now | pagePause => exact ht
    | _ => exact he.elim
  settle _ _ := trivial
  current _ _ _ := ⟨trivial, fun _ _ ht => ⟨ht, fun _ => trivial⟩⟩
  supersede _ _ _ _ _ := trivial
  begin _ _ _ h := ⟨h, fun _ _ ht row hr => h.begun (ht row hr)⟩
  enter _ _ h := h.held rfl
  anew _ _ h := h.fits
  fetch l cursor remaining hnext hremaining s h := by
    have hat : AtCursor l cursor remaining s := ⟨h, hnext, hremaining⟩
    refine ⟨hat.fetches, ?_⟩
    rintro r t rfl
    exact ⟨h, fun payloads hs _ _ hpage hlength => ⟨h, fun p hmem x hx =>
      hpage.page.above hpage.headers hremaining hlength hmem hx⟩⟩
  probe l cursor remaining hnext hremaining s h := by
    have hat : AtCursor l cursor remaining s := ⟨h, hnext, hremaining⟩
    refine ⟨hat.probes, ?_⟩
    rintro r t rfl
    exact h
  shrink := shrink_leads
  floor _ _ _ _ s h := ⟨trivial, fun _ t ht _ _ => ht ▸ h⟩
  cut _ _ _ _ _ _ _ _ hpage _ _ hget _ := cut_lands hpage hget
  keep _ _ _ _ _ _ _ _ _ _ _ _ _ _ _ _ _ _ h := h
  repair _ _ _ _ _ h := h.fits
  recut _ _ _ _ h := h.fits
  record _ _ _ _ _ hevents := (record_lands hevents).mono _ (fun _ h => h) fun _ _ h inserted hr =>
    ⟨fun _ => trivial, h inserted hr⟩

/-- And a call, when it is configured within them. -/
def sizesOutline (stream : HistoryStream P) {settings : Settings} (hsettings : settings.Configured) :
    Outline (sizes (P := P)) stream settings where
  __ := sizesLoop stream
  check s h := ⟨trivial, fun r t ht _ _ _ => ht.2 ▸ h⟩
  read s h := by
    refine ⟨trivial, ?_⟩
    rintro r t ⟨hread, rfl⟩ existing hr
    exact ⟨(hread existing hr).symm, h⟩
  first s h := ⟨hsettings.1, hsettings.2, fun row hrow => by cases h.1.symm.trans hrow⟩
  running _ _ _ h := h
  resume row s h := by
    refine ⟨trivial, fun r t ht hr => ?_⟩
    obtain ⟨row', hrow', rfl⟩ := ht hr
    obtain rfl : row = row' := Option.some.inj (h.1.symm.trans hrow')
    refine ⟨rfl, fun x hx => ?_⟩
    cases hx
    exact h.2 row hrow'
  upToDate _ _ _ _ _ _ _ _ := trivial
  extend _ _ _ _ _ _ _ _ h :=
    ⟨h.2.fits_min h.1 hsettings.1, fun _ _ ht row hr => (h.2.fits_min h.1 hsettings.1).begun (ht row hr)⟩
  again _ _ h := h.2.fits_min h.1 hsettings.1

/-- The programs of the engine, with what becomes of the row. -/
abbrev Within {α : Type} (p : Engine P α) (Q : α → Option CoverageRow → Prop)
    (s : Option CoverageRow) : Prop :=
  wpe sizes p Q s

theorem sizesLoop_ends {r : Locals ⊕ Outcome} (h : (sizesLoop stream).Ends r s) : Onward r s := by
  rintro l rfl
  exact h

/-- **Up to its loop** a call keeps to the bounds. -/
theorem runHistory_within {settings : Settings} (tip : ObservedBlock) (h : Sized s)
    (hsettings : settings.Configured) : Within (runHistory stream tip settings) Onward s :=
  wpe_mono _ (fun _ _ => sizesLoop_ends) ((sizesOutline stream hsettings).runHistory_ends tip h)

/-- **An iteration** keeps to the bounds, and so does what it hands to the next. -/
theorem iterate_within {settings : Settings} (h : Held l s) :
    Within (iterate stream settings l) Onward s :=
  wpe_mono _ (fun _ _ => sizesLoop_ends) ((sizesLoop stream).iterate_ends h)

/-! ### Every run -/

/-- Each call is configured within the bounds; two calls may be configured differently. -/
def Configured : Action P → Prop
  | .call _ _ settings => settings.Configured
  | _ => True

/-- The request that a state's call is about to make: its cursor, and for how many blocks it asks. -/
def State.request? (st : State P) : Option (ObservedBlock × ℕ) :=
  st.next?.bind fun
    | .fetch cursor requested => some (cursor, requested)
    | _ => none

section
variable [Digests] {imp : Import P} {st st' : State P}

/-- The row is within the bounds, and so is what the call in progress is still to do. -/
structure Import.Bounded (imp : Import P) (st : State P) : Prop where
  sized : Sized (imp.row st.record.db)
  call : ∀ c, st.call = some c → Proc.Good sizes Held c.proc (imp.row st.record.db)

omit [Digests] in
theorem Import.Bounded.empty : imp.Bounded State.empty where
  sized _ hrow := by cases hrow
  call _ hc := by cases hc

/-- **A step** keeps to the bounds, and the page size does not grow. -/
theorem step_bounded {a : Action P} (h : imp.Bounded st) (ha : Configured a)
    (hstep : imp.step st a = some st') :
    imp.Bounded st' ∧ Shrinks (imp.row st.record.db) (imp.row st'.record.db) := by
  cases Import.step_cases hstep with
  | world command hkey _ =>
    have hrow : imp.row (st.record.db.exec imp.startOf command) = imp.row st.record.db :=
      (st.record.db.exec_elsewhere imp.startOf command hkey).coverage
    refine ⟨⟨?_, fun c hc => ?_⟩, ?_⟩
    · exact hrow ▸ h.sized
    · exact hrow ▸ h.call c hc
    · exact hrow ▸ Std.Refl.refl _
  | call run tip settings =>
    refine ⟨⟨h.sized, fun c hc => ?_⟩, Std.Refl.refl _⟩
    cases hc
    exact runHistory_within tip h.sized ha
  | @op env run settings e k hcall =>
    have hgood := h.call _ hcall
    have hshrinks : Shrinks (imp.row st.record.db)
        (imp.row (imp.perform run env st.record.db e).2) := perform_shrinks (good_pre hgood)
    refine ⟨⟨hshrinks.sized h.sized, fun c hc => ?_⟩, hshrinks⟩
    cases hc
    exact good_advance hgood (perform_moves e)
  | @round env run settings l hcall =>
    have hl : Held l (imp.row st.record.db) := h.call _ hcall _ rfl l rfl
    refine ⟨⟨h.sized, fun c hc => ?_⟩, Std.Refl.refl _⟩
    cases hc
    exact iterate_within hl
  | leave | crash => exact ⟨⟨h.sized, fun c hc => by cases hc⟩, Std.Refl.refl _⟩

/-- A run keeps to them. -/
theorem run_bounded {as : List (Action P)} (h : imp.Bounded st) (has : ∀ a ∈ as, Configured a)
    (hrun : run imp.step st as = some st') :
    imp.Bounded st' ∧ Shrinks (imp.row st.record.db) (imp.row st'.record.db) := by
  refine run_invariant_along
    (I := fun t => imp.Bounded t ∧ Shrinks (imp.row st.record.db) (imp.row t.record.db))
    (C := fun _ a => Configured a) (fun t a t' ht ha hstep => ?_) ⟨h, Std.Refl.refl _⟩
    (along_of_forall fun a ha _ => has a ha) hrun
  obtain ⟨hbounded, hshrinks⟩ := step_bounded ht.1 ha hstep
  exact ⟨hbounded, IsTrans.trans _ _ _ ht.2 hshrinks⟩

omit [Digests] in
/-- The operation that a bounded state's call is about to perform keeps to the bounds. -/
theorem Import.Bounded.pre (h : imp.Bounded st) {e : Op P} (he : st.next? = some e) :
    sizes.pre e (imp.row st.record.db) := by
  obtain ⟨⟨run, settings, proc⟩, hcall, he⟩ := Option.bind_eq_some_iff.mp he
  have hgood := h.call _ hcall
  cases proc with
  | ret r => cases he
  | op e' k =>
    cases he
    exact good_pre hgood

omit [Digests] in
/-- What a request is answered with, and is accepted, is above the floor. -/
theorem Request.accepted {b : Block} {cursor : ObservedBlock} {requested : ℕ}
    (h : Request row b remaining cursor requested) {blocks : List P}
    (hverify : verifyPageWith stream blocks b requested = .ok ()) {p : P} (hp : p ∈ blocks) :
    ∃ header, stream.header p = .ok header ∧ AboveFloor row.floorHeight header.height := by
  obtain ⟨hlength, hs, hheaders, hpage⟩ := verifyPageWith_eq_ok hverify
  obtain ⟨header, -, hheader⟩ := PairedLists.exists_mem hheaders hp
  have hle : blocks.length ≤ remaining := hlength.trans (h.le.trans (min_le_left _ _))
  exact ⟨header, hheader, hpage.above hheaders h.left hle hp hheader⟩

/-- **Page size and requests are bounded.** Whatever calls of the import run, with whatever
configured sizes, fail, are killed or start again, among whatever else writes the record: the page
size of the row is in bounds and never grows again; a request is made only above the floor, and asks
for one block at least and for no more than the page size and what is left through the floor, so
that neither `requested - 1` nor a conversion to `u32` fails, and what is accepted of its answer is
above the floor; and so is every page that is recorded. -/
theorem page_size_bounds (imp : Import P) (as : List (Action P)) (st : State P)
    (hconfigured : ∀ a ∈ as, Configured a) (h : run imp.step State.empty as = some st) :
    Sized (imp.row st.record.db) ∧
    (∀ as' st', (∀ a ∈ as', Configured a) → run imp.step st as' = some st' →
      ∀ row, imp.row st.record.db = some row → ∃ row', imp.row st'.record.db = some row' ∧
        row'.effectivePageBlocks ≤ row.effectivePageBlocks) ∧
    (∀ cursor requested, st.request? = some (cursor, requested) →
      ∃ row b remaining, imp.row st.record.db = some row ∧
        Request row b remaining cursor requested ∧
        (checkedSub requested 1).isSome ∧ requested ≤ maxU32 ∧
        ∀ blocks, verifyPageWith imp.stream blocks b requested = .ok () → ∀ p ∈ blocks,
          ∃ header, imp.stream.header p = .ok header ∧
            AboveFloor row.floorHeight header.height) ∧
    ∀ events expectedNext next, st.page? = some (events, expectedNext, next) →
      ∃ row, imp.row st.record.db = some row ∧
        ∀ event ∈ events, AnchoredAbove row.floorHeight event := by
  have hst : imp.Bounded st := (run_bounded Import.Bounded.empty hconfigured h).1
  refine ⟨hst.sized, fun as' st' has' hrun row hrow => ?_, fun cursor requested hop => ?_,
    fun events expectedNext next hop => ?_⟩
  · obtain ⟨row', hrow', hle⟩ := (run_bounded hst has' hrun).2.le row hrow
    exact ⟨row', hrow', hle⟩
  · obtain ⟨e, he, hop⟩ := Option.bind_eq_some_iff.mp hop
    cases e <;> try cases hop
    obtain ⟨row, hrow, b, remaining, hrequest⟩ := hst.pre he
    refine ⟨row, b, remaining, hrow, hrequest, ?_, ?_, fun blocks hverify p hp =>
      hrequest.accepted hverify hp⟩
    · rw [checkedSub, if_pos hrequest.pos]
      rfl
    · have hle := (hst.sized row hrow).2
      have hmin := hrequest.le.trans (min_le_right _ _)
      exact (hmin.trans hle).trans (by decide)
  · obtain ⟨e, he, hop⟩ := Option.bind_eq_some_iff.mp hop
    cases e <;> try cases hop
    obtain ⟨row, hrow, hevents⟩ := hst.pre he
    exact ⟨row, hrow, hevents⟩

end

/-- In pages of one block, the first request is for the block at the target, and the page that is
recorded later is above the floor. -/
theorem page_size_bounds_twoBlocks :
    ∃ s t, run (@Import.step _ TwoBlocks.digests TwoBlocks.nodeImport) State.empty
        (TwoBlocks.onePage.take 7) = some s ∧
      run (@Import.step _ TwoBlocks.digests TwoBlocks.nodeImport) s (TwoBlocks.onePage.drop 7) =
        some t ∧
      (∃ row b remaining, TwoBlocks.nodeImport.row s.record.db = some row ∧
        Request row b remaining (.atHeight (bytes32 2) 6) 1 ∧
        ∃ row', TwoBlocks.nodeImport.row t.record.db = some row' ∧
          row'.effectivePageBlocks ≤ row.effectivePageBlocks) ∧
      ∃ events row, t.page?.map (·.1) = some events ∧
        TwoBlocks.nodeImport.row t.record.db = some row ∧
        ∀ event ∈ events, AnchoredAbove row.floorHeight event := by
  let _ := TwoBlocks.digests
  have hrun : ((run (Import.step TwoBlocks.nodeImport) State.empty (TwoBlocks.onePage.take 7)).filter
      fun s => s.request? = some (.atHeight (bytes32 2) 6, 1) ∧
        ((run (Import.step TwoBlocks.nodeImport) s (TwoBlocks.onePage.drop 7)).bind
          State.page?).isSome).isSome := by
    decide +kernel
  have hconfigured : ∀ a ∈ TwoBlocks.onePage, Configured a := by
    intro a ha
    simp only [TwoBlocks.onePage, List.mem_cons, List.mem_replicate] at ha
    rcases ha with rfl | rfl | ⟨-, rfl⟩
    · trivial
    · exact ⟨by decide, by decide⟩
    · trivial
  obtain ⟨s, hs⟩ := Option.isSome_iff_exists.mp hrun
  obtain ⟨hs, hcheck⟩ := Option.filter_eq_some_iff.mp hs
  obtain ⟨hrequest, hpage⟩ := of_decide_eq_true hcheck
  obtain ⟨page, hpage⟩ := Option.isSome_iff_exists.mp hpage
  obtain ⟨t, ht, hpage⟩ := Option.bind_eq_some_iff.mp hpage
  obtain ⟨-, hgrows, hrequests, -⟩ := page_size_bounds TwoBlocks.nodeImport _ s
    (fun a ha => hconfigured a (List.mem_of_mem_take ha)) hs
  obtain ⟨row, b, remaining, hrow, hbounds, -⟩ := hrequests _ _ hrequest
  obtain ⟨row', hrow', hle⟩ :=
    hgrows _ t (fun a ha => hconfigured a (List.mem_of_mem_drop ha)) ht row hrow
  have hall : run (Import.step TwoBlocks.nodeImport) State.empty TwoBlocks.onePage = some t := by
    rw [← List.take_append_drop 7 TwoBlocks.onePage, run_append, hs]
    exact ht
  obtain ⟨-, -, -, hpages⟩ := page_size_bounds TwoBlocks.nodeImport _ t hconfigured hall
  obtain ⟨events, expectedNext, next⟩ := page
  obtain ⟨row'', hrow'', habove⟩ := hpages _ _ _ hpage
  exact ⟨s, t, hs, ht, ⟨row, b, remaining, hrow, hbounds, row', hrow', hle⟩,
    events, row'', by rw [hpage]; rfl, hrow'', habove⟩

end Bip300Monitor.Backfill
