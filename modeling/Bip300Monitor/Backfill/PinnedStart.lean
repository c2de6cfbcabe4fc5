import Bip300Monitor.Backfill.Agreement
import Bip300Monitor.Backfill.PinnedRecord

/-!
# The pinned start

The engine compares the configured hash of the activation block on one page only, the last page of
a cycle without a floor hash; a cycle that ends at a certified block or at a floor is not compared.
The pin holds all the same: a floor at or above the start is rooted in the pinned block, and above a
floor just below the start the cursor is.

## What is proved

* `iterate_pins`, `runHistory_pins` — a call sees to the pin (`PinnedPre`) of everything it performs;
* `certified_start_pinned` — in every state of every run of the node's import the certified blocks
  at the activation height are the pinned one.
-/

namespace Bip300Monitor.Backfill

open Protobuf Transaction Runs Resumption

variable {P : Type} {C : Conditions} {imp : Import P} {root : Bytes} {s t : Db} {row : CoverageRow}

/-! ### What the engine sees to -/

section
variable (imp : Import P) (hdr : Headers) (root : Bytes)

/-- What is used of the answers, and what the engine sees to. -/
def pins : Interface Unit (Op P) Op.Resp where
  rely _ _ := True
  pre e _ := PinnedPre hdr imp.stream.activationHeight root e
  sem e _ r _ := match e, r with
    | .fetch .., .ok payloads => ∀ p ∈ payloads, ∀ h, imp.stream.header p = .ok h → Tells hdr h
    | .certifiedHistoryFloor _, .ok (some floor) =>
      hdr.Roots imp.stream.activationHeight root ⟨floor.hash, hdr.height floor.hash⟩
    | .historyCoverage, .ok (some row) | .beginHistoryCycle .., .ok row =>
      RowPinned hdr imp.stream.activationHeight root row
    | _, _ => True
  rely_refl _ := trivial
  rely_trans _ _ _ _ _ := trivial

/-- A piece of a call sees to the pin, and returns what meets `Q`. -/
abbrev Pins {α : Type} (p : Engine P α) (Q : α → Prop) : Prop :=
  wpe (pins imp hdr root) p (fun a _ => Q a) ()

/-- What is asked of the end of a round. -/
abbrev PinnedNext (r : Locals ⊕ Outcome) : Prop :=
  ∀ l, r = .inl l → RowPinned hdr imp.stream.activationHeight root l.progress

end

section
variable {hdr : Headers} {l : Locals} {cursor : Block} {payloads : List P} {hs : List BlockHeader}

/-! ### A page -/

/-- A verified page of headers told truly, from the cursor of the row. -/
structure PinnedPage (imp : Import P) (hdr : Headers) (root : Bytes) (l : Locals) (cursor : Block)
    (payloads : List P) (hs : List BlockHeader) : Prop where
  row : RowPinned hdr imp.stream.activationHeight root l.progress
  next : l.progress.next = some cursor
  headers : List.Forall₂ (fun p h => imp.stream.header p = .ok h) payloads hs
  page : IsPage cursor hs
  tells : ∀ h ∈ hs, Tells hdr h

theorem PinnedPage.told (h : PinnedPage imp hdr root l cursor payloads hs) :
    hdr.height cursor.hash = cursor.height := by
  obtain ⟨newest, hhead, rfl⟩ := Option.map_eq_some_iff.mp h.page.head
  exact (h.tells newest (List.mem_of_mem_head? hhead)).1

/-- The walk from the cursor meets a rooted block of the page. -/
theorem PinnedPage.roots_of_mem (h : PinnedPage imp hdr root l cursor payloads hs) {i : ℕ}
    {header : BlockHeader} (hget : hs[i]? = some header)
    (hroots : hdr.Roots imp.stream.activationHeight root header.block) :
    hdr.Roots imp.stream.activationHeight root cursor := by
  have hlast : (hs.take (i + 1)).getLast? = some header := by
    rw [List.getLast?_take, if_neg (Nat.succ_ne_zero _), Nat.add_sub_cancel, hget]
    rfl
  exact ((h.page.take i).roots (fun x hx => h.tells x (List.mem_of_mem_take hx)) hlast
    hroots.1).mpr hroots

/-- **A page that reaches its floor is rooted**: its last block is the pinned one, or stands on
a floor that is rooted, or the walk has been rooted since its floor was written. -/
theorem PinnedPage.roots_of_completes (h : PinnedPage imp hdr root l cursor payloads hs)
    {oldest : BlockHeader} {remaining : ℕ} (hlast : hs.getLast? = some oldest)
    (hremaining : blocksThroughFloor cursor.height l.progress.floorHeight = .ok remaining)
    (hlength : payloads.length = remaining)
    (hstart : l.progress.floorHash = none → oldest.hash = root)
    (hjoins : ¬ missesFloor l true oldest) :
    hdr.Roots imp.stream.activationHeight root cursor := by
  have hheight : oldest.height + payloads.length = cursor.height + 1 :=
    h.headers.length_eq ▸ h.page.height_last hlast
  have hfloor := h.row.floor
  have hroots (hle : imp.stream.activationHeight ≤ oldest.height)
      (hr : hdr.Roots imp.stream.activationHeight root oldest.block) :
      hdr.Roots imp.stream.activationHeight root cursor :=
    (h.page.roots h.tells hlast hle).mpr hr
  have hpinned (ha : oldest.height = imp.stream.activationHeight)
      (hnone : l.progress.floorHash = none) : hdr.Roots imp.stream.activationHeight root cursor :=
    hroots ha.ge (by rw [BlockHeader.block, ha, Headers.roots_self]; exact hstart hnone)
  rcases blocksThroughFloor_eq_ok.mp hremaining with ⟨hnone, rfl⟩ | ⟨floor, hsome, hlt, rfl⟩
  · rw [hnone] at hfloor
    obtain ⟨hzero, hhash⟩ : imp.stream.activationHeight = 0 ∧ l.progress.floorHash = none := hfloor
    exact hpinned (by omega) hhash
  · rw [hsome] at hfloor
    rcases hfloor with hbelow | ⟨hash, hhash, hfloor⟩
    · by_cases hhash : l.progress.floorHash = none
      · exact hpinned (by omega) hhash
      · exact h.row.cursor hhash ⟨floor, hsome, hbelow⟩ cursor h.next h.told
    · have hprevious : oldest.previousHash = hash := by
        by_contra hne
        exact hjoins ⟨rfl, hash, hhash, hne⟩
      have hparent := (h.tells oldest (List.mem_of_getLast? hlast)).2
      refine hroots (by have := hfloor.1; simp only at this; omega) ?_
      rw [BlockHeader.block, show oldest.height = floor + 1 by omega, Headers.roots_succ hfloor.1,
        hparent, hprevious]
      exact hfloor

/-- The row after a page that does not complete the cycle. -/
theorem PinnedPage.goesOn (h : PinnedPage imp hdr root l cursor payloads hs) {b : Block}
    {oldest : BlockHeader} {remaining : ℕ} (hlast : hs.getLast? = some oldest)
    (hremaining : blocksThroughFloor cursor.height l.progress.floorHeight = .ok remaining)
    (hlength : payloads.length < remaining) (hb : nextCursor false oldest = .ok (some b)) :
    RowPinned hdr imp.stream.activationHeight root { l.progress with next := some b } where
  floor := h.row.floor
  cursor := by
    intro hhash hfloor n hn _
    obtain rfl : b = n := Option.some.inj hn
    have hcursor := h.row.cursor hhash hfloor cursor h.next h.told
    have hheight : oldest.height + payloads.length = cursor.height + 1 :=
      h.headers.length_eq ▸ h.page.height_last hlast
    simp only [nextCursor, Bool.false_eq_true, if_false, Result.bind_eq_ok, expect_eq_ok,
      checkedSub_eq_some, Result.pure_eq_ok, Option.some.injEq] at hb
    obtain ⟨height, ⟨hone, rfl⟩, rfl⟩ := hb
    obtain ⟨floor, hsome, hbelow⟩ := hfloor
    have hle : imp.stream.activationHeight ≤ oldest.height - 1 := by
      rcases blocksThroughFloor_eq_ok.mp hremaining with ⟨hnone, -⟩ | ⟨floor', hsome', -, rfl⟩
      · rw [show l.progress.floorHeight = some floor from hsome] at hnone
        cases hnone
      · rw [show l.progress.floorHeight = some floor from hsome] at hsome'
        cases hsome'
        omega
    have holdest := (h.page.roots h.tells hlast (by omega)).mp hcursor
    rwa [BlockHeader.block, show oldest.height = oldest.height - 1 + 1 by omega,
      Headers.roots_succ hle, (h.tells oldest (List.mem_of_getLast? hlast)).2] at holdest

/-- The configured start hash is the one of the last block of a cycle without a floor hash. -/
theorem validateExpectedStartHash_eq_ok {stream : HistoryStream P} {floorHash : Option Bytes}
    {hash : Bytes} (hroot : stream.expectedStartHash = some root)
    (h : validateExpectedStartHash stream floorHash true hash = .ok ()) (hnone : floorHash = none) :
    hash = root := by
  subst hnone
  simpa [validateExpectedStartHash, hroot] using h

/-! ### The outline -/

/-- What is known of the pin at each point of a call. -/
def PinnedAt (imp : Import P) (hdr : Headers) (root : Bytes) : Point P → Unit → Prop
  | .start, _ | .retired, _ | .free, _ | .begins _, _ | .reached _, _ => True
  | .read existing, _ => ∀ row ∈ existing, RowPinned hdr imp.stream.activationHeight root row
  | .begun row, _ => RowPinned hdr imp.stream.activationHeight root row
  | .loop l, _ => RowPinned hdr imp.stream.activationHeight root l.progress
  | .page l cursor payloads hs, _ => PinnedPage imp hdr root l cursor payloads hs
  | .marked l cursor payloads hs certified, _ => PinnedPage imp hdr root l cursor payloads hs ∧
    ∀ floor ∈ certified, hdr.Roots imp.stream.activationHeight root ⟨floor.hash, hdr.height floor.hash⟩
  | .commit l cursor _ next, _ => hdr.height cursor.hash = cursor.height ∧
    (next = none → hdr.Roots imp.stream.activationHeight root cursor) ∧
    ∀ b, next = some b →
      RowPinned hdr imp.stream.activationHeight root { l.progress with next := some b }

/-- A page that is cut at a certified block is rooted, for the block is. -/
theorem cut_pinned {certified : ObservedBlock} {index : ℕ} {header : BlockHeader}
    (hget : hs[index]? = some header) (hhash : header.hash = certified.hash) :
    Leads (pins imp hdr root) (PinnedAt imp hdr root (.marked l cursor payloads hs (some certified)))
      (.setHistoryFloor cursor.observed ((checkedSub header.height 1).map fun _ => header.previousHash)
        (checkedSub header.height 1))
      fun _ _ => hdr.height cursor.hash = cursor.height ∧
        hdr.Roots imp.stream.activationHeight root cursor := by
  rintro _ ⟨h, hcertified⟩
  have hroots := hcertified certified rfl
  rw [← hhash, (h.tells _ (List.mem_of_getElem? hget)).1] at hroots
  have hcursor := h.roots_of_mem hget hroots
  exact ⟨⟨cursor, rfl, h.told, hcursor⟩, fun _ _ _ => ⟨h.told, hcursor⟩⟩

/-- **The loop sees to the pin**, at every point. -/
def pinsLoop (hroot : imp.stream.expectedStartHash = some root) (hdr : Headers) :
    LoopOutline (pins imp hdr root) imp.stream where
  At := PinnedAt imp hdr root
  stable _ _ _ h _ := h
  asks e he _ := ⟨by cases e <;> trivial, fun _ _ _ => rfl⟩
  settle _ _ := trivial
  current _ _ _ := ⟨trivial, fun _ _ _ => ⟨rfl, fun _ => trivial⟩⟩
  supersede _ _ _ _ _ := trivial
  begin _ _ _ _ := by
    refine ⟨trivial, ?_⟩
    rintro r _ hr row rfl
    exact hr
  enter _ _ h := h
  anew _ _ _ := trivial
  fetch l cursor _ hnext _ _ h := by
    refine ⟨trivial, fun r _ hr => ⟨h, ?_⟩⟩
    rintro payloads hs rfl _ hpage _
    refine ⟨h, hnext, hpage.headers, hpage.page, fun x hx => ?_⟩
    obtain ⟨p, hp, hpx⟩ := PairedLists.exists_mem (List.Forall₂.flip hpage.headers) hx
    exact hr p hp x hpx
  probe _ _ _ _ _ _ h := ⟨trivial, fun _ _ _ => h⟩
  shrink _ _ _ h := ⟨trivial, fun _ _ _ _ => ⟨h.floor, h.cursor⟩⟩
  floor _ _ _ _ _ h := by
    refine ⟨trivial, ?_⟩
    rintro r _ hr certified rfl
    refine ⟨h, ?_⟩
    rintro floor ⟨⟩
    exact hr
  cut _ _ _ _ _ _ _ _ _ _ _ hget hhash := (cut_pinned hget hhash).mono _ (fun _ h => h)
    fun _ _ h _ => ⟨h.1, fun _ => h.2, fun _ hb => by cases hb⟩
  keep l cursor payloads hs remaining _ oldest next _ _ hremaining hlength _ _ hlast hstart hjoins hnext h := by
    obtain ⟨hpage, -⟩ := h
    refine ⟨hpage.told, fun hnone => ?_, fun b hb => ?_⟩
    · subst hnone
      have hcomplete := nextCursor_none hnext
      rw [hcomplete] at hjoins hstart
      exact hpage.roots_of_completes hlast hremaining (of_decide_eq_true hcomplete)
        (validateExpectedStartHash_eq_ok hroot hstart) hjoins
    · subst hb
      have hincomplete := nextCursor_some hnext
      rw [hincomplete] at hnext
      exact hpage.goesOn hlast hremaining
        (lt_of_le_of_ne hlength (of_decide_eq_false hincomplete)) hnext
  repair _ _ _ _ _ _ := trivial
  recut _ _ _ _ _ := trivial
  record l cursor payloads next events _ _ h := by
    obtain ⟨htold, hlast, hgoes⟩ := h
    refine ⟨?_, fun _ _ _ _ _ => ⟨fun _ => trivial, fun hne => ?_⟩⟩
    · cases next with
      | none => exact ⟨cursor, rfl, htold, hlast rfl⟩
      | some b => trivial
    · obtain ⟨b, rfl⟩ := Option.ne_none_iff_exists'.mp hne
      exact ⟨(hgoes b rfl).floor, (hgoes b rfl).cursor⟩

/-- And so does a call. -/
def pinsOutline (hroot : imp.stream.expectedStartHash = some root) (hdr : Headers) (settings : Settings) :
    Outline (pins imp hdr root) imp.stream settings where
  __ := pinsLoop hroot hdr
  check _ _ := ⟨trivial, fun _ _ _ _ _ _ => trivial⟩
  read _ _ := by
    refine ⟨trivial, ?_⟩
    rintro r _ hr existing rfl row ⟨⟩
    exact hr
  first _ _ := trivial
  running row _ _ h := h row rfl
  resume row _ h := ⟨trivial, fun _ _ _ _ => ⟨(h row rfl).floor, (h row rfl).cursor⟩⟩
  upToDate _ _ _ _ _ _ _ _ := trivial
  extend _ _ _ _ _ _ _ _ _ := by
    refine ⟨trivial, ?_⟩
    rintro r _ hr row rfl
    exact hr
  again _ _ _ := trivial

theorem pinsLoop_ends (hroot : imp.stream.expectedStartHash = some root) {r : Locals ⊕ Outcome}
    (h : (pinsLoop hroot hdr).Ends r ()) : PinnedNext imp hdr root r := by
  rintro l rfl
  exact h

theorem runHistory_pins (hroot : imp.stream.expectedStartHash = some root) (tip : ObservedBlock)
    (settings : Settings) :
    Pins imp hdr root (runHistory imp.stream tip settings) (PinnedNext imp hdr root) :=
  wpe_mono _ (fun _ _ => pinsLoop_ends hroot) ((pinsOutline hroot hdr settings).runHistory_ends tip trivial)

/-- **An iteration sees to the pin.** -/
theorem iterate_pins {settings : Settings} (hroot : imp.stream.expectedStartHash = some root)
    (h : RowPinned hdr imp.stream.activationHeight root l.progress) :
    Pins imp hdr root (iterate imp.stream settings l) (PinnedNext imp hdr root) :=
  wpe_mono _ (fun _ _ => pinsLoop_ends hroot) ((pinsLoop hroot hdr).iterate_ends h)

end

/-! ### Every run -/

section
variable [Digests] {run : Uuid}

/-- What the operations answer is what is used of them. -/
theorem perform_pins {env : Environment P} {e : Op P} (hh : C.honest) (hd : imp.Durable C s)
    (h : imp.Pinned C.hdr root s) (hguard : imp.Guard C env s e)
    (hd' : imp.Durable C (imp.perform run env s e).2)
    (h' : imp.Pinned C.hdr root (imp.perform run env s e).2) :
    (pins imp C.hdr root).sem e () (imp.perform run env s e).1 () := by
  cases e with
  | fetch cursor requested =>
    cases hf : env.fetched with
    | error e =>
      change (pins imp C.hdr root).sem (.fetch cursor requested) () env.fetched ()
      rw [hf]
      trivial
    | ok payloads =>
      change (pins imp C.hdr root).sem (.fetch cursor requested) () env.fetched ()
      rw [hf]
      exact hguard hh payloads hf
  | certifiedHistoryFloor hashes =>
    cases hr : (imp.perform run env s (.certifiedHistoryFloor hashes)).1 with
    | error e => trivial
    | ok floor =>
      cases floor with
      | none => trivial
      | some floor =>
        obtain ⟨-, hfloor⟩ := perform_certifiedHistoryFloor (Prod.ext hr rfl)
        obtain ⟨c, hc, hscope, -, rfl⟩ := hfloor floor rfl
        obtain ⟨hcert, -⟩ := hd.certified.parent (hd.honest hh) ⟨c, hc, hscope, rfl⟩
        exact h.roots hd hh hcert
  | historyCoverage =>
    cases hr : (imp.perform run env s .historyCoverage).1 with
    | error e => trivial
    | ok row =>
      cases row with
      | none => trivial
      | some row =>
        obtain ⟨-, hrow⟩ := perform_historyCoverage (Prod.ext hr rfl)
        exact h.rowPinned hd hh hrow.symm
  | beginHistoryCycle start coveredTip targetTip floorHash floorHeight pageBlocks =>
    cases hr : (imp.perform run env s (.beginHistoryCycle start coveredTip targetTip floorHash
        floorHeight pageBlocks)).1 with
    | error e => trivial
    | ok row => exact h'.rowPinned hd' hh (perform_beginHistoryCycle (Prod.ext hr rfl)).1
  | _ => trivial

/-- What holds in every state of a run, besides `Import.Inv`. -/
structure Import.PinInv (imp : Import P) (hdr : Headers) (root : Bytes) (s : State P) : Prop where
  pinned : imp.Pinned hdr root s.record.db
  call : ∀ c, s.call = some c → Proc.Good (pins imp hdr root)
    (fun l _ => RowPinned hdr imp.stream.activationHeight root l.progress) c.proc ()

omit [Digests] in
theorem Import.pinInv_empty {hdr : Headers} : imp.PinInv hdr root State.empty where
  pinned := ⟨fun c hc => (by cases hc), fun row hrow => by cases hrow⟩
  call c hc := by cases hc

/-- **One step keeps the pin.** -/
theorem Import.step_pinInv {s t : State P} {a : Action P}
    (hroot : imp.stream.expectedStartHash = some root) (hh : C.honest) (hinv : imp.Inv C s)
    (h : imp.PinInv C.hdr root s) (hC : imp.Holds C s a) (hstep : imp.step s a = some t) :
    imp.PinInv C.hdr root t := by
  cases Import.step_cases hstep with
  | world command hkey _ => exact ⟨world_pinned h.pinned hkey, h.call⟩
  | call run tip settings =>
    refine ⟨h.pinned, fun c hc => ?_⟩
    cases hc
    exact runHistory_pins hroot tip settings
  | @op env run settings e k hcall =>
    have hpins := h.call _ hcall
    have hguard : imp.Guard C env s.record.db e := hC e (by simp [State.next?, hcall, Prog.next?])
    have hpre : imp.Pre C s.record.db e := good_pre (hinv.call _ hcall)
    have hpinned : imp.Pinned C.hdr root (imp.perform run env s.record.db e).2 :=
      perform_pinned h.pinned hinv.durable hh hpre (good_pre hpins)
    have hsafe : imp.Safe C s.record.db (imp.perform run env s.record.db e).2 :=
      Import.perform_safe hinv.durable hguard hpre
    refine ⟨hpinned, fun c hc => ?_⟩
    cases hc
    exact good_advance hpins (perform_pins hh hinv.durable h.pinned hguard hsafe.durable hpinned)
  | @round env run settings l hcall =>
    have hl : RowPinned C.hdr imp.stream.activationHeight root l.progress := h.call _ hcall _ rfl l rfl
    refine ⟨h.pinned, fun c hc => ?_⟩
    cases hc
    exact iterate_pins hroot hl
  | leave | crash => exact ⟨h.pinned, fun c hc => by cases hc⟩

/-- Every run of an import with a pinned start keeps the pin. -/
theorem Import.reachable_pinned {hdr : Headers} (hroot : imp.stream.expectedStartHash = some root)
    {as : List (Action P)} {s : State P}
    (hdetermined : Along imp.step (imp.Determined hdr) State.empty as)
    (hrun : Runs.run imp.step State.empty as = some s) : imp.Pinned hdr root s.record.db := by
  have hboth : imp.Inv (determined hdr) s ∧ imp.PinInv hdr root s :=
    run_invariant_along
      (I := fun s => imp.Inv (determined hdr) s ∧ imp.PinInv hdr root s)
      (C := imp.Holds (determined hdr))
      (fun _ _ _ hs hC hstep => ⟨(Import.step_inv hs.1 hC hstep).inv,
        Import.step_pinInv hroot trivial hs.1 hs.2 hC hstep⟩)
      ⟨Import.inv_empty, Import.pinInv_empty⟩ (hdetermined.mono fun _ _ h => h.holds) hrun
  exact hboth.2.pinned

/-- **The pinned start of the node's history.** With a configured activation hash, every run of the
node's import leaves every certified block at the activation height with that hash: whatever the
upstream answers as long as hashes determine headers, with the reorganisations that replace a target
or repair a branch, cycles that end at certified blocks or at floors, crashes between any two
operations, and restarts. -/
theorem certified_start_pinned (imp : Import MainchainBlock) (hdr : Headers) (activation : ℕ)
    (activationHash : Bytes) (hstream : imp.stream = NodeHistory activation (some activationHash))
    {as : List (Action MainchainBlock)} {s : State MainchainBlock}
    (hdetermined : Along imp.step (imp.Determined hdr) State.empty as)
    (hrun : Runs.run imp.step State.empty as = some s) {c : CertifiedRow}
    (hc : c ∈ s.record.db.certified) (hscope : c.scope = imp.key) (hheight : c.height = activation) :
    c.blockHash = activationHash := by
  have hroot : imp.stream.expectedStartHash = some activationHash := by rw [hstream]; rfl
  refine (Import.reachable_pinned hroot hdetermined hrun).certified c hc hscope ?_
  rw [hheight, hstream]
  rfl

end

/-! ### A pinned block -/

namespace TwoBlocks

open Bip300Monitor.TwoBlocks

theorem pinnedHeight : 5 = (NodeHistory 5 (some (bytes32 1))).activationHeight := rfl

/-- The import of a node's blocks from height 5, where block 1 is pinned. -/
def pinnedImport : Import MainchainBlock where
  stream := NodeHistory 5 (some (bytes32 1))
  source := .node
  datasetId := 0
  eventContractVersion := 9
  startOf := fun _ => 5
  start_eq := pinnedHeight

/-- A call that commits its one page. -/
def pinnedActions : List (Action MainchainBlock) := actions ++ [.advance node]

theorem pinned_determined : ∀ a ∈ pinnedActions, ∀ s, pinnedImport.Determined headers s a := by
  intro a ha s
  simp only [pinnedActions, actions, List.cons_append, List.mem_cons, List.mem_append,
    List.mem_replicate, List.not_mem_nil, or_false] at ha
  rcases ha with rfl | rfl | ⟨-, rfl⟩ | rfl
  · intro event hevent
    cases hevent
  · trivial
  all_goals
    intro cursor requested _ payloads hpayloads p hp h hh
    cases hpayloads
    simp only [List.mem_cons, List.not_mem_nil, or_false] at hp
    rcases hp with rfl | rfl
    · cases hh
      exact ⟨rfl, rfl⟩
    · cases hh
      exact ⟨by decide, by decide⟩

end TwoBlocks

/-- The block at height 5 is certified, and is the pinned one. -/
theorem certified_start_pinned_twoBlocks :
    ∃ s, Runs.run (@Import.step _ TwoBlocks.digests TwoBlocks.pinnedImport) State.empty
        TwoBlocks.pinnedActions = some s ∧
      ∃ c ∈ s.record.db.certified, c.scope = TwoBlocks.pinnedImport.key ∧ c.height = 5 ∧
        c.blockHash = bytes32 1 := by
  let _ := TwoBlocks.digests
  have hcheck : ((Runs.run TwoBlocks.pinnedImport.step State.empty TwoBlocks.pinnedActions).filter
      fun s => ∃ c ∈ s.record.db.certified, c.scope = TwoBlocks.pinnedImport.key ∧
        c.height = 5).isSome := by decide +kernel
  obtain ⟨s, hs⟩ := Option.isSome_iff_exists.mp hcheck
  obtain ⟨hrun, hfound⟩ := Option.filter_eq_some_iff.mp hs
  obtain ⟨c, hc, hscope, hheight⟩ := of_decide_eq_true hfound
  exact ⟨s, hrun, c, hc, hscope, hheight, certified_start_pinned TwoBlocks.pinnedImport
    TwoBlocks.headers 5 (bytes32 1) rfl (along_of_forall TwoBlocks.pinned_determined) hrun hc hscope
    hheight⟩

end Bip300Monitor.Backfill
