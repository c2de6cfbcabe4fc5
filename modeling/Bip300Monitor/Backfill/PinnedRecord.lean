import Bip300Monitor.Backfill.Rooted
import Bip300Monitor.Store.Effects

/-!
# Pinned records

A stream can be configured with the hash of its block at the activation height. What an import
leaves in the record is pinned by it: the certified blocks at the activation height have that hash,
and the cursor of the row is rooted whenever the row knows a floor just below the start by its hash.
The engine only writes such a floor where the walk from the cursor has met a certified block
(`PinnedPre`).

## What is proved

* `perform_pinned` — every operation that the engine may perform, under `PinnedPre`, keeps the pin;
* `world_pinned` — so does the rest of the monitor.
-/

namespace Bip300Monitor.Backfill

open Protobuf Transaction Runs Resumption

variable {P : Type}

/-! ### Pinned rows -/

/-- A floor just below `a` is known by its hash only if the cursor is rooted. -/
def CursorPinned (hdr : Headers) (a : ℕ) (root : Bytes) (row : CoverageRow) : Prop :=
  row.floorHash ≠ none → (∃ height, row.floorHeight = some height ∧ height + 1 = a) →
    ∀ n, row.next = some n → hdr.height n.hash = n.height → hdr.Roots a root n

/-- What the floor and the cursor of a row have to do with `root`. -/
structure RowPinned (hdr : Headers) (a : ℕ) (root : Bytes) (row : CoverageRow) : Prop where
  floor : match row.floorHeight with
    | none => a = 0 ∧ row.floorHash = none
    | some height => height + 1 = a ∨
        ∃ hash, row.floorHash = some hash ∧ hdr.Roots a root ⟨hash, height⟩
  cursor : CursorPinned hdr a root row

/-- What holds of the record: the certified blocks at the start are `root`, and the row's cursor
is pinned. -/
structure Import.Pinned (imp : Import P) (hdr : Headers) (root : Bytes) (db : Db) : Prop where
  certified : db.RootedAt imp.key imp.stream.activationHeight root
  cursor : ∀ row, imp.row db = some row → CursorPinned hdr imp.stream.activationHeight root row

variable {C : Conditions} {imp : Import P} {root : Bytes} {s t : Db} {row row' : CoverageRow}

theorem CursorPinned.of_eq {hdr : Headers} {a : ℕ} (h : CursorPinned hdr a root row)
    (hnext : row'.next = row.next) (hhash : row'.floorHash = row.floorHash)
    (hheight : row'.floorHeight = row.floorHeight) : CursorPinned hdr a root row' := by
  unfold CursorPinned
  rw [hnext, hhash, hheight]
  exact h

/-- Certified blocks are rooted. -/
theorem Import.Pinned.roots {b : Block} (h : imp.Pinned C.hdr root s) (hd : imp.Durable C s)
    (hh : C.honest) (hb : s.certifies imp.key b) :
    C.hdr.Roots imp.stream.activationHeight root b := by
  have := hd.certified.roots (hd.honest hh) (imp.startOf_key.symm ▸ h.certified) hb
  rwa [imp.startOf_key] at this

/-- The row of the record is pinned. -/
theorem Import.Pinned.rowPinned (h : imp.Pinned C.hdr root s) (hd : imp.Durable C s)
    (hh : C.honest) (hrow : imp.row s = some row) :
    RowPinned C.hdr imp.stream.activationHeight root row where
  cursor := h.cursor row hrow
  floor := by
    have hfloor := (hd.row row hrow).floor hh
    unfold Db.FloorOk at hfloor
    cases hheight : row.floorHeight with
    | none =>
      rw [hheight] at hfloor
      obtain ⟨-, -, -, -, -, hboth, -⟩ := (hd.row row hrow).valid
      exact ⟨hfloor, hboth.resolve_right fun hne => hne hheight⟩
    | some height =>
      rw [hheight] at hfloor
      rcases hfloor with hstart | ⟨hash, hhash, hcert⟩
      · exact .inl hstart
      · exact .inr ⟨hash, hhash, h.roots hd hh hcert⟩

/-- Writing the row. -/
theorem Import.Pinned.setRow {hdr : Headers} (h : imp.Pinned hdr root s)
    (hrow : CursorPinned hdr imp.stream.activationHeight root row) :
    imp.Pinned hdr root (s.setCoverage imp.key row) where
  certified := h.certified
  cursor row' hrow' := by
    rw [Import.row, Db.setCoverage_coverage_self] at hrow'
    cases hrow'
    exact hrow

/-- Rewriting what has nothing to do with the floor and the cursor. -/
theorem Import.Pinned.update {hdr : Headers} (h : imp.Pinned hdr root s) (hrow : imp.row s = some row)
    (hnext : row'.next = row.next) (hhash : row'.floorHash = row.floorHash)
    (hheight : row'.floorHeight = row.floorHeight) :
    imp.Pinned hdr root (s.setCoverage imp.key row') :=
  h.setRow ((h.cursor row hrow).of_eq hnext hhash hheight)

/-! ### What the operations keep -/

/-- The cursor of a page is told at its height, and rooted. -/
def Rooted (hdr : Headers) (a : ℕ) (root : Bytes) (cursor : ObservedBlock) : Prop :=
  ∃ b : Block, cursor = b.observed ∧ hdr.height b.hash = b.height ∧ hdr.Roots a root b

/-- What the engine has seen to, besides `Import.Pre`, when it performs an operation: the walk
from the cursor meets `root`. -/
def PinnedPre (hdr : Headers) (a : ℕ) (root : Bytes) : Op P → Prop
  | .setHistoryFloor cursor _ _ => Rooted hdr a root cursor
  | .recordHistoryPage _ cursor none => Rooted hdr a root cursor
  | _ => True

section
variable {run : Uuid}

theorem pinned_supersedeHistory {hdr : Headers} {slot : ℕ} {id reason : String}
    (h : imp.Pinned hdr root s) (hslot : imp.stream.scope.sidechain = some slot)
    (hid : imp.stream.scope.sidechainInstanceId = some id)
    (hok : supersedeHistory (imp.store run) imp.stream.scope.stream slot id reason s = .ok ((), t)) :
    imp.Pinned hdr root t := by
  have hkey : (imp.store run).key ⟨imp.stream.scope.stream, some slot, some id⟩ = imp.key := by
    rw [← hslot, ← hid]
    rfl
  rcases supersedeHistory_inv hok with ⟨rfl, -⟩ | ⟨row, hrow, -, -, rfl⟩
  · exact h
  · rw [hkey] at hrow ⊢
    exact h.update hrow rfl rfl rfl

theorem pinned_settleHistoryFailure {hdr : Headers} {error : String} {status : HistoryStatus}
    (h : imp.Pinned hdr root s)
    (hok : settleHistoryFailure (imp.store run) imp.stream.scope error s = .ok (status, t)) :
    imp.Pinned hdr root t := by
  obtain ⟨row, hrow, ⟨-, -, rfl⟩ | ⟨-, -, -, rfl⟩ | ⟨-, -, -, rfl⟩⟩ := settleHistoryFailure_inv hok
  · exact h
  · exact h.update hrow rfl rfl rfl
  · exact h.update hrow rfl rfl rfl

/-- A new cycle knows the hash of its floor only when the floor is certified, and then the floor
is not below the start. -/
theorem pinned_beginHistoryCycle {hdr : Headers} {start : ℕ} {coveredTip : Option ObservedBlock}
    {targetTip : ObservedBlock} {floorHash : Option Bytes} {floorHeight : Option ℕ} {page : ℕ}
    (h : imp.Pinned hdr root s) (hd : imp.Durable C s)
    (hbegin : imp.BeginOk s coveredTip targetTip floorHash floorHeight)
    (hok : beginHistoryCycle (imp.store run) imp.stream.scope start coveredTip targetTip floorHash
      floorHeight page s = .ok (row, t)) : imp.Pinned hdr root t := by
  obtain ⟨_, _, -, -, -, -, -, rfl, rfl⟩ := beginHistoryCycle_inv hok
  refine h.setRow fun hhash hfloor => ?_
  rcases hbegin with ⟨-, rfl, -⟩ | ⟨b, -, rfl, rfl, hcert, -⟩
  · exact absurd rfl hhash
  · obtain ⟨height, ⟨⟩, hbelow⟩ := hfloor
    have hle := hd.certified.start_le_of_certifies hcert
    rw [imp.startOf_key] at hle
    omega

/-- The floor below a certified block of the walk. -/
theorem pinned_setHistoryFloor {hdr : Headers} {cursor : ObservedBlock} {floorHash : Option Bytes}
    {floorHeight : Option ℕ} (h : imp.Pinned hdr root s)
    (hcursor : Rooted hdr imp.stream.activationHeight root cursor)
    (hok : setHistoryFloor (imp.store run) imp.stream.scope cursor floorHash floorHeight s =
      .ok ((), t)) : imp.Pinned hdr root t := by
  obtain ⟨row, hrow, hnext, -, -, rfl⟩ := setHistoryFloor_inv hok
  refine h.setRow fun _ _ n hn htold => ?_
  obtain ⟨b, rfl, hheight, hroots⟩ := hcursor
  -- the row's cursor has the hash of this one, and therefore its height
  obtain rfl : n = b := by
    have hhash : n.hash = b.hash := by
      rw [show row.next = some n from hn] at hnext
      exact Option.some.inj hnext
    cases n
    cases b
    cases hhash
    cases htold.symm.trans hheight
    rfl
  exact hroots

section
variable [Digests] {events : List Event} {expectedNext : ObservedBlock}
  {next : Option ObservedBlock} {inserted : ℕ} {conflict : Bool} {u : Db}

omit [Digests] in
/-- The cursor after a page is rooted if the one before it is. -/
theorem Import.HonestPage.roots_next {cursor b : Block} {hs : List BlockHeader}
    {oldest : BlockHeader} {hdr : Headers} {a : ℕ}
    (hp : imp.HonestPage hdr s events next cursor hs oldest) (hb : next = some b.observed)
    (ha : a ≤ b.height) (hroots : hdr.Roots a root cursor) : hdr.Roots a root b := by
  obtain ⟨hheight, hprevious⟩ := hp.goesOn b hb
  have holdest := (hp.page.roots hp.tells hp.last (by omega)).mp hroots
  rw [BlockHeader.block, hheight, Headers.roots_succ ha,
    (hp.tells oldest (List.mem_of_getLast? hp.last)).2, hprevious] at holdest
  exact holdest

omit [Digests] in
theorem Import.HonestPage.told {cursor : Block} {hs : List BlockHeader} {oldest : BlockHeader}
    {hdr : Headers} (hp : imp.HonestPage hdr s events next cursor hs oldest) :
    hdr.height cursor.hash = cursor.height := by
  obtain ⟨newest, hhead, rfl⟩ := Option.map_eq_some_iff.mp hp.page.head
  exact (hp.tells newest (List.mem_of_mem_head? hhead)).1

/-- **A page keeps the pin.** -/
theorem pinned_recordHistoryPage (h : imp.Pinned C.hdr root s) (hd : imp.Durable C s)
    (hh : C.honest) (hpre : imp.PageOk C s events expectedNext next)
    (hpin : next = none → Rooted C.hdr imp.stream.activationHeight root expectedNext)
    (hok : recordHistoryPageTx (imp.store run) events ⟨imp.stream.scope, expectedNext, next⟩ s =
      .ok ((inserted, conflict), t)) : imp.Pinned C.hdr root t := by
  obtain ⟨row, cursor, hrow, hcursor, hrun, rfl, hnextOk, hpage⟩ := hpre
  obtain ⟨-, hs, oldest, hp⟩ := hpage hh
  obtain ⟨-, expectedHeight, next', row', u, hexpected, hnext, hi, hconflict, hrow', hcursor', -,
    hw⟩ := recordHistoryPageTx_inv hok
  obtain rfl : row = row' := Option.some.inj (hrow.symm.trans hrow')
  obtain rfl : cursor.height = expectedHeight := Option.some.inj hexpected
  have hgrows : Grows s u := grows_insertPage _ _ _ hi
  have hu : imp.Pinned C.hdr root u := by
    refine ⟨?_, fun row hr => h.cursor row ?_⟩
    · rw [Db.RootedAt, hgrows.certified]
      exact h.certified
    · rwa [Import.row, hgrows.coverage] at hr
  have hurow : imp.row u = some row := by
    rw [Import.row, hgrows.coverage]
    exact hrow
  by_cases hstay : conflict = true
  · subst hstay
    obtain ⟨-, rfl⟩ := (writeCoverage_eq_ok (by simp [CoverageRow.afterPage])).mp hw
    exact hu.update hurow hcursor.symm rfl rfl
  obtain rfl : conflict = false := by simpa using hstay
  rcases optionalBlockParts_eq_ok hnext with ⟨hnone, rfl⟩ | ⟨hash, height, hn, -, rfl⟩
  · -- the last page: what it certifies is rooted with its target
    obtain ⟨-, w, hcertify, rfl⟩ := writeCoverage_inv hw
    obtain ⟨hhonest, -, -⟩ := hp.recordedFacts (hd.honest hh) hi
    obtain ⟨b, hb, -, hroots⟩ := hpin hnone
    obtain rfl : cursor = b := observed_injective hb
    have hdescends := ((hd.row row hrow).descends hh cursor hcursor).mono hgrows.events
    have hno : ¬ u.retainsConflict imp.key := fun hk =>
      of_decide_eq_false hconflict.symm (.inr ⟨by rw [hnone]; rfl, hk⟩)
    have hsound : u.Sound := (hgrows.keeps.inv hd.certified).sound
    have hstatus : (row.afterPage cursor none false inserted).status = .complete := rfl
    have hw : w.RootedAt imp.key imp.stream.activationHeight root :=
      certifyHistory_rooted (hsound.unambiguous hno) hhonest hu.certified hstatus
        ((hdescends.roots hhonest hroots.1).mpr hroots) hcertify
    refine ⟨hw, fun row'' hrow'' => ?_⟩
    rw [imp.store_key, Import.row, Db.setCoverage_coverage_self] at hrow''
    cases hrow''
    intro _ _ n hn
    cases hn
  · obtain ⟨-, rfl⟩ := (writeCoverage_eq_ok (by simp [CoverageRow.afterPage])).mp hw
    obtain ⟨b, hb, -, hbelow⟩ := hnextOk _ hn
    refine hu.setRow fun hhash hfloor n hn' _ => ?_
    obtain rfl : (⟨hash, height⟩ : Block) = n := Option.some.inj hn'
    obtain rfl : b = ⟨hash, height⟩ := observed_injective hb.symm
    have hroots := h.cursor row hrow hhash hfloor cursor hcursor hp.told
    obtain ⟨floor, hfloor, hstart⟩ := hfloor
    exact hp.roots_next hn (hstart ▸ Nat.succ_le_of_lt (hbelow floor hfloor)) hroots

omit [Digests] in
theorem pinned_deliver {α : Type} {hdr : Headers} {env : Environment P} {out : Result α × Db}
    (h : imp.Pinned hdr root s) (hout : imp.Pinned hdr root out.2) :
    imp.Pinned hdr root (env.deliver s out).2 := by
  unfold Environment.deliver
  split
  · exact hout
  · split_ifs
    · exact hout
    · exact h

omit [Digests] in
theorem pinned_commit {α : Type} {hdr : Headers} {x : Write α} (h : imp.Pinned hdr root s)
    (hx : ∀ a t, x s = .ok (a, t) → imp.Pinned hdr root t) :
    imp.Pinned hdr root (Tx.commit x s).2 := by
  rcases Tx.commit_snd_cases x s with ⟨a, t, hok, hc⟩ | ⟨e, -, hc⟩
  · rw [hc]
    exact hx a t hok
  · rw [hc]
    exact h

/-- **Every operation the engine performs keeps the pin.** -/
theorem perform_pinned {env : Environment P} {e : Op P} (h : imp.Pinned C.hdr root s)
    (hd : imp.Durable C s) (hh : C.honest) (hpre : imp.Pre C s e)
    (hpin : PinnedPre C.hdr imp.stream.activationHeight root e) :
    imp.Pinned C.hdr root (imp.perform run env s e).2 := by
  cases e with
  | shutdownRequested | pagePause | fetch | currentTip | now => exact h
  | currentSidechainInstanceId => exact pinned_deliver h h
  | supersedeHistory =>
    exact pinned_deliver h (pinned_commit h fun _ _ hok =>
      pinned_supersedeHistory h hpre.1 hpre.2.1 hok)
  | historyCoverage =>
    exact pinned_deliver h (pinned_commit h fun _ _ hok => (historyCoverage_inv hok).1 ▸ h)
  | beginHistoryCycle =>
    exact pinned_deliver h (pinned_commit h fun _ _ hok =>
      pinned_beginHistoryCycle h hd hpre.2.2 hok)
  | resumeHistory =>
    refine pinned_deliver h (pinned_commit h fun _ _ hok => ?_)
    obtain ⟨_, hrow, -, -, -, rfl⟩ := resumeHistory_inv hok
    exact h.update hrow rfl rfl rfl
  | resizeHistoryPage =>
    refine pinned_deliver h (pinned_commit h fun _ _ hok => ?_)
    obtain ⟨_, hrow, -, -, rfl⟩ := resizeHistoryPage_inv hok
    exact h.update hrow rfl rfl rfl
  | settleHistoryFailure =>
    exact pinned_deliver h (pinned_commit h fun _ _ hok => pinned_settleHistoryFailure h hok)
  | certifiedHistoryFloor =>
    exact pinned_deliver h (pinned_commit h fun _ _ hok => (certifiedHistoryFloor_inv hok).1 ▸ h)
  | setHistoryFloor =>
    exact pinned_deliver h (pinned_commit h fun _ _ hok => pinned_setHistoryFloor h hpin hok)
  | recordHistoryPage events expectedNext next =>
    refine pinned_deliver h ?_
    rw [recordHistoryPage_snd]
    refine pinned_commit h fun _ _ hok => pinned_recordHistoryPage h hd hh hpre (fun hnone => ?_) hok
    subst hnone
    exact hpin

/-- **The rest of the monitor keeps the pin.** -/
theorem world_pinned {hdr : Headers} {command : Command} (h : imp.Pinned hdr root s)
    (hkey : command.coverageKey ≠ some imp.key) :
    imp.Pinned hdr root (s.exec imp.startOf command) := by
  have hrow : imp.row (s.exec imp.startOf command) = imp.row s :=
    (s.exec_elsewhere imp.startOf command hkey).coverage
  refine ⟨?_, fun row hr => h.cursor row (hrow ▸ hr)⟩
  cases s.exec_covers imp.startOf command with
  | same _ hcertified =>
    rw [Db.RootedAt, hcertified]
    exact h.certified
  | set _ _ _ heq =>
    rw [heq]
    exact h.certified
  | @page store events page r hpage hok =>
    obtain ⟨inserted, conflict⟩ := r
    obtain ⟨-, _, _, _, u, -, -, hi, -, -, -, -, hw⟩ := recordHistoryPageTx_inv hok
    obtain ⟨-, w, hcertify, ht⟩ := writeCoverage_inv hw
    have hgrows : Grows s u := grows_insertPage _ _ _ hi
    have hu : u.RootedAt imp.key imp.stream.activationHeight root := by
      rw [Db.RootedAt, hgrows.certified]
      exact h.certified
    have hne : store.key page.scope ≠ imp.key := fun heq => by
      rw [hpage] at hkey
      exact hkey (congrArg some heq)
    have hw : w.RootedAt imp.key imp.stream.activationHeight root :=
      certifyHistory_rootedAt_of_ne hne hu hcertify
    rw [ht]
    exact hw

end

end

end Bip300Monitor.Backfill
