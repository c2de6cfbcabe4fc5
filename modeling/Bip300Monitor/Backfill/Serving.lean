import Bip300Monitor.Backfill.Calls
import Bip300Monitor.Backfill.Resumability
import Bip300Monitor.Foundations.Timed
import Bip300Monitor.Store.Acceptance

/-!
# An upstream that serves

What a walk needs from its surroundings to get to its end: an upstream that has the blocks it is asked for,
a connection to the record that holds, a run that stays open and an instance that stays current. An upstream
may answer with fewer blocks than it is asked for, and may refuse a request of more than one block as too
large.

## What is proved

* `perform_ready` — an operation of a walk keeps what the next one needs;
* `serving` — the interface of the engine to such surroundings.
-/

namespace Bip300Monitor.Backfill

open Protobuf Transaction Runs Resumption

variable {P : Type}

/-! ### The upstream -/

/-- The payload can be recorded, whenever its event is built. -/
structure Import.Recordable (imp : Import P) (p : P) (h : BlockHeader) : Prop where
  hash : h.hash.length = 32
  previousHash : h.previousHash.length = 32
  holds : h.height ≤ maxHeight → ∀ time, ∃ event,
    imp.stream.envelope p (.atHeight h.hash h.height) (.ok time) = .ok event ∧ imp.stream.scope.Holds event

/-- A block of the node can be recorded. -/
theorem recordable_node {imp : Import MainchainBlock} {activation : ℕ} {activationHash : Option Bytes}
    {block : MainchainBlock} {h : BlockHeader} (himp : imp.stream = NodeHistory activation activationHash)
    (hheader : block.header = some h) (hhash : h.hash.length = 32) (hprevious : h.previousHash.length = 32) :
    imp.Recordable block h := by
  refine ⟨hhash, hprevious, fun hfits time => ?_⟩
  rw [himp]
  refine ⟨⟨time, some (.atHeight h.hash h.height), some (.node (some (.mainchainBlock block)))⟩, rfl, ?_⟩
  exact {
    facts := by
      refine ⟨_, Result.bind_eq_ok.mpr ⟨some h.height, ?_, rfl⟩, rfl⟩
      exact Result.transpose_map_eq_ok.mpr (.inr ⟨_, _, rfl, narrow_eq_ok.mpr ⟨hfits, rfl⟩, rfl⟩)
    payload := ⟨_, rfl⟩
    notReading := rfl
    anchor := fun b hb => (by cases hb; exact hhash)
    previous := fun hash hp => by
      obtain ⟨h', hh', rfl⟩ := Option.map_eq_some_iff.mp hp
      obtain rfl : h = h' := Option.some.inj (hheader.symm.trans hh')
      exact hprevious
    texts := fun payload hp text ht => by
      cases hp
      cases ht }

/-- What is answered by an upstream that has the block of a cursor. -/
inductive Import.Serves (imp : Import P) (hdr : Headers) (cursor : Block) (requested : ℕ) :
    Result (List P) → Prop
  /-- Blocks from the cursor down, at least one of them. -/
  | page {payloads : List P} {hs : List BlockHeader}
      (headers : List.Forall₂ (fun p h => imp.stream.header p = .ok h ∧ imp.Recordable p h) payloads hs)
      (wellFormed : WellFormedPage cursor requested hs) (tells : ∀ h ∈ hs, Tells hdr h)
      (starts : ∀ h ∈ hs, h.height = imp.stream.activationHeight →
        ∀ hash ∈ imp.stream.expectedStartHash, h.hash = hash) : imp.Serves hdr cursor requested (.ok payloads)
  /-- More than one block were too many. -/
  | tooLarge {error : Failure} (hmany : 1 < requested) (hlarge : pageTooLarge error)
      (hfound : ¬ unavailableError error) : imp.Serves hdr cursor requested (.error error)

/-- An operation is answered: nobody asks for shutdown, the connection to the record holds, the clock can be
read, and a request is served. -/
structure Import.Answers (imp : Import P) (hdr : Headers) (env : Environment P) (e : Op P) : Prop where
  quiet : env.Quiet
  now : ∃ time, env.now = .ok time
  fetched : ∀ b requested, e = .fetch (Block.observed b) requested → imp.Serves hdr b requested env.fetched

/-! ### The record -/

/-- The run is open, and the instance registered and current. -/
structure Import.Stands (imp : Import P) (run : Uuid) (db : Db) : Prop where
  running : db.isRunning run
  registered : db.hasInstance imp.datasetId imp.stream.scope
  current : imp.IsCurrent db

/-- What holds between two operations of a walk. -/
structure Import.Ready (C : Conditions) (imp : Import P) (run : Uuid) (db : Db) : Prop where
  durable : imp.Durable C db
  booked : db.Booked
  sized : ∀ row, imp.row db = some row → row.effectivePageBlocks ≤ maxHeight
  stands : imp.Stands run db

/-- Open runs stay open, and the tables of instances are as they were. -/
structure KeepsStanding (s t : Db) : Prop where
  running : ∀ run, s.isRunning run → t.isRunning run
  sidechainInstances : t.sidechainInstances = s.sidechainInstances
  currentInstances : t.currentInstances = s.currentInstances

variable {C : Conditions} {imp : Import P} {run : Uuid} {s t : Db}

theorem KeepsStanding.refl (s : Db) : KeepsStanding s s := ⟨fun _ h => h, rfl, rfl⟩

theorem KeepsStanding.stands (h : KeepsStanding s t) (hs : imp.Stands run s) : imp.Stands run t where
  running := h.running run hs.running
  registered slot hslot id hid := by
    obtain ⟨i, hi, hrest⟩ := hs.registered slot hslot id hid
    exact ⟨i, h.sidechainInstances ▸ hi, hrest⟩
  current slot hslot hid := by
    rw [← hs.current slot hslot hid, Db.currentInstance, Db.currentInstance, h.currentInstances]

section
variable [Digests]

/-- Events that are no readings of the active set leave the instances alone. -/
theorem insertAll_sameInstances {store : Store} {method : CaptureMethod} {group slot : Option ℕ}
    {id : Option String} {captureSeq n : ℕ} {events : List Event} {cache : InstanceCache}
    (hevents : ∀ event ∈ events, event.activeSidechains? = none)
    (h : insertAll store method group slot id captureSeq events cache s = .ok (n, t)) :
    t.sidechainInstances = s.sidechainInstances ∧ t.currentInstances = s.currentInstances := by
  induction events generalizing captureSeq cache s n with
  | nil =>
    obtain ⟨-, rfl⟩ := Tx.pure_eq_ok.mp h
    exact ⟨rfl, rfl⟩
  | cons event rest ih =>
    obtain ⟨r, u, hr, hrest⟩ := Tx.bind_eq_ok.mp h
    obtain ⟨m, v, hm, hn⟩ := Tx.bind_eq_ok.mp hrest
    obtain ⟨-, rfl⟩ := Tx.pure_eq_ok.mp hn
    obtain ⟨f, payload, authoritative, cache', w, resolved, fact, x, -, -, -, hupdate, -, hfact, hobserved, -⟩ :=
      insert_pieces hr
    rw [updateSidechainInstances, updateSidechainInstancesWith, hevents event List.mem_cons_self] at hupdate
    obtain ⟨-, rfl⟩ := Tx.pure_eq_ok.mp hupdate
    have hbooks := sameBooks_insertFact _ hfact
    obtain ⟨-, hobserved⟩ := Tx.require_bind_eq_ok.mp (Tx.read_bind_eq_ok.mp hobserved)
    obtain rfl := Tx.modify_eq_ok.mp hobserved
    obtain ⟨hinstances, hcurrent⟩ := ih (fun event hevent => hevents event (List.mem_cons_of_mem _ hevent)) hm
    exact ⟨hinstances.trans hbooks.sidechainInstances, hcurrent.trans hbooks.currentInstances⟩

omit [Digests] in
/-- A run that takes its sequence numbers stays open. -/
theorem reserve_isRunning {taker run : Uuid} {count first : ℕ}
    (h : reserveCaptureSequences taker count s = .ok (first, t)) (hrun : s.isRunning run) : t.isRunning run := by
  obtain ⟨-, h⟩ := Tx.require_bind_eq_ok.mp h
  obtain ⟨row, -, h⟩ := Tx.expect_bind_eq_ok.mp (Tx.read_bind_eq_ok.mp h)
  rw [Tx.modify_bind_eq_ok, Tx.pure_eq_ok] at h
  obtain ⟨-, rfl⟩ := h
  obtain ⟨r, hr, hid, hstatus⟩ := hrun
  refine ⟨_, List.mem_map_of_mem hr, ?_⟩
  split_ifs
  · exact ⟨hid, hstatus⟩
  · exact ⟨hid, hstatus⟩

/-- A page of blocks keeps open runs open and the instances as they were. -/
theorem keepsStanding_recordHistoryPageTx {store : Store} {events : List Event} {page : HistoryPage}
    {r : ℕ × Bool} (hevents : ∀ event ∈ events, event.activeSidechains? = none)
    (h : recordHistoryPageTx store events page s = .ok (r, t)) : KeepsStanding s t := by
  obtain ⟨-, _, _, _, u, -, -, hinsert, -, -, -, -, hwrite⟩ := recordHistoryPageTx_inv h
  have hut := sameEvidence_writeCoverage _ _ hwrite
  obtain ⟨_, v, hvalidate, hinsert⟩ := Tx.bind_eq_ok.mp hinsert
  obtain rfl : s = v := reads_validateExplicit _ _ _ hvalidate
  obtain ⟨first, v, hreserve, hinsert⟩ := Tx.bind_eq_ok.mp hinsert
  have hsv := sameEvidence_reserve hreserve
  obtain ⟨hinstances, hcurrent⟩ := insertAll_sameInstances hevents hinsert
  have hruns : t.runs = v.runs := hut.runs.trans (insertAll_occurrences hinsert).1
  refine ⟨fun run hrun => ?_, (hut.sidechainInstances.trans hinstances).trans hsv.sidechainInstances,
    (hut.currentInstances.trans hcurrent).trans hsv.currentInstances⟩
  obtain ⟨r, hr, hrest⟩ := reserve_isRunning hreserve hrun
  exact ⟨r, hruns ▸ hr, hrest⟩

/-- So does a command on a history scope that records no events. -/
theorem keepsStanding_exec (startOf : ScopeKey → ℕ) {c : Command} (hkey : c.coverageKey.isSome)
    (hbatch : c.batch = none) : KeepsStanding s (s.exec startOf c) := by
  cases s.exec_effect startOf c with
  | same _ heq =>
    refine ⟨fun run hrun => ?_, heq.sidechainInstances, heq.currentInstances⟩
    obtain ⟨r, hr, hrest⟩ := hrun
    exact ⟨r, heq.runs ▸ hr, hrest⟩
  | opened hc _ =>
    rw [hc] at hkey
    cases hkey
  | closed hc _ =>
    rw [hc] at hkey
    cases hkey
  | tip hc _ _ =>
    rw [hc] at hkey
    cases hkey
  | batch hb =>
    rw [hbatch] at hb
    cases hb

/-! ### The interface -/

/-- Block hashes determine headers, and no cycle begins towards a target below the start. -/
def served (hdr : Headers) : Conditions := { Conditions.none with hdr := hdr, honest := True, above := True }

/-- What else must hold when an operation of a walk is performed. A walk that is served neither settles a
failure nor leaves its target. -/
def Import.Due (imp : Import P) : Op P → Prop
  | .beginHistoryCycle _ _ targetTip _ _ page => page ≤ maxHeight ∧ ∃ height, targetTip.height = some height ∧
      imp.stream.activationHeight ≤ height
  | .resizeHistoryPage page _ => page ≤ maxHeight
  | .recordHistoryPage events _ _ => ∀ event ∈ events, imp.stream.scope.Holds event
  | .fetch cursor _ => ∃ b : Block, cursor = b.observed
  | .supersedeHistory .. | .settleHistoryFailure _ | .currentTip => False
  | _ => True

/-- The command that an operation executes, if it writes. -/
def Import.command? (imp : Import P) (run : Uuid) : Op P → Option Command
  | .supersedeHistory slot id reason =>
    some (.supersedeHistory (imp.store run) imp.stream.scope.stream slot id reason)
  | .beginHistoryCycle _ coveredTip targetTip floorHash floorHeight page =>
    some (.beginHistoryCycle (imp.store run) imp.stream.scope coveredTip targetTip floorHash floorHeight page)
  | .resumeHistory => some (.resumeHistory (imp.store run) imp.stream.scope)
  | .resizeHistoryPage page error => some (.resizeHistoryPage (imp.store run) imp.stream.scope page error)
  | .settleHistoryFailure error => some (.settleHistoryFailure (imp.store run) imp.stream.scope error)
  | .setHistoryFloor cursor floorHash floorHeight =>
    some (.setHistoryFloor (imp.store run) imp.stream.scope cursor floorHash floorHeight)
  | .recordHistoryPage events expectedNext next =>
    some (.recordHistoryPage (imp.store run) events ⟨imp.stream.scope, expectedNext, next⟩)
  | _ => none

variable {env : Environment P} {db : Db}

/-- An operation executes its command, if its transaction takes effect. -/
theorem perform_exec (env : Environment P) {e : Op P} (hpre : imp.Pre C db e) :
    (imp.perform run env db e).2 =
      if env.takesEffect then (imp.command? run e).elim db (db.exec imp.startOf) else db := by
  have reads {α : Type} {x : Write α} (h : ∀ a t, x db = .ok (a, t) → t = db) :
      (env.deliver db (Tx.commit x db)).2 = if env.takesEffect then db else db := by
    rw [deliver_snd]
    rcases Tx.commit_snd_cases x db with ⟨a, t, hok, hc⟩ | ⟨e, -, hc⟩
    · rw [hc, h a t hok]
    · rw [hc]
  cases e with
  | shutdownRequested | pagePause | fetch | currentTip | now => exact (ite_self db).symm
  | currentSidechainInstanceId => exact deliver_snd env db _
  | historyCoverage => exact reads fun _ _ h => (historyCoverage_inv h).1
  | certifiedHistoryFloor hashes => exact reads fun _ _ h => (certifiedHistoryFloor_inv h).1
  | beginHistoryCycle start coveredTip targetTip floorHash floorHeight page =>
    obtain ⟨rfl, -⟩ := hpre
    simp only [Import.perform, deliver_snd, Import.command?, Option.elim_some, Db.exec, imp.store_key,
      imp.startOf_key]
  | supersedeHistory | resumeHistory | resizeHistoryPage | settleHistoryFailure | setHistoryFloor =>
    simp only [Import.perform, deliver_snd, Import.command?, Option.elim_some, Db.exec]
  | recordHistoryPage events expectedNext next =>
    simp only [Import.perform, deliver_snd, Import.command?, Option.elim_some, Db.exec, recordHistoryPage_snd]

/-- What every command keeps, an operation keeps. -/
theorem perform_booked (env : Environment P) {e : Op P} (hpre : imp.Pre C db e) (h : db.Booked) :
    (imp.perform run env db e).2.Booked := by
  rw [perform_exec env hpre]
  split_ifs
  · cases imp.command? run e with
    | none => exact h
    | some c => exact db.exec_booked imp.startOf c h
  · exact h

omit [Digests] in
theorem Environment.Quiet.takesEffect (h : env.Quiet) : env.takesEffect = true := by
  rw [Environment.takesEffect, h.fault]
  rfl

omit [Digests] in
/-- What is answered meets the assumptions of the engine. -/
theorem Import.Answers.guard {hdr : Headers} {e : Op P} (h : imp.Answers hdr env e) (hdue : imp.Due e) :
    imp.Guard (served hdr) env db e := by
  cases e with
  | fetch cursor requested =>
    intro _ payloads hpayloads p hp x hx
    obtain ⟨b, rfl⟩ := hdue
    have hserves := h.fetched b requested rfl
    rw [hpayloads] at hserves
    cases hserves with
    | page headers _ tells _ =>
      obtain ⟨y, hy, hpy, -⟩ := PairedLists.exists_mem headers hp
      obtain rfl : y = x := Except.ok.inj (hpy.symm.trans hx)
      exact tells y hy
  | currentSidechainInstanceId slot => exact fun hfalse => hfalse.elim
  | beginHistoryCycle start coveredTip targetTip floorHash floorHeight page =>
    intro _ height hheight
    obtain ⟨-, height', hheight', hle⟩ := hdue
    obtain rfl : height' = height := Option.some.inj (hheight'.symm.trans hheight)
    exact hle
  | _ => trivial

/-- Rows of a size that fits stay so. -/
theorem perform_sized {e : Op P} (henv : env.Quiet) (hpre : imp.Pre C db e) (hdue : imp.Due e)
    (h : ∀ row, imp.row db = some row → row.effectivePageBlocks ≤ maxHeight) :
    ∀ row, imp.row (imp.perform run env db e).2 = some row → row.effectivePageBlocks ≤ maxHeight := by
  have commits {α : Type} {x : Write α}
      (hx : ∀ a t, x db = .ok (a, t) → ∀ row, imp.row t = some row → row.effectivePageBlocks ≤ maxHeight) :
      ∀ row, imp.row (Tx.commit x db).2 = some row → row.effectivePageBlocks ≤ maxHeight := by
    rcases Tx.commit_snd_cases x db with ⟨a, t, hok, hc⟩ | ⟨e, -, hc⟩
    · rw [hc]
      exact hx a t hok
    · rw [hc]
      exact h
  have written {row row' : CoverageRow} {u : Db} (hrow : row'.effectivePageBlocks ≤ maxHeight)
      (hu : imp.row (u.setCoverage imp.key row') = some row) : row.effectivePageBlocks ≤ maxHeight := by
    rw [Import.row, Db.setCoverage_coverage_self] at hu
    cases hu
    exact hrow
  rw [perform_exec env hpre, if_pos henv.takesEffect]
  cases e with
  | supersedeHistory | settleHistoryFailure => exact hdue.elim
  | beginHistoryCycle start coveredTip targetTip floorHash floorHeight page =>
    refine commits fun row t hok row' hrow' => ?_
    obtain ⟨_, _, -, -, -, -, -, rfl, rfl⟩ := beginHistoryCycle_inv hok
    exact written hdue.1 hrow'
  | resumeHistory =>
    refine commits fun _ t hok row' hrow' => ?_
    obtain ⟨row, hrow, -, -, -, rfl⟩ := resumeHistory_inv hok
    have hle := h row hrow
    exact written (by exact hle) hrow'
  | resizeHistoryPage page error =>
    refine commits fun _ t hok row' hrow' => ?_
    obtain ⟨row, -, -, -, rfl⟩ := resizeHistoryPage_inv hok
    exact written (by exact hdue) hrow'
  | setHistoryFloor cursor floorHash floorHeight =>
    refine commits fun _ t hok row' hrow' => ?_
    obtain ⟨row, hrow, -, -, -, rfl⟩ := setHistoryFloor_inv hok
    have hle := h row hrow
    exact written (by exact hle) hrow'
  | recordHistoryPage events expectedNext next =>
    refine commits fun r t hok row' hrow' => ?_
    obtain ⟨-, _, _, row, u, -, -, -, -, hrow, -, -, hwrite⟩ := recordHistoryPageTx_inv hok
    obtain ⟨-, w, -, rfl⟩ := writeCoverage_inv hwrite
    have hle := h row hrow
    exact written (by exact hle) hrow'
  | _ => exact h

/-- **An operation of a walk keeps what the next one needs.** -/
theorem perform_ready {hdr : Headers} {e : Op P} (h : imp.Ready (served hdr) run db)
    (hpre : imp.Pre (served hdr) db e) (hdue : imp.Due e) (henv : imp.Answers hdr env e) :
    imp.Ready (served hdr) run (imp.perform run env db e).2 where
  durable := (Import.perform_safe h.durable (henv.guard hdue) hpre).durable
  booked := perform_booked env hpre h.booked
  sized := perform_sized henv.quiet hpre hdue h.sized
  stands := by
    refine KeepsStanding.stands ?_ h.stands
    rw [perform_exec env hpre, if_pos henv.quiet.takesEffect]
    cases e with
    | supersedeHistory | settleHistoryFailure => exact hdue.elim
    | recordHistoryPage events expectedNext next =>
      rcases Tx.commit_snd_cases (recordHistoryPageTx (imp.store run) events
        ⟨imp.stream.scope, expectedNext, next⟩) db with ⟨r, t, hok, hc⟩ | ⟨e, -, hc⟩
      · have ht := keepsStanding_recordHistoryPageTx (fun event hevent => (hdue event hevent).notReading) hok
        simpa only [Import.command?, Option.elim_some, Db.exec, hc] using ht
      · simpa only [Import.command?, Option.elim_some, Db.exec, hc] using KeepsStanding.refl db
    | beginHistoryCycle | resumeHistory | resizeHistoryPage | setHistoryFloor =>
      simp only [Import.command?, Option.elim_some]
      exact keepsStanding_exec imp.startOf rfl rfl
    | _ => exact .refl db

/-- Retained conflicts are never removed. -/
theorem exec_conflicts (startOf : ScopeKey → ℕ) (db : Db) (c : Command) :
    db.conflicts ⊆ (db.exec startOf c).conflicts := by
  cases db.exec_effect startOf c with
  | same _ heq => exact heq.conflicts ▸ fun _ h => h
  | opened _ hok => exact (initializeIdentity_inv hok).2.conflicts ▸ fun _ h => h
  | closed _ hok => exact (finishRun_inv hok).2.conflicts ▸ fun _ h => h
  | tip _ _ hok =>
    obtain ⟨_, _, _, u, -, -, hreserve, ht⟩ := recordTipObservation_inv hok
    have hu : u.conflicts = db.conflicts := (sameEvidence_reserve hreserve).conflicts
    rw [ht.conflicts, hu]
    exact fun _ h => h
  | batch _ _ hrecorded =>
    obtain ⟨group, r, first, u, n, v, hopens, hreserve, hinsert, hvt⟩ := hrecorded.steps
    have hr : r.conflicts = db.conflicts := by
      cases hopens with
      | alone => rfl
      | group => rfl
    rw [hvt.conflicts, ← hr, ← (sameEvidence_reserve hreserve).conflicts]
    exact (grows_insertAll _ _ _ _ _ _ _ _ hinsert).conflicts

/-- What the rest of the monitor does in between. -/
structure Import.Goes (imp : Import P) (s t : Db) : Prop extends imp.Rely s t where
  conflicts : s.conflicts ⊆ t.conflicts

/-- A record that is ready. -/
abbrev Import.Readied (imp : Import P) (hdr : Headers) (run : Uuid) : Type :=
  { db : Db // imp.Ready (served hdr) run db }

/-- The engine's interface to an upstream that serves. -/
def Import.serving (imp : Import P) (hdr : Headers) (run : Uuid) :
    Interface (imp.Readied hdr run) (Op P) Op.Resp where
  rely s t := imp.Goes s.1 t.1
  pre e s := imp.Pre (served hdr) s.1 e ∧ imp.Due e
  sem e s r t := ∃ env, imp.Answers hdr env e ∧ imp.perform run env s.1 e = (r, t.1)
  rely_refl s := ⟨.refl s.1, fun _ h => h⟩
  rely_trans _ _ _ h h' := ⟨h.toRely.trans h'.toRely, fun _ hc => h'.conflicts (h.conflicts hc)⟩

end

end Bip300Monitor.Backfill
