import Bip300Monitor.Backfill.Import
import Bip300Monitor.Backfill.Outline
import Bip300Monitor.Store.CurrentSet

/-!
# What an import of blocks leaves alone

Any event that a page holds is recorded, a reading of the active set among others, and that
would replace the current set. The history of a sidechain is blocks, and its pages hold
nothing else: so an import of it never changes which instances are current.
-/

namespace Bip300Monitor

open Protobuf Transaction Resumption

namespace Backfill

/-- What becomes of the world is not asked; a page has no reading of the active set. -/
def blockPages : Interface Unit (Op (Option EnforcerEvent)) Op.Resp where
  rely _ _ := True
  pre e _ := match e with
    | .recordHistoryPage events .. => ∀ event ∈ events, event.activeSidechains? = none
    | _ => True
  sem _ _ _ _ := True
  rely_refl _ := trivial
  rely_trans _ _ _ _ _ := trivial

/-- Every page that the program records is one of blocks, and what it returns meets `Q`. -/
abbrev RecordsBlocks {α : Type} (p : Engine (Option EnforcerEvent) α) (Q : α → Prop) : Prop :=
  wpe blockPages p (fun a _ => Q a) ()

variable {inst : SidechainInstanceRef}

/-- **The envelope of a historical block is not a reading of the active set.** -/
theorem activeSidechains_of_envelope {payload : Option EnforcerEvent} {header : BlockHeader}
    {anchor : ObservedBlock} {now : Result ℕ} {event : Event}
    (hheader : (BlockHistory inst).header payload = .ok header)
    (hevent : (BlockHistory inst).envelope payload anchor now = .ok event) :
    event.activeSidechains? = none := by
  obtain ⟨block, rfl, -⟩ := connectedHeader_eq_ok.mp hheader
  simp only [BlockHistory, envelope, Result.context_eq_ok, Option.map_some,
    EnforcerEvent.kind] at hevent
  cases now with
  | error e => cases hevent
  | ok timestamp =>
    cases hevent
    rfl

/-- **The loop records blocks**: nothing is to be known at any point but the events of a page. -/
def blockPagesLoop (inst : SidechainInstanceRef) : LoopOutline blockPages (BlockHistory inst) where
  At _ _ := True
  stable _ _ _ _ _ := trivial
  asks e he _ := ⟨by cases e <;> trivial, fun _ _ _ => rfl⟩
  settle _ _ := trivial
  current _ _ _ := ⟨trivial, fun _ _ _ => ⟨rfl, fun _ => trivial⟩⟩
  supersede _ _ _ _ _ := trivial
  begin _ _ _ _ := ⟨trivial, fun _ _ _ _ _ => trivial⟩
  enter _ _ _ := trivial
  anew _ _ _ := trivial
  fetch _ _ _ _ _ _ _ := ⟨trivial, fun _ _ _ => ⟨trivial, fun _ _ _ _ _ _ => trivial⟩⟩
  probe _ _ _ _ _ _ _ := ⟨trivial, fun _ _ _ => trivial⟩
  shrink _ _ _ _ := ⟨trivial, fun _ _ _ _ => trivial⟩
  floor _ _ _ _ _ _ := ⟨trivial, fun _ _ _ _ _ => trivial⟩
  cut _ _ _ _ _ _ _ _ _ _ _ _ _ _ _ := ⟨trivial, fun _ _ _ _ => trivial⟩
  keep _ _ _ _ _ _ _ _ _ _ _ _ _ _ _ _ _ _ _ := trivial
  repair _ _ _ _ _ _ := trivial
  recut _ _ _ _ _ := trivial
  record _ _ payloads _ events hevents _ _ := by
    refine ⟨fun event hevent => ?_, fun _ _ _ _ _ => ⟨fun _ => trivial, fun _ => trivial⟩⟩
    obtain ⟨payload, -, header, now, hheader, henvelope⟩ :=
      PairedLists.exists_mem (List.Forall₂.flip hevents) hevent
    exact activeSidechains_of_envelope hheader henvelope

/-- And so does a call. -/
def blockPagesOutline (inst : SidechainInstanceRef) (settings : Settings) :
    Outline blockPages (BlockHistory inst) settings where
  __ := blockPagesLoop inst
  check _ _ := ⟨trivial, fun _ _ _ _ _ _ => trivial⟩
  read _ _ := ⟨trivial, fun _ _ _ _ _ => trivial⟩
  first _ _ := trivial
  running _ _ _ _ := trivial
  resume _ _ _ := ⟨trivial, fun _ _ _ _ => trivial⟩
  upToDate _ _ _ _ _ _ _ _ := trivial
  extend _ _ _ _ _ _ _ _ _ := ⟨trivial, fun _ _ _ _ _ => trivial⟩
  again _ _ _ := trivial

/-- Up to its loop. -/
theorem recordsBlocks_runHistory (inst : SidechainInstanceRef) (tip : ObservedBlock) (settings : Settings) :
    RecordsBlocks (runHistory (BlockHistory inst) tip settings) fun _ => True :=
  wpe_mono _ (fun _ _ _ => trivial) ((blockPagesOutline inst settings).runHistory_ends tip trivial)

/-- **Every iteration records blocks.** -/
theorem recordsBlocks_iterate (settings : Settings) (l : Locals) :
    RecordsBlocks (iterate (BlockHistory inst) settings l) fun _ => True :=
  wpe_mono _ (fun _ _ _ => trivial) ((blockPagesLoop inst).iterate_ends trivial)

/-! ### The current set -/

section
variable [Digests] {s t : Db}

/-- Which instances are current is as it was. -/
structure SameCurrent (s t : Db) : Prop where
  currentInstances : t.currentInstances = s.currentInstances

instance : Std.Refl SameCurrent := ⟨fun _ => ⟨rfl⟩⟩

instance : IsTrans Db SameCurrent :=
  ⟨fun _ _ _ h h' => ⟨h'.currentInstances.trans h.currentInstances⟩⟩

omit [Digests] in
theorem SameCurrent.currentInstance (h : SameCurrent s t) (dataset : Uuid) (slot : ℕ) :
    t.currentInstance dataset slot = s.currentInstance dataset slot := by
  rw [Db.currentInstance, Db.currentInstance, h.currentInstances]

/-- A page of blocks. -/
theorem sameCurrent_recordHistoryPageTx {store : Store} {events : List Event} {page : HistoryPage}
    (hevents : ∀ event ∈ events, event.activeSidechains? = none) :
    Tx.Guarantees SameCurrent (recordHistoryPageTx store events page) := by
  intro s a t h
  have hnone : events.filterMap (ActiveReading.ofEvent store.datasetId) = [] := by
    refine List.filterMap_eq_nil_iff.mpr fun event hevent => ?_
    rw [ActiveReading.ofEvent, hevents event hevent]
    rfl
  have hcurrent := (recordHistoryPageTx_recorded h).currentInstances
  rw [Batch.readings] at hcurrent
  exact ⟨by simpa [hnone] using hcurrent⟩

/-- A command that records no events. -/
theorem exec_sameCurrent (startOf : ScopeKey → ℕ) (db : Db) {c : Command} (hc : c.batch = none) :
    SameCurrent db (db.exec startOf c) := by
  cases db.exec_effect startOf c with
  | same _ heq => exact ⟨heq.currentInstances⟩
  | opened _ hok => exact ⟨(initializeIdentity_inv hok).2.currentInstances⟩
  | closed _ hok => exact ⟨(finishRun_inv hok).2.currentInstances⟩
  | tip _ _ hok =>
    obtain ⟨_, _, _, u, -, -, hreserve, ht⟩ := recordTipObservation_inv hok
    exact ⟨ht.currentInstances.trans (sameEvidence_reserve hreserve).currentInstances⟩
  | batch hb =>
    rw [hc] at hb
    cases hb

/-- **The operations of an import of blocks leave the current set alone.** -/
theorem perform_sameCurrent (imp : Import (Option EnforcerEvent)) (run : Uuid)
    (env : Environment (Option EnforcerEvent)) (db : Db) {e : Op (Option EnforcerEvent)}
    (he : blockPages.pre e ()) : SameCurrent db (imp.perform run env db e).2 := by
  have deliver {α : Type} {out : Result α × Db} (h : SameCurrent db out.2) :
      SameCurrent db (env.deliver db out).2 := deliver_rel env h
  have exec (startOf : ScopeKey → ℕ) {c : Command} (hc : c.batch = none) :=
    exec_sameCurrent startOf db hc
  cases e with
  | shutdownRequested | pagePause | fetch | currentTip | now => exact Std.Refl.refl db
  | currentSidechainInstanceId => exact deliver (Std.Refl.refl db)
  | supersedeHistory slot id reason =>
    exact deliver (exec imp.startOf (c := .supersedeHistory _ _ slot id reason) rfl)
  | historyCoverage =>
    have hreads : Tx.Guarantees SameCurrent (historyCoverage (imp.store run) imp.stream.scope) := by
      unfold Bip300Monitor.historyCoverage
      exact (Tx.guarantees_lift _).bind fun _ => Tx.guarantees_read.bind fun _ => Tx.guarantees_pure _
    exact deliver (hreads.commit db)
  | beginHistoryCycle start coveredTip targetTip floorHash floorHeight pageBlocks =>
    exact deliver (exec (fun _ => start) (c := .beginHistoryCycle _ _ coveredTip targetTip floorHash
      floorHeight pageBlocks) rfl)
  | resumeHistory => exact deliver (exec imp.startOf (c := .resumeHistory _ _) rfl)
  | resizeHistoryPage pageBlocks error =>
    exact deliver (exec imp.startOf (c := .resizeHistoryPage _ _ pageBlocks error) rfl)
  | settleHistoryFailure error =>
    exact deliver (exec imp.startOf (c := .settleHistoryFailure _ _ error) rfl)
  | certifiedHistoryFloor hashes =>
    have hreads : Tx.Guarantees SameCurrent
        (certifiedHistoryFloor (imp.store run) imp.stream.scope hashes) :=
      Tx.guarantees_read.bind fun _ => Tx.guarantees_pure _
    exact deliver (hreads.commit db)
  | setHistoryFloor cursor floorHash floorHeight =>
    exact deliver (exec imp.startOf (c := .setHistoryFloor _ _ cursor floorHash floorHeight) rfl)
  | recordHistoryPage events expectedNext next =>
    refine deliver ?_
    rw [recordHistoryPage_snd]
    exact (sameCurrent_recordHistoryPageTx he).commit db

end

end Backfill

end Bip300Monitor
