import Bip300Monitor.Store.History
import Bip300Monitor.Store.Health
import Bip300Monitor.Store.Fees
import Bip300Monitor.Foundations.Runs
import Mathlib.Data.List.Chain

/-!
# Certified prefixes

The record under every write the monitor makes, in any order: the history operations
as `run_history` issues them, on any scopes, among the live records, the snapshots and
the bookkeeping of any runs. Membership of `history_certified_block` means that the
block's whole prefix, down to the start height, is proven.

## The model

A `Command` is one call on a store handle. A failed call leaves the record as it was.
`run_history` hands `begin_history_cycle` the fixed start height of its scope
(`startOf`) and no covered tip but one that a reading of the scope's coverage
returned, which may be long ago: `Record.readings` remembers them.

## What is proved

* `CertifiedPrefix` — the invariant, and that each kind of write keeps it;
* `exists_factChain` — under it an unbroken chain of facts, one a height, leads from any
  certified block down to the start height;
* `certified_prefix_closed` — in every state that a sequence of commands leads to.
-/

namespace Bip300Monitor

open Protobuf Transaction Runs

/-! ### The invariant -/

/-- What holds of certification in every state: a certified block is a fact and stands on
a certified parent or at the start, and a proven tip is certified. -/
structure CertifiedPrefix (startOf : ScopeKey → ℕ) (db : Db) : Prop where
  sound : db.Sound
  fact : ∀ c ∈ db.certified, c.hasFact db
  stands : ∀ c ∈ db.certified, c.stands db (startOf c.scope)
  start : ∀ k row, db.coverage k = some row → row.coverageStartHeight = startOf k
  covered : ∀ k row tip, db.coverage k = some row → row.coveredTip = some tip → db.certifies k tip
  complete : ∀ k row, db.coverage k = some row → row.status = .complete → row.coveredTip.isSome

variable {startOf : ScopeKey → ℕ} {s t : Db} {k : ScopeKey}

theorem CertifiedPrefix.empty : CertifiedPrefix startOf Db.empty where
  sound := .empty
  fact := by simp [Db.empty]
  stands := by simp [Db.empty]
  start := by simp [Db.empty]
  covered := by simp [Db.empty]
  complete := by simp [Db.empty]

theorem Db.certifies.mono {b : Block} (h : s.certifies k b) (hst : s.certified ⊆ t.certified) :
    t.certifies k b := by
  obtain ⟨c, hc, heq⟩ := h
  exact ⟨c, hst hc, heq⟩

theorem CertifiedRow.hasFact.mono {c : CertifiedRow} (h : c.hasFact s)
    (hst : s.events ⊆ t.events) : c.hasFact t := by
  obtain ⟨e, he, heq⟩ := h
  exact ⟨e, hst he, heq⟩

theorem CertifiedRow.stands.mono {c : CertifiedRow} {start : ℕ} (h : c.stands s start)
    (hst : s.certified ⊆ t.certified) : c.stands t start := by
  rcases h with h | ⟨c', hc', heq⟩
  · exact .inl h
  · exact .inr ⟨c', hst hc', heq⟩

/-- What a write does to certification: it keeps the invariant, and what is certified
stays certified. -/
structure Keeps (startOf : ScopeKey → ℕ) (s t : Db) : Prop where
  inv : CertifiedPrefix startOf s → CertifiedPrefix startOf t
  certified : s.certified ⊆ t.certified

instance : Std.Refl (Keeps startOf) := ⟨fun _ => ⟨id, fun _ h => h⟩⟩

instance : IsTrans Db (Keeps startOf) := ⟨fun _ _ _ h h' =>
  ⟨h'.inv ∘ h.inv, fun _ hc => h'.certified (h.certified hc)⟩⟩

/-- Recording evidence keeps certification. -/
theorem Grows.keeps (h : Grows s t) : Keeps startOf s t where
  inv hs := {
    sound := h.sound hs.sound
    fact := by rw [h.certified]; exact fun c hc => (hs.fact c hc).mono h.events
    stands := by
      rw [h.certified]
      exact fun c hc => (hs.stands c hc).mono (by rw [h.certified]; exact fun _ hc => hc)
    start := by rw [h.coverage]; exact hs.start
    covered := by
      rw [h.coverage]
      exact fun k row tip hrow htip => (hs.covered k row tip hrow htip).mono
        (by rw [h.certified]; exact fun _ hc => hc)
    complete := by rw [h.coverage]; exact hs.complete }
  certified := by rw [h.certified]; exact fun _ hc => hc

/-- Writing a coverage row keeps certification when its start height is the scope's and
its proven tip is certified. -/
theorem CertifiedPrefix.setCoverage (hs : CertifiedPrefix startOf s) {row : CoverageRow}
    (hstart : row.coverageStartHeight = startOf k)
    (hcovered : ∀ tip, row.coveredTip = some tip → s.certifies k tip)
    (hcomplete : row.status = .complete → row.coveredTip.isSome) :
    CertifiedPrefix startOf (s.setCoverage k row) where
  sound := ⟨hs.sound.id_lt, hs.sound.id_nodup, hs.sound.identity, hs.sound.conflict⟩
  fact := hs.fact
  stands := hs.stands
  start k' row' h := by
    by_cases hk : k' = k
    · subst hk
      rw [Db.setCoverage_coverage_self] at h
      cases h
      exact hstart
    · rw [Db.setCoverage_coverage_of_ne s row hk] at h
      exact hs.start k' row' h
  covered k' row' tip h htip := by
    by_cases hk : k' = k
    · subst hk
      rw [Db.setCoverage_coverage_self] at h
      cases h
      exact hcovered tip htip
    · rw [Db.setCoverage_coverage_of_ne s row hk] at h
      exact hs.covered k' row' tip h htip
  complete k' row' h hstatus := by
    by_cases hk : k' = k
    · subst hk
      rw [Db.setCoverage_coverage_self] at h
      cases h
      exact hcomplete hstatus
    · rw [Db.setCoverage_coverage_of_ne s row hk] at h
      exact hs.complete k' row' h hstatus

/-- A change of a row that leaves its start height and its proven tip alone. -/
theorem Keeps.setCoverage {row row' : CoverageRow} (hrow : s.coverage k = some row)
    (hstart : row'.coverageStartHeight = row.coverageStartHeight)
    (hcovered : row'.coveredTip = row.coveredTip) (hstatus : row'.status ≠ .complete) :
    Keeps startOf s (s.setCoverage k row') where
  inv hs := hs.setCoverage (hstart.trans (hs.start k row hrow))
    (fun tip htip => hs.covered k row tip hrow (hcovered ▸ htip)) fun h => absurd h hstatus
  certified := fun _ hc => hc

/-! ### The history operations -/

variable {store : Store} {scope : HistoryScope}

theorem keeps_setHistoryFloor (cursor : ObservedBlock) (floorHash : Option Bytes)
    (floorHeight : Option ℕ) :
    Tx.Guarantees (Keeps startOf) (setHistoryFloor store scope cursor floorHash floorHeight) := by
  intro s a t h
  obtain ⟨row, hrow, -, hrun, -, rfl⟩ := setHistoryFloor_inv h
  exact Keeps.setCoverage hrow rfl rfl (by simp [hrun])

theorem keeps_resizeHistoryPage (page : ℕ) (error : String) :
    Tx.Guarantees (Keeps startOf) (resizeHistoryPage store scope page error) := by
  intro s a t h
  obtain ⟨row, hrow, hrun, -, rfl⟩ := resizeHistoryPage_inv h
  exact Keeps.setCoverage hrow rfl rfl (by simp [hrun])

theorem keeps_resumeHistory : Tx.Guarantees (Keeps startOf) (resumeHistory store scope) := by
  intro s a t h
  obtain ⟨row, hrow, -, -, -, rfl⟩ := resumeHistory_inv h
  exact Keeps.setCoverage hrow rfl rfl (by simp)

theorem keeps_settleHistoryFailure (error : String) :
    Tx.Guarantees (Keeps startOf) (settleHistoryFailure store scope error) := by
  intro s a t h
  obtain ⟨row, hrow, ⟨-, -, rfl⟩ | ⟨-, -, -, rfl⟩ | ⟨-, -, -, rfl⟩⟩ := settleHistoryFailure_inv h
  · exact Std.Refl.refl _
  · exact Keeps.setCoverage hrow rfl rfl (by simp)
  · exact Keeps.setCoverage hrow rfl rfl (by simp)

theorem keeps_supersedeHistory (stream : StreamName) (slot : ℕ) (id reason : String) :
    Tx.Guarantees (Keeps startOf) (supersedeHistory store stream slot id reason) := by
  intro s a t h
  rcases supersedeHistory_inv h with ⟨rfl, -⟩ | ⟨row, hrow, -, -, rfl⟩
  · exact Std.Refl.refl _
  · exact Keeps.setCoverage hrow rfl rfl (by simp)

/-- A new cycle keeps certification when the covered tip it is given is certified. -/
theorem keeps_beginHistoryCycle {coveredTip : Option ObservedBlock} {targetTip : ObservedBlock}
    {floorHash : Option Bytes} {floorHeight : Option ℕ} {page : ℕ} {row : CoverageRow}
    (hcovered : ∀ tip ∈ coveredTip, ∃ b, tip = b.observed ∧ s.certifies (store.key scope) b)
    (h : beginHistoryCycle store scope (startOf (store.key scope)) coveredTip targetTip floorHash
      floorHeight page s = .ok (row, t)) : Keeps startOf s t := by
  obtain ⟨covered, targetHeight, -, hparts, -, -, -, rfl, hrow⟩ := beginHistoryCycle_inv h
  refine ⟨fun hs => hs.setCoverage (by rw [hrow]) (fun tip htip => ?_) (by rw [hrow]; simp),
    fun _ hc => hc⟩
  rw [hrow] at htip
  rcases optionalBlockParts_eq_ok hparts with ⟨rfl, rfl⟩ | ⟨hash, height, rfl, -, rfl⟩
  · change (s.coverage (store.key scope)).bind (·.coveredTip) = some tip at htip
    obtain ⟨old, hold, holdTip⟩ := Option.bind_eq_some_iff.mp htip
    exact hs.covered _ old tip hold holdTip
  · obtain rfl : (⟨hash, height⟩ : Block) = tip := Option.some.inj htip
    obtain ⟨b, hb, hcert⟩ := hcovered _ rfl
    cases b
    cases hb
    exact hcert

/-- **A page keeps certification**: only the final page of a scope without a retained
conflict completes it, and then certification has proved the target. -/
theorem keeps_recordHistoryPage [Digests] (events : List Event) (page : HistoryPage) :
    Tx.Guarantees (Keeps startOf) (recordHistoryPageTx store events page) := by
  intro s a t h
  obtain ⟨inserted, conflict⟩ := a
  obtain ⟨-, expectedHeight, next, row, u, -, hnext, hinsert, hconflict, hrow, -, hrun, hw⟩ :=
    recordHistoryPageTx_inv h
  have hsu : Grows s u := grows_insertPage _ _ _ hinsert
  have hurow : u.coverage (store.key page.scope) = some row := by rw [hsu.coverage, hrow]
  refine IsTrans.trans _ _ _ hsu.keeps ?_
  by_cases hstatus : (row.afterPage ⟨page.expectedNext.hash, expectedHeight⟩ next conflict
      inserted).status = .complete
  swap
  · obtain ⟨-, rfl⟩ := (writeCoverage_eq_ok hstatus).mp hw
    refine Keeps.setCoverage hurow rfl ?_ hstatus
    cases conflict <;> cases next <;> simp_all [CoverageRow.afterPage]
  obtain ⟨hv, w, hcert, rfl⟩ := writeCoverage_inv hw
  -- the page is the last, and no conflict is retained in the scope
  obtain ⟨rfl, rfl⟩ : conflict = false ∧ next = none := by
    cases conflict <;> cases next <;> simp_all [CoverageRow.afterPage]
  have hfinal : page.next = none := by
    rcases optionalBlockParts_eq_ok hnext with ⟨h, -⟩ | ⟨_, _, -, -, h⟩
    · exact h
    · cases h
  have hno : ¬ u.retainsConflict (store.key page.scope) := by
    intro hk
    exact of_decide_eq_false hconflict.symm (.inr ⟨by rw [hfinal]; rfl, hk⟩)
  refine ⟨fun hu => ?_, ?_⟩
  · obtain ⟨hw', hsub, hnew, htarget⟩ := certifyHistory_sound (hu.sound.unambiguous hno)
      (fun c hc _ => hu.fact c hc) hstatus hcert
    have hstart : row.coverageStartHeight = startOf (store.key page.scope) := hu.start _ _ hurow
    have hwinv : CertifiedPrefix startOf w := by
      have hevents : w.events = u.events := by rw [hw']
      have hcoverage : w.coverage = u.coverage := by rw [hw']
      exact {
        sound := by
          rw [hw']
          exact ⟨hu.sound.id_lt, hu.sound.id_nodup, hu.sound.identity, hu.sound.conflict⟩
        fact := fun c hc => by
          rcases hnew c hc with hc | ⟨-, hfact, -⟩
          · exact (hu.fact c hc).mono (by rw [hevents]; exact fun _ h => h)
          · exact hfact
        stands := fun c hc => by
          rcases hnew c hc with hc | ⟨hscope, -, hstands⟩
          · exact (hu.stands c hc).mono hsub
          · rw [hscope, ← hstart]
            exact hstands
        start := by rw [hcoverage]; exact hu.start
        covered := by
          rw [hcoverage]
          exact fun k row tip hrow htip => (hu.covered k row tip hrow htip).mono hsub
        complete := by rw [hcoverage]; exact hu.complete }
    refine hwinv.setCoverage hstart (fun tip htip => ?_) fun _ => rfl
    cases htip
    exact htarget
  · obtain ⟨-, -, -, rfl⟩ := (certifyHistory_eq_ok hstatus).mp hcert
    exact subset_foldl_insertCertified _ _

/-! ### The chain below a certified block -/

/-- An unbroken chain of facts of the scope from a block down to a height, one fact a
height, each the parent of the one before it. -/
structure IsFactChain (db : Db) (k : ScopeKey) (tip : Block) (start : ℕ) (chain : List EventRow) :
    Prop where
  facts : ∀ e ∈ chain, e ∈ db.events ∧ e.inScope k
  head : chain.head?.bind (·.blockHash) = some tip.hash
  heights : chain.map (·.height) = (List.range' start (tip.height + 1 - start)).reverse.map some
  linked : chain.IsChain fun e e' => e.previousHash = e'.blockHash

/-- No certified block lies below the start. -/
theorem CertifiedPrefix.start_le (hs : CertifiedPrefix startOf s) {c : CertifiedRow}
    (hc : c ∈ s.certified) : startOf c.scope ≤ c.height := by
  generalize hn : c.height = n
  induction n generalizing c with
  | zero =>
    rcases hs.stands c hc with h | ⟨c', -, -, -, h⟩
    · omega
    · omega
  | succ n ih =>
    rcases hs.stands c hc with h | ⟨c', hc', hscope, -, h⟩
    · omega
    · have := ih hc' (by omega)
      rw [hscope] at this
      omega

/-- **The chain below a certified block.** -/
theorem CertifiedPrefix.exists_factChain (hs : CertifiedPrefix startOf s) {c : CertifiedRow}
    (hc : c ∈ s.certified) :
    ∃ chain, IsFactChain s c.scope ⟨c.blockHash, c.height⟩ (startOf c.scope) chain := by
  generalize hn : c.height - startOf c.scope = n
  induction n generalizing c with
  | zero =>
    have hle := hs.start_le hc
    obtain ⟨e, he, hb, -, hh⟩ := hs.fact c hc
    have hone : c.height + 1 - startOf c.scope = 1 := by omega
    refine ⟨[e], ⟨?_, ?_, ?_, List.isChain_singleton e⟩⟩
    · simp [he, hb.1]
    · simp [hb.2]
    · simp only [hone, List.map_cons, List.map_nil, hh, List.range'_one, List.reverse_singleton]
      congr 2
      omega
  | succ n ih =>
    rcases hs.stands c hc with h | ⟨c', hc', hscope, hhash, hheight⟩
    · omega
    obtain ⟨e, he, hb, hprev, hh⟩ := hs.fact c hc
    obtain ⟨chain, hchain⟩ := ih hc' (by rw [hscope]; omega)
    rw [hscope] at hchain
    have hle := hs.start_le hc'
    rw [hscope] at hle
    refine ⟨e :: chain, ⟨?_, ?_, ?_, ?_⟩⟩
    · intro f hf
      rcases List.mem_cons.mp hf with rfl | hf
      · exact ⟨he, hb.1⟩
      · exact hchain.facts f hf
    · simp [hb.2]
    · have hlen : c.height + 1 - startOf c.scope = (c'.height + 1 - startOf c.scope) + 1 := by omega
      have htop : startOf c.scope + (c'.height + 1 - startOf c.scope) = c.height := by omega
      rw [List.map_cons, hchain.heights, hh, hlen, List.range'_concat, List.reverse_append,
        Nat.one_mul, htop]
      rfl
    · refine List.isChain_cons.mpr ⟨fun f hf => ?_, hchain.linked⟩
      have hfhash := hchain.head
      rw [hf, Option.bind_some] at hfhash
      rw [hprev, hfhash, hhash]

/-! ### Commands -/

/-- One call on a store handle that writes the record, or reads a covered tip from it. -/
inductive Command where
  | initializeIdentity (source : Source) (datasetId runId : Uuid) (eventContractVersion : ℕ)
  | finishRun (store : Store) (status : RunStatus) (reason : Option String)
  | initializeWorkerStatuses (store : Store) (workers : List ExtractorWorker)
  | recordWorkerFailure (store : Store) (worker : ExtractorWorker) (error : String)
      (degradedAfter : ℕ)
  | recordWorkerSuccess (store : Store) (worker : ExtractorWorker)
  | record (store : Store) (events : List Event) (method : CaptureMethod)
      (inst : Option SidechainInstanceRef)
  | recordSnapshot (store : Store) (events : List Event) (method : CaptureMethod)
      (metadata : SnapshotMetadata)
  | recordTipObservation (store : Store) (tip : ObservedBlock) (previous : Option ObservedBlock)
      (method : CaptureMethod) (observedAt : ℕ)
  | historyCoverage (store : Store) (scope : HistoryScope)
  | beginHistoryCycle (store : Store) (scope : HistoryScope) (coveredTip : Option ObservedBlock)
      (targetTip : ObservedBlock) (floorHash : Option Bytes) (floorHeight : Option ℕ)
      (effectivePageBlocks : ℕ)
  | setHistoryFloor (store : Store) (scope : HistoryScope) (cursor : ObservedBlock)
      (floorHash : Option Bytes) (floorHeight : Option ℕ)
  | recordHistoryPage (store : Store) (events : List Event) (page : HistoryPage)
  | resizeHistoryPage (store : Store) (scope : HistoryScope) (effectivePageBlocks : ℕ)
      (error : String)
  | resumeHistory (store : Store) (scope : HistoryScope)
  | settleHistoryFailure (store : Store) (scope : HistoryScope) (error : String)
  | supersedeHistory (store : Store) (stream : StreamName) (sidechain : ℕ)
      (sidechainInstanceId : String) (reason : String)
  | recordFeeEnrichment (store : Store) (candidates : List (ℕ × Bytes)) (sourceEventId : ℕ)
      (event : Event)
  | recordFeeFailure (store : Store) (sourceEventId : ℕ) (error : String)

/-- The record, and the covered tips that readings of coverage have returned. -/
structure Record where
  db : Db
  readings : List (ScopeKey × ObservedBlock)

/-- A freshly migrated record, of which nothing has been read. -/
def Record.empty : Record := ⟨.empty, []⟩

section
variable [Digests]

/-- The record after a command: a failed one rolls back. -/
def Db.exec (startOf : ScopeKey → ℕ) (db : Db) : Command → Db
  | .initializeIdentity source datasetId runId version =>
    (Tx.commit (initializeIdentity source datasetId runId version) db).2
  | .finishRun store status reason => (Tx.commit (finishRun store status reason) db).2
  | .initializeWorkerStatuses store workers =>
    (Tx.commit (initializeWorkerStatuses store workers) db).2
  | .recordWorkerFailure store worker error degradedAfter =>
    (Tx.commit (recordWorkerFailure store worker error degradedAfter) db).2
  | .recordWorkerSuccess store worker =>
    (Tx.commit (recordWorkerSuccess store worker) db).2
  | .record store events method inst => (Tx.commit (recordBatch store events method inst) db).2
  | .recordSnapshot store events method metadata =>
    (Tx.commit (recordSnapshot store events method metadata) db).2
  | .recordTipObservation store tip previous method observedAt =>
    (Tx.commit (recordTipObservation store tip previous method observedAt) db).2
  | .historyCoverage _ _ => db
  | .beginHistoryCycle store scope coveredTip targetTip floorHash floorHeight page =>
    (Tx.commit (beginHistoryCycle store scope (startOf (store.key scope)) coveredTip
      targetTip floorHash floorHeight page) db).2
  | .setHistoryFloor store scope cursor floorHash floorHeight =>
    (Tx.commit (setHistoryFloor store scope cursor floorHash floorHeight) db).2
  | .recordHistoryPage store events page => (Tx.commit (recordHistoryPageTx store events page) db).2
  | .resizeHistoryPage store scope page error =>
    (Tx.commit (resizeHistoryPage store scope page error) db).2
  | .resumeHistory store scope => (Tx.commit (resumeHistory store scope) db).2
  | .settleHistoryFailure store scope error =>
    (Tx.commit (settleHistoryFailure store scope error) db).2
  | .supersedeHistory store stream sidechain id reason =>
    (Tx.commit (supersedeHistory store stream sidechain id reason) db).2
  | .recordFeeEnrichment store candidates sourceEventId event =>
    (Tx.commit (recordFeeEnrichment store candidates sourceEventId event) db).2
  | .recordFeeFailure store sourceEventId error =>
    (Tx.commit (recordFeeFailure store sourceEventId error) db).2

/-- What a command reads of covered tips. -/
def Command.reads (db : Db) : Command → List (ScopeKey × ObservedBlock)
  | .historyCoverage store scope =>
    (((db.coverage (store.key scope)).bind (·.coveredTip)).map fun tip =>
      (store.key scope, tip.observed)).toList
  | _ => []

/-- The covered tips a command hands back to the record. -/
def Command.coveredTips : Command → List (ScopeKey × ObservedBlock)
  | .beginHistoryCycle store scope coveredTip _ _ _ _ =>
    (coveredTip.map fun tip => (store.key scope, tip)).toList
  | _ => []

/-- One command; a covered tip it hands back must have been read from its scope. -/
def Record.step (startOf : ScopeKey → ℕ) (r : Record) (c : Command) : Option Record :=
  if c.coveredTips ⊆ r.readings then some ⟨r.db.exec startOf c, r.readings ++ c.reads r.db⟩
  else none

/-- Every covered tip that was read is certified. -/
def Record.Inv (startOf : ScopeKey → ℕ) (r : Record) : Prop :=
  CertifiedPrefix startOf r.db ∧
    ∀ p ∈ r.readings, ∃ b : Block, p.2 = b.observed ∧ r.db.certifies p.1 b

/-- Every command keeps certification, provided the covered tips it hands back are
certified. -/
theorem Db.exec_keeps (db : Db) (c : Command)
    (hc : ∀ p ∈ c.coveredTips, ∃ b : Block, p.2 = b.observed ∧ db.certifies p.1 b) :
    Keeps startOf db (db.exec startOf c) := by
  have evidence {α : Type} {x : Write α} (h : Tx.Guarantees Grows x) :
      Keeps startOf db (Tx.commit x db).2 :=
    (h.mono fun _ _ hg => hg.keeps).commit db
  have bookkeeping {α : Type} {x : Write α} (h : Tx.Guarantees SameFacts x) :
      Keeps startOf db (Tx.commit x db).2 :=
    evidence (h.mono fun _ _ hs => hs.grows)
  cases c with
  | initializeIdentity => exact bookkeeping (sameFacts_initializeIdentity _ _ _ _)
  | finishRun => exact bookkeeping (sameFacts_finishRun _ _ _)
  | initializeWorkerStatuses => exact bookkeeping (sameFacts_initializeWorkerStatuses _ _)
  | recordWorkerFailure => exact bookkeeping (sameFacts_recordWorkerFailure _ _ _ _)
  | recordWorkerSuccess => exact bookkeeping (sameFacts_recordWorkerSuccess _ _)
  | record => exact evidence (grows_recordBatch _ _ _ _)
  | recordSnapshot => exact evidence (grows_recordSnapshot _ _ _ _)
  | recordTipObservation => exact bookkeeping (sameFacts_recordTipObservation _ _ _ _ _)
  | historyCoverage => exact Std.Refl.refl _
  | beginHistoryCycle store scope coveredTip targetTip floorHash floorHeight page =>
    have hcovered : ∀ tip ∈ coveredTip, ∃ b : Block, tip = b.observed ∧
        db.certifies (store.key scope) b :=
      fun tip htip => hc (store.key scope, tip) (by
        rw [Option.mem_def.mp htip]
        exact List.mem_singleton_self _)
    exact Tx.commit_rel fun _ _ h => keeps_beginHistoryCycle hcovered h
  | setHistoryFloor => exact (keeps_setHistoryFloor _ _ _).commit db
  | recordHistoryPage => exact (keeps_recordHistoryPage _ _).commit db
  | resizeHistoryPage => exact (keeps_resizeHistoryPage _ _).commit db
  | resumeHistory => exact keeps_resumeHistory.commit db
  | settleHistoryFailure => exact (keeps_settleHistoryFailure _).commit db
  | supersedeHistory => exact (keeps_supersedeHistory _ _ _ _).commit db
  | recordFeeEnrichment => exact evidence (grows_recordFeeEnrichment _ _ _ _)
  | recordFeeFailure => exact bookkeeping (sameFacts_scheduleFeeJob _ _ _ _)

/-- One command keeps the invariant. -/
theorem Record.step_inv (r : Record) (c : Command) (r' : Record) (hr : r.Inv startOf)
    (h : r.step startOf c = some r') : r'.Inv startOf := by
  unfold Record.step at h
  split_ifs at h with hc
  cases h
  have hkeeps : Keeps startOf r.db (r.db.exec startOf c) :=
    r.db.exec_keeps c fun p hp => hr.2 p (hc hp)
  refine ⟨hkeeps.inv hr.1, fun p hp => ?_⟩
  rcases List.mem_append.mp hp with hp | hp
  · obtain ⟨b, hb, hcert⟩ := hr.2 p hp
    exact ⟨b, hb, hcert.mono hkeeps.certified⟩
  · cases c with
    | historyCoverage store scope =>
      obtain ⟨tip, htip, rfl⟩ := Option.map_eq_some_iff.mp (Option.mem_toList.mp hp)
      obtain ⟨row, hrow, hcov⟩ := Option.bind_eq_some_iff.mp htip
      exact ⟨tip, rfl, (hr.1.covered _ row tip hrow hcov).mono hkeeps.certified⟩
    | _ => cases hp

/-- **Certified prefix closure.** In every state a sequence of commands leads to, a
certified block is a recorded fact and stands at its scope's start height or on a
certified parent, a proven tip is certified, and below the proven tip of a complete
scope an unbroken chain of facts, one a height, leads down to the start. -/
theorem certified_prefix_closed (startOf : ScopeKey → ℕ) (cs : List Command) (r : Record)
    (h : run (Record.step startOf) Record.empty cs = some r) :
    (∀ c ∈ r.db.certified, c.hasFact r.db ∧ c.stands r.db (startOf c.scope)) ∧
    (∀ k row, r.db.coverage k = some row → row.coverageStartHeight = startOf k) ∧
    (∀ k row tip, r.db.coverage k = some row → row.coveredTip = some tip →
      r.db.certifies k tip) ∧
    ∀ k row, r.db.coverage k = some row → row.status = .complete →
      ∃ tip chain, row.coveredTip = some tip ∧
        IsFactChain r.db k tip row.coverageStartHeight chain := by
  have hr : r.Inv startOf :=
    run_invariant Record.step_inv ⟨CertifiedPrefix.empty, by simp [Record.empty]⟩ h
  refine ⟨fun c hc => ⟨hr.1.fact c hc, hr.1.stands c hc⟩, hr.1.start, hr.1.covered,
    fun k row hrow hstatus => ?_⟩
  obtain ⟨tip, htip⟩ := Option.isSome_iff_exists.mp (hr.1.complete k row hrow hstatus)
  obtain ⟨c, hc, rfl, hhash, hheight⟩ := hr.1.covered k row tip hrow htip
  obtain ⟨chain, hchain⟩ := hr.1.exists_factChain hc
  rw [hhash, hheight] at hchain
  exact ⟨tip, chain, htip, hr.1.start _ row hrow ▸ hchain⟩

end

/-! ### A node's two blocks -/

namespace TwoBlocks

/-- The block at the start height. -/
def first : MonitorEvent := .node (some (.mainchainBlock ⟨some ⟨bytes32 1, bytes32 0, 5, [], [], 0⟩, []⟩))

/-- Its child. -/
def second : MonitorEvent := .node (some (.mainchainBlock ⟨some ⟨bytes32 2, bytes32 1, 6, [], [], 0⟩, []⟩))

/-- The digests of the two payloads. -/
@[reducible] def digests : Digests := .ofPayloads [
  (first, 0x1325fc1b6892711f634b95b12d4247f0795c88e277e23d05d5411ea02282645a),
  (second, 0xfcf0f5e9e89665fb0351924db3b8d0ff15732531b9315bf89024f21704cd5c7f)]

/-- The node's import of both, in one page. -/
def commands : List Command :=
  let store : Store := ⟨.node, 0, 0, 9⟩
  let scope : HistoryScope := ⟨.mainchainBlock, none, none⟩
  let tip : ObservedBlock := .atHeight (bytes32 2) 6
  [.initializeIdentity .node 0 0 9,
    .beginHistoryCycle store scope none tip none (some 4) 100,
    .recordHistoryPage store
      [⟨0, some tip, some second⟩, ⟨0, some (.atHeight (bytes32 1) 5), some first⟩]
      ⟨scope, tip, none⟩]

end TwoBlocks

/-- Both blocks of the node's import end up certified, the first at the start height. -/
theorem certified_prefix_closed_twoBlocks :
    ∃ r, run (@Record.step TwoBlocks.digests fun _ => 5) Record.empty TwoBlocks.commands = some r ∧
      r.db.certified.length = 2 ∧
      (∀ c ∈ r.db.certified, c.hasFact r.db ∧ c.stands r.db 5) ∧
      ∀ k row, r.db.coverage k = some row → row.status = .complete →
        ∃ tip chain, row.coveredTip = some tip ∧
          IsFactChain r.db k tip row.coverageStartHeight chain := by
  have hrun : ((run (@Record.step TwoBlocks.digests fun _ => 5) Record.empty
      TwoBlocks.commands).map (·.db.certified.length)) = some 2 := by decide
  obtain ⟨r, hr, hlen⟩ := Option.map_eq_some_iff.mp hrun
  obtain ⟨hcertified, -, -, hcomplete⟩ :=
    @certified_prefix_closed TwoBlocks.digests (fun _ => 5) TwoBlocks.commands r hr
  exact ⟨r, hr, hlen, hcertified, hcomplete⟩

end Bip300Monitor
