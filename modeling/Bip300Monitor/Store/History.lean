import Bip300Monitor.Store.Certification
import Mathlib.Data.List.MinMax

/-!
# History operations

The operations of `shared/src/store.rs` on `history_coverage`: the durable progress of
one bounded historical import. Each is one transaction. An operation that names the
row it changes by its cursor or its status fails when the row has moved on.

## What is proved

One lemma an operation (`beginHistoryCycle_inv`, `setHistoryFloor_inv`,
`recordHistoryPageTx_inv`, …) says all that a success can have done to the record. A row
becomes complete only through the final page of a scope without a retained conflict,
and then through certification.
-/

namespace Bip300Monitor

open Protobuf Transaction

/-- The scope of an import: the three arguments the operations take. -/
structure HistoryScope where
  stream : StreamName
  sidechain : Option ℕ
  sidechainInstanceId : Option String
  deriving DecidableEq, Repr

/-- The key of a scope in the handle's dataset. -/
def Store.key (store : Store) (scope : HistoryScope) : ScopeKey :=
  store.scopeKey scope.stream scope.sidechain scope.sidechainInstanceId

/-- The stream's stable name. -/
def StreamName.asStr : StreamName → String
  | .block => "block"
  | .mainchainBlock => "mainchain_block"

/-- `validate_history_scope`. -/
def validateHistoryScope (scope : HistoryScope) : Result Unit :=
  if scope.sidechain.isSome ≠ scope.sidechainInstanceId.isSome then
    .error (.bail "history sidechain and sidechain instance must be present together")
  else .ok ()

/-! ### Writing a coverage row -/

/-- The checks of `history_coverage` that the types leave open. -/
def CoverageRow.valid (row : CoverageRow) (k : ScopeKey) : Prop :=
  (∀ slot ∈ k.sidechain, slot ≤ 255) ∧ (∀ tip ∈ row.coveredTip, tip.hash.length = 32) ∧
    row.targetTip.hash.length = 32 ∧ (∀ hash ∈ row.floorHash, hash.length = 32) ∧
    (∀ next ∈ row.next, next.hash.length = 32) ∧
    (row.floorHash = none ∨ row.floorHeight ≠ none) ∧ 0 < row.effectivePageBlocks ∧
    (row.status = .complete ↔ row.next = none)

instance (row : CoverageRow) (k : ScopeKey) : Decidable (row.valid k) :=
  inferInstanceAs (Decidable (_ ∧ _))

/-- A status other than complete can be exchanged for another. -/
theorem CoverageRow.valid.of_status {row : CoverageRow} {k : ScopeKey} (h : row.valid k)
    (hrow : row.status ≠ .complete) {status : HistoryStatus} (hstatus : status ≠ .complete)
    (error : Option String) :
    CoverageRow.valid { row with status := status, lastError := error } k := by
  obtain ⟨h₁, h₂, h₃, h₄, h₅, h₆, h₇, h₈⟩ := h
  exact ⟨h₁, h₂, h₃, h₄, h₅, h₆, h₇, iff_of_false hstatus (mt h₈.mpr hrow)⟩

/-- Write a row: the trigger first, then the checks. -/
def writeCoverage (k : ScopeKey) (row : CoverageRow) : Write Unit := do
  certifyHistory k row
  Tx.require (row.valid k) (.bail "the row violates a check constraint of history_coverage")
  Tx.modify fun db => db.setCoverage k row

/-- `UPDATE history_coverage SET … WHERE`: the row as it is afterwards, if there was one. -/
def updateCoverage (k : ScopeKey) (cond : CoverageRow → Prop) [DecidablePred cond]
    (set : CoverageRow → CoverageRow) : Write (Option CoverageRow) := do
  let db ← Tx.read
  match db.coverage k with
  | none => pure none
  | some row =>
    if cond row then do
      writeCoverage k (set row)
      pure (some (set row))
    else pure none

/-! ### The operations -/

/-- `history_coverage`. -/
def historyCoverage (store : Store) (scope : HistoryScope) : Write (Option CoverageRow) := do
  Tx.lift (validateHistoryScope scope)
  let db ← Tx.read
  pure (db.coverage (store.key scope))

/-- `certified_history_floor`: the highest certified block among the hashes. -/
def certifiedHistoryFloor (store : Store) (scope : HistoryScope) (hashes : List Bytes) :
    Write (Option ObservedBlock) := do
  let db ← Tx.read
  let rows := db.certified.filter fun c => c.scope = store.key scope ∧ c.blockHash ∈ hashes
  pure ((rows.argmax (·.height)).map fun c => .atHeight c.blockHash c.height)

/-- `set_history_floor`. -/
def setHistoryFloor (store : Store) (scope : HistoryScope) (cursor : ObservedBlock)
    (floorHash : Option Bytes) (floorHeight : Option ℕ) : Write Unit := do
  let height ← Tx.lift (Result.transpose (floorHeight.map heightToI32))
  let updated ← updateCoverage (store.key scope)
    (fun row => row.next.map (·.hash) = some cursor.hash ∧ row.status = .running)
    fun row => { row with floorHash := floorHash, floorHeight := height }
  Tx.require updated.isSome (.bail "history cursor changed while setting the certified floor")

/-- `begin_history_cycle`: start a new backwards walk; the rows recorded by earlier walks
still count, and so does a proven tip when none is given. -/
def beginHistoryCycle (store : Store) (scope : HistoryScope) (coverageStartHeight : ℕ)
    (coveredTip : Option ObservedBlock) (targetTip : ObservedBlock) (floorHash : Option Bytes)
    (floorHeight : Option ℕ) (effectivePageBlocks : ℕ) : Write CoverageRow := do
  Tx.lift (validateHistoryScope scope)
  let start ← Tx.lift (heightToI32 coverageStartHeight)
  let covered ← Tx.lift (optionalBlockParts coveredTip)
  let targetHeight ← Tx.lift (requiredHeight targetTip "history target tip")
  let targetHeight ← Tx.lift (heightToI32 targetHeight)
  let floorHeight ← Tx.lift (Result.transpose (floorHeight.map heightToI32))
  let pageBlocks ← Tx.lift (heightToI32 effectivePageBlocks)
  let db ← Tx.read
  let k := store.key scope
  let previous := db.coverage k
  Tx.require (previous.isSome ∨ ∀ id ∈ k.sidechainInstanceId, db.isRegistered k.datasetId id)
    (.bail "the row violates the foreign key history_coverage_sidechain_instance")
  let row : CoverageRow := {
    coverageStartHeight := start
    coveredTip := covered <|> previous.bind (·.coveredTip)
    targetTip := ⟨targetTip.hash, targetHeight⟩
    floorHash := floorHash
    floorHeight := floorHeight
    next := some ⟨targetTip.hash, targetHeight⟩
    status := .running
    rowsRecorded := previous.elim 0 (·.rowsRecorded)
    effectivePageBlocks := pageBlocks
    lastError := none }
  writeCoverage k row
  pure row

/-- `resize_history_page`. -/
def resizeHistoryPage (store : Store) (scope : HistoryScope) (effectivePageBlocks : ℕ)
    (error : String) : Write Unit := do
  Tx.lift (validateHistoryScope scope)
  let pageBlocks ← Tx.lift (heightToI32 effectivePageBlocks)
  let updated ← updateCoverage (store.key scope) (fun row => row.status = .running)
    fun row => { row with effectivePageBlocks := pageBlocks, lastError := some error }
  Tx.require updated.isSome
    (.bail (scope.stream.asStr ++ " history was not running while resizing its pages"))

/-- `resume_history`: resume the exact cursor left by a previous failure. -/
def resumeHistory (store : Store) (scope : HistoryScope) : Write Unit := do
  Tx.lift (validateHistoryScope scope)
  let updated ← updateCoverage (store.key scope)
    (fun row => (row.status = .error ∨ row.status = .superseded) ∧ row.next ≠ none)
    fun row => { row with status := .running, lastError := none }
  Tx.require updated.isSome (.bail (scope.stream.asStr ++ " history had no resumable cursor"))

/-- The scope is global, or its instance is current. -/
def Db.scopeIsCurrent (db : Db) (k : ScopeKey) : Prop :=
  k.sidechain = none ∨ ∃ c ∈ db.currentInstances, c.datasetId = k.datasetId ∧
    some c.sidechain = k.sidechain ∧ some c.sidechainInstanceId = k.sidechainInstanceId

instance (db : Db) (k : ScopeKey) : Decidable (db.scopeIsCurrent k) :=
  inferInstanceAs (Decidable (_ ∨ ∃ c ∈ db.currentInstances, _))

/-- `settle_history_failure`: a failed cursor is an error, or superseded when its instance
is no longer current. Returns the status the row then has. -/
def settleHistoryFailure (store : Store) (scope : HistoryScope) (error : String) :
    Write HistoryStatus := do
  Tx.lift (validateHistoryScope scope)
  let db ← Tx.read
  let k := store.key scope
  let updated ← updateCoverage k (fun row => row.status = .running) fun row =>
    if db.scopeIsCurrent k then { row with status := .error, lastError := some error }
    else { row with
      status := .superseded
      lastError := some "sidechain instance is no longer active" }
  match updated with
  | some row => pure row.status
  | none => do
    let row ← Tx.expect (db.coverage k)
      (.bail (scope.stream.asStr ++ " history coverage does not exist"))
    pure row.status

/-- `supersede_history`: stop extending an incomplete cursor whose activation is no longer
current. -/
def supersedeHistory (store : Store) (stream : StreamName) (sidechain : ℕ)
    (sidechainInstanceId : String) (reason : String) : Write Unit := do
  let _ ← updateCoverage (store.scopeKey stream sidechain sidechainInstanceId)
    (fun row => row.status = .running ∨ row.status = .error)
    fun row => { row with status := .superseded, lastError := some reason }
  pure ()

/-- `HISTORY_CONFLICT`: the error text of a scope suspended by conflicting facts. -/
def historyConflict : String := "conflicting immutable block facts"

/-- `HistoryConflict`: the typed error of such a page. -/
def HistoryConflict : Failure :=
  ⟨"conflicting immutable block facts retained; history certification suspended", [], true⟩

/-- New cursor values committed together with one historical page. -/
structure HistoryPage where
  scope : HistoryScope
  expectedNext : ObservedBlock
  next : Option ObservedBlock
  deriving DecidableEq, Repr

/-- The blocks a page is anchored to. -/
def pageHashes (events : List Event) : List Bytes :=
  events.filterMap fun event => event.observedAtBlock.map (·.hash)

/-- A retained conflict among the facts of a scope about the page's blocks. -/
def Db.retainsPageConflict (db : Db) (k : ScopeKey) (hashes : List Bytes) : Prop :=
  ∃ c ∈ db.conflicts, ∃ e ∈ db.events, e.id = c.firstEventId ∧ e.inScope k ∧
    ∃ hash ∈ e.blockHash, hash ∈ hashes

instance (db : Db) (k : ScopeKey) (hashes : List Bytes) :
    Decidable (db.retainsPageConflict k hashes) :=
  inferInstanceAs (Decidable (∃ c ∈ db.conflicts, _))

/-- The page meets a conflict: one about its blocks or, for the final page, any in the
scope, since completing certifies all of it. -/
def Db.pageConflict (db : Db) (k : ScopeKey) (hashes : List Bytes) (final : Bool) : Prop :=
  db.retainsPageConflict k hashes ∨ (final = true ∧ db.retainsConflict k)

instance (db : Db) (k : ScopeKey) (hashes : List Bytes) (final : Bool) :
    Decidable (db.pageConflict k hashes final) := inferInstanceAs (Decidable (_ ∨ _))

/-- The row after a page: what the `UPDATE` of `record_history_page` sets. -/
def CoverageRow.afterPage (row : CoverageRow) (expected : Block) (next : Option Block)
    (conflict : Bool) (inserted : ℕ) : CoverageRow :=
  let complete := next.isNone && !conflict
  { row with
    next := if conflict then some expected else next
    status := if conflict then .error else if complete then .complete else .running
    coveredTip := if complete then some row.targetTip else row.coveredTip
    rowsRecorded := row.rowsRecorded + inserted
    lastError := if conflict then some historyConflict else none }

/-- The final page keeps the checks: the target becomes the proven tip. -/
theorem CoverageRow.valid.afterFinalPage {row : CoverageRow} {k : ScopeKey} (h : row.valid k)
    (expected : Block) (inserted : ℕ) : (row.afterPage expected none false inserted).valid k := by
  obtain ⟨hslot, -, htarget, hfloor, -, hboth, hpage, -⟩ := h
  refine ⟨hslot, fun tip htip => ?_, htarget, hfloor, fun next hnext => ?_, hboth, hpage,
    iff_of_true rfl rfl⟩
  · cases htip
    exact htarget
  · cases hnext

section
variable [Digests]

/-- The rows of a page, within its transaction. -/
def insertPage (store : Store) (events : List Event) (scope : HistoryScope) : Write ℕ := do
  validateExplicit store.datasetId scope.sidechain scope.sidechainInstanceId
  let first ← reserveCaptureSequences store.runId events.length
  insertAll store .backfill none scope.sidechain scope.sidechainInstanceId first events
    fun _ => none

/-- `record_history_page`: one bounded page and its cursor, atomically. A page that meets a
conflict is kept, and its transaction commits, but the scope is suspended and the caller
is told so: the second component. -/
def recordHistoryPageTx (store : Store) (events : List Event) (page : HistoryPage) :
    Write (ℕ × Bool) := do
  Tx.require (events ≠ []) (.bail "a historical page cannot be empty")
  Tx.lift (validateHistoryScope page.scope)
  let expectedHeight ← Tx.lift (requiredHeight page.expectedNext "history page cursor")
  let expectedHeight ← Tx.lift (heightToI32 expectedHeight)
  let next ← Tx.lift (optionalBlockParts page.next)
  let inserted ← insertPage store events page.scope
  let db ← Tx.read
  let k := store.key page.scope
  let conflict := decide (db.pageConflict k (pageHashes events) page.next.isNone)
  let expected : Block := ⟨page.expectedNext.hash, expectedHeight⟩
  let updated ← updateCoverage k (fun row => row.next = some expected ∧ row.status = .running)
    fun row => row.afterPage expected next conflict inserted
  Tx.require updated.isSome
    (.bail (page.scope.stream.asStr ++ " history cursor changed before its page could be committed"))
  pure (inserted, conflict)

/-- `record_history_page` as its caller sees it. -/
def recordHistoryPage (store : Store) (events : List Event) (page : HistoryPage) (db : Db) :
    Result ℕ × Db :=
  match Tx.commit (recordHistoryPageTx store events page) db with
  | (.ok (inserted, conflict), db') => (if conflict then .error HistoryConflict else .ok inserted, db')
  | (.error e, db') => (.error e, db')

end

/-! ### What each operation can have done -/

section
variable {k : ScopeKey} {s t : Db}

/-- Writing a row that is not complete touches no other table. -/
theorem writeCoverage_eq_ok {row : CoverageRow} (h : row.status ≠ .complete) :
    writeCoverage k row s = .ok ((), t) ↔ row.valid k ∧ t = s.setCoverage k row := by
  simp only [writeCoverage, certifyHistory, if_pos h, Tx.bind_eq_ok, Tx.pure_eq_ok,
    Tx.require_eq_ok, Tx.modify_eq_ok]
  constructor
  · rintro ⟨_, _, ⟨-, rfl⟩, _, _, ⟨hv, rfl⟩, rfl⟩
    exact ⟨hv, rfl⟩
  · rintro ⟨hv, rfl⟩
    exact ⟨⟨⟩, s, ⟨trivial, rfl⟩, ⟨⟩, s, ⟨hv, rfl⟩, rfl⟩

theorem writeCoverage_inv {row : CoverageRow} (h : writeCoverage k row s = .ok ((), t)) :
    row.valid k ∧ ∃ u, certifyHistory k row s = .ok ((), u) ∧ t = u.setCoverage k row := by
  simp only [writeCoverage, Tx.bind_eq_ok, Tx.require_eq_ok, Tx.modify_eq_ok] at h
  obtain ⟨_, u, hu, _, _, ⟨hv, rfl⟩, rfl⟩ := h
  exact ⟨hv, _, hu, rfl⟩

/-- An update changes the row if there is one that meets its condition. -/
theorem updateCoverage_eq_ok {cond : CoverageRow → Prop} [DecidablePred cond]
    {set : CoverageRow → CoverageRow} {r : Option CoverageRow} :
    updateCoverage k cond set s = .ok (r, t) ↔
      (r = none ∧ t = s ∧ ∀ row, s.coverage k = some row → ¬ cond row) ∨
      ∃ row, s.coverage k = some row ∧ cond row ∧ r = some (set row) ∧
        writeCoverage k (set row) s = .ok ((), t) := by
  simp only [updateCoverage, Tx.bind_eq_ok, Tx.read_eq_ok]
  cases hrow : s.coverage k with
  | none => simp [hrow, @eq_comm _ t s, @eq_comm _ r]
  | some row =>
    by_cases hc : cond row
    · constructor
      · rintro ⟨_, _, ⟨rfl, rfl⟩, h⟩
        simp only [hrow, hc, if_true, Tx.bind_eq_ok, Tx.pure_eq_ok] at h
        obtain ⟨_, u, hu, rfl, rfl⟩ := h
        exact .inr ⟨row, rfl, hc, rfl, hu⟩
      · rintro (⟨-, -, h⟩ | ⟨row', hrow', hc', rfl, h⟩)
        · exact absurd hc (h row rfl)
        · cases hrow'
          refine ⟨_, _, ⟨rfl, rfl⟩, ?_⟩
          simp only [hrow, hc, if_true, Tx.bind_eq_ok, Tx.pure_eq_ok]
          exact ⟨⟨⟩, t, h, trivial, rfl⟩
    · simp [hrow, hc, @eq_comm _ t s, @eq_comm _ r]

/-- An update that must find its row, to a row that is not complete. -/
theorem updateCoverage_require_inv {cond : CoverageRow → Prop} [DecidablePred cond]
    {set : CoverageRow → CoverageRow} {e : Failure} (hset : ∀ row, cond row → (set row).status ≠ .complete)
    (h : (updateCoverage k cond set >>= fun updated => Tx.require updated.isSome e) s = .ok ((), t)) :
    ∃ row, s.coverage k = some row ∧ cond row ∧ (set row).valid k ∧
      t = s.setCoverage k (set row) := by
  obtain ⟨r, u, hu, h⟩ := Tx.bind_eq_ok.mp h
  obtain ⟨hsome, rfl⟩ := Tx.require_eq_ok.mp h
  rcases updateCoverage_eq_ok.mp hu with ⟨rfl, -⟩ | ⟨row, hrow, hc, rfl, hw⟩
  · cases hsome
  · obtain ⟨hv, ht⟩ := (writeCoverage_eq_ok (hset row hc)).mp hw
    exact ⟨row, hrow, hc, hv, ht⟩

end

variable {store : Store} {scope : HistoryScope} {s t : Db}

theorem historyCoverage_inv {r : Option CoverageRow}
    (h : historyCoverage store scope s = .ok (r, t)) : t = s ∧ r = s.coverage (store.key scope) := by
  simp only [historyCoverage, Tx.bind_eq_ok, Tx.lift_eq_ok, Tx.read_eq_ok, Tx.pure_eq_ok] at h
  obtain ⟨_, _, ⟨-, rfl⟩, _, _, ⟨rfl, rfl⟩, rfl, rfl⟩ := h
  exact ⟨rfl, rfl⟩

/-- A certified floor is a certified block among the hashes asked for. -/
theorem certifiedHistoryFloor_inv {hashes : List Bytes} {r : Option ObservedBlock}
    (h : certifiedHistoryFloor store scope hashes s = .ok (r, t)) :
    t = s ∧ ∀ floor, r = some floor → ∃ c ∈ s.certified, c.scope = store.key scope ∧
      c.blockHash ∈ hashes ∧ floor = .atHeight c.blockHash c.height := by
  simp only [certifiedHistoryFloor, Tx.bind_eq_ok, Tx.read_eq_ok, Tx.pure_eq_ok] at h
  obtain ⟨_, _, ⟨rfl, rfl⟩, rfl, rfl⟩ := h
  refine ⟨rfl, fun floor hfloor => ?_⟩
  obtain ⟨c, hc, rfl⟩ := Option.map_eq_some_iff.mp hfloor
  obtain ⟨hc, hmem⟩ := List.mem_filter.mp (List.argmax_mem hc)
  obtain ⟨hscope, hhash⟩ := of_decide_eq_true hmem
  exact ⟨c, hc, hscope, hhash, rfl⟩

theorem setHistoryFloor_inv {cursor : ObservedBlock} {floorHash : Option Bytes}
    {floorHeight : Option ℕ}
    (h : setHistoryFloor store scope cursor floorHash floorHeight s = .ok ((), t)) :
    ∃ row, s.coverage (store.key scope) = some row ∧ row.next.map (·.hash) = some cursor.hash ∧
      row.status = .running ∧
      CoverageRow.valid { row with floorHash := floorHash, floorHeight := floorHeight }
        (store.key scope) ∧
      t = s.setCoverage (store.key scope)
        { row with floorHash := floorHash, floorHeight := floorHeight } := by
  obtain ⟨height, hheight, h⟩ := Tx.lift_bind_eq_ok.mp h
  obtain ⟨row, hrow, ⟨hnext, hrun⟩, hvalid, ht⟩ := updateCoverage_require_inv
    (fun row hc => by simp [hc.2]) h
  have heq : height = floorHeight := by
    rcases Result.transpose_map_eq_ok.mp hheight with ⟨rfl, rfl⟩ | ⟨a, b, rfl, hab, rfl⟩
    · rfl
    · rw [(heightToI32_eq_ok.mp hab).2]
  rw [heq] at hvalid ht
  exact ⟨row, hrow, hnext, hrun, hvalid, ht⟩

theorem resizeHistoryPage_inv {page : ℕ} {error : String}
    (h : resizeHistoryPage store scope page error s = .ok ((), t)) :
    ∃ row, s.coverage (store.key scope) = some row ∧ row.status = .running ∧
      CoverageRow.valid { row with effectivePageBlocks := page, lastError := some error }
        (store.key scope) ∧
      t = s.setCoverage (store.key scope)
        { row with effectivePageBlocks := page, lastError := some error } := by
  obtain ⟨_, -, h⟩ := Tx.lift_bind_eq_ok.mp h
  obtain ⟨page', hpage, h⟩ := Tx.lift_bind_eq_ok.mp h
  rw [(heightToI32_eq_ok.mp hpage).2] at h
  exact updateCoverage_require_inv (fun row hc => by simp [hc]) h

theorem resumeHistory_inv (h : resumeHistory store scope s = .ok ((), t)) :
    ∃ row, s.coverage (store.key scope) = some row ∧
      (row.status = .error ∨ row.status = .superseded) ∧ row.next ≠ none ∧
      CoverageRow.valid { row with status := .running, lastError := none } (store.key scope) ∧
      t = s.setCoverage (store.key scope) { row with status := .running, lastError := none } := by
  obtain ⟨_, -, h⟩ := Tx.lift_bind_eq_ok.mp h
  obtain ⟨row, hrow, ⟨hstatus, hnext⟩, hvalid, ht⟩ :=
    updateCoverage_require_inv (fun _ _ => by simp) h
  exact ⟨row, hrow, hstatus, hnext, hvalid, ht⟩

/-- A superseded row keeps everything but its status and its error text. -/
theorem supersedeHistory_inv {stream : StreamName} {slot : ℕ} {id reason : String}
    (h : supersedeHistory store stream slot id reason s = .ok ((), t)) :
    (t = s ∧ ∀ row, s.coverage (store.key ⟨stream, some slot, some id⟩) = some row →
        ¬ (row.status = .running ∨ row.status = .error)) ∨
      ∃ row, s.coverage (store.key ⟨stream, some slot, some id⟩) = some row ∧
        (row.status = .running ∨ row.status = .error) ∧
        CoverageRow.valid { row with status := .superseded, lastError := some reason }
          (store.key ⟨stream, some slot, some id⟩) ∧
        t = s.setCoverage (store.key ⟨stream, some slot, some id⟩)
          { row with status := .superseded, lastError := some reason } := by
  obtain ⟨r, u, hu, h⟩ := Tx.bind_eq_ok.mp h
  obtain ⟨-, rfl⟩ := Tx.pure_eq_ok.mp h
  rcases updateCoverage_eq_ok.mp hu with ⟨-, rfl, hno⟩ | ⟨row, hrow, hc, -, hw⟩
  · exact .inl ⟨rfl, hno⟩
  · obtain ⟨hvalid, rfl⟩ := (writeCoverage_eq_ok (by simp)).mp hw
    exact .inr ⟨row, hrow, hc, hvalid, rfl⟩

/-- Settling changes a running row to an error or to superseded, by what is current, and
no other row. -/
theorem settleHistoryFailure_inv {error : String} {status : HistoryStatus}
    (h : settleHistoryFailure store scope error s = .ok (status, t)) :
    ∃ row, s.coverage (store.key scope) = some row ∧
      ((row.status ≠ .running ∧ status = row.status ∧ t = s) ∨
        (row.status = .running ∧ s.scopeIsCurrent (store.key scope) ∧ status = .error ∧
          t = s.setCoverage (store.key scope)
            { row with status := .error, lastError := some error }) ∨
        (row.status = .running ∧ ¬ s.scopeIsCurrent (store.key scope) ∧ status = .superseded ∧
          t = s.setCoverage (store.key scope) { row with
            status := .superseded, lastError := some "sidechain instance is no longer active" })) := by
  obtain ⟨_, -, h⟩ := Tx.lift_bind_eq_ok.mp h
  have h := Tx.read_bind_eq_ok.mp h
  obtain ⟨r, u, hu, h⟩ := Tx.bind_eq_ok.mp h
  rcases updateCoverage_eq_ok.mp hu with ⟨rfl, rfl, hno⟩ | ⟨row, hrow, hc, rfl, hw⟩
  · obtain ⟨row, hrow, h⟩ := Tx.expect_bind_eq_ok.mp h
    obtain ⟨rfl, rfl⟩ := Tx.pure_eq_ok.mp h
    exact ⟨row, hrow, .inl ⟨hno row hrow, rfl, rfl⟩⟩
  · obtain ⟨rfl, rfl⟩ := Tx.pure_eq_ok.mp h
    refine ⟨row, hrow, .inr ?_⟩
    split_ifs at hw ⊢ with hcur
    · exact .inl ⟨hc, hcur, rfl, ((writeCoverage_eq_ok (by simp)).mp hw).2⟩
    · exact .inr ⟨hc, hcur, rfl, ((writeCoverage_eq_ok (by simp)).mp hw).2⟩

theorem optionalBlockParts_eq_ok {tip : Option ObservedBlock} {b : Option Block}
    (h : optionalBlockParts tip = .ok b) :
    (tip = none ∧ b = none) ∨ ∃ hash height, tip = some (.atHeight hash height) ∧
      height ≤ maxHeight ∧ b = some ⟨hash, height⟩ := by
  unfold optionalBlockParts at h
  split at h
  case h_1 => exact .inl ⟨rfl, by cases h; rfl⟩
  case h_2 observed =>
    obtain ⟨height, hheight, h⟩ := Result.bind_eq_ok.mp h
    obtain ⟨height', hheight', h⟩ := Result.bind_eq_ok.mp h
    obtain ⟨hle, heq⟩ := heightToI32_eq_ok.mp hheight'
    rw [← Result.pure_eq_ok.mp h]
    subst heq
    refine .inr ⟨observed.hash, height', ?_, hle, rfl⟩
    unfold requiredHeight at hheight
    split at hheight
    case h_1 height'' hobs =>
      cases hheight
      obtain ⟨hash, observedHeight⟩ := observed
      cases hobs
      rfl
    case h_2 => cases hheight

@[simp] theorem requiredHeight_eq_ok {block : ObservedBlock} {name : String} {height : ℕ} :
    requiredHeight block name = .ok height ↔ block.height = some height := by
  unfold requiredHeight
  split <;> simp_all

/-- A new cycle: its row, whatever the row was before. -/
theorem beginHistoryCycle_inv {start : ℕ} {coveredTip : Option ObservedBlock}
    {targetTip : ObservedBlock} {floorHash : Option Bytes} {floorHeight : Option ℕ} {page : ℕ}
    {row : CoverageRow}
    (h : beginHistoryCycle store scope start coveredTip targetTip floorHash floorHeight page s =
      .ok (row, t)) :
    ∃ covered targetHeight, validateHistoryScope scope = .ok () ∧
      optionalBlockParts coveredTip = .ok covered ∧ targetTip.height = some targetHeight ∧
      targetHeight ≤ maxHeight ∧ row.valid (store.key scope) ∧
      t = s.setCoverage (store.key scope) row ∧ row = {
        coverageStartHeight := start
        coveredTip := covered <|> (s.coverage (store.key scope)).bind (·.coveredTip)
        targetTip := ⟨targetTip.hash, targetHeight⟩
        floorHash := floorHash
        floorHeight := floorHeight
        next := some ⟨targetTip.hash, targetHeight⟩
        status := .running
        rowsRecorded := (s.coverage (store.key scope)).elim 0 (·.rowsRecorded)
        effectivePageBlocks := page
        lastError := none } := by
  obtain ⟨_, hscope, h⟩ := Tx.lift_bind_eq_ok.mp h
  obtain ⟨start', hstart, h⟩ := Tx.lift_bind_eq_ok.mp h
  obtain ⟨covered, hcovered, h⟩ := Tx.lift_bind_eq_ok.mp h
  obtain ⟨targetHeight, htarget, h⟩ := Tx.lift_bind_eq_ok.mp h
  obtain ⟨targetHeight', htarget', h⟩ := Tx.lift_bind_eq_ok.mp h
  obtain ⟨floorHeight', hfloor, h⟩ := Tx.lift_bind_eq_ok.mp h
  obtain ⟨page', hpage, h⟩ := Tx.lift_bind_eq_ok.mp h
  have h := Tx.read_bind_eq_ok.mp h
  obtain ⟨-, h⟩ := Tx.require_bind_eq_ok.mp h
  obtain ⟨⟨⟩, u, hw, h⟩ := Tx.bind_eq_ok.mp h
  obtain ⟨rfl, rfl⟩ := Tx.pure_eq_ok.mp h
  obtain ⟨-, rfl⟩ := heightToI32_eq_ok.mp hstart
  obtain ⟨hle, rfl⟩ := heightToI32_eq_ok.mp htarget'
  obtain ⟨-, rfl⟩ := heightToI32_eq_ok.mp hpage
  have hfloorEq : floorHeight' = floorHeight := by
    rcases Result.transpose_map_eq_ok.mp hfloor with ⟨rfl, rfl⟩ | ⟨a, b, rfl, hab, rfl⟩
    · rfl
    · rw [(heightToI32_eq_ok.mp hab).2]
  subst hfloorEq
  obtain ⟨hvalid, rfl⟩ := (writeCoverage_eq_ok (by simp)).mp hw
  exact ⟨covered, targetHeight', hscope, hcovered, requiredHeight_eq_ok.mp htarget, hle, hvalid,
    rfl, rfl⟩

section
variable [Digests]

theorem insertPage_inv {events : List Event} {inserted : ℕ}
    (h : insertPage store events scope s = .ok (inserted, t)) :
    ∃ first v, SameFacts s v ∧ insertAll store .backfill none scope.sidechain
      scope.sidechainInstanceId first events (fun _ => none) v = .ok (inserted, t) := by
  obtain ⟨_, u, hvalidate, h⟩ := Tx.bind_eq_ok.mp h
  obtain ⟨first, v, hreserve, h⟩ := Tx.bind_eq_ok.mp h
  exact ⟨first, v, IsTrans.trans _ _ _ ((reads_validateExplicit _ _ _).of_eq hvalidate)
    (sameFacts_reserveCaptureSequences _ _ hreserve), h⟩

theorem grows_insertPage (store : Store) (events : List Event) (scope : HistoryScope) :
    Tx.Guarantees Grows (insertPage store events scope) := by
  intro s n t h
  obtain ⟨first, v, hsv, h⟩ := insertPage_inv h
  exact IsTrans.trans _ _ _ hsv.grows (grows_insertAll _ _ _ _ _ _ _ _ h)

theorem recordHistoryPage_snd (events : List Event) (page : HistoryPage) (db : Db) :
    (recordHistoryPage store events page db).2 =
      (Tx.commit (recordHistoryPageTx store events page) db).2 := by
  unfold recordHistoryPage
  split <;> simp_all

/-- **What a committed page did**: its events are recorded, and the row, still at the
expected cursor, is moved by `afterPage`. -/
theorem recordHistoryPageTx_inv {events : List Event} {page : HistoryPage} {inserted : ℕ}
    {conflict : Bool} (h : recordHistoryPageTx store events page s = .ok ((inserted, conflict), t)) :
    events ≠ [] ∧ ∃ expectedHeight next row u,
      page.expectedNext.height = some expectedHeight ∧ optionalBlockParts page.next = .ok next ∧
      insertPage store events page.scope s = .ok (inserted, u) ∧
      conflict =
        decide (u.pageConflict (store.key page.scope) (pageHashes events) page.next.isNone) ∧
      s.coverage (store.key page.scope) = some row ∧
      row.next = some ⟨page.expectedNext.hash, expectedHeight⟩ ∧ row.status = .running ∧
      writeCoverage (store.key page.scope)
        (row.afterPage ⟨page.expectedNext.hash, expectedHeight⟩ next conflict inserted) u =
          .ok ((), t) := by
  obtain ⟨hne, h⟩ := Tx.require_bind_eq_ok.mp h
  obtain ⟨_, -, h⟩ := Tx.lift_bind_eq_ok.mp h
  obtain ⟨expectedHeight, hexpected, h⟩ := Tx.lift_bind_eq_ok.mp h
  obtain ⟨expectedHeight', hexpected', h⟩ := Tx.lift_bind_eq_ok.mp h
  obtain ⟨next, hnext, h⟩ := Tx.lift_bind_eq_ok.mp h
  obtain ⟨inserted', u, hinsert, h⟩ := Tx.bind_eq_ok.mp h
  have h := Tx.read_bind_eq_ok.mp h
  obtain ⟨r, w, hupdate, h⟩ := Tx.bind_eq_ok.mp h
  obtain ⟨hsome, h⟩ := Tx.require_bind_eq_ok.mp h
  obtain ⟨heq, rfl⟩ := Tx.pure_eq_ok.mp h
  cases heq
  obtain ⟨-, rfl⟩ := heightToI32_eq_ok.mp hexpected'
  rcases updateCoverage_eq_ok.mp hupdate with ⟨rfl, -⟩ | ⟨row, hrow, ⟨hcursor, hrun⟩, -, hw⟩
  · cases hsome
  · rw [(grows_insertPage _ _ _ hinsert).coverage] at hrow
    exact ⟨hne, expectedHeight', next, row, u, requiredHeight_eq_ok.mp hexpected, hnext, hinsert,
      rfl, hrow, hcursor, hrun, hw⟩

/-- A page that the caller is told is recorded has moved its row, and met no conflict. -/
theorem recordHistoryPage_row {events : List Event} {page : HistoryPage} {inserted : ℕ}
    (h : recordHistoryPage store events page s = (.ok inserted, t)) :
    ∃ row expected next, s.coverage (store.key page.scope) = some row ∧
      optionalBlockParts page.next = .ok next ∧
      t.coverage (store.key page.scope) = some (row.afterPage expected next false inserted) := by
  unfold recordHistoryPage at h
  split at h
  case h_2 e db _ => cases h
  case h_1 n conflict db hcommit =>
    obtain rfl : conflict = false := by
      cases conflict
      · rfl
      · cases h
    cases h
    obtain ⟨-, height, next, row, u, -, hparts, -, -, hrow, -, -, hw⟩ :=
      recordHistoryPageTx_inv (Tx.commit_eq_ok.mp hcommit)
    obtain ⟨-, v, -, rfl⟩ := writeCoverage_inv hw
    exact ⟨row, _, next, hrow, hparts, Db.setCoverage_coverage_self _ _ _⟩

omit [Digests] in
/-- A page's conflict is one of its scope. -/
theorem Db.not_pageConflict {db : Db} {k : ScopeKey} (h : ¬ db.retainsConflict k)
    (hashes : List Bytes) (final : Bool) : ¬ db.pageConflict k hashes final := by
  rintro (⟨c, hc, e, he, hid, hscope, -⟩ | ⟨-, hk⟩)
  · exact h ⟨c, hc, e, he, hid, hscope⟩
  · exact h hk

/-- **When the final page of a scope without a retained conflict is committed**: when its
events can be inserted and the trigger accepts. -/
theorem recordHistoryPageTx_final {events : List Event} {expected : Block} {inserted : ℕ} {u : Db}
    {row : CoverageRow} (hne : events ≠ []) (hscope : validateHistoryScope scope = .ok ())
    (hheight : expected.height ≤ maxHeight)
    (hinsert : insertPage store events scope s = .ok (inserted, u))
    (hno : ¬ u.retainsConflict (store.key scope)) (hrow : u.coverage (store.key scope) = some row)
    (hcursor : row.next = some expected) (hrun : row.status = .running)
    (hvalid : (row.afterPage expected none false inserted).valid (store.key scope))
    (hcertify : certifyHistory (store.key scope) (row.afterPage expected none false inserted) u =
      .ok ((), t)) :
    recordHistoryPageTx store events ⟨scope, expected.observed, none⟩ s = .ok ((inserted, false),
      t.setCoverage (store.key scope) (row.afterPage expected none false inserted)) := by
  have hconflict : decide (u.pageConflict (store.key scope) (pageHashes events) true) = false :=
    decide_eq_false (Db.not_pageConflict hno _ _)
  have hwrite : writeCoverage (store.key scope) (row.afterPage expected none false inserted) u =
      .ok ((), t.setCoverage (store.key scope) (row.afterPage expected none false inserted)) := by
    refine Tx.bind_eq_ok.mpr ⟨⟨⟩, t, hcertify, ?_⟩
    exact Tx.require_bind_eq_ok.mpr ⟨hvalid, Tx.modify_eq_ok.mpr rfl⟩
  refine Tx.require_bind_eq_ok.mpr ⟨hne, Tx.lift_bind_eq_ok.mpr ⟨(), hscope, ?_⟩⟩
  refine Tx.lift_bind_eq_ok.mpr ⟨expected.height, rfl, Tx.lift_bind_eq_ok.mpr
    ⟨expected.height, heightToI32_eq_ok.mpr ⟨hheight, rfl⟩, ?_⟩⟩
  refine Tx.lift_bind_eq_ok.mpr ⟨none, rfl, Tx.bind_eq_ok.mpr ⟨inserted, u, hinsert, ?_⟩⟩
  refine Tx.read_bind_eq_ok.mpr ?_
  simp only [Option.isNone_none, hconflict]
  refine Tx.bind_eq_ok.mpr ⟨some (row.afterPage expected none false inserted), _,
    updateCoverage_eq_ok.mpr (.inr ⟨row, hrow, ⟨hcursor, hrun⟩, rfl, hwrite⟩), ?_⟩
  exact Tx.require_bind_eq_ok.mpr ⟨rfl, rfl⟩

end

end Bip300Monitor
