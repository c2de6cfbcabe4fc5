import Bip300Monitor.Foundations.Resumption
import Bip300Monitor.Store.History

/-!
# The history engine

`extractors/enforcer/src/backfill.rs`: the bounded, resumable walk that both historical
streams share. `runHistory` is one call; it is a program whose operations are its calls
on the store, on the upstream RPC, on the clock and on the shutdown channel, so that it
can be stopped, and the rest of the monitor can move, between any two of them.

The store operations are those of `Bip300Monitor.Store.History`, and are always asked of
the stream's own scope. Logging is left out.
-/

namespace Bip300Monitor

open Protobuf Resumption

/-- The row is suspended by conflicting facts: the test of `is_quarantined`. -/
def CoverageRow.quarantined (row : CoverageRow) : Prop :=
  row.status = .error ∧ row.lastError = some historyConflict

instance (row : CoverageRow) : Decidable row.quarantined := inferInstanceAs (Decidable (_ ∧ _))

namespace Backfill

/-! ### Streams -/

/-- The adapter of one historical stream: its scope, and what differs between streams. -/
structure HistoryStream (P : Type) where
  scope : HistoryScope
  activationHeight : ℕ
  expectedStartHash : Option Bytes
  header : P → Result BlockHeader
  /-- The envelope of a payload with its anchor, given what the clock said. -/
  envelope : P → ObservedBlock → Result ℕ → Result Event
  /-- An envelope keeps its anchor and its header's parent, and is a fact of the scope. -/
  envelope_faithful : ∀ p h anchor now event, header p = .ok h →
    envelope p anchor now = .ok event →
      event.observedAtBlock = some anchor ∧ previousHash event = some h.previousHash ∧
        ∀ f, facts event = .ok f →
          f.kind = scope.stream.kind ∧ (scope.sidechain = none → f.sidechain = none)

/-- `Option::context`. -/
def expect {α : Type} (x : Option α) (message : String) : Result α :=
  match x with
  | some a => .ok a
  | none => .error (.bail message)

@[simp] theorem expect_eq_ok {α : Type} {x : Option α} {message : String} {a : α} :
    expect x message = .ok a ↔ x = some a := by
  cases x <;> simp [expect]

/-- `ensure!`: fail unless `c` holds. -/
def ensure (c : Prop) [Decidable c] (message : String) : Result Unit :=
  if c then .ok () else .error (.bail message)

@[simp] theorem ensure_eq_ok {c : Prop} [Decidable c] {message : String} {u : Unit} :
    ensure c message = .ok u ↔ c := by
  by_cases h : c <;> simp [ensure, h]

/-- `envelope` (`extractors/enforcer/src/event.rs`): readings of state are not anchored. -/
def envelope (payload : Option EnforcerEvent) (anchor : ObservedBlock) (now : Result ℕ) :
    Result Event :=
  let stateRead := match payload.map EnforcerEvent.kind with
    | some .sidechainProposals | some .activeSidechains | some .ctip
    | some .withdrawalBundleProposals => true
    | _ => false
  let event : Result Event := now.map fun timestamp =>
    ⟨timestamp, if stateRead then none else some anchor, some (.enforcer payload)⟩
  event.context "constructing the monitor event envelope"

/-- `connected_header`. -/
def connectedHeader (payload : Option EnforcerEvent) : Result BlockHeader :=
  match payload with
  | some (.blockConnected block) =>
    expect block.header "a historical connected block is missing its header"
  | _ => .error (.bail "a historical block carried an unexpected payload")

theorem connectedHeader_eq_ok {payload : Option EnforcerEvent} {h : BlockHeader} :
    connectedHeader payload = .ok h ↔
      ∃ block, payload = some (.blockConnected block) ∧ block.header = some h := by
  unfold connectedHeader
  split
  · simp
  · rename_i hno
    constructor
    · intro hh
      cases hh
    · rintro ⟨block, hp, -⟩
      exact absurd hp (hno block)

/-- `BlockHistory`: one slot's blocks. -/
def BlockHistory (inst : SidechainInstanceRef) : HistoryStream (Option EnforcerEvent) where
  scope := ⟨.block, some inst.sidechain, some inst.sidechainInstanceId⟩
  activationHeight := inst.activationHeight
  expectedStartHash := none
  header := connectedHeader
  envelope := envelope
  envelope_faithful p h anchor now event hh hev := by
    obtain ⟨block, rfl, hheader⟩ := connectedHeader_eq_ok.mp hh
    simp only [envelope, Result.context_eq_ok, Option.map_some, EnforcerEvent.kind] at hev
    cases now with
    | error e => cases hev
    | ok timestamp =>
      cases hev
      refine ⟨rfl, by simp [previousHash, hheader], fun f hf => ⟨?_, fun h => by cases h⟩⟩
      simp only [facts, Result.bind_eq_ok, Result.pure_eq_ok] at hf
      obtain ⟨_, -, _, -, rfl⟩ := hf
      rfl

/-- `node_event`. -/
def nodeEvent (event : NodeEvent) (anchor : ObservedBlock) (now : Result ℕ) : Result Event :=
  now.map fun timestamp => ⟨timestamp, some anchor, some (.node (some event))⟩

/-- `NodeHistory`: the node's blocks. -/
def NodeHistory (activation : ℕ) (activationHash : Option Bytes) : HistoryStream MainchainBlock where
  scope := ⟨.mainchainBlock, none, none⟩
  activationHeight := activation
  expectedStartHash := activationHash
  header block := expect block.header "node block missing header"
  envelope block := nodeEvent (.mainchainBlock block)
  envelope_faithful p h anchor now event hh hev := by
    rw [expect_eq_ok] at hh
    cases now with
    | error e => cases hev
    | ok timestamp =>
      cases hev
      refine ⟨rfl, by simp [previousHash, NodeEvent.header, hh], fun f hf => ?_⟩
      simp only [facts, Result.bind_eq_ok, Result.pure_eq_ok] at hf
      obtain ⟨_, -, rfl⟩ := hf
      exact ⟨rfl, fun _ => rfl⟩

/-! ### Operations -/

variable {P : Type}

/-- What the engine asks of the world. -/
inductive Op (P : Type) where
  /-- Whether shutdown has been requested. -/
  | shutdownRequested
  | currentSidechainInstanceId (sidechain : ℕ)
  | supersedeHistory (sidechain : ℕ) (sidechainInstanceId reason : String)
  | historyCoverage
  | beginHistoryCycle (coverageStartHeight : ℕ) (coveredTip : Option ObservedBlock)
      (targetTip : ObservedBlock) (floorHash : Option Bytes) (floorHeight : Option ℕ)
      (effectivePageBlocks : ℕ)
  | resumeHistory
  /-- The upstream's blocks from a cursor downwards, newest first. -/
  | fetch (cursor : ObservedBlock) (requested : ℕ)
  | currentTip
  | resizeHistoryPage (effectivePageBlocks : ℕ) (error : String)
  | settleHistoryFailure (error : String)
  | certifiedHistoryFloor (hashes : List Bytes)
  | setHistoryFloor (cursor : ObservedBlock) (floorHash : Option Bytes) (floorHeight : Option ℕ)
  | recordHistoryPage (events : List Event) (expectedNext : ObservedBlock)
      (next : Option ObservedBlock)
  /-- The time an event is built at. -/
  | now
  /-- The pause between pages; whether shutdown was requested during it. -/
  | pagePause

/-- What an operation answers. -/
@[reducible] def Op.Resp : Op P → Type
  | .shutdownRequested | .pagePause => Bool
  | .currentSidechainInstanceId _ => Result (Option String)
  | .supersedeHistory .. | .resumeHistory | .resizeHistoryPage .. | .setHistoryFloor .. =>
    Result Unit
  | .historyCoverage => Result (Option CoverageRow)
  | .beginHistoryCycle .. => Result CoverageRow
  | .fetch .. => Result (List P)
  | .currentTip => Result ObservedBlock
  | .settleHistoryFailure _ => Result HistoryStatus
  | .certifiedHistoryFloor _ => Result (Option ObservedBlock)
  | .recordHistoryPage .. | .now => Result ℕ

/-- A program of the engine. -/
abbrev Engine (P : Type) := Fallible (Op P) Op.Resp Failure

/-- Perform one operation. -/
def ask (e : Op P) : Engine P e.Resp := call e

structure Settings where
  pageBlocks : ℕ
  /-- In milliseconds. -/
  pagePause : ℕ
  deriving DecidableEq, Repr

/-- What a call returns, with the blocks and the pages it committed. -/
inductive Outcome where
  | upToDate (target : ObservedBlock)
  | completed (target : ObservedBlock) (blocks pages : ℕ)
  | deferred (target : ObservedBlock) (blocks pages : ℕ)
  | superseded (target : ObservedBlock) (blocks pages : ℕ)
  | interrupted (target : ObservedBlock) (blocks pages : ℕ)
  /-- Conflicting immutable facts suspended the scope. -/
  | quarantined (target : ObservedBlock)
  deriving DecidableEq, Repr

/-- The variables of the loop. -/
structure Locals where
  progress : CoverageRow
  blocks : ℕ
  pages : ℕ
  restartedFromActivation : Bool
  deriving DecidableEq, Repr

def Locals.target (l : Locals) : ObservedBlock := l.progress.targetTip.observed

/-! ### Classifying errors -/

/-- `retryable_rpc_error`, and `inconclusive_probe_error` of both streams. -/
def retryableRpcError (e : Failure) : Bool :=
  [Code.cancelled, .deadlineExceeded, .resourceExhausted, .unavailable].any e.hasCode

/-- `page_too_large`. -/
def pageTooLarge (e : Failure) : Bool := [Code.deadlineExceeded, .resourceExhausted].any e.hasCode

/-- `unavailable_error` of both streams. -/
def unavailableError (e : Failure) : Bool := e.hasCode .notFound

/-! ### Pages -/

/-- `u32::checked_sub`. -/
def checkedSub (a b : ℕ) : Option ℕ := if b ≤ a then some (a - b) else none

/-- The largest `u32`. -/
def maxU32 : ℕ := 4294967295

/-- `blocks_through_floor`: the blocks from the cursor down to the exclusive floor. -/
def blocksThroughFloor (cursorHeight : ℕ) (floorHeight : Option ℕ) : Result ℕ :=
  match floorHeight with
  | some floorHeight =>
    expect ((checkedSub cursorHeight floorHeight).filter (0 < ·))
      ("history cursor " ++ toString cursorHeight ++ " is not above its exclusive floor " ++
        toString floorHeight)
  | none => .ok (cursorHeight + 1)

/-- The loop of `verify_page_with`: each block is the parent of the one before it. -/
def verifyLinks (stream : HistoryStream P) : List P → Result Unit
  | newer :: older :: rest => do
    let newer ← stream.header newer
    let header ← stream.header older
    ensure (newer.previousHash = header.hash ∧ newer.height = min (header.height + 1) maxU32)
      ("historical page breaks between heights " ++ toString newer.height ++ " and " ++
        toString header.height)
    verifyLinks stream (older :: rest)
  | _ => .ok ()

/-- `verify_page_with`. -/
def verifyPageWith (stream : HistoryStream P) (payloads : List P) (cursor : Block)
    (requested : ℕ) : Result Unit := do
  let newest ← expect (if requested = 0 then none else payloads.head?)
    "a historical page must request and return at least one block"
  ensure (payloads.length ≤ requested) ("historical page requested at most " ++
    toString requested ++ " blocks but returned " ++ toString payloads.length)
  let newest ← stream.header newest
  ensure (newest.hash = cursor.hash ∧ newest.height = cursor.height)
    ("historical page begins at " ++ hexEncode newest.hash ++ " height " ++
      toString newest.height ++ ", expected " ++ hexEncode cursor.hash ++ " height " ++
      toString cursor.height)
  verifyLinks stream payloads
  let oldest ← expect payloads.getLast? "an empty historical page was rejected"
  let oldest ← stream.header oldest
  let expectedOldest ← expect (checkedSub cursor.height (payloads.length - 1))
    "history page underflows genesis"
  ensure (oldest.height = expectedOldest) ("historical page ends at height " ++
    toString oldest.height ++ ", expected " ++ toString expectedOldest)

/-- `validate_expected_start_hash`. -/
def validateExpectedStartHash (stream : HistoryStream P) (floorHash : Option Bytes)
    (completesCycle : Bool) (actualOldestHash : Bytes) : Result Unit :=
  match completesCycle, floorHash, stream.expectedStartHash with
  | true, none, some expected =>
    ensure (actualOldestHash = expected)
      ("history stream " ++ stream.scope.stream.asStr ++ " reached activation block " ++
        hexEncode actualOldestHash ++ ", expected " ++ hexEncode expected)
  | _, _, _ => .ok ()

/-! ### Settling a failure -/

inductive FailureMode where
  | fatal | deferred
  deriving DecidableEq, Repr

/-- `settle_failure`. -/
def settleFailure (error : Failure) (l : Locals) (mode : FailureMode) : Engine P Outcome := do
  let settled : Result HistoryStatus ← ask (.settleHistoryFailure error.message)
  match settled with
  | .error markError =>
    throw (error.context ("also failed to settle the history error in Postgres: " ++
      markError.message))
  | .ok status =>
    match status, mode with
    | .superseded, _ => pure (.superseded l.target l.blocks l.pages)
    | .error, .deferred => pure (.deferred l.target l.blocks l.pages)
    | .error, .fatal => throw error
    | status, _ =>
      throw (error.context ("history failure settled to unexpected status " ++ status.debug))

/-! ### The scope -/

/-- `scope_is_current`. -/
def scopeIsCurrent (scope : HistoryScope) : Engine P Bool :=
  match scope.sidechain, scope.sidechainInstanceId with
  | some sidechain, some instanceId => do
    let current ← attempt (← ask (.currentSidechainInstanceId sidechain))
    pure (decide (current = some instanceId))
  | _, _ => pure true

/-- `mark_superseded`. -/
def markSuperseded (scope : HistoryScope) : Engine P Unit :=
  match scope.sidechain, scope.sidechainInstanceId with
  | some sidechain, some instanceId => do
    attempt (← ask (.supersedeHistory sidechain instanceId "sidechain instance is no longer active"))
  | _, _ => pure ()

/-- `is_quarantined`. -/
def isQuarantined (scope : HistoryScope) : Engine P Bool := do
  let coverage : Result (Option CoverageRow) ← ask .historyCoverage
  let coverage ← attempt
    (coverage.context ("reading " ++ scope.stream.asStr ++ " history coverage"))
  pure (decide (∃ row ∈ coverage, row.quarantined))

/-! ### Cycles -/

variable (stream : HistoryStream P)

/-- `begin_full_cycle`: walk the whole range down to the activation height. -/
def beginFullCycle (tip : ObservedBlock) (pageBlocks : ℕ) : Engine P CoverageRow := do
  let begun : Result CoverageRow ← ask (.beginHistoryCycle stream.activationHeight none tip none
    (checkedSub stream.activationHeight 1) pageBlocks)
  attempt (begun.context ("starting full " ++ stream.scope.stream.asStr ++ " history"))

/-- The branch of `prepare_cycle` for a failed or superseded row. -/
def resumeCycle (existing : CoverageRow) : Engine P CoverageRow := do
  let resumed : Result Unit ← ask .resumeHistory
  attempt (resumed.context ("resuming " ++ stream.scope.stream.asStr ++ " history"))
  pure { existing with status := .running, lastError := none }

/-- The branch of `prepare_cycle` for a complete row. -/
def extendCycle (existing : CoverageRow) (tip : ObservedBlock) (tipHeight configured : ℕ) :
    Engine P (Option CoverageRow) := do
  let covered ← attempt (expect existing.coveredTip "completed history coverage has no covered tip")
  if covered.hash = tip.hash then pure none
  else do
    let pageBlocks := min existing.effectivePageBlocks configured
    if covered.height < tipHeight then do
      let begun : Result CoverageRow ← ask (.beginHistoryCycle stream.activationHeight (some covered.observed) tip
        (some covered.hash) (some covered.height) pageBlocks)
      let row ← attempt
        (begun.context ("extending " ++ stream.scope.stream.asStr ++ " history"))
      pure (some row)
    else do
      let row ← beginFullCycle stream tip pageBlocks
      pure (some row)

/-- `prepare_cycle`: the cursor to walk on from, or nothing to do. -/
def prepareCycle (tip : ObservedBlock) (configured : ℕ) : Engine P (Option CoverageRow) := do
  let tipHeight ← attempt (requiredHeight tip "history target")
  attempt (ensure (stream.activationHeight ≤ tipHeight)
    ("history stream " ++ stream.scope.stream.asStr ++ " starts at " ++
      toString stream.activationHeight ++ ", after target tip " ++ toString tipHeight))
  let existing : Result (Option CoverageRow) ← ask .historyCoverage
  let existing ← attempt
    (existing.context ("reading " ++ stream.scope.stream.asStr ++ " history coverage"))
  match existing with
  | none => do
    let row ← beginFullCycle stream tip configured
    pure (some row)
  | some existing => do
    attempt (ensure (existing.coverageStartHeight = stream.activationHeight)
      ("history stream " ++ stream.scope.stream.asStr ++ " starts at " ++
        toString existing.coverageStartHeight ++ ", expected " ++ toString stream.activationHeight))
    match existing.status with
    | .running => pure (some existing)
    | .error | .superseded => do
      let row ← resumeCycle stream existing
      pure (some row)
    | .complete => extendCycle stream existing tip tipHeight configured

/-! ### Unavailable cursors -/

/-- `target_is_available`. -/
def targetIsAvailable (target : ObservedBlock) : Engine P (Result (Option Bool)) := do
  let answer : Result (List P) ← ask (.fetch target 1)
  match answer with
  | .ok payloads => pure (.ok (some (payloads ≠ [])))
  | .error error =>
    if retryableRpcError error then pure (.ok none)
    else if unavailableError error then pure (.ok (some false))
    else pure (.error (error.context "probing the persisted history target"))

/-- `replacement_target`. -/
def replacementTarget (currentTip persistedTarget : ObservedBlock)
    (targetAvailability : Option Bool) : Option ObservedBlock :=
  if currentTip.hash ≠ persistedTarget.hash ∧ targetAvailability = some false then some currentTip
  else none

/-- What is known of the target; a probe that cannot be classified tells nothing. -/
def targetAvailability (currentTip target : ObservedBlock) : Engine P (Option Bool) :=
  if currentTip.hash = target.hash then pure (some true)
  else do
    match ← targetIsAvailable target with
    | .ok availability => pure availability
    | .error _ => pure none

/-- Walk towards a new target from now on. -/
def restart (l : Locals) (target : ObservedBlock) : Engine P (Locals ⊕ Outcome) := do
  let progress ← beginFullCycle stream target l.progress.effectivePageBlocks
  pure (.inl { l with progress := progress, restartedFromActivation := true })

/-- Settle and leave the loop. -/
def leave (error : Failure) (l : Locals) (mode : FailureMode) : Engine P (Locals ⊕ Outcome) := do
  let outcome ← settleFailure error l mode
  pure (.inr outcome)

/-- The branch `Page::Unavailable`: a target that has left the available branch is
replaced by the current tip. -/
def cursorUnavailable (l : Locals) (error : Failure) : Engine P (Locals ⊕ Outcome) := do
  let answer : Result ObservedBlock ← ask .currentTip
  match answer with
  | .error tipError =>
    if retryableRpcError tipError then
      leave (tipError.context
        ("reading the current tip after unavailable history cursor: " ++ error.message)) l .deferred
    else
      leave (tipError.context "reading the current tip after an unavailable history cursor") l .fatal
  | .ok currentTip => do
    let availability ← targetAvailability currentTip l.target
    match replacementTarget currentTip l.target availability with
    | some currentTip => restart stream l currentTip
    | none => leave error l .deferred

/-- The branch for a request that was too large: half the page from now on. -/
def shrinkPage (l : Locals) (error : Failure) : Engine P (Locals ⊕ Outcome) := do
  let reduced := max (l.progress.effectivePageBlocks / 2) 1
  let resized : Result Unit ← ask (.resizeHistoryPage reduced error.message)
  match resized with
  | .error resizeError =>
    leave (resizeError.context "persisting the reduced history page size") l .fatal
  | .ok () =>
    pure (.inl { l with progress := { l.progress with effectivePageBlocks := reduced } })

/-! ### Found pages -/

/-- `historical_events`, of payloads that are already reversed. -/
def historicalEvents : List P → Engine P (List Event)
  | [] => pure []
  | payload :: rest => do
    let header ← attempt (stream.header payload)
    let now : Result ℕ ← ask .now
    let event ← attempt (stream.envelope payload (.atHeight header.hash header.height) now)
    let events ← historicalEvents rest
    pure (event :: events)

/-- The progress and the page, cut at a certified block: it is the last block of the page
and its parent the new floor. -/
def cutAtCertified (l : Locals) (cursor : Block) (payloads : List P) (hashes : List Bytes)
    (certified : Option ObservedBlock) : Engine P (Locals × List P) :=
  match certified with
  | none => pure (l, payloads)
  | some certified => do
    let index ← attempt (expect (hashes.findIdx? (· = certified.hash))
      "certified block was not in the requested page")
    let payload ← attempt (expect payloads[index]? "index out of bounds")
    let header ← attempt (stream.header payload)
    let floorHeight := checkedSub header.height 1
    let floorHash := floorHeight.map fun _ => header.previousHash
    attempt (← ask (.setHistoryFloor cursor.observed floorHash floorHeight))
    pure ({ l with progress := { l.progress with floorHash := floorHash, floorHeight := floorHeight } },
      payloads.take (index + 1))

/-- What follows a committed page. -/
def afterPage (settings : Settings) (l : Locals) (committed inserted : ℕ) (next : Option Block) :
    Engine P (Locals ⊕ Outcome) := do
  let l : Locals := { l with
    blocks := l.blocks + committed
    pages := l.pages + 1
    progress := { l.progress with rowsRecorded := l.progress.rowsRecorded + inserted, next := next } }
  if next = none then pure (.inr (.completed l.target l.blocks l.pages))
  else if settings.pagePause = 0 then pure (.inl l)
  else do
    let shutdown : Bool ← ask .pagePause
    if shutdown then pure (.inr (.interrupted l.target l.blocks l.pages))
    else pure (.inl l)

/-- Commit a page and its new cursor. -/
def commitPage (settings : Settings) (l : Locals) (cursor : Block) (payloads : List P)
    (next : Option Block) : Engine P (Locals ⊕ Outcome) := do
  let events ← historicalEvents stream payloads.reverse
  let recorded : Result ℕ ←
    ask (.recordHistoryPage events cursor.observed (next.map Block.observed))
  match recorded with
  | .ok inserted => afterPage settings l events.length inserted next
  | .error error =>
    if error.historyConflict then pure (.inr (.quarantined l.target))
    else leave (error.context "recording a historical page") l .fatal

/-- The next cursor after a page that does not complete the cycle. -/
def nextCursor (completesCycle : Bool) (oldest : BlockHeader) : Result (Option Block) :=
  if completesCycle then .ok none
  else do
    let height ← expect (checkedSub oldest.height 1)
      "a non-final history page cannot end at genesis"
    pure (some ⟨oldest.previousHash, height⟩)

/-- A page that completes the cycle has failed to join its floor. -/
def missesFloor (l : Locals) (completesCycle : Bool) (oldest : BlockHeader) : Prop :=
  completesCycle ∧ ∃ floorHash ∈ l.progress.floorHash, oldest.previousHash ≠ floorHash

instance (l : Locals) (completesCycle : Bool) (oldest : BlockHeader) :
    Decidable (missesFloor l completesCycle oldest) := inferInstanceAs (Decidable (_ ∧ _))

/-- A verified page: cut it, check what it reaches, and commit it. -/
def verifiedPage (settings : Settings) (l : Locals) (cursor : Block) (remaining : ℕ)
    (payloads : List P) : Engine P (Locals ⊕ Outcome) := do
  let headers ← attempt (payloads.mapM stream.header)
  let hashes := headers.map (·.hash)
  let certified ← attempt (← ask (.certifiedHistoryFloor hashes))
  let (l, payloads) ← cutAtCertified stream l cursor payloads hashes certified
  let oldest ← attempt (expect payloads.getLast? "a verified historical page is not empty")
  let oldest ← attempt (stream.header oldest)
  let completesCycle := certified.isSome || decide (payloads.length = remaining)
  match validateExpectedStartHash stream l.progress.floorHash completesCycle oldest.hash with
  | .error error => leave error l .fatal
  | .ok () =>
    if missesFloor l completesCycle oldest then
      if l.restartedFromActivation then
        leave (.bail "history branch still failed to reach its floor after repairing toward a certified ancestor")
          l .fatal
      else restart stream l l.target
    else do
      let next ← attempt (nextCursor completesCycle oldest)
      commitPage stream settings l cursor payloads next

/-- The branch `Page::Found`. -/
def foundPage (settings : Settings) (l : Locals) (cursor : Block) (remaining requested : ℕ)
    (payloads : List P) : Engine P (Locals ⊕ Outcome) :=
  match verifyPageWith stream payloads cursor requested with
  | .error error => leave (error.context "validating a historical page") l .fatal
  | .ok () => verifiedPage stream settings l cursor remaining payloads

/-! ### The loop -/

/-- What becomes of the answer to a fetch. -/
def fetched (settings : Settings) (l : Locals) (cursor : Block) (remaining requested : ℕ)
    (answer : Result (List P)) : Engine P (Locals ⊕ Outcome) :=
  match answer with
  | .ok [] => cursorUnavailable stream l
      (.bail ("history cursor " ++ hexEncode cursor.hash ++ " was not found"))
  | .ok payloads => foundPage stream settings l cursor remaining requested payloads
  | .error error =>
    if unavailableError error then cursorUnavailable stream l error
    else if pageTooLarge error ∧ 1 < l.progress.effectivePageBlocks then shrinkPage l error
    else if retryableRpcError error then
      leave (error.context "the history page request failed transiently") l .deferred
    else leave error l .fatal

/-- Fetch the page below the cursor. -/
def walk (settings : Settings) (l : Locals) : Engine P (Locals ⊕ Outcome) := do
  let cursor ← attempt (expect l.progress.next
    "a running history cursor is missing its next block")
  let remaining ← attempt (blocksThroughFloor cursor.height l.progress.floorHeight)
  let requested := min remaining l.progress.effectivePageBlocks
  let answer : Result (List P) ← ask (.fetch cursor.observed requested)
  fetched stream settings l cursor remaining requested answer

/-- One iteration of the loop. -/
def iterate (settings : Settings) (l : Locals) : Engine P (Locals ⊕ Outcome) := do
  let shutdown : Bool ← ask .shutdownRequested
  if shutdown then pure (.inr (.interrupted l.target l.blocks l.pages))
  else do
    let current ← scopeIsCurrent stream.scope
    if current then walk stream settings l
    else do
      markSuperseded stream.scope
      pure (.inr (.superseded l.target l.blocks l.pages))

/-- `run_history` up to its loop. -/
def runHistory (tip : ObservedBlock) (settings : Settings) : Engine P (Locals ⊕ Outcome) := do
  let current ← scopeIsCurrent stream.scope
  if current then do
    let quarantined ← isQuarantined stream.scope
    if quarantined then pure (.inr (.quarantined tip))
    else do
      let progress ← prepareCycle stream tip settings.pageBlocks
      match progress with
      | none => pure (.inr (.upToDate tip))
      | some progress => pure (.inl ⟨progress, 0, 0, decide (progress.floorHash = none)⟩)
  else do
    markSuperseded stream.scope
    pure (.inr (.superseded tip 0 0))

end Backfill

end Bip300Monitor
