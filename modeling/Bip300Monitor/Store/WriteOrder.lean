import Bip300Monitor.Store.CertifiedPrefix
import Bip300Monitor.Foundations.CommitOrder

/-!
# Write order

Facts and occurrences have identities from sequences, and a consumer pages through them by
identity. Workers write through separate connections, so every write of the record takes
one advisory lock first, `WRITE_ORDER_LOCK_KEY`, which the end of the transaction releases.

## The model

Any number of sessions, each in the middle of at most one call. Of a call's statements the
model keeps those that open or end its transaction, take the lock or insert into `event`
and `event_observation`; sessions take them one at a time, in any order, and a call can
fail before any of them.

## What is proved

* `Sessions.step_inv` — whatever a session inserts, it inserts under the lock;
* `commit_order_is_identity_order` — so no row becomes visible behind one with a greater
  identity, and a consumer that pages by identity leaves none behind.
-/

namespace Bip300Monitor

open Protobuf CommitOrder Runs

/-! ### The statements of a call -/

/-- The tables with identities that are paged through. -/
inductive IdentityTable where
  | event | eventObservation
  deriving DecidableEq, Repr

/-- A statement, if it matters to the order of identities. -/
inductive Statement where
  | begin | lock | insertFact | insertObservation | commit
  deriving DecidableEq, Repr

/-- `write_tx`: open a record write that commits in identity order. -/
def writeTx : List Statement := [.begin, .lock]

/-- The statements of `insert` for one event. The fact's identity is taken even when the fact
is there already. -/
def insertStatements (_ : Event) : List Statement := [.insertFact, .insertObservation]

/-- The statements of a call, as far as it gets. -/
def Command.statements : Command → List Statement
  | .historyCoverage .. => []
  | .record _ events .. | .recordSnapshot _ events .. | .recordHistoryPage _ events _ =>
    if events = [] then [] else writeTx ++ events.flatMap insertStatements ++ [.commit]
  | .recordFeeEnrichment _ _ _ event => writeTx ++ insertStatements event ++ [.commit]
  | .initializeIdentity .. | .finishRun .. | .initializeWorkerStatuses .. | .recordWorkerFailure ..
  | .recordWorkerSuccess .. | .recordTipObservation .. | .beginHistoryCycle ..
  | .setHistoryFloor .. | .resizeHistoryPage .. | .resumeHistory .. | .settleHistoryFailure ..
  | .supersedeHistory .. | .recordFeeFailure .. => writeTx ++ [.commit]

/-- The statements under the lock: insertions, and the commit at the end. -/
inductive IsBody : List Statement → Prop
  | commit : IsBody [.commit]
  | insertFact {rest : List Statement} : IsBody rest → IsBody (.insertFact :: rest)
  | insertObservation {rest : List Statement} : IsBody rest → IsBody (.insertObservation :: rest)

/-- What is left of a call that does not hold the lock. -/
inductive IsOutside : List Statement → Prop
  | idle : IsOutside []
  | opens {body : List Statement} : IsBody body → IsOutside (.begin :: .lock :: body)
  | waits {body : List Statement} : IsBody body → IsOutside (.lock :: body)

theorem isBody_inserts (events : List Event) :
    IsBody (events.flatMap insertStatements ++ [.commit]) := by
  induction events with
  | nil => exact .commit
  | cons event rest ih => exact .insertFact (.insertObservation ih)

/-- **Every call takes the lock before it inserts, and inserts nothing after its commit.** -/
theorem Command.isOutside_statements (c : Command) : IsOutside c.statements := by
  have batch (events : List Event) :
      IsOutside (writeTx ++ events.flatMap insertStatements ++ [.commit]) := by
    rw [List.append_assoc]
    exact .opens (isBody_inserts events)
  have batches (events : List Event) : IsOutside
      (if events = [] then [] else writeTx ++ events.flatMap insertStatements ++ [.commit]) := by
    split_ifs
    · exact .idle
    · exact batch events
  cases c with
  | historyCoverage => exact .idle
  | record _ events => exact batches events
  | recordSnapshot _ events => exact batches events
  | recordHistoryPage _ events => exact batches events
  | recordFeeEnrichment _ _ _ event => exact batch [event]
  | _ => exact .opens .commit

/-! ### Sessions -/

section
variable {ι : Type} [DecidableEq ι]

/-- The record, what is left of each session's call, and a consumer. -/
structure Sessions (ι : Type) where
  record : CommitOrder.State ι IdentityTable
  calls : ι → List Statement
  consumer : Consumer

/-- What happens next. -/
inductive SessionAction (ι : Type) where
  | call (i : ι) (c : Command)
  /-- A session takes its next statement; `inserted` says if a fact is new. -/
  | proceed (i : ι) (inserted : Bool)
  /-- A session's call fails, and its transaction is rolled back. -/
  | fail (i : ι)
  /-- The consumer reads a page. -/
  | page (limit : ℕ)

/-- What a session's statement does to the record. -/
def Statement.action (i : ι) (inserted : Bool) : Statement → Option (Action ι IdentityTable)
  | .begin => none
  | .lock => some (.acquire i)
  | .insertFact => some (.insert i .event inserted)
  | .insertObservation => some (.insert i .eventObservation true)
  | .commit => some (.commit i)

/-- One step, with a consumer of the given table. -/
def Sessions.step (table : IdentityTable) (s : Sessions ι) : SessionAction ι → Option (Sessions ι)
  | .call i c =>
    if s.calls i = [] then some { s with calls := Function.update s.calls i c.statements } else none
  | .proceed i inserted =>
    match s.calls i with
    | [] => none
    | statement :: rest =>
      let record := match statement.action i inserted with
        | none => some s.record
        | some a => CommitOrder.step s.record a
      record.map fun record =>
        { s with record := record, calls := Function.update s.calls i rest }
  | .fail i =>
    if s.calls i = [] then none
    else (CommitOrder.step s.record (.rollback i)).map fun record =>
      { s with record := record, calls := Function.update s.calls i [] }
  | .page limit =>
    some { s with consumer := s.consumer.page (rowsOf table s.record.committed) limit }

/-- No session is in a call; the consumer begins at `start`. -/
def Sessions.init (start : ℕ) : Sessions ι := ⟨.init, fun _ => [], ⟨start, []⟩⟩

/-- The holder of the lock has insertions and its commit before it, and every other session is
outside of a transaction or waits for the lock. -/
structure Sessions.Inv (table : IdentityTable) (start : ℕ) (s : Sessions ι) : Prop where
  order : CommitOrder.Inv s.record
  inside : ∀ i, s.record.holder = some i → IsBody (s.calls i)
  outside : ∀ i, s.record.holder ≠ some i → IsOutside (s.calls i)
  consumer : s.consumer.Complete start (rowsOf table s.record.committed)

variable {table : IdentityTable} {start : ℕ} {s t : Sessions ι}

omit [DecidableEq ι] in
theorem Sessions.Inv.init : (Sessions.init start : Sessions ι).Inv table start where
  order := .init
  inside i h := by cases h
  outside i h := .idle
  consumer := .init start _

/-- A session that does not hold the lock is somewhere else in a call. -/
theorem Sessions.Inv.goes {i : ι} {rest : List Statement} (hs : s.Inv table start)
    (hi : s.record.holder ≠ some i) (hrest : IsOutside rest) :
    Sessions.Inv table start { s with calls := Function.update s.calls i rest } where
  order := hs.order
  inside j hj := by
    have hji : j ≠ i := by
      rintro rfl
      exact hi hj
    have hbody := hs.inside j hj
    simpa only [Function.update_of_ne hji] using hbody
  outside j hj := by
    by_cases hji : j = i
    · subst hji
      simpa only [Function.update_self] using hrest
    · simpa only [Function.update_of_ne hji] using hs.outside j hj
  consumer := hs.consumer

/-- A session takes the lock, or goes on under it. -/
theorem Sessions.Inv.enters {i : ι} {a : Action ι IdentityTable} {rest : List Statement}
    {record : CommitOrder.State ι IdentityTable} (hs : s.Inv table start)
    (h : CommitOrder.step s.record a = some record) (ha : Ordered s.record a)
    (hfree : ∀ j, s.record.holder = some j → j = i) (hi : record.holder = some i)
    (hrest : IsBody rest) :
    Sessions.Inv table start { s with record := record, calls := Function.update s.calls i rest } where
  order := CommitOrder.step_inv hs.order ha h
  inside j hj := by
    obtain rfl : i = j := Option.some.inj (hi.symm.trans hj)
    simpa only [Function.update_self] using hrest
  outside j hj := by
    have hji : j ≠ i := by
      rintro rfl
      exact hj hi
    have hother : s.record.holder ≠ some j := fun hholder => hji (hfree j hholder)
    simpa only [Function.update_of_ne hji] using hs.outside j hother
  consumer := hs.consumer.mono (CommitOrder.step_inv hs.order ha h) (committed_grows h)

/-- A session's transaction ends. -/
theorem Sessions.Inv.leaves {i : ι} {a : Action ι IdentityTable}
    {record : CommitOrder.State ι IdentityTable} (hs : s.Inv table start)
    (h : CommitOrder.step s.record a = some record) (ha : Ordered s.record a)
    (hholder : record.holder = s.record.release i) :
    Sessions.Inv table start { s with record := record, calls := Function.update s.calls i [] } where
  order := CommitOrder.step_inv hs.order ha h
  inside j hj := by
    have hsame : s.record.release i = some j := hholder.symm.trans hj
    unfold CommitOrder.State.release at hsame
    split_ifs at hsame with hi
    have hji : j ≠ i := by
      rintro rfl
      exact hi hsame
    simpa only [Function.update_of_ne hji] using hs.inside j hsame
  outside j hj := by
    by_cases hji : j = i
    · subst hji
      simpa only [Function.update_self] using IsOutside.idle
    · have hother : s.record.holder ≠ some j := by
        intro hsame
        refine hj (hholder.trans ?_)
        rw [CommitOrder.State.release, if_neg, hsame]
        rw [hsame]
        exact fun h => hji (Option.some.inj h)
      simpa only [Function.update_of_ne hji] using hs.outside j hother
  consumer := hs.consumer.mono (CommitOrder.step_inv hs.order ha h) (committed_grows h)

/-- **Whatever a session inserts, it inserts under the lock.** -/
theorem Sessions.step_inv {a : SessionAction ι} (hs : s.Inv table start)
    (h : s.step table a = some t) : t.Inv table start := by
  cases a with
  | call i c =>
    obtain ⟨hidle, rfl⟩ : s.calls i = [] ∧
        { s with calls := Function.update s.calls i c.statements } = t := by
      simpa [Sessions.step] using h
    refine hs.goes (fun hi => ?_) c.isOutside_statements
    have hbody := hs.inside i hi
    rw [hidle] at hbody
    cases hbody
  | page limit =>
    cases h
    exact ⟨hs.order, hs.inside, hs.outside, hs.consumer.page limit⟩
  | fail i =>
    simp only [Sessions.step] at h
    split_ifs at h
    obtain ⟨record, hrollback, rfl⟩ := Option.map_eq_some_iff.mp h
    have hholder : record.holder = s.record.release i := by cases hrollback; rfl
    exact hs.leaves hrollback trivial hholder
  | proceed i inserted =>
    simp only [Sessions.step] at h
    by_cases hi : s.record.holder = some i
    · -- under the lock: an insertion, or the commit
      have hfree : ∀ j, s.record.holder = some j → j = i := fun j hj =>
        Option.some.inj (hj.symm.trans hi)
      have hbody := hs.inside i hi
      cases hcalls : s.calls i with
      | nil => rw [hcalls] at hbody; cases hbody
      | cons statement rest =>
        rw [hcalls] at h hbody
        obtain ⟨record, hrecord, rfl⟩ := Option.map_eq_some_iff.mp h
        cases hbody with
        | commit =>
          have hcommit : CommitOrder.step s.record (.commit i) = some record := hrecord
          have hholder : record.holder = s.record.release i := by cases hcommit; rfl
          exact hs.leaves hcommit trivial hholder
        | insertFact hrest =>
          have hinsert : CommitOrder.step s.record (.insert i .event inserted) = some record :=
            hrecord
          have hholder : record.holder = some i := by cases hinsert; exact hi
          exact hs.enters hinsert hi hfree hholder hrest
        | insertObservation hrest =>
          have hinsert : CommitOrder.step s.record (.insert i .eventObservation true) =
              some record := hrecord
          have hholder : record.holder = some i := by cases hinsert; exact hi
          exact hs.enters hinsert hi hfree hholder hrest
    · have houtside := hs.outside i hi
      cases hcalls : s.calls i with
      | nil => rw [hcalls] at h; cases h
      | cons statement rest =>
        rw [hcalls] at h houtside
        obtain ⟨record, hrecord, rfl⟩ := Option.map_eq_some_iff.mp h
        cases houtside with
        | opens hbody =>
          cases hrecord
          exact hs.goes hi (.waits hbody)
        | waits hbody =>
          have hacquire : CommitOrder.step s.record (.acquire i) = some record := hrecord
          obtain ⟨hnone, hlocked⟩ : s.record.holder = none ∧
              { s.record with holder := some i } = record := by
            simpa [CommitOrder.step] using hacquire
          have hfree : ∀ j, s.record.holder = some j → j = i := by simp [hnone]
          exact hs.enters hacquire trivial hfree (by rw [← hlocked]) hbody

/-- What is visible stays so. -/
theorem Sessions.committed_grows {a : SessionAction ι} (h : s.step table a = some t) :
    s.record.committed <+: t.record.committed := by
  cases a with
  | call i c =>
    obtain ⟨-, rfl⟩ : s.calls i = [] ∧
        { s with calls := Function.update s.calls i c.statements } = t := by
      simpa [Sessions.step] using h
    exact List.prefix_rfl
  | page limit => cases h; exact List.prefix_rfl
  | fail i =>
    simp only [Sessions.step] at h
    split_ifs at h
    obtain ⟨record, hrollback, rfl⟩ := Option.map_eq_some_iff.mp h
    exact CommitOrder.committed_grows hrollback
  | proceed i inserted =>
    simp only [Sessions.step] at h
    cases hcalls : s.calls i with
    | nil => rw [hcalls] at h; cases h
    | cons statement rest =>
      rw [hcalls] at h
      obtain ⟨record, hrecord, rfl⟩ := Option.map_eq_some_iff.mp h
      cases haction : statement.action i inserted with
      | none => rw [haction] at hrecord; cases hrecord; exact List.prefix_rfl
      | some a => rw [haction] at hrecord; exact CommitOrder.committed_grows hrecord

/-- **Commit order is identity order.** Whatever the sessions' calls are, and however their
statements fall and fail: once a fact or an occurrence is visible, none with a smaller identity
becomes visible; and a consumer that pages by identity has seen every visible row between the
identity it began at and its cursor. -/
theorem commit_order_is_identity_order (table : IdentityTable) (start : ℕ)
    (as : List (SessionAction ι)) (s : Sessions ι)
    (h : run (Sessions.step table) (Sessions.init start) as = some s) :
    (∀ as' s', run (Sessions.step table) s as' = some s' → ∀ table' n m,
      (table', n) ∈ s.record.committed → (table', m) ∈ s'.record.committed →
        (table', m) ∉ s.record.committed → n < m) ∧
    ∀ n, (table, n) ∈ s.record.committed → start < n → n ≤ s.consumer.cursor →
      n ∈ s.consumer.seen := by
  have hstep : ∀ (s : Sessions ι) a t, s.Inv table start → s.step table a = some t →
      t.Inv table start := fun _ _ _ hs hstep => Sessions.step_inv hs hstep
  have hs : s.Inv table start := run_invariant hstep .init h
  refine ⟨fun as' s' h' table' n m hn hm hnew => ?_, fun n hn hlt hle => ?_⟩
  · have hs' : s'.Inv table start := run_invariant hstep hs h'
    have hprefix : s.record.committed <+: s'.record.committed :=
      run_preorder (R := fun s t : Sessions ι => s.record.committed <+: t.record.committed)
        (fun _ => List.prefix_rfl) (fun _ _ _ hst htu => hst.trans htu)
        (fun _ _ _ hstep => Sessions.committed_grows hstep) h'
    exact lt_of_committed hs'.order hprefix hn hm hnew
  · exact hs.consumer.seen n (mem_rowsOf.mpr hn) hlt hle

end

/-! ### Two workers -/

namespace TwoWorkers

/-- One event. -/
def event : Event := ⟨0, none, none⟩

/-- A call that records it, on a source's handle. -/
def call (source : Source) : SessionAction Source :=
  .call source (.record ⟨source, 0, 0, 9⟩ [event] .live none)

/-- All the statements of such a call, from the lock on. -/
def locked (source : Source) (inserted : Bool) : List (SessionAction Source) :=
  List.replicate 4 (.proceed source inserted)

/-- The enforcer's first call fails after its insertions, while the node waits for the lock;
its second one records a fact that is there, and its third one a new one. -/
def actions : List (SessionAction Source) :=
  [call .enforcer, .proceed .enforcer true, call .node, .proceed .node true,
    .proceed .enforcer true, .proceed .enforcer true, .proceed .enforcer true, .fail .enforcer] ++
  locked .node true ++
  [.page 10, call .enforcer, .proceed .enforcer false] ++ locked .enforcer false ++
  [call .enforcer, .proceed .enforcer true] ++ locked .enforcer true ++ [.page 10]

end TwoWorkers

/-- Two of the four identities that were taken are rows, and the consumer has read both. -/
theorem commit_order_twoWorkers :
    ∃ s, run (Sessions.step .event) (Sessions.init 0) TwoWorkers.actions = some s ∧
      rowsOf .event s.record.committed = [2, 4] ∧ s.consumer.cursor = 4 ∧
      ∀ n, (.event, n) ∈ s.record.committed → 0 < n → n ≤ 4 → n ∈ s.consumer.seen := by
  have hrun : ((run (Sessions.step .event) (Sessions.init 0) TwoWorkers.actions).filter fun s =>
      rowsOf .event s.record.committed = [2, 4] ∧ s.consumer.cursor = 4).isSome := by
    decide +kernel
  obtain ⟨s, hs⟩ := Option.isSome_iff_exists.mp hrun
  obtain ⟨hs, hrows⟩ := Option.filter_eq_some_iff.mp hs
  obtain ⟨hrows, hcursor⟩ := of_decide_eq_true hrows
  obtain ⟨-, hseen⟩ := commit_order_is_identity_order _ _ _ s hs
  rw [hcursor] at hseen
  exact ⟨s, hs, hrows, hcursor, hseen⟩

end Bip300Monitor
