import Bip300Monitor.Backfill.Agreement
import Bip300Monitor.Store.HistoryPages

/-!
# The cursor of an import

The pages that `run_history` submits go down: the next cursor of a page is below the
cursor it expects, whatever the upstream answers and whatever else writes the record
meanwhile. So of the callers that expect one cursor in one cycle, one at most moves it.
-/

namespace Bip300Monitor.Backfill

open Protobuf Transaction Runs Resumption

/-- The page that a state's call is about to record, and the cursor after it. -/
def State.page? {P : Type} (s : State P) : Option (List Event × ObservedBlock × Option ObservedBlock) :=
  s.next?.bind fun
    | .recordHistoryPage events expectedNext next => some (events, expectedNext, next)
    | _ => Option.none

section
variable {P : Type} [Digests]

omit [Digests] in
theorem Import.holds_none (imp : Import P) (s : State P) (a : Action P) :
    imp.Holds Conditions.none s a := by
  cases a with
  | world => exact False.elim
  | call => trivial
  | advance env =>
    intro e _
    cases e <;> first | exact False.elim | trivial
  | crash => trivial

/-- **The pages of an import go down.** -/
theorem Import.page_descends (imp : Import P) {as : List (Action P)} {s : State P}
    (h : run imp.step State.empty as = some s) {events : List Event} {expectedNext : ObservedBlock}
    {next : Option ObservedBlock} (hpage : s.page? = some (events, expectedNext, next)) :
    HistoryPage.Descends ⟨imp.stream.scope, expectedNext, next⟩ := by
  have hinv : imp.Inv Conditions.none s :=
    Import.reachable_inv (along_of_forall fun a _ s => imp.holds_none s a) h
  obtain ⟨e, he, hop⟩ := Option.bind_eq_some_iff.mp hpage
  obtain ⟨⟨run, settings, proc⟩, hcall, he⟩ := Option.bind_eq_some_iff.mp he
  have hgood := hinv.call _ hcall
  cases proc with
  | ret r => cases he
  | op e' k =>
    cases he
    cases e <;> try cases hop
    obtain ⟨row, cursor, -, -, -, rfl, hnext, -⟩ := good_pre hgood
    intro n hn
    obtain ⟨b, rfl, hlt, -⟩ := hnext n hn
    exact ⟨cursor.height, b.height, rfl, rfl, hlt⟩

/-- **Page and cursor move together.** In every record that a sequence of commands leads
to, a call of `record_history_page` ends in exactly one of three ways: page and cursor have
moved, the page is kept and its scope suspended, or nothing has happened. The pages of
every import go down; so for the rest of a cycle a cursor stays below the block that a page
has moved it from, and no other call that expects it there moves it. -/
theorem page_moves_with_cursor (startOf : ScopeKey → ℕ) (cs : List Command) (db : Db)
    (h : run (Db.step startOf) Db.empty cs = some db) (store : Store) (events : List Event)
    (page : HistoryPage) :
    (∃! o : PageOutcome, o.holds store events page db (recordHistoryPage store events page db)) ∧
    (page.Descends →
      PageAdvanced store events page db (recordHistoryPage store events page db) →
      ∀ cs' db', (∀ c ∈ cs', c.WithinCycle (store.key page.scope)) →
        run (Db.step startOf) (recordHistoryPage store events page db).2 cs' = some db' →
        (∀ b ∈ db'.cursor (store.key page.scope), ∀ height,
          page.expectedNext.height = some height → b.height < height) ∧
        ∀ store' events' page', store'.key page'.scope = store.key page.scope →
          page'.expectedNext = page.expectedNext →
          ¬ PageAdvanced store' events' page' db' (recordHistoryPage store' events' page' db')) ∧
    ∀ (P : Type) (imp : Import P) (as : List (Action P)) (s : State P),
      run imp.step State.empty as = some s → ∀ events expectedNext next,
        s.page? = some (events, expectedNext, next) →
          HistoryPage.Descends ⟨imp.stream.scope, expectedNext, next⟩ := by
  have hdb : db.Booked := by
    refine run_invariant (fun s c t hs hstep => ?_) Db.Booked.empty h
    cases hstep
    exact s.exec_booked startOf c hs
  refine ⟨existsUnique_outcome hdb store events page, fun hpage hadvanced cs' db' hcs' hrun => ?_,
    fun P imp as s hs events expectedNext next hnext => imp.page_descends hs hnext⟩
  obtain ⟨hbelow, honly⟩ := hadvanced.only startOf hpage hcs' hrun
  exact ⟨hbelow, fun store' events' page' hkey hexpected => honly store' events' page' _ hkey hexpected⟩

end

namespace TwoBlocks

open Bip300Monitor.TwoBlocks

/-- The node's handle. -/
def store : Store := ⟨.node, 0, 0, 9⟩

/-- The events of the page of both blocks. -/
def events : List Event :=
  [⟨0, some (.atHeight (bytes32 2) 6), some second⟩, ⟨0, some (.atHeight (bytes32 1) 5), some first⟩]

/-- The page of both blocks. -/
def page : HistoryPage := ⟨⟨.mainchainBlock, none, none⟩, .atHeight (bytes32 2) 6, none⟩

/-- A call in pages of one block, up to the commit of its first page. -/
def onePage : List (Action MainchainBlock) :=
  .world (.initializeIdentity .node 0 0 9) :: .call 0 (.atHeight (bytes32 2) 6) ⟨1, 0⟩ ::
    List.replicate 8 (.advance { node with
      fetched := .ok [⟨some ⟨bytes32 2, bytes32 1, 6, [], [], 0⟩, []⟩] })

end TwoBlocks

/-- The page of both blocks completes its scope, a second caller with it fails, and the first
page of a call in pages of one block goes down from 6 to 5. -/
theorem page_moves_with_cursor_twoBlocks :
    (∃ db db', run (@Db.step TwoBlocks.digests fun _ => 5) Db.empty (TwoBlocks.commands.take 2) =
        some db ∧
      @PageAdvanced TwoBlocks.digests TwoBlocks.store TwoBlocks.events TwoBlocks.page db
        (@recordHistoryPage TwoBlocks.digests TwoBlocks.store TwoBlocks.events TwoBlocks.page db) ∧
      (@recordHistoryPage TwoBlocks.digests TwoBlocks.store TwoBlocks.events TwoBlocks.page db).2 =
        db' ∧
      ¬ @PageAdvanced TwoBlocks.digests TwoBlocks.store TwoBlocks.events TwoBlocks.page db'
        (@recordHistoryPage TwoBlocks.digests TwoBlocks.store TwoBlocks.events TwoBlocks.page
          db')) ∧
    ∃ s events, run (@Import.step _ TwoBlocks.digests TwoBlocks.nodeImport) State.empty
        TwoBlocks.onePage = some s ∧
      s.page? = some (events, .atHeight (bytes32 2) 6, some (.atHeight (bytes32 1) 5)) ∧
      HistoryPage.Descends ⟨TwoBlocks.nodeImport.stream.scope, .atHeight (bytes32 2) 6,
        some (.atHeight (bytes32 1) 5)⟩ := by
  let _ := TwoBlocks.digests
  have hrun : ((run (Db.step fun _ => 5) Db.empty (TwoBlocks.commands.take 2)).filter fun db =>
      (recordHistoryPage TwoBlocks.store TwoBlocks.events TwoBlocks.page db).1.isOk).isSome := by
    decide +kernel
  have hpage : (((run (Import.step TwoBlocks.nodeImport) State.empty TwoBlocks.onePage).bind
      State.page?).map (·.2)) = some (.atHeight (bytes32 2) 6, some (.atHeight (bytes32 1) 5)) := by
    decide +kernel
  obtain ⟨db, hdb⟩ := Option.isSome_iff_exists.mp hrun
  obtain ⟨hdb, hok⟩ := Option.filter_eq_some_iff.mp hdb
  obtain ⟨⟨o, ho, -⟩, hcursor, hdescends⟩ := page_moves_with_cursor (fun _ => 5) _ db hdb
    TwoBlocks.store TwoBlocks.events TwoBlocks.page
  have hadvanced : PageAdvanced TwoBlocks.store TwoBlocks.events TwoBlocks.page db
      (recordHistoryPage TwoBlocks.store TwoBlocks.events TwoBlocks.page db) := by
    cases o with
    | advanced => exact ho
    | suspended =>
      obtain ⟨_, _, -, -, -, hanswer, -⟩ := ho
      rw [hanswer] at hok
      cases hok
    | failed =>
      obtain ⟨e, he⟩ := ho
      rw [he] at hok
      cases hok
  obtain ⟨-, honly⟩ := hcursor (by simp [HistoryPage.Descends, TwoBlocks.page]) hadvanced [] _
    (by simp) rfl
  refine ⟨⟨db, _, hdb, hadvanced, rfl, honly _ _ _ rfl rfl⟩, ?_⟩
  obtain ⟨⟨events, rest⟩, hs, rfl⟩ := Option.map_eq_some_iff.mp hpage
  obtain ⟨s, hs, hevents⟩ := Option.bind_eq_some_iff.mp hs
  exact ⟨s, events, hs, hevents, hdescends _ TwoBlocks.nodeImport _ s hs _ _ _ hevents⟩

end Bip300Monitor.Backfill
