import Bip300Monitor.Backfill.Cursor
import Bip300Monitor.Backfill.NodeWalk
import Bip300Monitor.Backfill.Outline

/-!
# The pages that a walk is made of

The engine records a page of the node's blocks only when it accepts it: whatever calls of the import
run, fail, are killed or start again, among whatever else writes the record, what is submitted is the
page of a walk, with the cursor that the walk goes on from. The record takes a page at its own cursor
only (`page_moves_with_cursor`), so that the pages it takes join.

## What is proved

* `iterate_submits`, `runHistory_submits` — a call submits accepted pages;
* `page_accepted` — so does every call of every run.
-/

namespace Bip300Monitor.Node

open Protobuf Transaction Runs Resumption Backfill

section
variable [BlockCodec] (chain : Chain) (history : HistoryStream MainchainBlock)

/-- The event is the block's, anchored to it. -/
def IsBlockEvent (history : HistoryStream MainchainBlock) (block : MainchainBlock) (event : Event) :
    Prop :=
  ∃ header now, history.header block = .ok header ∧
    history.envelope block (.atHeight header.hash header.height) now = .ok event

/-- A fetch answers what the client returns for the chain; a page is submitted when it is accepted. -/
def submits : Interface Unit (Backfill.Op MainchainBlock) Backfill.Op.Resp where
  rely _ _ := True
  pre e _ := match e with
    | .recordHistoryPage events expectedNext next => ∃ cursor page after,
      expectedNext = Block.observed cursor ∧ next = Option.map Block.observed after ∧
      AcceptedPage chain history cursor page after ∧
      List.Forall₂ (IsBlockEvent history) page.reverse events
    | _ => True
  sem e _ r _ := match e, r with
    | .fetch cursor requested, .ok blocks =>
      Results chain.Answers (fetch cursor.hash requested) blocks
    | _, _ => True
  rely_refl _ := trivial
  rely_trans _ _ _ _ _ := trivial

/-- Everything that the program submits is accepted. -/
def Submits {α : Type} (p : Engine MainchainBlock α) : Prop :=
  wpe (submits chain history) p (fun _ _ => True) ()

variable {chain history} {settings : Settings} {l : Locals}

/-! ### The outline -/

/-- What is known of the page at each point of a call. -/
def SubmitsAt (chain : Chain) (history : HistoryStream MainchainBlock) : Point MainchainBlock → Unit → Prop
  | .page _ cursor blocks _, _ | .marked _ cursor blocks _ _, _ => ∃ requested,
    Results chain.Answers (fetch cursor.hash requested) blocks ∧
      verifyPageWith history blocks cursor requested = .ok ()
  | .commit _ cursor page next, _ => AcceptedPage chain history cursor page next
  | _, _ => True

/-- **The loop submits accepted pages.** -/
def submitsLoop (chain : Chain) (history : HistoryStream MainchainBlock) :
    LoopOutline (submits chain history) history where
  At := SubmitsAt chain history
  stable _ _ _ h _ := h
  asks e he _ := ⟨by cases e <;> trivial, fun _ _ _ => rfl⟩
  settle _ _ := trivial
  current _ _ _ := ⟨trivial, fun _ _ _ => ⟨rfl, fun _ => trivial⟩⟩
  supersede _ _ _ _ _ := trivial
  begin _ _ _ _ := ⟨trivial, fun _ _ _ _ _ => trivial⟩
  enter _ _ _ := trivial
  anew _ _ _ := trivial
  fetch _ _ _ _ _ _ _ := by
    refine ⟨trivial, fun r _ hr => ⟨trivial, ?_⟩⟩
    rintro blocks _ rfl hverify _ _
    exact ⟨_, hr, hverify⟩
  probe _ _ _ _ _ _ _ := ⟨trivial, fun _ _ _ => trivial⟩
  shrink _ _ _ _ := ⟨trivial, fun _ _ _ _ => trivial⟩
  floor _ _ _ _ _ h := ⟨trivial, fun _ _ _ _ _ => h⟩
  cut _ cursor blocks _ _ index block header _ hblock hheader _ _ _ h := by
    obtain ⟨requested, hfetch, hverify⟩ := h
    refine ⟨trivial, fun _ _ _ _ => ⟨requested, blocks, index, block, header, true, hfetch, hverify, rfl, ?_,
      hheader, rfl⟩⟩
    rw [List.getLast?_take, if_neg (Nat.succ_ne_zero _), Nat.add_sub_cancel, hblock]
    rfl
  keep _ cursor blocks _ _ block header _ _ _ _ _ hblock hheader _ _ _ hnext h := by
    obtain ⟨requested, hfetch, hverify⟩ := h
    exact ⟨requested, blocks, blocks.length, block, header, _, hfetch, hverify,
      (List.take_of_length_le (Nat.le_succ _)).symm, hblock, hheader, hnext⟩
  repair _ _ _ _ _ _ := trivial
  recut _ _ _ _ _ := trivial
  record _ cursor page next _ hevents _ h :=
    ⟨⟨cursor, page, next, rfl, rfl, h, hevents⟩, fun _ _ _ _ _ => ⟨fun _ => trivial, fun _ => trivial⟩⟩

/-- And so does a call. -/
def submitsOutline (chain : Chain) (history : HistoryStream MainchainBlock) (settings : Settings) :
    Outline (submits chain history) history settings where
  __ := submitsLoop chain history
  check _ _ := ⟨trivial, fun _ _ _ _ _ _ => trivial⟩
  read _ _ := ⟨trivial, fun _ _ _ _ _ => trivial⟩
  first _ _ := trivial
  running _ _ _ _ := trivial
  resume _ _ _ := ⟨trivial, fun _ _ _ _ => trivial⟩
  upToDate _ _ _ _ _ _ _ _ := trivial
  extend _ _ _ _ _ _ _ _ _ := ⟨trivial, fun _ _ _ _ _ => trivial⟩
  again _ _ _ := trivial

theorem iterate_submits : Submits chain history (iterate history settings l) :=
  wpe_mono _ (fun _ _ _ => trivial) ((submitsLoop chain history).iterate_ends trivial)

theorem runHistory_submits (tip : ObservedBlock) :
    Submits chain history (runHistory history tip settings) :=
  wpe_mono _ (fun _ _ _ => trivial) ((submitsOutline chain history settings).runHistory_ends tip trivial)

end

/-! ### Every run -/

section
variable [BlockCodec] [Digests] {imp : Import MainchainBlock} {chain : Chain}
  {s t : State MainchainBlock}

/-- A fetch is answered by the node client. -/
def FetchesNode (chain : Chain) (s : State MainchainBlock) : Action MainchainBlock → Prop
  | .advance env => ∀ cursor requested, s.next? = some (.fetch cursor requested) →
    ∀ blocks, env.fetched = .ok blocks → Results chain.Answers (fetch cursor.hash requested) blocks
  | _ => True

/-- The call in progress submits accepted pages. -/
def CallSubmits (chain : Chain) (imp : Import MainchainBlock) (s : State MainchainBlock) : Prop :=
  ∀ c, s.call = some c →
    Proc.Good (submits chain imp.stream) (fun _ _ => True) c.proc ()

omit [Digests] in
theorem good_of_submits {p : Engine MainchainBlock (Locals ⊕ Outcome)}
    (h : Submits chain imp.stream p) :
    Proc.Good (submits chain imp.stream) (fun _ _ => True) p () :=
  wpe_mono _ (fun _ _ _ _ _ => trivial) h

/-- What the operations answer is what is used of them. -/
theorem perform_submits {run : Uuid} {env : Environment MainchainBlock} {db : Db}
    {e : Backfill.Op MainchainBlock}
    (h : ∀ cursor requested, e = .fetch cursor requested → ∀ blocks, env.fetched = .ok blocks →
      Results chain.Answers (fetch cursor.hash requested) blocks) :
    (submits chain imp.stream).sem e () (imp.perform run env db e).1 () := by
  cases e with
  | fetch cursor requested =>
    change (submits chain imp.stream).sem (.fetch cursor requested) () env.fetched ()
    cases hf : env.fetched with
    | error e => trivial
    | ok blocks => exact h cursor requested rfl blocks hf
  | _ => trivial

/-- **A step keeps to it.** -/
theorem step_callSubmits {a : Action MainchainBlock} (h : CallSubmits chain imp s)
    (ha : FetchesNode chain s a) (hstep : imp.step s a = some t) : CallSubmits chain imp t := by
  intro c' hc'
  cases Import.step_cases hstep with
  | world => exact h c' hc'
  | call run tip settings =>
    cases hc'
    exact good_of_submits (runHistory_submits tip)
  | op env hcall =>
    cases hc'
    refine good_advance (h _ hcall) (perform_submits fun cursor requested he => ?_)
    exact ha cursor requested (by simp [State.next?, hcall, Prog.next?, he])
  | round =>
    cases hc'
    exact good_of_submits iterate_submits
  | leave | crash => cases hc'

/-- **Every page of every run** is accepted: what the import submits are the events of the blocks of
a page of a walk, the oldest first, and the cursor that the walk goes on from. -/
theorem page_accepted {as : List (Action MainchainBlock)}
    (hnode : Along imp.step (FetchesNode chain) State.empty as)
    (hrun : Runs.run imp.step State.empty as = some s) {events : List Event}
    {expectedNext : ObservedBlock} {next : Option ObservedBlock}
    (hpage : s.page? = some (events, expectedNext, next)) :
    ∃ cursor page after, expectedNext = Block.observed cursor ∧
      next = Option.map Block.observed after ∧
      AcceptedPage chain imp.stream cursor page after ∧
      List.Forall₂ (IsBlockEvent imp.stream) page.reverse events := by
  have hs : CallSubmits chain imp s :=
    run_invariant_along (fun _ _ _ hs ha hstep => step_callSubmits hs ha hstep)
      (fun c hc => by cases hc) hnode hrun
  obtain ⟨e, he, hop⟩ := Option.bind_eq_some_iff.mp hpage
  obtain ⟨⟨run, settings, proc⟩, hcall, he⟩ := Option.bind_eq_some_iff.mp he
  have hgood := hs _ hcall
  cases proc with
  | ret r => cases he
  | op e' k =>
    cases he
    cases e <;> try cases hop
    exact good_pre hgood

end

end Bip300Monitor.Node
