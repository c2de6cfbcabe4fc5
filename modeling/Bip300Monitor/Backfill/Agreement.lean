import Bip300Monitor.Backfill.Calls

/-!
# The engine and the trigger agree

When history is complete is decided twice: by the engine, from pages of headers, a floor
and a persisted cursor, and by the trigger, from the recorded facts alone. They agree:
what the engine submits as the last page the trigger certifies.

## What is proved

* `final_page_certifies` — over every sequence of RPC answers, crashes, restarts and writes
  of the rest of the monitor, provided a block hash determines its header.
-/

namespace Bip300Monitor.Backfill

open Protobuf Transaction Runs Resumption

variable {P : Type}

/-- A block hash determines its header: whatever the upstream answers, and whatever the
rest of the monitor records, tells the height and the parent of a block as `hdr` does. -/
def Import.Determined (imp : Import P) (hdr : Headers) (s : State P) : Action P → Prop
  | .world command => ∀ event ∈ command.events, imp.HonestEvent hdr event
  | .advance env => ∀ cursor requested, s.next? = some (.fetch cursor requested) →
      ∀ payloads, env.fetched = .ok payloads → ∀ p ∈ payloads, ∀ h,
        imp.stream.header p = .ok h → Tells hdr h
  | _ => True

/-- Block hashes determine headers. -/
def determined (hdr : Headers) : Conditions := { Conditions.none with hdr := hdr, honest := True }

theorem Import.Determined.holds {imp : Import P} {hdr : Headers} {s : State P} {a : Action P}
    (h : imp.Determined hdr s a) : imp.Holds (determined hdr) s a := by
  cases a with
  | world command => exact fun _ => h
  | advance env =>
    intro e he
    cases e with
    | fetch cursor requested => exact fun _ => h cursor requested he
    | currentSidechainInstanceId | beginHistoryCycle => exact fun hfalse => hfalse.elim
    | _ => trivial
  | _ => trivial

section
variable [Digests]

/-- A final page of a scope without a retained conflict leaves its target grounded. -/
theorem Import.HonestPage.grounded {imp : Import P} {run : Uuid} {hdr : Headers} {s u : Db}
    {events : List Event} {cursor : Block} {hs : List BlockHeader} {oldest : BlockHeader}
    {inserted : ℕ} {row : CoverageRow} (hp : imp.HonestPage hdr s events none cursor hs oldest)
    (hhonest : s.Honest hdr imp.key) (hd : s.Descends imp.key row.targetTip cursor)
    (hi : insertPage (imp.store run) events imp.stream.scope s = .ok (inserted, u)) :
    u.Grounded imp.key (imp.startOf imp.key) row.targetTip := by
  obtain ⟨-, hcursor, e, he, hb, hh, hprev⟩ := hp.recordedFacts hhonest hi
  have hgrows := grows_insertPage _ _ _ hi
  have hsub : s.certified ⊆ u.certified := by
    rw [hgrows.certified]
    exact fun _ h => h
  have holdest : u.Descends imp.key row.targetTip oldest.block :=
    (hd.mono hgrows.events).trans hcursor
  rw [imp.startOf_key]
  rcases hp.ends rfl with hcert | hstart | ⟨height, hheight, hcert⟩
  · exact ⟨oldest.block, holdest, .inl (hcert.mono hsub)⟩
  · exact ⟨oldest.block, holdest, .inr ⟨hstart, e, he, hb, hh⟩⟩
  · refine ⟨⟨oldest.previousHash, height⟩, holdest.trans ?_, .inl (hcert.mono hsub)⟩
    rw [BlockHeader.block, hheight]
    rw [hheight] at hh
    exact .step he hb hh hprev (.refl _)

/-- **The walk of the engine and the walk of the trigger agree.** Whenever a call is about
to commit a final page, and the page's events can be recorded without a conflict being
retained in the scope, the trigger accepts the row: the call succeeds, the target is
certified, and recorded facts lead from it down to the start, one a height. -/
theorem final_page_certifies (imp : Import P) (hdr : Headers) {as : List (Action P)} {s : State P}
    {c : Call P} {events : List Event} {expectedNext : ObservedBlock} {inserted : ℕ} {u : Db}
    (hdetermined : Along imp.step (imp.Determined hdr) State.empty as)
    (hrun : Runs.run imp.step State.empty as = some s) (hcall : s.call = some c)
    (hop : c.proc.next? = some (.recordHistoryPage events expectedNext none))
    (hinsert : insertPage (imp.store c.run) events imp.stream.scope s.record.db = .ok (inserted, u))
    (hno : ¬ u.retainsConflict imp.key) :
    ∃ row cursor t, imp.row s.record.db = some row ∧ row.next = some cursor ∧
      expectedNext = cursor.observed ∧
      certifyHistory imp.key (row.afterPage cursor none false inserted) u = .ok ((), t) ∧
      recordHistoryPage (imp.store c.run) events ⟨imp.stream.scope, expectedNext, none⟩
        s.record.db = (.ok inserted, t.setCoverage imp.key (row.afterPage cursor none false inserted)) ∧
      t.certifies imp.key row.targetTip ∧
      ∃ chain, IsFactChain (t.setCoverage imp.key (row.afterPage cursor none false inserted)) imp.key
        row.targetTip imp.stream.activationHeight chain := by
  have hinv : imp.Inv (determined hdr) s :=
    Import.reachable_inv (hdetermined.mono fun _ _ h => h.holds) hrun
  have hdurable := hinv.durable
  -- the operation may be performed
  obtain ⟨run, settings, proc⟩ := c
  cases proc with
  | ret r => cases hop
  | op e k =>
    obtain rfl : e = .recordHistoryPage events expectedNext none := Option.some.inj hop
    obtain ⟨row, cursor, hrow, hcursor, hrunning, rfl, -, hpage⟩ := good_pre (hinv.call _ hcall)
    obtain ⟨hne, hs, oldest, hp⟩ := hpage trivial
    have hrowInv := hdurable.row row hrow
    have hgrows := grows_insertPage _ _ _ hinsert
    have hu : CertifiedPrefix imp.startOf u := hgrows.keeps.inv hdurable.certified
    have hurow : u.coverage imp.key = some row := by
      rw [hgrows.coverage]
      exact hrow
    have hstart : (row.afterPage cursor none false inserted).coverageStartHeight =
        imp.startOf imp.key := hu.start _ row hurow
    have hunambiguous := hu.sound.unambiguous hno
    have hstatus : (row.afterPage cursor none false inserted).status = .complete := rfl
    obtain ⟨t, ht⟩ := certifyHistory_accepts hu hunambiguous
      (hp.recordedFacts (hdurable.honest trivial) hinsert).1 hstart rfl hstatus
      (hp.grounded (hdurable.honest trivial) (hrowInv.descends trivial cursor hcursor) hinsert)
    obtain ⟨-, -, -, htarget⟩ := certifyHistory_sound hunambiguous (fun c hc _ => hu.fact c hc) hstatus ht
    have htx := recordHistoryPageTx_final hne hrowInv.scope
      ((hrowInv.next_le cursor hcursor).trans hrowInv.target_le) hinsert hno hurow hcursor hrunning
      (hrowInv.valid.afterFinalPage cursor inserted) ht
    have hkeeps : Keeps imp.startOf s.record.db _ := keeps_recordHistoryPage _ _ htx
    have hfinal := hkeeps.inv hdurable.certified
    obtain ⟨b, hb, hscope, hhash, hheight⟩ := htarget
    obtain ⟨chain, hchain⟩ := hfinal.exists_factChain hb
    rw [hscope, hhash, hheight, imp.startOf_key] at hchain
    refine ⟨row, cursor, t, hrow, hcursor, rfl, ht, ?_, ⟨b, hb, hscope, hhash, hheight⟩, chain, hchain⟩
    rw [recordHistoryPage, Tx.commit_eq_ok.mpr htx]
    rfl

end

/-- The call that is about to commit a final page, and the page. -/
def State.finalPage? {P : Type} (s : State P) : Option (Call P × List Event × ObservedBlock) :=
  s.call.bind fun c => match c.proc.next? with
    | some (.recordHistoryPage events expectedNext none) => some (c, events, expectedNext)
    | _ => none

theorem State.finalPage?_eq_some {s : State P} {c : Call P} {events : List Event}
    {expectedNext : ObservedBlock} (h : s.finalPage? = some (c, events, expectedNext)) :
    s.call = some c ∧ c.proc.next? = some (.recordHistoryPage events expectedNext none) := by
  obtain ⟨c', hc', h⟩ := Option.bind_eq_some_iff.mp h
  split at h
  · cases h
    exact ⟨hc', by assumption⟩
  · cases h

/-! ### A node's two blocks -/

namespace TwoBlocks

open Bip300Monitor.TwoBlocks

theorem activationHeight : 5 = (NodeHistory 5 none).activationHeight := rfl

/-- The import of a node's blocks from height 5. -/
def nodeImport : Import MainchainBlock where
  stream := NodeHistory 5 none
  source := .node
  datasetId := 0
  eventContractVersion := 9
  startOf := fun _ => 5
  start_eq := activationHeight

/-- The node's answers. -/
def node : Environment MainchainBlock where
  shutdown := false
  fetched := .ok [⟨some ⟨bytes32 2, bytes32 1, 6, [], [], 0⟩, []⟩,
    ⟨some ⟨bytes32 1, bytes32 0, 5, [], [], 0⟩, []⟩]
  tip := .ok (.atHeight (bytes32 2) 6)
  now := .ok 0
  fault := none

/-- A call up to the commit of its one page. -/
def actions : List (Action MainchainBlock) :=
  .world (.initializeIdentity .node 0 0 9) :: .call 0 (.atHeight (bytes32 2) 6) ⟨100, 0⟩ ::
    List.replicate 9 (.advance node)

/-- The two headers. -/
def headers : Headers where
  height hash := if hash = bytes32 2 then 6 else 5
  previousHash hash := if hash = bytes32 2 then bytes32 1 else bytes32 0

theorem determined : ∀ a ∈ actions, ∀ s, nodeImport.Determined headers s a := by
  intro a ha s
  simp only [actions, List.mem_cons, List.mem_replicate] at ha
  rcases ha with rfl | rfl | ⟨-, rfl⟩
  · intro event hevent
    cases hevent
  · trivial
  · intro cursor requested _ payloads hpayloads p hp h hh
    cases hpayloads
    simp only [List.mem_cons, List.not_mem_nil, or_false] at hp
    rcases hp with rfl | rfl
    · cases hh
      exact ⟨rfl, rfl⟩
    · cases hh
      exact ⟨by decide, by decide⟩

/-- How many of a final page's events are inserted, unless a conflict is retained. -/
def insertable [Digests] (s : State MainchainBlock) : Option ℕ :=
  s.finalPage?.bind fun x =>
    match insertPage (nodeImport.store x.1.run) x.2.1 nodeImport.stream.scope s.record.db with
    | .ok (inserted, u) => if u.retainsConflict nodeImport.key then none else some inserted
    | .error _ => none

end TwoBlocks

/-- The page of both blocks is certified. -/
theorem final_page_certifies_twoBlocks :
    ∃ s row t chain, Runs.run (@Import.step _ TwoBlocks.digests TwoBlocks.nodeImport) State.empty
        TwoBlocks.actions = some s ∧ TwoBlocks.nodeImport.row s.record.db = some row ∧
      row.next = some ⟨bytes32 2, 6⟩ ∧ IsFactChain t TwoBlocks.nodeImport.key row.targetTip 5 chain := by
  let _ := TwoBlocks.digests
  have hcheck : ((Runs.run TwoBlocks.nodeImport.step State.empty TwoBlocks.actions).bind
      fun s => (TwoBlocks.insertable s).map fun n =>
        (n, (TwoBlocks.nodeImport.row s.record.db).bind (·.next))) =
      some (2, some ⟨bytes32 2, 6⟩) := by decide +kernel
  obtain ⟨s, hs, hcheck⟩ := Option.bind_eq_some_iff.mp hcheck
  obtain ⟨n, hn, heq⟩ := Option.map_eq_some_iff.mp hcheck
  obtain ⟨⟨c, events, expectedNext⟩, hfinal, hinsert⟩ := Option.bind_eq_some_iff.mp hn
  obtain ⟨hcall, hop⟩ := State.finalPage?_eq_some hfinal
  split at hinsert
  case h_2 => cases hinsert
  case h_1 inserted u hu =>
    split_ifs at hinsert with hconflict
    obtain ⟨row, cursor, t, hrow, hcursor, -, -, -, -, chain, hchain⟩ :=
      final_page_certifies TwoBlocks.nodeImport TwoBlocks.headers
        (along_of_forall TwoBlocks.determined) hs hcall hop hu hconflict
    refine ⟨s, row, _, chain, hs, hrow, ?_, hchain⟩
    have hnext : (TwoBlocks.nodeImport.row s.record.db).bind (·.next) = some ⟨bytes32 2, 6⟩ :=
      congrArg Prod.snd heq
    rw [hrow] at hnext
    exact hnext

end Bip300Monitor.Backfill
