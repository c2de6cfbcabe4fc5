import Bip300Monitor.Foundations.Runs
import Bip300Monitor.Runtime.FeeMonitor

/-!
# What a committed fee rests on

The candidates of a block are read, and its fees are committed in a transaction of its own. In
between, the enforcer's process can record a fact that is in conflict with the block's.

## What is proved

* `round_reads` — what an enrichment takes for candidates was read just before it;
* `fee_evidence` — the fees committed are of candidates, if in between no fact of the block for a slot
  of theirs was disputed;
* `not_fee_evidence` — otherwise they may be of none.
-/

namespace Bip300Monitor.FeeMonitor

open Protobuf Transaction Runs Resumption

/-! ### What was read -/

/-- The candidates of an enrichment are what was read last, for its block. -/
def Reads (last : Option (Sigma Op.Resp)) : Op → Prop
  | .recordFeeEnrichment candidates _ event => ∃ fees header, confirmedFees event = .ok fees ∧
      fees.header = some header ∧
      last = some ⟨.observedBmmCandidates header.hash header.previousHash, .ok candidates⟩
  | _ => True

variable {last : Option (Sigma Op.Resp)}

theorem enrich_reads (id : ℕ) (block : ObservedBlock) :
    wp (lastOp Reads) (enrich id block).run (fun _ _ => True) last := by
  have hquiet : wp (lastOp Reads) (enrichment block).run (fun _ _ => True) last := by
    refine wp_of_all _ (fun _ _ _ _ => trivial) (fun e he _ _ => ?_) (enrichment_quiet block) trivial
    cases e <;> first
      | exact ⟨trivial, fun _ _ _ => trivial⟩
      | exact he.elim
  rw [enrich, wp_run_bind]
  refine wp_mono _ (fun r _ _ => ?_) hquiet
  cases r with
  | error e => trivial
  | ok event =>
    simp only [recordNodeFees, wp_run_bind, wp_run_attempt]
    cases hfees : confirmedFees event with
    | error e => trivial
    | ok fees =>
      simp only
      cases hheader : fees.header with
      | none => trivial
      | some header =>
        simp only [Backfill.expect]
        refine (wp_run_call _ _).mpr fun _ _ => ⟨trivial, fun answer t ht => ?_⟩
        cases answer with
        | error e => trivial
        | ok candidates =>
          refine (wp_run_call _ _).mpr fun u hu => ⟨⟨fees, header, hfees, hheader, hu.trans ht⟩, ?_⟩
          intro r _ _
          cases r <;> trivial

theorem rest_reads (ms : ℕ) : wpe (lastOp Reads) (rest ms) (fun _ _ => True) last := by
  rw [rest, wpe_bind]
  refine (wpe_call _ _).mpr fun _ _ => ⟨trivial, fun shutdown _ _ => ?_⟩
  split_ifs <;> rw [wpe_pure] <;> trivial

/-- **What an enrichment takes for candidates** was read just before it. -/
theorem round_reads : wpe (lastOp Reads) round (fun _ _ => True) last := by
  rw [round, wpe_bind]
  refine (wpe_call _ _).mpr fun _ _ => ⟨trivial, fun shutdown _ _ => ?_⟩
  split_ifs
  · rw [wpe_pure]
    trivial
  · rw [wpe_bind]
    refine (wpe_call _ _).mpr fun _ _ => ⟨trivial, fun answer _ _ => ?_⟩
    rw [wpe_bind, wpe_attempt]
    rintro next rfl
    cases next with
    | none => exact rest_reads _
    | some served =>
      rw [wpe_bind, wpe_outcome]
      refine wp_mono _ (fun r _ _ => ?_) (enrich_reads served.1 served.2)
      cases r with
      | ok _ =>
        simp only [settle, wpe_bind, wpe_attempt, wpe_pure]
        exact (wpe_call _ _).mpr fun _ _ => ⟨trivial, fun _ _ _ _ _ => trivial⟩
      | error e =>
        simp only [settle, wpe_bind, wpe_attempt]
        refine (wpe_call _ _).mpr fun _ _ => ⟨trivial, fun _ _ _ _ _ => ?_⟩
        exact (wpe_call _ _).mpr fun _ _ => ⟨trivial, fun _ _ _ _ _ => rest_reads _⟩

theorem monitor_reads : wpe (lastOp Reads) monitor (fun _ _ => True) last := by
  simp only [monitor, wpe_bind, wpe_attempt, wpe_pure]
  exact (wpe_call _ _).mpr fun _ _ => ⟨trivial, fun _ _ _ _ _ => trivial⟩

/-! ### What holds of it -/

/-- The fees that an enrichment is about to commit are of candidates. -/
def RestsOn (store : Store) (db : Db) : Op → Prop
  | .recordFeeEnrichment candidates _ event => ∀ fees header, confirmedFees event = .ok fees →
      fees.header = some header → ∀ fee ∈ fees.fees, (fee.sidechainNumber, fee.txid) ∈ candidates →
        (fee.sidechainNumber, fee.txid) ∈
          observedBmmCandidates store header.hash header.previousHash db
  | _ => True

/-- While an enrichment is about to be committed, nothing is recorded that disputes a fact of its block
for a slot of its fees. -/
def Undisputed [Digests] (store : Store) (s : State) : Action → Prop
  | .world c => ∀ candidates id event, s.next? = some (.recordFeeEnrichment candidates id event) →
      ∀ fees header, confirmedFees event = .ok fees → fees.header = some header →
        ∀ fee ∈ fees.fees, ∀ row, c.records row → ∀ b ∈ s.db.events,
          b.isFactOfBlock store header.hash → b.sidechain = some fee.sidechainNumber →
            ¬ row.disputes b
  | _ => True

section
variable [Digests] {startOf : ScopeKey → ℕ} {datasetId : Uuid} {version : ℕ} {s t : State}
  {a : Action}

/-- What holds along the runs. -/
structure State.Evident (datasetId : Uuid) (version : ℕ) (s : State) : Prop where
  judged : s.db.Judged
  reads : ∀ w ∈ s.worker, ∃ last, Proc.Good (lastOp Reads) (fun _ _ => True) w.proc last
  evident : ∀ e, s.next? = some e → RestsOn (handle datasetId version 0) s.db e

omit [Digests] in
theorem State.Evident.empty : State.empty.Evident datasetId version :=
  ⟨.empty, by simp [State.empty], by simp [State.empty, State.next?]⟩

/-- What is read of the candidates is what they are. -/
theorem perform_evident {run : Uuid} {env : Environment} {alive : Bool} {db : Db} {e : Op}
    {k : e.Resp → Proc Op Op.Resp Failure Unit Unit} {last : Option (Sigma Op.Resp)}
    (hgood : Proc.Good (lastOp Reads) (fun _ _ => True) (.op e k) last) :
    ∀ e', (k (perform datasetId version run env alive db e).1).next? = some e' →
      RestsOn (handle datasetId version 0) (perform datasetId version run env alive db e).2.1 e' := by
  intro e' hnext
  cases e' with
  | recordFeeEnrichment candidates id event =>
    intro fees header hfees hheader fee hfee hmem
    have hgood' : Proc.Good (lastOp Reads) (fun _ _ => True)
        (k (perform datasetId version run env alive db e).1) (some ⟨e, _⟩) := good_advance hgood rfl
    match hk : k (perform datasetId version run env alive db e).1, hnext with
    | .op _ k', rfl =>
      rw [hk] at hgood'
      obtain ⟨fees', header', hfees', hheader', hlast⟩ := good_pre hgood'
      obtain rfl := Except.ok.inj (hfees.symm.trans hfees')
      obtain rfl := Option.some.inj (hheader.symm.trans hheader')
      obtain ⟨rfl, hanswer⟩ := Sigma.mk.inj (Option.some.inj hlast)
      have hanswer := eq_of_heq hanswer
      simp only [perform] at hanswer ⊢
      rcases env.deliver_cases alive db (.ok (observedBmmCandidates
        (handle datasetId version run) header.hash header.previousHash db), db) with
        ⟨-, hout⟩ | ⟨_, hout⟩ | ⟨_, -, hout⟩
      · rw [hout] at hanswer ⊢
        rw [← Except.ok.inj hanswer] at hmem
        exact hmem
      · rw [hout] at hanswer
        cases hanswer
      · rw [hout] at hanswer
        cases hanswer
  | _ => trivial

/-- **One step** that disputes nothing. -/
theorem step_evident (hs : s.Evident datasetId version)
    (ha : Undisputed (handle datasetId version 0) s a)
    (h : step startOf datasetId version s a = some t) : t.Evident datasetId version := by
  obtain ⟨hj, hreads, hevident⟩ := hs
  cases step_stepped startOf datasetId version h with
  | world command hforeign =>
    refine ⟨Db.exec_judged startOf _ command hj, hreads, fun e he => ?_⟩
    have hbefore := hevident e he
    cases e with
    | recordFeeEnrichment candidates id event =>
      intro fees header hfees hheader fee hfee hmem
      refine observedBmmCandidates_exec startOf hj (fun row hrow b hb hof hslot => ?_)
        (hbefore fees header hfees hheader fee hfee hmem)
      exact ha candidates id event he fees header hfees hheader fee hfee row hrow b hb hof hslot
    | _ => trivial
  | start run =>
    refine ⟨hj, ?_, ?_⟩
    · rintro w ⟨⟩
      exact ⟨none, wpe_mono _ (fun _ _ _ _ _ => trivial) monitor_reads⟩
    · rintro e ⟨⟩
      trivial
  | again env =>
    refine ⟨hj, ?_, ?_⟩
    · rintro w ⟨⟩
      exact ⟨none, wpe_mono _ (fun _ _ _ _ _ => trivial) round_reads⟩
    · rintro e ⟨⟩
      trivial
  | perform run alive env =>
    obtain ⟨last, hgood⟩ := hreads _ rfl
    refine ⟨?_, ?_, perform_evident hgood⟩
    · rcases perform_db startOf datasetId version run env alive _ _ with hsame | ⟨-, c, -, hexec⟩
      · rw [hsame]
        exact hj
      · rw [hexec]
        exact Db.exec_judged startOf _ c hj
    · rintro w ⟨⟩
      exact ⟨_, good_advance hgood rfl⟩
  | returned | crash => exact ⟨hj, by rintro w ⟨⟩, by rintro e ⟨⟩⟩

/-- A committed enrichment keeps the candidates: it is no fact of the enforcer's. -/
theorem candidates_recordFeeEnrichment {db : Db} (hj : db.Judged) {run : Uuid}
    {candidates : List (ℕ × Bytes)} {id : ℕ} {event : Event} {hash parent : Bytes} {p : ℕ × Bytes}
    (hp : p ∈ observedBmmCandidates (handle datasetId version 0) hash parent db) :
    p ∈ observedBmmCandidates (handle datasetId version 0) hash parent (db.exec startOf
      (.recordFeeEnrichment (handle datasetId version run) candidates id event)) := by
  refine observedBmmCandidates_exec startOf hj (fun row hrow b _ hof _ hdisputes => ?_) hp
  obtain ⟨batch, hbatch, event', -, f, payload, inst, -, -, -, rfl⟩ := hrow
  obtain rfl := Option.some.inj hbatch
  have hsource : Source.enforcer = .node := hof.1.2.2.1.symm.trans hdisputes.1.2.2.1
  cases hsource

/-- A fact with fees is committed by the worker. -/
theorem step_fees (h : step startOf datasetId version s a = some t) {e : EventRow}
    (he : e ∈ t.db.events) (hnew : e ∉ s.db.events) {fees : ConfirmedBmmFees}
    (hfees : confirmedFees e.envelope = .ok fees) :
    ∃ run candidates id, s.next? = some (.recordFeeEnrichment candidates id e.envelope) ∧
      t.db = s.db.exec startOf
        (.recordFeeEnrichment (handle datasetId version run) candidates id e.envelope) := by
  -- a fact that a command adds is one of its events
  have added {c : Command} (hc : e ∈ (s.db.exec startOf c).events) : e.envelope ∈ c.events := by
    rcases (s.db.exec_adds startOf c).fresh e hc with hold | ⟨-, row, ⟨b, hb, hrow⟩, heq⟩
    · exact absurd hold hnew
    · obtain ⟨event, hevent, f, payload, inst, -, -, -, rfl⟩ := hrow
      rw [heq, Command.events_of_batch hb]
      exact hevent
  cases step_stepped startOf datasetId version h with
  | world command hforeign =>
    have hpayload := confirmedFees_eq_ok.mp hfees
    exact absurd rfl (hforeign.2 _ (added he) (.confirmedBmmFees fees) (by simp [nodePayload, hpayload])).1
  | perform run alive env =>
    rcases perform_db startOf datasetId version run env alive _ _ with hsame | ⟨-, c, hc, hexec⟩
    · rw [hsame] at he
      exact absurd he hnew
    · rw [hexec] at he
      have hevent := added he
      rename_i db op k
      cases op with
      | recordFeeEnrichment candidates id event =>
        obtain rfl := Option.some.inj hc
        obtain rfl := List.mem_singleton.mp hevent
        exact ⟨run, candidates, id, rfl, hexec⟩
      | initializeWorkerStatuses | recordFeeFailure | recordWorkerSuccess | recordWorkerFailure =>
        obtain rfl := Option.some.inj hc
        cases hevent
      | pause | nextFeeBlock | getblockheader | observedBmmCandidates | getblock | now => cases hc
  | start | again | returned | crash => exact absurd he hnew

/-- **Fees that are committed are of candidates**, if nothing recorded between the reading and the
commit disputes a fact of the block for a slot of theirs: in every run, in the state in which they are
committed. -/
theorem fee_evidence {as : List Action}
    (hcond : Along (step startOf datasetId version) (Undisputed (handle datasetId version 0)) .empty as)
    (hrun : run (step startOf datasetId version) .empty as = some s)
    (hstep : step startOf datasetId version s a = some t) :
    ∀ e ∈ t.db.events, e ∉ s.db.events → ∀ fees, confirmedFees e.envelope = .ok fees →
      ∃ header, fees.header = some header ∧ ∀ fee ∈ fees.fees,
        (fee.sidechainNumber, fee.txid) ∈ observedBmmCandidates (handle datasetId version 0)
          header.hash header.previousHash t.db := by
  intro e he hnew fees hfees
  have hs : s.Evident datasetId version :=
    run_invariant_along (fun s a t hs ha h => step_evident hs ha h) .empty hcond hrun
  obtain ⟨run, candidates, id, hnext, hexec⟩ := step_fees hstep he hnew hfees
  rcases Tx.commit_snd_cases (recordFeeEnrichment (handle datasetId version run) candidates id
    e.envelope) s.db with ⟨_, u, hok, -⟩ | ⟨_, -, hcommit⟩
  · obtain ⟨fees', header, hfees', hheader, hall⟩ := recordFeeEnrichment_checked hok
    obtain rfl := Except.ok.inj (hfees.symm.trans hfees')
    refine ⟨header, hheader, fun fee hfee => ?_⟩
    rw [hexec]
    exact candidates_recordFeeEnrichment hs.judged
      (hs.evident _ hnext fees header hfees hheader fee hfee (hall fee hfee))
  · have hsame : t.db = s.db := hexec.trans (congrArg Prod.snd hcommit)
    rw [hsame] at he
    exact absurd he hnew

end

/-! ### A bid and its block -/

namespace OneBid

/-- A block of height 6. -/
def hash : Bytes := bytes32 0x59a025a21f5acdbe911d1db20fffa48cd2621e5130834c32c8413913a28f2654

def parent : Bytes := bytes32 1

/-- The transaction of the bid. -/
def txid : Bytes := bytes32 0xd06e84fd77bbe5ef6475c1dd7309258c92743b7d2429a44b904e6540e8c38613

/-- The serialized block: its header, a coinbase and the transaction of the bid. -/
def rawBlock : Bytes := (Convert.hexDecode
  ("0100000001000000000000000000000000000000000000000000000000000000000000" ++
    "00f731e49e2267c9424b981565e211336db49f28924644af8d02851eca6a9ff3c91400" ++
    "0000ffff7f200200000002010000000100000000000000000000000000000000000000" ++
    "00000000000000000000000000ffffffff025600ffffffff0100000000000000000151" ++
    "0000000001000000010000000000000000000000000000000000000000000000000000" ++
    "0000000000030000000000ffffffff018403000000000000015100000000")).toOption.getD []

/-- The sample of the auction on top of the parent. -/
def sample : EnforcerEvent := .bmmRequests ⟨parent, [⟨9, txid, bytes32 7, 1000⟩]⟩

/-- A later sample, with another bid for the same commitment. -/
def lateSample : EnforcerEvent :=
  .bmmRequests ⟨parent, [⟨9, txid, bytes32 7, 1000⟩, ⟨9, bytes32 5, bytes32 7, 2000⟩]⟩

/-- The enforcer's fact of the block, with a commitment or without. -/
def connected (bmmCommitment : Option Bytes) : EnforcerEvent :=
  .blockConnected ⟨some ⟨hash, parent, 6, Node.toLeBytes 2, [], 20⟩, 9, bmmCommitment, []⟩

/-- The header that the node's answers make. -/
def header : BlockHeader := ⟨hash, parent, 6, Node.toLeBytes 2, Node.toLeBytes 14, 20⟩

/-- The node's block. -/
def block : NodeEvent := .mainchainBlock ⟨some header, rawBlock⟩

/-- What the worker makes of it. -/
def fees : ConfirmedBmmFees :=
  ⟨some header, [⟨9, txid, some 100, ""⟩], "ecash-node:getblock:3;observed_bids_only"⟩

/-- The digests of the payloads, and the transactions of the block. -/
@[reducible] def digests : Digests :=
  { Digests.ofPayloads [
      (.enforcer (some (.activeSidechains [slotNine])),
        0xf2a242527941e63799fa9b77cce23743b8893a0c8ca5904f5b3f83c313c8bfb4),
      (.enforcer (some sample), 0x9764027ff6736b226f728778a25219204693608873e117a26a7c8ba6c9229911),
      (.enforcer (some lateSample),
        0x5d027fdfa2615bb995a880f05ec82d829285de6792de5739fcd0e1f4d1ae5f06),
      (.enforcer (some (connected (some (bytes32 7)))),
        0x768b3a19712cf5fc110dd78c420dfa26790ad76caffe4614f6a7a33696912af5),
      (.enforcer (some (connected none)),
        0x49c8f98f889c57c55eeb52c73cd7e93b14ec4a4d2b870b1fe100da966141a34b),
      (.node (some block), 0x43b5294532e794bc3a038f1b0289ea15a3cc1a8a231ef46701d398653c10cc10),
      (.node (some (.confirmedBmmFees fees)),
        0x829bbd53ed804ad816ee05d5e7749adbf08ba79cd69f535074718d573c1c9c54)] with
    txids := fun bytes => if bytes = rawBlock then some [
      bytes32 0x390c90159b741210fd7027975c027be2f7b2dfffc65d2cd938dfa2ee48d7d17c, txid] else none }

def enforcer : Store := ⟨.enforcer, 0, 0, 9⟩

/-- An envelope. -/
def event (anchor : ObservedBlock) (payload : MonitorEvent) : Event := ⟨0, some anchor, some payload⟩

/-- The enforcer's record of a fact of the block. -/
def recordConnected (bmmCommitment : Option Bytes) : Command :=
  .record enforcer [event (.atHeight hash 6) (.enforcer (some (connected bmmCommitment)))] .live
    (some slotNineInstance)

/-- The enforcer's record of a sample, taken while the parent was the tip. -/
def recordSample (payload : EnforcerEvent) : Command :=
  .recordSnapshot enforcer [event (.atHeight parent 5) (.enforcer (some payload))] .poll
    (tipMatchedAt (.atHeight parent 5))

/-- The sample, the active set, and the block from both processes. -/
def commands : List Command :=
  [.initializeIdentity .enforcer 0 0 9, .initializeIdentity .node 0 1 9, recordSample sample,
    .recordSnapshot enforcer [activeReading [slotNine]] .poll (tipMatchedAt (.atHeight hash 6)),
    recordConnected (some (bytes32 7)),
    .record ⟨.node, 0, 1, 9⟩ [event (.atHeight hash 6) (.node (some block))] .live none]

/-- What the node answers of a block, with the block's own data. -/
def env (hash previous : Bytes) (height chainwork : ℕ) : Environment where
  shutdown := false
  header := .ok ⟨some (hexEncode hash), some height, some (hexEncode previous),
    some (hexEncode (bytes32 chainwork)), some 20⟩
  block := .ok ⟨some (hexEncode hash), some [⟨some (hexEncode txid), some [.ok 1000], some [.ok 900]⟩]⟩
  now := .ok 0
  due := fun _ => none
  fault := none
  closed := .bail "the connection is closed"

/-- The worker up to the point where it commits the fees of the block. -/
def attempt : List Action :=
  .start 1 :: List.replicate 5 (.advance (env hash parent 6 14)) ++
    .advance (env parent (bytes32 2) 5 12) :: List.replicate 4 (.advance (env hash parent 6 14))

/-- The commit of the fees. -/
def commit : Action := .advance (env hash parent 6 14)

/-- The enforcer's process writes while no operation is under way. -/
def Calm (s : State) : Action → Prop
  | .world _ => s.next? = none
  | _ => True

instance (s : State) : ∀ a, Decidable (Calm s a)
  | .world _ => decidable_of_iff (s.next?.isNone = true) (by simp [Calm])
  | .start _ | .advance _ | .crash => isTrue trivial

/-- The fees of the block are new, and of a bid. -/
def Commits (s t : State) : Prop :=
  ∃ e ∈ t.db.events, e ∉ s.db.events ∧
    e.envelope.monitorEvent = some (.node (some (.confirmedBmmFees fees)))

instance (s t : State) : Decidable (Commits s t) := inferInstanceAs (Decidable (∃ e ∈ t.db.events, _))

end OneBid

/-- The fees of the bid are committed while it is a candidate. -/
theorem fee_evidence_oneBid :
    ∃ s t, run (@step OneBid.digests (fun _ => 5) 0 9) .empty
        (OneBid.commands.map .world ++ OneBid.attempt) = some s ∧
      @step OneBid.digests (fun _ => 5) 0 9 s OneBid.commit = some t ∧ OneBid.Commits s t ∧
      (9, OneBid.txid) ∈ observedBmmCandidates (handle 0 9 0) OneBid.hash OneBid.parent t.db := by
  let _ := OneBid.digests
  have hruns : ((run (step (fun _ => 5) 0 9) .empty (OneBid.commands.map .world ++ OneBid.attempt)).bind
      fun s => ((step (fun _ => 5) 0 9 s OneBid.commit).filter fun t => OneBid.Commits s t).map
        fun t => (s, t)).isSome := by
    decide +kernel
  obtain ⟨⟨s, t⟩, hst⟩ := Option.isSome_iff_exists.mp hruns
  obtain ⟨s', hs, hst⟩ := Option.bind_eq_some_iff.mp hst
  obtain ⟨t', ht, heq⟩ := Option.map_eq_some_iff.mp hst
  obtain ⟨rfl, rfl⟩ := Prod.mk.inj heq
  obtain ⟨ht, hcommits⟩ := Option.filter_eq_some_iff.mp ht
  have hcalm : Along (step (fun _ => 5) 0 9) OneBid.Calm .empty
      (OneBid.commands.map .world ++ OneBid.attempt) := by
    decide +kernel
  have hcond : Along (step (fun _ => 5) 0 9) (Undisputed (handle 0 9 0)) .empty
      (OneBid.commands.map .world ++ OneBid.attempt) := by
    refine hcalm.mono fun s a hcalm => ?_
    cases a with
    | world c =>
      intro candidates id event hnext
      have hnone : s.next? = none := hcalm
      rw [hnone] at hnext
      cases hnext
    | _ => trivial
  obtain ⟨e, he, hnew, hfees⟩ := of_decide_eq_true hcommits
  obtain ⟨header, hheader, hall⟩ := fee_evidence hcond hs ht e he hnew OneBid.fees
    (confirmedFees_eq_ok.mpr hfees)
  obtain rfl := Option.some.inj hheader
  exact ⟨s', t', hs, ht, ⟨e, he, hnew, hfees⟩, hall _ (List.mem_singleton_self _)⟩

/-- **The fees are committed of a bid that is no candidate any more.** Between the reading and the
commit the enforcer's process has recorded another fact of the block. -/
theorem not_fee_evidence :
    ∃ s t, run (@step OneBid.digests (fun _ => 5) 0 9) .empty (OneBid.commands.map .world ++
        OneBid.attempt ++ [.world (OneBid.recordConnected none)]) = some s ∧
      @step OneBid.digests (fun _ => 5) 0 9 s OneBid.commit = some t ∧ OneBid.Commits s t ∧
      (9, OneBid.txid) ∉ observedBmmCandidates (handle 0 9 0) OneBid.hash OneBid.parent t.db := by
  let _ := OneBid.digests
  have hruns : ((run (step (fun _ => 5) 0 9) .empty (OneBid.commands.map .world ++ OneBid.attempt ++
      [.world (OneBid.recordConnected none)])).bind
      fun s => ((step (fun _ => 5) 0 9 s OneBid.commit).filter fun t => OneBid.Commits s t ∧
        (9, OneBid.txid) ∉ observedBmmCandidates (handle 0 9 0) OneBid.hash OneBid.parent t.db).map
        fun t => (s, t)).isSome := by
    decide +kernel
  obtain ⟨⟨s, t⟩, hst⟩ := Option.isSome_iff_exists.mp hruns
  obtain ⟨s', hs, hst⟩ := Option.bind_eq_some_iff.mp hst
  obtain ⟨t', ht, heq⟩ := Option.map_eq_some_iff.mp hst
  obtain ⟨rfl, rfl⟩ := Prod.mk.inj heq
  obtain ⟨ht, hcommits⟩ := Option.filter_eq_some_iff.mp ht
  obtain ⟨hcommits, hnot⟩ := of_decide_eq_true hcommits
  exact ⟨s', t', hs, ht, hcommits, hnot⟩

end Bip300Monitor.FeeMonitor
