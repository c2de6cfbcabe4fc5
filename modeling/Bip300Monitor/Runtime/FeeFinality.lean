import Bip300Monitor.Runtime.FeeEvidence
import Bip300Monitor.Runtime.FeeScheduling

/-!
# What a done job leaves out

A job is done once every slot that is active at its block's height has a fact of the block; from
then on the block is not enriched again. But a bid is a candidate only with its sample, and a sample
on top of the parent can be recorded later: one that was in flight, or one taken when a reorganization
has made the parent the tip again.

## What is proved

* `step_final` — a step that brings no late evidence on a block whose job is done keeps it from
  gaining candidates;
* `done_final` — so does a run of such steps;
* `not_done_final` — a late sample adds a candidate.
-/

namespace Bip300Monitor.FeeMonitor

open Protobuf Transaction Runs Resumption

/-- The fact is a block whose job is done, with this header. -/
def DoneBlock (store : Store) (db : Db) (header : BlockHeader) : Prop :=
  ∃ job ∈ db.jobsOf store, job.status = .done ∧ ∃ e ∈ db.events, e.id = job.sourceEventId ∧
    ∃ block, sourceBlock e = .ok block ∧ block.header = some header

section
variable [Digests] {startOf : ScopeKey → ℕ} {datasetId : Uuid} {version : ℕ} {s t : State}
  {a : Action}

/-- No late evidence is recorded on a block whose job is done. -/
def NoLateEvidence (store : Store) (s : State) : Action → Prop
  | .world c => ∀ header, DoneBlock store s.db header → ∀ e b r,
      ¬ LateEvidence c s.db store header.hash header.previousHash e b r
  | _ => True

/-- What holds in every reachable state. -/
structure State.Kept (datasetId : Uuid) (version : ℕ) (s : State) : Prop where
  invariant : s.Invariant datasetId version
  referenced : s.db.Referenced

omit [Digests] in
theorem State.Kept.empty : State.empty.Kept datasetId version := ⟨.empty, .empty⟩

/-- What a step does to the record: nothing, or a command of the world's or of the worker's. -/
theorem step_db (h : step startOf datasetId version s a = some t) : t.db = s.db ∨
    (∃ c, a = .world c ∧ t.db = s.db.exec startOf c) ∨
    ∃ run, ∃ e c, c ∈ Op.command (handle datasetId version run) e ∧ t.db = s.db.exec startOf c := by
  cases step_stepped startOf datasetId version h with
  | world command => exact .inr (.inl ⟨command, rfl, rfl⟩)
  | perform run alive env =>
    rcases perform_db startOf datasetId version run env alive _ _ with hsame | ⟨-, c, hc, hexec⟩
    · exact .inl hsame
    · exact .inr (.inr ⟨run, _, c, hc, hexec⟩)
  | start | again | returned | crash => exact .inl rfl

theorem step_kept (hs : s.Kept datasetId version) (h : step startOf datasetId version s a = some t) :
    t.Kept datasetId version := by
  refine ⟨(step_inv hs.invariant h).1, ?_⟩
  rcases step_db h with hsame | ⟨c, -, hexec⟩ | ⟨_, _, c, -, hexec⟩
  · rw [hsame]
    exact hs.referenced
  · rw [hexec]
    exact Db.exec_referenced startOf hs.referenced
  · rw [hexec]
    exact Db.exec_referenced startOf hs.referenced

/-- A command that records no sample and no fact of the enforcer's brings no late evidence. -/
theorem not_late_of_node {c : Command} {db : Db} {hash parent : Bytes} {e b : EventRow} {r : BmmRequest}
    (hlabel : c.batch.bind (·.label) ≠ some .tipMatched) (hrows : ∀ row, c.records row → row.source = .node) :
    ¬ LateEvidence c db (handle datasetId version 0) hash parent e b r := by
  intro hlate
  rcases hlate.sampled with ⟨he, hmatched⟩ | ⟨hmatched, -⟩
  · rcases hlate.recorded with ⟨hb, hundisputed⟩ | ⟨hrow, -⟩
    · obtain ⟨snapshot, hsnapshot, hr⟩ := hlate.bid
      refine hlate.late (mem_observedBmmCandidates.mpr ⟨r, ?_, ?_, rfl⟩)
      · exact Db.mem_bids.mpr ⟨e, he, hlate.sample, hmatched, snapshot, hsnapshot, hr⟩
      · exact ⟨b, hb, hlate.fact, hlate.meets, hundisputed⟩
    · have hnode : b.source = .node := hrows { b with id := 0 } hrow
      have hsource : Source.enforcer = .node := hlate.fact.1.2.2.1.symm.trans hnode
      cases hsource
  · exact hlabel hmatched

/-- The worker's own commands are such. -/
theorem not_late_of_worker {run : Uuid} {op : Op} {c : Command} {db : Db} {hash parent : Bytes}
    {e b : EventRow} {r : BmmRequest} (hc : c ∈ Op.command (handle datasetId version run) op) :
    ¬ LateEvidence c db (handle datasetId version 0) hash parent e b r := by
  refine not_late_of_node ?_ ?_
  · cases op <;> cases hc <;> rintro ⟨⟩
  · rintro row ⟨batch, hbatch, event, -, f, payload, inst, -, -, -, rfl⟩
    cases op <;> cases hc <;> cases hbatch
    rfl

/-- **One step** without late evidence adds no candidate of a block whose job is done. -/
theorem step_final (hs : s.Kept datasetId version)
    (ha : NoLateEvidence (handle datasetId version 0) s a)
    (h : step startOf datasetId version s a = some t) {header : BlockHeader}
    (hdone : DoneBlock (handle datasetId version 0) s.db header) :
    DoneBlock (handle datasetId version 0) t.db header ∧
      observedBmmCandidates (handle datasetId version 0) header.hash header.previousHash t.db ⊆
        observedBmmCandidates (handle datasetId version 0) header.hash header.previousHash s.db := by
  have hj := hs.invariant.judged
  constructor
  · obtain ⟨job, hjob, hstatus, e, he, hid, hblock⟩ := hdone
    have hstays := (step_inv hs.invariant h).2.settled job hjob (by rw [hstatus]; decide)
    refine ⟨job, hstays, hstatus, e, ?_, hid, hblock⟩
    rcases step_db h with hsame | ⟨c, -, hexec⟩ | ⟨_, _, c, -, hexec⟩
    · rw [hsame]
      exact he
    · rw [hexec]
      exact s.db.exec_events startOf c he
    · rw [hexec]
      exact s.db.exec_events startOf c he
  · intro p hp
    by_contra hnew
    rcases step_db h with hsame | ⟨c, rfl, hexec⟩ | ⟨_, _, c, hc, hexec⟩
    · rw [hsame] at hp
      exact hnew hp
    · rw [hexec] at hp
      obtain ⟨e, b, r, hlate⟩ := late_of_mem_exec startOf hj hs.referenced hp hnew
      exact ha header hdone e b r hlate
    · rw [hexec] at hp
      obtain ⟨e, b, r, hlate⟩ := late_of_mem_exec startOf hj hs.referenced hp hnew
      exact not_late_of_worker hc hlate

/-- **A done job is final** where no late evidence is recorded: the block gains no candidate along a
run from a state in which its job is done. -/
theorem done_final {as bs : List Action}
    (hcond : Along (step startOf datasetId version) (NoLateEvidence (handle datasetId version 0)) .empty
      (as ++ bs))
    (hs : run (step startOf datasetId version) .empty as = some s)
    (ht : run (step startOf datasetId version) s bs = some t) :
    ∀ header, DoneBlock (handle datasetId version 0) s.db header →
      ∀ p ∈ observedBmmCandidates (handle datasetId version 0) header.hash header.previousHash t.db,
        p ∈ observedBmmCandidates (handle datasetId version 0) header.hash header.previousHash s.db := by
  intro header hdone
  have hkept : s.Kept datasetId version :=
    run_invariant (fun _ _ _ hs h => step_kept hs h) .empty hs
  have hlater := (along_append.mp hcond).2 s hs
  -- along the second part of the run
  have hinv : t.Kept datasetId version ∧ DoneBlock (handle datasetId version 0) t.db header ∧
      observedBmmCandidates (handle datasetId version 0) header.hash header.previousHash t.db ⊆
        observedBmmCandidates (handle datasetId version 0) header.hash header.previousHash s.db := by
    refine run_invariant_along (I := fun u => u.Kept datasetId version ∧
      DoneBlock (handle datasetId version 0) u.db header ∧
      observedBmmCandidates (handle datasetId version 0) header.hash header.previousHash u.db ⊆
        observedBmmCandidates (handle datasetId version 0) header.hash header.previousHash s.db)
      (fun u a v ⟨hu, hdone, hsub⟩ ha h => ?_) ⟨hkept, hdone, List.Subset.refl _⟩ hlater ht
    obtain ⟨hdone, hstep⟩ := step_final hu ha h hdone
    exact ⟨step_kept hu h, hdone, List.Subset.trans hstep hsub⟩
  exact fun p hp => hinv.2.2 hp

end

/-! ### A late bid -/

namespace LateBid

/-- The fees of the bid are committed. -/
def actions : List Action := OneBid.commands.map .world ++ OneBid.attempt ++ [OneBid.commit]

/-- The node's process records the block again. -/
def recordAgain : Command := .record ⟨.node, 0, 1, 9⟩
  [OneBid.event (.atHeight OneBid.hash 6) (.node (some OneBid.block))] .live none

/-- Then the worker is killed, and started again. -/
def restarted : List Action := [.world recordAgain, .crash, .start 1, OneBid.commit]

/-- The rest of the monitor writes while no job is done. -/
def Early (s : State) : Action → Prop
  | .world _ => ∀ job ∈ s.db.feeJobs, job.status ≠ .done
  | _ => True

instance (s : State) : ∀ a, Decidable (Early s a)
  | .world _ => inferInstanceAs (Decidable (∀ job ∈ s.db.feeJobs, _))
  | .start _ | .advance _ | .crash => isTrue trivial

/-- A job that is done, and the node's block. -/
theorem doneBlock_of {s : State} : (∃ job ∈ s.db.jobsOf (handle 0 9 0), job.status = .done ∧
    ∃ e ∈ s.db.events, e.id = job.sourceEventId ∧
      e.envelope.monitorEvent = some (.node (some OneBid.block))) →
    DoneBlock (handle 0 9 0) s.db OneBid.header := by
  rintro ⟨job, hjob, hdone, e, he, hid, hblock⟩
  refine ⟨job, hjob, hdone, e, he, hid, ⟨some OneBid.header, OneBid.rawBlock⟩, ?_, rfl⟩
  rw [sourceBlock, hblock, OneBid.block]

end LateBid

/-- The block whose job is done gains no candidate when the node records it again and the worker is
killed and started again. -/
theorem done_final_restarted :
    ∃ s t, run (@step OneBid.digests (fun _ => 5) 0 9) .empty LateBid.actions = some s ∧
      DoneBlock (handle 0 9 0) s.db OneBid.header ∧
      run (@step OneBid.digests (fun _ => 5) 0 9) s LateBid.restarted = some t ∧
      ∀ p ∈ observedBmmCandidates (handle 0 9 0) OneBid.hash OneBid.parent t.db,
        p ∈ observedBmmCandidates (handle 0 9 0) OneBid.hash OneBid.parent s.db := by
  let _ := OneBid.digests
  have hruns : ((run (step (fun _ => 5) 0 9) .empty LateBid.actions).filter fun s =>
      (∃ job ∈ s.db.jobsOf (handle 0 9 0), job.status = .done ∧
        ∃ e ∈ s.db.events, e.id = job.sourceEventId ∧
          e.envelope.monitorEvent = some (.node (some OneBid.block))) ∧
        (run (step (fun _ => 5) 0 9) s LateBid.restarted).isSome).isSome := by
    decide +kernel
  obtain ⟨s, hs⟩ := Option.isSome_iff_exists.mp hruns
  obtain ⟨hs, hthen⟩ := Option.filter_eq_some_iff.mp hs
  obtain ⟨hdone, hrest⟩ := of_decide_eq_true hthen
  obtain ⟨t, ht⟩ := Option.isSome_iff_exists.mp hrest
  have hearly : Along (step (fun _ => 5) 0 9) LateBid.Early .empty LateBid.actions := by
    decide +kernel
  have hagain (u : State) : NoLateEvidence (handle 0 9 0) u (.world LateBid.recordAgain) := by
    intro header _ e b r
    refine not_late_of_node (by rintro ⟨⟩) ?_
    rintro row ⟨batch, hbatch, event, -, f, payload, inst, -, -, -, rfl⟩
    cases hbatch
    rfl
  have hcond : Along (step (fun _ => 5) 0 9) (NoLateEvidence (handle 0 9 0)) .empty
      (LateBid.actions ++ LateBid.restarted) := by
    refine along_append.mpr ⟨hearly.mono fun s a hearly => ?_, fun u _ => along_of_forall fun a ha u => ?_⟩
    · cases a with
      | world c =>
        rintro header ⟨job, hjob, hstatus, -⟩
        exact absurd hstatus (hearly job (Db.mem_jobsOf.mp hjob).1)
      | _ => trivial
    · rcases List.mem_cons.mp ha with rfl | ha
      · exact hagain u
      · simp only [List.mem_cons, List.not_mem_nil, or_false] at ha
        rcases ha with rfl | rfl | rfl <;> trivial
  have hdone := LateBid.doneBlock_of hdone
  exact ⟨s, t, hs, hdone, ht, done_final hcond hs ht OneBid.header hdone⟩

/-- **A late bid is lost.** After the job of the block is done, a sample on top of the parent is
recorded, with another bid for the commitment in the block. -/
theorem not_done_final :
    ∃ s t, run (@step OneBid.digests (fun _ => 5) 0 9) .empty LateBid.actions = some s ∧
      DoneBlock (handle 0 9 0) s.db OneBid.header ∧
      run (@step OneBid.digests (fun _ => 5) 0 9) s
        [.world (OneBid.recordSample OneBid.lateSample)] = some t ∧
      (9, bytes32 5) ∈ observedBmmCandidates (handle 0 9 0) OneBid.hash OneBid.parent t.db ∧
      (9, bytes32 5) ∉ observedBmmCandidates (handle 0 9 0) OneBid.hash OneBid.parent s.db := by
  let _ := OneBid.digests
  have hruns : ((run (step (fun _ => 5) 0 9) .empty LateBid.actions).bind fun s =>
      ((run (step (fun _ => 5) 0 9) s [.world (OneBid.recordSample OneBid.lateSample)]).filter fun t =>
        (∃ job ∈ s.db.jobsOf (handle 0 9 0), job.status = .done ∧
          ∃ e ∈ s.db.events, e.id = job.sourceEventId ∧
            e.envelope.monitorEvent = some (.node (some OneBid.block))) ∧
        (9, bytes32 5) ∈ observedBmmCandidates (handle 0 9 0) OneBid.hash OneBid.parent t.db ∧
        (9, bytes32 5) ∉ observedBmmCandidates (handle 0 9 0) OneBid.hash OneBid.parent s.db).map
          fun t => (s, t)).isSome := by
    decide +kernel
  obtain ⟨⟨s, t⟩, hst⟩ := Option.isSome_iff_exists.mp hruns
  obtain ⟨s', hs, hst⟩ := Option.bind_eq_some_iff.mp hst
  obtain ⟨t', ht, heq⟩ := Option.map_eq_some_iff.mp hst
  obtain ⟨rfl, rfl⟩ := Prod.mk.inj heq
  obtain ⟨ht, hthen⟩ := Option.filter_eq_some_iff.mp ht
  obtain ⟨hdone, hin, hout⟩ := of_decide_eq_true hthen
  exact ⟨s', t', hs, LateBid.doneBlock_of hdone, ht, hin, hout⟩

end Bip300Monitor.FeeMonitor
