import Bip300Monitor.Foundations.Runs
import Bip300Monitor.Runtime.FeeMonitor

/-!
# No block is skipped

A job is made only for a block that was served, and only while the worker holds on to it is it
attempted. When the connection is lost the worker can no longer say what it was about to record.

## What is proved

* `round_serves` — a round records attempts only on the block that it was served;
* `step_inv` — so that every step keeps the jobs (`Db.FeeJobs`);
* `fee_scheduling` — in every state of every run.
-/

namespace Bip300Monitor.FeeMonitor

open Protobuf Transaction Runs Resumption

/-! ### What a round asks and gets -/

/-- The block may be served, unless the connection is lost. -/
def Served (store : Store) (id : ℕ) (s : Db × Bool) : Prop := s.2 = true → s.1.Serves store id

/-- An attempt is recorded on a block that may be served. -/
def serving (store : Store) : Interface (Db × Bool) Op Op.Resp where
  rely s t := t.2 = s.2 ∧ ∀ id, s.1.Serves store id → t.1.Serves store id
  pre e s := match e with
    | .recordFeeEnrichment _ id _ | .recordFeeFailure id _ => Served store id s
    | _ => True
  sem e s r t := match e, r with
    | .nextFeeBlock, .ok (some (id, _)) => Served store id t
    | .recordFeeEnrichment .., .ok _ | .recordFeeFailure .., _ => True
    | _, _ => ∀ id, Served store id s → Served store id t
  rely_refl _ := ⟨rfl, fun _ h => h⟩
  rely_trans _ _ _ h h' := ⟨h'.1.trans h.1, fun id hid => h'.2 id (h.2 id hid)⟩

variable {store : Store} {id : ℕ} {s : Db × Bool}

theorem stable_served : Stable (serving store) (Served store id) :=
  fun _ _ h hst halive => hst.2 id (h (hst.1 ▸ halive))

theorem quiet_keeps (e : Op) (he : e.quiet) (s : Db × Bool) (hs : Served store id s) :
    (serving store).pre e s ∧ ∀ r t, (serving store).sem e s r t → Served store id t := by
  cases e <;> first
    | exact ⟨trivial, fun _ _ h => h id hs⟩
    | exact he.elim

/-- **An attempt** may be followed by another one only if it failed. -/
theorem enrich_serves (block : ObservedBlock) (hs : Served store id s) :
    wp (serving store) (enrich id block).run (fun r t => ∀ e, r = .error e → Served store id t) s := by
  have hquiet : ∀ {p : Worker Event}, Performs Op.quiet p → ∀ {s}, Served store id s →
      wp (serving store) p.run (fun _ t => Served store id t) s := fun hp _ hs =>
    wp_of_all _ stable_served quiet_keeps hp hs
  rw [enrich, wp_run_bind]
  refine wp_mono _ (fun r t ht => ?_) (hquiet (enrichment_quiet block) hs)
  cases r with
  | error e => exact fun _ _ => ht
  | ok event =>
    simp only [recordNodeFees, wp_run_bind, wp_run_attempt]
    cases confirmedFees event with
    | error e => exact fun _ _ => ht
    | ok fees =>
      simp only
      cases Backfill.expect fees.header "missing fee header" with
      | error e => exact fun _ _ => ht
      | ok header =>
        simp only
        refine (wp_run_call _ _).mpr fun u hu => ⟨trivial, fun answer v hv => ?_⟩
        have hserved : Served store id v := hv id (stable_served t u ht hu)
        cases answer with
        | error e => exact fun _ _ => hserved
        | ok candidates =>
          refine (wp_run_call _ _).mpr fun w hw => ⟨stable_served v w hserved hw, fun r x hx => ?_⟩
          cases r with
          | ok _ =>
            rintro e ⟨⟩
          | error e => exact fun _ _ => hx id (stable_served v w hserved hw)

theorem rest_serves (ms : ℕ) : wpe (serving store) (rest ms) (fun _ _ => True) s := by
  rw [rest, wpe_bind]
  refine (wpe_call _ _).mpr fun _ _ => ⟨trivial, fun shutdown _ _ => ?_⟩
  split_ifs
  · rw [wpe_pure]
    trivial
  · rw [wpe_pure]
    trivial

/-- **A round records attempts on the block that it was served.** -/
theorem round_serves : wpe (serving store) round (fun _ _ => True) s := by
  rw [round, wpe_bind]
  refine (wpe_call _ _).mpr fun _ _ => ⟨trivial, fun shutdown _ _ => ?_⟩
  split_ifs
  · rw [wpe_pure]
    trivial
  · rw [wpe_bind]
    refine (wpe_call _ _).mpr fun _ _ => ⟨trivial, fun answer t ht => ?_⟩
    rw [wpe_bind, wpe_attempt]
    rintro next rfl
    cases next with
    | none => exact rest_serves _
    | some served =>
      obtain ⟨id, block⟩ := served
      have hserved : Served store id t := ht
      rw [wpe_bind, wpe_outcome]
      refine wp_mono _ (fun r u hu => ?_) (enrich_serves block hserved)
      cases r with
      | ok _ =>
        simp only [settle, wpe_bind, wpe_attempt, wpe_pure]
        exact (wpe_call _ _).mpr fun _ _ => ⟨trivial, fun _ _ _ _ _ => trivial⟩
      | error e =>
        simp only [settle, wpe_bind, wpe_attempt]
        refine (wpe_call _ _).mpr fun v hv => ⟨stable_served u v (hu e rfl) hv, fun _ _ _ _ _ => ?_⟩
        exact (wpe_call _ _).mpr fun _ _ => ⟨trivial, fun _ _ _ _ _ => rest_serves _⟩

theorem monitor_serves : wpe (serving store) monitor (fun _ _ => True) s := by
  simp only [monitor, wpe_bind, wpe_attempt, wpe_pure]
  exact (wpe_call _ _).mpr fun _ _ => ⟨trivial, fun _ _ _ _ _ => trivial⟩

/-! ### The record -/

/-- A loss of the connection leaves nothing to be served. -/
theorem Environment.deliver_served {α : Type} {env : Environment} {alive : Bool} {db : Db}
    {out : Result α × Db} (hout : db.Serves store id → out.2.Serves store id)
    (hs : Served store id (db, alive)) : Served store id (env.deliver alive db out).2 := by
  rcases env.deliver_cases alive db out with ⟨halive, h⟩ | ⟨e, h⟩ | ⟨e, halive, h⟩
  · rw [h]
    exact fun _ => hout (hs halive)
  · rw [h]
    rintro ⟨⟩
  · rw [h]
    rintro ⟨⟩

/-- The scope of a handle is told by its dataset and contract. -/
theorem feeJobs_handle {datasetId run run' : Uuid} {version : ℕ} {db : Db}
    (h : db.FeeJobs (handle datasetId version run)) : db.FeeJobs (handle datasetId version run') :=
  ⟨h.next_pos, h.pos, h.anchored, h.known, h.unique, h.complete, h.bounded⟩

theorem serves_handle {datasetId run run' : Uuid} {version : ℕ} {db : Db}
    (h : db.Serves (handle datasetId version run) id) : db.Serves (handle datasetId version run') id :=
  ⟨h.known, h.pending, h.before⟩

theorem attempted_handle {datasetId run run' : Uuid} {version : ℕ} {s t : Db}
    (h : Db.Attempted (handle datasetId version run) s t) :
    Db.Attempted (handle datasetId version run') s t := ⟨feeJobs_handle h.jobs, h.settled, h.counted⟩

section
variable [Digests] {startOf : ScopeKey → ℕ} {datasetId : Uuid} {version : ℕ}

/-- What an operation leaves of the record. -/
structure Performed (store : Store) (s t : Db) : Prop where
  judged : t.Judged
  attempted : Db.Attempted store s t

omit [Digests] in
theorem Performed.refl {db : Db} (hj : db.Judged) (h : db.FeeJobs store) : Performed store db db :=
  ⟨hj, .of_eq h rfl⟩

/-- Commands that schedule nothing. -/
theorem performed_exec (startOf : ScopeKey → ℕ) {db : Db} {c : Command} (hj : db.Judged) (h : db.FeeJobs store)
    (hc : ¬ c.schedules store) (hanchors : AnchorsBlocks store c.records) :
    Performed store db (db.exec startOf c) :=
  ⟨db.exec_judged startOf c hj, .of_eq (h.exec startOf hj hc hanchors) (db.exec_jobsOf startOf hc)⟩

/-- The block that is served may be. -/
theorem nextFeeBlock_serves {run : Uuid} {env : Environment} {alive : Bool} {db : Db}
    (hj : db.Judged) (h : db.FeeJobs (handle datasetId version 0)) :
    (serving (handle datasetId version 0)).sem .nextFeeBlock (db, alive)
      (perform datasetId version run env alive db .nextFeeBlock).1
      (perform datasetId version run env alive db .nextFeeBlock).2 := by
  simp only [perform]
  rcases env.deliver_cases alive db
    (Tx.commit (nextFeeBlock (handle datasetId version run) env.due) db) with
    ⟨halive, hout⟩ | ⟨e, hout⟩ | ⟨e, -, hout⟩
  · rw [hout]
    rcases Tx.commit_snd_cases (nextFeeBlock (handle datasetId version run) env.due) db with
      ⟨answer, t, hok, hcommit⟩ | ⟨e, -, hcommit⟩
    · obtain ⟨rfl, -, -⟩ := nextFeeBlock_eq_ok hok
      rw [hcommit]
      cases answer with
      | none => exact fun _ hs _ => hs halive
      | some served => exact fun _ => nextFeeBlock_served h hj.sound hok
    · rw [hcommit]
      exact fun _ hs _ => hs halive
  · rw [hout]
    rintro id - ⟨⟩
  · rw [hout]
    rintro id - ⟨⟩

/-- An enrichment that is refused leaves the record as it was. -/
theorem recordFeeEnrichment_serves {run : Uuid} {env : Environment} {alive : Bool} {db : Db}
    {candidates : List (ℕ × Bytes)} {sourceId : ℕ} {event : Event} :
    (serving store).sem (.recordFeeEnrichment candidates sourceId event) (db, alive)
      (perform datasetId version run env alive db (.recordFeeEnrichment candidates sourceId event)).1
      (perform datasetId version run env alive db
        (.recordFeeEnrichment candidates sourceId event)).2 := by
  simp only [perform]
  rcases env.deliver_cases alive db (Tx.commit (recordFeeEnrichment (handle datasetId version run)
    candidates sourceId event) db) with ⟨halive, hout⟩ | ⟨e, hout⟩ | ⟨e, -, hout⟩
  · rw [hout]
    rcases Tx.commit_snd_cases (recordFeeEnrichment (handle datasetId version run) candidates
      sourceId event) db with ⟨_, t, -, hcommit⟩ | ⟨e, -, hcommit⟩
    · rw [hcommit]
      trivial
    · rw [hcommit]
      exact fun _ hs _ => hs halive
  · rw [hout]
    rintro id - ⟨⟩
  · rw [hout]
    rintro id - ⟨⟩

/-- **An operation of the worker** keeps the jobs. -/
theorem perform_performed (run : Uuid) (env : Environment) {alive : Bool} {db : Db} {e : Op}
    (hj : db.Judged) (h : db.FeeJobs (handle datasetId version 0))
    (hpre : (serving (handle datasetId version 0)).pre e (db, alive)) :
    Performed (handle datasetId version 0) db (perform datasetId version run env alive db e).2.1 := by
  -- a command that writes no events and no jobs
  have other {c : Command} (hfee : c.feeStore = none) (hevents : c.events = []) :
      Performed (handle datasetId version 0) db (db.exec (fun _ => 0) c) := by
    refine performed_exec _ hj h ?_ (.of_events (by simp [hevents]))
    rintro ⟨store, hstore, -⟩
    rw [hfee] at hstore
    cases hstore
  rcases perform_db (fun _ => 0) datasetId version run env alive db e with
    hsame | ⟨halive, c, hc, hexec⟩
  · rw [hsame]
    exact .refl hj h
  · rw [hexec]
    cases e with
    | recordFeeEnrichment candidates sourceId event =>
      obtain rfl := Option.some.inj hc
      exact ⟨db.exec_judged _ _ hj, attempted_handle (exec_recordFeeEnrichment _ (feeJobs_handle h) hj
        (serves_handle (hpre halive)) candidates event)⟩
    | recordFeeFailure sourceId error =>
      obtain rfl := Option.some.inj hc
      exact ⟨db.exec_judged _ _ hj, attempted_handle (exec_recordFeeFailure _ (feeJobs_handle h)
        (serves_handle (hpre halive)) error)⟩
    | initializeWorkerStatuses =>
      obtain rfl := Option.some.inj hc
      exact other rfl rfl
    | recordWorkerSuccess =>
      obtain rfl := Option.some.inj hc
      exact other rfl rfl
    | recordWorkerFailure error =>
      obtain rfl := Option.some.inj hc
      exact other rfl rfl
    | pause | nextFeeBlock | getblockheader | observedBmmCandidates | getblock | now => cases hc

/-- **An operation of the worker** answers as it is used. -/
theorem perform_serves (run : Uuid) (env : Environment) {alive : Bool} {db : Db} {e : Op}
    (hj : db.Judged) (h : db.FeeJobs (handle datasetId version 0)) :
    (serving (handle datasetId version 0)).sem e (db, alive)
      (perform datasetId version run env alive db e).1
      (perform datasetId version run env alive db e).2 := by
  have other {α : Type} {out : Result α × Db} {c : Command} (hout : out.2 = db.exec (fun _ => 0) c)
      (hfee : c.feeStore = none) (id : ℕ) (hs : Served (handle datasetId version 0) id (db, alive)) :
      Served (handle datasetId version 0) id (env.deliver alive db out).2 := by
    refine Environment.deliver_served (fun hserves => ?_) hs
    rw [hout]
    refine hserves.exec _ hj ?_
    rintro ⟨store, hstore, -⟩
    rw [hfee] at hstore
    cases hstore
  cases e with
  | pause | getblockheader | getblock | now => exact fun _ hs => hs
  | observedBmmCandidates =>
    exact fun id => Environment.deliver_served fun hserves => hserves
  | initializeWorkerStatuses =>
    exact other (c := .initializeWorkerStatuses (handle datasetId version run) [.confirmedBmmFees])
      rfl rfl
  | recordWorkerSuccess =>
    exact other (c := .recordWorkerSuccess (handle datasetId version run) .confirmedBmmFees) rfl rfl
  | recordWorkerFailure error =>
    exact other (c := .recordWorkerFailure (handle datasetId version run) .confirmedBmmFees error 1)
      rfl rfl
  | nextFeeBlock => exact nextFeeBlock_serves hj h
  | recordFeeEnrichment => exact recordFeeEnrichment_serves
  | recordFeeFailure => trivial

/-! ### Runs -/

/-- What holds in every reachable state. -/
structure State.Invariant (datasetId : Uuid) (version : ℕ) (s : State) : Prop where
  judged : s.db.Judged
  jobs : s.db.FeeJobs (handle datasetId version 0)
  worker : ∀ w ∈ s.worker, Proc.Good (serving (handle datasetId version 0)) (fun _ _ => True)
    w.proc (s.db, w.alive)

omit [Digests] in
theorem State.Invariant.empty : State.empty.Invariant datasetId version :=
  ⟨.empty, .empty, by simp [State.empty]⟩

/-- **One step** keeps the invariant, and what is done or abandoned. -/
theorem step_inv {s t : State} {a : Action} (hs : s.Invariant datasetId version)
    (h : step startOf datasetId version s a = some t) :
    t.Invariant datasetId version ∧ Db.Attempted (handle datasetId version 0) s.db t.db := by
  obtain ⟨hj, hjobs, hworker⟩ := hs
  have hrefl := Db.Attempted.of_eq hjobs rfl
  cases step_stepped startOf datasetId version h with
  | world command hforeign =>
    obtain ⟨hc, hevents⟩ := hforeign
    have hanchors : AnchorsBlocks (handle datasetId version 0) command.records :=
      .of_events fun event hevent payload hpayload =>
        (hevents event hevent payload (by simp [nodePayload, hpayload])).2
    have hperformed := performed_exec startOf hj hjobs hc hanchors
    refine ⟨⟨hperformed.judged, hperformed.attempted.jobs, fun w hw => ?_⟩, hperformed.attempted⟩
    exact good_rely (fun _ _ _ _ _ => trivial) (hworker w hw)
      ⟨rfl, fun _ hserves => hserves.exec startOf hj hc⟩
  | start run =>
    refine ⟨⟨hj, hjobs, ?_⟩, hrefl⟩
    rintro w ⟨⟩
    exact wpe_mono _ (fun _ _ _ _ _ => trivial) monitor_serves
  | again =>
    refine ⟨⟨hj, hjobs, ?_⟩, hrefl⟩
    rintro w ⟨⟩
    exact wpe_mono _ (fun _ _ _ _ _ => trivial) round_serves
  | perform run alive env =>
    have hgood := hworker _ rfl
    have hperformed := perform_performed run env hj hjobs (good_pre hgood)
    refine ⟨⟨hperformed.judged, hperformed.attempted.jobs, ?_⟩, hperformed.attempted⟩
    rintro w ⟨⟩
    exact good_advance hgood (perform_serves run env hj hjobs)
  | returned | crash =>
    exact ⟨⟨hj, hjobs, by rintro w ⟨⟩⟩, hrefl⟩

/-- What is done or abandoned stays so along a run. -/
theorem run_settled {s u : State} {as : List Action} (hs : s.Invariant datasetId version)
    (h : run (step startOf datasetId version) s as = some u) :
    u.Invariant datasetId version ∧ ∀ job ∈ s.db.jobsOf (handle datasetId version 0),
      job.status ≠ .pending → job ∈ u.db.jobsOf (handle datasetId version 0) := by
  induction as generalizing s with
  | nil =>
    cases h
    exact ⟨hs, fun job hjob _ => hjob⟩
  | cons a as ih =>
    obtain ⟨t, ht, h⟩ := run_cons_eq_some.mp h
    obtain ⟨htinv, hattempted⟩ := step_inv hs ht
    obtain ⟨hu, hsettled⟩ := ih htinv h
    exact ⟨hu, fun job hjob hstatus => hsettled job (hattempted.settled job hjob hstatus) hstatus⟩

/-- **No block is skipped**, none is served again, and none is attempted more often than allowed:
in every state of every run, and for every run of the node's extractor that asks. -/
theorem fee_scheduling (runId : Uuid) {as : List Action} {s : State}
    (hrun : run (step startOf datasetId version) .empty as = some s) :
    (∀ job ∈ s.db.jobsOf (handle datasetId version runId), ∀ e ∈ s.db.events,
        e.isSourceBlock (handle datasetId version runId) → e.id ≤ job.sourceEventId →
        ∃ job' ∈ s.db.jobsOf (handle datasetId version runId), job'.sourceEventId = e.id) ∧
      (∀ bs u, run (step startOf datasetId version) s bs = some u →
        ∀ job ∈ s.db.jobsOf (handle datasetId version runId), job.status ≠ .pending →
          ∀ due id b t, nextFeeBlock (handle datasetId version runId) due u.db =
            .ok (some (id, b), t) → id ≠ job.sourceEventId) ∧
      (∀ id, countSteps (fun s t => t.db.jobOf (handle datasetId version runId) id ≠
          s.db.jobOf (handle datasetId version runId) id) (step startOf datasetId version) .empty as ≤
        feeJobMaxAttempts) ∧
      ∀ e ∈ s.db.events, e.isSourceBlock (handle datasetId version runId) →
        (∀ job ∈ s.db.jobsOf (handle datasetId version runId), job.sourceEventId ≠ e.id) →
        ∀ due, ∃ next b, nextFeeBlock (handle datasetId version runId) due s.db =
            .ok (some (next.id, b), s.db) ∧
          next ∈ s.db.events ∧ next.isSourceBlock (handle datasetId version runId) ∧
          (∀ job ∈ s.db.jobsOf (handle datasetId version runId), job.sourceEventId ≠ next.id) ∧
          ∀ e' ∈ s.db.events, e'.isSourceBlock (handle datasetId version runId) →
            (∀ job ∈ s.db.jobsOf (handle datasetId version runId), job.sourceEventId ≠ e'.id) →
            next.id ≤ e'.id := by
  obtain ⟨hs, -⟩ := run_settled .empty hrun
  refine ⟨hs.jobs.complete, fun bs u hu job hjob hsettled due id b t hnext hid => ?_, fun id => ?_,
    fun e he hb hnone due => nextFeeBlock_first due rfl (feeJobs_handle hs.jobs) he hb hnone⟩
  · obtain ⟨hinv, hstay⟩ := run_settled hs hu
    have hserved := nextFeeBlock_served (feeJobs_handle hinv.jobs) hinv.judged.sound hnext
    exact hsettled (hserved.pending job (hstay job hjob hsettled) hid.symm)
  · have hcount := countSteps_le
      (fun s t => t.db.jobOf (handle datasetId version runId) id ≠
        s.db.jobOf (handle datasetId version runId) id)
      (fun s a t hs ht => (step_inv hs ht).1)
      (m := fun s => s.db.attemptsOf (handle datasetId version runId) id)
      (fun s a t hs ht => ?_) .empty hrun
    · exact (Nat.le_add_left _ _).trans (hcount.trans ((feeJobs_handle hs.jobs).attemptsOf_le id))
    · have hattempted : Db.Attempted (handle datasetId version runId) s.db t.db :=
        attempted_handle (step_inv hs ht).2
      rcases hattempted.counted id with heq | hone
      · simp [Db.attemptsOf, heq]
      · rw [hone]
        split_ifs
        · exact le_rfl
        · exact Nat.le_succ _

end

/-! ### Two blocks -/

namespace FirstAttempt

/-- The node does not answer. -/
def env : Environment where
  shutdown := false
  header := .error (.bail "requesting JSON-RPC method getblockheader")
  block := .error (.bail "requesting JSON-RPC method getblock")
  now := .ok 0
  due := fun _ => some 0
  fault := none
  closed := .bail "the connection is closed"

/-- The import of two blocks, an attempt on the first of them, and a kill before its failure is told
of the worker. -/
def actions : List Action :=
  TwoBlocks.commands.map .world ++ .start 1 :: List.replicate 6 (.advance env) ++ [.crash]

end FirstAttempt

/-- One attempt is recorded on one of the blocks, and the other is next. -/
theorem fee_scheduling_firstAttempt :
    ∃ s, run (@step TwoBlocks.digests (fun _ => 5) 0 9) .empty FirstAttempt.actions = some s ∧
      (∃ job ∈ s.db.jobsOf (handle 0 9 1), job.attempts = 1) ∧
      ∀ due, ∃ next b, nextFeeBlock (handle 0 9 1) due s.db = .ok (some (next.id, b), s.db) ∧
        ∀ job ∈ s.db.jobsOf (handle 0 9 1), job.sourceEventId ≠ EventRow.id next := by
  let _ := TwoBlocks.digests
  have hrun : ((run (step (fun _ => 5) 0 9) .empty FirstAttempt.actions).filter fun s =>
      (∃ job ∈ s.db.jobsOf (handle 0 9 1), job.attempts = 1) ∧
        ∃ e ∈ s.db.events, e.isSourceBlock (handle 0 9 1) ∧
          ∀ job ∈ s.db.jobsOf (handle 0 9 1), job.sourceEventId ≠ e.id).isSome := by
    decide +kernel
  obtain ⟨s, hs⟩ := Option.isSome_iff_exists.mp hrun
  obtain ⟨hs, hthere⟩ := Option.filter_eq_some_iff.mp hs
  obtain ⟨hattempted, e, he, hb, hnone⟩ := of_decide_eq_true hthere
  obtain ⟨-, -, -, hnext⟩ := fee_scheduling 1 hs
  refine ⟨s, hs, hattempted, fun due => ?_⟩
  obtain ⟨next, b, hok, -, -, hwithout, -⟩ := hnext e he hb hnone due
  exact ⟨next, b, hok, hwithout⟩

end Bip300Monitor.FeeMonitor
