import Bip300Monitor.Store.Additions
import Bip300Monitor.Store.Conflicts
import Bip300Monitor.Store.WorkerRows

/-!
# Fee jobs

`next_fee_block` of `shared/src/store.rs` and the table it reads. A job is made when the first
attempt to enrich a block is recorded; which blocks were served is told by the greatest block that
has a job. So the jobs must leave no gap, and only a block that was served may be scheduled.

When a retry is due is up to the clock: it is an argument of `nextFeeBlock`.

## What is proved

* `Db.FeeJobs` — the invariant of the table, kept by what other writers add (`FeeJobs.adds`) and by
  the recording of an attempt on a block that was served (`scheduleFeeJob_served`);
* `scheduleFeeJob_attemptsOf` — one attempt more is counted, on the block that it is an attempt on;
* `nextFeeBlock_served`, `nextFeeBlock_first` — what is served, and that the first block without a
  job is.
-/

namespace Bip300Monitor

open Protobuf Transaction

/-! ### What is served -/

/-- The fact is a block of the handle's source. -/
def EventRow.isSourceBlock (e : EventRow) (store : Store) : Prop :=
  e.datasetId = store.datasetId ∧ e.eventContractVersion = store.eventContractVersion ∧
    e.source = store.source ∧ e.kind = .mainchainBlock

instance (e : EventRow) (store : Store) : Decidable (e.isSourceBlock store) :=
  inferInstanceAs (Decidable (_ ∧ _))

/-- The jobs of the handle's scope. -/
def Db.jobsOf (db : Db) (store : Store) : List FeeJob :=
  db.feeJobs.filter fun job => job.isOf store job.sourceEventId

/-- `COALESCE((SELECT max(source_event_id) …), 0)`. -/
def Db.lastScheduled (db : Db) (store : Store) : ℕ :=
  ((db.jobsOf store).map (·.sourceEventId)).foldr max 0

/-- `next` of the query: the first block after the last that has a job. -/
def Db.nextFact (db : Db) (store : Store) : Option EventRow :=
  (db.events.filter fun e => e.isSourceBlock store ∧ db.lastScheduled store < e.id).argmin (·.id)

/-- `retry` of the query: the pending job that has been due for longest. `due` tells the
`next_retry_at` of the jobs for which it is past. -/
def Db.retryFact (db : Db) (store : Store) (due : ℕ → Option ℕ) : Option EventRow :=
  let retries := (db.jobsOf store).filterMap fun job =>
    if job.status = .pending then
      (due job.sourceEventId).bind fun at' =>
        (db.events.find? fun e => e.id = job.sourceEventId).map fun e => (at', e)
    else none
  (retries.argmin (·.1)).map (·.2)

/-- `next_fee_block`: new facts have priority over retries. -/
def nextFeeBlock (store : Store) (due : ℕ → Option ℕ) : Write (Option (ℕ × ObservedBlock)) := do
  Tx.require (store.source = .node) (.bail "confirmed BMM fees are node enrichments")
  let db ← Tx.read
  match (db.nextFact store).or (db.retryFact store due) with
  | none => pure none
  | some e => do
    let hash ← Tx.expect e.blockHash (.bail "a node block without its hash")
    let height ← Tx.expect e.height (.bail "a node block without its height")
    pure (some (e.id, .atHeight hash height))

/-! ### The jobs -/

variable {store : Store} {db s t : Db} {id : ℕ}

theorem Db.mem_jobsOf {job : FeeJob} :
    job ∈ db.jobsOf store ↔ job ∈ db.feeJobs ∧ job.isOf store job.sourceEventId := by
  simp [Db.jobsOf]

/-- What holds of the jobs of a scope. -/
structure Db.FeeJobs (db : Db) (store : Store) : Prop where
  next_pos : 0 < db.nextEventId
  pos : ∀ e ∈ db.events, 0 < e.id
  anchored : ∀ e ∈ db.events, e.isSourceBlock store → e.blockHash.isSome ∧ e.height.isSome
  known : ∀ job ∈ db.jobsOf store, ∃ e ∈ db.events, e.id = job.sourceEventId ∧ e.isSourceBlock store
  unique : ∀ job ∈ db.jobsOf store, ∀ job' ∈ db.jobsOf store,
    job.sourceEventId = job'.sourceEventId → job = job'
  /-- No block before one that has a job is without one. -/
  complete : ∀ job ∈ db.jobsOf store, ∀ e ∈ db.events, e.isSourceBlock store →
    e.id ≤ job.sourceEventId → ∃ job' ∈ db.jobsOf store, job'.sourceEventId = e.id
  bounded : ∀ job ∈ db.jobsOf store, job.attempts ≤ feeJobMaxAttempts ∧
    (job.status = .pending → job.attempts < feeJobMaxAttempts)

/-- The fact may be served: its job, if it has one, is pending, and no block before it is without
a job. -/
structure Db.Serves (db : Db) (store : Store) (id : ℕ) : Prop where
  known : ∃ e ∈ db.events, e.id = id ∧ e.isSourceBlock store
  pending : ∀ job ∈ db.jobsOf store, job.sourceEventId = id → job.status = .pending
  before : ∀ e ∈ db.events, e.isSourceBlock store → e.id < id →
    ∃ job ∈ db.jobsOf store, job.sourceEventId = e.id

theorem Db.FeeJobs.empty : Db.empty.FeeJobs store where
  next_pos := Nat.one_pos
  pos := by simp [Db.empty]
  anchored := by simp [Db.empty]
  known := by simp [Db.jobsOf, Db.empty]
  unique := by simp [Db.jobsOf, Db.empty]
  complete := by simp [Db.jobsOf, Db.empty]
  bounded := by simp [Db.jobsOf, Db.empty]

theorem foldr_max_mem (ns : List ℕ) : ns.foldr max 0 = 0 ∨ ns.foldr max 0 ∈ ns := by
  induction ns with
  | nil => exact .inl rfl
  | cons m ns ih =>
    rw [List.foldr_cons]
    rcases max_choice m (ns.foldr max 0) with hmax | hmax
    · rw [hmax]
      exact .inr List.mem_cons_self
    · rw [hmax]
      exact ih.imp_right (List.mem_cons_of_mem m)

theorem Db.le_lastScheduled {job : FeeJob} (h : job ∈ db.jobsOf store) :
    job.sourceEventId ≤ db.lastScheduled store :=
  le_foldr_max (List.mem_map_of_mem h)

/-- A fact up to the last scheduled block is one with a job, if it is a block. -/
theorem Db.FeeJobs.exists_job (h : db.FeeJobs store) {e : EventRow} (he : e ∈ db.events)
    (hb : e.isSourceBlock store) (hpos : 0 < e.id) (hle : e.id ≤ db.lastScheduled store) :
    ∃ job ∈ db.jobsOf store, job.sourceEventId = e.id := by
  rcases foldr_max_mem ((db.jobsOf store).map (·.sourceEventId)) with hzero | hmem
  · rw [Db.lastScheduled, hzero] at hle
    omega
  · obtain ⟨job, hjob, heq⟩ := List.mem_map.mp hmem
    exact h.complete job hjob e he hb (hle.trans heq.ge)

/-! ### What other writers do -/

/-- A row that is added as a block of the source is anchored at a height. -/
def AnchorsBlocks (store : Store) (recorded : EventRow → Prop) : Prop :=
  ∀ row, recorded row → row.isSourceBlock store → row.blockHash.isSome ∧ row.height.isSome

/-- **Additions keep the jobs.** A fact that is added comes after every fact that has a job. -/
theorem Db.FeeJobs.adds {recorded : EventRow → Prop} (h : s.FeeJobs store) (hs : s.Sound)
    (hadds : Adds recorded s t) (hrecorded : AnchorsBlocks store recorded)
    (hjobs : t.jobsOf store = s.jobsOf store) : t.FeeJobs store where
  next_pos := h.next_pos.trans_le hadds.next
  pos := by
    intro e he
    rcases hadds.fresh e he with he | ⟨hle, -⟩
    · exact h.pos e he
    · exact h.next_pos.trans_le hle
  anchored := by
    intro e he hb
    rcases hadds.fresh e he with he | ⟨-, row, hrow, heq⟩
    · exact h.anchored e he hb
    · rw [heq] at hb ⊢
      exact hrecorded row hrow hb
  known := by
    rw [hjobs]
    intro job hjob
    obtain ⟨e, he, hid⟩ := h.known job hjob
    exact ⟨e, hadds.events he, hid⟩
  unique := by
    rw [hjobs]
    exact h.unique
  complete := by
    rw [hjobs]
    intro job hjob e he hb hle
    obtain ⟨e', he', hid, -⟩ := h.known job hjob
    have hlt : e.id < s.nextEventId := (hle.trans hid.ge).trans_lt (hs.id_lt e' he')
    exact h.complete job hjob e (hadds.mem_of_id_lt he hlt) hb hle
  bounded := by
    rw [hjobs]
    exact h.bounded

theorem Db.Serves.adds {recorded : EventRow → Prop} (h : s.Serves store id) (hs : s.Sound)
    (hadds : Adds recorded s t) (hjobs : t.jobsOf store = s.jobsOf store) : t.Serves store id where
  known := by
    obtain ⟨e, he, hid⟩ := h.known
    exact ⟨e, hadds.events he, hid⟩
  pending := by
    rw [hjobs]
    exact h.pending
  before := by
    rw [hjobs]
    intro e he hb hlt
    obtain ⟨e', he', rfl, -⟩ := h.known
    exact h.before e (hadds.mem_of_id_lt he (hlt.trans (hs.id_lt e' he'))) hb hlt

/-! ### Recording an attempt -/

section
variable {sourceEventId : ℕ} {done : Bool} {error : Option String}

/-- A first attempt. -/
def FeeJob.first (store : Store) (sourceEventId : ℕ) (done : Bool) (error : Option String) : FeeJob :=
  ⟨store.datasetId, store.eventContractVersion, store.source, sourceEventId, 1,
    if done then .done else .pending, error⟩

theorem scheduleFeeJob_inv (h : scheduleFeeJob store sourceEventId done error s = .ok ((), t)) :
    SameEvidence s t ∧ t.feeJobs = if ∃ job ∈ s.feeJobs, job.isOf store sourceEventId then
        s.feeJobs.map fun job => if job.isOf store sourceEventId then job.attempt done error else job
      else s.feeJobs ++ [.first store sourceEventId done error] := by
  have heq := sameEvidence_scheduleFeeJob _ _ _ _ h
  rw [scheduleFeeJob, Tx.read_bind_eq_ok, Tx.require_bind_eq_ok, Tx.modify_eq_ok] at h
  obtain ⟨-, rfl⟩ := h
  refine ⟨heq, ?_⟩
  by_cases hthere : ∃ job ∈ s.feeJobs, job.isOf store sourceEventId
  · rw [if_pos hthere, if_pos hthere]
  · rw [if_neg hthere, if_neg hthere]
    rfl

/-- The jobs of another scope are as they were. -/
theorem jobsOf_scheduleFeeJob_of_ne {store' : Store}
    (hne : ∀ job : FeeJob, job.isOf store' sourceEventId → ¬ job.isOf store job.sourceEventId)
    (h : scheduleFeeJob store' sourceEventId done error s = .ok ((), t)) :
    t.jobsOf store = s.jobsOf store := by
  obtain ⟨-, hjobs⟩ := scheduleFeeJob_inv h
  rw [Db.jobsOf, Db.jobsOf, hjobs]
  split_ifs
  · -- a job that is changed is in neither list
    rw [List.filter_map]
    have hkeeps : ∀ job : FeeJob, (if job.isOf store' sourceEventId then job.attempt done error
        else job).isOf store (if job.isOf store' sourceEventId then job.attempt done error
        else job).sourceEventId ↔ job.isOf store job.sourceEventId := by
      intro job
      split_ifs
      · rfl
      · rfl
    have hfilter : s.feeJobs.filter ((fun job => decide (job.isOf store job.sourceEventId)) ∘
        fun job => if job.isOf store' sourceEventId then job.attempt done error else job) =
        s.feeJobs.filter fun job => job.isOf store job.sourceEventId :=
      List.filter_congr fun job _ => decide_eq_decide.mpr (hkeeps job)
    rw [hfilter]
    refine (List.map_congr_left fun job hjob => ?_).trans (List.map_id _)
    rw [if_neg fun hof => hne job hof (of_decide_eq_true (List.mem_filter.mp hjob).2)]
    rfl
  · have hfirst := hne (.first store' sourceEventId done error) ⟨rfl, rfl, rfl, rfl⟩
    rw [List.filter_append, List.filter_cons_of_neg (by simpa using hfirst), List.filter_nil,
      List.append_nil]

/-- The jobs of the scope afterwards: the others, and the one that was attempted. -/
theorem mem_jobsOf_scheduleFeeJob (h : scheduleFeeJob store id done error s = .ok ((), t))
    {job : FeeJob} (hjob : job ∈ t.jobsOf store) :
    (job ∈ s.jobsOf store ∧ job.sourceEventId ≠ id) ∨
      (∃ old ∈ s.jobsOf store, old.sourceEventId = id ∧ job = old.attempt done error) ∨
      ((∀ old ∈ s.jobsOf store, old.sourceEventId ≠ id) ∧ job = .first store id done error) := by
  obtain ⟨-, hjobs⟩ := scheduleFeeJob_inv h
  obtain ⟨hmem, hof⟩ := Db.mem_jobsOf.mp hjob
  rw [hjobs] at hmem
  split_ifs at hmem with hthere
  · obtain ⟨old, hold, rfl⟩ := List.mem_map.mp hmem
    by_cases hid : old.isOf store id
    · rw [if_pos hid]
      exact .inr (.inl ⟨old, Db.mem_jobsOf.mpr ⟨hold, hid.1, hid.2.1, hid.2.2.1, rfl⟩, hid.2.2.2, rfl⟩)
    · rw [if_neg hid] at hof ⊢
      exact .inl ⟨Db.mem_jobsOf.mpr ⟨hold, hof⟩, fun heq => hid (heq ▸ hof)⟩
  · have hnone : ∀ old ∈ s.jobsOf store, old.sourceEventId ≠ id := by
      rintro old hold rfl
      obtain ⟨hin, hold⟩ := Db.mem_jobsOf.mp hold
      exact hthere ⟨old, hin, hold⟩
    rcases List.mem_append.mp hmem with hmem | hmem
    · have hin : job ∈ s.jobsOf store := Db.mem_jobsOf.mpr ⟨hmem, hof⟩
      exact .inl ⟨hin, hnone job hin⟩
    · exact .inr (.inr ⟨hnone, List.mem_singleton.mp hmem⟩)

/-- The other jobs are there afterwards. -/
theorem jobsOf_scheduleFeeJob_other (h : scheduleFeeJob store id done error s = .ok ((), t))
    {job : FeeJob} (hjob : job ∈ s.jobsOf store) (hid : job.sourceEventId ≠ id) :
    job ∈ t.jobsOf store := by
  obtain ⟨-, hjobs⟩ := scheduleFeeJob_inv h
  obtain ⟨hmem, hof⟩ := Db.mem_jobsOf.mp hjob
  refine Db.mem_jobsOf.mpr ⟨?_, hof⟩
  rw [hjobs]
  split_ifs
  · refine List.mem_map.mpr ⟨job, hmem, if_neg fun hof => hid hof.2.2.2⟩
  · exact List.mem_append_left _ hmem

/-- The block has a job afterwards. -/
theorem jobsOf_scheduleFeeJob_self (h : scheduleFeeJob store id done error s = .ok ((), t)) :
    ∃ job ∈ t.jobsOf store, job.sourceEventId = id := by
  obtain ⟨-, hjobs⟩ := scheduleFeeJob_inv h
  split_ifs at hjobs with hthere
  · obtain ⟨old, hold, hof⟩ := hthere
    refine ⟨old.attempt done error, Db.mem_jobsOf.mpr ⟨?_, hof.1, hof.2.1, hof.2.2.1, rfl⟩, hof.2.2.2⟩
    rw [hjobs]
    exact List.mem_map.mpr ⟨old, hold, if_pos hof⟩
  · refine ⟨.first store id done error, Db.mem_jobsOf.mpr ⟨?_, rfl, rfl, rfl, rfl⟩, rfl⟩
    rw [hjobs]
    exact List.mem_append_right _ (List.mem_singleton_self _)

/-- One more attempt on a pending job that has attempts left. -/
theorem FeeJob.attempt_bounded {job : FeeJob} (h : job.attempts < feeJobMaxAttempts) :
    (job.attempt done error).attempts ≤ feeJobMaxAttempts ∧
      ((job.attempt done error).status = .pending →
        (job.attempt done error).attempts < feeJobMaxAttempts) := by
  refine ⟨h, fun hpending => ?_⟩
  simp only [FeeJob.attempt] at hpending ⊢
  split_ifs at hpending with hdone hmax
  omega

/-- **An attempt on a block that is served** keeps the invariant. -/
theorem scheduleFeeJob_served (hs : s.FeeJobs store) (hserves : s.Serves store id)
    (h : scheduleFeeJob store id done error s = .ok ((), t)) : t.FeeJobs store := by
  obtain ⟨heq, -⟩ := scheduleFeeJob_inv h
  -- of whatever job there is, one with the same block was there, or it is the block's
  have hfrom : ∀ job ∈ t.jobsOf store, job.sourceEventId = id ∨ job ∈ s.jobsOf store := by
    intro job hjob
    rcases mem_jobsOf_scheduleFeeJob h hjob with ⟨hin, -⟩ | ⟨old, -, rfl, rfl⟩ | ⟨-, rfl⟩
    · exact .inr hin
    · exact .inl rfl
    · exact .inl rfl
  have hthere : ∀ job ∈ s.jobsOf store, ∃ job' ∈ t.jobsOf store,
      job'.sourceEventId = job.sourceEventId := by
    intro job hjob
    by_cases hid : job.sourceEventId = id
    · obtain ⟨job', hjob', hid'⟩ := jobsOf_scheduleFeeJob_self h
      exact ⟨job', hjob', hid'.trans hid.symm⟩
    · exact ⟨job, jobsOf_scheduleFeeJob_other h hjob hid, rfl⟩
  refine ⟨heq.nextEventId ▸ hs.next_pos, heq.events ▸ hs.pos, heq.events ▸ hs.anchored, ?_, ?_, ?_, ?_⟩
  · rw [heq.events]
    intro job hjob
    rcases hfrom job hjob with hid | hin
    · rw [hid]
      exact hserves.known
    · exact hs.known job hin
  · intro job hjob job' hjob' hsame
    rcases mem_jobsOf_scheduleFeeJob h hjob with ⟨hin, hne⟩ | ⟨old, hold, hid, rfl⟩ | ⟨hnone, rfl⟩
    · rcases mem_jobsOf_scheduleFeeJob h hjob' with ⟨hin', -⟩ | ⟨old', -, hid', rfl⟩ | ⟨-, rfl⟩
      · exact hs.unique job hin job' hin' hsame
      · exact absurd (hsame.trans hid') hne
      · exact absurd hsame hne
    · rcases mem_jobsOf_scheduleFeeJob h hjob' with ⟨-, hne'⟩ | ⟨old', hold', hid', rfl⟩ | ⟨hnone, rfl⟩
      · exact absurd (hsame.symm.trans hid) hne'
      · rw [hs.unique old hold old' hold' (hid.trans hid'.symm)]
      · exact absurd hid (hnone old hold)
    · rcases mem_jobsOf_scheduleFeeJob h hjob' with ⟨-, hne'⟩ | ⟨old', hold', hid', rfl⟩ | ⟨-, rfl⟩
      · exact absurd hsame.symm hne'
      · exact absurd hid' (hnone old' hold')
      · rfl
  · rw [heq.events]
    intro job hjob e he hb hle
    rcases hfrom job hjob with hid | hin
    · rcases (hle.trans hid.le).lt_or_eq with hlt | hlast
      · obtain ⟨job', hjob', hsame⟩ := hserves.before e he hb hlt
        obtain ⟨job'', hjob'', hsame'⟩ := hthere job' hjob'
        exact ⟨job'', hjob'', hsame'.trans hsame⟩
      · exact ⟨job, hjob, hid.trans hlast.symm⟩
    · obtain ⟨job', hjob', hsame⟩ := hs.complete job hin e he hb hle
      obtain ⟨job'', hjob'', hsame'⟩ := hthere job' hjob'
      exact ⟨job'', hjob'', hsame'.trans hsame⟩
  · intro job hjob
    rcases mem_jobsOf_scheduleFeeJob h hjob with ⟨hin, -⟩ | ⟨old, hold, hid, rfl⟩ | ⟨-, rfl⟩
    · exact hs.bounded job hin
    · exact FeeJob.attempt_bounded ((hs.bounded old hold).2 (hserves.pending old hold hid))
    · have hone : 1 < feeJobMaxAttempts := by decide
      exact ⟨hone.le, fun _ => hone⟩

/-- The job of a block. -/
def Db.jobOf (db : Db) (store : Store) (id : ℕ) : Option FeeJob :=
  (db.jobsOf store).find? fun job => job.sourceEventId = id

/-- How many attempts on a block are recorded. -/
def Db.attemptsOf (db : Db) (store : Store) (id : ℕ) : ℕ := (db.jobOf store id).elim 0 (·.attempts)

theorem Db.FeeJobs.jobOf_eq_some (h : db.FeeJobs store) {job : FeeJob} :
    db.jobOf store id = some job ↔ job ∈ db.jobsOf store ∧ job.sourceEventId = id := by
  constructor
  · intro hfind
    exact ⟨List.mem_of_find?_eq_some hfind, by simpa using List.find?_some hfind⟩
  · rintro ⟨hjob, rfl⟩
    cases hfind : db.jobOf store job.sourceEventId with
    | none =>
      have hne := List.find?_eq_none.mp hfind job hjob
      simp at hne
    | some job' =>
      have hid : job'.sourceEventId = job.sourceEventId := by simpa using List.find?_some hfind
      rw [h.unique job' (List.mem_of_find?_eq_some hfind) job hjob hid]

theorem Db.FeeJobs.attemptsOf_le (h : db.FeeJobs store) (id : ℕ) :
    db.attemptsOf store id ≤ feeJobMaxAttempts := by
  rw [Db.attemptsOf]
  cases hjob : db.jobOf store id with
  | none => exact Nat.zero_le _
  | some job => exact (h.bounded job (h.jobOf_eq_some.mp hjob).1).1

/-- **One attempt is counted**, on the block that it is an attempt on. -/
theorem scheduleFeeJob_attemptsOf (hs : s.FeeJobs store) (ht : t.FeeJobs store)
    (h : scheduleFeeJob store id done error s = .ok ((), t)) (id' : ℕ) :
    t.jobOf store id' = s.jobOf store id' ∨ t.attemptsOf store id' = s.attemptsOf store id' + 1 := by
  by_cases hid : id' = id
  · subst hid
    obtain ⟨job, hjob, hself⟩ := jobsOf_scheduleFeeJob_self h
    rw [Db.attemptsOf, Db.attemptsOf, ht.jobOf_eq_some.mpr ⟨hjob, hself⟩]
    rcases mem_jobsOf_scheduleFeeJob h hjob with ⟨-, hne⟩ | ⟨old, hold, hid, rfl⟩ | ⟨hnone, rfl⟩
    · exact absurd hself hne
    · rw [hs.jobOf_eq_some.mpr ⟨hold, hid⟩]
      exact .inr rfl
    · have hfind : s.jobOf store id' = none :=
        List.find?_eq_none.mpr fun old hold heq => hnone old hold (of_decide_eq_true heq)
      rw [hfind]
      exact .inr rfl
  · refine .inl (Option.ext fun job => ?_)
    rw [ht.jobOf_eq_some, hs.jobOf_eq_some]
    constructor
    · rintro ⟨hjob, rfl⟩
      rcases mem_jobsOf_scheduleFeeJob h hjob with ⟨hin, -⟩ | ⟨old, -, heq, rfl⟩ | ⟨-, rfl⟩
      · exact ⟨hin, rfl⟩
      · exact absurd heq hid
      · exact absurd rfl hid
    · rintro ⟨hjob, rfl⟩
      exact ⟨jobsOf_scheduleFeeJob_other h hjob hid, rfl⟩

/-- A job that is done or abandoned is as it was. -/
theorem scheduleFeeJob_settled (hserves : s.Serves store id)
    (h : scheduleFeeJob store id done error s = .ok ((), t)) {job : FeeJob}
    (hjob : job ∈ s.jobsOf store) (hsettled : job.status ≠ .pending) : job ∈ t.jobsOf store :=
  jobsOf_scheduleFeeJob_other h hjob fun hid => hsettled (hserves.pending job hjob hid)

end

/-! ### The next block -/

/-- The first block behind the last one that has a job. -/
theorem Db.nextFact_eq_some {e : EventRow} (h : db.nextFact store = some e) :
    e ∈ db.events ∧ e.isSourceBlock store ∧ db.lastScheduled store < e.id ∧
      ∀ e' ∈ db.events, e'.isSourceBlock store → db.lastScheduled store < e'.id → e.id ≤ e'.id := by
  obtain ⟨hmem, hle, -⟩ := List.argmin_eq_some_iff.mp h
  obtain ⟨he, hb⟩ := List.mem_filter.mp hmem
  obtain ⟨hb, hlt⟩ := of_decide_eq_true hb
  refine ⟨he, hb, hlt, fun e' he' hb' hlt' => hle e' ?_⟩
  exact List.mem_filter.mpr ⟨he', decide_eq_true ⟨hb', hlt'⟩⟩

theorem Db.nextFact_eq_none (h : db.nextFact store = none) {e : EventRow} (he : e ∈ db.events)
    (hb : e.isSourceBlock store) : e.id ≤ db.lastScheduled store := by
  have hnil := List.argmin_eq_none.mp h
  by_contra hlt
  have hmem : e ∈ db.events.filter fun e => e.isSourceBlock store ∧ db.lastScheduled store < e.id :=
    List.mem_filter.mpr ⟨he, decide_eq_true ⟨hb, Nat.not_le.mp hlt⟩⟩
  rw [hnil] at hmem
  cases hmem

/-- A retry is the block of a pending job. -/
theorem Db.retryFact_eq_some {due : ℕ → Option ℕ} {e : EventRow}
    (h : db.retryFact store due = some e) :
    e ∈ db.events ∧ ∃ job ∈ db.jobsOf store, job.sourceEventId = e.id ∧ job.status = .pending := by
  obtain ⟨⟨at', x⟩, hargmin, rfl⟩ := Option.map_eq_some_iff.mp h
  obtain ⟨hmem, -⟩ := List.argmin_eq_some_iff.mp hargmin
  obtain ⟨job, hjob, hsome⟩ := List.mem_filterMap.mp hmem
  split_ifs at hsome with hpending
  obtain ⟨_, -, hsome⟩ := Option.bind_eq_some_iff.mp hsome
  obtain ⟨e', hfind, heq⟩ := Option.map_eq_some_iff.mp hsome
  obtain ⟨rfl, rfl⟩ := Prod.mk.inj heq
  have hid : e'.id = job.sourceEventId := by simpa using List.find?_some hfind
  exact ⟨List.mem_of_find?_eq_some hfind, job, hjob, hid.symm, hpending⟩

theorem nextFeeBlock_eq_ok {due : ℕ → Option ℕ} {answer : Option (ℕ × ObservedBlock)}
    (h : nextFeeBlock store due s = .ok (answer, t)) :
    t = s ∧ store.source = .node ∧ ∀ id b, answer = some (id, b) →
      ∃ e, (s.nextFact store).or (s.retryFact store due) = some e ∧ e.id = id := by
  rw [nextFeeBlock, Tx.require_bind_eq_ok, Tx.read_bind_eq_ok] at h
  obtain ⟨hsource, h⟩ := h
  cases he : (s.nextFact store).or (s.retryFact store due) with
  | none =>
    rw [he] at h
    obtain ⟨rfl, rfl⟩ := Tx.pure_eq_ok.mp h
    exact ⟨rfl, hsource, fun _ _ h => by cases h⟩
  | some e =>
    rw [he] at h
    obtain ⟨hash, -, h⟩ := Tx.expect_bind_eq_ok.mp h
    obtain ⟨height, -, h⟩ := Tx.expect_bind_eq_ok.mp h
    obtain ⟨rfl, rfl⟩ := Tx.pure_eq_ok.mp h
    refine ⟨rfl, hsource, ?_⟩
    rintro _ _ ⟨⟩
    exact ⟨e, rfl, rfl⟩

/-- **What `next_fee_block` returns may be served**, whatever the clock says. -/
theorem nextFeeBlock_served {due : ℕ → Option ℕ} {b : ObservedBlock} (hs : s.FeeJobs store)
    (hsound : s.Sound) (h : nextFeeBlock store due s = .ok (some (id, b), t)) :
    s.Serves store id := by
  obtain ⟨-, -, hanswer⟩ := nextFeeBlock_eq_ok h
  obtain ⟨e, he, rfl⟩ := hanswer id b rfl
  rcases Option.or_eq_some_iff.mp he with hnext | ⟨hnone, hretry⟩
  · obtain ⟨hmem, hb, hlt, hfirst⟩ := Db.nextFact_eq_some hnext
    refine ⟨⟨e, hmem, rfl, hb⟩, fun job hjob hid => ?_, fun e' he' hb' hbefore => ?_⟩
    · have hle := Db.le_lastScheduled hjob
      omega
    · refine hs.exists_job he' hb' (hs.pos e' he') ?_
      by_contra hlt'
      exact absurd (hfirst e' he' hb' (Nat.not_le.mp hlt')) (Nat.not_le.mpr hbefore)
  · obtain ⟨hmem, job, hjob, hid, hpending⟩ := Db.retryFact_eq_some hretry
    obtain ⟨e', he', hid', hb'⟩ := hs.known job hjob
    obtain rfl := hsound.eq_of_id he' hmem (hid'.trans hid)
    refine ⟨⟨e', hmem, rfl, hb'⟩, fun job' hjob' hsame => ?_, fun x hx hbx _ => ?_⟩
    · rw [hs.unique job' hjob' job hjob (hsame.trans hid.symm)]
      exact hpending
    · exact hs.exists_job hx hbx (hs.pos x hx) (Db.nextFact_eq_none hnone hx hbx)

/-- **The first block without a job is next**, whatever the clock says. -/
theorem nextFeeBlock_first (due : ℕ → Option ℕ) (hsource : store.source = .node)
    (hs : s.FeeJobs store) {e : EventRow} (he : e ∈ s.events) (hb : e.isSourceBlock store)
    (hwithout : ∀ job ∈ s.jobsOf store, job.sourceEventId ≠ e.id) :
    ∃ next b, nextFeeBlock store due s = .ok (some (next.id, b), s) ∧ next ∈ s.events ∧
      next.isSourceBlock store ∧ (∀ job ∈ s.jobsOf store, job.sourceEventId ≠ next.id) ∧
      ∀ e' ∈ s.events, e'.isSourceBlock store →
        (∀ job ∈ s.jobsOf store, job.sourceEventId ≠ e'.id) → next.id ≤ e'.id := by
  -- a block without a job is behind the last that has one
  have hbehind : ∀ e' ∈ s.events, e'.isSourceBlock store →
      (∀ job ∈ s.jobsOf store, job.sourceEventId ≠ e'.id) → s.lastScheduled store < e'.id := by
    intro e' he' hb' hnone
    by_contra hle
    obtain ⟨job, hjob, hid⟩ := hs.exists_job he' hb' (hs.pos e' he') (Nat.not_lt.mp hle)
    exact hnone job hjob hid
  cases hnext : s.nextFact store with
  | none => exact absurd (Db.nextFact_eq_none hnext he hb) (Nat.not_le.mpr (hbehind e he hb hwithout))
  | some next =>
    obtain ⟨hmem, hbn, hlt, hfirst⟩ := Db.nextFact_eq_some hnext
    obtain ⟨hhash, hheight⟩ := hs.anchored next hmem hbn
    obtain ⟨hash, hhash⟩ := Option.isSome_iff_exists.mp hhash
    obtain ⟨height, hheight⟩ := Option.isSome_iff_exists.mp hheight
    refine ⟨next, .atHeight hash height, ?_, hmem, hbn, fun job hjob hid => ?_,
      fun e' he' hb' hnone => hfirst e' he' hb' (hbehind e' he' hb' hnone)⟩
    · rw [nextFeeBlock, Tx.require_bind_eq_ok, Tx.read_bind_eq_ok]
      refine ⟨hsource, ?_⟩
      simp only [hnext, Option.some_or, Tx.expect_bind_eq_ok, Tx.pure_eq_ok]
      exact ⟨hash, hhash, height, hheight, rfl, trivial⟩
    · have hle := Db.le_lastScheduled hjob
      omega

/-! ### Every command -/

/-- The handle of a command that schedules a job. -/
def Command.feeStore : Command → Option Store
  | .recordFeeEnrichment store .. | .recordFeeFailure store .. => some store
  | _ => none

/-- The command schedules a job of the handle's scope. -/
def Command.schedules (c : Command) (store : Store) : Prop :=
  ∃ store' ∈ c.feeStore, store'.datasetId = store.datasetId ∧
    store'.eventContractVersion = store.eventContractVersion ∧ store'.source = store.source

instance (c : Command) (store : Store) : Decidable (c.schedules store) :=
  inferInstanceAs (Decidable (∃ store' ∈ c.feeStore, _))

section
variable [Digests]

/-- **No other command touches the jobs** of a scope. -/
theorem Db.exec_jobsOf (startOf : ScopeKey → ℕ) (db : Db) {c : Command} (h : ¬ c.schedules store) :
    (db.exec startOf c).jobsOf store = db.jobsOf store := by
  have same {t : Db} (hjobs : t.feeJobs = db.feeJobs) : t.jobsOf store = db.jobsOf store := by
    rw [Db.jobsOf, hjobs]
    rfl
  have tasks {α : Type} {x : Write α} (hx : Tx.Guarantees SameTasks x) :
      (Tx.commit x db).2.jobsOf store = db.jobsOf store := same (hx.commit db).feeJobs
  have health {α : Type} {x : Write α} (hx : Tx.Guarantees OnlyHealth x) :
      (Tx.commit x db).2.jobsOf store = db.jobsOf store := by
    have heq := (hx.commit db).eq
    exact same (by rw [heq])
  have other {store' : Store} {sourceEventId : ℕ} (hstore : c.feeStore = some store') :
      ∀ job : FeeJob, job.isOf store' sourceEventId → ¬ job.isOf store job.sourceEventId :=
    fun job hjob hjob' => h ⟨store', hstore, hjob.1.symm.trans hjob'.1,
      hjob.2.1.symm.trans hjob'.2.1, hjob.2.2.1.symm.trans hjob'.2.2.1⟩
  cases c with
  | initializeIdentity => exact tasks (sameTasks_initializeIdentity _ _ _ _)
  | finishRun => exact tasks (sameTasks_finishRun _ _ _)
  | initializeWorkerStatuses => exact health (onlyHealth_initializeWorkerStatuses _ _)
  | recordWorkerFailure => exact health (onlyHealth_recordWorkerFailure _ _ _ _)
  | recordWorkerSuccess => exact health (onlyHealth_recordWorkerSuccess _ _)
  | recordTipObservation => exact tasks (apart_recordTipObservation _ _ _ _ _)
  | historyCoverage => rfl
  | record => exact tasks (apart_recordBatch _ _ _ _)
  | recordSnapshot => exact tasks (apart_recordSnapshot _ _ _ _)
  | recordFeeEnrichment store' candidates sourceEventId event =>
    rcases Tx.commit_snd_cases (recordFeeEnrichment store' candidates sourceEventId event) db with
      ⟨_, t, hok, hcommit⟩ | ⟨e, -, hcommit⟩
    · obtain ⟨first, u, n, v, done, hreserve, hinsert, hschedule⟩ := recordFeeEnrichment_inv hok
      have hdu := (apart_reserveCaptureSequences (R := SameTasks) _ _ hreserve).feeJobs
      have huv := (apart_insertAll (R := SameTasks) _ _ _ _ _ _ _ _ hinsert).feeJobs
      rw [Db.exec, hcommit, jobsOf_scheduleFeeJob_of_ne (other rfl) hschedule]
      exact same (huv.trans hdu)
    · rw [Db.exec, hcommit]
  | recordFeeFailure store' sourceEventId error =>
    rcases Tx.commit_snd_cases (recordFeeFailure store' sourceEventId error) db with
      ⟨_, t, hok, hcommit⟩ | ⟨e, -, hcommit⟩
    · rw [Db.exec, hcommit]
      exact jobsOf_scheduleFeeJob_of_ne (other rfl) hok
    · rw [Db.exec, hcommit]
  | beginHistoryCycle => exact tasks apart_beginHistoryCycle
  | setHistoryFloor => exact tasks apart_setHistoryFloor
  | resizeHistoryPage => exact tasks apart_resizeHistoryPage
  | resumeHistory => exact tasks apart_resumeHistory
  | settleHistoryFailure => exact tasks apart_settleHistoryFailure
  | supersedeHistory => exact tasks apart_supersedeHistory
  | recordHistoryPage store events page => exact tasks (apart_recordHistoryPageTx _ _ _)

/-- An event that is no node's block is recorded as none. -/
theorem AnchorsBlocks.of_events {c : Command}
    (h : ∀ event ∈ c.events, ∀ payload, event.monitorEvent = some (.node (some payload)) →
      payload.kind = .mainchainBlock → event.anchorHeight.isSome) : AnchorsBlocks store c.records := by
  rintro row ⟨b, hb, event, hevent, f, payload, inst, hf, hp, -, rfl⟩ ⟨-, -, -, hkind⟩
  have hmem : event ∈ c.events := by
    rw [Command.events_of_batch hb]
    exact hevent
  simp only [factRow] at hkind ⊢
  unfold facts at hf
  split at hf
  · cases hf
  · rename_i payload' hpayload
    obtain ⟨height, hheight, hf⟩ := Result.bind_eq_ok.mp hf
    obtain rfl := Result.pure_eq_ok.mp hf
    have hsome := h event hmem payload' hpayload hkind
    obtain ⟨n, hn⟩ := Option.isSome_iff_exists.mp hsome
    rcases Result.transpose_map_eq_ok.mp hheight with ⟨hnone, -⟩ | ⟨_, m, -, -, rfl⟩
    · rw [hn] at hnone
      cases hnone
    · obtain ⟨anchor, hanchor, -⟩ := Option.bind_eq_some_iff.mp hn
      rw [hanchor]
      exact ⟨rfl, rfl⟩
  · cases hf
  · rename_i payload' hpayload
    obtain ⟨_, -, hf⟩ := Result.bind_eq_ok.mp hf
    obtain ⟨_, -, hf⟩ := Result.bind_eq_ok.mp hf
    obtain rfl := Result.pure_eq_ok.mp hf
    cases payload' <;> cases hkind
  · cases hf

variable {c : Command} (startOf : ScopeKey → ℕ)

/-- **Other commands keep the jobs**, and what may be served. -/
theorem Db.FeeJobs.exec (h : db.FeeJobs store) (hj : db.Judged) (hc : ¬ c.schedules store)
    (hanchors : AnchorsBlocks store c.records) : (db.exec startOf c).FeeJobs store :=
  h.adds hj.sound (db.exec_adds startOf c) hanchors (db.exec_jobsOf startOf hc)

theorem Db.Serves.exec (h : db.Serves store id) (hj : db.Judged) (hc : ¬ c.schedules store) :
    (db.exec startOf c).Serves store id :=
  h.adds hj.sound (db.exec_adds startOf c) (db.exec_jobsOf startOf hc)

/-- What an attempt leaves of the jobs: the invariant, those that are done or abandoned, and that it
is counted. -/
structure Db.Attempted (store : Store) (s t : Db) : Prop where
  jobs : t.FeeJobs store
  settled : ∀ job ∈ s.jobsOf store, job.status ≠ .pending → job ∈ t.jobsOf store
  counted : ∀ id, t.jobOf store id = s.jobOf store id ∨
    t.attemptsOf store id = s.attemptsOf store id + 1

omit [Digests] in
/-- The jobs are those that there were. -/
theorem Db.Attempted.of_eq (h : t.FeeJobs store) (hjobs : t.jobsOf store = s.jobsOf store) :
    Db.Attempted store s t := by
  refine ⟨h, fun job hjob _ => ?_, fun id => .inl ?_⟩
  · rw [hjobs]
    exact hjob
  · rw [Db.jobOf, hjobs]
    rfl

/-- **A recorded attempt** on a block that is served. -/
theorem exec_recordFeeFailure (h : db.FeeJobs store) (hserves : db.Serves store id) (error : String) :
    Db.Attempted store db (db.exec startOf (.recordFeeFailure store id error)) := by
  rcases Tx.commit_snd_cases (recordFeeFailure store id error) db with
    ⟨_, t, hok, hcommit⟩ | ⟨e, -, hcommit⟩
  · rw [Db.exec, hcommit]
    have ht := scheduleFeeJob_served h hserves hok
    exact ⟨ht, fun job hjob => scheduleFeeJob_settled hserves hok hjob,
      scheduleFeeJob_attemptsOf h ht hok⟩
  · rw [Db.exec, hcommit]
    exact .of_eq h rfl

theorem exec_recordFeeEnrichment (h : db.FeeJobs store) (hj : db.Judged)
    (hserves : db.Serves store id) (candidates : List (ℕ × Bytes)) (event : Event) :
    Db.Attempted store db (db.exec startOf (.recordFeeEnrichment store candidates id event)) := by
  rcases Tx.commit_snd_cases (recordFeeEnrichment store candidates id event) db with
    ⟨_, t, hok, hcommit⟩ | ⟨e, -, hcommit⟩
  · rw [Db.exec, hcommit]
    obtain ⟨fees, hfees, -⟩ := Tx.lift_bind_eq_ok.mp hok
    obtain ⟨first, u, n, v, done, hreserve, hinsert, hschedule⟩ := recordFeeEnrichment_inv hok
    have hdu := apart_reserveCaptureSequences (R := SameTasks) _ _ hreserve
    have huv := apart_insertAll (R := SameTasks) _ _ _ _ _ _ _ _ hinsert
    have hjobs : v.jobsOf store = db.jobsOf store := by
      rw [Db.jobsOf, huv.feeJobs, hdu.feeJobs]
      rfl
    have hreserved : Adds (fun row => ∃ event' ∈ [event], RecordedAs store none none event' row)
        db u := (sameFacts_reserveCaptureSequences _ _ hreserve).adds
    have hadds := IsTrans.trans _ _ _ hreserved (adds_insertAll hinsert)
    have hanchors : AnchorsBlocks store fun row =>
        ∃ event' ∈ [event], RecordedAs store none none event' row := by
      have hnot : ∀ event' ∈ (Command.recordFeeEnrichment store candidates id event).events,
          ∀ payload, event'.monitorEvent = some (.node (some payload)) →
            payload.kind = .mainchainBlock → event'.anchorHeight.isSome := by
        intro event' hevent' payload hpayload hkind
        obtain rfl := List.mem_singleton.mp hevent'
        rw [confirmedFees, hpayload] at hfees
        split at hfees
        · rename_i heq
          cases heq
          cases hkind
        · cases hfees
        · cases hfees
      intro row hrow
      exact AnchorsBlocks.of_events hnot row ⟨_, rfl, hrow⟩
    have hserved := hserves.adds hj.sound hadds hjobs
    have hv := h.adds hj.sound hadds hanchors hjobs
    have ht := scheduleFeeJob_served hv hserved hschedule
    refine ⟨ht, fun job hjob hsettled => scheduleFeeJob_settled hserved hschedule ?_ hsettled,
      fun id' => ?_⟩
    · rw [hjobs]
      exact hjob
    · have hcounted := scheduleFeeJob_attemptsOf hv ht hschedule id'
      rwa [Db.attemptsOf, Db.attemptsOf, Db.jobOf, Db.jobOf, hjobs] at hcounted
  · rw [Db.exec, hcommit]
    exact .of_eq h rfl

end

end Bip300Monitor
