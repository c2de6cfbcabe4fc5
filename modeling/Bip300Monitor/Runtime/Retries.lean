import Bip300Monitor.Foundations.Retries
import Bip300Monitor.Runtime.HistoryOwners

/-!
# The retries of the two tasks

`backfill_sidechains` puts off an import, and `monitor_sidechains` the observation of an instance, for
some time (`extractors/enforcer/src/runtime.rs`). Both note the instance in a set and push a timer onto
`FuturesUnordered`, and take it out of the set when the timer comes.

## The model

The two tasks of `Bip300Monitor.Runtime.HistoryOwners`, in which a timer may come at any time. There
the timers of `monitor_sidechains` are those of its set; here they are on their own.

## What is proved

* `Backfills.Stepped.retries`, `Sidechains.stepTimers_retries` — what a step does to the retries;
* `retries_exact` — in every run the sets are those of the timers, and no timer is lost;
* `RetryTasks.step_tasks` — so the set alone did for `monitor_sidechains`.
-/

namespace Bip300Monitor

open Protobuf Transaction Runs Resumption Backfill

/-! ### `backfill_sidechains` -/

/-- What a request is deferred by. -/
def BackfillRequest.instanceId (request : BackfillRequest) : String := request.inst.sidechainInstanceId

namespace Backfills

/-- The attempt that the step finds failed, to be put off. -/
def fails (b : Backfills) : BackfillsAction → Option BackfillRequest
  | .advance env =>
    match b.at' with
    | .running request (.ret (.ok (.inr (.deferred target ..)))) => some ⟨request.inst, target⟩
    | .reading reached =>
      match env.tip with
      | .error error => if retryableRpcError error then some reached else none
      | .ok _ => none
    | _ => none
  | _ => none

variable {b b' : Backfills}

/-- The two have the same retries. -/
structure SameRetries (b b' : Backfills) : Prop where
  deferred : b'.deferred = b.deferred
  retries : b'.retries = b.retries

theorem SameRetries.head (h : SameRetries b b') : SameRetries b b'.head := by
  unfold Backfills.head
  split_ifs
  · exact ⟨h.deferred, h.retries⟩
  · split
    · exact ⟨h.deferred, h.retries⟩
    · exact ⟨h.deferred, h.retries⟩

/-- What a step does to the retries. -/
inductive Retried (b : Backfills) (a : BackfillsAction) (b' : Backfills) : Prop where
  | same (h : SameRetries b b')
  | scheduled (request : BackfillRequest) (h : SameRetries (b.scheduleBackfillRetry request) b')
  | expired {request : BackfillRequest} (ha : a = .retry request) (hmem : request ∈ b.retries)
    (hdeferred : b'.deferred = b.deferred.filter (· ≠ request.instanceId))
    (hretries : b'.retries = b.retries.erase request)

section
variable [Digests] {store : Store} {settings : Settings} {db db' : Db}

theorem Advanced.retries {env : Environment (Option EnforcerEvent)} {a : BackfillsAction}
    (h : Advanced store settings env b db b' db') : Retried b a b' := by
  cases h with
  | failed error => exact .same ⟨rfl, rfl⟩
  | checked hat =>
    refine .same ?_
    unfold Backfills.checked
    split_ifs
    · refine SameRetries.head ?_
      split_ifs
      · exact ⟨rfl, rfl⟩
      · exact ⟨rfl, rfl⟩
    · exact ⟨rfl, rfl⟩
  | again hat => exact .same ⟨rfl, rfl⟩
  | @ran request outcome hat =>
    cases outcome with
    | interrupted => exact .same ⟨rfl, rfl⟩
    | superseded => exact .same (SameRetries.head ⟨rfl, rfl⟩)
    | quarantined => exact .same ⟨rfl, rfl⟩
    | deferred target => exact .scheduled ⟨request.inst, target⟩ (SameRetries.head ⟨rfl, rfl⟩)
    | upToDate => exact .same ⟨rfl, rfl⟩
    | completed => exact .same ⟨rfl, rfl⟩
  | performed hat => exact .same ⟨rfl, rfl⟩
  | recorded hat b' hb' =>
    rcases hb' with rfl | ⟨error, rfl⟩
    · exact .same (SameRetries.head ⟨rfl, rfl⟩)
    · exact .same ⟨rfl, rfl⟩
  | rechecked hat =>
    refine .same ?_
    unfold Backfills.rechecked
    split_ifs
    · exact SameRetries.head ⟨rfl, rfl⟩
    · exact ⟨rfl, rfl⟩
  | @reconciled reached hat =>
    cases env.tip with
    | ok tip =>
      refine .same ?_
      simp only [Backfills.reconciled]
      split_ifs
      · exact SameRetries.head ⟨rfl, rfl⟩
      · exact ⟨rfl, rfl⟩
    | error error =>
      simp only [Backfills.reconciled]
      split_ifs
      · exact .scheduled reached (SameRetries.head ⟨rfl, rfl⟩)
      · exact .same ⟨rfl, rfl⟩

/-- **A step schedules one retry, takes one, or leaves them alone.** -/
theorem Stepped.retries {a : BackfillsAction} (h : Stepped store settings b db a b' db') :
    Retried b a b' := by
  cases h with
  | shutdown hat => exact .same ⟨rfl, rfl⟩
  | receive hat request => exact .same ⟨rfl, rfl⟩
  | closed hat => exact .same (SameRetries.head ⟨rfl, rfl⟩)
  | retry hat hmem => exact .expired rfl hmem rfl rfl
  | tipChanged hat target => exact .same (SameRetries.head ⟨rfl, rfl⟩)
  | tipsClosed hat => exact .same (SameRetries.head ⟨rfl, rfl⟩)
  | advance h => exact h.retries

/-- What has failed is scheduled. -/
theorem step_fails {a : BackfillsAction} {request : BackfillRequest}
    (h : b.step store settings db a = some (b', db')) (hfails : b.fails a = some request) :
    b' = (b.scheduleBackfillRetry request).head := by
  unfold Backfills.fails at hfails
  split at hfails
  · next env =>
    split at hfails
    · next hat =>
      cases hfails
      simp only [Backfills.step, Backfills.advance, hat, Option.some.injEq, Prod.mk.injEq] at h
      exact h.1.symm
    · next reached hat =>
      split at hfails
      · next error htip =>
        split_ifs at hfails with hretryable
        cases hfails
        simp only [Backfills.step, Backfills.advance, hat, Option.some.injEq, Prod.mk.injEq,
          Backfills.reconciled, htip, if_pos hretryable] at h
        exact h.1.symm
      · cases hfails
    · cases hfails
  · cases hfails

/-- A retry that comes is taken up. -/
theorem step_retry {request : BackfillRequest}
    (h : b.step store settings db (.retry request) = some (b', db')) : b'.at' = .checking request := by
  simp only [Backfills.step] at h
  split at h
  · split_ifs at h
    cases h
    rfl
  · cases h

end

/-! ### The set and the timers of the imports -/

/-- `deferred` is the set of the instances that have a retry in flight, which is one each. -/
def RetriesExact (b : Backfills) : Prop :=
  Retries.Exact BackfillRequest.instanceId b.deferred b.retries

theorem RetriesExact.same (h : b.RetriesExact) (hsame : SameRetries b b') : b'.RetriesExact := by
  unfold RetriesExact
  rw [hsame.deferred, hsame.retries]
  exact h

theorem RetriesExact.schedule (h : b.RetriesExact) (request : BackfillRequest) :
    (b.scheduleBackfillRetry request).RetriesExact := by
  unfold scheduleBackfillRetry
  split_ifs with hdeferred
  · exact h
  · exact Retries.Exact.schedule h hdeferred

theorem Retried.exact {a : BackfillsAction} (h : Retried b a b') (hb : b.RetriesExact) :
    b'.RetriesExact := by
  cases h with
  | same hsame => exact hb.same hsame
  | scheduled request hsame => exact (hb.schedule request).same hsame
  | expired ha hmem hdeferred hretries =>
    unfold RetriesExact
    rw [hdeferred, hretries]
    exact hb.expire hmem

/-- No retry goes but the one that comes. -/
theorem Retried.kept {a : BackfillsAction} (h : Retried b a b') {request : BackfillRequest}
    (hmem : request ∈ b.retries) : request ∈ b'.retries ∨ a = .retry request := by
  cases h with
  | same hsame =>
    rw [hsame.retries]
    exact .inl hmem
  | scheduled other hsame =>
    rw [hsame.retries, scheduleBackfillRetry]
    split_ifs
    · exact .inl hmem
    · exact .inl (List.mem_append_left _ hmem)
  | @expired other ha _ _ hretries =>
    by_cases heq : request = other
    · exact .inr (heq ▸ ha)
    · rw [hretries]
      exact .inl ((List.mem_erase_of_ne heq).mpr hmem)

/-- After a retry has been scheduled, there is one for the instance. -/
theorem scheduled_mem (hb : b.RetriesExact) (request : BackfillRequest) :
    ∃ r ∈ (b.scheduleBackfillRetry request).retries, r.instanceId = request.instanceId := by
  unfold scheduleBackfillRetry
  split_ifs with hdeferred
  · exact (hb.noted _).mp hdeferred
  · exact ⟨request, List.mem_append_right _ List.mem_cons_self, rfl⟩

end Backfills

/-! ### `monitor_sidechains` -/

/-- A step, with `activation_retries` apart from `deferred_activations`. -/
def Sidechains.stepTimers (discoverNewSlots : Bool) (configured : List ℕ) (s : Sidechains)
    (timers : List String) : SidechainsAction → Option (Sidechains × List String)
  | .retry instanceId =>
    match s.at' with
    | .selecting =>
      if instanceId ∈ timers then
        some ({ s with
          deferred := s.deferred.filter (· ≠ instanceId)
          at' := .reading }, timers.erase instanceId)
      else none
    | _ => none
  | .prepare (.error error) =>
    match s.at' with
    | .preparing inst rest =>
      if retryableRpcError error then
        some ((s.defer inst).add rest, if inst.sidechainInstanceId ∈ s.deferred then timers
          else timers ++ [inst.sidechainInstanceId])
      else some (s.return' (.error error), timers)
    | _ => none
  | a => (s.step discoverNewSlots configured a).map fun t => (t, timers)

namespace Sidechains

/-- The observation that the step finds failed, to be put off. -/
def fails (s : Sidechains) : SidechainsAction → Option String
  | .prepare (.error error) =>
    match s.at' with
    | .preparing inst _ => if retryableRpcError error then some inst.sidechainInstanceId else none
    | _ => none
  | _ => none

/-- What a step does to the retries. -/
inductive Retried (s : Sidechains) (timers : List String) (a : SidechainsAction) (t : Sidechains)
    (timers' : List String) : Prop where
  | same (hfails : s.fails a = none) (hdeferred : t.deferred = s.deferred) (htimers : timers' = timers)
  | scheduled {instanceId : String} (hfails : s.fails a = some instanceId)
    (hdeferred : t.deferred = if instanceId ∈ s.deferred then s.deferred else s.deferred ++ [instanceId])
    (htimers : timers' = if instanceId ∈ s.deferred then timers else timers ++ [instanceId])
  | expired {instanceId : String} (ha : a = .retry instanceId) (hmem : instanceId ∈ timers)
    (hdeferred : t.deferred = s.deferred.filter (· ≠ instanceId)) (htimers : timers' = timers.erase instanceId)

variable {s t : Sidechains} {timers timers' : List String} {discoverNewSlots : Bool}
  {configured : List ℕ} {a : SidechainsAction}

theorem add_deferred (s : Sidechains) (additions : List SidechainInstanceRef) :
    (s.add additions).deferred = s.deferred := by
  cases additions <;> rfl

theorem handle_deferred (s : Sidechains) (inst : SidechainInstanceRef) (joined : Joined) :
    (s.handle inst joined).deferred = s.deferred := by
  cases joined with
  | joinError error => rfl
  | exit result =>
    match result with
    | .ok .stopped =>
      simp only [handle]
      split_ifs
      · rfl
      · rfl
    | .ok .shutdown =>
      simp only [handle]
      split_ifs
      · rfl
      · rfl
      · rfl
    | .error error =>
      simp only [handle]
      split_ifs
      · rfl
      · rfl

/-- Apart from the retries of activations, no step defers anything. -/
theorem step_deferred (hretry : ∀ instanceId, a ≠ .retry instanceId)
    (hprepare : ∀ error, a ≠ .prepare (.error error))
    (h : s.step discoverNewSlots configured a = some t) : t.deferred = s.deferred := by
  cases a with
  | finish worker joined =>
    simp only [step] at h
    split at h
    · split_ifs at h
      cases h
      rfl
    · cases h
  | requestShutdown =>
    cases h
    rfl
  | closeShutdown =>
    cases h
    rfl
  | shutdown =>
    simp only [step] at h
    split at h
    · split_ifs at h
      cases h
      rfl
    · cases h
  | join worker =>
    obtain ⟨⟨inst, joined⟩, -, rfl⟩ := Option.map_eq_some_iff.mp h
    exact handle_deferred _ inst joined
  | changed sidechainState =>
    simp only [step] at h
    split at h
    · cases h
      rfl
    · cases h
      rfl
    · cases h
  | retry instanceId => exact absurd rfl (hretry instanceId)
  | read activeInstances =>
    simp only [step] at h
    split at h
    · cases h
      exact add_deferred _ _
    · cases h
      rfl
    · cases h
  | prepare target =>
    simp only [step] at h
    split at h
    · cases h
      rfl
    · exact absurd rfl (hprepare _)
    · cases h
  | queue sent =>
    simp only [step] at h
    split at h
    · cases h
      exact add_deferred _ _
    · cases h
      rfl
    · cases h

/-- **A step schedules one timer, takes one, or leaves them alone.** -/
theorem stepTimers_retries (h : s.stepTimers discoverNewSlots configured timers a = some (t, timers')) :
    Retried s timers a t timers' := by
  unfold stepTimers at h
  split at h
  · split at h
    · split_ifs at h with hmem
      cases h
      exact .expired rfl hmem rfl rfl
    · cases h
  · next error =>
    split at h
    · next inst rest hat =>
      split_ifs at h with hretryable hdeferred
      · cases h
        have hfails : s.fails (.prepare (.error error)) = some inst.sidechainInstanceId := by
          simp only [fails, hat, if_pos hretryable]
        refine .scheduled hfails ?_ ?_
        · rw [add_deferred, defer, if_pos hdeferred, if_pos hdeferred]
        · rw [if_pos hdeferred]
      · cases h
        have hfails : s.fails (.prepare (.error error)) = some inst.sidechainInstanceId := by
          simp only [fails, hat, if_pos hretryable]
        refine .scheduled hfails ?_ ?_
        · rw [add_deferred, defer, if_neg hdeferred, if_neg hdeferred]
        · rw [if_neg hdeferred]
      · cases h
        refine .same ?_ rfl rfl
        simp only [fails, hat, if_neg hretryable]
    · cases h
  · next hretry hprepare =>
    obtain ⟨t', ht, hp⟩ := Option.map_eq_some_iff.mp h
    cases hp
    refine .same ?_ (step_deferred hretry hprepare ht) rfl
    unfold fails
    split
    · exact absurd rfl (hprepare _)
    · rfl

/-- `deferred_activations` is the set of the instances that have a timer, which is one each. -/
def RetriesExact (s : Sidechains) (timers : List String) : Prop := Retries.Exact id s.deferred timers

theorem Retried.exact (h : Retried s timers a t timers') (hs : s.RetriesExact timers) :
    t.RetriesExact timers' := by
  unfold RetriesExact
  cases h with
  | same _ hdeferred htimers =>
    rw [hdeferred, htimers]
    exact hs
  | scheduled _ hdeferred htimers =>
    rw [hdeferred, htimers]
    split_ifs with hnoted
    · exact hs
    · exact Retries.Exact.schedule hs hnoted
  | expired _ hmem hdeferred htimers =>
    rw [hdeferred, htimers]
    exact hs.expire hmem

/-- No timer goes but the one that comes. -/
theorem Retried.kept (h : Retried s timers a t timers') {instanceId : String} (hmem : instanceId ∈ timers) :
    instanceId ∈ timers' ∨ a = .retry instanceId := by
  cases h with
  | same _ _ htimers =>
    rw [htimers]
    exact .inl hmem
  | scheduled _ _ htimers =>
    rw [htimers]
    split_ifs
    · exact .inl hmem
    · exact .inl (List.mem_append_left _ hmem)
  | @expired other ha _ _ htimers =>
    by_cases heq : instanceId = other
    · exact .inr (heq ▸ ha)
    · rw [htimers]
      exact .inl ((List.mem_erase_of_ne heq).mpr hmem)

/-- What has failed has a timer. -/
theorem Retried.scheduled_mem (h : Retried s timers a t timers') (hs : s.RetriesExact timers)
    {instanceId : String} (hfails : s.fails a = some instanceId) : instanceId ∈ timers' := by
  cases h with
  | same hnone =>
    rw [hnone] at hfails
    cases hfails
  | @scheduled other hother _ htimers =>
    obtain rfl := Option.some.inj (hother.symm.trans hfails)
    rw [htimers]
    split_ifs with hnoted
    · obtain ⟨_, hmem, rfl⟩ := (hs.noted _).mp hnoted
      exact hmem
    · exact List.mem_append_right _ List.mem_cons_self
  | expired ha =>
    rw [ha] at hfails
    cases hfails

/-- The timers need not be on their own. -/
theorem stepTimers_step (hs : s.RetriesExact timers)
    (h : s.stepTimers discoverNewSlots configured timers a = some (t, timers')) :
    s.step discoverNewSlots configured a = some t := by
  unfold stepTimers at h
  split at h
  · next instanceId =>
    split at h
    · next hat =>
      split_ifs at h with hmem
      cases h
      have hnoted : instanceId ∈ s.deferred := (hs.noted _).mpr ⟨_, hmem, rfl⟩
      simp only [step, hat]
      exact if_pos hnoted
    · cases h
  · split at h
    · next hat =>
      split_ifs at h with hretryable
      · cases h
        simp only [step, hat, if_pos hretryable]
      · cases h
        simp only [step, hat, if_pos hretryable]
      · cases h
        simp only [step, hat, if_neg hretryable]
    · cases h
  · obtain ⟨t', ht, hp⟩ := Option.map_eq_some_iff.mp h
    cases hp
    exact ht

/-- After a timer the active set is read. -/
theorem stepTimers_retry {instanceId : String}
    (h : s.stepTimers discoverNewSlots configured timers (.retry instanceId) = some (t, timers')) :
    t.at' = .reading := by
  simp only [stepTimers] at h
  split at h
  · split_ifs at h
    cases h
    rfl
  · cases h

/-- Nothing is deferred at the start. -/
theorem deferred_start {streams : List ℕ} {instances : List SidechainInstanceRef}
    (h : monitorSidechains streams instances = .ok s) : s.deferred = [] := by
  have hloop : ∀ (streams : List ℕ) (s t : Sidechains), s.deferred = [] →
      streams.foldlM (spawnInitial instances) s = .ok t → t.deferred = [] := by
    intro streams
    induction streams with
    | nil =>
      intro s t hs h
      cases h
      exact hs
    | cons sidechain streams ih =>
      intro s t hs h
      rw [List.foldlM_cons] at h
      obtain ⟨u, hu, h⟩ := Result.bind_eq_ok.mp h
      unfold spawnInitial at hu
      split at hu
      · cases hu
        exact ih (s.spawn _) t hs h
      · cases hu
  exact hloop streams _ s rfl h

end Sidechains

/-! ### The two tasks -/

/-- The two tasks, with the timers of `monitor_sidechains` on their own. -/
structure RetryTasks where
  tasks : HistoryTasks
  /-- `activation_retries`. -/
  timers : List String

namespace RetryTasks

section
variable [Digests]

/-- One step. -/
def step (startOf : ScopeKey → ℕ) (store : Store) (settings : Settings) (discoverNewSlots : Bool)
    (configured : List ℕ) (s : RetryTasks) : HistoryTasksAction → Option RetryTasks
  | .sidechains a =>
    match s.tasks.hand store.datasetId a,
      s.tasks.sidechains.stepTimers discoverNewSlots configured s.timers a with
    | some (unread, queue), some (sidechains, timers) =>
      some { s with
        tasks := { s.tasks with unread := unread, queue := queue, sidechains := sidechains }
        timers := timers }
    | _, _ => none
  | a => (s.tasks.step startOf store settings discoverNewSlots configured a).map fun tasks =>
    { s with tasks := tasks }

end

/-- Each set is that of the instances which have a retry in flight, and none has two. -/
structure RetriesExact (s : RetryTasks) : Prop where
  backfills : s.tasks.backfills.RetriesExact
  sidechains : s.tasks.sidechains.RetriesExact s.timers

/-- From `s` to `t`: no retry goes but the one that comes, which is taken up, and whatever has failed
has one. -/
structure KeepsRetries (s : RetryTasks) (a : HistoryTasksAction) (t : RetryTasks) : Prop where
  backfills : ∀ request ∈ s.tasks.backfills.retries, request ∈ t.tasks.backfills.retries ∨
    a = .backfill (.retry request) ∧ t.tasks.backfills.at' = .checking request
  failedBackfills : ∀ action, a = .backfill action → ∀ request ∈ s.tasks.backfills.fails action,
    ∃ r ∈ t.tasks.backfills.retries, r.instanceId = request.instanceId
  sidechains : ∀ instanceId ∈ s.timers, instanceId ∈ t.timers ∨
    a = .sidechains (.retry instanceId) ∧ t.tasks.sidechains.at' = .reading
  failedSidechains : ∀ action, a = .sidechains action → ∀ instanceId ∈ s.tasks.sidechains.fails action,
    instanceId ∈ t.timers

section
variable [Digests] {startOf : ScopeKey → ℕ} {store : Store} {settings : Settings}
  {discoverNewSlots : Bool} {configured : List ℕ} {s t : RetryTasks} {a : HistoryTasksAction}

/-- What a step does to the retries of both tasks: one of them takes it. -/
inductive Stepped (discoverNewSlots : Bool) (configured : List ℕ) (store : Store) (settings : Settings)
    (s : RetryTasks) : HistoryTasksAction → RetryTasks → Prop where
  | other {a : HistoryTasksAction} {t : RetryTasks} (ha : (∃ c, a = .commit c) ∨ a = .notify)
    (hbackfills : t.tasks.backfills = s.tasks.backfills)
    (hsidechains : t.tasks.sidechains = s.tasks.sidechains) (htimers : t.timers = s.timers) :
    Stepped discoverNewSlots configured store settings s a t
  | backfill {action : BackfillsAction} {t : RetryTasks} (hstep : s.tasks.backfills.step store settings
      s.tasks.db action = some (t.tasks.backfills, t.tasks.db))
    (hsidechains : t.tasks.sidechains = s.tasks.sidechains) (htimers : t.timers = s.timers) :
    Stepped discoverNewSlots configured store settings s (.backfill action) t
  | sidechains {action : SidechainsAction} {t : RetryTasks}
    (hbackfills : t.tasks.backfills = s.tasks.backfills)
    (hstep : s.tasks.sidechains.stepTimers discoverNewSlots configured s.timers action =
      some (t.tasks.sidechains, t.timers)) :
    Stepped discoverNewSlots configured store settings s (.sidechains action) t

theorem step_cases (h : s.step startOf store settings discoverNewSlots configured a = some t) :
    Stepped discoverNewSlots configured store settings s a t := by
  cases a with
  | commit c =>
    cases h
    exact .other (.inl ⟨c, rfl⟩) rfl rfl rfl
  | notify =>
    cases h
    exact .other (.inr rfl) rfl rfl rfl
  | sidechains action =>
    simp only [step] at h
    split at h
    · next hstep =>
      cases h
      exact .sidechains rfl hstep
    · cases h
  | backfill action =>
    obtain ⟨tasks, htasks, rfl⟩ := Option.map_eq_some_iff.mp h
    simp only [HistoryTasks.step] at htasks
    split at htasks
    · next hstep =>
      cases htasks
      exact .backfill hstep rfl rfl
    · cases htasks

/-- **A step keeps the sets exact.** -/
theorem step_exact (hs : s.RetriesExact)
    (h : s.step startOf store settings discoverNewSlots configured a = some t) : t.RetriesExact := by
  cases step_cases h with
  | other _ hbackfills hsidechains htimers =>
    refine ⟨?_, ?_⟩
    · rw [hbackfills]
      exact hs.backfills
    · rw [hsidechains, htimers]
      exact hs.sidechains
  | backfill hstep hsidechains htimers =>
    refine ⟨(Backfills.step_inv hstep).retries.exact hs.backfills, ?_⟩
    rw [hsidechains, htimers]
    exact hs.sidechains
  | sidechains hbackfills hstep =>
    refine ⟨?_, (Sidechains.stepTimers_retries hstep).exact hs.sidechains⟩
    rw [hbackfills]
    exact hs.backfills

/-- **A step loses no retry.** -/
theorem step_keeps (hs : s.RetriesExact)
    (h : s.step startOf store settings discoverNewSlots configured a = some t) : s.KeepsRetries a t := by
  cases step_cases h with
  | other ha hbackfills hsidechains htimers =>
    refine ⟨fun request hmem => .inl (hbackfills ▸ hmem), fun action haction => ?_,
      fun instanceId hmem => .inl (htimers ▸ hmem), fun action haction => ?_⟩
    · rcases ha with ⟨c, rfl⟩ | rfl
      · cases haction
      · cases haction
    · rcases ha with ⟨c, rfl⟩ | rfl
      · cases haction
      · cases haction
  | @backfill action _ hstep hsidechains htimers =>
    refine ⟨fun request hmem => ?_, fun action haction request hfails => ?_,
      fun instanceId hmem => .inl (htimers ▸ hmem), fun action haction => by cases haction⟩
    · rcases (Backfills.step_inv hstep).retries.kept hmem with hkept | rfl
      · exact .inl hkept
      · exact .inr ⟨rfl, Backfills.step_retry hstep⟩
    · cases haction
      obtain ⟨r, hr, hid⟩ := Backfills.scheduled_mem hs.backfills request
      have hhead : Backfills.SameRetries (s.tasks.backfills.scheduleBackfillRetry request)
          (s.tasks.backfills.scheduleBackfillRetry request).head := Backfills.SameRetries.head ⟨rfl, rfl⟩
      rw [Backfills.step_fails hstep hfails, hhead.retries]
      exact ⟨r, hr, hid⟩
  | @sidechains action _ hbackfills hstep =>
    have hretried := Sidechains.stepTimers_retries hstep
    refine ⟨fun request hmem => .inl (hbackfills ▸ hmem), fun action haction => (by cases haction),
      fun instanceId hmem => ?_, fun action haction instanceId hfails => ?_⟩
    · rcases hretried.kept hmem with hkept | rfl
      · exact .inl hkept
      · exact .inr ⟨rfl, Sidechains.stepTimers_retry hstep⟩
    · cases haction
      exact hretried.scheduled_mem hs.sidechains hfails

/-- **The set alone did for `monitor_sidechains`**: the steps are those of the two tasks. -/
theorem step_tasks (hs : s.RetriesExact)
    (h : s.step startOf store settings discoverNewSlots configured a = some t) :
    s.tasks.step startOf store settings discoverNewSlots configured a = some t.tasks := by
  cases a with
  | commit c =>
    cases h
    rfl
  | notify =>
    cases h
    rfl
  | sidechains action =>
    simp only [step] at h
    split at h
    · next hhand hstep =>
      cases h
      simp only [HistoryTasks.step, hhand, Sidechains.stepTimers_step hs.sidechains hstep]
    · cases h
  | backfill action =>
    obtain ⟨tasks, htasks, rfl⟩ := Option.map_eq_some_iff.mp h
    exact htasks

omit [Digests] in
theorem RetriesExact.start {db : Db} {streams : List ℕ} {instances : List SidechainInstanceRef}
    {anchor : ObservedBlock} {tasks : HistoryTasks}
    (h : HistoryTasks.start db streams instances anchor = .ok tasks) : RetriesExact ⟨tasks, []⟩ := by
  unfold HistoryTasks.start at h
  simp only [Result.bind_eq_ok, Backfill.ensure_eq_ok, Result.pure_eq_ok] at h
  obtain ⟨-, -, sidechains, hsidechains, rfl⟩ := h
  refine ⟨Retries.Exact.empty, ?_⟩
  rw [Sidechains.RetriesExact, Sidechains.deferred_start hsidechains]
  exact Retries.Exact.empty

end

end RetryTasks

section
variable [Digests]

/-- **The bookkeeping of the retries is exact.** From any startup, in every run: each of the two sets
is that of the instances which have a retry in flight, one each; and whatever comes next, no retry goes
but the one that comes, which is taken up, and what fails has one in flight. -/
theorem retries_exact (startOf : ScopeKey → ℕ) (store : Store) (settings : Settings)
    (discoverNewSlots : Bool) (configured : List ℕ) (db : Db) (streams : List ℕ)
    (instances : List SidechainInstanceRef) (anchor : ObservedBlock) (s : HistoryTasks) (t : RetryTasks)
    (actions : List HistoryTasksAction) (hstart : HistoryTasks.start db streams instances anchor = .ok s)
    (h : run (RetryTasks.step startOf store settings discoverNewSlots configured) ⟨s, []⟩ actions =
      some t) :
    t.RetriesExact ∧ ∀ a u, t.step startOf store settings discoverNewSlots configured a = some u →
      t.KeepsRetries a u := by
  have ht : t.RetriesExact := run_invariant (fun _ _ _ hs h => RetryTasks.step_exact hs h)
    (RetryTasks.RetriesExact.start hstart) h
  exact ⟨ht, fun a u h => RetryTasks.step_keeps ht h⟩

end

namespace UnsettledStartup

/-- The enforcer is unavailable. -/
def unavailable : Environment (Option EnforcerEvent) :=
  ⟨false, .error (.status .unavailable ""), .ok tip, .ok 0, none⟩

/-- The request of the startup, whose first page cannot be had. -/
def putOff : List HistoryTasksAction :=
  .backfill (.receive (some ⟨slotNineInstance, tip⟩)) :: List.replicate 11 (.backfill (.advance unavailable))

end UnsettledStartup

open UnsettledStartup in
/-- The import of slot 9 has been put off. -/
theorem retries_exact_unavailable :
    ∃ s t, @started digests .tipMatched = .ok s ∧
      run (@RetryTasks.step digests startOf store ⟨100, 0⟩ true []) ⟨s, []⟩ putOff = some t ∧
      t.tasks.backfills.retries = [⟨slotNineInstance, tip⟩] ∧ t.RetriesExact := by
  let _ := digests
  have hrun : ((started .tipMatched).toOption.bind fun s =>
      (run (RetryTasks.step startOf store ⟨100, 0⟩ true []) ⟨s, []⟩ putOff).filter fun t =>
        t.tasks.backfills.retries = [⟨slotNineInstance, tip⟩]).isSome := by
    decide +kernel
  cases hstart : started .tipMatched with
  | error error =>
    rw [hstart] at hrun
    cases hrun
  | ok s =>
    rw [hstart] at hrun
    obtain ⟨t, ht⟩ := Option.isSome_iff_exists.mp hrun
    obtain ⟨ht, hretries⟩ := Option.filter_eq_some_iff.mp ht
    obtain ⟨⟨_, db⟩, -, hstarted⟩ := Result.bind_eq_ok.mp hstart
    obtain ⟨hexact, -⟩ := retries_exact startOf store ⟨100, 0⟩ true [] db [9] [slotNineInstance] tip s t
      putOff hstarted ht
    exact ⟨s, t, rfl, ht, of_decide_eq_true hretries, hexact⟩

end Bip300Monitor
