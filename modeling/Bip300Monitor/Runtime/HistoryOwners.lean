import Bip300Monitor.Backfill.Frame
import Bip300Monitor.Runtime.BackfillSidechains
import Bip300Monitor.Runtime.Readings

/-!
# Who owns the history of a sidechain

`monitor_sidechains` hands the history of each instance that it begins to observe to
`backfill_sidechains` over a channel (`extractors/enforcer/src/runtime.rs`). The latter drops a
request whose instance is not current when it looks, and forgets an instance whose history was
superseded; the former asks again only for an instance that it does not manage.

## The model

The record, the two tasks, the channel between them, and the channel in which the state worker tells
of a change of the active set. Writes of the record, notifications and the steps of the tasks come in
any order.

## What is proved

* `Backfills.Stepped.owns` — a step of `backfill_sidechains` keeps what it owns, except for what it
  lets go of;
* `HistoryTasks.step_inv` — what is managed is owned, or about to be asked for, or forgotten: its last
  request was let go of;
* `owned_at_rest` — in every run in which no managed instance is current that is forgotten;
* `not_owned_at_rest_startup` — one can be after an inconsistent startup.
-/

namespace Bip300Monitor

open Protobuf Transaction Runs Resumption Backfill

/-- What names an instance: its slot and its id. -/
def SidechainInstanceRef.key (inst : SidechainInstanceRef) : ℕ × String :=
  (inst.sidechain, inst.sidechainInstanceId)

/-- The instance is current in the dataset. -/
def Db.isCurrent (db : Db) (dataset : Uuid) (inst : SidechainInstanceRef) : Prop :=
  db.currentInstance dataset inst.sidechain = some inst.sidechainInstanceId

instance (db : Db) (dataset : Uuid) (inst : SidechainInstanceRef) :
    Decidable (db.isCurrent dataset inst) := inferInstanceAs (Decidable (_ = _))

/-- `current_sidechain_instances`. -/
def Db.currentSidechainInstances (db : Db) (dataset : Uuid) : Result (List SidechainInstanceRef) :=
  let rows := (db.currentInstances.filter (·.datasetId = dataset)).filterMap fun current =>
    (db.sidechainInstances.find? fun inst => inst.datasetId = current.datasetId ∧
      inst.sidechainInstanceId = current.sidechainInstanceId ∧
      inst.sidechain = current.sidechain).map fun inst => (current, inst)
  (rows.mergeSort fun a b => a.1.sidechain ≤ b.1.sidechain).mapM fun row => do
    let sidechain ← (narrow 255 row.1.sidechain).context
      ("current sidechain slot " ++ toString row.1.sidechain ++ " is invalid")
    pure ⟨sidechain, row.1.sidechainInstanceId, row.2.activationHeight⟩

/-! ### What a task owns -/

/-- The request that `backfill_sidechains` has taken. -/
def BackfillsAt.request : BackfillsAt → Option BackfillRequest
  | .checking request | .running request _ | .recording request | .rechecking request
  | .reading request => some request
  | .receiving | .returned _ => none

/-- The request that it has found current, and works on. -/
def BackfillsAt.active : BackfillsAt → Option BackfillRequest
  | .running request _ | .recording request | .rechecking request | .reading request => some request
  | .checking _ | .receiving | .returned _ => none

/-- The request whose call has returned superseded. -/
def BackfillsAt.superseded : BackfillsAt → Option BackfillRequest
  | .running request (.ret (.ok (.inr (.superseded ..)))) => some request
  | _ => none

/-- The request that a step takes from the channel. -/
def BackfillsAction.received : BackfillsAction → Option BackfillRequest
  | .receive request => request
  | _ => none

def BackfillsAt.ended : BackfillsAt → Bool
  | .returned _ => true
  | _ => false

/-- The request that `monitor_sidechains` is about to send. -/
def SidechainsAt.queued : SidechainsAt → Option BackfillRequest
  | .queueing request _ => some request
  | _ => none

/-- The instance that a step spawns a worker for, to ask for its history next. -/
def SidechainsAt.spawns : SidechainsAt → SidechainsAction → Option SidechainInstanceRef
  | .preparing inst _, .prepare (.ok _) => some inst
  | _, _ => none

def SidechainsAt.ended : SidechainsAt → Bool
  | .returned _ => true
  | _ => false

/-- `monitor_sidechains` waits at its `select!`. -/
def SidechainsAt.idle : SidechainsAt → Bool
  | .selecting => true
  | _ => false

namespace Backfills

/-- A request for the instance waits: it is pending, or to be retried. -/
def waits (b : Backfills) (inst : SidechainInstanceRef) : Prop :=
  (∃ p ∈ b.pending.toList, p.2.inst.key = inst.key) ∨ ∃ r ∈ b.retries, r.inst.key = inst.key

/-- Every tip queues a request for the instance. -/
def activates (b : Backfills) (inst : SidechainInstanceRef) : Prop :=
  ∃ a ∈ b.activations[inst.sidechain]?, a.key = inst.key

/-- The history of the instance is this task's to import. -/
def owns (b : Backfills) (inst : SidechainInstanceRef) : Prop :=
  b.activates inst ∨ b.waits inst ∨ ∃ r ∈ b.at'.request, r.inst.key = inst.key

instance (b : Backfills) (inst : SidechainInstanceRef) : Decidable (b.waits inst) :=
  inferInstanceAs (Decidable (_ ∨ _))

instance (b : Backfills) (inst : SidechainInstanceRef) : Decidable (b.activates inst) :=
  inferInstanceAs (Decidable (∃ a ∈ b.activations[inst.sidechain]?, _))

instance (b : Backfills) (inst : SidechainInstanceRef) : Decidable (b.owns inst) :=
  inferInstanceAs (Decidable (_ ∨ _ ∨ _))

/-- The instance that a step lets go of: it is not current when the task looks, its history was
superseded, or another one of its slot is activated. -/
def letsGo (dataset : Uuid) (db : Db) (b : Backfills) : BackfillsAction → Option SidechainInstanceRef
  | .advance _ =>
    match b.at' with
    | .checking request =>
      if db.isCurrent dataset request.inst then
        b.activations[request.inst.sidechain]?.filter (·.key ≠ request.inst.key)
      else some request.inst
    | .rechecking reached => if db.isCurrent dataset reached.inst then none else some reached.inst
    | at' => at'.superseded.map (·.inst)
  | _ => none

/-- Between two awaits: nothing is pending when the task waits, and what it works on is active, with
a call that records blocks. -/
structure Inv (b : Backfills) : Prop where
  pending : b.at' = .receiving → ∀ (slot : ℕ), b.pending[slot]? = none
  active : ∀ request ∈ b.at'.active, b.activations[request.inst.sidechain]? = some request.inst
  blocks : ∀ request call, b.at' = .running request call → wp blockPages call (fun _ _ => True) ()

theorem Inv.init : Backfills.init.Inv where
  pending _ slot := by simp [Backfills.init]
  active _ h := by cases h
  blocks _ _ h := by cases h

variable {b b' : Backfills} {inst : SidechainInstanceRef}

theorem waits_iff : b.waits inst ↔
    (∃ (slot : ℕ) (r : BackfillRequest), b.pending[slot]? = some r ∧ r.inst.key = inst.key) ∨
      ∃ r ∈ b.retries, r.inst.key = inst.key := by
  refine or_congr_left ⟨?_, ?_⟩
  · rintro ⟨⟨slot, r⟩, hp, hkey⟩
    exact ⟨slot, r, Std.TreeMap.mem_toList_iff_getElem?_eq_some.mp hp, hkey⟩
  · rintro ⟨slot, r, hp, hkey⟩
    exact ⟨⟨slot, r⟩, Std.TreeMap.mem_toList_iff_getElem?_eq_some.mpr hp, hkey⟩

/-! ### The head of the loop -/

/-- What the head of the loop does. -/
theorem head_cases (b : Backfills) :
    (b.head.at'.ended = true) ∨
      (∃ (slot : ℕ) (r : BackfillRequest), b.pending[slot]? = some r ∧
        b.head = { b with pending := b.pending.erase slot, at' := .checking r }) ∨
      ((∀ (slot : ℕ), b.pending[slot]? = none) ∧ b.head = { b with at' := .receiving }) := by
  unfold head
  split_ifs
  · exact .inl rfl
  · split
    · next slot r hhead =>
      have hmem := List.mem_of_mem_head? hhead
      exact .inr (.inl ⟨slot, r, Std.TreeMap.mem_toList_iff_getElem?_eq_some.mp hmem, rfl⟩)
    · next hhead =>
      refine .inr (.inr ⟨fun slot => ?_, rfl⟩)
      rw [Option.eq_none_iff_forall_ne_some]
      intro r hr
      have hmem := Std.TreeMap.mem_toList_iff_getElem?_eq_some.mpr hr
      rw [List.head?_eq_none_iff.mp hhead] at hmem
      cases hmem

/-- A task that has returned, or is about to look whether an instance is current, owes nothing. -/
theorem Inv.of_ended (h : b.at'.ended = true) : b.Inv := by
  cases hat : b.at' with
  | returned result =>
    refine ⟨fun h => ?_, fun request h => ?_, fun request call h => ?_⟩
    · rw [hat] at h
      cases h
    · rw [hat] at h
      cases h
    · rw [hat] at h
      cases h
  | _ =>
    rw [hat] at h
    cases h

theorem Inv.of_checking {r : BackfillRequest} (hat : b.at' = .checking r) : b.Inv := by
  refine ⟨fun h => ?_, fun request h => ?_, fun request call h => ?_⟩
  · rw [hat] at h
    cases h
  · rw [hat] at h
    cases h
  · rw [hat] at h
    cases h

theorem head_inv (b : Backfills) : b.head.Inv := by
  rcases b.head_cases with hended | ⟨slot, r, -, hhead⟩ | ⟨hnone, hhead⟩
  · exact .of_ended hended
  · rw [hhead]
    exact .of_checking rfl
  · rw [hhead]
    exact ⟨fun _ => hnone, fun _ h => (by cases h), fun _ _ h => by cases h⟩

/-- What waits or is active stays so, or is taken. -/
theorem head_owns (h : b.activates inst ∨ b.waits inst) : b.head.at'.ended = true ∨ b.head.owns inst := by
  rcases b.head_cases with hended | ⟨slot, r, hr, hhead⟩ | ⟨-, hhead⟩
  · exact .inl hended
  · rw [hhead]
    refine .inr ?_
    rcases h with h | h
    · exact .inl h
    · rcases waits_iff.mp h with ⟨slot', r', hr', hkey⟩ | h
      · by_cases hslot : slot' = slot
        · subst hslot
          obtain rfl := Option.some.inj (hr.symm.trans hr')
          exact .inr (.inr ⟨r, rfl, hkey⟩)
        · refine .inr (.inl (waits_iff.mpr (.inl ⟨slot', r', ?_, hkey⟩)))
          simp only [Std.TreeMap.getElem?_erase]
          rw [if_neg (by simpa using Ne.symm hslot)]
          exact hr'
      · exact .inr (.inl (.inr h))
  · rw [hhead]
    exact .inr (h.imp_right .inl)

/-- What is worked on is active. -/
theorem owns.idle (hb : b.Inv) (h : b.owns inst) (hat : b.at'.active = b.at'.request) :
    b.activates inst ∨ b.waits inst := by
  rcases h with h | h | ⟨r, hr, hkey⟩
  · exact .inl h
  · exact .inr h
  · rw [← hat] at hr
    have hslot : r.inst.sidechain = inst.sidechain := congrArg Prod.fst hkey
    have hactive := hb.active r hr
    rw [hslot] at hactive
    exact .inl ⟨r.inst, hactive, hkey⟩

theorem deactivate_owns {sidechain : ℕ} (h : b.activates inst ∨ b.waits inst)
    (hne : b.activates inst → inst.sidechain ≠ sidechain ∨ b.waits inst) :
    (b.deactivate sidechain).activates inst ∨ (b.deactivate sidechain).waits inst := by
  rcases h with h | h
  · rcases hne h with hslot | hwaits
    · obtain ⟨a, ha, hkey⟩ := h
      refine .inl ⟨a, ?_, hkey⟩
      have hget : (b.deactivate sidechain).activations[inst.sidechain]? =
          b.activations[inst.sidechain]? := by
        simp only [deactivate, Std.TreeMap.getElem?_erase]
        rw [if_neg (by simpa using Ne.symm hslot)]
      rw [hget]
      exact ha
    · exact .inr hwaits
  · exact .inr h

theorem scheduleBackfillRetry_owns (request : BackfillRequest) (h : b.activates inst ∨ b.waits inst) :
    (b.scheduleBackfillRetry request).activates inst ∨ (b.scheduleBackfillRetry request).waits inst := by
  unfold scheduleBackfillRetry
  split_ifs
  · exact h
  · rcases h with h | h | ⟨r, hr, hkey⟩
    · exact .inl h
    · exact .inr (.inl h)
    · exact .inr (.inr ⟨r, List.mem_append_left _ hr, hkey⟩)

/-- Only an answer makes the task let go of an instance. -/
theorem letsGo_advance {dataset : Uuid} {db : Db} {a : BackfillsAction}
    (h : inst ∈ b.letsGo dataset db a) : ∃ env, a = .advance env := by
  cases a with
  | advance env => exact ⟨env, rfl⟩
  | _ => cases h

/-! ### A step -/

section
variable [Digests] {store : Store} {settings : Settings} {db db' : Db}
  {env : Environment (Option EnforcerEvent)}

omit [Digests] in
/-- The answer to whether a request's instance is current. -/
theorem checked_owns {request : BackfillRequest} (hat : b.at' = .checking request) (h : b.owns inst)
    (hkeeps : ∀ r ∈ b.letsGo store.datasetId db (.advance env), r.key ≠ inst.key ∨ b.waits inst) :
    let b' := b.checked settings request (db.currentInstance store.datasetId request.inst.sidechain)
    b'.at'.ended = true ∨ b'.owns inst := by
  intro b'
  by_cases hcurrent : db.isCurrent store.datasetId request.inst
  · right
    have hb' : b' = { b with
        activations := b.activations.insert request.inst.sidechain request.inst
        pending := if ∃ queued ∈ b.pending[request.inst.sidechain]?, queued.inst = request.inst then
          b.pending.erase request.inst.sidechain else b.pending
        at' := .running request (runHistory (BlockHistory request.inst) request.target settings) } :=
      if_neg (not_not.mpr hcurrent)
    by_cases hkey : request.inst.key = inst.key
    · have hslot : request.inst.sidechain = inst.sidechain := congrArg Prod.fst hkey
      rw [hb']
      exact .inl ⟨request.inst, by simp [← hslot], hkey⟩
    -- what is dropped from the pending requests is one for the instance that is run
    have hwaits (h : b.waits inst) : b'.waits inst := by
      rw [hb']
      refine waits_iff.mpr ((waits_iff.mp h).imp_left ?_)
      rintro ⟨slot, r, hr, hkey'⟩
      refine ⟨slot, r, ?_, hkey'⟩
      simp only
      split_ifs with hlast
      · obtain ⟨queued, hqueued, hinst⟩ := hlast
        have hne : request.inst.sidechain ≠ slot := by
          rintro rfl
          rw [hr] at hqueued
          cases hqueued
          exact hkey (hinst ▸ hkey')
        rw [Std.TreeMap.getElem?_erase, if_neg (by simpa using hne)]
        exact hr
      · exact hr
    rcases h with ⟨a, ha, hkey'⟩ | h | ⟨r, hr, hkey'⟩
    · by_cases hslot : request.inst.sidechain = inst.sidechain
      · have hgone : a ∈ b.letsGo store.datasetId db (.advance env) := by
          simp only [letsGo, hat, if_pos hcurrent, hslot]
          exact Option.mem_filter_iff.mpr ⟨ha, by simpa [hkey'] using Ne.symm hkey⟩
        exact .inr (.inl (hwaits ((hkeeps a hgone).resolve_left fun hne => hne hkey')))
      · rw [hb']
        refine .inl ⟨a, ?_, hkey'⟩
        simp only [Std.TreeMap.getElem?_insert]
        rw [if_neg (by simpa using hslot)]
        exact ha
    · exact .inr (.inl (hwaits h))
    · rw [hat] at hr
      cases hr
      exact absurd hkey' hkey
  · have hgone : request.inst ∈ b.letsGo store.datasetId db (.advance env) := by
      simp [letsGo, hat, hcurrent]
    have hkeeps := hkeeps _ hgone
    have hidle : b.activates inst ∨ b.waits inst := by
      rcases h with h | h | ⟨r, hr, hkey⟩
      · exact .inl h
      · exact .inr h
      · rw [hat] at hr
        cases hr
        exact .inr (hkeeps.resolve_left fun hne => hne hkey)
    have hb' : b' = (if b.activations[request.inst.sidechain]? = some request.inst then
        b.deactivate request.inst.sidechain else b).head := if_pos hcurrent
    rw [hb']
    refine head_owns ?_
    split_ifs with hactive
    · refine deactivate_owns hidle fun ⟨a, ha, hkey⟩ => hkeeps.imp_left fun hne hslot => hne ?_
      rw [hslot, hactive] at ha
      cases ha
      exact hkey
    · exact hidle

omit [Digests] in
/-- What is worked on is let go of, and is what is active in its slot. -/
theorem deactivate_active_owns {request : BackfillRequest} (hb : b.Inv) (hactive : request ∈ b.at'.active)
    (h : b.activates inst ∨ b.waits inst) (hkeeps : request.inst.key ≠ inst.key ∨ b.waits inst) :
    (b.deactivate request.inst.sidechain).activates inst ∨
      (b.deactivate request.inst.sidechain).waits inst := by
  refine deactivate_owns h fun ⟨a, ha, hkey⟩ => hkeeps.imp_left fun hne hslot => hne ?_
  have hactive := hb.active request hactive
  rw [← hslot, ha] at hactive
  cases hactive
  exact hkey

omit [Digests] in
/-- A call's outcome. -/
theorem ran_owns {request : BackfillRequest} {outcome : Outcome} (hb : b.Inv)
    (hat : b.at' = .running request (.ret (.ok (.inr outcome)))) (h : b.owns inst)
    (hkeeps : ∀ r ∈ b.letsGo store.datasetId db (.advance env), r.key ≠ inst.key ∨ b.waits inst) :
    (b.ran request outcome).at'.ended = true ∨ (b.ran request outcome).owns inst := by
  have hidle : b.activates inst ∨ b.waits inst := owns.idle hb h (by rw [hat]; rfl)
  cases outcome with
  | interrupted => exact .inl rfl
  | superseded target blocks pages =>
    have hgone : request.inst ∈ b.letsGo store.datasetId db (.advance env) := by
      simp [letsGo, hat, BackfillsAt.superseded]
    exact head_owns (deactivate_active_owns hb (by rw [hat]; rfl) hidle (hkeeps _ hgone))
  | quarantined target =>
    refine .inr ?_
    rcases hidle with h | h
    · exact .inl h
    · exact .inr (.inl h)
  | deferred target blocks pages => exact head_owns (scheduleBackfillRetry_owns _ hidle)
  | upToDate target =>
    refine .inr ?_
    rcases hidle with h | h
    · exact .inl h
    · exact .inr (.inl h)
  | completed target blocks pages =>
    refine .inr ?_
    rcases hidle with h | h
    · exact .inl h
    · exact .inr (.inl h)

omit [Digests] in
theorem rechecked_owns {reached : BackfillRequest} (hb : b.Inv) (hat : b.at' = .rechecking reached)
    (h : b.owns inst)
    (hkeeps : ∀ r ∈ b.letsGo store.datasetId db (.advance env), r.key ≠ inst.key ∨ b.waits inst) :
    let b' := b.rechecked reached (db.currentInstance store.datasetId reached.inst.sidechain)
    b'.at'.ended = true ∨ b'.owns inst := by
  intro b'
  have hidle : b.activates inst ∨ b.waits inst := owns.idle hb h (by rw [hat]; rfl)
  by_cases hcurrent : db.isCurrent store.datasetId reached.inst
  · have hb' : b' = { b with at' := .reading reached } := if_neg (not_not.mpr hcurrent)
    rw [hb']
    exact .inr (hidle.imp_right .inl)
  · have hgone : reached.inst ∈ b.letsGo store.datasetId db (.advance env) := by
      simp [letsGo, hat, hcurrent]
    have hb' : b' = (b.deactivate reached.inst.sidechain).head := if_pos hcurrent
    rw [hb']
    exact head_owns (deactivate_active_owns hb (by rw [hat]; rfl) hidle (hkeeps _ hgone))

omit [Digests] in
theorem reconciled_owns {reached : BackfillRequest} {answer : Result ObservedBlock} (hb : b.Inv)
    (hat : b.at' = .reading reached) (h : b.owns inst) :
    (b.reconciled settings reached answer).at'.ended = true ∨
      (b.reconciled settings reached answer).owns inst := by
  have hidle : b.activates inst ∨ b.waits inst := owns.idle hb h (by rw [hat]; rfl)
  cases answer with
  | ok tip =>
    simp only [reconciled]
    split_ifs
    · exact head_owns hidle
    · exact .inr (hidle.imp_right .inl)
  | error error =>
    simp only [reconciled]
    split_ifs
    · exact head_owns (scheduleBackfillRetry_owns _ hidle)
    · exact .inl rfl

/-- **A step keeps what the task owns**, and what it receives, except for what it lets go of while
nothing waits for it. -/
theorem Stepped.owns {a : BackfillsAction} (hb : b.Inv) (h : Stepped store settings b db a b' db')
    (howns : b.owns inst ∨ ∃ r ∈ a.received, r.inst.key = inst.key)
    (hkeeps : ∀ r ∈ b.letsGo store.datasetId db a, r.key ≠ inst.key ∨ b.waits inst) :
    b'.at'.ended = true ∨ b'.owns inst := by
  -- the task waits: what it owns is active or waits, unless the step receives it
  have idle (hat : b.at' = .receiving) (hnone : a.received = none) : b.activates inst ∨ b.waits inst := by
    rcases howns with h | ⟨r, hr, -⟩
    · exact owns.idle hb h (by rw [hat]; rfl)
    · rw [hnone] at hr
      cases hr
  cases h with
  | shutdown => exact .inl rfl
  | receive hat request =>
    refine .inr ?_
    rcases howns with h | ⟨r, hr, hkey⟩
    · exact (owns.idle hb h (by rw [hat]; rfl)).imp_right .inl
    · cases hr
      exact .inr (.inr ⟨request, rfl, hkey⟩)
  | closed hat => exact head_owns (idle hat rfl)
  | @retry hat request hmem =>
    refine .inr ?_
    rcases idle hat rfl with h | h | ⟨r, hr, hkey⟩
    · exact .inl h
    · exact .inr (.inl (.inl h))
    · by_cases hr' : r = request
      · exact .inr (.inr ⟨request, rfl, hr' ▸ hkey⟩)
      · exact .inr (.inl (.inr ⟨r, (List.mem_erase_of_ne hr').mpr hr, hkey⟩))
  | tipChanged hat target =>
    -- nothing was pending, so that nothing is overwritten
    refine head_owns ((idle hat rfl).imp_right fun h => ?_)
    rcases waits_iff.mp h with ⟨slot, r, hr, -⟩ | h
    · rw [hb.pending hat] at hr
      cases hr
    · exact .inr h
  | tipsClosed hat => exact head_owns (idle hat rfl)
  | advance hadvanced =>
    have howned : b.owns inst := howns.resolve_right fun ⟨_, hr, _⟩ => by cases hr
    cases hadvanced with
    | failed error => exact .inl rfl
    | checked hat => exact checked_owns hat howned hkeeps
    | @again request l hat =>
      rcases howned with h | h | ⟨r, hr, hkey⟩
      · exact .inr (.inl h)
      · exact .inr (.inr (.inl h))
      · rw [hat] at hr
        exact .inr (.inr (.inr ⟨r, hr, hkey⟩))
    | ran hat => exact ran_owns hb hat howned hkeeps
    | @performed request e k hat =>
      rcases howned with h | h | ⟨r, hr, hkey⟩
      · exact .inr (.inl h)
      · exact .inr (.inr (.inl h))
      · rw [hat] at hr
        exact .inr (.inr (.inr ⟨r, hr, hkey⟩))
    | recorded hat b' hb' =>
      rcases hb' with rfl | ⟨error, rfl⟩
      · exact head_owns (owns.idle hb howned (by rw [hat]; rfl))
      · exact .inl rfl
    | rechecked hat => exact rechecked_owns hb hat howned hkeeps
    | reconciled hat => exact reconciled_owns hb hat howned

omit [Digests] in
/-- A task that goes on with what it works on. -/
theorem Inv.goesOn (hb : b.Inv) {at'' : BackfillsAt} {request request' : BackfillRequest}
    (hat : b.at'.active = some request) (hactive : at''.active = some request')
    (hinst : request'.inst = request.inst)
    (hblocks : ∀ r call, at'' = .running r call → wp blockPages call (fun _ _ => True) ()) :
    Inv { b with at' := at'' } where
  pending h := by
    simp only at h
    rw [h] at hactive
    cases hactive
  active r hr := by
    simp only at hr
    rw [hactive] at hr
    cases hr
    rw [hinst]
    exact hb.active request hat
  blocks := hblocks

omit [Digests] in
theorem records_runHistory (inst : SidechainInstanceRef) (target : ObservedBlock) (settings : Settings) :
    wp blockPages (runHistory (BlockHistory inst) target settings) (fun _ _ => True) () :=
  wp_mono _ (fun _ _ _ => trivial) (recordsBlocks_runHistory inst target settings)

omit [Digests] in
theorem ran_inv {request : BackfillRequest} {outcome : Outcome} (hb : b.Inv)
    (hat : b.at' = .running request (.ret (.ok (.inr outcome)))) : (b.ran request outcome).Inv := by
  have hactive : b.at'.active = some request := by
    rw [hat]
    rfl
  cases outcome with
  | interrupted => exact .of_ended rfl
  | superseded => exact head_inv _
  | quarantined => exact hb.goesOn hactive rfl rfl fun _ _ h => by cases h
  | deferred => exact head_inv _
  | upToDate => exact hb.goesOn hactive rfl rfl fun _ _ h => by cases h
  | completed => exact hb.goesOn hactive rfl rfl fun _ _ h => by cases h

theorem Advanced.inv (hb : b.Inv) (h : Advanced store settings env b db b' db') : b'.Inv ∧ SameCurrent db db' := by
  cases h with
  | failed error => exact ⟨.of_ended rfl, Std.Refl.refl db⟩
  | @checked request hat =>
    refine ⟨?_, Std.Refl.refl db⟩
    by_cases hother : db.currentInstance store.datasetId request.inst.sidechain ≠
        some request.inst.sidechainInstanceId
    · rw [Backfills.checked, if_pos hother]
      exact head_inv _
    · rw [Backfills.checked, if_neg hother]
      refine ⟨fun h => (by cases h), fun r hr => ?_, fun r call h => ?_⟩
      · cases hr
        simp
      · cases h
        exact records_runHistory _ _ _
  | @again request l hat =>
    refine ⟨hb.goesOn (by rw [hat]; rfl) rfl rfl fun r call h => ?_, Std.Refl.refl db⟩
    cases h
    exact wp_mono _ (fun _ _ _ => trivial) (recordsBlocks_iterate settings l)
  | ran hat => exact ⟨ran_inv hb hat, Std.Refl.refl db⟩
  | @performed request e k hat =>
    have hcall := hb.blocks request (.op e k) hat () trivial
    refine ⟨hb.goesOn (by rw [hat]; rfl) rfl rfl fun r call h => ?_, perform_sameCurrent _ _ _ _ hcall.1⟩
    cases h
    exact hcall.2 _ () trivial
  | @recorded request hat b' hb' =>
    have hexec := exec_sameCurrent (fun _ => 0) db (c := .recordWorkerFailure store .blockHistory
      (quarantineText request.inst.sidechain) 1) rfl
    refine ⟨?_, deliver_rel env hexec⟩
    rcases hb' with rfl | ⟨error, rfl⟩
    · exact head_inv _
    · exact .of_ended rfl
  | @rechecked reached hat =>
    refine ⟨?_, Std.Refl.refl db⟩
    unfold Backfills.rechecked
    split_ifs
    · exact head_inv _
    · exact hb.goesOn (by rw [hat]; rfl) rfl rfl fun _ _ h => by cases h
  | @reconciled reached hat =>
    refine ⟨?_, Std.Refl.refl db⟩
    cases env.tip with
    | ok tip =>
      simp only [Backfills.reconciled]
      split_ifs
      · exact head_inv _
      · have hactive : b.at'.active = some reached := by
          rw [hat]
          rfl
        refine hb.goesOn hactive rfl rfl fun r call h => ?_
        cases h
        exact records_runHistory _ _ _
    | error error =>
      simp only [Backfills.reconciled]
      split_ifs
      · exact head_inv _
      · exact .of_ended rfl

/-- A task that has returned does not go on. -/
theorem Stepped.ended {a : BackfillsAction} (h : Stepped store settings b db a b' db')
    (hended : b.at'.ended = true) : b'.at'.ended = true := by
  have not_receiving (hat : b.at' = .receiving) : False := by
    rw [hat] at hended
    cases hended
  cases h with
  | shutdown hat => exact (not_receiving hat).elim
  | receive hat => exact (not_receiving hat).elim
  | closed hat => exact (not_receiving hat).elim
  | retry hat => exact (not_receiving hat).elim
  | tipChanged hat => exact (not_receiving hat).elim
  | tipsClosed hat => exact (not_receiving hat).elim
  | advance hadvanced =>
    cases hadvanced with
    | failed => rfl
    | checked hat | again hat | ran hat | performed hat | recorded hat | rechecked hat | reconciled hat =>
      rw [hat] at hended
      cases hended

/-- **A step keeps the invariant**, and the current set is none of its business. -/
theorem Stepped.inv {a : BackfillsAction} (hb : b.Inv) (h : Stepped store settings b db a b' db') :
    b'.Inv ∧ SameCurrent db db' := by
  cases h with
  | shutdown hat => exact ⟨.of_ended rfl, Std.Refl.refl db⟩
  | receive hat request => exact ⟨.of_checking rfl, Std.Refl.refl db⟩
  | closed hat => exact ⟨head_inv _, Std.Refl.refl db⟩
  | retry hat hmem => exact ⟨.of_checking rfl, Std.Refl.refl db⟩
  | tipChanged hat target => exact ⟨head_inv _, Std.Refl.refl db⟩
  | tipsClosed hat => exact ⟨head_inv _, Std.Refl.refl db⟩
  | advance hadvanced => exact hadvanced.inv hb

end

end Backfills

/-! ### What `monitor_sidechains` hands over -/

namespace Sidechains

/-- From `s` to `t`: what is managed was, or has been spawned; and what was about to be asked for is,
unless it was sent. -/
structure HandsOver (a : SidechainsAction) (s t : Sidechains) : Prop where
  managed : ∀ (slot : ℕ) m, t.managed[slot]? = some m →
    s.managed[slot]? = some m ∨ m.inst ∈ s.at'.spawns a
  queued : ∀ r ∈ s.at'.queued, t.at'.ended = true ∨ r ∈ t.at'.queued ∨ a = .queue (.ok ())
  ended : s.at'.ended = true → t.at'.ended = true

variable {s t : Sidechains}

/-- Nothing was about to be sent, and entries only go. -/
theorem HandsOver.of_idle {a : SidechainsAction} (hqueued : s.at'.queued = none)
    (hended : s.at'.ended = false)
    (hmanaged : ∀ (slot : ℕ) m, t.managed[slot]? = some m → s.managed[slot]? = some m) :
    HandsOver a s t where
  managed slot m hm := .inl (hmanaged slot m hm)
  queued r hr := by
    rw [hqueued] at hr
    cases hr
  ended h := by
    rw [hended] at h
    cases h

/-- The task returns. -/
theorem HandsOver.of_ended {a : SidechainsAction} (hended : t.at'.ended = true)
    (hmanaged : t.managed = s.managed) : HandsOver a s t where
  managed _ _ hm := .inl (hmanaged ▸ hm)
  queued _ _ := .inl hended
  ended _ := hended

theorem handle_managed {inst : SidechainInstanceRef} {joined : Joined} {slot : ℕ} {m : ManagedWorker}
    (h : (s.handle inst joined).managed[slot]? = some m) : s.managed[slot]? = some m := by
  cases joined with
  | joinError error => exact h
  | exit result =>
    match result with
    | .ok .stopped =>
      simp only [handle] at h
      split_ifs at h
      · exact (managed_unmanage.mp h).1
      · exact h
    | .ok .shutdown =>
      simp only [handle] at h
      split_ifs at h <;> exact h
    | .error error =>
      simp only [handle] at h
      split_ifs at h <;> exact h

theorem handsOver_step {discoverNewSlots : Bool} {configured : List ℕ} {a : SidechainsAction}
    (h : s.step discoverNewSlots configured a = some t) : HandsOver a s t := by
  cases a with
  | finish worker joined =>
    simp only [step] at h
    split at h
    · split_ifs at h
      cases h
      exact ⟨fun _ _ hm => .inl hm, fun _ hr => .inr (.inl hr), id⟩
    · cases h
  | requestShutdown =>
    cases h
    exact ⟨fun _ _ hm => .inl hm, fun _ hr => .inr (.inl hr), id⟩
  | closeShutdown =>
    cases h
    exact ⟨fun _ _ hm => .inl hm, fun _ hr => .inr (.inl hr), id⟩
  | shutdown =>
    simp only [step] at h
    split at h
    · split_ifs at h
      cases h
      exact .of_ended rfl rfl
    · cases h
  | join worker =>
    obtain ⟨⟨inst, joined⟩, hjoin, rfl⟩ := Option.map_eq_some_iff.mp h
    unfold joinable at hjoin
    split at hjoin
    · next hat _ =>
      have hidle : s.at'.queued = none ∧ s.at'.ended = false := by
        rw [hat]
        exact ⟨rfl, rfl⟩
      exact .of_idle hidle.1 hidle.2 fun slot m hm =>
        handle_managed (s := s.setWorker worker none) hm
    · cases hjoin
  | changed sidechainState =>
    simp only [step] at h
    split at h
    · next hat =>
      cases h
      exact .of_idle (by rw [hat]; rfl) (by rw [hat]; rfl) fun _ _ hm => hm
    · cases h
      exact .of_ended rfl rfl
    · cases h
  | retry instanceId =>
    simp only [step] at h
    split at h
    · next hat =>
      split_ifs at h
      cases h
      exact .of_idle (by rw [hat]; rfl) (by rw [hat]; rfl) fun _ _ hm => hm
    · cases h
  | read activeInstances =>
    simp only [step] at h
    split at h
    · next hat =>
      cases h
      refine .of_idle (by rw [hat]; rfl) (by rw [hat]; rfl) fun slot m hm => ?_
      rw [follow, (add_same _ _).1] at hm
      exact (managed_unmanage.mp hm).1
    · cases h
      exact .of_ended rfl rfl
    · cases h
  | prepare target =>
    simp only [step] at h
    split at h
    · next inst rest tip hat =>
      cases h
      refine ⟨fun slot m hm => ?_, fun r hr => ?_, fun hended => ?_⟩
      · rcases managed_spawn.mp hm with ⟨-, rfl⟩ | ⟨-, hm⟩
        · exact .inr (by rw [hat]; rfl)
        · exact .inl hm
      · rw [hat] at hr
        cases hr
      · rw [hat] at hended
        cases hended
    · next inst rest error hat =>
      split_ifs at h
      · cases h
        refine .of_idle (by rw [hat]; rfl) (by rw [hat]; rfl) fun slot m hm => ?_
        rw [(add_same _ _).1, defer] at hm
        split_ifs at hm <;> exact hm
      · cases h
        exact .of_ended rfl rfl
    · cases h
  | queue sent =>
    simp only [step] at h
    split at h
    · next request rest hat =>
      cases h
      refine ⟨fun slot m hm => .inl ?_, fun _ _ => .inr (.inr rfl), fun hended => ?_⟩
      · rw [(add_same _ _).1] at hm
        exact hm
      · rw [hat] at hended
        cases hended
    · cases h
      exact .of_ended rfl rfl
    · cases h

/-- What has been spawned is about to be asked for. -/
theorem spawns_queued {discoverNewSlots : Bool} {configured : List ℕ} {a : SidechainsAction}
    (h : s.step discoverNewSlots configured a = some t) {inst : SidechainInstanceRef}
    (hinst : inst ∈ s.at'.spawns a) : ∃ r ∈ t.at'.queued, r.inst = inst := by
  unfold SidechainsAt.spawns at hinst
  split at hinst
  · next rest tip hat =>
    cases hinst
    simp only [step, hat] at h
    cases h
    exact ⟨⟨inst, tip⟩, rfl, rfl⟩
  · cases hinst

/-- What is looked up by slot was listed. -/
theorem mem_of_bySlot {instances : List SidechainInstanceRef} {slot : ℕ} {inst : SidechainInstanceRef}
    (h : (bySlot instances)[slot]? = some inst) : inst ∈ instances := by
  have hfold : ∀ (rest : List SidechainInstanceRef) (slots : Std.TreeMap ℕ SidechainInstanceRef),
      (∀ (slot : ℕ) inst, slots[slot]? = some inst → inst ∈ instances) → rest ⊆ instances →
      ∀ (slot : ℕ) inst, (rest.foldl (fun slots inst => slots.insert inst.sidechain inst) slots)[slot]? =
        some inst → inst ∈ instances := by
    intro rest
    induction rest with
    | nil => exact fun _ hslots _ => hslots
    | cons first rest ih =>
      intro slots hslots hrest
      refine ih _ (fun slot inst hget => ?_) fun _ hmem => hrest (List.mem_cons_of_mem _ hmem)
      rw [Std.TreeMap.getElem?_insert] at hget
      split_ifs at hget
      · cases hget
        exact hrest List.mem_cons_self
      · exact hslots slot inst hget
  exact hfold instances ∅ (fun _ _ hget => by simp at hget) (fun _ hmem => hmem) slot inst h

/-- The first workers are of the initial instances. -/
theorem managed_start {streams : List ℕ} {instances : List SidechainInstanceRef}
    (h : monitorSidechains streams instances = .ok s) :
    ∀ (slot : ℕ) m, s.managed[slot]? = some m → m.inst ∈ instances := by
  have hloop : ∀ (streams : List ℕ) (s t : Sidechains),
      (∀ (slot : ℕ) m, s.managed[slot]? = some m → m.inst ∈ instances) →
      streams.foldlM (spawnInitial instances) s = .ok t →
      ∀ (slot : ℕ) m, t.managed[slot]? = some m → m.inst ∈ instances := by
    intro streams
    induction streams with
    | nil =>
      intro s t hs h
      cases h
      exact hs
    | cons sidechain streams ih =>
      intro s t hs h
      rw [List.foldlM_cons] at h
      obtain ⟨u, hu, h⟩ := Result.bind_eq_ok.mp h
      unfold spawnInitial at hu
      split at hu
      · next inst hinst =>
        cases hu
        refine ih _ t (fun slot m hm => ?_) h
        rcases managed_spawn.mp hm with ⟨-, rfl⟩ | ⟨-, hm⟩
        · exact mem_of_bySlot hinst
        · exact hs slot m hm
      · cases hu
  exact hloop streams _ s (fun _ _ hm => by simp at hm) h

end Sidechains

/-! ### The tasks, their channels and the record -/

/-- The record, the two tasks, and what is in their channels. -/
structure HistoryTasks where
  db : Db
  /-- `sidechain_state_rx` has a value that `monitor_sidechains` has not seen. -/
  unread : Bool
  /-- `backfill_tx`. -/
  queue : List BackfillRequest
  sidechains : Sidechains
  backfills : Backfills

/-- What happens next. -/
inductive HistoryTasksAction where
  /-- A write of the record, of this process or of another. -/
  | commit (c : Command)
  /-- `sidechain_state_tx.send`. -/
  | notify
  | sidechains (a : SidechainsAction)
  | backfill (a : BackfillsAction)

namespace HistoryTasks

/-- The tasks as `run` spawns them, after any startup snapshot. -/
def start (db : Db) (streams : List ℕ) (instances : List SidechainInstanceRef) (anchor : ObservedBlock) :
    Result HistoryTasks := do
  ensure (instances.length ≤ 256) "at most 256 sidechain slots fit in the initial backfill queue"
  let sidechains ← Sidechains.monitorSidechains streams instances
  pure ⟨db, false, instances.map fun inst => ⟨inst, anchor⟩, sidechains, .init⟩

/-- The channels after a step of `monitor_sidechains`, if they allow for it. It reads the record as it
is. -/
def hand (dataset : Uuid) (s : HistoryTasks) : SidechainsAction → Option (Bool × List BackfillRequest)
  | .changed (.ok ()) => if s.unread then some (false, s.queue) else none
  | .read (.ok instances) =>
    if s.db.currentSidechainInstances dataset = .ok instances then some (s.unread, s.queue) else none
  | .queue (.ok ()) =>
    if s.queue.length < 256 then some (s.unread, s.queue ++ s.sidechains.at'.queued.toList) else none
  | .queue (.error _) => if s.backfills.at'.ended then some (s.unread, s.queue) else none
  | _ => some (s.unread, s.queue)

/-- The queue after a step of `backfill_sidechains`, if it allows for it: the sender is gone when
`monitor_sidechains` has returned. -/
def take (s : HistoryTasks) : BackfillsAction → Option (List BackfillRequest)
  | .receive (some request) =>
    match s.queue with
    | first :: rest => if first = request then some rest else none
    | [] => none
  | .receive none => if s.queue = [] ∧ s.sidechains.at'.ended then some [] else none
  | _ => some s.queue

section
variable [Digests]

/-- One step. -/
def step (startOf : ScopeKey → ℕ) (store : Store) (settings : Settings) (discoverNewSlots : Bool)
    (configured : List ℕ) (s : HistoryTasks) : HistoryTasksAction → Option HistoryTasks
  | .commit c => some { s with db := s.db.exec startOf c }
  | .notify => some { s with unread := true }
  | .sidechains a =>
    match s.hand store.datasetId a, s.sidechains.step discoverNewSlots configured a with
    | some (unread, queue), some sidechains =>
      some { s with unread := unread, queue := queue, sidechains := sidechains }
    | _, _ => none
  | .backfill a =>
    match s.take a, s.backfills.step store settings s.db a with
    | some queue, some (backfills, db) =>
      some { s with db := db, queue := queue, backfills := backfills }
    | _, _ => none

end

/-! ### What is asked of a state -/

/-- A request for the instance is in the channel. -/
def sent (s : HistoryTasks) (inst : SidechainInstanceRef) : Prop := ∃ r ∈ s.queue, r.inst.key = inst.key

/-- The history of the instance is owned. -/
def owned (s : HistoryTasks) (inst : SidechainInstanceRef) : Prop := s.sent inst ∨ s.backfills.owns inst

/-- `monitor_sidechains` is about to send a request for the instance. -/
def asking (s : HistoryTasks) (inst : SidechainInstanceRef) : Prop :=
  ∃ r ∈ s.sidechains.at'.queued, r.inst.key = inst.key

/-- There is a request for the instance: in the channel, waiting, or about to be sent. -/
def asked (s : HistoryTasks) (inst : SidechainInstanceRef) : Prop :=
  s.sent inst ∨ s.backfills.waits inst ∨ s.asking inst

/-- Neither task has returned. -/
def alive (s : HistoryTasks) : Prop := s.sidechains.at'.ended = false ∧ s.backfills.at'.ended = false

/-- No notification is unread, and `monitor_sidechains` is idle. -/
def AtRest (s : HistoryTasks) : Prop :=
  s.alive ∧ s.unread = false ∧ s.sidechains.at'.idle = true

/-- Every managed instance that is current is owned, at rest. -/
def Owned (dataset : Uuid) (s : HistoryTasks) : Prop :=
  s.AtRest → ∀ inst, s.sidechains.isManaged inst → s.db.isCurrent dataset inst → s.owned inst

instance (s : HistoryTasks) : Decidable s.AtRest :=
  inferInstanceAs (Decidable ((_ = _ ∧ _ = _) ∧ _ = _ ∧ _ = _))

instance (s : HistoryTasks) (inst : SidechainInstanceRef) : Decidable (s.sent inst) :=
  inferInstanceAs (Decidable (∃ r ∈ s.queue, _))

instance (s : HistoryTasks) (inst : SidechainInstanceRef) : Decidable (s.owned inst) :=
  inferInstanceAs (Decidable (_ ∨ _))

instance (s : HistoryTasks) (inst : SidechainInstanceRef) : Decidable (s.asking inst) :=
  inferInstanceAs (Decidable (∃ r ∈ s.sidechains.at'.queued, _))

instance (s : HistoryTasks) (inst : SidechainInstanceRef) : Decidable (s.asked inst) :=
  inferInstanceAs (Decidable (_ ∨ _ ∨ _))

/-! ### What is let go of -/

/-- The instance whose last request a step of `backfill_sidechains` lets go of. -/
def forgets (dataset : Uuid) (s : HistoryTasks) (a : BackfillsAction) : Option SidechainInstanceRef :=
  (s.backfills.letsGo dataset s.db a).filter fun inst => ¬ s.asked inst

/-- The instances whose last request has been let go of, and that no worker has been spawned for
since. -/
def forgotten (dataset : Uuid) (s : HistoryTasks) (keys : List (ℕ × String)) :
    HistoryTasksAction → List (ℕ × String)
  | .commit _ | .notify => keys
  | .sidechains a => keys.filter fun key => ∀ inst ∈ s.sidechains.at'.spawns a, inst.key ≠ key
  | .backfill a => keys ++ ((s.forgets dataset a).map (·.key)).toList

section
variable [Digests] {startOf : ScopeKey → ℕ} {store : Store} {settings : Settings}
  {discoverNewSlots : Bool} {configured : List ℕ} {s t : HistoryTasks} {keys : List (ℕ × String)}

/-- No managed instance is current that is forgotten: a write makes none so, and none is when its last
request is let go of. -/
def Kept (startOf : ScopeKey → ℕ) (dataset : Uuid) (p : HistoryTasks × List (ℕ × String)) :
    HistoryTasksAction → Prop
  | .commit c => ∀ m ∈ p.1.sidechains.managed.toList, m.2.inst.key ∈ p.2 →
      ¬ (p.1.db.exec startOf c).isCurrent dataset m.2.inst
  | .backfill a => ∀ inst ∈ p.1.forgets dataset a, ∀ m ∈ p.1.sidechains.managed.toList,
      m.2.inst.key = inst.key → ¬ p.1.db.isCurrent dataset m.2.inst
  | .notify | .sidechains _ => True

instance (startOf : ScopeKey → ℕ) (dataset : Uuid) (p : HistoryTasks × List (ℕ × String)) :
    ∀ a, Decidable (Kept startOf dataset p a)
  | .commit _ => inferInstanceAs (Decidable (∀ m ∈ p.1.sidechains.managed.toList, _))
  | .backfill a => inferInstanceAs (Decidable (∀ inst ∈ p.1.forgets dataset a, _))
  | .notify | .sidechains _ => isTrue trivial

/-! ### The invariant -/

/-- While neither task has returned, what is managed is owned, or is being asked for, or has been
forgotten; and what has been forgotten is not current. -/
structure Inv (dataset : Uuid) (s : HistoryTasks) (keys : List (ℕ × String)) : Prop where
  sidechains : s.sidechains.Inv
  backfills : s.backfills.Inv
  owned : s.alive → ∀ (slot : ℕ) m, s.sidechains.managed[slot]? = some m →
    s.owned m.inst ∨ s.asking m.inst ∨ m.inst.key ∈ keys
  forgotten : ∀ (slot : ℕ) m, s.sidechains.managed[slot]? = some m → m.inst.key ∈ keys →
    ¬ s.db.isCurrent dataset m.inst

omit [Digests] in
/-- A step of `monitor_sidechains`: what it hands over is in the channel. -/
theorem hand_inv {a : SidechainsAction} {unread : Bool} {queue : List BackfillRequest}
    (h : s.hand store.datasetId a = some (unread, queue)) :
    s.queue ⊆ queue ∧ (a = .queue (.ok ()) → ∀ r ∈ s.sidechains.at'.queued, r ∈ queue) := by
  unfold hand at h
  split at h
  · split_ifs at h
    cases h
    exact ⟨fun _ hr => hr, fun ha => by cases ha⟩
  · split_ifs at h
    cases h
    exact ⟨fun _ hr => hr, fun ha => by cases ha⟩
  · split_ifs at h
    cases h
    exact ⟨fun _ hr => List.mem_append_left _ hr,
      fun _ r hr => List.mem_append_right _ (Option.mem_toList.mpr hr)⟩
  · split_ifs at h
    cases h
    exact ⟨fun _ hr => hr, fun ha => by cases ha⟩
  · next hqueue _ =>
    cases h
    exact ⟨fun _ hr => hr, fun ha => absurd ha hqueue⟩

omit [Digests] in
theorem step_sidechains {a : SidechainsAction} {unread : Bool} {queue : List BackfillRequest}
    {sidechains : Sidechains} (hs : s.Inv store.datasetId keys)
    (hhand : s.hand store.datasetId a = some (unread, queue))
    (hstep : s.sidechains.step discoverNewSlots configured a = some sidechains) :
    Inv store.datasetId { s with unread := unread, queue := queue, sidechains := sidechains }
      (s.forgotten store.datasetId keys (.sidechains a)) := by
  obtain ⟨hqueue, hsent⟩ := hand_inv hhand
  have hover := Sidechains.handsOver_step hstep
  refine ⟨Sidechains.step_inv hs.sidechains hstep, hs.backfills, fun halive slot m hm => ?_,
    fun slot m hm hkey => ?_⟩
  · by_cases hspawned : ∃ inst ∈ s.sidechains.at'.spawns a, inst.key = m.inst.key
    · obtain ⟨inst, hinst, hkey⟩ := hspawned
      obtain ⟨r, hr, rfl⟩ := Sidechains.spawns_queued hstep hinst
      exact .inr (.inl ⟨r, hr, hkey⟩)
    have hm := (hover.managed slot m hm).resolve_right fun hinst => hspawned ⟨m.inst, hinst, rfl⟩
    have hwas : s.alive := by
      refine ⟨?_, halive.2⟩
      by_contra hreturned
      have hnow := hover.ended (by simpa using hreturned)
      rw [halive.1] at hnow
      cases hnow
    rcases hs.owned hwas slot m hm with (⟨r, hr, hkey⟩ | howns) | ⟨r, hr, hkey⟩ | hforgotten
    · exact .inl (.inl ⟨r, hqueue hr, hkey⟩)
    · exact .inl (.inr howns)
    · rcases hover.queued r hr with hreturned | hr' | rfl
      · rw [halive.1] at hreturned
        cases hreturned
      · exact .inr (.inl ⟨r, hr', hkey⟩)
      · exact .inl (.inl ⟨r, hsent rfl r hr, hkey⟩)
    · refine .inr (.inr (List.mem_filter.mpr ⟨hforgotten, ?_⟩))
      exact decide_eq_true fun inst hinst hkey => hspawned ⟨inst, hinst, hkey⟩
  · obtain ⟨hkey, hnot⟩ := List.mem_filter.mp hkey
    rcases hover.managed slot m hm with hm | hspawned
    · exact hs.forgotten slot m hm hkey
    · exact absurd rfl (of_decide_eq_true hnot m.inst hspawned)

omit [Digests] in
/-- A step of `backfill_sidechains`: what it receives it takes from the channel. -/
theorem take_inv {a : BackfillsAction} {queue : List BackfillRequest} (h : s.take a = some queue) :
    ∀ r ∈ s.queue, r ∈ queue ∨ r ∈ a.received := by
  unfold take at h
  split at h
  · split at h
    · next hqueue =>
      split_ifs at h with hfirst
      cases h
      intro r hr
      rw [hqueue] at hr
      rcases List.mem_cons.mp hr with rfl | hr
      · exact .inr (congrArg some hfirst.symm)
      · exact .inl hr
    · cases h
  · split_ifs at h with hempty
    cases h
    exact fun r hr => by rw [hempty.1] at hr; cases hr
  · cases h
    exact fun r hr => .inl hr

theorem step_backfill {a : BackfillsAction} {queue : List BackfillRequest} {backfills : Backfills}
    {db : Db} (hs : s.Inv store.datasetId keys) (hkept : Kept startOf store.datasetId (s, keys) (.backfill a))
    (htake : s.take a = some queue)
    (hstep : s.backfills.step store settings s.db a = some (backfills, db)) :
    Inv store.datasetId { s with db := db, queue := queue, backfills := backfills }
      (s.forgotten store.datasetId keys (.backfill a)) := by
  have hstepped := Backfills.step_inv hstep
  obtain ⟨hinv, hsame⟩ := hstepped.inv hs.backfills
  refine ⟨hs.sidechains, hinv, fun halive slot m hm => ?_, fun slot m hm hkey => ?_⟩
  · have hwas : s.alive := by
      refine ⟨halive.1, ?_⟩
      by_contra hreturned
      have hnow := hstepped.ended (by simpa using hreturned)
      rw [halive.2] at hnow
      cases hnow
    -- what the task owns after the step, when it has not returned
    have owns (howns : s.backfills.owns m.inst ∨ ∃ r ∈ a.received, r.inst.key = m.inst.key)
        (hkeeps : ∀ inst ∈ s.backfills.letsGo store.datasetId s.db a,
          inst.key ≠ m.inst.key ∨ s.backfills.waits m.inst) : backfills.owns m.inst := by
      refine (hstepped.owns hs.backfills howns hkeeps).resolve_left fun hreturned => ?_
      rw [halive.2] at hreturned
      cases hreturned
    rcases hs.owned hwas slot m hm with (⟨r, hr, hkey⟩ | howns) | hasking | hforgotten
    · rcases take_inv htake r hr with hr | hr
      · exact .inl (.inl ⟨r, hr, hkey⟩)
      · refine .inl (.inr (owns (.inr ⟨r, hr, hkey⟩) fun inst hinst => ?_))
        obtain ⟨env, rfl⟩ := Backfills.letsGo_advance hinst
        cases hr
    · by_cases hkeeps : ∀ inst ∈ s.backfills.letsGo store.datasetId s.db a,
          inst.key ≠ m.inst.key ∨ s.backfills.waits m.inst
      · exact .inl (.inr (owns (.inl howns) hkeeps))
      · push Not at hkeeps
        obtain ⟨inst, hinst, hkey, hwaits⟩ := hkeeps
        by_cases hasked : s.asked inst
        · obtain ⟨env, rfl⟩ := Backfills.letsGo_advance hinst
          cases htake
          rw [asked, sent, asking, Backfills.waits, hkey] at hasked
          rcases hasked with hsent | hwaits' | hasking
          · exact .inl (.inl hsent)
          · exact absurd hwaits' hwaits
          · exact .inr (.inl hasking)
        · have hforgets : inst ∈ s.forgets store.datasetId a :=
            Option.mem_filter_iff.mpr ⟨hinst, decide_eq_true hasked⟩
          refine .inr (.inr (List.mem_append_right _ (Option.mem_toList.mpr ?_)))
          exact Option.map_eq_some_iff.mpr ⟨inst, hforgets, hkey⟩
    · exact .inr (.inl hasking)
    · exact .inr (.inr (List.mem_append_left _ hforgotten))
  · rw [Db.isCurrent, hsame.currentInstance]
    rcases List.mem_append.mp hkey with hkey | hkey
    · exact hs.forgotten slot m hm hkey
    · obtain ⟨inst, hinst, hkey⟩ := Option.map_eq_some_iff.mp (Option.mem_toList.mp hkey)
      exact hkept inst hinst _ (Std.TreeMap.mem_toList_iff_getElem?_eq_some.mpr hm) hkey.symm

/-- **A step keeps the histories owned**, or forgets those that are not current. -/
theorem step_inv {a : HistoryTasksAction} (hs : s.Inv store.datasetId keys)
    (hkept : Kept startOf store.datasetId (s, keys) a)
    (h : s.step startOf store settings discoverNewSlots configured a = some t) :
    t.Inv store.datasetId (s.forgotten store.datasetId keys a) := by
  cases a with
  | commit c =>
    cases h
    exact ⟨hs.sidechains, hs.backfills, hs.owned, fun slot m hm =>
      hkept _ (Std.TreeMap.mem_toList_iff_getElem?_eq_some.mpr hm)⟩
  | notify =>
    cases h
    exact ⟨hs.sidechains, hs.backfills, hs.owned, hs.forgotten⟩
  | sidechains a =>
    simp only [step] at h
    split at h
    · next hhand hstep =>
      cases h
      exact step_sidechains hs hhand hstep
    · cases h
  | backfill a =>
    simp only [step] at h
    split at h
    · next htake hstep =>
      cases h
      exact step_backfill hs hkept htake hstep
    · cases h

omit [Digests] in
/-- Every instance of the startup snapshot is asked for. -/
theorem Inv.start {dataset : Uuid} {db : Db} {streams : List ℕ} {instances : List SidechainInstanceRef}
    {anchor : ObservedBlock} (h : start db streams instances anchor = .ok s) : s.Inv dataset [] := by
  unfold HistoryTasks.start at h
  simp only [Result.bind_eq_ok, Backfill.ensure_eq_ok, Result.pure_eq_ok] at h
  obtain ⟨-, -, sidechains, hsidechains, rfl⟩ := h
  refine ⟨.start hsidechains, .init, fun _ slot m hm => .inl (.inl ?_), fun _ _ _ h => by cases h⟩
  exact ⟨⟨m.inst, anchor⟩, List.mem_map_of_mem (Sidechains.managed_start hsidechains slot m hm), rfl⟩

omit [Digests] in
/-- At rest nothing is being asked for. -/
theorem Inv.atRest {dataset : Uuid} (hs : s.Inv dataset keys) : s.Owned dataset := by
  rintro ⟨halive, -, hidle⟩ inst ⟨m, hm, rfl⟩ hcurrent
  rcases hs.owned halive _ m hm with howned | ⟨r, hr, -⟩ | hforgotten
  · exact howned
  · cases hat : s.sidechains.at' with
    | selecting =>
      rw [hat] at hr
      cases hr
    | _ =>
      rw [hat] at hidle
      cases hidle
  · exact absurd hcurrent (hs.forgotten _ m hm hforgotten)

end

end HistoryTasks

section
variable [Digests]

end

/-! ### A startup in the middle of a reorg -/

namespace UnsettledStartup

/-- The digests of the payloads. -/
@[reducible] def digests : Digests := .ofPayloads [
  (.enforcer (some (.sidechainProposals [])),
    0xfdbb66f97af044e4b88b0bb0a4789f8f014f98b53f5fe11102bd19f45d53c45b),
  (.enforcer (some (.activeSidechains [{ slotNine with proposalHeight := 1, activationHeight := 2 }])),
    0xe47d357218a5e9a35aca8b7887625c3cbee6f35476e258b9b809e04191d66c8d),
  (.enforcer (some (.activeSidechains [slotNine])),
    0xf2a242527941e63799fa9b77cce23743b8893a0c8ca5904f5b3f83c313c8bfb4),
  (.enforcer (some (.ctip ⟨9, none⟩)),
    0xc926e4b6406d363d36d8572666e12b78491845e7a94bbf2dd93fc9c512cb2aff),
  (.enforcer (some (.withdrawalBundleProposals ⟨9, []⟩)),
    0x6b01c0020dcb725db87b838cb1e0a9b719309745e260135c41c79fbdb0c3dec1),
  (.enforcer (some (.chainInfo ⟨3, some ⟨26300, 13150, 26300, 13150, 2016, 1008, 1⟩, 3⟩)),
    0x68f34dddb16fccbbe332b465219700c6e20a8d73e65c441670e20165b402ed6d),
  (.enforcer (some (.chainTip ⟨some ⟨bytes32 1, bytes32 0, 5, [], [], 0⟩⟩)),
    0xcc8336140325c9e3c5a4dd090557ae9ff479a40156600266f6c06a88f555de29)]

def startOf : ScopeKey → ℕ := fun _ => 5

def store : Store := ⟨.enforcer, 0, 1, 9⟩

def tip : ObservedBlock := .atHeight (bytes32 1) 5

/-- The run before, which left an instance of slot 9 current that was activated on another branch. -/
def commands : List Command :=
  [.initializeIdentity .enforcer 0 0 9,
    .recordSnapshot ⟨.enforcer, 0, 0, 9⟩
      (stateReading [{ slotNine with proposalHeight := 1, activationHeight := 2 }]) .poll
      (tipMatchedAt (.atHeight (bytes32 0) 4)),
    .initializeIdentity .enforcer 0 1 9]

/-- What a startup publishes beside the reading of the state. -/
def constants : ChainInfo × ChainTip :=
  (⟨3, some ⟨26300, 13150, 26300, 13150, 2016, 1008, 1⟩, 3⟩, ⟨some ⟨bytes32 1, bytes32 0, 5, [], [], 0⟩⟩)

/-- The startup snapshot, with slot 9 active. -/
def events : List Event :=
  [⟨0, some tip, some (.enforcer (some (.chainInfo constants.1)))⟩,
    ⟨0, some tip, some (.enforcer (some (.chainTip constants.2)))⟩] ++ stateReading [slotNine]

/-- The tip moved on during every attempt, unless the snapshot is consistent. -/
def metadata (consistency : SnapshotConsistency) : SnapshotMetadata :=
  { tipMatchedAt tip with
    tipAfter := if consistency = .changed then .atHeight (bytes32 2) 6 else tip
    consistency := consistency
    attempts := 3 }

section
variable [Digests]

/-- The tasks, once the startup snapshot has been recorded. -/
def started (consistency : SnapshotConsistency) : Result HistoryTasks := do
  let (_, db) ← recordSnapshot store events .startup (metadata consistency)
    (commands.foldl (Db.exec startOf) Db.empty)
  HistoryTasks.start db [9] [slotNineInstance] tip

end

/-- `backfill_sidechains` takes the request of the startup. -/
def taken : List HistoryTasksAction :=
  [.backfill (.receive (some ⟨slotNineInstance, tip⟩)),
    .backfill (.advance ⟨false, .ok [], .ok tip, .ok 0, none⟩)]

/-- The next reading is consistent, and finds the same set, so that it is not announced. -/
def settled : List HistoryTasksAction :=
  [.commit (.recordSnapshot store (stateReading [slotNine]) .poll (tipMatchedAt tip))]

theorem collects : @collectPayloads digests Activation.answers [9] false = .ok Activation.payloads := by
  decide +kernel

theorem envelopes :
    List.Forall₂ (IsEnvelope tip) (startupConstants (some constants) ++ Activation.payloads) events :=
  .cons ⟨0, rfl⟩ (.cons ⟨0, rfl⟩ (.cons ⟨0, rfl⟩ (.cons ⟨0, rfl⟩ (.cons ⟨0, rfl⟩ (.cons ⟨0, rfl⟩ .nil)))))

end UnsettledStartup

end Bip300Monitor
