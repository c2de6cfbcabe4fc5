import Bip300Monitor.Backfill.Engine

/-!
# The workers of the sidechains

`monitor_sidechains` in `extractors/enforcer/src/runtime.rs`: one task per managed sidechain
instance forwards the slot's event stream, and the loop around them retires a worker whose
instance is no longer the current one, sets up observation for an instance that has no worker,
and handles the exits.

## The model

A step is what the task does between two awaits, or one task's return. A worker is told to stop
by `true` in its stop channel, or when the channel's sender is dropped with the map entry that
holds it. The answers of the store and of the enforcer are inputs, and the payloads that the
workers forward are left out. A number names a task; an exit names only the instance.

## What is proved

* `Sidechains.step_inv` — a worker that has not been told to stop has an entry of its own;
* `exits_unmanage_themselves` — no instance has two such workers, and the steps of a run handle
  exits as they should exactly if none is taken for that of the worker that came after it;
* `not_exits_unmanage_themselves_return` — and an instance that returns before its old worker's
  exit is handled loses the new worker.
-/

namespace Bip300Monitor

open Protobuf Runs
open Backfill (retryableRpcError)

/-! ### The model -/

/-- `StreamExit`. -/
inductive StreamExit where
  | shutdown | stopped
  deriving DecidableEq, Repr

/-- What `JoinSet::join_next` yields of a worker: what it returned, or that it did not. -/
inductive Joined where
  | exit (result : Result StreamExit)
  | joinError (error : Failure)

/-- A worker, from its spawning until it is joined. -/
structure SidechainWorker where
  inst : SidechainInstanceRef
  /-- `wait_for_shutdown(&mut stop_rx)` returns. -/
  stop : Bool
  joined : Option Joined

/-- An entry of the map: the instance, and the worker whose stop channel it can send to. -/
structure ManagedWorker where
  inst : SidechainInstanceRef
  worker : ℕ
  deriving DecidableEq, Repr

/-- A request for the history of an instance. -/
structure BackfillRequest where
  inst : SidechainInstanceRef
  target : ObservedBlock
  deriving DecidableEq, Repr

/-- The await at which `monitor_sidechains` is. -/
inductive SidechainsAt where
  | selecting
  /-- `current_sidechain_instances`. -/
  | reading
  /-- `prepare_sidechain_activation` of the first of the additions that are left. -/
  | preparing (inst : SidechainInstanceRef) (rest : List SidechainInstanceRef)
  /-- `backfill_tx.send`. -/
  | queueing (request : BackfillRequest) (rest : List SidechainInstanceRef)
  | returned (result : Result Unit)

/-- The state of `monitor_sidechains` and its workers. -/
structure Sidechains where
  managed : Std.TreeMap ℕ ManagedWorker
  workers : ℕ → Option SidechainWorker
  /-- How many workers have been spawned. -/
  spawned : ℕ
  /-- `deferred_activations`, each of which has its timer in `activation_retries`. -/
  deferred : List String
  at' : SidechainsAt
  /-- The value in the shutdown channel. -/
  shutdown : Bool
  /-- The shutdown channel's sender is gone. -/
  shutdownClosed : Bool

/-- `collect::<BTreeMap<_, _>>()` of instances by their slots. -/
def bySlot (instances : List SidechainInstanceRef) : Std.TreeMap ℕ SidechainInstanceRef :=
  instances.foldl (fun slots inst => slots.insert inst.sidechain inst) ∅

namespace Sidechains

/-- `managed.get(&instance.sidechain).is_some_and(|worker| worker.instance == instance)`. -/
def isManaged (s : Sidechains) (inst : SidechainInstanceRef) : Prop :=
  ∃ m ∈ s.managed[inst.sidechain]?, m.inst = inst

instance (s : Sidechains) (inst : SidechainInstanceRef) : Decidable (s.isManaged inst) :=
  inferInstanceAs (Decidable (∃ m ∈ s.managed[inst.sidechain]?, _))

/-- The worker has an entry: it is not retired. -/
def manages (s : Sidechains) (id : ℕ) : Prop := ∃ p ∈ s.managed.toList, p.2.worker = id

instance (s : Sidechains) (id : ℕ) : Decidable (s.manages id) :=
  inferInstanceAs (Decidable (∃ p ∈ s.managed.toList, _))

/-- The entries that are gone drop the senders of their workers' stop channels. -/
def unmanage (s : Sidechains) (gone : ℕ → ManagedWorker → Bool) : Sidechains :=
  { s with
    managed := s.managed.filter fun slot m => !gone slot m
    workers := fun id => (s.workers id).map fun w =>
      if ∃ p ∈ s.managed.toList, gone p.1 p.2 ∧ p.2.worker = id then { w with stop := true } else w }

/-- What the `JoinSet` has of a worker. -/
def setWorker (s : Sidechains) (id : ℕ) (w : Option SidechainWorker) : Sidechains :=
  { s with workers := Function.update s.workers id w }

/-- Spawn a worker, and insert its entry. -/
def spawn (s : Sidechains) (inst : SidechainInstanceRef) : Sidechains :=
  let s := s.unmanage fun slot _ => slot = inst.sidechain
  { s.setWorker s.spawned (some ⟨inst, false, none⟩) with
    managed := s.managed.insert inst.sidechain ⟨inst, s.spawned⟩
    spawned := s.spawned + 1 }

/-- `abort_and_drain` the workers, or drop their `JoinSet`, and return. -/
def return' (s : Sidechains) (result : Result Unit) : Sidechains :=
  { s with workers := fun _ => none, at' := .returned result }

/-- `schedule_sidechain_activation_retry`. -/
def defer (s : Sidechains) (inst : SidechainInstanceRef) : Sidechains :=
  if inst.sidechainInstanceId ∈ s.deferred then s
  else { s with deferred := s.deferred ++ [inst.sidechainInstanceId] }

/-- Go on with the additions. -/
def add (s : Sidechains) : List SidechainInstanceRef → Sidechains
  | [] => { s with at' := .selecting }
  | inst :: rest => { s with at' := .preparing inst rest }

/-- Spawn the worker of an initial stream. -/
def spawnInitial (initialInstances : List SidechainInstanceRef) (s : Sidechains) (sidechain : ℕ) :
    Result Sidechains :=
  match (bySlot initialInstances)[sidechain]? with
  | some inst => .ok (s.spawn inst)
  | none => .error (.bail ("initial stream for sidechain " ++ toString sidechain ++
      " has no instance"))

/-- The map and the workers at the head of the loop: one for each initial stream. -/
def monitorSidechains (streams : List ℕ) (initialInstances : List SidechainInstanceRef) :
    Result Sidechains :=
  streams.foldlM (spawnInitial initialInstances) ⟨∅, fun _ => none, 0, [], .selecting, false, false⟩

/-- What `join_next` can yield. -/
def joinable (s : Sidechains) (id : ℕ) : Option (SidechainInstanceRef × Joined) :=
  match s.at', s.workers id with
  | .selecting, some w => w.joined.map fun joined => (w.inst, joined)
  | _, _ => none

/-- The arm of `join_next`: a worker has been joined. -/
def handle (s : Sidechains) (inst : SidechainInstanceRef) : Joined → Sidechains
  | .exit (.ok .stopped) =>
    let s := { s with at' := .reading }
    if s.isManaged inst then s.unmanage fun slot _ => slot = inst.sidechain else s
  | .exit (.ok .shutdown) =>
    if s.shutdown then s
    else if ¬ s.isManaged inst then s
    else s.return' (.error (.bail
      ("sidechain " ++ toString inst.sidechain ++ " event worker stopped unexpectedly")))
  | .exit (.error error) => if ¬ s.isManaged inst then s else s.return' (.error error)
  | .joinError error => s.return' (.error (error.context "joining a sidechain subscription task"))

/-- Retire what is not in the durable snapshot, and start on what is and is not managed. -/
def follow (s : Sidechains) (active : Std.TreeMap ℕ SidechainInstanceRef) : Sidechains :=
  let s := s.unmanage fun slot m => active[slot]? ≠ some m.inst
  s.add (active.values.filter fun inst =>
    inst.sidechain ∉ s.managed ∧ inst.sidechainInstanceId ∉ s.deferred)

/-- What a worker can return: it stops when it is told to, and its stream's forwarding ends
without an error only at a shutdown. -/
def mayReturn (s : Sidechains) (w : SidechainWorker) : Joined → Prop
  | .exit (.ok .stopped) => w.stop
  | .exit (.ok .shutdown) => s.shutdown ∨ s.shutdownClosed
  | .exit (.error _) | .joinError _ => True

instance (s : Sidechains) (w : SidechainWorker) : ∀ j, Decidable (s.mayReturn w j)
  | .exit (.ok .stopped) => inferInstanceAs (Decidable (w.stop = true))
  | .exit (.ok .shutdown) => inferInstanceAs (Decidable (s.shutdown = true ∨ s.shutdownClosed = true))
  | .exit (.error _) | .joinError _ => isTrue trivial

end Sidechains

/-- What happens next. -/
inductive SidechainsAction where
  /-- A worker returns. -/
  | finish (id : ℕ) (joined : Joined)
  | requestShutdown
  | closeShutdown
  /-- The arms of the `select!`. -/
  | shutdown
  | join (id : ℕ)
  | changed (sidechainState : Result Unit)
  | retry (instanceId : String)
  /-- The answers of the store, of the enforcer and of the backfill's channel. -/
  | read (activeInstances : Result (List SidechainInstanceRef))
  | prepare (target : Result ObservedBlock)
  | queue (sent : Result Unit)

/-- One step. The shutdown can be requested between the first arm and the others. -/
def Sidechains.step (discoverNewSlots : Bool) (configured : List ℕ) (s : Sidechains) :
    SidechainsAction → Option Sidechains
  | .finish id joined =>
    match s.workers id with
    | some w =>
      if w.joined.isNone ∧ s.mayReturn w joined then
        some (s.setWorker id (some { w with joined := some joined }))
      else none
    | none => none
  | .requestShutdown => some { s with shutdown := true }
  | .closeShutdown => some { s with shutdownClosed := true }
  | .shutdown =>
    match s.at' with
    | .selecting => if s.shutdown ∨ s.shutdownClosed then some (s.return' (.ok ())) else none
    | _ => none
  | .join id => (s.joinable id).map fun p => (s.setWorker id none).handle p.1 p.2
  | .changed sidechainState =>
    match s.at', sidechainState with
    | .selecting, .ok () => some { s with at' := .reading }
    | .selecting, .error _ => some (s.return' (.error (.bail
        "durable sidechain-state observer stopped unexpectedly")))
    | _, _ => none
  | .retry instanceId =>
    match s.at' with
    | .selecting =>
      if instanceId ∈ s.deferred then
        some { s with deferred := s.deferred.filter (· ≠ instanceId), at' := .reading }
      else none
    | _ => none
  | .read activeInstances =>
    match s.at', activeInstances with
    | .reading, .ok instances => some (s.follow (bySlot (instances.filter fun inst =>
        discoverNewSlots ∨ inst.sidechain ∈ configured)))
    | .reading, .error error => some (s.return' (.error (error.context
        "reading the durable active sidechain snapshot")))
    | _, _ => none
  | .prepare target =>
    match s.at', target with
    | .preparing inst rest, .ok target => some { s.spawn inst with at' := .queueing ⟨inst, target⟩ rest }
    | .preparing inst rest, .error error =>
      if retryableRpcError error then some ((s.defer inst).add rest)
      else some (s.return' (.error error))
    | _, _ => none
  | .queue sent =>
    match s.at', sent with
    | .queueing _ rest, .ok () => some (s.add rest)
    | .queueing .., .error error => some (s.return' (.error (error.context
        "queueing a newly active sidechain backfill")))
    | _, _ => none

/-! ### What is asked of an exit -/

namespace Sidechains

/-- `monitor_sidechains` has not returned. -/
def running (s : Sidechains) : Prop := ∀ result, s.at' ≠ .returned result

/-- An instance has at most one worker that is live and has not been told to stop. -/
def OneWorker (s : Sidechains) : Prop :=
  ∀ id id' w w', s.workers id = some w → s.workers id' = some w' →
    w.joined = none → w'.joined = none → w.stop = false → w'.stop = false →
    w.inst = w'.inst → id = id'

/-- From `s` to `t`, the exit of a worker removes no entry but the worker's own; and if it has none,
the loop goes on and nothing happens to the other workers. -/
structure ItsOwn (s : Sidechains) (id : ℕ) (t : Sidechains) : Prop where
  entries : t.running → ∀ (slot : ℕ) m, s.managed[slot]? = some m → m.worker ≠ id →
    t.managed[slot]? = some m
  retired : ¬ s.manages id → t.running ∧ ∀ other, other ≠ id → t.workers other = s.workers other

/-- If the step handles the exit of a worker, that is all it does. -/
def OnlyItself (discoverNewSlots : Bool) (configured : List ℕ) (s : Sidechains) :
    SidechainsAction → Prop
  | .join id => ∀ t, s.step discoverNewSlots configured (.join id) = some t → s.ItsOwn id t
  | _ => True

/-- The exit, with its instance, is not one that stops what is managed. -/
def Harmless (s : Sidechains) (inst : SidechainInstanceRef) : Joined → Prop
  | .exit (.ok .shutdown) => s.shutdown = false → ¬ s.isManaged inst
  | .exit _ => ¬ s.isManaged inst
  | .joinError _ => False

instance (s : Sidechains) (inst : SidechainInstanceRef) : ∀ joined, Decidable (s.Harmless inst joined)
  | .exit (.ok .shutdown) => inferInstanceAs (Decidable (s.shutdown = false → ¬ s.isManaged inst))
  | .exit (.ok .stopped) | .exit (.error _) => inferInstanceAs (Decidable (¬ s.isManaged inst))
  | .joinError _ => isFalse id

/-- When the exit of a retired worker is handled, its instance is not managed again, unless the
exit is that of a shutdown that was asked for; and the worker did not panic. -/
def Matched (s : Sidechains) : SidechainsAction → Prop
  | .join id => ∀ p ∈ s.joinable id, ¬ s.manages id → s.Harmless p.1 p.2
  | _ => True

instance (s : Sidechains) : ∀ a, Decidable (s.Matched a)
  | .join id => inferInstanceAs (Decidable (∀ p ∈ s.joinable id, ¬ s.manages id → s.Harmless p.1 p.2))
  | .finish .. | .requestShutdown | .closeShutdown | .shutdown | .changed _ | .retry _ | .read _
  | .prepare _ | .queue _ => isTrue trivial

/-! ### The invariant -/

/-- Each entry is for a worker of its instance, and every worker that has not been told to stop has
an entry. -/
structure Inv (s : Sidechains) : Prop where
  slot : ∀ (slot : ℕ) m, s.managed[slot]? = some m → m.inst.sidechain = slot
  spawned : ∀ (slot : ℕ) m, s.managed[slot]? = some m → m.worker < s.spawned
  inst : ∀ (slot : ℕ) m w, s.managed[slot]? = some m → s.workers m.worker = some w → w.inst = m.inst
  told : ∀ id w, s.workers id = some w → w.stop = false →
    ∃ (slot : ℕ) (m : ManagedWorker), s.managed[slot]? = some m ∧ m.worker = id

variable {s t : Sidechains}

theorem manages_iff {id : ℕ} :
    s.manages id ↔ ∃ (slot : ℕ) (m : ManagedWorker), s.managed[slot]? = some m ∧ m.worker = id := by
  constructor
  · rintro ⟨⟨slot, m⟩, hm, hid⟩
    exact ⟨slot, m, Std.TreeMap.mem_toList_iff_getElem?_eq_some.mp hm, hid⟩
  · rintro ⟨slot, m, hm, hid⟩
    exact ⟨⟨slot, m⟩, Std.TreeMap.mem_toList_iff_getElem?_eq_some.mpr hm, hid⟩

theorem Inv.empty : Inv ⟨∅, fun _ => none, 0, [], .selecting, false, false⟩ where
  slot _ _ h := by simp at h
  spawned _ _ h := by simp at h
  inst _ _ _ h := by simp at h
  told _ _ h := by cases h

/-- Two workers that have not been told to stop have two entries. -/
theorem Inv.oneWorker (hs : s.Inv) : s.OneWorker := by
  intro id id' w w' hw hw' _ _ hstop hstop' hinst
  obtain ⟨slot, m, hm, rfl⟩ := hs.told id w hw hstop
  obtain ⟨slot', m', hm', rfl⟩ := hs.told id' w' hw' hstop'
  have hslot : slot = slot' := by
    rw [← hs.slot slot m hm, ← hs.slot slot' m' hm', ← hs.inst slot m w hm hw,
      ← hs.inst slot' m' w' hm' hw', hinst]
  subst hslot
  rw [Option.some.inj (hm.symm.trans hm')]

theorem setWorker_workers {id other : ℕ} {w : Option SidechainWorker} {w' : SidechainWorker}
    (h : (s.setWorker id w).workers other = some w') :
    (other = id ∧ w = some w') ∨ (other ≠ id ∧ s.workers other = some w') := by
  unfold setWorker at h
  by_cases hother : other = id
  · subst hother
    simp only [Function.update_self] at h
    exact .inl ⟨rfl, h⟩
  · simp only [Function.update_of_ne hother] at h
    exact .inr ⟨hother, h⟩

/-- Workers are joined, or return, or are aborted, and the map stays as it is. -/
theorem Inv.narrow (hs : s.Inv) (hmanaged : t.managed = s.managed) (hspawned : t.spawned = s.spawned)
    (hworkers : ∀ id w, t.workers id = some w →
      ∃ w', s.workers id = some w' ∧ w.inst = w'.inst ∧ w.stop = w'.stop) : t.Inv where
  slot := by
    rw [hmanaged]
    exact hs.slot
  spawned := by
    rw [hmanaged, hspawned]
    exact hs.spawned
  inst slot m w hm hw := by
    rw [hmanaged] at hm
    obtain ⟨w', hw', hinst, -⟩ := hworkers m.worker w hw
    exact hinst.trans (hs.inst slot m w' hm hw')
  told id w hw hstop := by
    obtain ⟨w', hw', -, hstop'⟩ := hworkers id w hw
    rw [hmanaged]
    exact hs.told id w' hw' (hstop' ▸ hstop)

/-- Nothing of the map or the workers changes. -/
theorem Inv.same (hs : s.Inv) (hmanaged : t.managed = s.managed) (hspawned : t.spawned = s.spawned)
    (hworkers : t.workers = s.workers) : t.Inv :=
  hs.narrow hmanaged hspawned fun _ w hw => ⟨w, hworkers ▸ hw, rfl, rfl⟩

theorem Inv.returns (hs : s.Inv) (result : Result Unit) : (s.return' result).Inv :=
  hs.narrow rfl rfl fun _ _ h => by cases h

theorem add_same (s : Sidechains) (additions : List SidechainInstanceRef) :
    (s.add additions).managed = s.managed ∧ (s.add additions).spawned = s.spawned ∧
      (s.add additions).workers = s.workers := by
  cases additions <;> exact ⟨rfl, rfl, rfl⟩

theorem Inv.add (hs : s.Inv) (additions : List SidechainInstanceRef) : (s.add additions).Inv :=
  hs.same (s.add_same additions).1 (s.add_same additions).2.1 (s.add_same additions).2.2

theorem Inv.defer (hs : s.Inv) (inst : SidechainInstanceRef) : (s.defer inst).Inv := by
  unfold Sidechains.defer
  split_ifs
  · exact hs
  · exact hs.same rfl rfl rfl

theorem managed_unmanage {gone : ℕ → ManagedWorker → Bool} {slot : ℕ} {m : ManagedWorker} :
    (s.unmanage gone).managed[slot]? = some m ↔ s.managed[slot]? = some m ∧ gone slot m = false := by
  simp [unmanage, Option.filter_eq_some_iff]

/-- A worker after some entries are gone: it is told to stop if its own is among them. -/
theorem unmanage_workers {gone : ℕ → ManagedWorker → Bool} {id : ℕ} {w : SidechainWorker}
    (h : (s.unmanage gone).workers id = some w) :
    ∃ w', s.workers id = some w' ∧ w.inst = w'.inst ∧ (w.stop = false → w'.stop = false ∧
      ∀ (slot : ℕ) m, s.managed[slot]? = some m → m.worker = id → gone slot m = false) := by
  obtain ⟨w', hw', rfl⟩ := Option.map_eq_some_iff.mp h
  refine ⟨w', hw', ?_, ?_⟩
  · split_ifs <;> rfl
  · split_ifs with hgone
    · intro hstop
      cases hstop
    · intro hstop
      refine ⟨hstop, fun slot m hm hid => ?_⟩
      by_contra hnot
      have hmem := Std.TreeMap.mem_toList_iff_getElem?_eq_some.mpr hm
      exact hgone ⟨⟨slot, m⟩, hmem, by simpa using hnot, hid⟩

/-- **Entries go, and their workers are told to stop.** -/
theorem Inv.unmanage (hs : s.Inv) (gone : ℕ → ManagedWorker → Bool) : (s.unmanage gone).Inv where
  slot slot m hm := hs.slot slot m (managed_unmanage.mp hm).1
  spawned slot m hm := hs.spawned slot m (managed_unmanage.mp hm).1
  inst slot m w hm hw := by
    obtain ⟨w', hw', hinst, -⟩ := unmanage_workers hw
    exact hinst.trans (hs.inst slot m w' (managed_unmanage.mp hm).1 hw')
  told id w hw hstop := by
    obtain ⟨w', hw', -, htold⟩ := unmanage_workers hw
    obtain ⟨hstop', hstays⟩ := htold hstop
    obtain ⟨slot, m, hm, hid⟩ := hs.told id w' hw' hstop'
    exact ⟨slot, m, managed_unmanage.mpr ⟨hm, hstays slot m hm hid⟩, hid⟩

/-- The entries after a worker has been spawned. -/
theorem managed_spawn {inst : SidechainInstanceRef} {slot : ℕ} {m : ManagedWorker} :
    (s.spawn inst).managed[slot]? = some m ↔
      (slot = inst.sidechain ∧ m = ⟨inst, s.spawned⟩) ∨
        (slot ≠ inst.sidechain ∧ s.managed[slot]? = some m) := by
  have hinsert : (s.spawn inst).managed[slot]? = if inst.sidechain = slot then
      some ⟨inst, s.spawned⟩ else (s.unmanage fun slot _ => slot = inst.sidechain).managed[slot]? := by
    simp [spawn, Std.TreeMap.getElem?_insert, setWorker]
    rfl
  rw [hinsert]
  split_ifs with hslot
  · simp [hslot, eq_comm]
  · rw [managed_unmanage]
    simp [Ne.symm hslot]

/-- **A worker is spawned with its entry**, and the one that the slot had is told to stop. -/
theorem Inv.spawn (hs : s.Inv) (inst : SidechainInstanceRef) : (s.spawn inst).Inv := by
  have hu := hs.unmanage fun slot _ => slot = inst.sidechain
  refine ⟨fun slot m hm => ?_, fun slot m hm => ?_, fun slot m w hm hw => ?_, fun id w hw hstop => ?_⟩
  · rcases managed_spawn.mp hm with ⟨rfl, rfl⟩ | ⟨-, hm⟩
    · rfl
    · exact hs.slot slot m hm
  · rcases managed_spawn.mp hm with ⟨rfl, rfl⟩ | ⟨-, hm⟩
    · exact Nat.lt_succ_self _
    · exact Nat.lt_succ_of_lt (hs.spawned slot m hm)
  · rcases managed_spawn.mp hm with ⟨rfl, rfl⟩ | ⟨hslot, hm⟩
    · rcases setWorker_workers hw with ⟨-, hw⟩ | ⟨hid, -⟩
      · cases hw
        rfl
      · exact absurd rfl hid
    · rcases setWorker_workers hw with ⟨hid, -⟩ | ⟨-, hw⟩
      · exact absurd hid (Nat.ne_of_lt (hs.spawned slot m hm))
      · exact hu.inst slot m w (managed_unmanage.mpr ⟨hm, decide_eq_false hslot⟩) hw
  · rcases setWorker_workers hw with ⟨hid, -⟩ | ⟨-, hw⟩
    · exact ⟨inst.sidechain, ⟨inst, s.spawned⟩, managed_spawn.mpr (.inl ⟨rfl, rfl⟩), hid.symm⟩
    · obtain ⟨slot, m, hm, hid⟩ := hu.told id w hw hstop
      obtain ⟨hm, hslot⟩ := managed_unmanage.mp hm
      exact ⟨slot, m, managed_spawn.mpr (.inr ⟨of_decide_eq_false hslot, hm⟩), hid⟩

theorem Inv.handle (hs : s.Inv) (inst : SidechainInstanceRef) (joined : Joined) :
    (s.handle inst joined).Inv := by
  cases joined with
  | joinError error => exact hs.returns _
  | exit result =>
    match result with
    | .ok .stopped =>
      have hreading : Inv { s with at' := .reading } := hs.same rfl rfl rfl
      simp only [Sidechains.handle]
      split_ifs
      · exact hreading.unmanage _
      · exact hreading
    | .ok .shutdown =>
      simp only [Sidechains.handle]
      split_ifs
      · exact hs
      · exact hs.returns _
      · exact hs
    | .error error =>
      simp only [Sidechains.handle]
      split_ifs
      · exact hs.returns _
      · exact hs

/-- A worker is joined. -/
theorem Inv.joins (hs : s.Inv) (id : ℕ) : (s.setWorker id none).Inv := by
  refine hs.narrow rfl rfl fun other w hw => ?_
  rcases setWorker_workers hw with ⟨-, hw⟩ | ⟨-, hw⟩
  · cases hw
  · exact ⟨w, hw, rfl, rfl⟩

/-- **One step keeps the workers and the map together.** -/
theorem step_inv {discoverNewSlots : Bool} {configured : List ℕ} {a : SidechainsAction}
    (hs : s.Inv) (h : s.step discoverNewSlots configured a = some t) : t.Inv := by
  cases a with
  | finish id joined =>
    simp only [step] at h
    split at h
    · next w hw =>
      split_ifs at h
      cases h
      refine hs.narrow rfl rfl fun other w' hw' => ?_
      rcases setWorker_workers hw' with ⟨rfl, hjoined⟩ | ⟨-, hw'⟩
      · obtain rfl := Option.some.inj hjoined
        exact ⟨w, hw, rfl, rfl⟩
      · exact ⟨w', hw', rfl, rfl⟩
    · cases h
  | requestShutdown =>
    cases h
    exact hs.same rfl rfl rfl
  | closeShutdown =>
    cases h
    exact hs.same rfl rfl rfl
  | shutdown =>
    simp only [step] at h
    split at h
    · split_ifs at h
      cases h
      exact hs.returns _
    · cases h
  | join id =>
    obtain ⟨p, -, rfl⟩ := Option.map_eq_some_iff.mp h
    exact (hs.joins id).handle _ _
  | changed sidechainState =>
    simp only [step] at h
    split at h
    · cases h
      exact hs.same rfl rfl rfl
    · cases h
      exact hs.returns _
    · cases h
  | retry instanceId =>
    simp only [step] at h
    split at h
    · split_ifs at h
      cases h
      exact hs.same rfl rfl rfl
    · cases h
  | read activeInstances =>
    simp only [step] at h
    split at h
    · cases h
      exact (hs.unmanage _).add _
    · cases h
      exact hs.returns _
    · cases h
  | prepare target =>
    simp only [step] at h
    split at h
    · cases h
      exact (hs.spawn _).same rfl rfl rfl
    · split_ifs at h
      · cases h
        exact (hs.defer _).add _
      · cases h
        exact hs.returns _
    · cases h
  | queue sent =>
    simp only [step] at h
    split at h
    · cases h
      exact hs.add _
    · cases h
      exact hs.returns _
    · cases h

/-- Every worker of the initial streams has its entry. -/
theorem Inv.start {streams : List ℕ} {initialInstances : List SidechainInstanceRef}
    (h : monitorSidechains streams initialInstances = .ok s) : s.Inv := by
  have hloop : ∀ (streams : List ℕ) (s t : Sidechains), s.Inv →
      streams.foldlM (spawnInitial initialInstances) s = .ok t → t.Inv := by
    intro streams
    induction streams with
    | nil =>
      intro s t hs h
      cases h
      exact hs
    | cons sidechain streams ih =>
      intro s t hs h
      rw [List.foldlM_cons] at h
      obtain ⟨u, hu, h⟩ := Result.bind_eq_ok.mp h
      unfold spawnInitial at hu
      split at hu
      · cases hu
        exact ih _ t (hs.spawn _) h
      · cases hu
  exact hloop streams _ s .empty h

/-! ### Whose exit it is -/

theorem joinable_eq_some {id : ℕ} {inst : SidechainInstanceRef} {joined : Joined}
    (h : s.joinable id = some (inst, joined)) :
    s.running ∧ ∃ w, s.workers id = some w ∧ w.inst = inst := by
  unfold joinable at h
  split at h
  · next w hat hw =>
    obtain ⟨_, -, hp⟩ := Option.map_eq_some_iff.mp h
    cases hp
    exact ⟨fun _ hreturned => (by rw [hat] at hreturned; cases hreturned), w, hw, rfl⟩
  · cases h

/-- Nothing but the worker's own place changes. -/
theorem itsOwn_setWorker (id : ℕ) (hrunning : s.running) : s.ItsOwn id (s.setWorker id none) where
  entries _ _ _ hm _ := hm
  retired _ := ⟨hrunning, fun _ hother => Function.update_of_ne hother ..⟩

/-- The loop returns, which is not to be on a retired worker's account. -/
theorem itsOwn_return (id : ℕ) (result : Result Unit) :
    s.ItsOwn id ((s.setWorker id none).return' result) ↔ s.manages id := by
  constructor
  · intro h
    by_contra hretired
    exact (h.retired hretired).1 result rfl
  · intro hmanages
    exact ⟨fun hrunning => absurd rfl (hrunning result), fun h => absurd hmanages h⟩

/-- The slot's entry goes, which is not to be another worker's. -/
theorem itsOwn_unmanage {id : ℕ} {inst : SidechainInstanceRef} (hs : s.Inv)
    (hinst : ∃ w, s.workers id = some w ∧ w.inst = inst) (hmanaged : s.isManaged inst) :
    s.ItsOwn id (unmanage { s.setWorker id none with at' := .reading }
      fun slot _ => slot = inst.sidechain) ↔ s.manages id := by
  obtain ⟨m, hm, rfl⟩ := hmanaged
  constructor
  · intro h
    by_contra hretired
    have hstays := (h.retired hretired).1
    have hgone := h.entries hstays _ m hm fun hid => hretired (manages_iff.mpr ⟨_, m, hm, hid⟩)
    exact absurd (managed_unmanage.mp hgone).2 (by simp)
  · intro hmanages
    obtain ⟨slot', m', hm', rfl⟩ := manages_iff.mp hmanages
    refine ⟨fun _ slot other hother hne => managed_unmanage.mpr ⟨hother, ?_⟩,
      fun h => absurd hmanages h⟩
    obtain ⟨w, hw, hinst⟩ := hinst
    have hsame : m'.inst = m.inst := (hs.inst slot' m' w hm' hw).symm.trans hinst
    refine decide_eq_false fun hslot => hne ?_
    have hslot' : slot = slot' := by rw [hslot, ← hsame, hs.slot slot' m' hm']
    rw [hslot'] at hother
    rw [Option.some.inj (hother.symm.trans hm')]

/-- **What an exit does is its own exactly if it is harmless or not that of a retired worker.** -/
theorem handle_itsOwn {id : ℕ} {inst : SidechainInstanceRef} {joined : Joined} (hs : s.Inv)
    (h : s.joinable id = some (inst, joined)) :
    s.ItsOwn id ((s.setWorker id none).handle inst joined) ↔
      (¬ s.manages id → s.Harmless inst joined) := by
  obtain ⟨hrunning, hinst⟩ := joinable_eq_some h
  have hsame := itsOwn_setWorker id hrunning
  have hmanaged : (s.setWorker id none).isManaged inst ↔ s.isManaged inst := Iff.rfl
  cases joined with
  | joinError error =>
    exact (itsOwn_return id _).trans not_not.symm
  | exit result =>
    match result with
    | .ok .stopped =>
      by_cases hm : s.isManaged inst
      · have hthen : (s.setWorker id none).handle inst (.exit (.ok .stopped)) =
            unmanage { s.setWorker id none with at' := .reading }
              fun slot _ => slot = inst.sidechain := if_pos hm
        rw [hthen, itsOwn_unmanage hs hinst hm]
        exact ⟨fun h hnot => absurd h hnot, fun h => by_contra fun hnot => h hnot hm⟩
      · have helse : (s.setWorker id none).handle inst (.exit (.ok .stopped)) =
            { s.setWorker id none with at' := .reading } := if_neg hm
        rw [helse]
        refine ⟨fun _ _ => hm, fun _ => ⟨fun _ => hsame.entries hrunning, fun hretired => ?_⟩⟩
        exact ⟨fun _ h => (by cases h), (hsame.retired hretired).2⟩
    | .ok .shutdown =>
      simp only [handle, Harmless]
      split_ifs with hshutdown hm
      · exact ⟨fun _ _ hnot => absurd (hnot.symm.trans hshutdown) (by decide), fun _ => hsame⟩
      · rw [itsOwn_return]
        refine ⟨fun h hnot => absurd h hnot, fun h => by_contra fun hnot => ?_⟩
        exact h hnot (Bool.eq_false_iff.mpr hshutdown) hm
      · exact ⟨fun _ _ _ => hm, fun _ => hsame⟩
    | .error error =>
      simp only [handle, Harmless]
      split_ifs with hm
      · rw [itsOwn_return]
        exact ⟨fun h hnot => absurd h hnot, fun h => by_contra fun hnot => h hnot hm⟩
      · exact ⟨fun _ _ => hm, fun _ => hsame⟩

theorem onlyItself_iff {discoverNewSlots : Bool} {configured : List ℕ} {a : SidechainsAction}
    (hs : s.Inv) : s.OnlyItself discoverNewSlots configured a ↔ s.Matched a := by
  cases a with
  | join id =>
    constructor
    · rintro h ⟨inst, joined⟩ hp
      exact (handle_itsOwn hs hp).mp (h _ (Option.map_eq_some_iff.mpr ⟨_, hp, rfl⟩))
    · intro h t ht
      obtain ⟨⟨inst, joined⟩, hp, rfl⟩ := Option.map_eq_some_iff.mp ht
      exact (handle_itsOwn hs hp).mpr (h _ hp)
  | _ => exact Iff.rfl

/-- Along a run, exits do nothing but their own exactly if none is taken for another's. -/
theorem along_onlyItself_iff {discoverNewSlots : Bool} {configured : List ℕ}
    {as : List SidechainsAction} (hs : s.Inv) :
    Along (step discoverNewSlots configured) (OnlyItself discoverNewSlots configured) s as ↔
      Along (step discoverNewSlots configured) Matched s as := by
  have hstep : ∀ s a t, Inv s → s.step discoverNewSlots configured a = some t → t.Inv :=
    fun _ _ _ hs h => step_inv hs h
  constructor
  · exact fun h => h.mono_of_invariant hstep (fun _ _ hs => (onlyItself_iff hs).mp) hs
  · exact fun h => h.mono_of_invariant hstep (fun _ _ hs => (onlyItself_iff hs).mpr) hs

end Sidechains

/-- **A worker's exit only unmanages itself.** In every state of every run an instance has at most
one worker that is live and not told to stop; and every exit that the run handles does nothing but
what is the worker's own, if and only if no exit of a retired worker is handled while its instance
is managed again. -/
theorem exits_unmanage_themselves (discoverNewSlots : Bool) (configured streams : List ℕ)
    (initialInstances : List SidechainInstanceRef) (s₀ s : Sidechains)
    (hstart : Sidechains.monitorSidechains streams initialInstances = .ok s₀)
    (as : List SidechainsAction)
    (h : run (Sidechains.step discoverNewSlots configured) s₀ as = some s) :
    s.OneWorker ∧
      (Along (Sidechains.step discoverNewSlots configured)
          (Sidechains.OnlyItself discoverNewSlots configured) s₀ as ↔
        Along (Sidechains.step discoverNewSlots configured) Sidechains.Matched s₀ as) := by
  have hs₀ := Sidechains.Inv.start hstart
  have hs : s.Inv := run_invariant (fun _ _ _ hs h => Sidechains.step_inv hs h) hs₀ h
  exact ⟨hs.oneWorker, Sidechains.along_onlyItself_iff hs₀⟩

/-! ### An instance that returns -/

namespace ReturningInstance

/-- The instance of slot nine. -/
def inst : SidechainInstanceRef := ⟨9, "a", 1⟩

/-- The slot's first worker. -/
def start : Result Sidechains := Sidechains.monitorSidechains [9] [inst]

/-- The instance is out of the current set, and its worker retired. -/
def leaves : List SidechainsAction := [.changed (.ok ()), .read (.ok [])]

/-- The instance is current again, and a second worker is spawned for it. -/
def returns : List SidechainsAction :=
  [.changed (.ok ()), .read (.ok [inst]), .prepare (.ok (.atHeight [1] 1)), .queue (.ok ())]

/-- The first worker's exit. -/
def exits : List SidechainsAction := [.finish 0 (.exit (.ok .stopped)), .join 0]

end ReturningInstance

open ReturningInstance in
/-- The first worker has left before the instance returns. -/
theorem exits_unmanage_themselves_joined :
    ∃ s₀ s, start = .ok s₀ ∧
      run (Sidechains.step true []) s₀ (leaves ++ exits ++ [.read (.ok [])] ++ returns) = some s ∧
      s.managed.toList = [(9, ⟨inst, 1⟩)] ∧ s.OneWorker ∧
      Along (Sidechains.step true []) (Sidechains.OnlyItself true []) s₀
        (leaves ++ exits ++ [.read (.ok [])] ++ returns) := by
  obtain ⟨s₀, hstart⟩ : ∃ s₀, start = .ok s₀ := ⟨_, rfl⟩
  have hrun : ((run (Sidechains.step true []) s₀ (leaves ++ exits ++ [.read (.ok [])] ++ returns)).filter
      fun s => s.managed.toList = [(9, ⟨inst, 1⟩)]).isSome := by
    cases hstart
    decide +kernel
  have hmatched : Along (Sidechains.step true []) Sidechains.Matched s₀
      (leaves ++ exits ++ [.read (.ok [])] ++ returns) := by
    cases hstart
    decide +kernel
  obtain ⟨s, hs⟩ := Option.isSome_iff_exists.mp hrun
  obtain ⟨hs, hmanaged⟩ := Option.filter_eq_some_iff.mp hs
  obtain ⟨hone, hiff⟩ := exits_unmanage_themselves true [] [9] [inst] s₀ s hstart _ hs
  exact ⟨s₀, s, hstart, hs, of_decide_eq_true hmanaged, hone, hiff.mpr hmatched⟩

open ReturningInstance in
/-- **The second worker loses its entry to the exit of the first.** -/
theorem not_exits_unmanage_themselves_return :
    ¬ ∀ (discoverNewSlots : Bool) (configured streams : List ℕ)
      (initialInstances : List SidechainInstanceRef) (s₀ s : Sidechains),
      Sidechains.monitorSidechains streams initialInstances = .ok s₀ →
      ∀ as, run (Sidechains.step discoverNewSlots configured) s₀ as = some s →
        s.OneWorker ∧ Along (Sidechains.step discoverNewSlots configured)
          (Sidechains.OnlyItself discoverNewSlots configured) s₀ as := by
  intro h
  obtain ⟨s₀, hstart⟩ : ∃ s₀, start = .ok s₀ := ⟨_, rfl⟩
  have hrun : (run (Sidechains.step true []) s₀ (leaves ++ returns ++ exits)).isSome := by
    cases hstart
    decide +kernel
  have hnot : ¬ Along (Sidechains.step true []) Sidechains.Matched s₀ (leaves ++ returns ++ exits) := by
    cases hstart
    decide +kernel
  obtain ⟨s, hs⟩ := Option.isSome_iff_exists.mp hrun
  have honly := (h true [] [9] [inst] s₀ s hstart _ hs).2
  exact hnot ((Sidechains.along_onlyItself_iff (Sidechains.Inv.start hstart)).mp honly)

end Bip300Monitor
