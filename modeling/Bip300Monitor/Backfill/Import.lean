import Bip300Monitor.Backfill.Engine
import Bip300Monitor.Store.Elsewhere

/-!
# An import among the rest of the monitor

One history scope, driven by calls of `run_history`. At most one call runs at a time: the
sidechains' imports are run one after the other, the node's import is one worker, and one
process of a source is assumed to run at a time. Around it, and between any two of its
operations, everything else goes on writing the record, and the process can be killed.

An operation on the record can also fail because the connection does, before or after
its transaction took effect.
-/

namespace Bip300Monitor

open Protobuf Transaction Runs Resumption

namespace Backfill

/-- One scope, and what is fixed about it. -/
structure Import (P : Type) where
  stream : HistoryStream P
  source : Source
  datasetId : Uuid
  eventContractVersion : ℕ
  /-- The start height of every scope. -/
  startOf : ScopeKey → ℕ
  start_eq : startOf ⟨datasetId, eventContractVersion, source, stream.scope.stream,
    stream.scope.sidechain, stream.scope.sidechainInstanceId⟩ = stream.activationHeight

variable {P : Type}

namespace Import

variable (imp : Import P)

/-- The handle of a run. -/
def store (run : Uuid) : Store := ⟨imp.source, imp.datasetId, run, imp.eventContractVersion⟩

/-- The key of the scope. -/
def key : ScopeKey :=
  ⟨imp.datasetId, imp.eventContractVersion, imp.source, imp.stream.scope.stream,
    imp.stream.scope.sidechain, imp.stream.scope.sidechainInstanceId⟩

@[simp] theorem store_key (run : Uuid) : (imp.store run).key imp.stream.scope = imp.key := rfl

theorem startOf_key : imp.startOf imp.key = imp.stream.activationHeight := imp.start_eq

/-- The row of the scope. -/
def row (db : Db) : Option CoverageRow := db.coverage imp.key

end Import

/-! ### Operations -/

/-- What the world does when an operation is performed. -/
structure Environment (P : Type) where
  shutdown : Bool
  fetched : Result (List P)
  tip : Result ObservedBlock
  now : Result ℕ
  /-- The connection to the record fails, after the transaction took effect or before. -/
  fault : Option (Bool × Failure)

/-- What the caller sees of a transaction on a connection that may fail. -/
def Environment.deliver {α : Type} (env : Environment P) (db : Db) (out : Result α × Db) :
    Result α × Db :=
  match env.fault with
  | none => out
  | some (applied, e) => (.error e, if applied then out.2 else db)

/-- A delivered success is one. -/
theorem Environment.deliver_eq_ok {α : Type} {env : Environment P} {db db' : Db}
    {out : Result α × Db} {a : α} (h : env.deliver db out = (.ok a, db')) : out = (.ok a, db') := by
  unfold deliver at h
  split at h
  · exact h
  · cases h

/-- A connection that fails leaves the record as it was or as the transaction left it. -/
theorem deliver_rel {α : Type} {R : Db → Db → Prop} [Std.Refl R] (env : Environment P) {db : Db}
    {out : Result α × Db} (h : R db out.2) : R db (env.deliver db out).2 := by
  unfold Environment.deliver
  split
  · exact h
  · split_ifs
    · exact h
    · exact Std.Refl.refl db

/-- A transaction takes effect, whether or not the caller is told. -/
def Environment.takesEffect (env : Environment P) : Bool := env.fault.elim true (·.1)

theorem deliver_snd {α : Type} (env : Environment P) (db : Db) (out : Result α × Db) :
    (env.deliver db out).2 = if env.takesEffect then out.2 else db := by
  unfold Environment.deliver Environment.takesEffect
  cases env.fault with
  | none => rfl
  | some fault => rfl

section
variable [Digests] (imp : Import P)

/-- One operation of the engine. -/
def Import.perform (run : Uuid) (env : Environment P) (db : Db) : (e : Op P) → e.Resp × Db
  | .shutdownRequested | .pagePause => (env.shutdown, db)
  | .fetch .. => (env.fetched, db)
  | .currentTip => (env.tip, db)
  | .now => (env.now, db)
  | .currentSidechainInstanceId slot =>
    env.deliver db (.ok (db.currentInstance imp.datasetId slot), db)
  | .supersedeHistory slot id reason => env.deliver db
    (Tx.commit (supersedeHistory (imp.store run) imp.stream.scope.stream slot id reason) db)
  | .historyCoverage => env.deliver db
    (Tx.commit (historyCoverage (imp.store run) imp.stream.scope) db)
  | .beginHistoryCycle start coveredTip targetTip floorHash floorHeight pageBlocks =>
    env.deliver db (Tx.commit (beginHistoryCycle (imp.store run) imp.stream.scope start coveredTip
      targetTip floorHash floorHeight pageBlocks) db)
  | .resumeHistory => env.deliver db
    (Tx.commit (resumeHistory (imp.store run) imp.stream.scope) db)
  | .resizeHistoryPage pageBlocks error => env.deliver db
    (Tx.commit (resizeHistoryPage (imp.store run) imp.stream.scope pageBlocks error) db)
  | .settleHistoryFailure error => env.deliver db
    (Tx.commit (settleHistoryFailure (imp.store run) imp.stream.scope error) db)
  | .certifiedHistoryFloor hashes => env.deliver db
    (Tx.commit (certifiedHistoryFloor (imp.store run) imp.stream.scope hashes) db)
  | .setHistoryFloor cursor floorHash floorHeight => env.deliver db
    (Tx.commit (setHistoryFloor (imp.store run) imp.stream.scope cursor floorHash floorHeight) db)
  | .recordHistoryPage events expectedNext next => env.deliver db
    (recordHistoryPage (imp.store run) events ⟨imp.stream.scope, expectedNext, next⟩ db)

/-! ### The system -/

/-- A call in progress: the run it writes for, its settings, and what is left of it. -/
structure Call (P : Type) where
  run : Uuid
  settings : Settings
  proc : Proc (Op P) Op.Resp Failure Locals Outcome

/-- The record, and the call in progress. -/
structure State (P : Type) where
  record : Record
  call : Option (Call P)

/-- Nothing recorded, nothing running. -/
def State.empty : State P := ⟨.empty, none⟩

inductive Action (P : Type) where
  /-- The rest of the monitor writes the record. -/
  | world (command : Command)
  /-- `run_history` is called. -/
  | call (run : Uuid) (tip : ObservedBlock) (settings : Settings)
  /-- The call performs its next operation, goes round its loop, or returns. -/
  | advance (env : Environment P)
  /-- The process is killed. -/
  | crash

/-- The operation a state's call is about to perform. -/
def State.next? (s : State P) : Option (Op P) := s.call.bind fun c => c.proc.next?

/-- Go on with a call. -/
def Import.advance (env : Environment P) (r : Record) (c : Call P) : State P :=
  match c.proc with
  | .ret (.ok (.inl l)) => ⟨r, some { c with proc := iterate imp.stream c.settings l }⟩
  | .ret _ => ⟨r, none⟩
  | .op e k =>
    let out := imp.perform c.run env r.db e
    ⟨{ r with db := out.2 }, some { c with proc := k out.1 }⟩

/-- One step. -/
def Import.step (s : State P) : Action P → Option (State P)
  | .world command =>
    if command.coverageKey = some imp.key then none
    else (s.record.step imp.startOf command).map fun r => { s with record := r }
  | .call run tip settings =>
    if s.call.isSome then none
    else some { s with call := some ⟨run, settings, runHistory imp.stream tip settings⟩ }
  | .advance env => s.call.map fun c => imp.advance env s.record c
  | .crash => some { s with call := none }

/-- What one step does. -/
inductive Import.Stepped (imp : Import P) (s : State P) : Action P → State P → Prop
  | world (command : Command) (helsewhere : command.coverageKey ≠ some imp.key)
      (hread : command.coveredTips ⊆ s.record.readings) :
      imp.Stepped s (.world command) { s with
        record := ⟨s.record.db.exec imp.startOf command, s.record.readings ++ command.reads s.record.db⟩ }
  | call (run : Uuid) (tip : ObservedBlock) (settings : Settings) :
      imp.Stepped s (.call run tip settings) { s with
        call := some ⟨run, settings, runHistory imp.stream tip settings⟩ }
  /-- The call performs its next operation. -/
  | op (env : Environment P) {run : Uuid} {settings : Settings} {e : Op P}
      {k : e.Resp → Proc (Op P) Op.Resp Failure Locals Outcome}
      (hcall : s.call = some ⟨run, settings, .op e k⟩) :
      imp.Stepped s (.advance env)
        ⟨{ s.record with db := (imp.perform run env s.record.db e).2 },
          some ⟨run, settings, k (imp.perform run env s.record.db e).1⟩⟩
  /-- It goes round its loop. -/
  | round (env : Environment P) {run : Uuid} {settings : Settings} {l : Locals}
      (hcall : s.call = some ⟨run, settings, .ret (.ok (.inl l))⟩) :
      imp.Stepped s (.advance env) { s with
        call := some ⟨run, settings, iterate imp.stream settings l⟩ }
  /-- It returns or fails. -/
  | leave (env : Environment P) {c : Call P} {r : Result (Locals ⊕ Outcome)} (hcall : s.call = some c)
      (hproc : c.proc = .ret r) (hleft : ∀ l, r ≠ .ok (.inl l)) :
      imp.Stepped s (.advance env) { s with call := none }
  | crash : imp.Stepped s .crash { s with call := none }

variable {imp} {s t : State P} {a : Action P}

/-- **The cases of a step.** -/
theorem Import.step_cases (h : imp.step s a = some t) : imp.Stepped s a t := by
  cases a with
  | world command =>
    simp only [Import.step] at h
    split_ifs at h with hkey
    obtain ⟨r, hr, rfl⟩ := Option.map_eq_some_iff.mp h
    unfold Record.step at hr
    split_ifs at hr with hread
    cases hr
    exact .world command hkey hread
  | call run tip settings =>
    simp only [Import.step] at h
    split_ifs at h
    cases h
    exact .call run tip settings
  | crash =>
    cases h
    exact .crash
  | advance env =>
    obtain ⟨⟨run, settings, proc⟩, hcall, rfl⟩ := Option.map_eq_some_iff.mp h
    cases proc with
    | op e k => exact .op env hcall
    | ret r =>
      rcases r with e | l | o
      · exact .leave env hcall rfl fun _ hl => (by cases hl)
      · exact .round env hcall
      · exact .leave env hcall rfl fun _ hl => (by cases hl)

end

end Backfill

end Bip300Monitor
