import Bip300Monitor.Store.Fencing
import Bip300Monitor.Store.Additions
import Bip300Monitor.Store.WorkerHealth
import Mathlib.Data.List.Range
import Mathlib.Logic.Function.Basic

/-!
# Connecting to the record

`connect_with_manifest` (`shared/src/store.rs`) brings the schema of the record up to date, and binds the
process to one dataset and to a run of its own. Several processes may start at once, each with a session of
its own, and each of them may fail anywhere on the way.

## The model

The schema is what has been executed of the migrations, the rows of `schema_version` and, from the fourth
version on, the rows of `dataset_manifest`. A session holds the advisory lock until it gives it back or ends.
The statements of a version and its row commit together, so that before the commit there is nothing of them.

## What is proved

* `Connections.step_inv` — the schema is a prefix of the migrations, whoever holds the lock;
* `migrated_once` — so each of them is executed once and in order, and nobody writes a record half migrated;
* `contracts_apart` — a dataset is that of one network and start, and has facts of one contract.
-/

namespace Bip300Monitor

open Protobuf Transaction Runs

/-! ### The schema -/

/-- How many `MIGRATIONS` there are. -/
def migrations : ℕ := 10

/-- `DatasetManifest`: what identifies the dataset, and what is checked. -/
structure DatasetManifest where
  networkId : String
  activationHeight : ℕ
  activationBlockHash : String
  eventContractVersion : ℕ
  creationReason : String
  deriving DecidableEq, Repr

/-- `dataset_manifest`. -/
structure DatasetRow where
  datasetId : Uuid
  networkId : String
  activationHeight : ℕ
  activationBlockHash : String
  initialEventContractVersion : ℕ
  deriving DecidableEq, Repr

/-- `dataset_identity`: the row is that of the manifest. -/
def DatasetManifest.identifies (manifest : DatasetManifest) (row : DatasetRow) : Prop :=
  row.networkId = manifest.networkId ∧ row.activationHeight = manifest.activationHeight ∧
    row.activationBlockHash = manifest.activationBlockHash

instance (manifest : DatasetManifest) (row : DatasetRow) : Decidable (manifest.identifies row) :=
  inferInstanceAs (Decidable (_ ∧ _ ∧ _))

/-- The row that the fourth version inserts. -/
def DatasetRow.legacy : DatasetRow := ⟨1, "legacy-unknown", 0, "unknown", 1⟩

/-- The schema of the record. -/
structure Schema where
  /-- What has been executed, in order. -/
  executed : List ℕ
  /-- The rows of `schema_version`. -/
  versions : List ℕ
  /-- The rows of `dataset_manifest`, if there is that table. -/
  manifest : Option (List DatasetRow)

/-- The rows of `dataset_manifest`. -/
def Schema.rows (schema : Schema) : List DatasetRow := schema.manifest.getD []

/-- A version's statements and its row are committed. -/
def Schema.apply (schema : Schema) (version : ℕ) : Schema where
  executed := schema.executed ++ [version]
  -- `ON CONFLICT (version) DO NOTHING`
  versions := if version ∈ schema.versions then schema.versions else schema.versions ++ [version]
  manifest :=
    if version = 4 then
      -- `CREATE TABLE IF NOT EXISTS`, and `ON CONFLICT (dataset_id) DO NOTHING`
      if ∃ row ∈ schema.rows, row.datasetId = DatasetRow.legacy.datasetId then some schema.rows
      else some (schema.rows ++ [.legacy])
    else schema.manifest

/-! ### The dataset -/

/-- The contract version as the column has it. -/
def versionToI32 (version : ℕ) : Result ℕ :=
  (narrow maxHeight version).context "event contract version does not fit in an i32"

/-- The check before the migrations. -/
def checkContract (manifest : DatasetManifest) (schema : Schema) : Result Unit :=
  if 8 ≤ manifest.eventContractVersion then do
    let version ← versionToI32 manifest.eventContractVersion
    match schema.manifest with
    | none => pure ()
    | some rows => do
      let _ ← heightToI32 manifest.activationHeight
      if ∃ row ∈ rows, manifest.identifies row ∧ row.initialEventContractVersion ≠ version then
        .error (.bail ("event contract v" ++ toString version ++ " requires a fresh v" ++
          toString version ++ " dataset; no migrations were applied"))
      else pure ()
  else pure ()

/-- `INSERT INTO dataset_manifest … ON CONFLICT ON CONSTRAINT dataset_identity`, with the constraints of the
table; a fresh identity is used if there is no row. -/
def resolveDataset (manifest : DatasetManifest) (fresh : Uuid) (rows : List DatasetRow) :
    Result (DatasetRow × List DatasetRow) :=
  if manifest.networkId = "" ∨ manifest.eventContractVersion = 0 ∨ manifest.creationReason = "" then
    .error (.bail "resolving the record dataset identity: a check is violated")
  else
    match rows.find? fun row => manifest.identifies row with
    | some row => .ok (row, rows)
    | none =>
      if ∃ row ∈ rows, row.datasetId = fresh then
        .error (.bail "resolving the record dataset identity: duplicate dataset id")
      else
        let row : DatasetRow := ⟨fresh, manifest.networkId, manifest.activationHeight,
          manifest.activationBlockHash, manifest.eventContractVersion⟩
        .ok (row, rows ++ [row])

/-- The dataset of a manifest, as `initialize_identity` resolves it. -/
def initializeDataset (manifest : DatasetManifest) (fresh : Uuid) (rows : List DatasetRow) :
    Result (DatasetRow × List DatasetRow) := do
  let _ ← heightToI32 manifest.activationHeight
  let version ← versionToI32 manifest.eventContractVersion
  let dataset ← resolveDataset manifest fresh rows
  if 8 ≤ manifest.eventContractVersion ∧ dataset.1.initialEventContractVersion ≠ version then
    .error (.bail ("event contract v" ++ toString version ++ " requires a fresh v" ++ toString version ++
      " dataset; create a recoverable record backup and start an empty dataset"))
  else pure dataset

/-! ### Sessions -/

/-- How far a session has got. -/
inductive Phase where
  /-- It is connected, and has passed the check. -/
  | connected
  /-- It has the lock, and this version is the next to be looked up. -/
  | applying (version : ℕ)
  /-- It has opened a transaction for this version. -/
  | opened (version : ℕ)
  /-- `migrate` has returned. -/
  | migrated
  /-- `connect_with_manifest` has returned. -/
  | running (store : Store)
  deriving DecidableEq, Repr

/-- In `apply_migrations`. -/
def Phase.migrating : Phase → Prop
  | .applying _ | .opened _ => True
  | _ => False

/-- After `migrate`. -/
def Phase.past : Phase → Prop
  | .migrated | .running _ => True
  | _ => False

/-- A session, and what it has been started with. -/
structure Session where
  source : Source
  manifest : DatasetManifest
  phase : Phase
  deriving DecidableEq, Repr

/-- The database, and the sessions on it. -/
structure Connections where
  schema : Schema
  /-- Who holds the advisory lock of `MIGRATION_LOCK_KEY`. -/
  lock : Option ℕ
  record : Record
  sessions : ℕ → Option Session

/-- What happens next. -/
inductive ConnectAction where
  /-- A process connects, and checks its contract. -/
  | connect (i : ℕ) (source : Source) (manifest : DatasetManifest)
  /-- `pg_advisory_lock` returns. -/
  | lock (i : ℕ)
  /-- A version is looked up. -/
  | lookUp (i : ℕ)
  /-- A version's transaction commits. -/
  | commit (i : ℕ)
  /-- `pg_advisory_unlock` succeeds, or fails. -/
  | unlock (i : ℕ) (released : Bool)
  /-- `initialize_identity`, with the identities that it generates. -/
  | initializeIdentity (i : ℕ) (fresh runId : Uuid)
  /-- A command on the store. -/
  | command (i : ℕ) (c : Command)
  /-- The session ends, wherever it is. -/
  | leave (i : ℕ)

namespace Connections

/-- An empty database. -/
def init : Connections := ⟨⟨[], [], none⟩, none, .empty, fun _ => none⟩

/-- A session goes on. -/
def goOn (s : Connections) (i : ℕ) (x : Session) (phase : Phase) : Connections :=
  { s with sessions := Function.update s.sessions i (some { x with phase := phase }) }

/-- A session ends: what it has not committed is rolled back, and the lock is free again. -/
def leave (s : Connections) (i : ℕ) : Connections :=
  { s with
    sessions := Function.update s.sessions i none
    lock := if s.lock = some i then none else s.lock }

section
variable [Digests]

/-- One step of one session. -/
def step (startOf : ScopeKey → ℕ) (s : Connections) : ConnectAction → Option Connections
  | .connect i source manifest =>
    if s.sessions i = none then
      match checkContract manifest s.schema with
      | .ok () => some (s.goOn i ⟨source, manifest, .connected⟩ .connected)
      | .error _ => some s
    else none
  | .lock i =>
    match s.sessions i, s.lock with
    | some ⟨source, manifest, .connected⟩, none =>
      some { s.goOn i ⟨source, manifest, .connected⟩ (.applying 1) with lock := some i }
    | _, _ => none
  | .lookUp i =>
    match s.sessions i with
    | some ⟨source, manifest, .applying version⟩ =>
      if migrations < version then none
      else if version ∈ s.schema.versions then
        some (s.goOn i ⟨source, manifest, .applying version⟩ (.applying (version + 1)))
      else some (s.goOn i ⟨source, manifest, .applying version⟩ (.opened version))
    | _ => none
  | .commit i =>
    match s.sessions i with
    | some ⟨source, manifest, .opened version⟩ =>
      some { s.goOn i ⟨source, manifest, .opened version⟩ (.applying (version + 1)) with
        schema := s.schema.apply version }
    | _ => none
  | .unlock i released =>
    match s.sessions i with
    | some ⟨source, manifest, .applying version⟩ =>
      if migrations < version then
        some { s.goOn i ⟨source, manifest, .applying version⟩ .migrated with
          lock := if released then none else s.lock }
      else none
    | _ => none
  | .initializeIdentity i fresh runId =>
    match s.sessions i with
    | some ⟨source, manifest, .migrated⟩ =>
      match s.schema.manifest.map (initializeDataset manifest fresh) with
      | some (.ok dataset) =>
        match Tx.commit (initializeIdentity source dataset.1.datasetId runId
          manifest.eventContractVersion) s.record.db with
        | (.ok answer, db) =>
          some { s.goOn i ⟨source, manifest, .migrated⟩ (.running answer.1) with
            schema := { s.schema with manifest := some dataset.2 }
            record := { s.record with db := db } }
        | (.error _, _) => some (s.leave i)
      | _ => some (s.leave i)
    | _ => none
  | .command i c =>
    match s.sessions i with
    | some ⟨_, _, .running store⟩ =>
      if c.store? = some store then
        (s.record.step startOf c).map fun record => { s with record := record }
      else none
    | _ => none
  | .leave i => if (s.sessions i).isSome then some (s.leave i) else none

end

/-! ### The schema over runs -/

/-- The first so many versions have been applied, each of them once. -/
structure Climbed (schema : Schema) (n : ℕ) : Prop where
  executed : schema.executed = List.range' 1 n
  versions : schema.versions = List.range' 1 n
  le : n ≤ migrations

/-- How far a session has got, if the first so many versions have been applied. -/
def Stands (n : ℕ) : Phase → Prop
  | .connected => True
  | .applying version => 1 ≤ version ∧ version ≤ n + 1
  | .opened version => version = n + 1 ∧ version ≤ migrations
  | .migrated | .running _ => n = migrations

/-- What holds in every state. -/
structure Inv (s : Connections) (n : ℕ) : Prop where
  climbed : Climbed s.schema n
  stands : ∀ i x, s.sessions i = some x → Stands n x.phase
  exclusive : ∀ i x, s.sessions i = some x → x.phase.migrating → s.lock = some i
  untouched : n < migrations →
    s.record = .empty ∧ s.schema.manifest = if n < 4 then none else some [.legacy]

theorem inv_init : init.Inv 0 where
  climbed := ⟨rfl, rfl, Nat.zero_le _⟩
  stands _ _ h := by cases h
  exclusive _ _ h := by cases h
  untouched _ := ⟨rfl, rfl⟩

variable {s t : Connections} {n : ℕ}

/-- The sessions when one goes on. -/
theorem goOn_sessions {i j : ℕ} {x y : Session} {phase : Phase} :
    (s.goOn i x phase).sessions j = some y ↔
      (j = i ∧ y = { x with phase := phase }) ∨ (j ≠ i ∧ s.sessions j = some y) := by
  by_cases hj : j = i
  · subst hj
    simp [goOn, eq_comm]
  · simp [goOn, hj]

/-- The sessions when one ends. -/
theorem leave_sessions {i j : ℕ} {y : Session} :
    (s.leave i).sessions j = some y ↔ j ≠ i ∧ s.sessions j = some y := by
  by_cases hj : j = i
  · subst hj
    simp [Connections.leave]
  · simp [Connections.leave, hj]

theorem range'_one_succ (n : ℕ) : List.range' 1 (n + 1) = List.range' 1 n ++ [n + 1] := by
  rw [List.range'_concat, Nat.one_mul, Nat.add_comm 1 n]

/-- The next version is applied. -/
theorem Climbed.apply {schema : Schema} (h : Climbed schema n) (hn : n + 1 ≤ migrations) :
    Climbed (schema.apply (n + 1)) (n + 1) where
  executed := by
    rw [range'_one_succ, ← h.executed]
    rfl
  versions := by
    have hnew : n + 1 ∉ schema.versions := by
      rw [h.versions, List.mem_range'_1]
      omega
    rw [range'_one_succ, ← h.versions]
    exact if_neg hnew
  le := hn

/-- A session goes on within what has been applied. -/
theorem Inv.goOn (h : s.Inv n) (i : ℕ) (x : Session) (phase : Phase) (hstands : Stands n phase)
    (hlock : phase.migrating → s.lock = some i) : (s.goOn i x phase).Inv n where
  climbed := h.climbed
  stands j y hy := by
    rcases goOn_sessions.mp hy with ⟨rfl, rfl⟩ | ⟨-, hy⟩
    · exact hstands
    · exact h.stands j y hy
  exclusive j y hy := by
    rcases goOn_sessions.mp hy with ⟨rfl, rfl⟩ | ⟨-, hy⟩
    · exact hlock
    · exact h.exclusive j y hy
  untouched := h.untouched

/-- A session ends. -/
theorem Inv.leave (h : s.Inv n) (i : ℕ) : (s.leave i).Inv n where
  climbed := h.climbed
  stands j y hy := h.stands j y (leave_sessions.mp hy).2
  exclusive j y hy hmigrating := by
    obtain ⟨hj, hy⟩ := leave_sessions.mp hy
    have hlock : s.lock = some j := h.exclusive j y hy hmigrating
    have hother : s.lock ≠ some i := fun hi => hj (Option.some.inj (hlock.symm.trans hi))
    exact (if_neg hother).trans hlock
  untouched := h.untouched

/-- The lock is the session's, or nobody's, after that. -/
theorem Inv.setLock (h : s.Inv n) {lock : Option ℕ}
    (hlock : ∀ i x, s.sessions i = some x → x.phase.migrating → lock = some i) :
    Inv { s with lock := lock } n :=
  { h with exclusive := hlock }

/-- Another session than the one that holds the lock does not migrate. -/
theorem Inv.alone (h : s.Inv n) {i j : ℕ} {y : Session} (hlock : s.lock = some i) (hj : j ≠ i)
    (hy : s.sessions j = some y) : ¬ y.phase.migrating := fun hmigrating =>
  hj (Option.some.inj ((h.exclusive j y hy hmigrating).symm.trans hlock))

/-- Who does not migrate, and has not done so, is as it was when more versions are applied. -/
theorem Stands.mono {phase : Phase} {m : ℕ} (h : Stands n phase) (hn : n < migrations)
    (hidle : ¬ phase.migrating) : Stands m phase := by
  cases phase with
  | connected => trivial
  | applying version => exact absurd trivial hidle
  | opened version => exact absurd trivial hidle
  | migrated => exact absurd h hn.ne
  | running store => exact absurd h hn.ne

/-- **A version is applied by the session that holds the lock**, and it is the next one. -/
theorem Inv.commit (h : s.Inv n) {i : ℕ} {x : Session} {version : ℕ} (hx : s.sessions i = some x)
    (hphase : x.phase = .opened version) :
    Inv { s.goOn i x (.applying (version + 1)) with schema := s.schema.apply version } (n + 1) := by
  have hstands := h.stands i x hx
  rw [hphase] at hstands
  obtain ⟨rfl, hle⟩ := hstands
  have hlock : s.lock = some i := h.exclusive i x hx (by rw [hphase]; trivial)
  refine ⟨h.climbed.apply hle, fun j y hy => ?_, fun j y hy hmigrating => ?_, fun hless => ?_⟩
  · rcases goOn_sessions.mp hy with ⟨rfl, rfl⟩ | ⟨hj, hy⟩
    · exact ⟨Nat.succ_le_succ (Nat.zero_le _), le_rfl⟩
    · exact (h.stands j y hy).mono hle (h.alone hlock hj hy)
  · rcases goOn_sessions.mp hy with ⟨rfl, rfl⟩ | ⟨hj, hy⟩
    · exact hlock
    · exact absurd hmigrating (h.alone hlock hj hy)
  · obtain ⟨hrecord, hmanifest⟩ := h.untouched hle
    refine ⟨hrecord, ?_⟩
    -- the fourth version makes the table
    by_cases hfour : n = 3
    · subst hfour
      have hrows : s.schema.rows = [] := by
        rw [Schema.rows, hmanifest]
        rfl
      simp [Schema.apply, hrows]
    · have hsame : (s.schema.apply (n + 1)).manifest = s.schema.manifest := if_neg (by omega)
      rw [hsame, hmanifest]
      exact if_congr (by omega) rfl rfl

section
variable [Digests] {startOf : ScopeKey → ℕ}

/-- The invariant, with how far the schema has got. -/
def Sound (s : Connections) : Prop := ∃ n, s.Inv n

/-- **One step keeps it.** -/
theorem step_inv (h : s.Sound) {a : ConnectAction} (hstep : step startOf s a = some t) : t.Sound := by
  obtain ⟨n, h⟩ := h
  cases a with
  | connect i source manifest =>
    simp only [step] at hstep
    split_ifs at hstep
    split at hstep
    · cases hstep
      exact ⟨n, h.goOn i _ _ trivial fun hmigrating => hmigrating.elim⟩
    · cases hstep
      exact ⟨n, h⟩
  | lock i =>
    simp only [step] at hstep
    split at hstep
    · rename_i source manifest hx hlock
      cases hstep
      have hnobody : ∀ j y, s.sessions j = some y → ¬ y.phase.migrating := fun j y hy hmigrating => by
        cases hlock.symm.trans (h.exclusive j y hy hmigrating)
      have hlocked : Inv { s with lock := some i } n := h.setLock fun j y hy hmigrating =>
        absurd hmigrating (hnobody j y hy)
      exact ⟨n, hlocked.goOn i _ _ ⟨le_rfl, Nat.succ_le_succ (Nat.zero_le n)⟩ fun _ => rfl⟩
    · cases hstep
  | lookUp i =>
    simp only [step] at hstep
    split at hstep
    · rename_i source manifest version hx
      have hlock : s.lock = some i := h.exclusive i _ hx trivial
      obtain ⟨hone, hnext⟩ : 1 ≤ version ∧ version ≤ n + 1 := h.stands i _ hx
      split_ifs at hstep with hover happlied
      · cases hstep
        rw [h.climbed.versions, List.mem_range'_1] at happlied
        exact ⟨n, h.goOn i _ _ ⟨by omega, by omega⟩ fun _ => hlock⟩
      · cases hstep
        rw [h.climbed.versions, List.mem_range'_1] at happlied
        exact ⟨n, h.goOn i _ _ ⟨by omega, by omega⟩ fun _ => hlock⟩
    · cases hstep
  | commit i =>
    simp only [step] at hstep
    split at hstep
    · rename_i source manifest version hx
      cases hstep
      exact ⟨n + 1, h.commit hx rfl⟩
    · cases hstep
  | unlock i released =>
    simp only [step] at hstep
    split at hstep
    · rename_i source manifest version hx
      have hlock : s.lock = some i := h.exclusive i _ hx trivial
      obtain ⟨-, hnext⟩ : 1 ≤ version ∧ version ≤ n + 1 := h.stands i _ hx
      by_cases hover : migrations < version
      · rw [if_pos hover] at hstep
        cases hstep
        have hall : n = migrations := le_antisymm h.climbed.le (by omega)
        refine ⟨n, (h.goOn i _ .migrated hall fun hmigrating => hmigrating.elim).setLock
          fun j y hy hmigrating => ?_⟩
        rcases goOn_sessions.mp hy with ⟨rfl, rfl⟩ | ⟨hj, hy⟩
        · exact hmigrating.elim
        · exact absurd hmigrating (h.alone hlock hj hy)
      · rw [if_neg hover] at hstep
        cases hstep
    · cases hstep
  | initializeIdentity i fresh runId =>
    simp only [step] at hstep
    split at hstep
    · rename_i source manifest hx
      have hall : n = migrations := h.stands i _ hx
      split at hstep
      · split at hstep
        · rename_i answer db hcommit
          cases hstep
          have hon := h.goOn i ⟨source, manifest, .migrated⟩ (.running answer.1) hall
            fun hmigrating => hmigrating.elim
          exact ⟨n, ⟨h.climbed.executed, h.climbed.versions, h.climbed.le⟩, hon.stands, hon.exclusive,
            fun hless => absurd hall hless.ne⟩
        · cases hstep
          exact ⟨n, h.leave i⟩
      · cases hstep
        exact ⟨n, h.leave i⟩
    · cases hstep
  | command i c =>
    simp only [step] at hstep
    split at hstep
    · rename_i source manifest store hx
      have hall : n = migrations := h.stands i _ hx
      split_ifs at hstep
      obtain ⟨record, -, rfl⟩ := Option.map_eq_some_iff.mp hstep
      exact ⟨n, h.climbed, h.stands, h.exclusive, fun hless => absurd hall hless.ne⟩
    · cases hstep
  | leave i =>
    simp only [step] at hstep
    split_ifs at hstep
    cases hstep
    exact ⟨n, h.leave i⟩

end

end Connections

/-! ### What a store writes -/

/-- The dataset is there, and is the contract's own since there are such. -/
def Schema.Owns (schema : Schema) (datasetId : Uuid) (version : ℕ) : Prop :=
  ∃ row ∈ schema.rows, row.datasetId = datasetId ∧
    (8 ≤ version → row.initialEventContractVersion = version)

/-- What a record holds has one of these datasets and contracts. -/
structure Db.Labelled (labels : Uuid → ℕ → Prop) (db : Db) : Prop where
  runs : ∀ r ∈ db.runs, labels r.datasetId r.eventContractVersion
  events : ∀ e ∈ db.events, labels e.datasetId e.eventContractVersion
  coverage : ∀ k row, db.coverage k = some row → labels k.datasetId k.eventContractVersion

section
variable {labels labels' : Uuid → ℕ → Prop} {db : Db}

theorem Db.Labelled.mono (h : db.Labelled labels)
    (hlabels : ∀ datasetId version, labels datasetId version → labels' datasetId version) :
    db.Labelled labels' where
  runs r hr := hlabels _ _ (h.runs r hr)
  events e he := hlabels _ _ (h.events e he)
  coverage k row hrow := hlabels _ _ (h.coverage k row hrow)

/-- Runs that change keep their dataset and contract. -/
theorem labelled_map {runs : List ExtractorRun} {f : ExtractorRun → ExtractorRun}
    (hf : ∀ r, (f r).datasetId = r.datasetId ∧ (f r).eventContractVersion = r.eventContractVersion)
    (h : ∀ r ∈ runs, labels r.datasetId r.eventContractVersion) :
    ∀ r ∈ runs.map f, labels r.datasetId r.eventContractVersion := by
  intro r hr
  obtain ⟨r', hr', rfl⟩ := List.mem_map.mp hr
  rw [(hf r').1, (hf r').2]
  exact h r' hr'

/-- Opening a run orphans others, and has the label that it is opened with. -/
theorem Db.Labelled.opened (h : db.Labelled labels) {source : Source} {datasetId runId : Uuid}
    {version : ℕ} {answer : Store × Option ObservedBlock} {t : Db}
    (hopen : initializeIdentity source datasetId runId version db = .ok (answer, t))
    (hlabel : labels datasetId version) : t.Labelled labels := by
  have hfacts : SameFacts db t := sameFacts_initializeIdentity source datasetId runId version hopen
  obtain ⟨-, ht⟩ := initializeIdentity_inv hopen
  refine ⟨fun r hr => ?_, fun e he => h.events e (hfacts.events ▸ he), fun k row hrow =>
    h.coverage k row (hfacts.coverage ▸ hrow)⟩
  rw [ht.runs] at hr
  rcases List.mem_append.mp hr with hr | hr
  · refine labelled_map (fun r => ?_) h.runs r hr
    unfold ExtractorRun.orphan
    split_ifs
    · exact ⟨rfl, rfl⟩
    · exact ⟨rfl, rfl⟩
  · rw [List.mem_singleton.mp hr]
    exact hlabel

/-- Reserving keeps the label of a run. -/
theorem labelled_reserve {run : Uuid} {count first : ℕ} {s t : Db}
    (h : reserveCaptureSequences run count s = .ok (first, t))
    (hs : ∀ r ∈ s.runs, labels r.datasetId r.eventContractVersion) :
    ∀ r ∈ t.runs, labels r.datasetId r.eventContractVersion := by
  obtain ⟨-, h⟩ := Tx.require_bind_eq_ok.mp h
  obtain ⟨_, -, h⟩ := Tx.expect_bind_eq_ok.mp (Tx.read_bind_eq_ok.mp h)
  rw [Tx.modify_bind_eq_ok, Tx.pure_eq_ok] at h
  rw [← h.2]
  refine labelled_map (fun r => ?_) hs
  split_ifs
  · exact ⟨rfl, rfl⟩
  · exact ⟨rfl, rfl⟩

variable {c : Command} {store : Store}

theorem Command.batch_store {b : Batch} (hb : c.batch = some b) : c.store? = some b.store := by
  cases c <;> simp only [Command.batch, Option.some.injEq, reduceCtorEq] at hb <;> subst hb <;> rfl

theorem Command.coverageKey_store (hstore : c.store? = some store) {k : ScopeKey}
    (hk : c.coverageKey = some k) :
    k.datasetId = store.datasetId ∧ k.eventContractVersion = store.eventContractVersion := by
  cases c <;> simp only [Command.coverageKey, Option.some.injEq, reduceCtorEq] at hk <;> subst hk <;>
    cases hstore <;> exact ⟨rfl, rfl⟩

/-- **A command on a store adds what has the store's own dataset and contract.** -/
theorem Db.Labelled.exec [Digests] (startOf : ScopeKey → ℕ) (h : db.Labelled labels)
    (hstore : c.store? = some store) (hlabel : labels store.datasetId store.eventContractVersion) :
    (db.exec startOf c).Labelled labels where
  runs := by
    cases db.exec_effect startOf c with
    | same _ heq =>
      rw [heq.runs]
      exact h.runs
    | opened hc =>
      rw [hc] at hstore
      cases hstore
    | closed _ hok =>
      rw [(finishRun_inv hok).2.runs]
      refine labelled_map (fun r => ?_) h.runs
      unfold ExtractorRun.finish
      split_ifs
      · exact ⟨rfl, rfl⟩
      · exact ⟨rfl, rfl⟩
    | tip _ _ hok =>
      obtain ⟨_, _, _, u, -, -, hreserve, ht⟩ := recordTipObservation_inv hok
      have hreserved := labelled_reserve hreserve h.runs
      rw [ht.runs]
      exact hreserved
    | batch _ _ hrecorded =>
      obtain ⟨_, u, _, hreserve, hruns, -⟩ := hrecorded.occurrences
      rw [hruns]
      exact labelled_reserve hreserve h.runs
  events e he := by
    rcases (db.exec_adds startOf c).fresh e he with he | ⟨-, row, ⟨b, hb, event, -, hrow⟩, heq⟩
    · exact h.events e he
    · cases hstore.symm.trans (Command.batch_store hb)
      obtain ⟨f, payload, inst, -, -, -, rfl⟩ := hrow
      rw [heq]
      exact hlabel
  coverage k row hrow := by
    by_cases hk : c.coverageKey = some k
    · obtain ⟨hdataset, hversion⟩ := Command.coverageKey_store hstore hk
      rw [hdataset, hversion]
      exact hlabel
    · rw [(Db.exec_elsewhere startOf db c hk).coverage] at hrow
      exact h.coverage k row hrow

end

/-! ### Datasets over runs -/

/-- The rows of `dataset_manifest` differ in their identities, and in what they identify. -/
structure DistinctRows (rows : List DatasetRow) : Prop where
  ids : ∀ r ∈ rows, ∀ r' ∈ rows, r.datasetId = r'.datasetId → r = r'
  identities : ∀ r ∈ rows, ∀ r' ∈ rows, ∀ manifest : DatasetManifest, manifest.identifies r →
    manifest.identifies r' → r = r'

/-- The resolved row is the manifest's own, and is added if there is none. -/
theorem resolveDataset_inv {manifest : DatasetManifest} {fresh : Uuid} {rows : List DatasetRow}
    {dataset : DatasetRow × List DatasetRow} (h : resolveDataset manifest fresh rows = .ok dataset) :
    manifest.identifies dataset.1 ∧ dataset.1 ∈ dataset.2 ∧
      (dataset.2 = rows ∨ dataset.2 = rows ++ [dataset.1] ∧
        ∀ r ∈ rows, ¬ manifest.identifies r ∧ r.datasetId ≠ dataset.1.datasetId) := by
  unfold resolveDataset at h
  split at h
  · cases h
  · split at h
    · rename_i row hfound
      cases h
      have hidentifies : manifest.identifies row := by simpa using List.find?_some hfound
      exact ⟨hidentifies, List.mem_of_find?_eq_some hfound, .inl rfl⟩
    · rename_i hnone
      split_ifs at h with hused
      cases h
      refine ⟨⟨rfl, rfl, rfl⟩, List.mem_append_right _ (List.mem_singleton_self _),
        .inr ⟨rfl, fun r hr => ⟨?_, fun hid => hused ⟨r, hr, hid⟩⟩⟩⟩
      simpa using List.find?_eq_none.mp hnone r hr

/-- **What a resolved dataset is**: the manifest's own, new or not, and of its contract. -/
theorem initializeDataset_inv {manifest : DatasetManifest} {fresh : Uuid} {rows : List DatasetRow}
    {dataset : DatasetRow × List DatasetRow}
    (h : initializeDataset manifest fresh rows = .ok dataset) :
    resolveDataset manifest fresh rows = .ok dataset ∧ (8 ≤ manifest.eventContractVersion →
      dataset.1.initialEventContractVersion = manifest.eventContractVersion) := by
  obtain ⟨_, -, h⟩ := Result.bind_eq_ok.mp h
  obtain ⟨version, hversion, h⟩ := Result.bind_eq_ok.mp h
  obtain ⟨resolved, hresolved, h⟩ := Result.bind_eq_ok.mp h
  obtain ⟨-, rfl⟩ := narrow_eq_ok.mp (Result.context_eq_ok.mp hversion)
  split_ifs at h with hcontract
  obtain rfl := Result.pure_eq_ok.mp h
  exact ⟨hresolved, fun height => Classical.not_not.mp fun hne => hcontract ⟨height, hne⟩⟩

/-- A new row keeps the rows distinct. -/
theorem DistinctRows.concat {rows : List DatasetRow} {row : DatasetRow} (h : DistinctRows rows)
    (hnew : ∀ r ∈ rows, r.datasetId ≠ row.datasetId ∧
      ∀ manifest : DatasetManifest, manifest.identifies row → ¬ manifest.identifies r) :
    DistinctRows (rows ++ [row]) where
  ids r hr r' hr' hid := by
    rcases List.mem_append.mp hr with hr | hr <;> rcases List.mem_append.mp hr' with hr' | hr'
    · exact h.ids r hr r' hr' hid
    · rw [List.mem_singleton.mp hr'] at hid
      exact absurd hid (hnew r hr).1
    · rw [List.mem_singleton.mp hr] at hid
      exact absurd hid.symm (hnew r' hr').1
    · rw [List.mem_singleton.mp hr, List.mem_singleton.mp hr']
  identities r hr r' hr' manifest hm hm' := by
    rcases List.mem_append.mp hr with hr | hr <;> rcases List.mem_append.mp hr' with hr' | hr'
    · exact h.identities r hr r' hr' manifest hm hm'
    · rw [List.mem_singleton.mp hr'] at hm'
      exact absurd hm ((hnew r hr).2 manifest hm')
    · rw [List.mem_singleton.mp hr] at hm
      exact absurd hm' ((hnew r' hr').2 manifest hm)
    · rw [List.mem_singleton.mp hr, List.mem_singleton.mp hr']

/-- The dataset is there still when there are more. -/
theorem Schema.Owns.mono {schema schema' : Schema} {datasetId : Uuid} {version : ℕ}
    (h : schema.Owns datasetId version) (hrows : schema.rows ⊆ schema'.rows) :
    schema'.Owns datasetId version := by
  obtain ⟨row, hrow, hid, hcontract⟩ := h
  exact ⟨row, hrows hrow, hid, hcontract⟩

namespace Connections

/-- A session's store is of the dataset of its manifest, and of its contract. -/
def Binds (schema : Schema) (x : Session) (store : Store) : Prop :=
  store.eventContractVersion = x.manifest.eventContractVersion ∧
    ∃ row ∈ schema.rows, x.manifest.identifies row ∧ row.datasetId = store.datasetId ∧
      (8 ≤ store.eventContractVersion → row.initialEventContractVersion = store.eventContractVersion)

/-- What holds of the datasets in every state. -/
structure Apart (s : Connections) : Prop where
  distinct : DistinctRows s.schema.rows
  binds : ∀ i x store, s.sessions i = some x → x.phase = .running store → Binds s.schema x store
  labelled : s.record.db.Labelled s.schema.Owns

theorem Binds.owns {schema : Schema} {x : Session} {store : Store} (h : Binds schema x store) :
    schema.Owns store.datasetId store.eventContractVersion := by
  obtain ⟨-, row, hrow, -, hid, hcontract⟩ := h
  exact ⟨row, hrow, hid, hcontract⟩

theorem Binds.mono {schema schema' : Schema} {x : Session} {store : Store} (h : Binds schema x store)
    (hrows : schema.rows ⊆ schema'.rows) : Binds schema' x store := by
  obtain ⟨hversion, row, hrow, hof⟩ := h
  exact ⟨hversion, row, hrows hrow, hof⟩

theorem apart_init : init.Apart where
  distinct := ⟨fun _ hr => (by cases hr), fun _ hr => (by cases hr)⟩
  binds _ _ _ hx := by cases hx
  labelled := ⟨fun _ hr => (by cases hr), fun _ he => (by cases he), fun _ _ hrow => (by cases hrow)⟩

variable {s t : Connections}

/-- There are more datasets. -/
theorem Apart.setSchema (h : s.Apart) {schema : Schema} (hrows : s.schema.rows ⊆ schema.rows)
    (hdistinct : DistinctRows schema.rows) : Apart { s with schema := schema } where
  distinct := hdistinct
  binds i x store hx hphase := (h.binds i x store hx hphase).mono hrows
  labelled := h.labelled.mono fun _ _ howns => howns.mono hrows

/-- A session goes on. -/
theorem Apart.goOn (h : s.Apart) (i : ℕ) (x : Session) (phase : Phase)
    (hbinds : ∀ store, phase = .running store → Binds s.schema x store) : (s.goOn i x phase).Apart where
  distinct := h.distinct
  binds j y store hy hphase := by
    rcases goOn_sessions.mp hy with ⟨rfl, rfl⟩ | ⟨-, hy⟩
    · exact hbinds store hphase
    · exact h.binds j y store hy hphase
  labelled := h.labelled

/-- A session ends. -/
theorem Apart.leave (h : s.Apart) (i : ℕ) : (s.leave i).Apart where
  distinct := h.distinct
  binds j y store hy hphase := h.binds j y store (leave_sessions.mp hy).2 hphase
  labelled := h.labelled

/-- A version that is applied makes no second dataset. -/
theorem Inv.rows_commit {n : ℕ} (h : s.Inv n) (hn : n < migrations) (hs : DistinctRows s.schema.rows) :
    s.schema.rows ⊆ (s.schema.apply (n + 1)).rows ∧ DistinctRows (s.schema.apply (n + 1)).rows := by
  obtain ⟨-, hmanifest⟩ := h.untouched hn
  by_cases hfour : n = 3
  · subst hfour
    have hrows : s.schema.rows = [] := by
      rw [Schema.rows, hmanifest]
      rfl
    have happly : (s.schema.apply 4).rows = [.legacy] := by
      simp [Schema.apply, Schema.rows, hmanifest]
    rw [hrows, happly]
    refine ⟨List.nil_subset _, fun r hr r' hr' _ => ?_, fun r hr r' hr' _ _ _ => ?_⟩
    · rw [List.mem_singleton.mp hr, List.mem_singleton.mp hr']
    · rw [List.mem_singleton.mp hr, List.mem_singleton.mp hr']
  · have hmanifest : (s.schema.apply (n + 1)).manifest = s.schema.manifest := if_neg (by omega)
    have hsame : (s.schema.apply (n + 1)).rows = s.schema.rows := by
      rw [Schema.rows, Schema.rows, hmanifest]
    rw [hsame]
    exact ⟨fun _ hr => hr, hs⟩

/-- A process is bound to its dataset. -/
theorem Apart.initialize (h : s.Apart) {i : ℕ} {source : Source} {manifest : DatasetManifest}
    {fresh runId : Uuid} {rows : List DatasetRow} {dataset : DatasetRow × List DatasetRow}
    {answer : Store × Option ObservedBlock} {db : Db} (hrows : s.schema.manifest = some rows)
    (hdataset : initializeDataset manifest fresh rows = .ok dataset)
    (hcommit : Tx.commit (initializeIdentity source dataset.1.datasetId runId
      manifest.eventContractVersion) s.record.db = (.ok answer, db)) :
    Apart { s.goOn i ⟨source, manifest, .migrated⟩ (.running answer.1) with
      schema := { s.schema with manifest := some dataset.2 }
      record := { s.record with db := db } } := by
  obtain ⟨hresolved, hcontract⟩ := initializeDataset_inv hdataset
  obtain ⟨hidentifies, hmem, hadded⟩ := resolveDataset_inv hresolved
  have hopen := Tx.commit_eq_ok.mp hcommit
  have hrows' : s.schema.rows = rows := by
    rw [Schema.rows, hrows]
    rfl
  let schema : Schema := { s.schema with manifest := some dataset.2 }
  have hschema : schema.rows = dataset.2 := rfl
  have hsub : s.schema.rows ⊆ schema.rows := by
    rw [hrows', hschema]
    rcases hadded with hsame | ⟨hnew, -⟩
    · rw [hsame]
      exact fun _ hr => hr
    · rw [hnew]
      exact List.subset_append_left _ _
  have hdistinct : DistinctRows schema.rows := by
    have hold : DistinctRows rows := hrows' ▸ h.distinct
    rw [hschema]
    rcases hadded with hsame | ⟨hnew, hother⟩
    · rw [hsame]
      exact hold
    · rw [hnew]
      refine hold.concat fun r hr => ⟨(hother r hr).2, fun m hm hm' => (hother r hr).1 ?_⟩
      -- a manifest that identifies both has what this one has
      obtain ⟨hnetwork, hheight, hhash⟩ := hm
      obtain ⟨hnetwork', hheight', hhash'⟩ := hidentifies
      exact ⟨hm'.1.trans (hnetwork.symm.trans hnetwork'), hm'.2.1.trans (hheight.symm.trans hheight'),
        hm'.2.2.trans (hhash.symm.trans hhash')⟩
  have hstore : answer.1 = ⟨source, dataset.1.datasetId, runId, manifest.eventContractVersion⟩ :=
    (initializeIdentity_status hopen).1
  have hbinds : Binds schema ⟨source, manifest, .running answer.1⟩ answer.1 := by
    rw [hstore]
    exact ⟨rfl, dataset.1, hmem, hidentifies, rfl, hcontract⟩
  have hlabelled : db.Labelled schema.Owns := (h.labelled.mono fun _ _ howns => howns.mono hsub).opened
    hopen ⟨dataset.1, hmem, rfl, hcontract⟩
  refine ⟨hdistinct, fun j y store hy hphase => ?_, hlabelled⟩
  rcases goOn_sessions.mp hy with ⟨rfl, rfl⟩ | ⟨-, hy⟩
  · cases hphase
    exact hbinds
  · exact (h.binds j y store hy hphase).mono hsub

section
variable [Digests] {startOf : ScopeKey → ℕ}

/-- **One step keeps the datasets apart.** -/
theorem step_apart (hs : s.Sound) (h : s.Apart) {a : ConnectAction}
    (hstep : step startOf s a = some t) : t.Apart := by
  -- a session that does not run yet binds nothing
  have idle {i : ℕ} {x : Session} {phase : Phase} (hidle : ∀ store, phase ≠ .running store) :
      (s.goOn i x phase).Apart := h.goOn i x phase fun store hphase => absurd hphase (hidle store)
  cases a with
  | connect i source manifest =>
    simp only [step] at hstep
    split_ifs at hstep
    split at hstep
    · cases hstep
      exact idle fun _ => Phase.noConfusion
    · cases hstep
      exact h
  | lock i =>
    simp only [step] at hstep
    split at hstep
    · rename_i source manifest hx hlock
      cases hstep
      have hon : (s.goOn i ⟨source, manifest, .connected⟩ (.applying 1)).Apart :=
        idle fun _ => Phase.noConfusion
      exact ⟨hon.distinct, hon.binds, hon.labelled⟩
    · cases hstep
  | lookUp i =>
    simp only [step] at hstep
    split at hstep
    · split_ifs at hstep
      · cases hstep
        exact idle fun _ => Phase.noConfusion
      · cases hstep
        exact idle fun _ => Phase.noConfusion
    · cases hstep
  | commit i =>
    simp only [step] at hstep
    split at hstep
    · rename_i source manifest version hx
      cases hstep
      obtain ⟨n, hn⟩ := hs
      obtain ⟨rfl, hle⟩ : version = n + 1 ∧ version ≤ migrations := hn.stands i _ hx
      obtain ⟨hrows, hdistinct⟩ := hn.rows_commit hle h.distinct
      have hon : (s.goOn i ⟨source, manifest, .opened (n + 1)⟩ (.applying (n + 1 + 1))).Apart :=
        idle fun _ => Phase.noConfusion
      exact hon.setSchema hrows hdistinct
    · cases hstep
  | unlock i released =>
    simp only [step] at hstep
    split at hstep
    · rename_i source manifest version hx
      by_cases hover : migrations < version
      · rw [if_pos hover] at hstep
        cases hstep
        have hon : (s.goOn i ⟨source, manifest, .applying version⟩ .migrated).Apart :=
          idle fun _ => Phase.noConfusion
        exact ⟨hon.distinct, hon.binds, hon.labelled⟩
      · rw [if_neg hover] at hstep
        cases hstep
    · cases hstep
  | initializeIdentity i fresh runId =>
    simp only [step] at hstep
    split at hstep
    · rename_i source manifest hx
      split at hstep
      · rename_i dataset hdataset
        split at hstep
        · rename_i answer db hcommit
          cases hstep
          obtain ⟨rows, hrows, hdataset⟩ := Option.map_eq_some_iff.mp hdataset
          exact h.initialize hrows hdataset hcommit
        · cases hstep
          exact h.leave i
      · cases hstep
        exact h.leave i
    · cases hstep
  | command i c =>
    simp only [step] at hstep
    split at hstep
    · rename_i source manifest store hx
      split_ifs at hstep with hstore
      obtain ⟨record, hrecord, rfl⟩ := Option.map_eq_some_iff.mp hstep
      have hdb : record.db = s.record.db.exec startOf c := by
        unfold Record.step at hrecord
        split_ifs at hrecord
        cases hrecord
        rfl
      have howns := (h.binds i _ store hx rfl).owns
      exact ⟨h.distinct, h.binds, hdb ▸ h.labelled.exec startOf hstore howns⟩
    · cases hstep
  | leave i =>
    simp only [step] at hstep
    split_ifs at hstep
    cases hstep
    exact h.leave i

/-- **Each migration is executed once.** However many processes start at once, and wherever they fail: what
has been executed is a first part of the migrations, in order and each of them once, and is what
`schema_version` shows; one session at most is migrating; and a session that has migrated, as anything that
is in the record, has all of them before it. -/
theorem migrated_once {as : List ConnectAction} (hrun : run (step startOf) init as = some s) :
    (∃ n ≤ migrations, s.schema.executed = List.range' 1 n ∧ s.schema.versions = List.range' 1 n) ∧
      (∀ i x j y, s.sessions i = some x → s.sessions j = some y → x.phase.migrating →
        y.phase.migrating → i = j) ∧
      (∀ i x, s.sessions i = some x → x.phase.past →
        s.schema.executed = List.range' 1 migrations) ∧
      (s.record ≠ .empty → s.schema.executed = List.range' 1 migrations) := by
  obtain ⟨n, h⟩ : s.Sound := run_invariant (fun _ _ _ h hstep => step_inv h hstep) ⟨0, inv_init⟩ hrun
  refine ⟨⟨n, h.climbed.le, h.climbed.executed, h.climbed.versions⟩, ?_, ?_, ?_⟩
  · intro i x j y hx hy hi hj
    exact Option.some.inj ((h.exclusive i x hx hi).symm.trans (h.exclusive j y hy hj))
  · intro i x hx hpast
    have hall : n = migrations := by
      have hstands := h.stands i x hx
      cases hphase : x.phase with
      | connected => exact absurd hpast (by rw [hphase]; exact id)
      | applying _ => exact absurd hpast (by rw [hphase]; exact id)
      | opened _ => exact absurd hpast (by rw [hphase]; exact id)
      | migrated => rwa [hphase] at hstands
      | running _ => rwa [hphase] at hstands
    rw [h.climbed.executed, hall]
  · intro hrecord
    rw [h.climbed.executed]
    rcases h.climbed.le.lt_or_eq with hless | hall
    · exact absurd (h.untouched hless).1 hrecord
    · rw [hall]

/-- **Contracts are kept apart.** However the processes start, with whatever manifests: two of them have one
dataset exactly when their networks and their starts are the same; and any two runs, facts or history scopes
of one dataset have the same contract, if their contracts are the eighth or later. -/
theorem contracts_apart {as : List ConnectAction} (hrun : run (step startOf) init as = some s) :
    (∀ i x a j y b, s.sessions i = some x → x.phase = .running a → s.sessions j = some y →
      y.phase = .running b → (a.datasetId = b.datasetId ↔
        x.manifest.networkId = y.manifest.networkId ∧
          x.manifest.activationHeight = y.manifest.activationHeight ∧
          x.manifest.activationBlockHash = y.manifest.activationBlockHash)) ∧
      ∃ contract : Uuid → ℕ, s.record.db.Labelled fun datasetId version =>
        8 ≤ version → version = contract datasetId := by
  have hinit : init.Sound ∧ init.Apart := ⟨⟨0, inv_init⟩, apart_init⟩
  obtain ⟨-, h⟩ := run_invariant (I := fun s => s.Sound ∧ s.Apart) (fun _ _ _ h hstep =>
    ⟨step_inv h.1 hstep, step_apart h.1 h.2 hstep⟩) hinit hrun
  constructor
  · intro i x a j y b hx ha hy hb
    obtain ⟨-, row, hrow, ⟨hnetwork, hheight, hhash⟩, hid, -⟩ := h.binds i x a hx ha
    obtain ⟨-, row', hrow', hidentifies', hid', -⟩ := h.binds j y b hy hb
    constructor
    · intro hsame
      obtain rfl := h.distinct.ids row hrow row' hrow' (hid.trans (hsame.trans hid'.symm))
      exact ⟨hnetwork.symm.trans hidentifies'.1, hheight.symm.trans hidentifies'.2.1,
        hhash.symm.trans hidentifies'.2.2⟩
    · rintro ⟨hn, hh, hb⟩
      have hboth : y.manifest.identifies row := ⟨hnetwork.trans hn, hheight.trans hh, hhash.trans hb⟩
      obtain rfl := h.distinct.identities row hrow row' hrow' y.manifest hboth hidentifies'
      exact hid.symm.trans hid'
  · refine ⟨fun datasetId => ((s.schema.rows.find? fun row => row.datasetId = datasetId).map
      (·.initialEventContractVersion)).getD 0, h.labelled.mono fun datasetId version howns hversion => ?_⟩
    obtain ⟨row, hrow, hid, hcontract⟩ := howns
    cases hfound : s.schema.rows.find? fun row => row.datasetId = datasetId with
    | none => exact absurd (List.find?_eq_none.mp hfound row hrow) (by simpa using hid)
    | some row' =>
      have hid' : row'.datasetId = datasetId := by simpa using List.find?_some hfound
      obtain rfl := h.distinct.ids row' (List.mem_of_find?_eq_some hfound) row hrow (hid'.trans hid.symm)
      simp only [hfound, Option.map_some, Option.getD_some]
      exact (hcontract hversion).symm

end

/-! ### Two processes at once -/

namespace TwoStartups

def manifest : DatasetManifest := ⟨"regtest", 5, "unknown", 9, "first start"⟩

/-- Migrations that a session applies. -/
def applies (i n : ℕ) : List ConnectAction := (List.replicate n [.lookUp i, .commit i]).flatten

/-- The first process fails in the fourth migration, the second goes on, and the first comes back. -/
def actions : List ConnectAction :=
  [.connect 0 .enforcer manifest, .connect 1 .node manifest, .lock 0] ++ applies 0 3 ++
  [.lookUp 0, .leave 0, .lock 1] ++ List.replicate 3 (.lookUp 1) ++ applies 1 7 ++
  [.unlock 1 true, .connect 0 .enforcer manifest, .lock 0, .initializeIdentity 1 7 0] ++
  List.replicate 10 (.lookUp 0) ++ [.unlock 0 false, .initializeIdentity 0 8 1]

end TwoStartups

theorem twoStartups_runs :
    ∃ s, run (@step (.ofPayloads []) fun _ => 5) init TwoStartups.actions = some s ∧
      s.sessions 0 = some ⟨.enforcer, TwoStartups.manifest, .running ⟨.enforcer, 7, 1, 9⟩⟩ ∧
      s.sessions 1 = some ⟨.node, TwoStartups.manifest, .running ⟨.node, 7, 0, 9⟩⟩ := by
  have hruns : ((run (@step (.ofPayloads []) fun _ => 5) init TwoStartups.actions).filter fun s =>
      s.sessions 0 = some ⟨.enforcer, TwoStartups.manifest, .running ⟨.enforcer, 7, 1, 9⟩⟩ ∧
      s.sessions 1 = some ⟨.node, TwoStartups.manifest, .running ⟨.node, 7, 0, 9⟩⟩).isSome := by
    decide +kernel
  obtain ⟨s, hs⟩ := Option.isSome_iff_exists.mp hruns
  obtain ⟨hs, hstate⟩ := Option.filter_eq_some_iff.mp hs
  exact ⟨s, hs, of_decide_eq_true hstate⟩

/-- All migrations have been executed, each once. -/
theorem migrated_once_twoStartups :
    ∃ s, run (@step (.ofPayloads []) fun _ => 5) init TwoStartups.actions = some s ∧
      s.schema.executed = [1, 2, 3, 4, 5, 6, 7, 8, 9, 10] := by
  obtain ⟨s, hs, hfirst, -⟩ := twoStartups_runs
  exact ⟨s, hs, (@migrated_once s (.ofPayloads []) (fun _ => 5) _ hs).2.2.1 0 _ hfirst trivial⟩

/-- The two of them have the dataset of their manifest. -/
theorem contracts_apart_twoStartups :
    ∃ s, run (@step (.ofPayloads []) fun _ => 5) init TwoStartups.actions = some s ∧
      ∃ a b, s.sessions 0 = some ⟨.enforcer, TwoStartups.manifest, .running a⟩ ∧
        s.sessions 1 = some ⟨.node, TwoStartups.manifest, .running b⟩ ∧ a.datasetId = b.datasetId := by
  obtain ⟨s, hs, hfirst, hsecond⟩ := twoStartups_runs
  have hiff := (@contracts_apart s (.ofPayloads []) (fun _ => 5) _ hs).1 0 _ _ 1 _ _ hfirst rfl hsecond rfl
  exact ⟨s, hs, _, _, hfirst, hsecond, hiff.mpr ⟨rfl, rfl, rfl⟩⟩

end Connections

end Bip300Monitor
