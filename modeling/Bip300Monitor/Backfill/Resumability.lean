import Bip300Monitor.Backfill.Calls

/-!
# What is left can be resumed

An import that has not completed keeps a cursor strictly above its floor, and a target at
or above its start, so that the next call has a page to ask for. It does as long as no
cycle is begun towards a target below the activation height. `prepare_cycle` refuses such
a target; the replacement of an unavailable target does not.

## What is proved

* `scope_resumable` — over every run in which no cycle is begun towards such a target, what
  has not completed is in order, and a new call gets to its fetch;
* `scope_stuck` — a run in which one is begun: every later call fails before its fetch.
-/

namespace Bip300Monitor.Backfill

open Protobuf Transaction Runs Resumption

variable {P : Type}

/-- The target of a cycle that an operation begins. -/
def Op.beginTarget? : Op P → Option ObservedBlock
  | .beginHistoryCycle _ _ targetTip .. => some targetTip
  | _ => none

/-- A cycle that is begun has its target at the activation height or above. -/
def Import.TowardsAbove (imp : Import P) (s : State P) : Action P → Prop
  | .advance _ => ∀ tip ∈ s.next?.bind Op.beginTarget?, ∀ height ∈ tip.height,
      imp.stream.activationHeight ≤ height
  | _ => True

instance (imp : Import P) (s : State P) (a : Action P) : Decidable (imp.TowardsAbove s a) :=
  match a with
  | .advance _ => inferInstanceAs (Decidable (∀ tip ∈ s.next?.bind Op.beginTarget?, _))
  | .world _ | .call .. | .crash => inferInstanceAs (Decidable True)

/-- No cycle begins towards a target below the activation height. -/
def towardsAbove : Conditions := { Conditions.none with above := True }

theorem Import.TowardsAbove.holds {imp : Import P} {s : State P} {a : Action P}
    (h : imp.TowardsAbove s a) : imp.Holds towardsAbove s a := by
  cases a with
  | world command => exact fun hfalse => hfalse.elim
  | advance env =>
    intro e he
    cases e with
    | beginHistoryCycle start coveredTip targetTip floorHash floorHeight page =>
      exact fun _ height hheight => h targetTip (by rw [he]; rfl) height hheight
    | fetch | currentSidechainInstanceId => exact fun hfalse => hfalse.elim
    | _ => trivial
  | _ => trivial

/-- Nobody asks for shutdown, and the connection to the record holds. -/
structure Environment.Quiet (env : Environment P) : Prop where
  shutdown : env.shutdown = false
  fault : env.fault = none

/-- The scope is global, or its instance is the slot's current one. -/
def Import.IsCurrent (imp : Import P) (db : Db) : Prop :=
  ∀ slot ∈ imp.stream.scope.sidechain, imp.stream.scope.sidechainInstanceId.isSome →
    db.currentInstance imp.datasetId slot = imp.stream.scope.sidechainInstanceId

/-! ### A call to its first fetch -/

section
variable [Digests] {imp : Import P} {env : Environment P} {db : Db} {row : CoverageRow}

theorem yields_scopeIsCurrent {run : Uuid} (henv : env.Quiet) (h : imp.IsCurrent db) :
    Yields (imp.perform run env) (scopeIsCurrent imp.stream.scope) db true db := by
  unfold scopeIsCurrent
  cases hslot : imp.stream.scope.sidechain with
  | none => exact yields_pure _ _
  | some slot =>
    cases hid : imp.stream.scope.sidechainInstanceId with
    | none => exact yields_pure _ _
    | some id =>
      have hcurrent : db.currentInstance imp.datasetId slot = some id := by
        rw [h slot hslot (by simp [hid]), hid]
      have hperform : imp.perform run env db (.currentSidechainInstanceId slot) =
          (.ok (some id), db) := by
        simp [Import.perform, Environment.deliver, henv.fault, hcurrent]
      refine (yields_call _ _).bind ?_
      rw [hperform]
      refine (yields_attempt rfl _).bind ?_
      simpa using yields_pure (f := imp.perform run env) true db

theorem perform_historyCoverage_of_quiet {run : Uuid} (henv : env.Quiet)
    (hscope : validateHistoryScope imp.stream.scope = .ok ()) (hrow : imp.row db = some row) :
    imp.perform run env db .historyCoverage = (.ok (some row), db) := by
  have hread : historyCoverage (imp.store run) imp.stream.scope db = .ok (some row, db) := by
    rw [historyCoverage, Tx.lift_bind_eq_ok]
    refine ⟨(), hscope, ?_⟩
    rw [Tx.read_bind_eq_ok, Tx.pure_eq_ok]
    exact ⟨hrow, rfl⟩
  simp only [Import.perform, Environment.deliver, henv.fault]
  rw [Tx.commit_eq_ok.mpr hread]

theorem yields_isQuarantined {run : Uuid} (henv : env.Quiet)
    (hscope : validateHistoryScope imp.stream.scope = .ok ()) (hrow : imp.row db = some row)
    (hq : ¬ row.quarantined) :
    Yields (imp.perform run env) (isQuarantined imp.stream.scope) db false db := by
  refine (yields_call _ _).bind ?_
  rw [perform_historyCoverage_of_quiet henv hscope hrow]
  refine (yields_attempt rfl _).bind ?_
  have hdecide : decide (∃ r ∈ some row, r.quarantined) = false := by simp [hq]
  rw [hdecide]
  exact yields_pure _ _

/-- A row that failed or was superseded goes on from its cursor. -/
theorem yields_resumeCycle (run : Uuid) (henv : env.Quiet)
    (hscope : validateHistoryScope imp.stream.scope = .ok ()) (hrow : imp.row db = some row)
    (hvalid : row.valid imp.key) (hstatus : row.status = .error ∨ row.status = .superseded) :
    Yields (imp.perform run env) (resumeCycle imp.stream row) db
      { row with status := .running, lastError := none }
      (db.setCoverage imp.key { row with status := .running, lastError := none }) := by
  have hnot : row.status ≠ .complete := by
    rcases hstatus with h | h <;> simp [h]
  have hnext : row.next ≠ none := mt hvalid.2.2.2.2.2.2.2.mpr hnot
  have hwrite : updateCoverage imp.key
      (fun row => (row.status = .error ∨ row.status = .superseded) ∧ row.next ≠ none)
      (fun row => { row with status := .running, lastError := none }) db =
      .ok (some { row with status := .running, lastError := none },
        db.setCoverage imp.key { row with status := .running, lastError := none }) := by
    refine updateCoverage_eq_ok.mpr (.inr ⟨row, hrow, ⟨hstatus, hnext⟩, rfl, ?_⟩)
    exact (writeCoverage_eq_ok (by simp)).mpr ⟨hvalid.of_status hnot (by simp) none, rfl⟩
  have hresume : resumeHistory (imp.store run) imp.stream.scope db =
      .ok ((), db.setCoverage imp.key { row with status := .running, lastError := none }) := by
    rw [resumeHistory, Tx.lift_bind_eq_ok]
    refine ⟨(), hscope, Tx.bind_eq_ok.mpr ⟨_, _, hwrite, ?_⟩⟩
    rw [Tx.require_eq_ok]
    exact ⟨rfl, rfl⟩
  have hperform : imp.perform run env db .resumeHistory =
      (.ok (), db.setCoverage imp.key { row with status := .running, lastError := none }) := by
    simp only [Import.perform, Environment.deliver, henv.fault]
    rw [Tx.commit_eq_ok.mpr hresume]
  refine (yields_call _ _).bind ?_
  rw [hperform]
  exact (yields_attempt rfl _).bind (yields_pure _ _)

/-- A row that has not completed is walked on from its cursor. -/
theorem yields_prepareCycle (run : Uuid) (configured : ℕ) {tip : ObservedBlock} {height : ℕ}
    (henv : env.Quiet)
    (hscope : validateHistoryScope imp.stream.scope = .ok ()) (hrow : imp.row db = some row)
    (hvalid : row.valid imp.key) (hstart : row.coverageStartHeight = imp.stream.activationHeight)
    (hstatus : row.status ≠ .complete) (htip : tip.height = some height)
    (hle : imp.stream.activationHeight ≤ height) :
    ∃ row' db', Yields (imp.perform run env) (prepareCycle imp.stream tip configured) db
        (some row') db' ∧ row'.next = row.next ∧ row'.floorHeight = row.floorHeight ∧
      row'.effectivePageBlocks = row.effectivePageBlocks ∧
      db'.currentInstances = db.currentInstances := by
  obtain ⟨rest, hsteps, hrunning, hresumes⟩ : ∃ rest : Engine P (Option CoverageRow),
      (∀ r t, Yields (imp.perform run env) rest db r t →
        Yields (imp.perform run env) (prepareCycle imp.stream tip configured) db r t) ∧
      (row.status = .running → rest = pure (some row)) ∧
      (row.status = .error ∨ row.status = .superseded →
        rest = resumeCycle imp.stream row >>= fun row => pure (some row)) := by
    apply Exists.intro
    refine ⟨fun r t hyields => ?_, ?_, ?_⟩
    · refine (yields_attempt (requiredHeight_eq_ok.mpr htip) _).bind ?_
      refine (yields_attempt (ensure_eq_ok (u := ()) |>.mpr hle) _).bind ?_
      refine (yields_call _ _).bind ?_
      rw [perform_historyCoverage_of_quiet henv hscope hrow]
      refine (yields_attempt rfl _).bind ?_
      exact (yields_attempt (ensure_eq_ok (u := ()) |>.mpr hstart) _).bind hyields
    · intro h
      rw [h]
    · rintro (h | h)
      · rw [h]
      · rw [h]
  have hresume := yields_resumeCycle run henv hscope hrow hvalid
  by_cases h : row.status = .running
  · refine ⟨row, db, hsteps _ _ ?_, rfl, rfl, rfl, rfl⟩
    rw [hrunning h]
    exact yields_pure _ _
  · have hfailed : row.status = .error ∨ row.status = .superseded := by
      cases hrow : row.status with
      | running => exact absurd hrow h
      | complete => exact absurd hrow hstatus
      | error => exact .inl rfl
      | superseded => exact .inr rfl
    have hyields := (hresume hfailed).bind (g := fun row => pure (some row)) (yields_pure _ _)
    rw [← hresumes hfailed] at hyields
    exact ⟨_, _, hsteps _ _ hyields, rfl, rfl, rfl, rfl⟩

/-- An iteration of the loop asks for a page. -/
theorem alone_iterate (run : Uuid) (settings : Settings) {l : Locals} {next : Block} {blocks : ℕ}
    (henv : env.Quiet) (hcurrent : imp.IsCurrent db) (hnext : l.progress.next = some next)
    (hblocks : blocksThroughFloor next.height l.progress.floorHeight = .ok blocks) :
    ∃ q, Alone (imp.perform run env) (iterate imp.stream settings l).run db q db ∧
      q.next? = some (.fetch next.observed (min blocks l.progress.effectivePageBlocks)) := by
  let requested := min blocks l.progress.effectivePageBlocks
  let q : Engine P (Locals ⊕ Outcome) := ask (.fetch next.observed requested) >>=
    fetched imp.stream settings l next blocks requested
  have hwalk : Alone (imp.perform run env) (walk imp.stream settings l).run db q.run db :=
    (yields_attempt (expect_eq_ok.mpr hnext) _).then ((yields_attempt hblocks _).then (.refl _ _))
  have hshutdown : imp.perform run env db .shutdownRequested = (false, db) := by
    simp only [Import.perform, henv.shutdown]
  refine ⟨q.run, (yields_call _ _).then ?_, rfl⟩
  rw [hshutdown]
  exact (yields_scopeIsCurrent henv hcurrent).then hwalk

/-! ### The steps of a call -/

/-- What a call does alone are steps of the system. -/
theorem run_alone {run : Uuid} (settings : Settings) (record : Record) {db' : Db}
    {p q : Proc (Op P) Op.Resp Failure Locals Outcome} (h : Alone (imp.perform run env) p db q db')
    (hdb : record.db = db) :
    ∃ n, Runs.run imp.step ⟨record, some ⟨run, settings, p⟩⟩ (List.replicate n (.advance env)) =
      some ⟨{ record with db := db' }, some ⟨run, settings, q⟩⟩ := by
  induction h generalizing record with
  | refl p db =>
    subst hdb
    exact ⟨0, rfl⟩
  | op h ih =>
    subst hdb
    obtain ⟨n, hn⟩ := ih { record with db := _ } rfl
    exact ⟨n + 1, hn⟩

/-- **A call gets to its fetch**, of at least one block. -/
theorem call_fetches (run : Uuid) (settings : Settings) {s : State P} {tip : ObservedBlock} {next : Block}
    {blocks height : ℕ} (hinv : imp.RowInv C s.record.db row)
    (hrow : imp.row s.record.db = some row) (hstatus : row.status ≠ .complete)
    (hstart : row.coverageStartHeight = imp.stream.activationHeight)
    (hnext : row.next = some next)
    (hblocks : blocksThroughFloor next.height row.floorHeight = .ok blocks)
    (hcall : s.call = none) (hq : ¬ row.quarantined) (hcurrent : imp.IsCurrent s.record.db)
    (henv : env.Quiet) (htip : tip.height = some height)
    (hle : imp.stream.activationHeight ≤ height) :
    ∃ n t, Runs.run imp.step s (.call run tip settings :: List.replicate n (.advance env)) = some t ∧
      t.next? = some (.fetch next.observed (min blocks row.effectivePageBlocks)) := by
  obtain ⟨row', db', hyields, hnext', hfloor', hpage', hinstances⟩ :=
    yields_prepareCycle run settings.pageBlocks henv hinv.scope hrow hinv.valid
      hstart hstatus htip hle
  have hrun : Yields (imp.perform run env) (runHistory imp.stream tip settings) s.record.db
      (.inl ⟨row', 0, 0, decide (row'.floorHash = none)⟩) db' := by
    refine (yields_scopeIsCurrent henv hcurrent).bind ?_
    refine (yields_isQuarantined henv hinv.scope hrow hq).bind ?_
    exact hyields.bind (yields_pure _ _)
  have hcurrent' : imp.IsCurrent db' := by
    intro slot hslot hid
    rw [← hcurrent slot hslot hid, Db.currentInstance, Db.currentInstance, hinstances]
  obtain ⟨q, hq', hfetch⟩ := alone_iterate run settings
    (l := ⟨row', 0, 0, decide (row'.floorHash = none)⟩) henv hcurrent' (hnext'.trans hnext)
    (hfloor'.symm ▸ hblocks)
  obtain ⟨m, hm⟩ := run_alone settings s.record hrun rfl
  obtain ⟨n, hn⟩ := run_alone settings { s.record with db := db' } hq' rfl
  have hfetches : q.next? = some (.fetch next.observed (min blocks row.effectivePageBlocks)) := by
    rw [hfetch, hpage']
  refine ⟨m + (1 + n), ⟨{ s.record with db := db' }, some ⟨run, settings, q⟩⟩, ?_, hfetches⟩
  rw [run_cons_eq_some]
  refine ⟨⟨s.record, some ⟨run, settings, runHistory imp.stream tip settings⟩⟩, ?_, ?_⟩
  · simp [Import.step, hcall]
  · rw [List.replicate_add, List.replicate_add, run_append]
    change (Runs.run imp.step ⟨s.record, some ⟨run, settings, (runHistory imp.stream tip settings).run⟩⟩
      _).bind _ = _
    rw [hm, Option.bind_some, run_append]
    exact hn

end

/-- A cursor above its floor has a block to walk. -/
theorem blocksThroughFloor_of_above {height : ℕ} {floorHeight : Option ℕ}
    (h : ∀ floor, floorHeight = some floor → floor < height) :
    ∃ blocks, 0 < blocks ∧ blocksThroughFloor height floorHeight = .ok blocks := by
  cases floorHeight with
  | none => exact ⟨height + 1, by omega, rfl⟩
  | some floor =>
    have hlt : floor < height := h floor rfl
    refine ⟨height - floor, by omega, ?_⟩
    have hpos : 0 < height - floor := by omega
    rw [blocksThroughFloor, expect_eq_ok, checkedSub, if_pos hlt.le, Option.filter_some,
      if_pos (decide_eq_true hpos)]

/-- **What is left can be resumed**, as long as no cycle is begun towards a target below the
activation height: what has not completed has a cursor above its floor and a target at or
above its start, its distance to the floor is well defined, and a call on it gets to the
fetch of a page, unless the scope is suspended, its instance is not current or the tip is
below the activation height. -/
theorem scope_resumable [Digests] (imp : Import P) {as : List (Action P)} {s : State P}
    {row : CoverageRow} (habove : Along imp.step imp.TowardsAbove State.empty as)
    (hrun : Runs.run imp.step State.empty as = some s) (hrow : imp.row s.record.db = some row)
    (hstatus : row.status = .running ∨ row.status = .error ∨ row.status = .superseded) :
    ∃ next blocks, row.next = some next ∧
      (∀ floor, row.floorHeight = some floor → floor < next.height) ∧
      row.coverageStartHeight ≤ row.targetTip.height ∧
      blocksThroughFloor next.height row.floorHeight = .ok blocks ∧
      (s.call = none → ¬ row.quarantined → imp.IsCurrent s.record.db →
        ∀ (run : Uuid) (tip : ObservedBlock) (settings : Settings) (env : Environment P) (height : ℕ),
          env.Quiet → tip.height = some height → imp.stream.activationHeight ≤ height →
          ∃ n t requested, 0 < requested ∧
            Runs.run imp.step s (.call run tip settings :: List.replicate n (.advance env)) =
              some t ∧ t.next? = some (.fetch next.observed requested)) := by
  have hinv : imp.Inv towardsAbove s := Import.reachable_inv (habove.mono fun _ _ h => h.holds) hrun
  have hrowInv : imp.RowInv towardsAbove s.record.db row := hinv.durable.row row hrow
  have hnot : row.status ≠ .complete := by
    rcases hstatus with h | h | h <;> simp [h]
  obtain ⟨next, hnext⟩ := Option.ne_none_iff_exists'.mp
    (mt hrowInv.valid.2.2.2.2.2.2.2.mpr hnot)
  obtain ⟨hle, hfloor⟩ := hrowInv.resumable trivial next hnext
  have hstart : row.coverageStartHeight = imp.stream.activationHeight :=
    (hinv.durable.certified.start _ row hrow).trans imp.startOf_key
  obtain ⟨blocks, hpos, hblocks⟩ := blocksThroughFloor_of_above hfloor
  refine ⟨next, blocks, hnext, hfloor, hstart ▸ hle, hblocks, ?_⟩
  intro hcall hq hcurrent run tip settings env height henv htip htop
  obtain ⟨n, t, ht, hfetch⟩ := call_fetches run settings hrowInv hrow hnot hstart hnext hblocks hcall
    hq hcurrent henv htip htop
  have hpage : 0 < row.effectivePageBlocks := hrowInv.valid.2.2.2.2.2.2.1
  exact ⟨n, t, _, by omega, ht, hfetch⟩

/-! ### A target replaced by a tip below the start -/

namespace Replacement

theorem activationHeight : 5 = (NodeHistory 5 none).activationHeight := rfl

/-- The import of a node's blocks from height 5. -/
def nodeImport : Import MainchainBlock where
  stream := NodeHistory 5 none
  source := .node
  datasetId := 0
  eventContractVersion := 9
  startOf := fun _ => 5
  start_eq := activationHeight

@[reducible] def digests : Digests := .ofPayloads []

/-- A node that has gone back to a block at height 3 and no longer has what it had. -/
def node : Environment MainchainBlock where
  shutdown := false
  fetched := .error (.status .notFound "not found")
  tip := .ok (.atHeight (bytes32 3) 3)
  now := .ok 0
  fault := none

/-- A call towards a tip, and a number of its operations. -/
def calls (tip : ObservedBlock) (operations : ℕ) : List (Action MainchainBlock) :=
  .call 0 tip ⟨100, 0⟩ :: List.replicate operations (.advance node)

/-- A call that is killed once it has begun its cycle. -/
def begun : List (Action MainchainBlock) :=
  .world (.initializeIdentity .node 0 0 9) :: calls (.atHeight (bytes32 2) 6) 3 ++ [.crash]

/-- A call whose target the node no longer has. -/
def replaced : List (Action MainchainBlock) :=
  .world (.initializeIdentity .node 0 0 9) :: calls (.atHeight (bytes32 2) 6) 12

end Replacement

/-- The cycle that was begun: its cursor is above its floor, and the next call fetches. -/
theorem scope_resumable_replacement :
    ∃ s row next blocks n t requested,
      Runs.run (@Import.step _ Replacement.digests Replacement.nodeImport) State.empty
        Replacement.begun = some s ∧
      Replacement.nodeImport.row s.record.db = some row ∧ row.next = some next ∧
      blocksThroughFloor next.height row.floorHeight = .ok blocks ∧
      Runs.run (@Import.step _ Replacement.digests Replacement.nodeImport) s
        (.call 0 (.atHeight (bytes32 2) 6) ⟨100, 0⟩ :: List.replicate n (.advance Replacement.node)) =
          some t ∧ 0 < requested ∧ t.next? = some (.fetch next.observed requested) := by
  let _ := Replacement.digests
  have hruns : ((Runs.run Replacement.nodeImport.step State.empty Replacement.begun).bind
      fun s => (Replacement.nodeImport.row s.record.db).filter fun row =>
        row.status = .running ∧ s.call.isNone).isSome := by
    decide +kernel
  have habove : Along Replacement.nodeImport.step Replacement.nodeImport.TowardsAbove State.empty
      Replacement.begun := by
    decide +kernel
  obtain ⟨row, hrow⟩ := Option.isSome_iff_exists.mp hruns
  obtain ⟨s, hs, hrow⟩ := Option.bind_eq_some_iff.mp hrow
  obtain ⟨hrow, hcheck⟩ := Option.filter_eq_some_iff.mp hrow
  obtain ⟨hstatus, hcall⟩ := of_decide_eq_true hcheck
  obtain ⟨next, blocks, hnext, -, -, hblocks, hresume⟩ := scope_resumable Replacement.nodeImport
    habove hs hrow (.inl hstatus)
  obtain ⟨n, t, requested, hpos, ht, hfetch⟩ := hresume (Option.isNone_iff_eq_none.mp hcall)
    (not_quarantined_of_running hstatus) (fun slot hslot => by cases hslot) 0 (.atHeight (bytes32 2) 6)
    ⟨100, 0⟩ Replacement.node 6 ⟨rfl, rfl⟩ rfl (by decide)
  exact ⟨s, row, next, blocks, n, t, requested, hs, hrow, hnext, hblocks, ht, hpos, hfetch⟩

/-- **A scope that is stuck.** The node answers that it does not have the target at height 6,
and that its tip is at height 3: the replacement walks from 3 towards a floor at 4. The
call fails there, and so does a call after the node's chain has grown again. -/
theorem scope_stuck :
    ∃ s t row next, Runs.run (@Import.step _ Replacement.digests Replacement.nodeImport) State.empty
        Replacement.replaced = some s ∧
      Runs.run (@Import.step _ Replacement.digests Replacement.nodeImport) s
        (Replacement.calls (.atHeight (bytes32 9) 9) 5) = some t ∧ t.call.isNone ∧
      Replacement.nodeImport.row s.record.db = some row ∧
      Replacement.nodeImport.row t.record.db = some row ∧ row.status = .running ∧
      row.next = some next ∧ next.height < 4 ∧ row.floorHeight = some 4 ∧
      row.targetTip.height < row.coverageStartHeight := by
  let _ := Replacement.digests
  have hruns : ((Runs.run Replacement.nodeImport.step State.empty Replacement.replaced).bind
      fun s => (Runs.run Replacement.nodeImport.step s
          (Replacement.calls (.atHeight (bytes32 9) 9) 5)).bind
        fun t => (Replacement.nodeImport.row s.record.db).bind
          fun row => row.next.filter fun next =>
            t.call.isNone ∧ Replacement.nodeImport.row t.record.db = some row ∧
              row.status = .running ∧ next.height < 4 ∧ row.floorHeight = some 4 ∧
              row.targetTip.height < row.coverageStartHeight).isSome := by
    decide +kernel
  obtain ⟨next, hnext⟩ := Option.isSome_iff_exists.mp hruns
  obtain ⟨s, hs, hnext⟩ := Option.bind_eq_some_iff.mp hnext
  obtain ⟨t, ht, hnext⟩ := Option.bind_eq_some_iff.mp hnext
  obtain ⟨row, hrow, hnext⟩ := Option.bind_eq_some_iff.mp hnext
  obtain ⟨hnext, hcheck⟩ := Option.filter_eq_some_iff.mp hnext
  obtain ⟨hcall, hsame, hstatus, hbelow, hfloor, htarget⟩ := of_decide_eq_true hcheck
  exact ⟨s, t, row, next, hs, ht, hcall, hrow, hsame, hstatus, hnext, hbelow, hfloor, htarget⟩

end Bip300Monitor.Backfill
