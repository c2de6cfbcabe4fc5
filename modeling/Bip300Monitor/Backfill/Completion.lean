import Bip300Monitor.Backfill.PageSizes
import Bip300Monitor.Backfill.Walking

/-!
# A history that is served completes

What keeps a call of `run_history` from its end is its surroundings: an upstream that does not answer, a
connection to the record that fails, a run that closes, an instance that is replaced, a process that is
killed. When none of this happens the call ends, whatever else is written in between and however the
upstream divides the blocks: after a number of steps that is known when it begins.

## What is proved

* `Import.step_onTime` — a step leaves the rest of the call enough time;
* `history_completes` — a call that is served returns in time and never fails. Afterwards the scope is
  complete, with a chain of facts down to its start, or a conflict among facts has suspended it.
-/

namespace Bip300Monitor.Backfill

open Protobuf Transaction Runs Resumption

variable {P : Type}

/-- The call takes a step. -/
def Action.isAdvance : Action P → Bool
  | .advance _ => true
  | _ => false

/-- The scope is complete, and facts lead from what it covers down to its start, or it is suspended. -/
def Import.Settled (imp : Import P) (target : Block) (db : Db) : Prop :=
  (∃ row b chain, imp.row db = some row ∧ row.status = .complete ∧ row.coveredTip = some b ∧
    b.hash = target.hash ∧ IsFactChain db imp.key b imp.stream.activationHeight chain) ∨ imp.Suspended db

section
variable [Digests]

/-- What the surroundings of a call do: they write truly, and keep its run open and its instance current;
they answer what it asks; they neither kill it nor call another. -/
def Import.Cooperates (imp : Import P) (hdr : Headers) (run : Uuid) (s : State P) : Action P → Prop
  | .world command => (∀ event ∈ command.events, imp.HonestEvent hdr event) ∧
      imp.Stands run (s.record.db.exec imp.startOf command)
  | .advance env => ∀ e, s.next? = some e → imp.Answers hdr env e
  | .call .. | .crash => False

variable {C : Conditions} {imp : Import P} {hdr : Headers} {run : Uuid} {target : Block} {bound n : ℕ}
  {s t : State P}

/-! ### Before the call -/

theorem Import.step_booked {a : Action P} (h : imp.Inv C s) (hbooked : s.record.db.Booked)
    (hstep : imp.step s a = some t) : t.record.db.Booked := by
  cases Import.step_cases hstep with
  | world command => exact s.record.db.exec_booked imp.startOf command hbooked
  | op env hcall => exact perform_booked env (good_pre (h.call _ hcall)) hbooked
  | call | round | leave | crash => exact hbooked

theorem Import.reachable_booked {as : List (Action P)}
    (hC : Along imp.step (imp.Holds C) State.empty as) (h : Runs.run imp.step State.empty as = some s) :
    imp.Inv C s ∧ s.record.db.Booked :=
  run_invariant_along (I := fun s => imp.Inv C s ∧ s.record.db.Booked)
    (fun _ _ _ hs hC hstep => ⟨(Import.step_inv hs.1 hC hstep).inv, Import.step_booked hs.1 hs.2 hstep⟩)
    ⟨Import.inv_empty, .empty⟩ hC h

/-! ### The call -/

/-- What holds of a call that is served, `n` of its steps from its beginning. -/
structure Import.OnTime (imp : Import P) (hdr : Headers) (run : Uuid) (target : Block) (bound : ℕ)
    (s : State P) (n : ℕ) : Prop where
  record : s.record.Inv imp.startOf
  ready : imp.Ready (served hdr) run s.record.db
  time : n ≤ bound
  call : ∀ c, s.call = some c → c.run = run ∧ Proc.Within (imp.serving hdr run) bound
    (fun l t m => imp.WalksOn target bound l t.1 m) (fun o t m => imp.IsOut target bound o t.1 m)
    c.proc ⟨s.record.db, ready⟩ n
  returned : s.call = none → ∃ o, imp.Left target o s.record.db

theorem stable_walksOn (l : Locals) (m : ℕ) :
    Stable (imp.serving hdr run) fun t => imp.WalksOn target bound l t.1 m :=
  fun _ _ h hst => ⟨h.1.goes hst, h.2⟩

theorem stable_isOut (o : Outcome) (m : ℕ) :
    Stable (imp.serving hdr run) fun t => imp.IsOut target bound o t.1 m :=
  fun _ _ h hst => ⟨h.1.goes hst, h.2⟩

/-- What the rest of the monitor writes does not hold the call up. -/
theorem Import.OnTime.world {command : Command} (h : imp.OnTime hdr run target bound s n)
    (hcooperates : imp.Cooperates hdr run s (.world command)) (hkey : command.coverageKey ≠ some imp.key)
    (hread : command.coveredTips ⊆ s.record.readings) :
    imp.OnTime hdr run target bound { s with
      record := ⟨s.record.db.exec imp.startOf command, s.record.readings ++ command.reads s.record.db⟩ }
      n := by
  have hstep : s.record.step imp.startOf command = some _ := if_pos hread
  have hrecord := Record.step_inv _ _ _ h.record hstep
  obtain ⟨hsafe, hrely⟩ := Import.world_safe h.ready.durable hkey (fun _ => hcooperates.1)
    (s.record.db.exec_keeps command fun p hp => h.record.2 p (hread hp))
  have hgoes : imp.Goes s.record.db (s.record.db.exec imp.startOf command) :=
    ⟨hrely, exec_conflicts imp.startOf _ command⟩
  have hready : imp.Ready (served hdr) run (s.record.db.exec imp.startOf command) := {
    durable := hsafe.durable
    booked := s.record.db.exec_booked imp.startOf command h.ready.booked
    sized := fun row hrow => h.ready.sized row (hrely.row ▸ hrow)
    stands := hcooperates.2 }
  refine ⟨hrecord, hready, h.time, fun c hc => ?_, fun hnone => ?_⟩
  · obtain ⟨hrun, hwithin⟩ := h.call c hc
    exact ⟨hrun, within_rely stable_walksOn stable_isOut hwithin hgoes⟩
  · obtain ⟨o, ho⟩ := h.returned hnone
    exact ⟨o, ho.goes hgoes⟩

/-- An operation of the call is one that it has time for. -/
theorem Import.OnTime.op {env : Environment P} {r : Uuid} {settings : Settings} {e : Op P}
    {k : e.Resp → Proc (Op P) Op.Resp Failure Locals Outcome} (h : imp.OnTime hdr run target bound s n)
    (hcooperates : imp.Cooperates hdr run s (.advance env)) (hcall : s.call = some ⟨r, settings, .op e k⟩) :
    imp.OnTime hdr run target bound ⟨{ s.record with db := (imp.perform r env s.record.db e).2 },
      some ⟨r, settings, k (imp.perform r env s.record.db e).1⟩⟩ (n + 1) := by
  obtain ⟨hr, hwithin⟩ := h.call _ hcall
  obtain rfl : r = run := hr
  have henv := hcooperates e (by simp [State.next?, hcall, Prog.next?])
  obtain ⟨⟨hpre, hdue⟩, htime⟩ := within_pre hwithin
  have hready := perform_ready h.ready hpre hdue henv
  have hsafe : imp.Safe (served hdr) s.record.db (imp.perform r env s.record.db e).2 :=
    Import.perform_safe h.ready.durable (henv.guard hdue) hpre
  refine ⟨⟨hready.durable.certified, fun p hp => ?_⟩, hready, htime, fun c hc => ?_,
    fun hnone => (by cases hnone)⟩
  · obtain ⟨b, hb, hcert⟩ := h.record.2 p hp
    exact ⟨b, hb, hcert.mono hsafe.certified⟩
  · cases hc
    exact ⟨rfl, within_advance hwithin ⟨env, henv, rfl⟩⟩

/-- **A step leaves the rest of the call enough time.** -/
theorem Import.step_onTime {a : Action P} (h : imp.OnTime hdr run target bound s n)
    (hcooperates : imp.Cooperates hdr run s a) (hstep : imp.step s a = some t) :
    imp.OnTime hdr run target bound t (n + if a.isAdvance then 1 else 0) := by
  cases Import.step_cases hstep with
  | world command hkey hread => exact h.world hcooperates hkey hread
  | op env hcall => exact h.op hcooperates hcall
  | round env hcall =>
    obtain ⟨hr, hwithin⟩ := h.call _ hcall
    rcases within_ret hwithin with ⟨l, ⟨⟩, hwalking, htime⟩ | ⟨o, ho, -, -⟩
    · refine ⟨h.record, h.ready, (Nat.le_add_right _ _).trans htime, fun c hc => ?_,
        fun hnone => (by cases hnone)⟩
      cases hc
      exact ⟨hr, timely_iterate hwalking htime⟩
    · cases ho
  | leave env hcall hproc hleft =>
    obtain ⟨-, hwithin⟩ := h.call _ hcall
    rw [hproc] at hwithin
    rcases within_ret hwithin with ⟨l, hl, -, -⟩ | ⟨o, -, hout, htime⟩
    · exact absurd hl (hleft l)
    · exact ⟨h.record, h.ready, htime, fun _ hc => (by cases hc), fun _ => ⟨o, hout⟩⟩
  | call | crash => exact hcooperates.elim

/-- So does a run. -/
theorem Import.run_onTime {bs : List (Action P)} (h : imp.OnTime hdr run target bound s n)
    (hcooperates : Along imp.step (imp.Cooperates hdr run) s bs)
    (hrun : Runs.run imp.step s bs = some t) :
    imp.OnTime hdr run target bound t (n + bs.countP Action.isAdvance) := by
  induction bs generalizing s n with
  | nil =>
    cases hrun
    exact h
  | cons a bs ih =>
    obtain ⟨u, hu, hrun⟩ := run_cons_eq_some.mp hrun
    have hrest := ih (Import.step_onTime h hcooperates.1 hu) (hcooperates.2 u hu) hrun
    rw [List.countP_cons, ← Nat.add_assoc, Nat.add_right_comm]
    exact hrest

/-- A call that has not returned has a step left to take, and has not failed. -/
theorem Import.OnTime.lt {c : Call P} (h : imp.OnTime hdr run target bound s n) (hc : s.call = some c) :
    n < bound ∧ ∀ error, c.proc ≠ .ret (.error error) := by
  obtain ⟨-, hwithin⟩ := h.call c hc
  obtain ⟨r, settings, proc⟩ := c
  cases proc with
  | ret r =>
    rcases within_ret hwithin with ⟨l, rfl, -, htime⟩ | ⟨o, rfl, -, htime⟩
    · exact ⟨by omega, fun _ h => (by cases h)⟩
    · exact ⟨htime, fun _ h => (by cases h)⟩
  | op e k => exact ⟨(within_pre hwithin).2, fun _ h => (by cases h)⟩

omit [Digests] in
/-- What a call has left behind. -/
theorem Import.Left.settled {o : Outcome} {db : Db} (h : imp.Left target o db)
    (hdb : CertifiedPrefix imp.startOf db) : imp.Settled target db := by
  have complete (h : imp.Complete target db) : imp.Settled target db := by
    obtain ⟨row, b, hrow, hstatus, hcovered, hhash⟩ := h
    obtain ⟨c, hc, hscope, hcHash, hcHeight⟩ := hdb.covered imp.key row b hrow hcovered
    obtain ⟨chain, hchain⟩ := hdb.exists_factChain hc
    rw [hscope, hcHash, hcHeight, imp.startOf_key] at hchain
    exact .inl ⟨row, b, chain, hrow, hstatus, hcovered, hhash, hchain⟩
  cases o with
  | upToDate => exact complete h
  | completed => exact complete h
  | quarantined => exact .inr h
  | deferred | superseded | interrupted => exact h.elim

/-- **A history that is served completes.** From any state that calls, crashes and whatever else was written
have led to, in which the scope is not suspended: once `run_history` is called, whatever else is written and
however the upstream divides the blocks, the call never fails, and has returned after at most
`16 * (height + 1) + 5 * page + 11` steps, where `height` is that of the block it walks down from and `page`
the size of its first page. Then that block is covered, and facts lead from it down to the activation height,
or a retained conflict has suspended the scope. -/
theorem history_completes (imp : Import P) (hdr : Headers) {as bs : List (Action P)} {s t : State P}
    {run : Uuid} {tip : Block} {settings : Settings}
    (hholds : Along imp.step (imp.Holds (served hdr)) State.empty as)
    (hconfigured : ∀ a ∈ as, Configured a) (hreached : Runs.run imp.step State.empty as = some s)
    (hq : ¬ imp.Quarantined s.record.db) (hstands : imp.Stands run s.record.db)
    (htip : imp.Targets tip) (hsettings : settings.Configured)
    (hcooperates : ∀ u, imp.step s (.call run tip.observed settings) = some u →
      Along imp.step (imp.Cooperates hdr run) u bs)
    (hrun : Runs.run imp.step s (.call run tip.observed settings :: bs) = some t) :
    let target := imp.goal tip s.record.db
    let steps := allowance target (imp.page settings.pageBlocks s.record.db)
    bs.countP Action.isAdvance ≤ steps ∧
      (∀ c, t.call = some c → bs.countP Action.isAdvance < steps ∧ ∀ error, c.proc ≠ .ret (.error error)) ∧
      (t.call = none → imp.Settled target t.record.db) := by
  intro target steps
  obtain ⟨hinv, hbooked⟩ := Import.reachable_booked hholds hreached
  have hsized := (run_bounded Import.Bounded.empty hconfigured hreached).1.sized
  obtain ⟨u, hu, hrun⟩ := run_cons_eq_some.mp hrun
  have halong := hcooperates u hu
  simp only [Import.step] at hu
  split_ifs at hu
  cases hu
  have hready : imp.Ready (served hdr) run s.record.db := {
    durable := hinv.durable
    booked := hbooked
    sized := fun row hrow => (hsized row hrow).2.trans (by decide)
    stands := hstands }
  have hcalled : imp.OnTime hdr run target steps
      { s with call := some ⟨run, settings, runHistory imp.stream tip.observed settings⟩ } 0 := by
    refine ⟨hinv.record, hready, Nat.zero_le _, fun c hc => ?_, fun hnone => (by cases hnone)⟩
    cases hc
    have hstart := timely_runHistory (s := ⟨s.record.db, hready⟩) htip hq hsettings.1
      (hsettings.2.trans (by decide)) (Nat.zero_add steps).le
    exact ⟨rfl, hstart⟩
  have honTime := Import.run_onTime hcalled halong hrun
  rw [Nat.zero_add] at honTime
  refine ⟨honTime.time, fun c hc => honTime.lt hc, fun hnone => ?_⟩
  obtain ⟨o, ho⟩ := honTime.returned hnone
  exact ho.settled honTime.ready.durable.certified

end

/-! ### A node's two blocks, asked for and served -/

namespace TwoBlocks

open Bip300Monitor.TwoBlocks

theorem nodeStream : nodeImport.stream = NodeHistory 5 none := rfl

/-- A run is begun. -/
def begun : List (Action MainchainBlock) := [.world (.initializeIdentity .node 0 0 9)]

/-- A state's request, if it makes one, is for both blocks. -/
def AsksForBoth (s : State MainchainBlock) : Prop :=
  s.request? = none ∨ s.request? = some (.atHeight (bytes32 2) 6, 2)

instance (s : State MainchainBlock) : Decidable (AsksForBoth s) := inferInstanceAs (Decidable (_ ∨ _))

theorem begun_holds : ∀ a ∈ begun, ∀ s, nodeImport.Holds (served headers) s a := by
  intro a ha s
  rw [List.mem_singleton.mp ha]
  exact fun _ event hevent => (by cases hevent)

/-- The node serves both. -/
theorem serves : nodeImport.Serves headers ⟨bytes32 2, 6⟩ 2 node.fetched := by
  have hpage : IsPage ⟨bytes32 2, 6⟩ [⟨bytes32 2, bytes32 1, 6, [], [], 0⟩,
      ⟨bytes32 1, bytes32 0, 5, [], [], 0⟩] := ⟨rfl, by simp [Follows]⟩
  refine .page (.cons ⟨rfl, ?_⟩ (.cons ⟨rfl, ?_⟩ .nil)) (hpage.wellFormed le_rfl) (fun h hh => ?_)
    fun _ _ _ hash hhash => (by cases hhash)
  · exact recordable_node nodeStream rfl (by decide) (by decide)
  · exact recordable_node nodeStream rfl (by decide) (by decide)
  · simp only [List.mem_cons, List.not_mem_nil, or_false] at hh
    rcases hh with rfl | rfl
    · exact ⟨rfl, rfl⟩
    · exact ⟨by decide, by decide⟩

/-- It cooperates with a call that asks for both. -/
theorem cooperates [Digests] {s : State MainchainBlock} (h : AsksForBoth s) :
    nodeImport.Cooperates headers 0 s (.advance node) := by
  intro e he
  refine ⟨⟨rfl, rfl⟩, ⟨0, rfl⟩, ?_⟩
  rintro b requested rfl
  have hrequest : s.request? = some (b.observed, requested) := by
    rw [State.request?, he]
    rfl
  rcases h with h | h
  · rw [hrequest] at h
    cases h
  · rw [hrequest] at h
    obtain ⟨hb, rfl⟩ := Prod.mk.inj (Option.some.inj h)
    obtain rfl : b = ⟨bytes32 2, 6⟩ := observed_injective hb
    exact serves

theorem cooperates_replicate [Digests] (n : ℕ) (s : State MainchainBlock)
    (h : Along nodeImport.step (fun s _ => AsksForBoth s) s (List.replicate n (.advance node))) :
    Along nodeImport.step (nodeImport.Cooperates headers 0) s (List.replicate n (.advance node)) := by
  induction n generalizing s with
  | zero => trivial
  | succ n ih => exact ⟨cooperates h.1, fun t ht => ih t (h.2 t ht)⟩

end TwoBlocks

/-- Both blocks are covered, in eleven steps. -/
theorem history_completes_twoBlocks :
    ∃ s t, Runs.run (@Import.step _ TwoBlocks.digests TwoBlocks.nodeImport) State.empty TwoBlocks.begun =
        some s ∧
      Runs.run (@Import.step _ TwoBlocks.digests TwoBlocks.nodeImport) s
        (.call 0 (Block.observed ⟨bytes32 2, 6⟩) ⟨100, 0⟩ :: List.replicate 11 (.advance TwoBlocks.node)) =
        some t ∧
      t.call = none ∧ TwoBlocks.nodeImport.Settled ⟨bytes32 2, 6⟩ t.record.db := by
  let _ := TwoBlocks.digests
  have hruns : ((Runs.run TwoBlocks.nodeImport.step State.empty TwoBlocks.begun).bind fun s =>
      (Runs.run TwoBlocks.nodeImport.step s (.call 0 (Block.observed ⟨bytes32 2, 6⟩) ⟨100, 0⟩ ::
        List.replicate 11 (.advance TwoBlocks.node))).filter fun t => t.call.isNone ∧
          (TwoBlocks.nodeImport.row s.record.db).isNone ∧ s.record.db.isRunning 0 ∧
          Along TwoBlocks.nodeImport.step (fun s _ => TwoBlocks.AsksForBoth s)
            { s with call := some ⟨0, ⟨100, 0⟩, runHistory TwoBlocks.nodeImport.stream
              (Block.observed ⟨bytes32 2, 6⟩) ⟨100, 0⟩⟩ }
            (List.replicate 11 (.advance TwoBlocks.node))).isSome := by
    decide +kernel
  obtain ⟨t, ht⟩ := Option.isSome_iff_exists.mp hruns
  obtain ⟨s, hs, ht⟩ := Option.bind_eq_some_iff.mp ht
  obtain ⟨ht, hcheck⟩ := Option.filter_eq_some_iff.mp ht
  obtain ⟨hcall, hrow, hrunning, hasks⟩ := of_decide_eq_true hcheck
  have hnoRow : TwoBlocks.nodeImport.row s.record.db = none := Option.isNone_iff_eq_none.mp hrow
  have hcooperates : ∀ u, TwoBlocks.nodeImport.step s (.call 0 (Block.observed ⟨bytes32 2, 6⟩) ⟨100, 0⟩) =
      some u → Along TwoBlocks.nodeImport.step (TwoBlocks.nodeImport.Cooperates TwoBlocks.headers 0) u
        (List.replicate 11 (.advance TwoBlocks.node)) := by
    intro u hu
    simp only [Import.step] at hu
    split_ifs at hu
    cases hu
    exact TwoBlocks.cooperates_replicate 11 _ hasks
  have hstands : TwoBlocks.nodeImport.Stands 0 s.record.db :=
    ⟨hrunning, fun _ h => (by cases h), fun _ h => (by cases h)⟩
  have hunsuspended : ¬ TwoBlocks.nodeImport.Quarantined s.record.db := by
    rintro ⟨row, hrow, -⟩
    rw [hnoRow] at hrow
    cases hrow
  have hgoal : TwoBlocks.nodeImport.goal ⟨bytes32 2, 6⟩ s.record.db = ⟨bytes32 2, 6⟩ := by
    rw [Import.goal, hnoRow]
    rfl
  obtain ⟨-, -, hsettled⟩ := history_completes TwoBlocks.nodeImport TwoBlocks.headers
    (along_of_forall TwoBlocks.begun_holds) (fun a ha => by rw [List.mem_singleton.mp ha]; trivial) hs
    hunsuspended hstands ⟨rfl, fun _ h => (by cases h), by decide, by decide, by decide⟩
    ⟨by decide, by decide⟩
    hcooperates ht
  have hnone := Option.isNone_iff_eq_none.mp hcall
  exact ⟨s, t, hs, ht, hnone, hgoal ▸ hsettled hnone⟩

end Bip300Monitor.Backfill
