import Bip300Monitor.Backfill.Loop

/-!
# Calls, crashes and the rest of the monitor

The invariant of an import over whole runs: any number of calls, each cut short at any
operation or not, among everything else that writes the record.

## What is proved

* `Import.step_inv` — one step keeps the invariant, and a suspended scope suspended;
* `Import.reachable_inv` — so does every run that meets the assumptions.
-/

namespace Bip300Monitor.Backfill

open Protobuf Transaction Runs Resumption

variable {P : Type} [Digests] {C : Conditions} {imp : Import P}

/-- What holds in every state a run leads to. -/
structure Import.Inv (C : Conditions) (imp : Import P) (s : State P) : Prop where
  record : s.record.Inv imp.startOf
  durable : imp.Durable C s.record.db
  call : ∀ c, s.call = some c →
    Proc.Good (imp.interface C c.run) (fun l t => imp.LoopInv l t.1) c.proc ⟨s.record.db, durable⟩

theorem Import.inv_empty : imp.Inv C State.empty where
  record := ⟨CertifiedPrefix.empty, by simp [State.empty, Record.empty]⟩
  durable := {
    certified := CertifiedPrefix.empty
    honest := fun _ e he => by cases he
    row := fun row hrow => by cases hrow }
  call c hc := by cases hc

/-- The loop invariant survives the rest of the monitor. -/
theorem stable_loopInv (run : Uuid) (l : Locals) :
    Stable (imp.interface C run) fun t => imp.LoopInv l t.1 :=
  fun _ _ h hr => h.rely hr

/-- What a step does: it keeps the invariant and what is suspended. -/
structure Import.Keeps (C : Conditions) (imp : Import P) (s t : State P) : Prop where
  inv : imp.Inv C t
  quarantined : C.sticky → imp.Quarantined s.record.db → imp.Quarantined t.record.db

variable {s t : State P}

/-- The rest of the monitor writes the record. -/
theorem Import.Inv.world {command : Command} (h : imp.Inv C s) (hC : imp.Holds C s (.world command))
    (hkey : command.coverageKey ≠ some imp.key) (hread : command.coveredTips ⊆ s.record.readings) :
    imp.Keeps C s { s with
      record := ⟨s.record.db.exec imp.startOf command, s.record.readings ++ command.reads s.record.db⟩ } := by
  have hstep : s.record.step imp.startOf command = some _ := if_pos hread
  have hrecord := Record.step_inv _ _ _ h.record hstep
  obtain ⟨hsafe, hrely⟩ := Import.world_safe h.durable hkey hC
    (s.record.db.exec_keeps command fun p hp => h.record.2 p (hread hp))
  refine ⟨⟨hrecord, hsafe.durable, fun c hc => ?_⟩, hsafe.quarantined⟩
  exact good_rely (stable_loopInv c.run) (h.call c hc) hrely

/-- **The next operation of a call**: it may be performed, and afterwards the rest of the
call is still good. -/
theorem Import.Inv.op {env : Environment P} {run : Uuid} {settings : Settings} {e : Op P}
    {k : e.Resp → Proc (Op P) Op.Resp Failure Locals Outcome} (h : imp.Inv C s)
    (hC : imp.Holds C s (.advance env)) (hcall : s.call = some ⟨run, settings, .op e k⟩) :
    imp.Keeps C s ⟨{ s.record with db := (imp.perform run env s.record.db e).2 },
      some ⟨run, settings, k (imp.perform run env s.record.db e).1⟩⟩ := by
  have hgood := h.call _ hcall
  have hguard : imp.Guard C env s.record.db e := hC e (by simp [State.next?, hcall, Prog.next?])
  have hsafe : imp.Safe C s.record.db (imp.perform run env s.record.db e).2 :=
    Import.perform_safe h.durable hguard (good_pre hgood)
  refine ⟨⟨⟨hsafe.durable.certified, fun p hp => ?_⟩, hsafe.durable, fun c hc => ?_⟩,
    hsafe.quarantined⟩
  · obtain ⟨b, hb, hcert⟩ := h.record.2 p hp
    exact ⟨b, hb, hcert.mono hsafe.certified⟩
  · cases hc
    exact good_advance hgood ⟨env, hguard, rfl⟩

/-- **One step keeps the invariant.** -/
theorem Import.step_inv {a : Action P} (h : imp.Inv C s) (hC : imp.Holds C s a)
    (hstep : imp.step s a = some t) : imp.Keeps C s t := by
  cases Import.step_cases hstep with
  | world command hkey hread => exact h.world hC hkey hread
  | call run tip settings =>
    refine ⟨⟨h.record, h.durable, fun c hc => ?_⟩, fun _ hq => hq⟩
    cases hc
    exact runHistory_good tip settings
  | op env hcall => exact h.op hC hcall
  | @round env run settings l hcall =>
    have hl : imp.LoopInv l s.record.db := h.call _ hcall _ rfl l rfl
    refine ⟨⟨h.record, h.durable, fun c hc => ?_⟩, fun _ hq => hq⟩
    cases hc
    exact iterate_good hl
  | leave | crash => exact ⟨⟨h.record, h.durable, fun c hc => by cases hc⟩, fun _ hq => hq⟩

/-- **Every run that meets the assumptions keeps it.** -/
theorem Import.reachable_inv {as : List (Action P)} (hC : Along imp.step (imp.Holds C) State.empty as)
    (h : Runs.run imp.step State.empty as = some s) : imp.Inv C s :=
  run_invariant_along (fun _ _ _ hs hC hstep => (Import.step_inv hs hC hstep).inv)
    Import.inv_empty hC h

end Bip300Monitor.Backfill
