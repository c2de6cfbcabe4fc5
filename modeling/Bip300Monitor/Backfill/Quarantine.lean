import Bip300Monitor.Backfill.Calls

/-!
# Quarantine

A scope suspended by conflicting facts is meant to stay so until an operator changes it
(`docs/official-sources.md`). It does, unless a call finds its instance retired in the
meantime: `mark_superseded` comes before the test for quarantine and overwrites the mark,
and the next activation of the instance resumes the scope.

## What is proved

* `quarantine_sticky` — a suspended scope stays suspended over every run in which no call
  finds its instance retired while it is suspended;
* `quarantine_lost` — a run in which one does.
-/

namespace Bip300Monitor.Backfill

open Protobuf Transaction Runs Resumption

variable {P : Type}

/-- The slot whose current instance an operation asks for. -/
def Op.checkedSlot? : Op P → Option ℕ
  | .currentSidechainInstanceId slot => some slot
  | _ => none

instance (imp : Import P) (db : Db) : Decidable (imp.Quarantined db) :=
  inferInstanceAs (Decidable (∃ row ∈ imp.row db, row.quarantined))

/-- A check of the instance while the scope is suspended finds it current. -/
def Import.FoundCurrent (imp : Import P) (s : State P) : Action P → Prop
  | .advance _ => ∀ slot ∈ s.next?.bind Op.checkedSlot?, imp.Quarantined s.record.db →
      s.record.db.currentInstance imp.datasetId slot = imp.stream.scope.sidechainInstanceId
  | _ => True

instance (imp : Import P) (s : State P) (a : Action P) : Decidable (imp.FoundCurrent s a) :=
  match a with
  | .advance _ => inferInstanceAs (Decidable (∀ slot ∈ s.next?.bind Op.checkedSlot?, _))
  | .world _ | .call .. | .crash => inferInstanceAs (Decidable True)

/-- No call finds its instance retired while the scope is suspended. -/
def unretired : Conditions := { Conditions.none with sticky := True }

theorem Import.FoundCurrent.holds {imp : Import P} {s : State P} {a : Action P}
    (h : imp.FoundCurrent s a) : imp.Holds unretired s a := by
  cases a with
  | world command => exact fun hfalse => hfalse.elim
  | advance env =>
    intro e he
    cases e with
    | currentSidechainInstanceId slot =>
      exact fun _ => h slot (by rw [he]; rfl)
    | fetch | beginHistoryCycle => exact fun hfalse => hfalse.elim
    | _ => trivial
  | _ => trivial

/-- **Quarantine is sticky** as long as no call finds the instance of a suspended scope
retired: whatever else happens, a scope once suspended is still suspended later. -/
theorem quarantine_sticky [Digests] (imp : Import P) {as bs : List (Action P)} {s t : State P}
    (hcurrent : Along imp.step imp.FoundCurrent State.empty (as ++ bs))
    (hs : Runs.run imp.step State.empty as = some s) (hq : imp.Quarantined s.record.db)
    (ht : Runs.run imp.step s bs = some t) :
    ∃ row, imp.row t.record.db = some row ∧ row.status = .error ∧
      row.lastError = some historyConflict := by
  have hC : Along imp.step (imp.Holds unretired) State.empty (as ++ bs) :=
    hcurrent.mono fun _ _ h => h.holds
  obtain ⟨hCas, hCbs⟩ := along_append.mp hC
  have hinv : imp.Inv unretired s := Import.reachable_inv hCas hs
  have hboth : imp.Inv unretired t ∧ imp.Quarantined t.record.db := by
    refine run_invariant_along (I := fun u => imp.Inv unretired u ∧ imp.Quarantined u.record.db)
      (fun u a v hu ha hstep => ?_) ⟨hinv, hq⟩ (hCbs s hs) ht
    have hkeeps := Import.step_inv hu.1 ha hstep
    exact ⟨hkeeps.inv, hkeeps.quarantined trivial hu.2⟩
  obtain ⟨-, row, hrow, hstatus, herror⟩ := hboth
  exact ⟨row, hrow, hstatus, herror⟩

/-! ### A suspended scope that is retired and activated again -/

namespace Reactivation

theorem activationHeight : 5 = (BlockHistory slotNineInstance).activationHeight := rfl

/-- The import of slot 9. -/
def slotImport : Import (Option EnforcerEvent) where
  stream := BlockHistory slotNineInstance
  source := .enforcer
  datasetId := 0
  eventContractVersion := 9
  startOf := fun _ => 5
  start_eq := activationHeight

/-- The block at the activation height, with a BMM commitment or without. -/
def block (bmmCommitment : Option Bytes) : EnforcerEvent :=
  .blockConnected ⟨some ⟨bytes32 1, bytes32 0, 5, [], [], 0⟩, 9, bmmCommitment, []⟩

def tip : ObservedBlock := .atHeight (bytes32 1) 5

/-- The digests of the payloads. -/
@[reducible] def digests : Digests := .ofPayloads [
  (.enforcer (some (.sidechainProposals [])),
    0xfdbb66f97af044e4b88b0bb0a4789f8f014f98b53f5fe11102bd19f45d53c45b),
  (.enforcer (some (.activeSidechains [slotNine])),
    0xf2a242527941e63799fa9b77cce23743b8893a0c8ca5904f5b3f83c313c8bfb4),
  (.enforcer (some (.ctip ⟨9, none⟩)),
    0xc926e4b6406d363d36d8572666e12b78491845e7a94bbf2dd93fc9c512cb2aff),
  (.enforcer (some (.withdrawalBundleProposals ⟨9, []⟩)),
    0x6b01c0020dcb725db87b838cb1e0a9b719309745e260135c41c79fbdb0c3dec1),
  (.enforcer (some (.activeSidechains [])),
    0x37aa3970b6801c9d286464f7d86e50bf41c88e54c7b4d08f3ff61935b3f59c3c),
  (.enforcer (some (block none)),
    0x4237ff398e1e989446e511e80db563415d9ed11d4a66797f11fba71f8c556281),
  (.enforcer (some (block (some (bytes32 7)))),
    0x3d4e3274285ed63c885b4841e8c50b302a25e1f3848494ce433209c75f8c553d)]

/-- The enforcer's answers. -/
def enforcer : Environment (Option EnforcerEvent) where
  shutdown := false
  fetched := .ok [some (block (some (bytes32 7)))]
  tip := .ok tip
  now := .ok 0
  fault := none

def store : Store := ⟨.enforcer, 0, 0, 9⟩

/-- A reading of the state at the tip. -/
def reading (sidechains : List ActiveSidechain) : Action (Option EnforcerEvent) :=
  .world (.recordSnapshot store (stateReading sidechains) .poll (tipMatchedAt tip))

/-- A call and its first operations. -/
def calls (operations : ℕ) : List (Action (Option EnforcerEvent)) :=
  .call 0 tip ⟨100, 0⟩ :: List.replicate operations (.advance enforcer)

/-- A live block and the backfilled one disagree. -/
def suspended : List (Action (Option EnforcerEvent)) :=
  [.world (.initializeIdentity .enforcer 0 0 9), reading [slotNine],
    .world (.record store [⟨0, some tip, some (.enforcer (some (block none)))⟩] .live none)] ++
  calls 12

/-- The instance is retired, and active again after a call. -/
def reactivated : List (Action (Option EnforcerEvent)) :=
  [reading []] ++ calls 3 ++ [reading [slotNine]] ++ calls 4

end Reactivation

/-- Another call on the suspended scope, while its instance is current, leaves it
suspended. -/
theorem quarantine_sticky_secondCall :
    ∃ s t, Runs.run (@Import.step _ Reactivation.digests Reactivation.slotImport) State.empty
        Reactivation.suspended = some s ∧
      Runs.run (@Import.step _ Reactivation.digests Reactivation.slotImport) s
        (Reactivation.calls 3) = some t ∧
      ∃ row, Reactivation.slotImport.row t.record.db = some row ∧ row.status = .error ∧
        row.lastError = some historyConflict := by
  let _ := Reactivation.digests
  have hruns : ((Runs.run Reactivation.slotImport.step State.empty Reactivation.suspended).bind
      fun s => if Reactivation.slotImport.Quarantined s.record.db then
        Runs.run Reactivation.slotImport.step s (Reactivation.calls 3) else none).isSome := by
    decide +kernel
  have halong : Along Reactivation.slotImport.step Reactivation.slotImport.FoundCurrent State.empty
      (Reactivation.suspended ++ Reactivation.calls 3) := by
    decide +kernel
  obtain ⟨t, ht⟩ := Option.isSome_iff_exists.mp hruns
  obtain ⟨s, hs, ht⟩ := Option.bind_eq_some_iff.mp ht
  by_cases hq : Reactivation.slotImport.Quarantined s.record.db
  · rw [if_pos hq] at ht
    exact ⟨s, t, hs, ht, quarantine_sticky Reactivation.slotImport halong hs hq ht⟩
  · rw [if_neg hq] at ht
    cases ht

/-- **The mark is lost.** A call finds the instance of the suspended scope retired; once the
instance is active again, the next call resumes the scope. -/
theorem quarantine_lost :
    ∃ s t, Runs.run (@Import.step _ Reactivation.digests Reactivation.slotImport) State.empty
        Reactivation.suspended = some s ∧ Reactivation.slotImport.Quarantined s.record.db ∧
      Runs.run (@Import.step _ Reactivation.digests Reactivation.slotImport) s
        Reactivation.reactivated = some t ∧
      ∃ row, Reactivation.slotImport.row t.record.db = some row ∧ row.status = .running := by
  let _ := Reactivation.digests
  have hruns : ((Runs.run Reactivation.slotImport.step State.empty Reactivation.suspended).bind
      fun s => if Reactivation.slotImport.Quarantined s.record.db then
        (Runs.run Reactivation.slotImport.step s Reactivation.reactivated).filter fun t =>
          (Reactivation.slotImport.row t.record.db).any fun row => row.status = .running
        else none).isSome := by
    decide +kernel
  obtain ⟨t, ht⟩ := Option.isSome_iff_exists.mp hruns
  obtain ⟨s, hs, ht⟩ := Option.bind_eq_some_iff.mp ht
  by_cases hq : Reactivation.slotImport.Quarantined s.record.db
  · rw [if_pos hq] at ht
    obtain ⟨ht, hrow⟩ := Option.filter_eq_some_iff.mp ht
    rw [Option.any_eq_true] at hrow
    obtain ⟨row, hrow, hstatus⟩ := hrow
    exact ⟨s, t, hs, hq, ht, row, hrow, of_decide_eq_true hstatus⟩
  · rw [if_neg hq] at ht
    cases ht

end Bip300Monitor.Backfill
