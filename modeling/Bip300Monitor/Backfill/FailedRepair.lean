import Bip300Monitor.Backfill.Rounds

/-!
# The branch for a failed repair

`run_history` has a fatal branch for a branch of history that misses its floor although it was
already repaired. What the engine does there is made a parameter here, and no run depends on it:
whatever would be done in its place, every run of every import is the same.

## What is proved

* `verifiedPageOr_eq` — from locals without a floor to miss, the branch is not taken;
* `failed_repair_unreachable` — nor is it in any run.
-/

namespace Bip300Monitor.Backfill

open Protobuf Runs Resumption

variable {P : Type}

/-! ### The engine with another branch -/

/-- What `run_history` does in the branch. -/
def failedRepair (l : Locals) : Engine P (Locals ⊕ Outcome) :=
  leave (.bail "history branch still failed to reach its floor after repairing toward a certified ancestor")
    l .fatal

section
variable (failed : Locals → Engine P (Locals ⊕ Outcome)) (stream : HistoryStream P)

/-- `verifiedPage`, with `failed` in place of the branch. -/
def verifiedPageOr (settings : Settings) (l : Locals) (cursor : Block) (remaining : ℕ)
    (payloads : List P) : Engine P (Locals ⊕ Outcome) := do
  let headers ← attempt (payloads.mapM stream.header)
  let hashes := headers.map (·.hash)
  let certified ← attempt (← ask (.certifiedHistoryFloor hashes))
  let (l, payloads) ← cutAtCertified stream l cursor payloads hashes certified
  let oldest ← attempt (expect payloads.getLast? "a verified historical page is not empty")
  let oldest ← attempt (stream.header oldest)
  let completesCycle := certified.isSome || decide (payloads.length = remaining)
  match validateExpectedStartHash stream l.progress.floorHash completesCycle oldest.hash with
  | .error error => leave error l .fatal
  | .ok () =>
    if missesFloor l completesCycle oldest then
      if l.restartedFromActivation then failed l
      else restart stream l l.target
    else do
      let next ← attempt (nextCursor completesCycle oldest)
      commitPage stream settings l cursor payloads next

/-- `foundPage`, with it. -/
def foundPageOr (settings : Settings) (l : Locals) (cursor : Block) (remaining requested : ℕ)
    (payloads : List P) : Engine P (Locals ⊕ Outcome) :=
  match verifyPageWith stream payloads cursor requested with
  | .error error => leave (error.context "validating a historical page") l .fatal
  | .ok () => verifiedPageOr failed stream settings l cursor remaining payloads

/-- `fetched`, with it. -/
def fetchedOr (settings : Settings) (l : Locals) (cursor : Block) (remaining requested : ℕ)
    (answer : Result (List P)) : Engine P (Locals ⊕ Outcome) :=
  match answer with
  | .ok [] => cursorUnavailable stream l
      (.bail ("history cursor " ++ hexEncode cursor.hash ++ " was not found"))
  | .ok payloads => foundPageOr failed stream settings l cursor remaining requested payloads
  | .error error =>
    if unavailableError error then cursorUnavailable stream l error
    else if pageTooLarge error ∧ 1 < l.progress.effectivePageBlocks then shrinkPage l error
    else if retryableRpcError error then
      leave (error.context "the history page request failed transiently") l .deferred
    else leave error l .fatal

/-- `walk`, with it. -/
def walkOr (settings : Settings) (l : Locals) : Engine P (Locals ⊕ Outcome) := do
  let cursor ← attempt (expect l.progress.next
    "a running history cursor is missing its next block")
  let remaining ← attempt (blocksThroughFloor cursor.height l.progress.floorHeight)
  let requested := min remaining l.progress.effectivePageBlocks
  let answer : Result (List P) ← ask (.fetch cursor.observed requested)
  fetchedOr failed stream settings l cursor remaining requested answer

/-- `iterate`, with it. -/
def iterateOr (settings : Settings) (l : Locals) : Engine P (Locals ⊕ Outcome) := do
  let shutdown : Bool ← ask .shutdownRequested
  if shutdown then pure (.inr (.interrupted l.target l.blocks l.pages))
  else do
    let current ← scopeIsCurrent stream.scope
    if current then walkOr failed stream settings l
    else do
      markSuperseded stream.scope
      pure (.inr (.superseded l.target l.blocks l.pages))

/-- It is the branch that the engine has. -/
theorem iterateOr_failedRepair (settings : Settings) (l : Locals) :
    iterateOr failedRepair stream settings l = iterate stream settings l := rfl

/-! ### It is not taken -/

variable {stream} {settings : Settings} {l : Locals}

/-- **A page does not take it.** A page that was cut joins its floor; and one that was not has the
floor that the call had. -/
theorem verifiedPageOr_eq (hl : l.NoFloor) (cursor : Block) (remaining : ℕ) (payloads : List P) :
    verifiedPageOr failed stream settings l cursor remaining payloads =
      verifiedPage stream settings l cursor remaining payloads := by
  unfold verifiedPageOr verifiedPage
  refine bind_congr fun headers => ?_
  refine bind_congr fun answer => ?_
  refine bind_congr fun certified => ?_
  refine bind_congr_of_wpe (wpe_mono _ (fun cut _ hcut => ?_)
    (cutAtCertified_answered (fun _ _ => trivial) _ _ _ _))
  obtain ⟨l', payloads'⟩ := cut
  refine bind_congr_of_wpe ((wpe_attempt _ _).mpr fun last hlast => ?_)
  refine bind_congr_of_wpe ((wpe_attempt _ _).mpr fun oldest holdest => ?_)
  have hnot : missesFloor l' (certified.isSome || decide (payloads'.length = remaining)) oldest →
      l'.restartedFromActivation = false := by
    intro hmisses
    cases hcert : certified with
    | some floor =>
      exact absurd hmisses
        (hcut.not_missesFloor (by simp [hcert]) (expect_eq_ok.mp hlast) holdest _)
    | none =>
      obtain ⟨rfl, -⟩ := hcut.uncut hcert
      obtain ⟨-, floorHash, hfloor, -⟩ := hmisses
      refine Bool.eq_false_iff.mpr fun hrestarted => ?_
      rw [hl hrestarted] at hfloor
      cases hfloor
  dsimp only
  cases validateExpectedStartHash stream l'.progress.floorHash
      (certified.isSome || decide (payloads'.length = remaining)) oldest.hash with
  | error error => rfl
  | ok _ =>
    dsimp only
    split_ifs with hmisses hrestarted
    · exact absurd hrestarted (by simp [hnot hmisses])
    · rfl
    · rfl

theorem foundPageOr_eq (hl : l.NoFloor) (cursor : Block) (remaining requested : ℕ)
    (payloads : List P) :
    foundPageOr failed stream settings l cursor remaining requested payloads =
      foundPage stream settings l cursor remaining requested payloads := by
  unfold foundPageOr foundPage
  cases verifyPageWith stream payloads cursor requested with
  | error error => rfl
  | ok _ => exact verifiedPageOr_eq failed hl _ _ _

theorem walkOr_eq (hl : l.NoFloor) :
    walkOr failed stream settings l = walk stream settings l := by
  unfold walkOr walk
  refine bind_congr fun cursor => ?_
  refine bind_congr fun remaining => ?_
  refine bind_congr fun answer => ?_
  match answer with
  | .ok [] => rfl
  | .ok (payload :: payloads) => exact foundPageOr_eq failed hl _ _ _ _
  | .error error => rfl

/-- **No round takes it.** -/
theorem iterateOr_eq (hl : l.NoFloor) :
    iterateOr failed stream settings l = iterate stream settings l := by
  unfold iterateOr iterate
  refine bind_congr fun shutdown => ?_
  split_ifs
  · rfl
  · refine bind_congr fun current => ?_
    split_ifs
    · exact walkOr_eq failed hl
    · rfl

end

/-! ### Runs -/

section
variable [Digests]

/-- The next operation of a call, with another branch. -/
def Import.advanceOr (imp : Import P) (failed : Locals → Engine P (Locals ⊕ Outcome))
    (env : Environment P) (r : Record) (c : Call P) : State P :=
  match c.proc with
  | .ret (.ok (.inl l)) =>
    ⟨r, some { c with proc := iterateOr failed imp.stream c.settings l }⟩
  | _ => imp.advance env r c

/-- One step, with another branch. -/
def Import.stepOr (imp : Import P) (failed : Locals → Engine P (Locals ⊕ Outcome)) (s : State P) :
    Action P → Option (State P)
  | .advance env => s.call.map fun c => imp.advanceOr failed env s.record c
  | a => imp.step s a

variable {imp : Import P} {s t : State P}

/-- What is left of a call leads to rounds without a floor to miss. -/
def State.NoFloor (s : State P) : Prop :=
  ∀ c, s.call = some c → Proc.Good answers (fun l _ => l.NoFloor) c.proc ()

theorem step_noFloor {a : Action P} (hs : s.NoFloor) (h : imp.step s a = some t) : t.NoFloor := by
  intro c hc
  cases Import.step_cases h with
  | world => exact hs c hc
  | call run tip settings =>
    cases hc
    exact runHistory_noFloor _ _ _
  | op env hcall =>
    cases hc
    exact good_advance (hs _ hcall) (answered_perform _)
  | @round env run settings l hcall =>
    have hl : l.NoFloor := hs _ hcall _ rfl l rfl
    cases hc
    exact wpe_mono _ (fun r _ hr l' hl' => (hr l' hl').noFloor hl) (iterate_goes _ _ l)
  | leave | crash => cases hc

/-- A step is the same with another branch. -/
theorem stepOr_eq (failed : Locals → Engine P (Locals ⊕ Outcome)) (hs : s.NoFloor) (a : Action P) :
    imp.stepOr failed s a = imp.step s a := by
  cases a with
  | advance env =>
    refine Option.map_congr fun c hc => ?_
    obtain ⟨run, settings, proc⟩ := c
    match proc with
    | .ret (.ok (.inl l)) =>
      have hl : l.NoFloor := hs _ hc _ rfl l rfl
      simp only [Import.advanceOr, Import.advance, iterateOr_eq failed hl]
    | .ret (.ok (.inr o)) => rfl
    | .ret (.error e) => rfl
    | .op e k => rfl
  | _ => rfl

/-- **The branch for a failed repair is never taken.** Whatever is put in its place, the runs are
the same: from any record, whatever the upstream answers and the rest of the monitor writes, with
any calls and crashes. -/
theorem failed_repair_unreachable (imp : Import P) (failed : Locals → Engine P (Locals ⊕ Outcome))
    (r : Record) (as : List (Action P)) :
    run (imp.stepOr failed) ⟨r, none⟩ as = run imp.step ⟨r, none⟩ as := by
  have hruns : ∀ (as : List (Action P)) (s : State P), s.NoFloor →
      run (imp.stepOr failed) s as = run imp.step s as := by
    intro as
    induction as with
    | nil => exact fun _ _ => rfl
    | cons a as ih =>
      intro s hs
      rw [run_cons, run_cons, stepOr_eq failed hs a]
      refine Option.bind_congr fun t ht => ih t (step_noFloor hs ht)
  exact hruns as _ fun c hc => by cases hc

end

end Bip300Monitor.Backfill
