import Bip300Monitor.Store.CaptureSequences

/-!
# Two writers of the tip

After the startup row, two workers of a run record tip observations: the poll
(`announce_tip_changes`, `extractors/enforcer/src/runtime.rs`) and, after every event of the
global stream, `reconcile_tip` (`extractors/enforcer/src/mainchain.rs`). Both compare the
answer of the enforcer with the tip in a watch channel, record a tip that moved with that one
as the previous, and put the new one into the channel when the transaction has committed.
Nothing keeps the other writer away in the meantime.

## The model

The steps of either writer between two awaits, in any order, among any other commands on the
record. `published` and the last component of `Writer.read` are history: how many rows
followed the startup row when its tip went into the channel.

## What is proved

* `Tips.step_inv` — the channel has the tip of a row, and a writer goes on from the row it read;
* `tips_linked` — the rows are a chain, if no writer commits a row after another than the one
  whose tip it read;
* `not_tips_linked_race` — and not otherwise: both writers can record one tip.
-/

namespace Bip300Monitor

open Protobuf Transaction Runs

/-! ### The model -/

/-- The two writers. -/
inductive TipWriter where
  | announceTipChanges | reconcileTip
  deriving DecidableEq, Repr

/-- The answer is another tip than the one in the channel. The poll compares hashes, and
`reconcile_tip` whole anchors. -/
def TipWriter.moved : TipWriter → ObservedBlock → ObservedBlock → Prop
  | .announceTipChanges, previous, tip => previous.hash ≠ tip.hash
  | .reconcileTip, previous, tip => tip ≠ previous

instance : ∀ w previous tip, Decidable (TipWriter.moved w previous tip)
  | .announceTipChanges, previous, tip => inferInstanceAs (Decidable (previous.hash ≠ tip.hash))
  | .reconcileTip, previous, tip => inferInstanceAs (Decidable (tip ≠ previous))

/-- Where a writer is. -/
inductive Writer where
  | idle
  /-- It has an answer that differs from the tip it read, which is the row `row`'s. -/
  | read (tip previous : ObservedBlock) (row : ℕ)
  /-- Its row is committed. -/
  | recorded (tip : ObservedBlock) (row : ℕ)
  | stopped
  deriving DecidableEq, Repr

/-- The record, the channel and the writers. -/
structure Tips where
  db : Db
  channel : Option ObservedBlock
  writer : TipWriter → Writer
  published : ℕ

/-- Before the startup row. -/
def Tips.init : Tips := ⟨.empty, none, fun _ => .idle, 0⟩

/-- The tip observations of a run, as they were committed. -/
def Db.tipsOf (db : Db) (run : Uuid) : List TipObservation :=
  db.tipObservations.filter (·.runId = run)

/-- The command records a tip for the run. -/
def Command.recordsTip (run : Uuid) : Command → Prop
  | .recordTipObservation store .. => store.runId = run
  | _ => False

instance (run : Uuid) : ∀ c, Decidable (Command.recordsTip run c)
  | .recordTipObservation store .. => inferInstanceAs (Decidable (store.runId = run))
  | .initializeIdentity .. | .finishRun .. | .initializeWorkerStatuses .. | .recordWorkerFailure ..
  | .recordWorkerSuccess .. | .record .. | .recordSnapshot .. | .historyCoverage ..
  | .beginHistoryCycle .. | .setHistoryFloor .. | .recordHistoryPage .. | .resizeHistoryPage ..
  | .resumeHistory .. | .settleHistoryFailure .. | .supersedeHistory .. | .recordFeeEnrichment ..
  | .recordFeeFailure .. => isFalse id

/-- What happens next. -/
inductive TipAction where
  /-- The startup row is recorded, and the channel made. -/
  | startup (anchor : ObservedBlock) (now : ℕ)
  /-- A writer's reading of the tip is answered, and it reads the channel. -/
  | answer (w : TipWriter) (tip : Result ObservedBlock)
  /-- A writer's transaction ends. -/
  | record (w : TipWriter) (now : ℕ)
  /-- A writer publishes its tip; `send` replaces nothing when there is no receiver left. -/
  | publish (w : TipWriter) (received : Bool)
  /-- A writer is dropped. -/
  | stop (w : TipWriter)
  /-- Anything else that writes the record, in this process or in another one. -/
  | other (c : Command)

section
variable [Digests]

/-- One step, of the run of the handle. -/
def Tips.step (startOf : ScopeKey → ℕ) (store : Store) (s : Tips) : TipAction → Option Tips
  | .startup anchor now =>
    if s.channel = none then
      match Tx.commit (recordTipObservation store anchor none .startup now) s.db with
      | (.ok (), db) => some { s with db := db, channel := some anchor, published := 0 }
      | (.error _, _) => none
    else none
  | .answer w tip =>
    match s.writer w, s.channel, tip with
    | .idle, some previous, .ok tip =>
      if w.moved previous tip then
        some { s with writer := Function.update s.writer w (.read tip previous s.published) }
      else some s
    | .idle, some _, .error _ => some s
    | _, _, _ => none
  | .record w now =>
    match s.writer w with
    | .read tip previous _ =>
      match Tx.commit (recordTipObservation store tip (some previous) .poll now) s.db with
      | (.ok (), db) => some { s with
          db := db
          writer := Function.update s.writer w (.recorded tip (s.db.tipsOf store.runId).length) }
      | (.error _, db) => some { s with db := db, writer := Function.update s.writer w .stopped }
    | _ => none
  | .publish w received =>
    match s.writer w with
    | .recorded tip row =>
      if w = .reconcileTip ∨ received then
        some { s with
          channel := some tip
          published := row
          writer := Function.update s.writer w .idle }
      else some { s with writer := Function.update s.writer w .idle }
    | _ => none
  | .stop w => some { s with writer := Function.update s.writer w .stopped }
  | .other c =>
    if c.recordsTip store.runId then none else some { s with db := s.db.exec startOf c }

end

/-- The second row starts from the tip of the first, and is another tip. -/
def Linked (r r' : TipObservation) : Prop := r'.previousObserved = some r.tip ∧ r'.tip ≠ r.tip

instance (r r' : TipObservation) : Decidable (Linked r r') := inferInstanceAs (Decidable (_ ∧ _))

/-- The row whose tip the writer read. -/
def Writer.row? : Writer → Option ℕ
  | .read _ _ row => some row
  | _ => none

/-- A writer that commits read the tip of the row that is the last one now. -/
def Tips.Fresh (store : Store) (s : Tips) : TipAction → Prop
  | .record w _ => ∀ row ∈ (s.writer w).row?, row + 1 = (s.db.tipsOf store.runId).length
  | _ => True

instance (store : Store) (s : Tips) : ∀ a, Decidable (s.Fresh store a)
  | .record w _ => inferInstanceAs
    (Decidable (∀ row ∈ (s.writer w).row?, row + 1 = (s.db.tipsOf store.runId).length))
  | .startup .. | .answer .. | .publish .. | .stop _ | .other _ => isTrue trivial

/-! ### The rows of the run -/

/-- The tip of a row, by its place among the run's rows. -/
def Db.tipAt (db : Db) (run : Uuid) (row : ℕ) : Option ObservedBlock :=
  ((db.tipsOf run)[row]?).map fun r => r.tip.observed

theorem Block.observed_injective : Function.Injective Block.observed := by
  rintro ⟨hash, height⟩ ⟨hash', height'⟩ h
  cases h
  rfl

/-- Rows that are there keep their places. -/
theorem Db.tipAt_of_append {s t : Db} {run : Uuid} {rows : List TipObservation}
    (ht : t.tipsOf run = s.tipsOf run ++ rows) {row : ℕ} {tip : ObservedBlock}
    (h : s.tipAt run row = some tip) : t.tipAt run row = some tip := by
  obtain ⟨r, hr, rfl⟩ := Option.map_eq_some_iff.mp h
  obtain ⟨hlt, -⟩ := List.getElem?_eq_some_iff.mp hr
  rw [Db.tipAt, ht, List.getElem?_append_left hlt, hr]
  rfl

/-- The row that is added comes last. -/
theorem Db.tipAt_length {s t : Db} {run : Uuid} {r : TipObservation}
    (ht : t.tipsOf run = s.tipsOf run ++ [r]) :
    t.tipAt run (s.tipsOf run).length = some r.tip.observed := by
  rw [Db.tipAt, ht, List.getElem?_concat_length]
  rfl

/-- A tip observation adds its row. -/
theorem recordTipObservation_tipsOf {store : Store} {tip : ObservedBlock}
    {previous : Option ObservedBlock} {method : CaptureMethod} {now : ℕ} {s t : Db}
    (h : recordTipObservation store tip previous method now s = .ok ((), t)) :
    ∃ r, t.tipsOf store.runId = s.tipsOf store.runId ++ [r] ∧ r.tip.observed = tip ∧
      r.previousObserved.map Block.observed = previous := by
  obtain ⟨height, before, captureSeq, u, hblock, hbefore, hreserve, ht⟩ :=
    recordTipObservation_inv h
  have hu := (sameEvidence_reserve hreserve).tipObservations
  refine ⟨⟨store.datasetId, store.runId, captureSeq, method, ⟨tip.hash, height⟩, before, now⟩,
    ?_, hblock.symm, ?_⟩
  · rw [Db.tipsOf, ht.tipObservations, List.filter_append, List.filter_singleton]
    simp [Db.tipsOf, hu]
  · rcases optionalBlockParts_eq_ok hbefore with ⟨rfl, rfl⟩ | ⟨hash, height', rfl, -, rfl⟩
    · rfl
    · rfl

section
variable [Digests] {startOf : ScopeKey → ℕ} {store : Store} {s t : Tips}

/-- No other command records a tip of the run. -/
theorem Db.exec_tipsOf (startOf : ScopeKey → ℕ) (db : Db) {run : Uuid} {c : Command}
    (hc : ¬ c.recordsTip run) : (db.exec startOf c).tipsOf run = db.tipsOf run := by
  unfold Db.tipsOf
  cases db.exec_effect startOf c with
  | same _ heq => rw [heq.tipObservations]
  | opened _ hok => rw [(initializeIdentity_inv hok).2.tipObservations]
  | closed _ hok => rw [(finishRun_inv hok).2.tipObservations]
  | @tip store' _ _ _ _ htip _ hok =>
    subst htip
    obtain ⟨_, _, _, u, -, -, hreserve, ht⟩ := recordTipObservation_inv hok
    have hu := (sameEvidence_reserve hreserve).tipObservations
    rw [ht.tipObservations, filter_append_other TipObservation.runId store'.runId (by simp)
      (fun hrun => hc hrun.symm)]
    exact congrArg _ hu
  | batch _ _ hrec =>
    obtain ⟨_, _, _, -, -, htips, -⟩ := hrec.occurrences
    rw [htips]

/-! ### The invariant -/

/-- The rows are a chain; the channel and the writers have the tips of rows. -/
structure Tips.Inv (store : Store) (s : Tips) : Prop where
  linked : (s.db.tipsOf store.runId).IsChain Linked
  starting : s.channel = none → s.db.tipsOf store.runId = []
  channel : ∀ tip, s.channel = some tip → s.db.tipAt store.runId s.published = some tip
  read : ∀ w tip previous row, s.writer w = .read tip previous row →
    tip ≠ previous ∧ s.db.tipAt store.runId row = some previous
  recorded : ∀ w tip row, s.writer w = .recorded tip row → s.db.tipAt store.runId row = some tip

omit [Digests] in
theorem Tips.Inv.init : Tips.init.Inv store where
  linked := List.isChain_nil
  starting _ := rfl
  channel _ h := by cases h
  read _ _ _ _ h := by cases h
  recorded _ _ _ h := by cases h

omit [Digests] in
/-- A writer moves on, with what is so of its new place. -/
theorem Tips.Inv.moves {w : TipWriter} {new : Writer} (hs : s.Inv store)
    (hread : ∀ tip previous row, new = .read tip previous row →
      tip ≠ previous ∧ s.db.tipAt store.runId row = some previous)
    (hrecorded : ∀ tip row, new = .recorded tip row → s.db.tipAt store.runId row = some tip) :
    Tips.Inv store { s with writer := Function.update s.writer w new } where
  linked := hs.linked
  starting := hs.starting
  channel := hs.channel
  read w' tip previous row h := by
    by_cases hw : w' = w
    · subst hw
      exact hread tip previous row ((Function.update_self ..).symm.trans h)
    · exact hs.read w' tip previous row ((Function.update_of_ne hw ..).symm.trans h)
  recorded w' tip row h := by
    by_cases hw : w' = w
    · subst hw
      exact hrecorded tip row ((Function.update_self ..).symm.trans h)
    · exact hs.recorded w' tip row ((Function.update_of_ne hw ..).symm.trans h)

omit [Digests] in
/-- The record changes, and with it no row of the run. -/
theorem Tips.Inv.elsewhere {db : Db} (hs : s.Inv store)
    (hdb : db.tipsOf store.runId = s.db.tipsOf store.runId) :
    Tips.Inv store { s with db := db } where
  linked := by
    rw [hdb]
    exact hs.linked
  starting h := hdb.trans (hs.starting h)
  channel tip h := by
    have hat := hs.channel tip h
    rw [Db.tipAt, hdb]
    exact hat
  read w tip previous row h := by
    have hat := hs.read w tip previous row h
    rw [Db.tipAt, hdb]
    exact hat
  recorded w tip row h := by
    have hat := hs.recorded w tip row h
    rw [Db.tipAt, hdb]
    exact hat

omit [Digests] in
/-- A row is added behind the last one, and linked to it. -/
theorem Tips.Inv.records {db : Db} {r : TipObservation} (hs : s.Inv store)
    (hstarted : s.channel ≠ none)
    (hdb : db.tipsOf store.runId = s.db.tipsOf store.runId ++ [r])
    (hlinked : ∀ last ∈ (s.db.tipsOf store.runId).getLast?, Linked last r) :
    Tips.Inv store { s with db := db } where
  linked := by
    rw [hdb]
    refine List.isChain_append.mpr ⟨hs.linked, List.isChain_singleton r, fun last hlast r' hr' => ?_⟩
    obtain rfl : r = r' := Option.some.inj hr'
    exact hlinked last hlast
  starting h := absurd h hstarted
  channel tip h := Db.tipAt_of_append hdb (hs.channel tip h)
  read w tip previous row h := by
    obtain ⟨hne, hat⟩ := hs.read w tip previous row h
    exact ⟨hne, Db.tipAt_of_append hdb hat⟩
  recorded w tip row h := Db.tipAt_of_append hdb (hs.recorded w tip row h)

omit [Digests] in
theorem TipWriter.moved.ne {w : TipWriter} {previous tip : ObservedBlock}
    (h : w.moved previous tip) : tip ≠ previous := by
  cases w with
  | announceTipChanges =>
    rintro rfl
    exact h rfl
  | reconcileTip => exact h

omit [Digests] in
/-- **A writer that read the tip of the last row adds a row that is linked to it.** -/
theorem Db.linked_last {db : Db} {run : Uuid} {r : TipObservation} {previous : ObservedBlock}
    {row : ℕ} (hrow : row + 1 = (db.tipsOf run).length) (hat : db.tipAt run row = some previous)
    (hprevious : r.previousObserved.map Block.observed = some previous)
    (hne : r.tip.observed ≠ previous) : ∀ last ∈ (db.tipsOf run).getLast?, Linked last r := by
  intro last hlast
  have hindex : (db.tipsOf run)[row]? = some last := by
    rw [List.getLast?_eq_getElem?, ← hrow, Nat.add_sub_cancel] at hlast
    exact hlast
  rw [Db.tipAt, hindex, Option.map_some] at hat
  obtain rfl := Option.some.inj hat
  obtain ⟨block, hblock, hobserved⟩ := Option.map_eq_some_iff.mp hprevious
  refine ⟨hblock.trans (congrArg some (Block.observed_injective hobserved)), fun htip => hne ?_⟩
  rw [htip]

/-- **One step keeps the chain**, if a writer commits only after the row whose tip it read. -/
theorem Tips.step_inv {a : TipAction} (hs : s.Inv store) (hfresh : s.Fresh store a)
    (h : s.step startOf store a = some t) : t.Inv store := by
  cases a with
  | startup anchor now =>
    simp only [Tips.step] at h
    split_ifs at h with hnone
    rcases Tx.commit_snd_cases (recordTipObservation store anchor none .startup now) s.db with
      ⟨_, db, hok, hcommit⟩ | ⟨e, -, hcommit⟩
    · rw [hcommit] at h
      cases h
      obtain ⟨r, hrows, htip, -⟩ := recordTipObservation_tipsOf hok
      have hfirst := hs.starting hnone
      have hat := Db.tipAt_length hrows
      rw [hfirst, htip] at hat
      refine ⟨?_, fun h => (by cases h), fun tip htip' => ?_, fun w tip previous row hw => ?_,
        fun w tip row hw => ?_⟩
      · rw [hrows, hfirst]
        exact List.isChain_singleton r
      · cases htip'
        exact hat
      · obtain ⟨hne, hrow⟩ := hs.read w tip previous row hw
        exact ⟨hne, Db.tipAt_of_append hrows hrow⟩
      · exact Db.tipAt_of_append hrows (hs.recorded w tip row hw)
    · rw [hcommit] at h
      cases h
  | answer w tip =>
    simp only [Tips.step] at h
    split at h
    · next previous tip hidle hchannel =>
      split_ifs at h with hmoved
      · cases h
        refine hs.moves (fun tip' previous' row hnew => ?_) (fun _ _ hnew => by cases hnew)
        cases hnew
        exact ⟨hmoved.ne, hs.channel _ hchannel⟩
      · cases h
        exact hs
    · cases h
      exact hs
    · cases h
  | record w now =>
    simp only [Tips.step] at h
    split at h
    · next tip previous row hread =>
      obtain ⟨hne, hat⟩ := hs.read w tip previous row hread
      rcases Tx.commit_snd_cases (recordTipObservation store tip (some previous) .poll now) s.db with
        ⟨_, db, hok, hcommit⟩ | ⟨e, -, hcommit⟩
      · rw [hcommit] at h
        cases h
        obtain ⟨r, hrows, htip, hprevious⟩ := recordTipObservation_tipsOf hok
        have hstarted : s.channel ≠ none := by
          intro hnone
          rw [Db.tipAt, hs.starting hnone] at hat
          cases hat
        have hlinked := Db.linked_last (hfresh row (by rw [hread]; rfl)) hat hprevious (htip ▸ hne)
        have hrecorded := Db.tipAt_length hrows
        rw [htip] at hrecorded
        refine (hs.records hstarted hrows hlinked).moves (fun _ _ _ hnew => by cases hnew)
          fun tip' row' hnew => ?_
        cases hnew
        exact hrecorded
      · rw [hcommit] at h
        cases h
        exact hs.moves (fun _ _ _ hnew => by cases hnew) fun _ _ hnew => by cases hnew
    · cases h
  | publish w received =>
    simp only [Tips.step] at h
    split at h
    · next tip row hrecorded =>
      have hat := hs.recorded w tip row hrecorded
      have hidle : Tips.Inv store { s with writer := Function.update s.writer w .idle } :=
        hs.moves (fun _ _ _ hnew => by cases hnew) fun _ _ hnew => by cases hnew
      split_ifs at h
      · cases h
        refine ⟨hidle.linked, fun h => (by cases h), fun tip' htip => ?_, hidle.read, hidle.recorded⟩
        cases htip
        exact hat
      · cases h
        exact hidle
    · cases h
  | stop w =>
    cases h
    exact hs.moves (fun _ _ _ hnew => by cases hnew) fun _ _ hnew => by cases hnew
  | other c =>
    simp only [Tips.step] at h
    split_ifs at h with hc
    cases h
    exact hs.elsewhere (s.db.exec_tipsOf startOf hc)

/-- **Tip observations are a chain.** After the startup row, every tip observation of the run
starts from the tip of the row before it, which is another tip, in every run in which a writer
commits only as long as the last row is the one whose tip it read. -/
theorem tips_linked (startOf : ScopeKey → ℕ) (store : Store) (as : List TipAction) (s : Tips)
    (h : run (Tips.step startOf store) Tips.init as = some s)
    (hfresh : Along (Tips.step startOf store) (Tips.Fresh store) Tips.init as) :
    (s.db.tipsOf store.runId).IsChain Linked := by
  have hs : s.Inv store := run_invariant_along
    (fun _ _ _ hs hfresh hstep => Tips.step_inv hs hfresh hstep) .init hfresh h
  exact hs.linked

end

/-! ### Two tips -/

namespace TwoTips

/-- The enforcer's handle. -/
def store : Store := ⟨.enforcer, 0, 0, 9⟩

/-- A block of the chain. -/
def block (n : ℕ) : ObservedBlock := .atHeight (bytes32 n) n

/-- The run is opened and the startup row recorded. -/
def startup : List TipAction :=
  [.other (.initializeIdentity .enforcer 0 0 9), .startup (block 1) 0]

/-- A writer records a tip and publishes it. -/
def turn (w : TipWriter) (tip : ObservedBlock) : List TipAction :=
  [.answer w (.ok tip), .record w 0, .publish w true]

/-- Both writers read the channel before either has published. -/
def race : List TipAction :=
  [.answer .announceTipChanges (.ok (block 2)), .answer .reconcileTip (.ok (block 2)),
    .record .announceTipChanges 0, .record .reconcileTip 0]

end TwoTips

/-- The writers take turns. -/
theorem tips_linked_turns :
    ∃ s, run (@Tips.step TwoBlocks.digests (fun _ => 5) TwoTips.store) Tips.init
        (TwoTips.startup ++ TwoTips.turn .announceTipChanges (TwoTips.block 2) ++
          TwoTips.turn .reconcileTip (TwoTips.block 3)) = some s ∧
      (s.db.tipsOf 0).map (·.tip.height) = [1, 2, 3] ∧ (s.db.tipsOf 0).IsChain Linked := by
  let _ := TwoBlocks.digests
  have hrun : ((run (Tips.step (fun _ => 5) TwoTips.store) Tips.init
      (TwoTips.startup ++ TwoTips.turn .announceTipChanges (TwoTips.block 2) ++
        TwoTips.turn .reconcileTip (TwoTips.block 3))).filter fun s =>
      (s.db.tipsOf 0).map (·.tip.height) = [1, 2, 3]).isSome := by
    decide +kernel
  have hfresh : Along (Tips.step (fun _ => 5) TwoTips.store) (Tips.Fresh TwoTips.store) Tips.init
      (TwoTips.startup ++ TwoTips.turn .announceTipChanges (TwoTips.block 2) ++
        TwoTips.turn .reconcileTip (TwoTips.block 3)) := by
    decide +kernel
  obtain ⟨s, hs⟩ := Option.isSome_iff_exists.mp hrun
  obtain ⟨hs, hrows⟩ := Option.filter_eq_some_iff.mp hs
  exact ⟨s, hs, of_decide_eq_true hrows, tips_linked _ _ _ s hs hfresh⟩

/-- **Both writers can record one tip.** -/
theorem not_tips_linked_race :
    ¬ ∀ (startOf : ScopeKey → ℕ) (store : Store) (as : List TipAction) (s : Tips),
      run (@Tips.step TwoBlocks.digests startOf store) Tips.init as = some s →
        (s.db.tipsOf store.runId).IsChain Linked := by
  let _ := TwoBlocks.digests
  intro h
  have hrun : ((run (Tips.step (fun _ => 5) TwoTips.store) Tips.init
      (TwoTips.startup ++ TwoTips.race)).filter fun s =>
      ¬ (s.db.tipsOf TwoTips.store.runId).IsChain Linked).isSome := by
    decide +kernel
  obtain ⟨s, hs⟩ := Option.isSome_iff_exists.mp hrun
  obtain ⟨hs, hbroken⟩ := Option.filter_eq_some_iff.mp hs
  exact of_decide_eq_true hbroken (h _ _ _ s hs)

end Bip300Monitor
