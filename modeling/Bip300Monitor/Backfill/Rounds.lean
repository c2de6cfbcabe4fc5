import Bip300Monitor.Backfill.Import
import Bip300Monitor.Backfill.Pages

/-!
# The rounds of a call

What the loop of `run_history` can do from one round to the next. Whatever the upstream answers
and the rest of the monitor writes, a round that does not leave the loop shrinks the page, begins
a cycle towards another target or, once, a cycle that repairs its branch, or moves the cursor down.

## What is proved

* `iterate_goes` — the four ways of going round the loop;
* `iterateOr_eq` — from the locals that a call can have, what the branch for a failed repair does
  makes no difference.
-/

namespace Bip300Monitor.Backfill

open Protobuf Transaction Runs Resumption

variable {P : Type}

/-! ### Answers -/

/-- All that is used of the answers: a cycle is begun as it was asked for. -/
def answers : Interface Unit (Op P) Op.Resp where
  rely _ _ := True
  pre _ _ := True
  sem e _ r _ := match e, r with
    | .beginHistoryCycle _ _ targetTip floorHash _ pageBlocks, .ok row =>
      row.targetTip.hash = targetTip.hash ∧ row.floorHash = floorHash ∧
        row.effectivePageBlocks = pageBlocks
    | _, _ => True
  rely_refl _ := trivial
  rely_trans _ _ _ _ _ := trivial

/-- A piece of a call returns only what meets `Q`. -/
abbrev Answered {α : Type} (p : Engine P α) (Q : α → Prop) : Prop := wpe answers p (fun a _ => Q a) ()

theorem answered_ask (e : Op P) {Q : e.Resp → Unit → Prop} :
    wpe answers (ask e) Q () ↔ ∀ r, answers.sem e () r () → Q r () :=
  (wpe_call answers e).trans
    ⟨fun h r hr => (h () trivial).2 r () hr, fun h _ _ => ⟨trivial, fun r _ hr => h r hr⟩⟩

/-- Nothing is used of what a piece returns. -/
theorem answered_of_forall {α : Type} {Q : α → Unit → Prop} (p : Engine P α)
    (h : ∀ a, Q a ()) : wpe answers p Q () :=
  wpe_mono _ (fun a _ _ => h a) (wpe_true _ (fun _ _ => trivial) p ())

theorem answered_perform [Digests] {imp : Import P} {run : Uuid} {env : Environment P} {db : Db}
    (e : Op P) : answers.sem e () (imp.perform run env db e).1 () := by
  cases e with
  | beginHistoryCycle start coveredTip targetTip floorHash floorHeight pageBlocks =>
    cases hr : (imp.perform run env db (.beginHistoryCycle start coveredTip targetTip floorHash
        floorHeight pageBlocks)).1 with
    | error e => trivial
    | ok row =>
      obtain ⟨_, _, -, -, -, -, -, -, rfl⟩ := beginHistoryCycle_inv
        (Tx.commit_eq_ok.mp (Environment.deliver_eq_ok (Prod.ext hr rfl)))
      exact ⟨rfl, rfl, rfl⟩
  | _ => trivial

/-! ### Going round the loop -/

/-- From a round with `l` to one with `l'`. -/
inductive Locals.Goes (l l' : Locals) : Prop
  /-- The page is halved. -/
  | shrinks (hpage : l'.progress.effectivePageBlocks < l.progress.effectivePageBlocks)
      (htarget : l'.target = l.target) (hnext : l'.progress.next = l.progress.next)
      (hfloor : l'.progress.floorHash = l.progress.floorHash)
      (hrepair : l'.restartedFromActivation = l.restartedFromActivation)
  /-- The target is replaced. -/
  | replaces (htarget : l'.target.hash ≠ l.target.hash) (hfloor : l'.progress.floorHash = none)
      (hrepair : l'.restartedFromActivation)
  /-- The branch did not reach its floor. -/
  | repairs (htarget : l'.target.hash = l.target.hash) (hfloor : l'.progress.floorHash = none)
      (hpage : l'.progress.effectivePageBlocks = l.progress.effectivePageBlocks)
      (hfirst : l.restartedFromActivation = false) (hrepair : l'.restartedFromActivation)
  /-- A page is committed. -/
  | descends {cursor next : Block} (hcursor : l.progress.next = some cursor)
      (hnext : l'.progress.next = some next) (hlt : next.height < cursor.height)
      (htarget : l'.target = l.target) (hfloor : l'.progress.floorHash = l.progress.floorHash)
      (hpage : l'.progress.effectivePageBlocks = l.progress.effectivePageBlocks)
      (hrepair : l'.restartedFromActivation = l.restartedFromActivation)

/-- What is asked of the end of a round: if it goes on, how. -/
abbrev Locals.GoesTo (l : Locals) (r : Locals ⊕ Outcome) : Prop := ∀ l', r = .inl l' → l.Goes l'

theorem Locals.goesTo_inr (l : Locals) (o : Outcome) : l.GoesTo (.inr o) := fun _ h => by cases h

variable {stream : HistoryStream P} {settings : Settings} {l : Locals}

theorem leave_goes (error : Failure) (l₀ : Locals) (mode : FailureMode) :
    Answered (leave error l₀ mode : Engine P (Locals ⊕ Outcome)) l.GoesTo := by
  rw [leave, Answered, wpe_bind]
  exact answered_of_forall _ fun outcome => (wpe_pure _ _).mpr (l.goesTo_inr outcome)

/-- A cycle that walks down to the activation height. -/
theorem beginFullCycle_answered (target : ObservedBlock) (pageBlocks : ℕ) :
    Answered (beginFullCycle stream target pageBlocks) fun row =>
      row.targetTip.hash = target.hash ∧ row.floorHash = none ∧ row.effectivePageBlocks = pageBlocks := by
  rw [beginFullCycle, Answered, wpe_bind, answered_ask]
  intro begun hbegun
  rw [wpe_attempt]
  intro row hrow
  obtain rfl := Result.context_eq_ok.mp hrow
  exact hbegun

theorem restart_replaces {target : ObservedBlock} (h : target.hash ≠ l.target.hash) :
    Answered (restart stream l target) l.GoesTo := by
  rw [restart, Answered, wpe_bind]
  refine wpe_mono _ (fun row _ hrow => ?_) (beginFullCycle_answered target _)
  rw [wpe_pure]
  rintro l' ⟨⟩
  exact .replaces (fun heq => h (hrow.1.symm.trans heq)) hrow.2.1 rfl

theorem restart_repairs (h : l.restartedFromActivation = false) :
    Answered (restart stream l l.target) l.GoesTo := by
  rw [restart, Answered, wpe_bind]
  refine wpe_mono _ (fun row _ hrow => ?_) (beginFullCycle_answered l.target _)
  rw [wpe_pure]
  rintro l' ⟨⟩
  exact .repairs hrow.1 hrow.2.1 hrow.2.2 h rfl

/-- A target is replaced by another one only. -/
theorem cursorUnavailable_goes (error : Failure) :
    Answered (cursorUnavailable stream l error) l.GoesTo := by
  rw [cursorUnavailable, Answered, wpe_bind, answered_ask]
  intro answer _
  cases answer with
  | error tipError =>
    simp only
    split_ifs
    · exact leave_goes _ _ _
    · exact leave_goes _ _ _
  | ok currentTip =>
    simp only [wpe_bind]
    refine answered_of_forall _ fun availability => ?_
    unfold replacementTarget
    split_ifs with hreplaced
    · exact restart_replaces hreplaced.1
    · exact leave_goes _ _ _

theorem shrinkPage_goes (error : Failure) (h : 1 < l.progress.effectivePageBlocks) :
    Answered (shrinkPage l error : Engine P (Locals ⊕ Outcome)) l.GoesTo := by
  rw [shrinkPage, Answered, wpe_bind, answered_ask]
  intro resized _
  cases resized with
  | error resizeError => exact leave_goes _ _ _
  | ok _ =>
    rw [wpe_pure]
    rintro l' ⟨⟩
    refine .shrinks ?_ rfl rfl rfl rfl
    show max (l.progress.effectivePageBlocks / 2) 1 < l.progress.effectivePageBlocks
    omega

/-! ### A page -/

/-- What a page is cut down to, and what is made of the progress. -/
structure Cut (stream : HistoryStream P) (l : Locals) (payloads : List P)
    (certified : Option ObservedBlock) (l' : Locals) (payloads' : List P) : Prop where
  uncut : certified = none → l' = l ∧ payloads' = payloads
  /-- The floor is the parent of the block that is now the last. -/
  joins : certified.isSome → ∀ oldest header, payloads'.getLast? = some oldest →
    stream.header oldest = .ok header → ∀ floorHash ∈ l'.progress.floorHash,
      header.previousHash = floorHash

theorem cutAtCertified_answered {I : Interface Unit (Op P) Op.Resp} (hpre : ∀ e s, I.pre e s)
    (cursor : Block) (payloads : List P) (hashes : List Bytes) (certified : Option ObservedBlock) :
    wpe I (cutAtCertified stream l cursor payloads hashes certified)
      (fun cut _ => Cut stream l payloads certified cut.1 cut.2) () := by
  cases certified with
  | none =>
    simp only [cutAtCertified, wpe_pure]
    exact ⟨fun _ => ⟨rfl, rfl⟩, fun h => by cases h⟩
  | some certified =>
    simp only [cutAtCertified, wpe_bind, wpe_attempt, expect_eq_ok]
    intro index _ payload hpayload header hheader
    refine wpe_mono _ (fun answer _ _ => ?_) (wpe_true I hpre _ ())
    rintro _ -
    rw [wpe_pure]
    refine ⟨fun h => (by cases h), fun _ oldest header' holdest hheader' floorHash hfloor => ?_⟩
    have hlast : (payloads.take (index + 1)).getLast? = some payload := by
      rw [List.getLast?_take, if_neg (Nat.succ_ne_zero _), Nat.add_sub_cancel, hpayload]
      rfl
    obtain rfl := Option.some.inj (hlast.symm.trans holdest)
    obtain rfl := Except.ok.inj (hheader.symm.trans hheader')
    obtain ⟨_, -, rfl⟩ := Option.map_eq_some_iff.mp hfloor
    rfl

/-- A page that was cut joins its floor. -/
theorem Cut.not_missesFloor {payloads payloads' : List P} {certified : Option ObservedBlock}
    {l' : Locals} (h : Cut stream l payloads certified l' payloads') (hsome : certified.isSome)
    {oldest : P} {header : BlockHeader} (holdest : payloads'.getLast? = some oldest)
    (hheader : stream.header oldest = .ok header) (completesCycle : Bool) :
    ¬ missesFloor l' completesCycle header := by
  rintro ⟨-, floorHash, hfloor, hne⟩
  exact hne (h.joins hsome oldest header holdest hheader floorHash hfloor)

/-- Nothing was cut, and the page goes down from the cursor. -/
structure Locals.Down (l : Locals) (next : Block) (l' : Locals) : Prop where
  same : l' = l
  below : ∃ cursor, l.progress.next = some cursor ∧ next.height < cursor.height

theorem afterPage_goes {l' : Locals} {next : Option Block} (h : ∀ b, next = some b → l.Down b l')
    (committed inserted : ℕ) :
    Answered (afterPage settings l' committed inserted next : Engine P (Locals ⊕ Outcome)) l.GoesTo := by
  cases next with
  | none =>
    simp only [afterPage, if_true, Answered, wpe_pure]
    exact l.goesTo_inr _
  | some b =>
    obtain ⟨rfl, cursor, hcursor, hlt⟩ := h b rfl
    have hgoes : l'.GoesTo (.inl { l' with
        blocks := l'.blocks + committed
        pages := l'.pages + 1
        progress := { l'.progress with
          rowsRecorded := l'.progress.rowsRecorded + inserted, next := some b } }) := by
      rintro _ ⟨⟩
      exact .descends hcursor rfl hlt rfl rfl rfl rfl
    simp only [afterPage, reduceCtorEq, if_false]
    split_ifs
    · exact (wpe_pure _ _).mpr hgoes
    · rw [Answered, wpe_bind]
      refine answered_of_forall _ fun shutdown => ?_
      split_ifs
      · exact (wpe_pure _ _).mpr (l'.goesTo_inr _)
      · exact (wpe_pure _ _).mpr hgoes

theorem commitPage_goes {l' : Locals} {next : Option Block} (h : ∀ b, next = some b → l.Down b l')
    (cursor : Block) (payloads : List P) :
    Answered (commitPage stream settings l' cursor payloads next) l.GoesTo := by
  rw [commitPage, Answered, wpe_bind]
  refine answered_of_forall _ fun events => ?_
  rw [wpe_bind]
  refine answered_of_forall _ fun recorded => ?_
  cases recorded with
  | ok inserted => exact afterPage_goes h _ _
  | error error =>
    simp only
    split_ifs
    · exact (wpe_pure _ _).mpr (l.goesTo_inr _)
    · exact leave_goes _ _ _

theorem verifiedPage_goes {cursor : Block} {payloads : List P} {requested : ℕ}
    (hcursor : l.progress.next = some cursor)
    (hverified : verifyPageWith stream payloads cursor requested = .ok ()) (remaining : ℕ) :
    Answered (verifiedPage stream settings l cursor remaining payloads) l.GoesTo := by
  obtain ⟨-, hs, hheaders, hpage⟩ := verifyPageWith_eq_ok hverified
  simp only [verifiedPage, Answered, wpe_bind, wpe_attempt, expect_eq_ok]
  intro headers _
  refine answered_of_forall _ fun answer certified _ => ?_
  refine wpe_mono _ (fun cut _ hcut => ?_) (cutAtCertified_answered (fun _ _ => trivial) _ _ _ _)
  obtain ⟨l', payloads'⟩ := cut
  intro last hlast oldest holdest
  split
  · exact leave_goes _ _ _
  · cases hcert : certified with
    | some certified =>
      rw [hcert] at hcut
      simp only [Option.isSome_some, Bool.true_or]
      rw [if_neg (hcut.not_missesFloor rfl hlast holdest _)]
      simp only [wpe_bind, wpe_attempt]
      rintro _ ⟨⟩
      exact commitPage_goes (fun _ h => by cases h) _ _
    | none =>
      obtain ⟨rfl, rfl⟩ := hcut.uncut hcert
      simp only [Option.isSome_none, Bool.false_or]
      split_ifs with hmisses hrestarted
      · exact leave_goes _ _ _
      · exact restart_repairs (Bool.eq_false_iff.mpr hrestarted)
      · simp only [wpe_bind, wpe_attempt]
        intro next hnext
        refine commitPage_goes (fun b hb => ⟨rfl, cursor, hcursor, ?_⟩) _ _
        subst hb
        -- the last block of the page is at the cursor or below
        obtain ⟨header, hheader, hsame⟩ := PairedLists.exists_mem hheaders (List.mem_of_getLast? hlast)
        obtain rfl := Except.ok.inj (hsame.symm.trans holdest)
        have hle := hpage.height_le hheader
        unfold nextCursor at hnext
        split_ifs at hnext
        · cases hnext
        · obtain ⟨height, hheight, hnext⟩ := Result.bind_eq_ok.mp hnext
          obtain ⟨hone, rfl⟩ := checkedSub_eq_some.mp (expect_eq_ok.mp hheight)
          cases hnext
          show header.height - 1 < cursor.height
          omega

/-! ### The loop -/

theorem fetched_goes {cursor : Block} (hcursor : l.progress.next = some cursor)
    (remaining requested : ℕ) (answer : Result (List P)) :
    Answered (fetched stream settings l cursor remaining requested answer) l.GoesTo := by
  unfold fetched
  split
  · exact cursorUnavailable_goes _
  · unfold foundPage
    split
    · exact leave_goes _ _ _
    · next hverified => exact verifiedPage_goes hcursor hverified _
  · split_ifs with _ hshrinks
    · exact cursorUnavailable_goes _
    · exact shrinkPage_goes _ hshrinks.2
    · exact leave_goes _ _ _
    · exact leave_goes _ _ _

/-- **How a round goes on.** -/
theorem iterate_goes (stream : HistoryStream P) (settings : Settings) (l : Locals) :
    Answered (iterate stream settings l) l.GoesTo := by
  rw [iterate, Answered, wpe_bind]
  refine answered_of_forall _ fun shutdown => ?_
  split_ifs
  · exact (wpe_pure _ _).mpr (l.goesTo_inr _)
  · rw [wpe_bind]
    refine answered_of_forall _ fun current => ?_
    split_ifs
    · simp only [walk, wpe_bind, wpe_attempt, expect_eq_ok]
      intro cursor hcursor remaining _
      exact answered_of_forall _ fun answer => fetched_goes hcursor _ _ answer
    · rw [wpe_bind]
      exact answered_of_forall _ fun _ => (wpe_pure _ _).mpr (l.goesTo_inr _)

/-! ### The failed repair -/

/-- A call's locals: once its branch was repaired, or from the start, it has no floor to miss. -/
def Locals.NoFloor (l : Locals) : Prop :=
  l.restartedFromActivation = true → l.progress.floorHash = none

theorem Locals.Goes.noFloor {l' : Locals} (h : l.Goes l') (hl : l.NoFloor) : l'.NoFloor := by
  cases h with
  | shrinks _ _ _ hfloor hrepair => exact fun h => hfloor.trans (hl (hrepair ▸ h))
  | replaces _ hfloor => exact fun _ => hfloor
  | repairs _ hfloor => exact fun _ => hfloor
  | descends _ _ _ _ hfloor _ hrepair => exact fun h => hfloor.trans (hl (hrepair ▸ h))

/-- A call enters its loop without a floor to miss, or may yet repair its branch. -/
theorem runHistory_noFloor (stream : HistoryStream P) (tip : ObservedBlock) (settings : Settings) :
    Answered (runHistory stream tip settings) fun r => ∀ l, r = .inl l → l.NoFloor := by
  rw [runHistory, Answered, wpe_bind]
  refine answered_of_forall _ fun current => ?_
  split_ifs
  · rw [wpe_bind]
    refine answered_of_forall _ fun quarantined => ?_
    split_ifs
    · simp
    · rw [wpe_bind]
      refine answered_of_forall _ fun progress => ?_
      cases progress with
      | none => simp
      | some progress =>
        rw [wpe_pure]
        rintro _ ⟨⟩
        exact of_decide_eq_true
  · rw [wpe_bind]
    exact answered_of_forall _ fun _ => by simp

end Bip300Monitor.Backfill
