import Bip300Monitor.Backfill.Pages

/-!
# Proof outlines of a call

What is proved of every call of the engine is proved at its points: an assertion holds at each, and each
operation leads from the assertion at the point before it to the one at the point after. An `Outline` is that,
for the points of `run_history`, and a `LoopOutline` for those of its loop. That a call then meets the
assertions wherever it gets is proved here, once: a module that proves something of all calls says what holds
at the points, and what each operation does to it.

## What is proved

* `LoopOutline.iterate_ends` — each round of the loop keeps to the outline of the loop;
* `Outline.runHistory_ends` — a call up to its loop keeps to the outline of the call.
-/

namespace Bip300Monitor.Backfill

open Protobuf Resumption

variable {P : Type}

/-- The target that an outcome says is reached. -/
def Outcome.reached? : Outcome → Option ObservedBlock
  | .upToDate target | .completed target .. => some target
  | _ => none

/-- The variables of the loop once a page is committed. -/
def Locals.moved (l : Locals) (committed inserted : ℕ) (next : Option Block) : Locals :=
  { l with
    blocks := l.blocks + committed
    pages := l.pages + 1
    progress := { l.progress with rowsRecorded := l.progress.rowsRecorded + inserted, next := next } }

/-- The event is the envelope of the payload, anchored to its block. -/
def HistoryStream.EventOf (stream : HistoryStream P) (payload : P) (event : Event) : Prop :=
  ∃ header now, stream.header payload = .ok header ∧
    stream.envelope payload (.atHeight header.hash header.height) now = .ok event

/-- The payloads are those of a page at the cursor. -/
structure PageOf (stream : HistoryStream P) (cursor : Block) (payloads : List P) (hs : List BlockHeader) :
    Prop where
  headers : List.Forall₂ (fun p h => stream.header p = .ok h) payloads hs
  page : IsPage cursor hs

/-- The operation only asks, and not the record. -/
def Op.Asks : Op P → Prop
  | .shutdownRequested | .currentTip | .now | .pagePause => True
  | _ => False

/-! ### Points -/

/-- A point of a call, with the variables that are live there. -/
inductive Point (P : Type) where
  /-- Nothing of the scope is known yet. -/
  | start
  /-- The instance of the scope is not current. -/
  | retired
  /-- The scope is not suspended. -/
  | free
  /-- `prepare_cycle` has read the row. -/
  | read (existing : Option CoverageRow)
  /-- A full cycle is to be begun, in pages of that many blocks. -/
  | begins (pageBlocks : ℕ)
  /-- A cycle has been begun, or is gone on with. -/
  | begun (row : CoverageRow)
  /-- The loop goes round. -/
  | loop (l : Locals)
  /-- A page has been verified. -/
  | page (l : Locals) (cursor : Block) (payloads : List P) (hs : List BlockHeader)
  /-- The record has been asked for its newest certified block. -/
  | marked (l : Locals) (cursor : Block) (payloads : List P) (hs : List BlockHeader)
    (certified : Option ObservedBlock)
  /-- A page is to be committed, with the cursor after it. -/
  | commit (l : Locals) (cursor : Block) (payloads : List P) (next : Option Block)
  /-- The call says that the target is reached. -/
  | reached (target : ObservedBlock)

universe u

variable {σ : Type u}

/-- **A proof outline** of the loop: an assertion for each point, and that each operation leads from one to
the next. -/
structure LoopOutline (I : Interface σ (Op P) Op.Resp) (stream : HistoryStream P) where
  At : Point P → σ → Prop
  stable : ∀ p, Stable I (At p)
  asks : ∀ e : Op P, e.Asks → ∀ s, I.pre e s ∧ ∀ r t, I.sem e s r t → t = s
  /-- A call that settles a failure is at its end. -/
  settle : ∀ error s, I.pre (.settleHistoryFailure error) s
  current : ∀ {slot id}, stream.scope.sidechain = some slot →
    stream.scope.sidechainInstanceId = some id → ∀ s, I.pre (.currentSidechainInstanceId slot) s ∧
      ∀ c t, I.sem (.currentSidechainInstanceId slot) s (.ok c) t → t = s ∧ (c ≠ some id → At .retired t)
  supersede : ∀ {slot id}, stream.scope.sidechain = some slot →
    stream.scope.sidechainInstanceId = some id → ∀ reason s, At .retired s →
      I.pre (.supersedeHistory slot id reason) s
  begin : ∀ tip page, Leads I (At (.begins page)) (.beginHistoryCycle stream.activationHeight none tip none
    (checkedSub stream.activationHeight 1) page) fun r t => ∀ row, r = .ok row → At (.begun row) t
  enter : ∀ l s, At (.begun l.progress) s → At (.loop l) s
  anew : ∀ l s, At (.loop l) s → At (.begins l.progress.effectivePageBlocks) s
  fetch : ∀ l cursor remaining, l.progress.next = some cursor →
    blocksThroughFloor cursor.height l.progress.floorHeight = .ok remaining →
    Leads I (At (.loop l)) (.fetch cursor.observed (min remaining l.progress.effectivePageBlocks))
      fun r t => At (.loop l) t ∧ ∀ payloads hs, r = .ok payloads →
        verifyPageWith stream payloads cursor (min remaining l.progress.effectivePageBlocks) = .ok () →
        PageOf stream cursor payloads hs → payloads.length ≤ remaining → At (.page l cursor payloads hs) t
  probe : ∀ l cursor remaining, l.progress.next = some cursor →
    blocksThroughFloor cursor.height l.progress.floorHeight = .ok remaining →
    Leads I (At (.loop l)) (.fetch l.target 1) fun _ t => At (.loop l) t
  shrink : ∀ l error, Leads I (At (.loop l))
    (.resizeHistoryPage (max (l.progress.effectivePageBlocks / 2) 1) error) fun r t => r = .ok () →
      At (.loop { l with progress := { l.progress with
        effectivePageBlocks := max (l.progress.effectivePageBlocks / 2) 1 } }) t
  floor : ∀ l cursor payloads hs, Leads I (At (.page l cursor payloads hs))
    (.certifiedHistoryFloor (hs.map (·.hash))) fun r t => ∀ certified, r = .ok certified →
      At (.marked l cursor payloads hs certified) t
  /-- The block that is certified is in the page: the page ends with it. -/
  cut : ∀ l cursor payloads hs certified index payload header, PageOf stream cursor payloads hs →
    payloads[index]? = some payload → stream.header payload = .ok header → hs[index]? = some header →
    header.hash = certified.hash →
    Leads I (At (.marked l cursor payloads hs (some certified))) (.setHistoryFloor cursor.observed
      ((checkedSub header.height 1).map fun _ => header.previousHash) (checkedSub header.height 1))
      fun r t => r = .ok () → At (.commit { l with progress := { l.progress with
        floorHash := (checkedSub header.height 1).map fun _ => header.previousHash
        floorHeight := checkedSub header.height 1 } } cursor (payloads.take (index + 1)) none) t
  keep : ∀ l cursor payloads hs remaining payload oldest next s, PageOf stream cursor payloads hs →
    blocksThroughFloor cursor.height l.progress.floorHeight = .ok remaining →
    payloads.length ≤ remaining → payloads.getLast? = some payload → stream.header payload = .ok oldest →
    hs.getLast? = some oldest →
    validateExpectedStartHash stream l.progress.floorHash (decide (payloads.length = remaining))
      oldest.hash = .ok () →
    ¬ missesFloor l (decide (payloads.length = remaining)) oldest →
    nextCursor (decide (payloads.length = remaining)) oldest = .ok next →
    At (.marked l cursor payloads hs none) s → At (.commit l cursor payloads next) s
  repair : ∀ l cursor payloads hs s, At (.marked l cursor payloads hs none) s →
    At (.begins l.progress.effectivePageBlocks) s
  /-- Also a page that is cut is asked whether it joins its floor. -/
  recut : ∀ l cursor payloads s, At (.commit l cursor payloads none) s →
    At (.begins l.progress.effectivePageBlocks) s
  record : ∀ l cursor payloads next events, List.Forall₂ stream.EventOf payloads.reverse events →
    Leads I (At (.commit l cursor payloads next))
      (.recordHistoryPage events cursor.observed (next.map Block.observed)) fun r t =>
        ∀ inserted, r = .ok inserted → (next = none → At (.reached l.target) t) ∧
          (next ≠ none → At (.loop (l.moved events.length inserted next)) t)

/-- **A proof outline** of a call: that of its loop, and what leads up to it. -/
structure Outline (I : Interface σ (Op P) Op.Resp) (stream : HistoryStream P) (settings : Settings) extends
    LoopOutline I stream where
  check : Leads I (At .start) .historyCoverage fun r t => ∀ existing, r = .ok existing →
    ¬ (∃ row ∈ existing, row.quarantined) → At .free t
  read : Leads I (At .free) .historyCoverage fun r t => ∀ existing, r = .ok existing →
    At (.read existing) t
  first : ∀ s, At (.read none) s → At (.begins settings.pageBlocks) s
  running : ∀ row s, row.status = .running → At (.read (some row)) s → At (.begun row) s
  resume : ∀ row, Leads I (At (.read (some row))) .resumeHistory fun r t => r = .ok () →
    At (.begun { row with status := .running, lastError := none }) t
  upToDate : ∀ row covered (tip : ObservedBlock) s, row.status = .complete → row.coveredTip = some covered →
    covered.hash = tip.hash → At (.read (some row)) s → At (.reached tip) s
  extend : ∀ row covered (tip : ObservedBlock) height, row.coveredTip = some covered →
    tip.height = some height → covered.height < height →
    Leads I (At (.read (some row))) (.beginHistoryCycle stream.activationHeight (some covered.observed) tip
      (some covered.hash) (some covered.height) (min row.effectivePageBlocks settings.pageBlocks))
      fun r t => ∀ row, r = .ok row → At (.begun row) t
  again : ∀ row s, At (.read (some row)) s →
    At (.begins (min row.effectivePageBlocks settings.pageBlocks)) s

section
variable {I : Interface σ (Op P) Op.Resp} {stream : HistoryStream P}
  (W : LoopOutline I stream) {s : σ} {l : Locals}

/-- What holds where a call, or a round of its loop, ends. -/
def LoopOutline.Ends (r : Locals ⊕ Outcome) (s : σ) : Prop :=
  Sum.elim (fun l => W.At (.loop l) s) (fun o => ∀ target ∈ o.reached?, W.At (.reached target) s) r

@[simp] theorem LoopOutline.ends_inl : W.Ends (.inl l) s ↔ W.At (.loop l) s := Iff.rfl

@[simp] theorem LoopOutline.ends_inr {o : Outcome} :
    W.Ends (.inr o) s ↔ ∀ target ∈ o.reached?, W.At (.reached target) s := Iff.rfl

/-- An outcome that names no target is always right. -/
theorem LoopOutline.ends_elsewhere {o : Outcome} (h : o.reached? = none) : W.Ends (.inr o) s := by
  intro target htarget
  rw [h] at htarget
  cases htarget

/-! ### The pieces -/

theorem LoopOutline.ask_ends {p : Point P} {e : Op P} {q : e.Resp → σ → Prop} (h : Leads I (W.At p) e q)
    (hs : W.At p s) : wpe I (ask e) q s :=
  wpe_call_of_leads I (W.stable p) h hs

/-- What is only asked changes nothing. -/
theorem LoopOutline.asks_keeps {p : Point P} {e : Op P} (he : e.Asks) (hs : W.At p s) :
    wpe I (ask e) (fun _ t => W.At p t) s := by
  refine W.ask_ends (fun t ht => ?_) hs
  obtain ⟨hpre, hsame⟩ := W.asks e he t
  exact ⟨hpre, fun r u hu => hsame r u hu ▸ ht⟩

theorem LoopOutline.scopeIsCurrent_keeps {p : Point P} (hs : W.At p s) :
    wpe I (scopeIsCurrent stream.scope)
      (fun current t => (current = true → W.At p t) ∧ (current = false → W.At .retired t)) s := by
  unfold scopeIsCurrent
  split
  · rename_i slot id hslot hid
    simp only [wpe_bind, wpe_attempt, wpe_pure]
    refine W.ask_ends (fun t ht => ?_) hs
    obtain ⟨hpre, hanswer⟩ := W.current hslot hid t
    refine ⟨hpre, ?_⟩
    rintro r u hu c rfl
    obtain ⟨rfl, hretired⟩ := hanswer c u hu
    exact ⟨fun _ => ht, fun hfalse => hretired (of_decide_eq_false hfalse)⟩
  · rw [wpe_pure]
    exact ⟨fun _ => hs, fun hfalse => by cases hfalse⟩

theorem LoopOutline.markSuperseded_ends (hs : W.At .retired s) :
    wpe I (markSuperseded stream.scope) (fun _ _ => True) s := by
  unfold markSuperseded
  split
  · rename_i slot id hslot hid
    simp only [wpe_bind, wpe_attempt]
    exact W.ask_ends (fun t ht => ⟨W.supersede hslot hid _ t ht, fun _ _ _ _ _ => trivial⟩) hs
  · simp only [wpe_pure]

/-- Nothing is asked of what leaves the loop with a failure. -/
theorem LoopOutline.leave_ends (error : Failure) (mode : FailureMode) : wpe I (leave error l mode) W.Ends s := by
  simp only [leave, settleFailure, wpe_bind]
  refine (wpe_call I _).mpr fun t _ => ⟨W.settle _ t, fun settled u _ => ?_⟩
  split
  · simp
  · split
    · simp only [wpe_pure]
      exact W.ends_elsewhere rfl
    · simp only [wpe_pure]
      exact W.ends_elsewhere rfl
    · simp
    · simp

theorem LoopOutline.beginFullCycle_begun (tip : ObservedBlock) {page : ℕ} (hs : W.At (.begins page) s) :
    wpe I (beginFullCycle stream tip page) (fun row t => W.At (.begun row) t) s := by
  simp only [beginFullCycle, wpe_bind, wpe_attempt, Result.context_eq_ok]
  exact W.ask_ends (W.begin tip page) hs

theorem LoopOutline.restart_ends (target : ObservedBlock)
    (hs : W.At (.begins l.progress.effectivePageBlocks) s) : wpe I (restart stream l target) W.Ends s := by
  simp only [restart, wpe_bind, wpe_pure, LoopOutline.ends_inl]
  exact wpe_mono I (fun row t hrow => W.enter _ t hrow) (W.beginFullCycle_begun target hs)

/-! ### A failed fetch -/

variable {settings : Settings} {cursor : Block} {remaining : ℕ}

theorem LoopOutline.targetAvailability_keeps (tip : ObservedBlock) (hcursor : l.progress.next = some cursor)
    (hremaining : blocksThroughFloor cursor.height l.progress.floorHeight = .ok remaining)
    (hs : W.At (.loop l) s) :
    wpe I (targetAvailability (P := P) tip l.target) (fun _ t => W.At (.loop l) t) s := by
  unfold targetAvailability
  split_ifs
  · rwa [wpe_pure]
  · simp only [targetIsAvailable, wpe_bind]
    refine wpe_mono I (fun answer t ht => ?_) (W.ask_ends (W.probe l cursor remaining hcursor hremaining) hs)
    split
    · simpa using ht
    · split_ifs <;> simpa using ht

theorem LoopOutline.cursorUnavailable_ends (error : Failure) (hcursor : l.progress.next = some cursor)
    (hremaining : blocksThroughFloor cursor.height l.progress.floorHeight = .ok remaining)
    (hs : W.At (.loop l) s) : wpe I (cursorUnavailable stream l error) W.Ends s := by
  simp only [cursorUnavailable, wpe_bind]
  refine wpe_mono I (fun answer t ht => ?_) (W.asks_keeps (e := .currentTip) trivial hs)
  split
  · split_ifs
    · exact W.leave_ends _ _
    · exact W.leave_ends _ _
  · simp only [wpe_bind]
    refine wpe_mono I (fun availability u hu => ?_) (W.targetAvailability_keeps _ hcursor hremaining ht)
    split
    · exact W.restart_ends _ (W.anew l u hu)
    · exact W.leave_ends _ _

theorem LoopOutline.shrinkPage_ends (error : Failure) (hs : W.At (.loop l) s) :
    wpe I (shrinkPage (P := P) l error) W.Ends s := by
  simp only [shrinkPage, wpe_bind]
  refine wpe_mono I (fun resized t ht => ?_) (W.ask_ends (W.shrink l error.message) hs)
  split
  · exact W.leave_ends _ _
  · simp only [wpe_pure, LoopOutline.ends_inl]
    exact ht rfl

/-! ### A page -/

/-- Each payload becomes the envelope of its own block. -/
theorem LoopOutline.historicalEvents_keeps {p : Point P} (payloads : List P) (hs : W.At p s) :
    wpe I (historicalEvents stream payloads)
      (fun events t => W.At p t ∧ List.Forall₂ stream.EventOf payloads events) s := by
  induction payloads generalizing s with
  | nil =>
    simp only [historicalEvents, wpe_pure]
    exact ⟨hs, .nil⟩
  | cons payload rest ih =>
    simp only [historicalEvents, wpe_bind, wpe_attempt, wpe_pure]
    intro header hheader
    refine wpe_mono I (fun now t ht event hevent => ?_) (W.asks_keeps (e := .now) trivial hs)
    exact wpe_mono I (fun events u hu => ⟨hu.1, .cons ⟨header, now, hheader, hevent⟩ hu.2⟩) (ih ht)

theorem LoopOutline.afterPage_ends {committed inserted : ℕ} {next : Option Block}
    (hlast : next = none → W.At (.reached l.target) s)
    (hnext : next ≠ none → W.At (.loop (l.moved committed inserted next)) s) :
    wpe I (afterPage (P := P) settings l committed inserted next) W.Ends s := by
  unfold afterPage
  simp only
  split_ifs with hnone hpause
  · simp only [wpe_pure, LoopOutline.ends_inr, Outcome.reached?]
    rintro _ ⟨⟩
    exact hlast hnone
  · simp only [wpe_pure, LoopOutline.ends_inl]
    exact hnext hnone
  · simp only [wpe_bind]
    refine wpe_mono I (fun shutdown t ht => ?_) (W.asks_keeps (e := .pagePause) trivial (hnext hnone))
    split_ifs
    · rw [wpe_pure]
      exact W.ends_elsewhere rfl
    · simp only [wpe_pure, LoopOutline.ends_inl]
      exact ht

theorem LoopOutline.commitPage_ends {payloads : List P} {next : Option Block}
    (hs : W.At (.commit l cursor payloads next) s) :
    wpe I (commitPage stream settings l cursor payloads next) W.Ends s := by
  simp only [commitPage, wpe_bind]
  refine wpe_mono I (fun events t ht => ?_) (W.historicalEvents_keeps payloads.reverse hs)
  refine wpe_mono I (fun recorded u hu => ?_) (W.ask_ends (W.record _ _ _ _ events ht.2) ht.1)
  split
  · obtain ⟨hlast, hnext⟩ := hu _ rfl
    exact W.afterPage_ends hlast hnext
  · split_ifs
    · rw [wpe_pure]
      exact W.ends_elsewhere rfl
    · exact W.leave_ends _ _

/-- Cut at a certified block, a page is the last of its cycle. -/
theorem LoopOutline.cutAtCertified_keeps {payloads : List P} {hs : List BlockHeader}
    {certified : Option ObservedBlock} (hpage : PageOf stream cursor payloads hs)
    (h : W.At (.marked l cursor payloads hs certified) s) :
    wpe I (cutAtCertified stream l cursor payloads (hs.map (·.hash)) certified)
      (fun cut t => (certified = none → cut = (l, payloads) ∧ W.At (.marked l cursor payloads hs none) t) ∧
        (certified ≠ none → W.At (.commit cut.1 cursor cut.2 none) t)) s := by
  unfold cutAtCertified
  cases certified with
  | none =>
    rw [wpe_pure]
    exact ⟨fun _ => ⟨rfl, h⟩, fun hne => absurd rfl hne⟩
  | some certified =>
    simp only [wpe_bind, wpe_attempt, wpe_pure, expect_eq_ok]
    intro index hindex payload hpayload header hheader
    -- the payload's header is the page's, and is the certified block's
    have hget : hs[index]? = some header := by
      obtain ⟨hlt, rfl⟩ := List.getElem?_eq_some_iff.mp hpayload
      have hlt' : index < hs.length := hpage.headers.length_eq ▸ hlt
      have heq := hpage.headers.get hlt hlt'
      simp only [List.get_eq_getElem] at heq
      rw [hheader] at heq
      rw [List.getElem?_eq_getElem hlt', Except.ok.inj heq]
    have hhash : header.hash = certified.hash := by
      obtain ⟨hlt, hfound, -⟩ := List.findIdx?_eq_some_iff_getElem.mp hindex
      obtain ⟨hlt', hget'⟩ := List.getElem?_eq_some_iff.mp hget
      simpa [hget'] using hfound
    refine wpe_mono I (fun r t ht u hr => ?_)
      (W.ask_ends (W.cut l cursor payloads hs certified index payload header hpage hpayload hheader hget hhash) h)
    exact ⟨fun hnone => (by cases hnone), fun _ => ht hr⟩

theorem LoopOutline.verifiedPage_ends {payloads : List P} {hs : List BlockHeader}
    (hpage : PageOf stream cursor payloads hs)
    (hremaining : blocksThroughFloor cursor.height l.progress.floorHeight = .ok remaining)
    (hlength : payloads.length ≤ remaining) (h : W.At (.page l cursor payloads hs) s) :
    wpe I (verifiedPage stream settings l cursor remaining payloads) W.Ends s := by
  simp only [verifiedPage, wpe_bind, wpe_attempt, mapM_eq_ok]
  intro headers hheaders
  obtain rfl : headers = hs := by
    have hunique : Relator.RightUnique fun p h => stream.header p = Except.ok h :=
      fun p x y hx hy => Except.ok.inj (hx.symm.trans hy)
    exact hunique.forall₂ hheaders hpage.headers
  refine wpe_mono I (fun answer t ht certified hanswer => ?_) (W.ask_ends (W.floor _ _ _ _) h)
  refine wpe_mono I (fun cut u hcut => ?_) (W.cutAtCertified_keeps hpage (ht certified hanswer))
  obtain ⟨l', payloads'⟩ := cut
  obtain ⟨huncut, hcommit⟩ := hcut
  simp only [expect_eq_ok]
  intro payload hpayload oldest holdest
  split
  · exact W.leave_ends _ _
  · rename_i hvalidate
    cases certified with
    | some certified =>
      have hcommit := hcommit (Option.some_ne_none certified)
      split_ifs
      · exact W.leave_ends _ _
      · exact W.restart_ends _ (W.recut _ _ _ _ hcommit)
      · simp only [wpe_bind, wpe_attempt, Option.isSome_some, Bool.true_or]
        rintro _ ⟨⟩
        exact W.commitPage_ends hcommit
    | none =>
      obtain ⟨hsame, hmarked⟩ := huncut rfl
      cases hsame
      have hlast : headers.getLast? = some oldest := by
        obtain ⟨x, hx, hxo⟩ := PairedLists.exists_getLast hpage.headers hpayload
        rw [hx, Except.ok.inj (hxo.symm.trans holdest)]
      simp only [Option.isSome_none, Bool.false_or] at hvalidate ⊢
      split_ifs with hmisses
      · exact W.leave_ends _ _
      · exact W.restart_ends _ (W.repair _ _ _ _ _ hmarked)
      · simp only [wpe_bind, wpe_attempt]
        intro next hnext
        exact W.commitPage_ends (W.keep _ _ _ _ _ _ _ _ _ hpage hremaining hlength hpayload holdest hlast
          hvalidate hmisses hnext hmarked)

/-! ### One iteration -/

/-- **A round of the loop** keeps to the outline. -/
theorem LoopOutline.iterate_ends (hs : W.At (.loop l) s) : wpe I (iterate stream settings l) W.Ends s := by
  simp only [iterate, wpe_bind]
  refine wpe_mono I (fun shutdown t ht => ?_) (W.asks_keeps (e := .shutdownRequested) trivial hs)
  split_ifs
  · rw [wpe_pure]
    exact W.ends_elsewhere rfl
  · simp only [wpe_bind]
    refine wpe_mono I (fun current u hcurrent => ?_) (W.scopeIsCurrent_keeps ht)
    split_ifs with hc
    · simp only [walk, wpe_bind, wpe_attempt, expect_eq_ok]
      intro cursor hcursor remaining hremaining
      refine wpe_mono I (fun answer v hv => ?_)
        (W.ask_ends (W.fetch l cursor remaining hcursor hremaining) (hcurrent.1 hc))
      obtain ⟨hloop, hpage⟩ := hv
      unfold fetched
      split
      · exact W.cursorUnavailable_ends _ hcursor hremaining hloop
      · rename_i payloads _
        unfold foundPage
        split
        · exact W.leave_ends _ _
        · rename_i hverify
          obtain ⟨hlength, headers, hheaders, hisPage⟩ := verifyPageWith_eq_ok hverify
          have hlength := hlength.trans (min_le_left _ _)
          exact W.verifiedPage_ends ⟨hheaders, hisPage⟩ hremaining hlength
            (hpage payloads headers rfl hverify ⟨hheaders, hisPage⟩ hlength)
      · split_ifs
        · exact W.cursorUnavailable_ends _ hcursor hremaining hloop
        · exact W.shrinkPage_ends _ hloop
        · exact W.leave_ends _ _
        · exact W.leave_ends _ _
    · simp only [wpe_bind, wpe_pure]
      exact wpe_mono I (fun _ _ _ => W.ends_elsewhere rfl)
        (W.markSuperseded_ends (hcurrent.2 (by simpa using hc)))

/-! ### Up to the loop -/

section
variable {settings : Settings} (W : Outline I stream settings)

/-- What holds of a prepared cycle: the row that is gone on with, or that nothing is to be done. -/
def Outline.Prepared (tip : ObservedBlock) (r : Option CoverageRow) (s : σ) : Prop :=
  r.elim (W.At (.reached tip) s) fun row => W.At (.begun row) s

theorem Outline.some_prepared {tip : ObservedBlock} {p : Engine P CoverageRow}
    (h : wpe I p (fun row t => W.At (.begun row) t) s) :
    wpe I (p >>= fun row => pure (some row)) (W.Prepared tip) s := by
  simp only [wpe_bind, wpe_pure]
  exact h

theorem Outline.resumeCycle_begun {row : CoverageRow} (hs : W.At (.read (some row)) s) :
    wpe I (resumeCycle stream row) (fun row t => W.At (.begun row) t) s := by
  simp only [resumeCycle, wpe_bind, wpe_attempt, wpe_pure, Result.context_eq_ok]
  exact wpe_mono I (fun _ _ h _ hr => h hr) (W.ask_ends (W.resume row) hs)

theorem Outline.extendCycle_prepared {row : CoverageRow} {tip : ObservedBlock} {height : ℕ}
    (hcomplete : row.status = .complete) (hheight : tip.height = some height)
    (hs : W.At (.read (some row)) s) :
    wpe I (extendCycle stream row tip height settings.pageBlocks) (W.Prepared tip) s := by
  simp only [extendCycle, wpe_bind, wpe_attempt, expect_eq_ok]
  intro covered hcovered
  split_ifs with hsame hlt
  · rw [wpe_pure]
    exact W.upToDate row covered tip s hcomplete hcovered hsame hs
  · simp only [wpe_bind, wpe_attempt, wpe_pure, Result.context_eq_ok]
    exact W.ask_ends (W.extend row covered tip height hcovered hheight hlt) hs
  · exact W.some_prepared (W.beginFullCycle_begun tip (W.again row s hs))

theorem Outline.prepareCycle_prepared (tip : ObservedBlock) (hs : W.At .free s) :
    wpe I (prepareCycle stream tip settings.pageBlocks) (W.Prepared tip) s := by
  simp only [prepareCycle, wpe_bind, wpe_attempt, requiredHeight_eq_ok, Result.context_eq_ok]
  intro height hheight _ _
  refine wpe_mono I (fun r t hread existing hr => ?_) (W.ask_ends W.read hs)
  have hexisting := hread existing hr
  cases existing with
  | none => exact W.some_prepared (W.beginFullCycle_begun tip (W.first t hexisting))
  | some existing =>
    simp only [wpe_bind, wpe_attempt]
    intro _ _
    split
    · next hrunning =>
      rw [wpe_pure]
      exact W.running existing t hrunning hexisting
    · exact W.some_prepared (W.resumeCycle_begun hexisting)
    · exact W.some_prepared (W.resumeCycle_begun hexisting)
    · next hcomplete => exact W.extendCycle_prepared hcomplete hheight hexisting

/-- **Up to its loop** a call keeps to the outline. -/
theorem Outline.runHistory_ends (tip : ObservedBlock) (hs : W.At .start s) :
    wpe I (runHistory stream tip settings) W.Ends s := by
  simp only [runHistory, wpe_bind]
  refine wpe_mono I (fun current t hcurrent => ?_) (W.scopeIsCurrent_keeps hs)
  cases current with
  | false =>
    simp only [Bool.false_eq_true, if_false, wpe_bind, wpe_pure]
    exact wpe_mono I (fun _ _ _ => W.ends_elsewhere rfl) (W.markSuperseded_ends (hcurrent.2 rfl))
  | true =>
    simp only [if_true, isQuarantined, wpe_bind, wpe_attempt, wpe_pure, Result.context_eq_ok]
    refine wpe_mono I (fun r u hcheck existing hr => ?_) (W.ask_ends W.check (hcurrent.1 rfl))
    split_ifs with hquarantined
    · rw [wpe_pure]
      exact W.ends_elsewhere rfl
    · have hfree := hcheck existing hr (by simpa using hquarantined)
      simp only [wpe_bind]
      refine wpe_mono I (fun progress v hprogress => ?_) (W.prepareCycle_prepared tip hfree)
      cases progress with
      | none =>
        simp only [wpe_pure, LoopOutline.ends_inr, Outcome.reached?]
        rintro _ ⟨⟩
        exact hprogress
      | some progress =>
        simp only [wpe_pure, LoopOutline.ends_inl]
        exact W.enter _ v hprogress

end

end

end Bip300Monitor.Backfill
