import Bip300Monitor.Backfill.Beginning

/-!
# The rounds of a call that is served

Each round of the loop ends in time: it makes the page smaller, begins the walk again, commits a page that is
not the last, or leaves with the scope complete or suspended.

## What is proved

* `recordHistoryPage_accepts` — the record takes a page of a walk, and the trigger the last one;
* `timely_verifiedPage` — a page that is found is committed, or sends the walk back to its target once;
* `timely_iterate` — a round leaves the rest of the call enough time.
-/

namespace Bip300Monitor.Backfill

open Protobuf Transaction Runs Resumption

variable {P : Type} [Digests] {imp : Import P} {hdr : Headers} {run : Uuid} {bound n : ℕ}
  {s t : imp.Readied hdr run} {target : Block} {l : Locals}

/-! ### The page is recorded -/

/-- **A page of a walk is recorded.** A conflict suspends the scope; without one the row moves, and the last
page completes it. -/
theorem recordHistoryPage_accepts {db : Db} {events : List Event} {cursor : Block} {hs : List BlockHeader}
    {oldest : BlockHeader} {next : Option Block} {row : CoverageRow} (hdb : imp.Ready (served hdr) run db)
    (hrow : imp.row db = some row) (hrunning : row.status = .running) (hcursor : row.next = some cursor)
    (hne : events ≠ []) (hholds : ∀ event ∈ events, imp.stream.scope.Holds event)
    (hp : imp.HonestPage hdr db events (next.map Block.observed) cursor hs oldest)
    (hnext : ∀ b ∈ next, b.hash.length = 32 ∧ b.height ≤ maxHeight) :
    ∃ r t, recordHistoryPage (imp.store run) events ⟨imp.stream.scope, cursor.observed,
        next.map Block.observed⟩ db = (r, t) ∧
      ((r = .error HistoryConflict ∧ imp.Suspended t) ∨
        ∃ inserted, r = .ok inserted ∧ (next = none → imp.Complete row.targetTip t)) := by
  have hinv := hdb.durable.row row hrow
  have hfits : cursor.height ≤ maxHeight := (hinv.next_le cursor hcursor).trans hinv.target_le
  have hinserts : Tx.Succeeds (insertPage (imp.store run) events imp.stream.scope) db :=
    insertPage_accepts hdb.booked.ledger hdb.stands.running hdb.stands.registered hinv.scope hne hholds
  obtain ⟨inserted, u, hinsert⟩ := hinserts
  have hgrows := grows_insertPage _ _ _ hinsert
  have hurow : u.coverage imp.key = some row := by
    rw [hgrows.coverage]
    exact hrow
  obtain ⟨hslot, hcovered, htarget, hfloor, hnextHash, hboth, hpage, -⟩ := hinv.valid
  by_cases hconflict : u.pageConflict imp.key (pageHashes events) next.isNone
  · -- the scope is suspended at its cursor
    have hvalid : (row.afterPage cursor next true inserted).valid imp.key := by
      refine ⟨hslot, ?_, htarget, hfloor, fun b hb => ?_, hboth, hpage, iff_of_false (by simp [CoverageRow.afterPage])
        (Option.some_ne_none cursor)⟩
      · simpa only [CoverageRow.afterPage, Bool.not_true, Bool.and_false, Bool.false_eq_true, if_false]
          using hcovered
      · cases hb
        exact hnextHash cursor hcursor
    have hwrite : writeCoverage imp.key (row.afterPage cursor next true inserted) u =
        .ok ((), u.setCoverage imp.key (row.afterPage cursor next true inserted)) :=
      (writeCoverage_eq_ok (by simp [CoverageRow.afterPage])).mpr ⟨hvalid, rfl⟩
    rw [← decide_eq_true hconflict] at hwrite
    have hok := recordHistoryPageTx_accepts hinv.scope hne hfits (fun b hb => (hnext b hb).2) hinsert hurow
      hcursor hrunning hwrite
    rw [imp.store_key, decide_eq_true hconflict] at hok
    refine ⟨_, _, by rw [recordHistoryPage, Tx.commit_eq_ok.mpr hok]; rfl, .inl ⟨rfl, ?_, ?_⟩⟩
    · exact ⟨_, Db.setCoverage_coverage_self _ _ _, rfl, rfl⟩
    · by_contra hno
      exact Db.not_pageConflict hno _ _ hconflict
  · cases next with
    | some b =>
      -- the row moves to its next cursor
      have hvalid : (row.afterPage cursor (some b) false inserted).valid imp.key := by
        refine ⟨hslot, hcovered, htarget, hfloor, fun b' hb' => ?_, hboth, hpage,
          iff_of_false (by simp [CoverageRow.afterPage]) (Option.some_ne_none b)⟩
        cases hb'
        exact (hnext b rfl).1
      have hwrite : writeCoverage imp.key (row.afterPage cursor (some b) false inserted) u =
          .ok ((), u.setCoverage imp.key (row.afterPage cursor (some b) false inserted)) :=
        (writeCoverage_eq_ok (by simp [CoverageRow.afterPage])).mpr ⟨hvalid, rfl⟩
      rw [← decide_eq_false hconflict] at hwrite
      have hok := recordHistoryPageTx_accepts hinv.scope hne hfits (fun b hb => (hnext b hb).2) hinsert hurow
        hcursor hrunning hwrite
      rw [imp.store_key, decide_eq_false hconflict] at hok
      exact ⟨_, _, by rw [recordHistoryPage, Tx.commit_eq_ok.mpr hok]; rfl,
        .inr ⟨inserted, rfl, fun h => (by cases h)⟩⟩
    | none =>
      -- the trigger certifies the target
      have hno : ¬ u.retainsConflict imp.key := fun h => hconflict (.inr ⟨rfl, h⟩)
      have hu : CertifiedPrefix imp.startOf u := hgrows.keeps.inv hdb.durable.certified
      have hhonest := hdb.durable.honest trivial
      have hcertifies : ∃ w, certifyHistory imp.key (row.afterPage cursor none false inserted) u = .ok ((), w) :=
        certifyHistory_accepts hu (hu.sound.unambiguous hno) (hp.recordedFacts hhonest hinsert).1
          (hu.start _ row hurow) rfl rfl (hp.grounded hhonest (hinv.descends trivial cursor hcursor) hinsert)
      obtain ⟨w, hw⟩ := hcertifies
      have hok := recordHistoryPageTx_final hne hinv.scope hfits hinsert hno hurow hcursor hrunning
        (hinv.valid.afterFinalPage cursor inserted) hw
      refine ⟨_, _, by rw [recordHistoryPage, Option.map_none, Tx.commit_eq_ok.mpr hok]; rfl,
        .inr ⟨inserted, rfl, fun _ => ?_⟩⟩
      exact ⟨_, row.targetTip, Db.setCoverage_coverage_self _ _ _, rfl, rfl, rfl⟩

/-! ### Committing a page -/

/-- Each payload becomes an event that the scope can hold. -/
theorem timely_historicalEvents {payloads : List P}
    (h : ∀ p ∈ payloads, ∃ h, imp.stream.header p = .ok h ∧ imp.Recordable p h ∧ h.height ≤ maxHeight)
    (hn : n + payloads.length ≤ bound) :
    Timely imp hdr run bound (historicalEvents imp.stream payloads) (fun events t m =>
      imp.Goes s.1 t.1 ∧ m = n + payloads.length ∧ (∀ event ∈ events, imp.stream.scope.Holds event) ∧
        List.Forall₂ (fun p event => ∃ h, imp.stream.header p = .ok h ∧
          Carries imp.stream.scope event h) payloads events) s n := by
  induction payloads generalizing s n with
  | nil =>
    simp only [historicalEvents, Timely, total_pure]
    exact ⟨.refl _, rfl, fun _ h => (by cases h), .nil⟩
  | cons payload rest ih =>
    obtain ⟨header, hheader, hrecordable, hfits⟩ := h payload List.mem_cons_self
    rw [List.length_cons] at hn
    simp only [historicalEvents, Timely, total_bind, total_attempt, total_pure]
    refine ⟨header, hheader, (timely_ask _).mpr fun t hst => ⟨⟨⟨trivial, trivial⟩, by omega⟩, ?_⟩⟩
    rintro now u ⟨env, henv, hperform⟩
    obtain rfl : t = u := Subtype.ext (congrArg Prod.snd hperform)
    obtain rfl : env.now = now := congrArg Prod.fst hperform
    obtain ⟨time, htime⟩ := henv.now
    obtain ⟨event, hevent, hholds⟩ := hrecordable.holds hfits time
    rw [← htime] at hevent
    obtain ⟨hanchor, hprevious, hkind⟩ :=
      imp.stream.envelope_faithful payload header _ env.now event hheader hevent
    refine ⟨event, hevent, total_mono (fun events v m hv => ?_)
      (ih (fun p hp => h p (List.mem_cons_of_mem _ hp)) (by omega))⟩
    obtain ⟨htv, rfl, hall, hcarry⟩ := hv
    refine ⟨hst.trans htv, by rw [List.length_cons]; omega, ?_, .cons ⟨header, hheader, hanchor, hprevious, hkind⟩ hcarry⟩
    intro event' hevent'
    rcases List.mem_cons.mp hevent' with rfl | hevent'
    · exact hholds
    · exact hall event' hevent'

/-- What follows a committed page. -/
theorem timely_afterPage {settings : Settings} {committed inserted : ℕ} {next : Option Block}
    (hends : next = none → imp.Complete target s.1 ∧ n + 1 ≤ bound)
    (hgoes : next ≠ none → imp.Walking target (l.moved committed inserted next) s.1 ∧
      n + 2 + (l.moved committed inserted next).budget ≤ bound) :
    Timely imp hdr run bound (afterPage settings l committed inserted next)
      (fun r t m => imp.Ended target bound r t.1 m) s n := by
  unfold afterPage
  simp only
  split_ifs with hnext hpause
  · simp only [Timely, total_pure]
    exact hends hnext
  · simp only [Timely, total_pure]
    obtain ⟨hwalking, htime⟩ := hgoes hnext
    refine ⟨hwalking, ?_⟩
    change n + 1 + (l.moved committed inserted next).budget ≤ bound
    omega
  · obtain ⟨hwalking, htime⟩ := hgoes hnext
    simp only [Timely, total_bind]
    refine (timely_ask _).mpr fun t hst => ⟨⟨⟨trivial, trivial⟩, by omega⟩, ?_⟩
    rintro r u ⟨env, henv, hperform⟩
    obtain rfl : t = u := Subtype.ext (congrArg Prod.snd hperform)
    obtain rfl : false = r := henv.quiet.shutdown.symm.trans (congrArg Prod.fst hperform)
    simp only [Bool.false_eq_true, if_false, total_pure]
    exact ⟨hwalking.goes hst, htime⟩

/-- **A page is committed in time**, with its new cursor. -/
theorem timely_commitPage {settings : Settings} {cursor : Block} {payloads : List P} {hs : List BlockHeader}
    {oldest : BlockHeader} {next : Option Block} (h : PageAt (served hdr) imp l cursor payloads hs s.1)
    (htarget : l.progress.targetTip = target) (hlast : hs.getLast? = some oldest)
    (hnext : NextOk (served hdr) imp l cursor oldest next s.1)
    (hrecordable : ∀ p ∈ payloads, ∃ h, imp.stream.header p = .ok h ∧ imp.Recordable p h)
    (hn : n + payloads.length + 2 ≤ bound)
    (hgoes : next ≠ none → imp.Walking target l s.1 ∧
      ∀ committed inserted, n + payloads.length + 3 + (l.moved committed inserted next).budget ≤ bound) :
    Timely imp hdr run bound (commitPage imp.stream settings l cursor payloads next)
      (fun r t m => imp.Ended target bound r t.1 m) s n := by
  have hheaders {p : P} {x y : BlockHeader} (hx : imp.stream.header p = .ok x)
      (hy : imp.stream.header p = .ok y) : x = y := Except.ok.inj (hx.symm.trans hy)
  have hfits : cursor.height ≤ maxHeight := by
    obtain ⟨row, hrow, hagrees⟩ := h.loop
    have hinv := s.2.durable.row row hrow
    exact (hinv.next_le cursor (hagrees.next.trans h.next)).trans hinv.target_le
  have hpayloads : ∀ p ∈ payloads.reverse, ∃ h, imp.stream.header p = .ok h ∧ imp.Recordable p h ∧
      h.height ≤ maxHeight := by
    intro p hp
    have hp := List.mem_reverse.mp hp
    obtain ⟨x, hx, hrec⟩ := hrecordable p hp
    obtain ⟨y, hy, hpy⟩ := PairedLists.exists_mem h.headers hp
    obtain rfl := hheaders hx hpy
    exact ⟨x, hx, hrec, (h.page.height_le hy).trans hfits⟩
  simp only [commitPage, Timely, total_bind]
  refine total_mono (fun events t m ht => ?_)
    (timely_historicalEvents hpayloads (by rw [List.length_reverse]; omega))
  obtain ⟨hst, rfl, hholds, hevents⟩ := ht
  rw [List.length_reverse]
  refine (timely_ask _).mpr fun u htu => ?_
  have hsu := hst.trans htu
  have hu := h.rely hsu.toRely
  have hnextU : NextOk (served hdr) imp l cursor oldest next u.1 :=
    ⟨hnext.goesOn, fun hn hh => (hnext.ends hn hh).rely hsu.toRely⟩
  obtain ⟨row, hrow, hagrees⟩ := hu.loop
  have hcursor := hagrees.next.trans hu.next
  obtain ⟨hne, hpage⟩ := hu.honestPage trivial hevents hlast hnextU
  refine ⟨⟨⟨⟨row, cursor, hrow, hcursor, hagrees.status, rfl, fun n hn => ?_,
    fun _ => ⟨hne, hs, oldest, hpage⟩⟩, hholds⟩, by omega⟩, ?_⟩
  · obtain ⟨b, hb, rfl⟩ := Option.map_eq_some_iff.mp hn
    obtain ⟨-, -, hlt, hbelow⟩ := hnextU.goesOn b hb
    exact ⟨b, rfl, hlt, fun floor hfloor => hbelow floor (hagrees.floorHeight ▸ hfloor)⟩
  · rintro r v ⟨env, henv, hperform⟩
    have hnextFits : ∀ b ∈ next, b.hash.length = 32 ∧ b.height ≤ maxHeight := by
      intro b hb
      obtain ⟨-, hprevious, hlt, -⟩ := hnextU.goesOn b hb
      obtain ⟨p, hp, hpo⟩ := PairedLists.exists_mem (List.Forall₂.flip h.headers) (List.mem_of_getLast? hlast)
      obtain ⟨x, hx, hrec⟩ := hrecordable p hp
      obtain rfl := hheaders hx hpo
      exact ⟨hprevious ▸ hrec.previousHash, hlt.le.trans hfits⟩
    have hquiet : imp.perform run env u.1 (.recordHistoryPage events cursor.observed
        (next.map Block.observed)) = recordHistoryPage (imp.store run) events ⟨imp.stream.scope,
          cursor.observed, next.map Block.observed⟩ u.1 := deliver_quiet henv.quiet _ _
    obtain ⟨r', w, hrecord, hout⟩ := recordHistoryPage_accepts u.2 hrow hagrees.status hcursor hne hholds
      hpage hnextFits
    have hsame := (hquiet.trans hrecord).symm.trans hperform
    obtain ⟨rfl, rfl⟩ := Prod.mk.inj hsame
    rcases hout with ⟨rfl, hsuspended⟩ | ⟨inserted, rfl, hcomplete⟩
    · simp only [HistoryConflict, if_true, total_pure]
      exact ⟨hsuspended, by omega⟩
    · refine timely_afterPage (fun hnone => ⟨?_, by omega⟩) fun hsome => ?_
      · rw [← htarget, ← hagrees.target]
        exact hcomplete hnone
      · obtain ⟨hwalking, htime⟩ := hgoes hsome
        refine ⟨{ hwalking with loop := ?_ }, ?_⟩
        · exact perform_recordHistoryPage hperform hu.loop hsome rfl
        · have := htime events.length inserted
          omega

/-! ### Rounds that commit nothing -/

omit [Digests] in
/-- What is left of the walk may be walked to its target. -/
theorem Import.Walking.targets {db : Db} {cursor : Block} (h : imp.Walking target l db)
    (hdb : imp.Durable (served hdr) db) (hnext : l.progress.next = some cursor) : imp.Targets target := by
  obtain ⟨row, hrow, hagrees⟩ := h.loop
  have hinv := hdb.row row hrow
  have htarget : row.targetTip = target := hagrees.target.trans h.target
  rw [← htarget]
  exact {
    scope := hinv.scope
    slot := hinv.valid.1
    above := (hinv.resumable trivial cursor (hagrees.next.trans hnext)).1
    fits := hinv.target_le
    hash := hinv.valid.2.2.1 }

omit [Digests] in
/-- A smaller page takes fewer steps. -/
theorem Locals.budget_shrink (l : Locals) {page : ℕ} (h : page < l.progress.effectivePageBlocks) :
    { l with progress := { l.progress with effectivePageBlocks := page } }.budget + 5 ≤ l.budget := by
  have hremaining : { l with progress := { l.progress with effectivePageBlocks := page } }.remaining =
      l.remaining := rfl
  unfold Locals.budget
  rw [hremaining]
  dsimp only
  omega

/-- The page is halved, in the fourth operation of a round. -/
theorem timely_shrinkPage (error : Failure) (h : imp.Walking target l s.1)
    (hmany : 1 < l.progress.effectivePageBlocks) (hn : n + l.budget ≤ bound + 3) :
    Timely imp hdr run bound (shrinkPage l error) (fun r t m => imp.Ended target bound r t.1 m) s n := by
  let reduced := max (l.progress.effectivePageBlocks / 2) 1
  have hless : reduced < l.progress.effectivePageBlocks := by omega
  let l' : Locals := { l with progress := { l.progress with effectivePageBlocks := reduced } }
  have hbudget : l'.budget + 5 ≤ l.budget := l.budget_shrink hless
  have hpos : 0 < reduced := by omega
  have hsized : reduced ≤ maxHeight := hless.le.trans h.sized
  simp only [shrinkPage, Timely, total_bind]
  refine (timely_ask _).mpr fun t hst => ⟨⟨⟨trivial, hsized⟩, by omega⟩, ?_⟩
  rintro r u ⟨env, henv, hperform⟩
  have hwalking := h.goes hst
  obtain ⟨row, hrow, hagrees⟩ := hwalking.loop
  have hinv := t.2.durable.row row hrow
  have hvalid : CoverageRow.valid { row with effectivePageBlocks := reduced, lastError := some error.message }
      imp.key := by
    obtain ⟨h₁, h₂, h₃, h₄, h₅, h₆, -, h₈⟩ := hinv.valid
    exact ⟨h₁, h₂, h₃, h₄, h₅, h₆, hpos, h₈⟩
  have hok : resizeHistoryPage (imp.store run) imp.stream.scope reduced error.message t.1 =
      .ok ((), t.1.setCoverage imp.key
        { row with effectivePageBlocks := reduced, lastError := some error.message }) :=
    resizeHistoryPage_accepts hinv.scope hrow hagrees.status hsized hvalid
  have hquiet : imp.perform run env t.1 (.resizeHistoryPage reduced error.message) = (.ok (), t.1.setCoverage
      imp.key { row with effectivePageBlocks := reduced, lastError := some error.message }) := by
    rw [← Tx.commit_eq_ok.mpr hok]
    exact deliver_quiet henv.quiet _ _
  have hsame := hquiet.symm.trans hperform
  obtain ⟨rfl, -⟩ := Prod.mk.inj hsame
  simp only [total_pure]
  refine ⟨⟨perform_resizeHistoryPage hperform hwalking.loop, h.target, hpos, hsized, h.noFloor⟩, ?_⟩
  change n + 1 + 1 + l'.budget ≤ bound
  omega

/-- The walk begins again, in the fifth operation of a round. -/
theorem timely_restart (h : imp.Walking target l s.1) (htarget : imp.Targets target)
    (hfirst : l.restartedFromActivation = false) (hn : n + l.budget ≤ bound + 4) :
    Timely imp hdr run bound (restart imp.stream l l.target)
      (fun r t m => imp.Ended target bound r t.1 m) s n := by
  have hbudget : l.budget = 8 * l.remaining + 5 * l.progress.effectivePageBlocks +
      (8 * (target.height + 1) + 6) := by
    rw [← h.target, Locals.budget, hfirst]
    rfl
  simp only [restart, Timely, total_bind, Locals.target, h.target]
  refine total_mono (fun row t m hrow => ?_)
    (timely_beginFullCycle htarget h.loop.not_quarantined h.pos h.sized (by omega))
  obtain ⟨hstarts, rfl⟩ := hrow
  let l' : Locals := { l with progress := row, restartedFromActivation := true }
  have hwalking : imp.Walking target l' t.1 := {
    loop := hstarts.begun.loopInv rfl
    target := hstarts.towards
    pos := hstarts.page.symm ▸ h.pos
    sized := hstarts.page.symm ▸ h.sized
    noFloor := fun _ => hstarts.floorHash }
  have hremaining := hwalking.remaining_le t.2.durable
  have hbudget' : l'.budget = 8 * l'.remaining + 5 * l.progress.effectivePageBlocks := by
    rw [Locals.budget, ← hstarts.page]
    rfl
  simp only [total_pure]
  refine ⟨hwalking, ?_⟩
  change n + 1 + 1 + l'.budget ≤ bound
  omega

/-! ### A page that is found -/

theorem timely_certifiedHistoryFloor (hashes : List Bytes)
    {Q : Result (Option ObservedBlock) → imp.Readied hdr run → ℕ → Prop} (hn : n < bound)
    (h : ∀ r (t : imp.Readied hdr run), imp.Goes s.1 t.1 → (∀ floor, r = some floor →
      ∃ c ∈ t.1.certified, c.scope = imp.key ∧ c.blockHash ∈ hashes ∧ floor.hash = c.blockHash) →
        Q (.ok r) t (n + 1)) :
    Timely imp hdr run bound (ask (.certifiedHistoryFloor hashes)) Q s n := by
  refine (timely_ask _).mpr fun t hst => ⟨⟨⟨trivial, trivial⟩, hn⟩, ?_⟩
  rintro r u ⟨env, henv, hperform⟩
  obtain ⟨floor, hok⟩ : ∃ floor, certifiedHistoryFloor (imp.store run) imp.stream.scope hashes t.1 =
      .ok (floor, t.1) := ⟨_, Tx.read_bind_eq_ok.mpr rfl⟩
  have hquiet : imp.perform run env t.1 (.certifiedHistoryFloor hashes) = (.ok floor, t.1) := by
    rw [← Tx.commit_eq_ok.mpr hok]
    exact deliver_quiet henv.quiet _ _
  obtain ⟨-, hfound⟩ := perform_certifiedHistoryFloor hquiet
  obtain ⟨rfl, htu⟩ := Prod.mk.inj (hquiet.symm.trans hperform)
  obtain rfl : t = u := Subtype.ext htu
  refine h floor t hst fun b hb => ?_
  obtain ⟨c, hc, hscope, hhash, rfl⟩ := hfound b hb
  exact ⟨c, hc, hscope, hhash, rfl⟩

/-- **The page is cut at a certified block**, above a floor that it joins. -/
theorem timely_cutAtCertified {cursor : Block} {payloads : List P} {hs : List BlockHeader}
    {floor : ObservedBlock} (h : PageAt (served hdr) imp l cursor payloads hs s.1)
    (hrecordable : ∀ p ∈ payloads, ∃ h, imp.stream.header p = .ok h ∧ imp.Recordable p h)
    (hfound : ∃ c ∈ s.1.certified, c.scope = imp.key ∧ c.blockHash ∈ hs.map (·.hash) ∧
      floor.hash = c.blockHash) (hn : n < bound) :
    Timely imp hdr run bound (cutAtCertified imp.stream l cursor payloads (hs.map (·.hash)) (some floor))
      (fun r t m => m = n + 1 ∧ r.1.progress.targetTip = l.progress.targetTip ∧
        ∃ index oldest, r.2 = payloads.take (index + 1) ∧
          PageAt (served hdr) imp r.1 cursor r.2 (hs.take (index + 1)) t.1 ∧
          (hs.take (index + 1)).getLast? = some oldest ∧ oldest ∈ hs ∧ t.1.certifies imp.key oldest.block ∧
          r.1.progress.floorHash = (checkedSub oldest.height 1).map fun _ => oldest.previousHash) s n := by
  obtain ⟨c, hc, hscope, hmem, hfloorHash⟩ := hfound
  obtain ⟨index, hindex⟩ : ∃ index, (hs.map (·.hash)).findIdx? (· = floor.hash) = some index := by
    refine Option.isSome_iff_exists.mp (List.findIdx?_isSome.trans ?_)
    exact List.any_eq_true.mpr ⟨c.blockHash, hmem, decide_eq_true hfloorHash.symm⟩
  obtain ⟨hlt, hhash, -⟩ := List.findIdx?_eq_some_iff_getElem.mp hindex
  rw [List.length_map] at hlt
  have hltP : index < payloads.length := h.headers.length_eq ▸ hlt
  have hheader := h.headers.get hltP hlt
  simp only [List.get_eq_getElem] at hheader
  have hmemH : hs[index] ∈ hs := List.getElem_mem hlt
  have hheaderHash : hs[index].hash = floor.hash := by simpa using hhash
  generalize hoeq : hs[index] = oldest at hheader hmemH hheaderHash
  obtain ⟨x, hx, hrec⟩ := hrecordable _ (List.getElem_mem hltP)
  obtain rfl : oldest = x := Except.ok.inj (hheader.symm.trans hx)
  simp only [cutAtCertified, Timely, total_bind, total_attempt, total_pure, expect_eq_ok]
  refine ⟨index, hindex, payloads[index], List.getElem?_eq_getElem hltP, oldest, hheader, ?_⟩
  refine (timely_ask _).mpr fun t hst => ?_
  have ht := h.rely hst.toRely
  obtain ⟨row, hrow, hagrees⟩ := ht.loop
  have hcursor := hagrees.next.trans ht.next
  have hinv := t.2.durable.row row hrow
  have hcert := t.2.durable.floorOk trivial (ht.tells trivial oldest hmemH)
    ⟨c, hst.certified hc, hscope, hfloorHash.symm.trans hheaderHash.symm⟩
  have hbelow : ∀ below, checkedSub oldest.height 1 = some below → below < cursor.height := by
    intro below hbelow
    obtain ⟨hone, rfl⟩ := checkedSub_eq_some.mp hbelow
    have := h.page.height_le hmemH
    omega
  refine ⟨⟨⟨⟨row, cursor, hrow, hcursor, hbelow, fun _ => hcert.2⟩, trivial⟩, hn⟩, ?_⟩
  rintro r u ⟨env, henv, hperform⟩
  let floorHeight := checkedSub oldest.height 1
  let floorHash := floorHeight.map fun _ => oldest.previousHash
  have hvalid : CoverageRow.valid { row with floorHash := floorHash, floorHeight := floorHeight } imp.key := by
    obtain ⟨h₁, h₂, h₃, -, h₅, -, h₇, h₈⟩ := hinv.valid
    refine ⟨h₁, h₂, h₃, fun hash hhash => ?_, h₅, ?_, h₇, h₈⟩
    · obtain ⟨_, -, rfl⟩ := Option.map_eq_some_iff.mp hhash
      exact hrec.previousHash
    · by_cases hnone : floorHeight = none
      · exact .inl (Option.map_eq_none_iff.mpr hnone)
      · exact .inr hnone
  have hok : setHistoryFloor (imp.store run) imp.stream.scope cursor.observed floorHash floorHeight t.1 =
      .ok ((), t.1.setCoverage imp.key { row with floorHash := floorHash, floorHeight := floorHeight }) :=
    setHistoryFloor_accepts hrow hcursor hagrees.status
      (fun below h => (hbelow below h).le.trans ((hinv.next_le cursor hcursor).trans hinv.target_le)) hvalid
  have hquiet : imp.perform run env t.1 (.setHistoryFloor cursor.observed floorHash floorHeight) =
      (.ok (), t.1.setCoverage imp.key { row with floorHash := floorHash, floorHeight := floorHeight }) := by
    rw [← Tx.commit_eq_ok.mpr hok]
    exact deliver_quiet henv.quiet _ _
  obtain ⟨rfl, -⟩ := Prod.mk.inj (hquiet.symm.trans hperform)
  obtain ⟨hloop, hsame⟩ := perform_setHistoryFloor hperform ht.loop
  obtain ⟨d, hd, hdeq⟩ := hcert.1
  refine ⟨(), rfl, rfl, trivial, index, oldest, rfl, ⟨hloop, h.next, List.forall₂_take _ h.headers,
    h.page.take index, fun hh x hx => h.tells hh x (List.mem_of_mem_take hx)⟩, ?_, hmemH,
    ⟨d, hsame ▸ hd, hdeq⟩, rfl⟩
  rw [List.getLast?_take, if_neg (Nat.succ_ne_zero _), Nat.add_sub_cancel, List.getElem?_eq_getElem hlt, hoeq]
  rfl

omit [Digests] in
/-- The first block of the scope is the one that is expected. -/
theorem validateExpectedStartHash_ok {stream : HistoryStream P} {floorHash : Option Bytes} {completes : Bool}
    {hash : Bytes} (h : completes = true → floorHash = none → ∀ expected ∈ stream.expectedStartHash,
      hash = expected) : validateExpectedStartHash stream floorHash completes hash = .ok () := by
  unfold validateExpectedStartHash
  split
  · rename_i expected hexpected
    exact ensure_eq_ok.mpr (h rfl rfl expected hexpected)
  · rfl

omit [Digests] in
/-- The last payload is that of the oldest block. -/
theorem PageAt.last {C : Conditions} {cursor : Block} {payloads : List P} {hs : List BlockHeader} {db : Db}
    {oldest : BlockHeader} (h : PageAt C imp l cursor payloads hs db) (hlast : hs.getLast? = some oldest) :
    ∃ payload, payloads.getLast? = some payload ∧ imp.stream.header payload = .ok oldest :=
  PairedLists.exists_getLast (List.Forall₂.flip h.headers) hlast

omit [Digests] in
/-- Without a floor to join, a page that completes the walk ends at the start. -/
theorem PageAt.height_of_completes {cursor : Block} {payloads : List P} {hs : List BlockHeader} {db : Db}
    {oldest : BlockHeader} {remaining : ℕ} (h : PageAt (served hdr) imp l cursor payloads hs db)
    (hdb : imp.Durable (served hdr) db) (hlast : hs.getLast? = some oldest)
    (hremaining : blocksThroughFloor cursor.height l.progress.floorHeight = .ok remaining)
    (hlength : payloads.length = remaining) (hfloor : l.progress.floorHash = none) :
    oldest.height = imp.stream.activationHeight := by
  obtain ⟨row, hrow, hagrees⟩ := h.loop
  have hjoins := (hdb.row row hrow).floor trivial
  rw [hagrees.floorHash, hagrees.floorHeight, hfloor] at hjoins
  have hheight : oldest.height + payloads.length = cursor.height + 1 :=
    h.headers.length_eq ▸ h.page.height_last hlast
  rcases blocksThroughFloor_eq_ok.mp hremaining with ⟨hnone, rfl⟩ | ⟨floor, hsome, hlt, rfl⟩
  · rw [hnone] at hjoins
    have hzero : imp.stream.activationHeight = 0 := hjoins
    omega
  · rw [hsome] at hjoins
    rcases hjoins with hstart | ⟨hash, hhash, -⟩
    · omega
    · cases hhash

omit [Digests] in
/-- The blocks of a page that is not the last are no longer to be walked. -/
theorem Locals.budget_moved (l : Locals) (committed inserted : ℕ) {cursor b : Block} {blocks : ℕ}
    (hnext : l.progress.next = some cursor) (hb : b.height + blocks = cursor.height)
    (hfloor : ∀ floor, l.progress.floorHeight = some floor → floor < b.height) :
    (l.moved committed inserted (some b)).budget + 8 * blocks = l.budget := by
  have hremaining : (l.moved committed inserted (some b)).remaining + blocks = l.remaining := by
    unfold Locals.remaining Locals.moved
    rw [hnext]
    change l.progress.floorHeight.elim (b.height + 1) (fun floor => b.height - floor) + blocks =
      l.progress.floorHeight.elim (cursor.height + 1) fun floor => cursor.height - floor
    cases hf : l.progress.floorHeight with
    | none =>
      change b.height + 1 + blocks = cursor.height + 1
      omega
    | some floor =>
      have hlt := hfloor floor hf
      change b.height - floor + blocks = cursor.height - floor
      omega
  let repair := if l.restartedFromActivation then 0 else 8 * (l.progress.targetTip.height + 1) + 6
  change 8 * (l.moved committed inserted (some b)).remaining + 5 * l.progress.effectivePageBlocks + repair +
    8 * blocks = 8 * l.remaining + 5 * l.progress.effectivePageBlocks + repair
  omega

/-- **A verified page is committed in time**, or the walk begins again, after three operations of a round. -/
theorem timely_verifiedPage (settings : Settings) {cursor : Block} {payloads : List P} {hs : List BlockHeader}
    {remaining : ℕ} (h : imp.Walking target l s.1) (hpage : PageAt (served hdr) imp l cursor payloads hs s.1)
    (hrecordable : ∀ p ∈ payloads, ∃ h, imp.stream.header p = .ok h ∧ imp.Recordable p h)
    (hstarts : ∀ h ∈ hs, h.height = imp.stream.activationHeight →
      ∀ hash ∈ imp.stream.expectedStartHash, h.hash = hash)
    (hremaining : blocksThroughFloor cursor.height l.progress.floorHeight = .ok remaining)
    (hlength : payloads.length ≤ remaining) (hn : n + l.budget ≤ bound + 3) :
    Timely imp hdr run bound (verifiedPage imp.stream settings l cursor remaining payloads)
      (fun r t m => imp.Ended target bound r t.1 m) s n := by
  have hpos : 0 < payloads.length := by
    rw [hpage.headers.length_eq]
    refine List.length_pos_iff.mpr fun hnil => ?_
    have hhead := hpage.page.head
    rw [hnil] at hhead
    cases hhead
  have hbudget : 8 * remaining + 5 ≤ l.budget := by
    have hsize := h.pos
    rw [← Locals.remaining_eq hpage.next hremaining, Locals.budget]
    omega
  simp only [verifiedPage, Timely, total_bind, total_attempt, mapM_eq_ok]
  refine ⟨hs, hpage.headers, timely_certifiedHistoryFloor _ (by omega) fun certified t hst hcertified =>
    ⟨certified, rfl, ?_⟩⟩
  have hpageT := hpage.rely hst.toRely
  cases certified with
  | some floor =>
    refine total_mono (fun cut u m hcut => ?_)
      (timely_cutAtCertified hpageT hrecordable (hcertified floor rfl) (by omega))
    obtain ⟨l', payloads'⟩ := cut
    obtain ⟨rfl, htarget, index, oldest, rfl, hcutPage, hlast, hmem, hcert, hfloorHash⟩ := hcut
    obtain ⟨payload, hpayload, hheader⟩ := hcutPage.last hlast
    have htaken : (payloads.take (index + 1)).length ≤ payloads.length := List.length_take_le' _ _
    simp only [expect_eq_ok, Option.isSome_some, Bool.true_or]
    refine ⟨payload, hpayload, oldest, hheader, ?_⟩
    have hvalidate : validateExpectedStartHash imp.stream l'.progress.floorHash true oldest.hash = .ok () := by
      refine validateExpectedStartHash_ok fun _ hnone => hstarts oldest hmem ?_
      rw [hfloorHash, Option.map_eq_none_iff] at hnone
      have hstart := u.2.durable.certified.start_le_of_certifies hcert
      rw [imp.startOf_key] at hstart
      change imp.stream.activationHeight ≤ oldest.height at hstart
      unfold checkedSub at hnone
      split_ifs at hnone
      omega
    have hjoins : ¬ missesFloor l' true oldest := by
      rintro ⟨-, hash, hhash, hne⟩
      rw [hfloorHash] at hhash
      obtain ⟨_, -, rfl⟩ := Option.map_eq_some_iff.mp hhash
      exact hne rfl
    rw [hvalidate]
    simp only [if_neg hjoins, total_bind, total_attempt]
    refine ⟨none, rfl, timely_commitPage hcutPage (htarget.trans h.target) hlast ⟨fun _ hb => (by cases hb),
      fun _ _ => .inl hcert⟩ (fun p hp => hrecordable p (List.mem_of_mem_take hp)) (by omega)
      fun hne => absurd rfl hne⟩
  | none =>
    simp only [cutAtCertified, total_pure, expect_eq_ok, Option.isSome_none, Bool.false_or]
    obtain ⟨oldest, hlast⟩ : ∃ oldest, hs.getLast? = some oldest := by
      refine ⟨_, List.getLast?_eq_some_getLast ?_⟩
      exact List.ne_nil_of_length_pos (hpage.headers.length_eq ▸ hpos)
    have hmem := List.mem_of_getLast? hlast
    have hwalking := h.goes hst
    obtain ⟨payload, hpayload, hheader⟩ := hpageT.last hlast
    have hheight : oldest.height + payloads.length = cursor.height + 1 :=
      hpage.headers.length_eq ▸ hpage.page.height_last hlast
    refine ⟨payload, hpayload, oldest, hheader, ?_⟩
    have hvalidate : validateExpectedStartHash imp.stream l.progress.floorHash
        (decide (payloads.length = remaining)) oldest.hash = .ok () := by
      refine validateExpectedStartHash_ok fun hcompletes hnone => hstarts oldest hmem ?_
      exact hpageT.height_of_completes t.2.durable hlast hremaining (of_decide_eq_true hcompletes) hnone
    rw [hvalidate]
    dsimp only
    split_ifs with hmisses hrestarted
    · -- a walk that has begun again has no floor to join
      obtain ⟨-, hash, hhash, -⟩ := hmisses
      rw [h.noFloor hrestarted] at hhash
      cases hhash
    · exact timely_restart hwalking (hwalking.targets t.2.durable hpage.next) (by simpa using hrestarted)
        (by omega)
    · simp only [total_bind, total_attempt]
      by_cases hall : payloads.length = remaining
      · rw [decide_eq_true hall] at hmisses ⊢
        refine ⟨none, rfl, timely_commitPage hpageT h.target hlast ⟨fun _ hb => (by cases hb), fun _ hh => ?_⟩
          hrecordable (by omega) fun hne => absurd rfl hne⟩
        exact hpageT.ends t.2.durable hh hlast hremaining hall hmisses
      · rw [decide_eq_false hall]
        have hless : payloads.length < remaining := lt_of_le_of_ne hlength hall
        have hone : 1 ≤ oldest.height := by
          rcases blocksThroughFloor_eq_ok.mp hremaining with ⟨-, rfl⟩ | ⟨floor, -, -, rfl⟩ <;> omega
        have hcursor : nextCursor false oldest = .ok (some ⟨oldest.previousHash, oldest.height - 1⟩) :=
          Result.bind_eq_ok.mpr ⟨_, expect_eq_ok.mpr (checkedSub_eq_some.mpr ⟨hone, rfl⟩), rfl⟩
        have hgoesOn := hpageT.goesOn hlast hremaining hless hcursor
        refine ⟨_, hcursor, timely_commitPage hpageT h.target hlast ⟨fun b hb => ?_, fun hnone => (by cases hnone)⟩
          hrecordable (by omega) fun _ => ⟨hwalking, fun committed inserted => ?_⟩⟩
        · cases hb
          exact hgoesOn
        · let b : Block := ⟨oldest.previousHash, oldest.height - 1⟩
          have hb : b.height + payloads.length = cursor.height := by
            change oldest.height - 1 + payloads.length = cursor.height
            omega
          have hmoved := l.budget_moved committed inserted hpage.next hb hgoesOn.2.2.2
          change n + 1 + payloads.length + 3 + (l.moved committed inserted (some b)).budget ≤ bound
          omega

/-! ### A round -/

/-- The answer to a fetch is dealt with in time. -/
theorem timely_fetched {settings : Settings} {cursor : Block} {remaining : ℕ} {answer : Result (List P)}
    (h : imp.Walking target l s.1) (hcursor : l.progress.next = some cursor)
    (hremaining : blocksThroughFloor cursor.height l.progress.floorHeight = .ok remaining)
    (hserves : imp.Serves hdr cursor (min remaining l.progress.effectivePageBlocks) answer)
    (hn : n + l.budget ≤ bound + 3) :
    Timely imp hdr run bound (fetched imp.stream settings l cursor remaining
      (min remaining l.progress.effectivePageBlocks) answer) (fun r t m => imp.Ended target bound r t.1 m)
      s n := by
  cases hserves with
  | @page payloads hs headers wellFormed tells starts =>
    have hheaders : List.Forall₂ (fun p h => imp.stream.header p = .ok h) payloads hs :=
      headers.imp fun _ _ h => h.1
    have hrecordable : ∀ p ∈ payloads, ∃ h, imp.stream.header p = .ok h ∧ imp.Recordable p h := by
      intro p hp
      obtain ⟨x, -, hx⟩ := PairedLists.exists_mem headers hp
      exact ⟨x, hx⟩
    have hfits : cursor.height ≤ maxU32 := by
      obtain ⟨row, hrow, hagrees⟩ := h.loop
      have hinv := s.2.durable.row row hrow
      have hle := (hinv.next_le cursor (hagrees.next.trans hcursor)).trans hinv.target_le
      exact hle.trans (by decide)
    have hverify := (verify_page_exact imp.stream payloads hs cursor _ hheaders hfits).mpr wellFormed
    have hlength : payloads.length ≤ remaining :=
      hheaders.length_eq.trans_le (wellFormed.length.trans (min_le_left _ _))
    have hverified := timely_verifiedPage settings h
      ⟨h.loop, hcursor, hheaders, wellFormed.isPage, fun _ => tells⟩ hrecordable starts hremaining hlength hn
    cases hheaders with
    | nil => exact absurd rfl wellFormed.nonempty
    | cons hfirst hrest =>
      simp only [fetched, foundPage]
      rw [hverify]
      exact hverified
  | tooLarge hmany hlarge hfound =>
    have hpage : 1 < l.progress.effectivePageBlocks := hmany.trans_le (min_le_right _ _)
    simp only [fetched, if_neg hfound, if_pos (And.intro hlarge hpage)]
    exact timely_shrinkPage _ h hpage hn

/-- **A round ends in time**: the loop goes on with less to do, or the call returns. -/
theorem timely_iterate {settings : Settings} (h : imp.Walking target l s.1) (hn : n + l.budget ≤ bound) :
    Timely imp hdr run bound (iterate imp.stream settings l)
      (fun r t m => imp.Ended target bound r t.1 m) s n := by
  obtain ⟨row, hrow, hagrees⟩ := h.loop
  have hinv := s.2.durable.row row hrow
  obtain ⟨cursor, hcursor⟩ := Option.ne_none_iff_exists'.mp
    (mt hinv.valid.2.2.2.2.2.2.2.mpr (by simp [hagrees.status]))
  have hnext : l.progress.next = some cursor := hagrees.next.symm.trans hcursor
  obtain ⟨remaining, hpos, hremaining⟩ : ∃ remaining, 0 < remaining ∧
      blocksThroughFloor cursor.height l.progress.floorHeight = .ok remaining :=
    blocksThroughFloor_of_above fun floor hfloor =>
      (hinv.resumable trivial cursor hcursor).2 floor (hagrees.floorHeight.trans hfloor)
  have hbudget : 8 ≤ l.budget := by
    rw [Locals.budget, Locals.remaining_eq hnext hremaining]
    omega
  simp only [iterate, Timely, total_bind]
  refine (timely_ask _).mpr fun t hst => ⟨⟨⟨trivial, trivial⟩, by omega⟩, ?_⟩
  rintro shutdown u ⟨env, henv, hperform⟩
  obtain rfl : t = u := Subtype.ext (congrArg Prod.snd hperform)
  obtain rfl : false = shutdown := henv.quiet.shutdown.symm.trans (congrArg Prod.fst hperform)
  simp only [Bool.false_eq_true, if_false, total_bind]
  refine total_mono (fun current v m hcurrent => ?_) (timely_scopeIsCurrent (by omega))
  obtain ⟨rfl, htv, hm⟩ := hcurrent
  simp only [if_true, walk, total_bind, total_attempt, expect_eq_ok]
  refine ⟨cursor, hnext, remaining, hremaining, ?_⟩
  refine (timely_ask _).mpr fun w hvw => ⟨⟨⟨trivial, ⟨cursor, rfl⟩⟩, by omega⟩, ?_⟩
  rintro answer x ⟨env', henv', hperform'⟩
  obtain rfl : w = x := Subtype.ext (congrArg Prod.snd hperform')
  obtain rfl : env'.fetched = answer := congrArg Prod.fst hperform'
  exact timely_fetched (((h.goes hst).goes htv).goes hvw) hnext hremaining (henv'.fetched cursor _ rfl)
    (by omega)

end Bip300Monitor.Backfill
