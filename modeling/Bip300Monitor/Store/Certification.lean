import Bip300Monitor.Store.EventTable
import Bip300Monitor.Foundations.RecursiveQuery
import Mathlib.Data.List.Dedup
import Mathlib.Data.List.Basic

/-!
# Certification

The trigger `certify_history` (`shared/schema/0010_official_contract_9.sql`): before a
coverage row becomes complete, the recorded facts of its scope are walked from the
target, hash by hash, down to a block that is already certified or to the start
height. A walk that is not one unbroken chain is refused; otherwise its blocks are
certified.

## What is proved

* `path_eq_chain` — in a scope without a retained conflict the walk is a chain: it
  never branches;
* `certifyHistory_sound` — what is certified is a fact, and stands on a certified
  parent or at the start height;
* `certifyHistory_frame` — nothing else is written.
-/

namespace Bip300Monitor

open Transaction RecursiveQuery

/-- A row of the query `path`. -/
structure PathRow where
  blockHash : Option Bytes
  previousHash : Option Bytes
  height : Option ℕ
  /-- The block is certified already. -/
  certified : Bool
  deriving DecidableEq, Repr

/-- What the walk selects of a fact. -/
def Db.pathRow (db : Db) (k : ScopeKey) (e : EventRow) : PathRow :=
  ⟨e.blockHash, e.previousHash, e.height, ∃ hash ∈ e.blockHash, db.isCertified k hash⟩

/-- Where the walk begins: the facts of the scope about the target. -/
def Db.pathBase (db : Db) (k : ScopeKey) (target : Block) : List EventRow :=
  db.events.filter fun e => e.inScope k ∧ e.blockHash = some target.hash

/-- The facts of the scope about the parent of a block. -/
def Db.parents (db : Db) (k : ScopeKey) (previous : Bytes) (height : ℕ) : List EventRow :=
  db.events.filter fun e =>
    e.inScope k ∧ e.blockHash = some previous ∧ e.height = some (height - 1)

/-- One step of the walk; it stops at a certified block and at the start height. -/
def Db.pathStep (db : Db) (k : ScopeKey) (start : ℕ) (p : PathRow) : List PathRow :=
  match p.previousHash, p.height with
  | some previous, some height =>
    if ¬ p.certified ∧ start < height then (db.parents k previous height).map (db.pathRow k)
    else []
  | _, _ => []

/-- The rows of the walk. Every step goes one height down, so the greatest height of the
facts about the target bounds the number of steps. -/
def Db.path (db : Db) (k : ScopeKey) (row : CoverageRow) : List PathRow :=
  let base := (db.pathBase k row.targetTip).map (db.pathRow k)
  rows (db.pathStep k row.coverageStartHeight)
    ((base.filterMap (·.height)).foldr max 0 + 1) base

/-- `expected` of the trigger: the length an unbroken walk from the target to a
certified block or to the start has, and `-1` for any other walk. -/
def expectedLength (row : CoverageRow) (path : List PathRow) : ℤ :=
  let heights := path.filterMap (·.height)
  match heights.min?, heights.max? with
  | some low, some high =>
    if path.length = (path.filterMap (·.blockHash)).dedup.length ∧ high = row.targetTip.height ∧
        (path.any (·.certified) ∨ low = row.coverageStartHeight) then
      high - low + 1
    else -1
  | _, _ => -1

/-- The row that certifies a block of the walk; none of its columns may be null. -/
def PathRow.certifiedRow (k : ScopeKey) (p : PathRow) : Option CertifiedRow :=
  match p.blockHash, p.previousHash, p.height with
  | some hash, some previous, some height => some ⟨k, hash, previous, height⟩
  | _, _, _ => none

/-- The blocks of the walk that are not certified yet. -/
def Db.unproven (db : Db) (k : ScopeKey) (row : CoverageRow) : List PathRow :=
  (db.path k row).filter fun p => ¬ p.certified

/-- `INSERT INTO history_certified_block … ON CONFLICT DO NOTHING`. -/
def insertCertified (certified : List CertifiedRow) (c : CertifiedRow) : List CertifiedRow :=
  if ∃ c' ∈ certified, c'.scope = c.scope ∧ c'.blockHash = c.blockHash then certified
  else certified ++ [c]

/-- The record with the blocks of the walk certified. -/
def Db.certify (db : Db) (k : ScopeKey) (row : CoverageRow) : Db :=
  { db with
    certified := ((db.unproven k row).filterMap (·.certifiedRow k)).foldl insertCertified
      db.certified }

/-- The trigger `certify_history`. -/
def certifyHistory (k : ScopeKey) (row : CoverageRow) : Write Unit :=
  if row.status ≠ .complete then pure ()
  else do
    Tx.require (∀ tip ∈ row.coveredTip, tip = row.targetTip)
      (.bail "coverage target differs from proven tip")
    let db ← Tx.read
    let path := db.path k row
    Tx.require (path.length ≠ 0 ∧ (path.length : ℤ) = expectedLength row path)
      (.bail "history is missing, discontinuous or ambiguous")
    Tx.require (∀ p ∈ db.unproven k row, (p.certifiedRow k).isSome)
      (.bail "null value in column of relation history_certified_block")
    Tx.modify fun db => db.certify k row

/-! ### The walk is a chain -/

/-- The facts of the scope are determined by the block they are about. -/
def Db.Unambiguous (db : Db) (k : ScopeKey) : Prop :=
  db.events.Nodup ∧ ∀ e ∈ db.events, ∀ e' ∈ db.events, e.inScope k → e'.inScope k →
    e.blockHash = e'.blockHash → e.blockHash ≠ none → e = e'

theorem Db.Sound.unambiguous {db : Db} (h : db.Sound) {k : ScopeKey}
    (hk : ¬ db.retainsConflict k) : db.Unambiguous k :=
  ⟨List.Nodup.of_map _ h.id_nodup,
    fun _ he _ he' hs hs' hh hn => h.eq_of_blockHash hk he he' hs hs' hh hn⟩

/-- The one successor of a row of the walk. -/
def Db.pathNext (db : Db) (k : ScopeKey) (start : ℕ) (p : PathRow) : Option PathRow :=
  (db.pathStep k start p).head?

/-- The measure of the walk. -/
def PathRow.depth (p : PathRow) : ℕ := p.height.getD 0

/-- A fact of the scope that names its block. -/
def EventRow.isBlock (e : EventRow) (k : ScopeKey) (hash : Bytes) : Prop :=
  e.inScope k ∧ e.blockHash = some hash

variable {db : Db} {k : ScopeKey} {start : ℕ}

theorem Db.mem_parents {previous : Bytes} {height : ℕ} {e : EventRow} :
    e ∈ db.parents k previous height ↔
      e ∈ db.events ∧ e.isBlock k previous ∧ e.height = some (height - 1) := by
  simp [Db.parents, EventRow.isBlock, and_assoc]

theorem Db.mem_pathBase {target : Block} {e : EventRow} :
    e ∈ db.pathBase k target ↔ e ∈ db.events ∧ e.isBlock k target.hash := by
  simp [Db.pathBase, EventRow.isBlock]

theorem Db.Unambiguous.eq_of_isBlock (h : db.Unambiguous k) {e e' : EventRow} {hash : Bytes}
    (he : e ∈ db.events) (he' : e' ∈ db.events) (hb : e.isBlock k hash) (hb' : e'.isBlock k hash) :
    e = e' :=
  h.2 e he e' he' hb.1 hb'.1 (hb.2.trans hb'.2.symm) (by rw [hb.2]; simp)

/-- A step of the walk, spelled out: from an uncertified block above the start to the
fact about its parent. -/
theorem Db.pathNext_eq_some {p q : PathRow} (h : db.pathNext k start p = some q) :
    ∃ previous height, p.previousHash = some previous ∧ p.height = some height ∧
      p.certified = false ∧ start < height ∧
      ∃ e ∈ db.parents k previous height, q = db.pathRow k e := by
  unfold pathNext pathStep at h
  split at h
  case h_1 previous height hprev hheight =>
    split_ifs at h with hc
    · obtain ⟨e, he, hq⟩ := List.mem_map.mp (List.mem_of_head? h)
      exact ⟨previous, height, hprev, hheight, by simpa using hc.1, hc.2, e, he, hq.symm⟩
    · cases h
  case h_2 => cases h

theorem Db.pathStep_eq (h : db.Unambiguous k) (p : PathRow) :
    db.pathStep k start p = (db.pathNext k start p).toList := by
  unfold pathNext pathStep
  split
  case h_1 previous height _ _ =>
    split_ifs
    · have hparents : db.parents k previous height = (db.parents k previous height).head?.toList :=
        eq_toList_head? (h.1.filter _) fun e he e' he' =>
          h.eq_of_isBlock (mem_parents.mp he).1 (mem_parents.mp he').1
            (mem_parents.mp he).2.1 (mem_parents.mp he').2.1
      rw [hparents]
      cases (db.parents k previous height).head? <;> rfl
    · rfl
  case h_2 => rfl

theorem Db.pathNext_stepsByOne : StepsByOne (db.pathNext k start) PathRow.depth := by
  intro p q h
  obtain ⟨previous, height, -, hheight, -, hlt, e, he, rfl⟩ := pathNext_eq_some h
  have := (mem_parents.mp he).2.2
  simp only [PathRow.depth, Db.pathRow, this, hheight, Option.getD_some]
  omega

/-- **The walk is a chain** in a scope without ambiguity: it begins at the fact about the
target, when there is one. -/
theorem Db.path_eq_chain (h : db.Unambiguous k) (row : CoverageRow) :
    db.path k row = [] ∨
      ∃ e ∈ db.events, e.isBlock k row.targetTip.hash ∧ db.path k row =
        chain (db.pathNext k row.coverageStartHeight) ((db.pathRow k e).depth + 1)
          (db.pathRow k e) := by
  have hbase : db.pathBase k row.targetTip = (db.pathBase k row.targetTip).head?.toList :=
    eq_toList_head? (h.1.filter _) fun e he e' he' =>
      h.eq_of_isBlock (mem_pathBase.mp he).1 (mem_pathBase.mp he').1
        (mem_pathBase.mp he).2 (mem_pathBase.mp he').2
  cases hhead : (db.pathBase k row.targetTip).head? with
  | none =>
    rw [hhead] at hbase
    have hnil : db.pathBase k row.targetTip = [] := hbase
    exact .inl (by simp [Db.path, hnil])
  | some e =>
    rw [hhead] at hbase
    have hsingle : db.pathBase k row.targetTip = [e] := hbase
    obtain ⟨he, hb⟩ := mem_pathBase.mp (List.mem_of_head? hhead)
    have hbound : ([db.pathRow k e].filterMap (·.height)).foldr max 0 = (db.pathRow k e).depth := by
      cases hh : e.height with
      | none => simp [PathRow.depth, Db.pathRow, hh]
      | some height => simp [PathRow.depth, Db.pathRow, hh]
    refine .inr ⟨e, he, hb, ?_⟩
    simp only [Db.path, hsingle, List.map_cons, List.map_nil, hbound]
    exact rows_eq_chain (pathStep_eq h) _ _

/-! ### What is accepted -/

/-- A row of the walk below a fact with a height. -/
def Db.WalkRow (db : Db) (k : ScopeKey) (p : PathRow) : Prop :=
  ∃ e ∈ db.events, (∃ hash, e.isBlock k hash) ∧ e.height = some p.depth ∧ p = db.pathRow k e

theorem Db.walkRow_of_mem {e : EventRow} {hash : Bytes} {height n : ℕ} (he : e ∈ db.events)
    (hb : e.isBlock k hash) (hh : e.height = some height) {p : PathRow}
    (hp : p ∈ chain (db.pathNext k start) n (db.pathRow k e)) : db.WalkRow k p := by
  refine forall_mem_chain (P := db.WalkRow k) ?_ ⟨e, he, ⟨hash, hb⟩, ?_, rfl⟩ hp
  · intro p q _ hq
    obtain ⟨previous, height, -, -, -, -, f, hf, rfl⟩ := pathNext_eq_some hq
    obtain ⟨hfe, hfb, hfh⟩ := mem_parents.mp hf
    exact ⟨f, hfe, ⟨previous, hfb⟩, by simp [PathRow.depth, Db.pathRow, hfh], rfl⟩
  · simp [PathRow.depth, Db.pathRow, hh]

/-- Two rows of the walk about the same block are the same row. -/
theorem Db.WalkRow.eq_of_blockHash (h : db.Unambiguous k) {p q : PathRow} (hp : db.WalkRow k p)
    (hq : db.WalkRow k q) (hpq : p.blockHash = q.blockHash) : p = q := by
  obtain ⟨e, he, ⟨hash, hb⟩, -, rfl⟩ := hp
  obtain ⟨f, hf, ⟨hash', hb'⟩, -, rfl⟩ := hq
  have hhash : some hash = some hash' := hb.2.symm.trans (hpq.trans hb'.2)
  cases hhash
  rw [h.eq_of_isBlock he hf hb hb']

theorem Db.WalkRow.blockHash {p : PathRow} (hp : db.WalkRow k p) :
    p.blockHash = some (p.blockHash.getD []) := by
  obtain ⟨e, -, ⟨hash, hb⟩, -, rfl⟩ := hp
  simp [Db.pathRow, hb.2]

theorem Db.WalkRow.height {p : PathRow} (hp : db.WalkRow k p) : p.height = some p.depth := by
  obtain ⟨e, -, -, hh, heq⟩ := hp
  rw [heq] at hh ⊢
  exact hh

/-- An unbroken walk has the expected length exactly when it begins at the target's
height and ends at a certified block or at the start. -/
theorem Db.expectedLength_chain (h : db.Unambiguous k) {row : CoverageRow} {e : EventRow}
    {hash : Bytes} {height n : ℕ} (he : e ∈ db.events) (hb : e.isBlock k hash)
    (hh : e.height = some height) {z : PathRow}
    (hz : z ∈ chain (db.pathNext k row.coverageStartHeight) (n + 1) (db.pathRow k e))
    (hend : db.pathNext k row.coverageStartHeight z = none) :
    (((chain (db.pathNext k row.coverageStartHeight) (n + 1) (db.pathRow k e)).length : ℕ) : ℤ) =
        expectedLength row (chain (db.pathNext k row.coverageStartHeight) (n + 1) (db.pathRow k e)) ↔
      height = row.targetTip.height ∧ (z.certified ∨ z.depth = row.coverageStartHeight) := by
  set C := chain (db.pathNext k row.coverageStartHeight) (n + 1) (db.pathRow k e) with hC
  have hwalk : ∀ p ∈ C, db.WalkRow k p := fun p hp => walkRow_of_mem he hb hh hp
  have hfirst : db.pathRow k e ∈ C := by simp [hC, chain]
  have hdepth : (db.pathRow k e).depth = height := by simp [PathRow.depth, Db.pathRow, hh]
  have hdec : Decreases (db.pathNext k row.coverageStartHeight) PathRow.depth :=
    pathNext_stepsByOne.decreases
  have hheights : C.filterMap (·.height) = C.map PathRow.depth :=
    List.filterMap_eq_map_iff_forall_eq_some.mpr fun p hp => (hwalk p hp).height
  have hhashes : C.filterMap (·.blockHash) = C.map fun p => p.blockHash.getD [] :=
    List.filterMap_eq_map_iff_forall_eq_some.mpr fun p hp => (hwalk p hp).blockHash
  have hnodup : (C.map fun p => p.blockHash.getD []).Nodup := by
    refine List.Nodup.map_on (fun p hp q hq hpq => ?_)
      (List.Nodup.of_map _ (chain_measures_nodup hdec _ _))
    refine (hwalk p hp).eq_of_blockHash h (hwalk q hq) ?_
    rw [(hwalk p hp).blockHash, (hwalk q hq).blockHash, hpq]
  have hmin : (C.map PathRow.depth).min? = some z.depth :=
    List.min?_eq_some_iff.mpr ⟨List.mem_map_of_mem hz, fun m hm => by
      obtain ⟨p, hp, rfl⟩ := List.mem_map.mp hm
      exact end_le_of_mem_chain hdec hp hz hend⟩
  have hmax : (C.map PathRow.depth).max? = some height :=
    List.max?_eq_some_iff.mpr ⟨hdepth ▸ List.mem_map_of_mem hfirst, fun m hm => by
      obtain ⟨p, hp, rfl⟩ := List.mem_map.mp hm
      exact hdepth ▸ measure_le_of_mem_chain hdec hp⟩
  have hlength : C.length + z.depth = height + 1 := hdepth ▸ length_chain pathNext_stepsByOne hz hend
  have hany : C.any (·.certified) = true ↔ z.certified = true := by
    rw [List.any_eq_true]
    refine ⟨?_, fun hcert => ⟨z, hz, hcert⟩⟩
    rintro ⟨p, hp, hcert⟩
    have hpend : db.pathNext k row.coverageStartHeight p = none := by
      cases hq : db.pathNext k row.coverageStartHeight p with
      | none => rfl
      | some q =>
        obtain ⟨-, -, -, -, hfalse, -⟩ := pathNext_eq_some hq
        rw [hcert] at hfalse
        cases hfalse
    rw [← chain_end_unique hp hz hpend hend]
    exact hcert
  have hexp : expectedLength row C =
      if height = row.targetTip.height ∧ (z.certified = true ∨ z.depth = row.coverageStartHeight) then
        (height : ℤ) - z.depth + 1
      else -1 := by
    simp only [expectedLength, hheights, hhashes, hmin, hmax, hnodup.dedup, List.length_map,
      true_and, hany]
  rw [hexp]
  split_ifs with hc
  · exact ⟨fun _ => hc, fun _ => by omega⟩
  · exact iff_of_false id hc

/-- **What the trigger accepts**: a walk from a fact about the target, at the target's
height, that ends at a certified block or at the start. -/
theorem Db.accepted_iff (h : db.Unambiguous k) (row : CoverageRow) :
    ((db.path k row).length ≠ 0 ∧ ((db.path k row).length : ℤ) = expectedLength row (db.path k row)) ↔
      ∃ e ∈ db.events, e.isBlock k row.targetTip.hash ∧ e.height = some row.targetTip.height ∧
        db.path k row = chain (db.pathNext k row.coverageStartHeight)
          (row.targetTip.height + 1) (db.pathRow k e) ∧
        ∃ z ∈ db.path k row, db.pathNext k row.coverageStartHeight z = none ∧
          (z.certified ∨ z.depth = row.coverageStartHeight) := by
  constructor
  · rintro ⟨hne, hlen⟩
    rcases path_eq_chain h row with hnil | ⟨e, he, hb, hpath⟩
    · exact absurd (by rw [hnil]; rfl) hne
    · rw [hpath] at hlen
      obtain ⟨z, hz, hend⟩ := chain_last (a := db.pathRow k e) pathNext_stepsByOne.decreases
        (Nat.lt_succ_self _)
      cases hh : e.height with
      | none =>
        have hstop : db.pathNext k row.coverageStartHeight (db.pathRow k e) = none := by
          cases hq : db.pathNext k row.coverageStartHeight (db.pathRow k e) with
          | none => rfl
          | some q =>
            obtain ⟨-, height, -, hheight, -⟩ := pathNext_eq_some hq
            rw [show (db.pathRow k e).height = none from hh] at hheight
            cases hheight
        rw [chain_succ_none hstop] at hlen
        simp [expectedLength, Db.pathRow, hh] at hlen
      | some height =>
        have hdepth : (db.pathRow k e).depth = height := by simp [PathRow.depth, Db.pathRow, hh]
        obtain ⟨rfl, hgood⟩ := (expectedLength_chain h he hb hh hz hend).mp hlen
        rw [← hpath] at hz
        exact ⟨e, he, hb, hh, by rw [hpath, hdepth], z, hz, hend, hgood⟩
  · rintro ⟨e, he, hb, hh, hpath, z, hz, hend, hgood⟩
    rw [hpath] at hz ⊢
    exact ⟨by simp [chain], (expectedLength_chain h he hb hh hz hend).mpr ⟨rfl, hgood⟩⟩

/-! ### What is certified -/

/-- A certified block is a recorded fact. -/
def CertifiedRow.hasFact (c : CertifiedRow) (db : Db) : Prop :=
  ∃ e ∈ db.events, e.isBlock c.scope c.blockHash ∧ e.previousHash = some c.previousHash ∧
    e.height = some c.height

/-- A certified block is at the start height, or its parent is certified. -/
def CertifiedRow.stands (c : CertifiedRow) (db : Db) (start : ℕ) : Prop :=
  c.height = start ∨ ∃ c' ∈ db.certified, c'.scope = c.scope ∧ c'.blockHash = c.previousHash ∧
    c'.height + 1 = c.height

/-- The block is certified, at this height. -/
def Db.certifies (db : Db) (k : ScopeKey) (b : Block) : Prop :=
  ∃ c ∈ db.certified, c.scope = k ∧ c.blockHash = b.hash ∧ c.height = b.height

theorem subset_foldl_insertCertified (rows cs : List CertifiedRow) :
    cs ⊆ rows.foldl insertCertified cs := by
  induction rows generalizing cs with
  | nil => exact fun _ h => h
  | cons r rows ih =>
    intro c hc
    refine ih _ ?_
    unfold insertCertified
    split_ifs
    · exact hc
    · exact List.mem_append_left _ hc

theorem mem_foldl_insertCertified {rows cs : List CertifiedRow} {c : CertifiedRow}
    (h : c ∈ rows.foldl insertCertified cs) : c ∈ cs ∨ c ∈ rows := by
  induction rows generalizing cs with
  | nil => exact .inl h
  | cons r rows ih =>
    rcases ih h with h | h
    · unfold insertCertified at h
      split_ifs at h
      · exact .inl h
      · rcases List.mem_append.mp h with h | h
        · exact .inl h
        · exact .inr (List.mem_cons.mpr (.inl (List.mem_singleton.mp h)))
    · exact .inr (List.mem_cons_of_mem _ h)

/-- An inserted block is certified afterwards, by its row or by one that was there. -/
theorem exists_mem_foldl_insertCertified {rows : List CertifiedRow} (cs : List CertifiedRow)
    {r : CertifiedRow} (h : r ∈ rows) :
    ∃ c ∈ rows.foldl insertCertified cs, c.scope = r.scope ∧ c.blockHash = r.blockHash := by
  induction rows generalizing cs with
  | nil => cases h
  | cons r' rows ih =>
    rcases List.mem_cons.mp h with rfl | h
    · have hin : ∃ c ∈ insertCertified cs r, c.scope = r.scope ∧ c.blockHash = r.blockHash := by
        unfold insertCertified
        split_ifs with hc
        · exact hc
        · exact ⟨r, List.mem_append_right _ (List.mem_singleton_self _), rfl, rfl⟩
      obtain ⟨c, hc, heq⟩ := hin
      exact ⟨c, subset_foldl_insertCertified rows _ hc, heq⟩
    · exact ih _ h

theorem PathRow.certifiedRow_eq_some {p : PathRow} {r : CertifiedRow}
    (h : p.certifiedRow k = some r) :
    r.scope = k ∧ p.blockHash = some r.blockHash ∧ p.previousHash = some r.previousHash ∧
      p.height = some r.height := by
  unfold certifiedRow at h
  split at h
  case h_1 hash previous height hhash hprev hheight =>
    cases h
    exact ⟨rfl, hhash, hprev, hheight⟩
  case h_2 => cases h

/-- The trigger on a row that becomes complete, taken apart. -/
theorem certifyHistory_eq_ok {row : CoverageRow} (hstatus : row.status = .complete) {s t : Db} :
    certifyHistory k row s = .ok ((), t) ↔
      (∀ tip ∈ row.coveredTip, tip = row.targetTip) ∧
      ((s.path k row).length ≠ 0 ∧
        ((s.path k row).length : ℤ) = expectedLength row (s.path k row)) ∧
      (∀ p ∈ s.unproven k row, (p.certifiedRow k).isSome) ∧ t = s.certify k row := by
  unfold certifyHistory
  rw [if_neg (by simp [hstatus])]
  simp only [Tx.bind_eq_ok, Tx.require_eq_ok, Tx.read_eq_ok, Tx.modify_eq_ok]
  constructor
  · rintro ⟨_, _, ⟨h₁, rfl⟩, _, _, ⟨rfl, rfl⟩, _, _, ⟨h₂, rfl⟩, _, _, ⟨h₃, rfl⟩, rfl⟩
    exact ⟨h₁, h₂, h₃, rfl⟩
  · rintro ⟨h₁, h₂, h₃, rfl⟩
    exact ⟨⟨⟩, s, ⟨h₁, rfl⟩, s, s, ⟨rfl, rfl⟩, ⟨⟩, s, ⟨h₂, rfl⟩, ⟨⟩, s, ⟨h₃, rfl⟩, rfl⟩

/-- The trigger writes nothing but certified blocks. -/
theorem certifyHistory_frame {row : CoverageRow} {s t : Db}
    (h : certifyHistory k row s = .ok ((), t)) :
    t.events = s.events ∧ t.coverage = s.coverage ∧ s.certified ⊆ t.certified := by
  by_cases hstatus : row.status = .complete
  · obtain ⟨-, -, -, rfl⟩ := (certifyHistory_eq_ok hstatus).mp h
    exact ⟨rfl, rfl, subset_foldl_insertCertified _ _⟩
  · simp only [certifyHistory, if_pos hstatus, Tx.pure_eq_ok] at h
    obtain ⟨-, rfl⟩ := h
    exact ⟨rfl, rfl, fun _ h => h⟩

section
variable {row : CoverageRow} {s : Db} (hwalk : ∀ p ∈ s.path k row, s.WalkRow k p)
include hwalk

/-- What the trigger adds is a block of the walk, hence a fact. -/
theorem Db.mem_certify {c : CertifiedRow} (hc : c ∈ (s.certify k row).certified) :
    c ∈ s.certified ∨ (c.scope = k ∧ c.hasFact s ∧
      ∃ p ∈ s.path k row, p.certified = false ∧ p.previousHash = some c.previousHash ∧
        p.height = some c.height) := by
  rcases mem_foldl_insertCertified hc with hc | hc
  · exact .inl hc
  · obtain ⟨p, hp, hpc⟩ := List.mem_filterMap.mp hc
    obtain ⟨hp, hcert⟩ := List.mem_filter.mp hp
    obtain ⟨hscope, hhash, hprev, hheight⟩ := PathRow.certifiedRow_eq_some hpc
    obtain ⟨f, hf, ⟨hash, hfb⟩, -, rfl⟩ := hwalk p hp
    exact .inr ⟨hscope, ⟨f, hf, ⟨hscope ▸ hfb.1, hhash⟩, hprev, hheight⟩, _, hp,
      by simpa using hcert, hprev, hheight⟩

/-- Every block of the walk ends up certified, at its height. -/
theorem Db.certified_of_mem_path (hs : s.Unambiguous k)
    (hfact : ∀ c ∈ s.certified, c.scope = k → c.hasFact s)
    (hsome : ∀ p ∈ s.unproven k row, (p.certifiedRow k).isSome) {p : PathRow}
    (hp : p ∈ s.path k row) : ∃ c ∈ (s.certify k row).certified,
      c.scope = k ∧ p.blockHash = some c.blockHash ∧ c.height = p.depth := by
  have hrow : ∃ c ∈ (s.certify k row).certified, c.scope = k ∧ p.blockHash = some c.blockHash := by
    cases hcert : p.certified with
    | true =>
      obtain ⟨f, -, -, -, rfl⟩ := hwalk p hp
      simp only [Db.pathRow, decide_eq_true_eq] at hcert
      obtain ⟨hash, hhash, c, hc, hscope, hceq⟩ := hcert
      exact ⟨c, subset_foldl_insertCertified _ _ hc, hscope, by rw [hceq]; exact hhash⟩
    | false =>
      have hpfresh : p ∈ s.unproven k row := List.mem_filter.mpr ⟨hp, by simp [hcert]⟩
      obtain ⟨r, hr⟩ := Option.isSome_iff_exists.mp (hsome p hpfresh)
      obtain ⟨c, hc, hscope, hhash⟩ := exists_mem_foldl_insertCertified s.certified
        (List.mem_filterMap.mpr ⟨p, hpfresh, hr⟩)
      obtain ⟨hrscope, hrhash, -, -⟩ := PathRow.certifiedRow_eq_some hr
      exact ⟨c, hc, hscope.trans hrscope, by rw [hhash]; exact hrhash⟩
  obtain ⟨c, hc, hscope, hhash⟩ := hrow
  refine ⟨c, hc, hscope, hhash, ?_⟩
  have hcfact : c.hasFact s := by
    rcases mem_certify hwalk hc with hc | ⟨-, hcfact, -⟩
    · exact hfact c hc hscope
    · exact hcfact
  obtain ⟨f, hf, hfb, -, hfh⟩ := hcfact
  obtain ⟨g, hg, ⟨hash, hgb⟩, hgh, rfl⟩ := hwalk p hp
  have hsame : f = g := hs.eq_of_isBlock hf hg (hscope ▸ hfb) ⟨hgb.1, hhash⟩
  rw [hsame, hgh] at hfh
  exact (Option.some.inj hfh).symm

end

/-- **What the trigger certifies** in a scope without ambiguity: facts that stand at the
start height or on a certified parent, the target among them. -/
theorem certifyHistory_sound {row : CoverageRow} {s t : Db} (hs : s.Unambiguous k)
    (hfact : ∀ c ∈ s.certified, c.scope = k → c.hasFact s) (hstatus : row.status = .complete)
    (h : certifyHistory k row s = .ok ((), t)) :
    t = { s with certified := t.certified } ∧ s.certified ⊆ t.certified ∧
      (∀ c ∈ t.certified, c ∈ s.certified ∨
        (c.scope = k ∧ c.hasFact t ∧ c.stands t row.coverageStartHeight)) ∧
      t.certifies k row.targetTip := by
  obtain ⟨-, haccepted, hsome, rfl⟩ := (certifyHistory_eq_ok hstatus).mp h
  obtain ⟨e, he, hb, hh, hpath, z, hz, hend, hgood⟩ := (Db.accepted_iff hs row).mp haccepted
  have hwalk : ∀ p ∈ s.path k row, s.WalkRow k p := fun p hp =>
    Db.walkRow_of_mem he hb hh (hpath ▸ hp)
  refine ⟨rfl, subset_foldl_insertCertified _ _, fun c hc => ?_, ?_⟩
  · rcases Db.mem_certify hwalk hc with hc | ⟨hscope, hcfact, p, hp, hpcert, hprev, hheight⟩
    · exact .inl hc
    refine .inr ⟨hscope, hcfact, ?_⟩
    cases hnext : s.pathNext k row.coverageStartHeight p with
    | none =>
      -- the end of the walk, and it is not certified, so it is at the start
      have hpz : p = z := chain_end_unique (hpath ▸ hp) (hpath ▸ hz) hnext hend
      rcases hgood with hz' | hz'
      · rw [← hpz, hpcert] at hz'
        cases hz'
      · refine .inl ?_
        rw [← hz', ← hpz, PathRow.depth, hheight, Option.getD_some]
    | some q =>
      have hq : q ∈ s.path k row := by
        rw [hpath] at hp ⊢
        refine chain_closed Db.pathNext_stepsByOne.decreases ?_ hp hnext
        simp [PathRow.depth, Db.pathRow, hh]
      obtain ⟨c', hc', hscope', hhash', hheight'⟩ :=
        Db.certified_of_mem_path hwalk hs hfact hsome hq
      obtain ⟨previous, height, hprevious, hheight'', -, hlt, f, hf, rfl⟩ :=
        Db.pathNext_eq_some hnext
      obtain ⟨-, hfb, hfh⟩ := Db.mem_parents.mp hf
      refine .inr ⟨c', hc', hscope'.trans hscope.symm, ?_, ?_⟩
      · have hfhash : some previous = some c'.blockHash := hfb.2.symm.trans hhash'
        rw [← Option.some.inj hfhash]
        exact Option.some.inj (hprevious.symm.trans hprev)
      · have : height = c.height := Option.some.inj (hheight''.symm.trans hheight)
        have hdepth : (s.pathRow k f).depth = height - 1 := by
          simp [PathRow.depth, Db.pathRow, hfh]
        omega
  · have hfirst : s.pathRow k e ∈ s.path k row := by rw [hpath]; simp [chain]
    obtain ⟨c, hc, hscope, hhash, hheight⟩ :=
      Db.certified_of_mem_path hwalk hs hfact hsome hfirst
    refine ⟨c, hc, hscope, ?_, ?_⟩
    · exact Option.some.inj (hhash.symm.trans hb.2)
    · rw [hheight]
      simp [PathRow.depth, Db.pathRow, hh]

end Bip300Monitor
