import Bip300Monitor.Store.CertifiedPrefix

/-!
# Descents

The recorded facts of a scope, followed from a block to its parent. A walk that has
come down from its target to a block leaves a descent (`Db.Descends`) behind; a target is
grounded (`Db.Grounded`) when a descent from it ends at a certified block or at the start
height.

## What is proved

* `certifyHistory_accepts` — the trigger accepts a grounded target of a scope without a
  retained conflict, provided every fact tells its block's height and parent truly.
-/

namespace Bip300Monitor

open Transaction RecursiveQuery

/-- The height and the parent of every block: what a block hash determines. -/
structure Headers where
  height : Bytes → ℕ
  previousHash : Bytes → Bytes

/-- The facts of the scope tell the height and the parent of their blocks truly. -/
def Db.Honest (db : Db) (hdr : Headers) (k : ScopeKey) : Prop :=
  ∀ e ∈ db.events, ∀ hash, e.isBlock k hash →
    e.height = some (hdr.height hash) ∧ e.previousHash = some (hdr.previousHash hash)

/-- A recorded fact about a block, at its height. -/
def Db.hasBlock (db : Db) (k : ScopeKey) (b : Block) : Prop :=
  ∃ e ∈ db.events, e.isBlock k b.hash ∧ e.height = some b.height

/-- Recorded facts lead from the first block down to the second, which itself need not be
recorded. -/
inductive Db.Descends (db : Db) (k : ScopeKey) : Block → Block → Prop where
  /-- No step. -/
  | refl (b : Block) : Descends db k b b
  /-- From a recorded block to its parent, and on. -/
  | step {e : EventRow} {hash previous : Bytes} {height : ℕ} {c : Block} (he : e ∈ db.events)
      (hb : e.isBlock k hash) (hh : e.height = some (height + 1))
      (hp : e.previousHash = some previous) (hc : Descends db k ⟨previous, height⟩ c) :
      Descends db k ⟨hash, height + 1⟩ c

/-- A descent from the block ends at a certified block or at a recorded one at the start. -/
def Db.Grounded (db : Db) (k : ScopeKey) (start : ℕ) (b : Block) : Prop :=
  ∃ c, db.Descends k b c ∧ (db.certifies k c ∨ (c.height = start ∧ db.hasBlock k c))

variable {db s t : Db} {k : ScopeKey} {a b c : Block} {hdr : Headers}

theorem Db.Descends.mono (h : s.Descends k b c) (hst : s.events ⊆ t.events) :
    t.Descends k b c := by
  induction h with
  | refl b => exact .refl b
  | step he hb hh hp _ ih => exact .step (hst he) hb hh hp ih

theorem Db.Descends.trans (h : db.Descends k a b) (h' : db.Descends k b c) :
    db.Descends k a c := by
  induction h with
  | refl b => exact h'
  | step he hb hh hp _ ih => exact .step he hb hh hp (ih h')

theorem Db.Descends.height_le (h : db.Descends k b c) : c.height ≤ b.height := by
  induction h with
  | refl b => exact le_rfl
  | step _ _ _ _ _ ih => exact ih.trans (Nat.le_succ _)

theorem Db.hasBlock.mono (h : s.hasBlock k b) (hst : s.events ⊆ t.events) : t.hasBlock k b := by
  obtain ⟨e, he, heq⟩ := h
  exact ⟨e, hst he, heq⟩

variable {startOf : ScopeKey → ℕ}

theorem CertifiedPrefix.hasBlock (hs : CertifiedPrefix startOf db) (h : db.certifies k b) :
    db.hasBlock k b := by
  obtain ⟨c, hc, rfl, hhash, hheight⟩ := h
  obtain ⟨e, he, hb, -, hh⟩ := hs.fact c hc
  exact ⟨e, he, hhash ▸ hb, hheight ▸ hh⟩

/-- A certified block lies at or above the start. -/
theorem CertifiedPrefix.start_le_of_certifies (hs : CertifiedPrefix startOf db)
    (h : db.certifies k b) : startOf k ≤ b.height := by
  obtain ⟨c, hc, rfl, -, hheight⟩ := h
  exact hheight ▸ hs.start_le hc

/-- A certified block at the start height, or above a certified parent: its true one. -/
theorem CertifiedPrefix.parent (hs : CertifiedPrefix startOf db) (hh : db.Honest hdr k)
    {hash : Bytes} (h : ∃ c ∈ db.certified, c.scope = k ∧ c.blockHash = hash) :
    db.certifies k ⟨hash, hdr.height hash⟩ ∧ (hdr.height hash = startOf k ∨
      ∃ height, hdr.height hash = height + 1 ∧
        db.certifies k ⟨hdr.previousHash hash, height⟩) := by
  obtain ⟨c, hc, rfl, rfl⟩ := h
  obtain ⟨e, he, hb, hprev, hheight⟩ := hs.fact c hc
  obtain ⟨hh', hp'⟩ := hh e he _ hb
  have hcheight : hdr.height c.blockHash = c.height := Option.some.inj (hh'.symm.trans hheight)
  have hcprev : hdr.previousHash c.blockHash = c.previousHash := Option.some.inj (hp'.symm.trans hprev)
  rw [hcheight, hcprev]
  refine ⟨⟨c, hc, rfl, rfl, rfl⟩, ?_⟩
  rcases hs.stands c hc with h | ⟨c', hc', hscope, hhash, h⟩
  · exact .inl h
  · exact .inr ⟨c'.height, h.symm, c', hc', hscope, hhash, rfl⟩

/-- A grounded block is recorded. -/
theorem Db.Grounded.hasBlock {start : ℕ} (h : db.Grounded k start b)
    (hs : CertifiedPrefix startOf db) : db.hasBlock k b := by
  obtain ⟨c, hd, hc⟩ := h
  cases hd with
  | refl =>
    rcases hc with hc | ⟨-, hc⟩
    · exact hs.hasBlock hc
    · exact hc
  | step he hb hh _ _ => exact ⟨_, he, hb, hh⟩

/-! ### The trigger accepts what is grounded -/

section
variable (hu : db.Unambiguous k)
include hu

/-- The walk goes on from an uncertified block above the start to its recorded parent. -/
theorem Db.pathNext_of_parent {start : ℕ} {e f : EventRow} {previous : Bytes} {height : ℕ}
    (hh : e.height = some (height + 1)) (hp : e.previousHash = some previous)
    (hcert : (db.pathRow k e).certified = false) (hlt : start < height + 1) (hf : f ∈ db.events)
    (hfb : f.isBlock k previous) (hfh : f.height = some height) :
    db.pathNext k start (db.pathRow k e) = some (db.pathRow k f) := by
  have hmem : db.pathRow k f ∈ db.pathStep k start (db.pathRow k e) := by
    have hprow : (db.pathRow k e).previousHash = some previous := hp
    have hhrow : (db.pathRow k e).height = some (height + 1) := hh
    simp only [pathStep, hprow, hhrow, hcert]
    rw [if_pos ⟨by decide, hlt⟩]
    exact List.mem_map_of_mem (mem_parents.mpr ⟨hf, hfb, hfh⟩)
  rw [pathStep_eq hu] at hmem
  exact Option.mem_toList.mp hmem

/-- **The walk ends well**: from a block with a descent to a certified block or to the
start, the walk stops only at a certified block or at the start. The induction follows
the descent; the walk may stop before it, at a block certified meanwhile. -/
theorem Db.Descends.walk_end (hs : CertifiedPrefix startOf db) (hd : db.Descends k b c)
    (hc : db.certifies k c ∨ (c.height = startOf k ∧ db.hasBlock k c)) {e : EventRow}
    (he : e ∈ db.events) (hb : e.isBlock k b.hash) (hh : e.height = some b.height) {n : ℕ}
    {z : PathRow} (hz : z ∈ chain (db.pathNext k (startOf k)) n (db.pathRow k e))
    (hend : db.pathNext k (startOf k) z = none) :
    z.certified = true ∨ z.depth = startOf k := by
  have hstart : startOf k ≤ c.height := by
    rcases hc with hc | ⟨hc, -⟩
    · exact hs.start_le_of_certifies hc
    · exact hc.ge
  induction hd generalizing e n with
  | refl b =>
    have hstop : (db.pathRow k e).certified = true ∨ (db.pathRow k e).depth = startOf k := by
      rcases hc with ⟨c, hmem, hscope, hhash, -⟩ | ⟨hheight, -⟩
      · refine .inl (decide_eq_true ⟨b.hash, hb.2, c, hmem, hscope, hhash⟩)
      · refine .inr ?_
        change e.height.getD 0 = _
        rw [hh, ← hheight]
        rfl
    have hnone : db.pathNext k (startOf k) (db.pathRow k e) = none := by
      cases hq : db.pathNext k (startOf k) (db.pathRow k e) with
      | none => rfl
      | some q =>
        obtain ⟨-, height, -, hheight, hcert, hlt, -⟩ := pathNext_eq_some hq
        rcases hstop with h | h
        · rw [h] at hcert
          cases hcert
        · rw [PathRow.depth, hheight, Option.getD_some] at h
          omega
    cases n with
    | zero => cases hz
    | succ n =>
      rw [chain_succ_none hnone, List.mem_singleton] at hz
      rw [hz]
      exact hstop
  | step he' hb' hh' hp' hd' ih =>
    rename_i f hash previous height c
    obtain rfl : e = f := hu.eq_of_isBlock he he' hb hb'
    cases n with
    | zero => cases hz
    | succ n =>
      by_cases hstop : (db.pathRow k e).certified = true ∨ startOf k = height + 1
      · have hself : z = db.pathRow k e := by
          have hnone : db.pathNext k (startOf k) (db.pathRow k e) = none := by
            cases hq : db.pathNext k (startOf k) (db.pathRow k e) with
            | none => rfl
            | some q =>
              obtain ⟨-, height', -, hheight, hcert, hlt, -⟩ := pathNext_eq_some hq
              obtain rfl : height' = height + 1 := Option.some.inj (hheight.symm.trans hh)
              rcases hstop with h | h
              · rw [h] at hcert
                cases hcert
              · omega
          rw [chain_succ_none hnone, List.mem_singleton] at hz
          exact hz
        rw [hself]
        refine hstop.imp_right fun h => ?_
        change e.height.getD 0 = _
        rw [hh, h]
        rfl
      · obtain ⟨hcert, hne⟩ := not_or.mp hstop
        have hle : startOf k ≤ height := hstart.trans hd'.height_le
        obtain ⟨g, hg, hgb, hgh⟩ : db.hasBlock k ⟨previous, height⟩ :=
          Db.Grounded.hasBlock ⟨c, hd', hc⟩ hs
        have hnext := Db.pathNext_of_parent hu hh' hp' (by simpa using hcert)
          (Nat.lt_succ_of_le hle) hg hgb hgh
        rw [chain_succ_some hnext] at hz
        rcases List.mem_cons.mp hz with rfl | hz
        · rw [hend] at hnext
          cases hnext
        · exact ih hc hg hgb hgh hz hstart

end

/-- **What the trigger accepts**: in a scope without ambiguity whose facts are honest, a
grounded target. -/
theorem certifyHistory_accepts (hs : CertifiedPrefix startOf db) (hu : db.Unambiguous k)
    (hh : db.Honest hdr k) {row : CoverageRow} (hstart : row.coverageStartHeight = startOf k)
    (hcovered : row.coveredTip = some row.targetTip) (hstatus : row.status = .complete)
    (hg : db.Grounded k (startOf k) row.targetTip) :
    ∃ t, certifyHistory k row db = .ok ((), t) := by
  obtain ⟨e, he, hb, hheight⟩ := hg.hasBlock hs
  have hfirst : db.pathRow k e ∈ db.path k row := by
    simp only [Db.path, rows]
    exact List.mem_append_left _ (List.mem_map_of_mem (Db.mem_pathBase.mpr ⟨he, hb⟩))
  have hdepth : (db.pathRow k e).depth = row.targetTip.height := by
    change e.height.getD 0 = _
    rw [hheight]
    rfl
  have hpath : db.path k row = chain (db.pathNext k row.coverageStartHeight)
      (row.targetTip.height + 1) (db.pathRow k e) := by
    rcases Db.path_eq_chain hu row with hnil | ⟨e', he', hb', hpath⟩
    · rw [hnil] at hfirst
      cases hfirst
    · obtain rfl : e = e' := hu.eq_of_isBlock he he' hb hb'
      rw [hpath, hdepth]
  have hdec : Decreases (db.pathNext k row.coverageStartHeight) PathRow.depth :=
    Db.pathNext_stepsByOne.decreases
  obtain ⟨z, hz, hend⟩ := chain_last (a := db.pathRow k e) hdec (Nat.lt_succ_of_le hdepth.le)
  have hgood : z.certified = true ∨ z.depth = row.coverageStartHeight := by
    rw [hstart] at hz hend ⊢
    obtain ⟨c, hd, hc⟩ := hg
    exact hd.walk_end hu hs hc he hb hheight hz hend
  refine ⟨_, (certifyHistory_eq_ok hstatus).mpr ⟨fun tip htip => ?_,
    (Db.accepted_iff hu row).mpr ⟨e, he, hb, hheight, hpath, z, hpath ▸ hz, hend, hgood⟩,
    fun p hp => ?_, rfl⟩⟩
  · exact Option.some.inj (htip.symm.trans hcovered)
  · obtain ⟨f, hf, ⟨hash, hfb⟩, -, rfl⟩ : db.WalkRow k p :=
      Db.walkRow_of_mem he hb hheight (hpath ▸ (List.mem_filter.mp hp).1)
    obtain ⟨hfh, hfp⟩ := hh f hf hash hfb
    simp [PathRow.certifiedRow, Db.pathRow, hfb.2, hfh, hfp]

end Bip300Monitor
