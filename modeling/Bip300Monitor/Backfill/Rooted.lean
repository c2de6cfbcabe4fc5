import Bip300Monitor.Backfill.Calls

/-!
# The root of a block

Where a hash determines a header, every block has one ancestor at each height below it. A block is
*rooted* in `root` at height `a` when its ancestor at that height is `root`. Everything that is
linked by parents is rooted together: a descent of recorded facts, a page of headers, the certified
blocks of a scope, the walk of the trigger.

## What is proved

* `Headers.roots_succ` — a block is rooted as its parent is;
* `certifyHistory_rooted` — a rooted target certifies only what is rooted at `a`.
-/

namespace Bip300Monitor

open Protobuf Transaction RecursiveQuery

/-- The ancestor at height `a` of the block is `root`. -/
def Headers.Roots (hdr : Headers) (a : ℕ) (root : Bytes) (b : Block) : Prop :=
  a ≤ b.height ∧ hdr.previousHash^[b.height - a] b.hash = root

/-- The certified blocks of the scope at height `a` have the hash `root`. -/
def Db.RootedAt (db : Db) (k : ScopeKey) (a : ℕ) (root : Bytes) : Prop :=
  ∀ c ∈ db.certified, c.scope = k → c.height = a → c.blockHash = root

variable {hdr : Headers} {a : ℕ} {root : Bytes} {db s t : Db} {k : ScopeKey} {b c : Block}

theorem Headers.roots_self {hash : Bytes} : hdr.Roots a root ⟨hash, a⟩ ↔ hash = root := by
  simp [Headers.Roots]

/-- A block above `a` is rooted as its parent is. -/
theorem Headers.roots_succ {hash : Bytes} {height : ℕ} (h : a ≤ height) :
    hdr.Roots a root ⟨hash, height + 1⟩ ↔ hdr.Roots a root ⟨hdr.previousHash hash, height⟩ := by
  have hsub : height + 1 - a = (height - a) + 1 := by omega
  simp only [Headers.Roots, hsub, Function.iterate_succ_apply, h, Nat.le_succ_of_le h, true_and]

/-- A descent leads to a block with the same root. -/
theorem Db.Descends.roots (h : db.Descends k b c) (hh : db.Honest hdr k) (hc : a ≤ c.height) :
    hdr.Roots a root b ↔ hdr.Roots a root c := by
  induction h with
  | refl b => rfl
  | step he hb _ hp hd ih =>
    obtain ⟨-, hprevious⟩ := hh _ he _ hb
    obtain rfl := Option.some.inj (hp.symm.trans hprevious)
    rw [Headers.roots_succ (hc.trans hd.height_le)]
    exact ih hc

/-- So does a page of headers. -/
theorem Backfill.IsPage.roots {cursor : Block} {hs : List BlockHeader} {oldest : BlockHeader}
    (hp : Backfill.IsPage cursor hs) (ht : ∀ h ∈ hs, Backfill.Tells hdr h)
    (hlast : hs.getLast? = some oldest) (ha : a ≤ oldest.height) :
    hdr.Roots a root cursor ↔ hdr.Roots a root oldest.block := by
  induction hs generalizing cursor with
  | nil => cases hlast
  | cons h hs ih =>
    obtain rfl : h.block = cursor := Option.some.inj hp.head
    cases hs with
    | nil =>
      cases hlast
      rfl
    | cons h' hs =>
      obtain ⟨⟨hprevious, hheight⟩, hrest⟩ := List.isChain_cons_cons.mp hp.chain
      have hpage : Backfill.IsPage h'.block (h' :: hs) := ⟨rfl, hrest⟩
      have hlast' : (h' :: hs).getLast? = some oldest := by simpa using hlast
      have hle : a ≤ h'.height := ha.trans (hpage.height_le (List.mem_of_getLast? hlast'))
      have hparent : hdr.previousHash h.hash = h'.hash := (ht h List.mem_cons_self).2.trans hprevious
      rw [BlockHeader.block, hheight, Headers.roots_succ hle, hparent]
      exact ih hpage (fun x hx => ht x (List.mem_cons_of_mem _ hx)) hlast'

variable {startOf : ScopeKey → ℕ}

/-- A certified block is rooted when those at the start of its scope are. -/
theorem CertifiedPrefix.roots_of_mem (hs : CertifiedPrefix startOf db) {c : CertifiedRow}
    (hh : db.Honest hdr c.scope) (hr : db.RootedAt c.scope (startOf c.scope) root)
    (hc : c ∈ db.certified) : hdr.Roots (startOf c.scope) root ⟨c.blockHash, c.height⟩ := by
  generalize hn : c.height = n
  induction n generalizing c with
  | zero =>
    have hstart := hs.start_le hc
    have hzero : 0 = startOf c.scope := by omega
    rw [hzero, Headers.roots_self]
    exact hr c hc rfl (hn.trans hzero)
  | succ n ih =>
    obtain ⟨e, he, hblock, hprevious, -⟩ := hs.fact c hc
    obtain ⟨-, htold⟩ := hh e he _ hblock
    have hparent := Option.some.inj (htold.symm.trans hprevious)
    rcases hs.stands c hc with hstart | ⟨c', hc', hscope, hhash, hheight⟩
    · rw [← hn, hstart, Headers.roots_self]
      exact hr c hc rfl hstart
    · have hle := hs.start_le hc'
      rw [hscope] at hle
      have hbelow := ih (hscope ▸ hh) (hscope ▸ hr) hc' (by omega)
      rw [hscope, hhash] at hbelow
      rw [Headers.roots_succ (by omega), hparent]
      exact hbelow

theorem CertifiedPrefix.roots (hs : CertifiedPrefix startOf db) (hh : db.Honest hdr k)
    (hr : db.RootedAt k (startOf k) root) (hb : db.certifies k b) :
    hdr.Roots (startOf k) root b := by
  obtain ⟨c, hc, rfl, hhash, hheight⟩ := hb
  have := hs.roots_of_mem hh hr hc
  rwa [hhash, hheight] at this

/-! ### The walk of the trigger -/

/-- A row of the walk is a fact, rooted unless it is below `a`. -/
def Db.RootedRow (db : Db) (hdr : Headers) (k : ScopeKey) (a : ℕ) (root : Bytes) (p : PathRow) :
    Prop :=
  ∃ e ∈ db.events, ∃ hash height, e.isBlock k hash ∧ e.height = some height ∧ p = db.pathRow k e ∧
    (a ≤ height → hdr.Roots a root ⟨hash, height⟩)

theorem Db.RootedRow.next {start : ℕ} {p q : PathRow} (hh : db.Honest hdr k)
    (hp : db.RootedRow hdr k a root p) (hq : db.pathNext k start p = some q) :
    db.RootedRow hdr k a root q := by
  obtain ⟨e, he, hash, height, hb, hheight, rfl, hroots⟩ := hp
  obtain ⟨previous, height', hprevious, hheight', -, hlt, f, hf, rfl⟩ := Db.pathNext_eq_some hq
  obtain ⟨hfe, hfb, hfh⟩ := Db.mem_parents.mp hf
  obtain rfl : height = height' := Option.some.inj (hheight.symm.trans hheight')
  obtain rfl : hdr.previousHash hash = previous :=
    Option.some.inj ((hh e he hash hb).2.symm.trans hprevious)
  refine ⟨f, hfe, _, _, hfb, hfh, rfl, fun hle => ?_⟩
  obtain ⟨height, rfl⟩ := Nat.exists_eq_add_of_lt hlt
  rw [Nat.add_sub_cancel] at hle ⊢
  exact (Headers.roots_succ hle).mp (hroots (Nat.le_succ_of_le hle))

/-- **A rooted target roots what it certifies.** -/
theorem certifyHistory_rooted {row : CoverageRow} (hu : s.Unambiguous k) (hh : s.Honest hdr k)
    (hr : s.RootedAt k a root) (hstatus : row.status = .complete)
    (htarget : hdr.Roots a root row.targetTip) (h : certifyHistory k row s = .ok ((), t)) :
    t.RootedAt k a root := by
  obtain ⟨-, haccepted, -, rfl⟩ := (certifyHistory_eq_ok hstatus).mp h
  obtain ⟨e, he, hb, hheight, hpath, -⟩ := (Db.accepted_iff hu row).mp haccepted
  intro c hc hscope hca
  rcases mem_foldl_insertCertified hc with hc | hc
  · exact hr c hc hscope hca
  obtain ⟨p, hp, hpc⟩ := List.mem_filterMap.mp hc
  have hmem := (List.mem_filter.mp hp).1
  rw [hpath] at hmem
  obtain ⟨-, hhash, -, hpheight⟩ := PathRow.certifiedRow_eq_some hpc
  obtain ⟨f, -, hash, height, hfb, hfh, rfl, hroots⟩ :=
    forall_mem_chain (P := s.RootedRow hdr k a root) (fun _ _ hp hq => hp.next hh hq)
      ⟨e, he, _, _, hb, hheight, rfl, fun _ => htarget⟩ hmem
  obtain rfl : hash = c.blockHash := Option.some.inj (hfb.2.symm.trans hhash)
  obtain rfl : height = c.height := Option.some.inj (hfh.symm.trans hpheight)
  have := hroots hca.ge
  rwa [hca, Headers.roots_self] at this

/-- What the trigger certifies is of the scope. -/
theorem certifyHistory_rootedAt_of_ne {k' : ScopeKey} {row : CoverageRow} (hk : k' ≠ k)
    (hr : s.RootedAt k a root) (h : certifyHistory k' row s = .ok ((), t)) : t.RootedAt k a root := by
  by_cases hstatus : row.status = .complete
  · obtain ⟨-, -, -, rfl⟩ := (certifyHistory_eq_ok hstatus).mp h
    intro c hc hscope hca
    rcases mem_foldl_insertCertified hc with hc | hc
    · exact hr c hc hscope hca
    · obtain ⟨p, -, hpc⟩ := List.mem_filterMap.mp hc
      exact absurd ((PathRow.certifiedRow_eq_some hpc).1.symm.trans hscope) hk
  · simp only [certifyHistory, if_pos hstatus, Tx.pure_eq_ok] at h
    obtain ⟨-, rfl⟩ := h
    exact hr

end Bip300Monitor
