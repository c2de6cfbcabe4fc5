import Mathlib.Data.List.Sort
import Mathlib.Logic.Function.Basic

/-!
# Commit order and identity order

Sessions insert rows into tables whose identities come from sequences. An identity is taken
when its row is inserted, whatever becomes of the transaction, and the row is visible when
the transaction commits: two sessions can commit in the other order. A lock that a session
holds from before its first insertion to the end of its transaction rules that out.

## The model

A `State` has the lock, the sequences, the rows of the open transactions and those that are
committed, in the order they became visible. A `Consumer` reads pages of rows above its
cursor, in order, and moves the cursor to the last one.

## What is proved

* `step_inv` — when only the lock's holder inserts (`Ordered`), the rows of a table become
  visible in the order of their identities;
* `Consumer.Complete.page`, `Consumer.Complete.append` — then a consumer has seen every row up
  to its cursor.
-/

namespace CommitOrder

universe u v

variable {ι : Type u} {τ : Type v}

/-- The lock, the sequences, and the rows: their tables and identities. -/
structure State (ι : Type u) (τ : Type v) where
  holder : Option ι
  next : τ → ℕ
  pending : ι → List (τ × ℕ)
  committed : List (τ × ℕ)

/-- Nothing has been written. -/
def State.init : State ι τ := ⟨none, fun _ => 1, fun _ => [], []⟩

/-- What sessions do. An insertion takes an identity even if no row is kept. -/
inductive Action (ι : Type u) (τ : Type v) where
  | acquire (i : ι)
  | insert (i : ι) (t : τ) (kept : Bool)
  | commit (i : ι)
  | rollback (i : ι)

section
variable [DecidableEq ι] [DecidableEq τ]

/-- The lock after a session's transaction has ended. -/
def State.release (s : State ι τ) (i : ι) : Option ι :=
  if s.holder = some i then none else s.holder

/-- One action; a session waits for the lock while another one holds it. -/
def step (s : State ι τ) : Action ι τ → Option (State ι τ)
  | .acquire i => if s.holder = none then some { s with holder := some i } else none
  | .insert i t kept => some { s with
      next := Function.update s.next t (s.next t + 1)
      pending := Function.update s.pending i
        (s.pending i ++ if kept then [(t, s.next t)] else []) }
  | .commit i => some { s with
      holder := s.release i
      pending := Function.update s.pending i []
      committed := s.committed ++ s.pending i }
  | .rollback i => some { s with
      holder := s.release i
      pending := Function.update s.pending i [] }

/-- Only the holder of the lock inserts. -/
def Ordered (s : State ι τ) : Action ι τ → Prop
  | .insert i _ _ => s.holder = some i
  | _ => True

end

/-- Of two rows of one table, the first has the smaller identity. -/
def Before (p q : τ × ℕ) : Prop := p.1 = q.1 → p.2 < q.2

/-- What the lock keeps: rows are pending only in the holder's transaction, and together with
the committed ones they are in order, below the next identities. -/
structure Inv (s : State ι τ) : Prop where
  sorted : s.committed.Pairwise Before
  owned : ∀ i, s.pending i ≠ [] → s.holder = some i
  ordered : ∀ i, (s.committed ++ s.pending i).Pairwise Before
  below : ∀ i, ∀ p ∈ s.committed ++ s.pending i, p.2 < s.next p.1

theorem Inv.init : Inv (State.init : State ι τ) where
  sorted := List.Pairwise.nil
  owned i h := absurd rfl h
  ordered i := List.Pairwise.nil
  below i p hp := by cases hp

/-- Two sessions do not both have rows pending. -/
theorem Inv.pending_eq_nil {s : State ι τ} (hs : Inv s) {i j : ι} (hij : j ≠ i)
    (hi : s.pending i ≠ []) : s.pending j = [] := by
  by_contra hj
  have hsame : some i = some j := (hs.owned i hi).symm.trans (hs.owned j hj)
  cases hsame
  exact hij rfl

section
variable [DecidableEq ι] [DecidableEq τ] {s t : State ι τ}

omit [DecidableEq τ] in
/-- After a transaction has ended, with its rows or without them, there are no other rows than
a session saw before. -/
theorem Inv.sublist_ends {i : ι} (hs : Inv s) {rows : List (τ × ℕ)}
    (hrows : rows = [] ∨ rows = s.pending i) (j : ι) :
    ∃ j', (s.committed ++ rows ++ Function.update s.pending i [] j).Sublist
      (s.committed ++ s.pending j') := by
  by_cases hnil : rows = []
  · refine ⟨j, ?_⟩
    rw [hnil, List.append_nil]
    refine (List.Sublist.refl _).append ?_
    by_cases hji : j = i
    · rw [hji, Function.update_self]
      exact List.nil_sublist _
    · rw [Function.update_of_ne hji]
  · -- the session held the lock, and no other has rows pending
    obtain rfl : rows = s.pending i := hrows.resolve_left hnil
    have hnone : Function.update s.pending i [] j = [] := by
      by_cases hji : j = i
      · rw [hji, Function.update_self]
      · rw [Function.update_of_ne hji]
        exact hs.pending_eq_nil hji hnil
    refine ⟨i, ?_⟩
    rw [hnone, List.append_nil]

omit [DecidableEq τ] in
/-- A transaction that ends. -/
theorem Inv.ends {i : ι} (hs : Inv s) {rows : List (τ × ℕ)}
    (hrows : rows = [] ∨ rows = s.pending i) (ht : t = ⟨s.release i, s.next,
      Function.update s.pending i [], s.committed ++ rows⟩) : Inv t where
  sorted := by
    subst ht
    obtain ⟨j', hsub⟩ := hs.sublist_ends hrows i
    exact ((hs.ordered j').sublist hsub).sublist (List.sublist_append_left _ _)
  owned j hj := by
    subst ht
    have hji : j ≠ i := by
      rintro rfl
      exact hj (Function.update_self ..)
    have hpending : s.pending j ≠ [] := by
      intro hnil
      exact hj ((Function.update_of_ne hji ..).trans hnil)
    have hholder := hs.owned j hpending
    have hother : s.holder ≠ some i := by
      rw [hholder]
      exact fun h => hji (Option.some.inj h)
    exact (if_neg hother).trans hholder
  ordered j := by
    subst ht
    obtain ⟨j', hsub⟩ := hs.sublist_ends hrows j
    exact (hs.ordered j').sublist hsub
  below j p hp := by
    subst ht
    obtain ⟨j', hsub⟩ := hs.sublist_ends hrows j
    exact hs.below j' p (hsub.subset hp)

/-- An insertion by the holder of the lock. -/
theorem Inv.insert {i : ι} (hs : Inv s) (hi : s.holder = some i) (table : τ) (kept : Bool)
    (ht : t = { s with
      next := Function.update s.next table (s.next table + 1)
      pending := Function.update s.pending i
        (s.pending i ++ if kept then [(table, s.next table)] else []) }) : Inv t := by
  have hnext (p : τ × ℕ) (hp : p.2 < s.next p.1) : p.2 < t.next p.1 := by
    subst ht
    by_cases htable : p.1 = table
    · simp only [htable, Function.update_self] at hp ⊢
      omega
    · simpa only [Function.update_of_ne htable] using hp
  have hsame (j : ι) (hji : j ≠ i) : t.pending j = s.pending j := by
    subst ht
    exact Function.update_of_ne hji ..
  have hown : t.pending i = s.pending i ++ if kept then [(table, s.next table)] else [] := by
    subst ht
    exact Function.update_self ..
  have hcommitted : t.committed = s.committed := by rw [ht]
  have hnew : ∀ p ∈ (if kept then [(table, s.next table)] else []), p = (table, s.next table) := by
    intro p hp
    cases kept
    · cases hp
    · exact List.mem_singleton.mp hp
  refine ⟨hcommitted ▸ hs.sorted, fun j hj => ?_, fun j => ?_, fun j p hp => ?_⟩
  · have hholder : t.holder = s.holder := by rw [ht]
    rw [hholder]
    by_cases hji : j = i
    · rw [hji, hi]
    · exact hs.owned j (hsame j hji ▸ hj)
  · by_cases hji : j = i
    · rw [hji, hcommitted, hown, ← List.append_assoc]
      refine List.pairwise_append.mpr ⟨hs.ordered i, ?_, fun p hp q hq htables => ?_⟩
      · cases kept
        · exact List.Pairwise.nil
        · exact List.pairwise_singleton _ _
      · -- every row there is lies below the identity that is taken
        rw [hnew q hq] at htables ⊢
        have hlt := hs.below i p hp
        rw [htables] at hlt
        exact hlt
    · rw [hcommitted, hsame j hji]
      exact hs.ordered j
  · rw [hcommitted] at hp
    by_cases hji : j = i
    · rw [hji, hown, ← List.append_assoc] at hp
      rcases List.mem_append.mp hp with hp | hp
      · exact hnext p (hs.below i p hp)
      · rw [hnew p hp, ht]
        simp
    · rw [hsame j hji] at hp
      exact hnext p (hs.below j p hp)

/-- **One action keeps the order**, if only the holder of the lock inserts. -/
theorem step_inv {a : Action ι τ} (hs : Inv s) (ha : Ordered s a) (h : step s a = some t) :
    Inv t := by
  cases a with
  | acquire i =>
    obtain ⟨hfree, rfl⟩ : s.holder = none ∧ { s with holder := some i } = t := by
      simpa [step] using h
    refine ⟨hs.sorted, fun j hj => ?_, hs.ordered, hs.below⟩
    have hholder := hs.owned j hj
    rw [hfree] at hholder
    cases hholder
  | insert i table kept => exact hs.insert ha table kept (Option.some.inj h).symm
  | commit i => exact hs.ends (.inr rfl) (Option.some.inj h).symm
  | rollback i =>
    have ht : t = ⟨s.release i, s.next, Function.update s.pending i [], s.committed ++ []⟩ := by
      rw [List.append_nil]
      exact (Option.some.inj h).symm
    exact hs.ends (.inl rfl) ht

/-- What is visible stays so, and rows become visible after the others. -/
theorem committed_grows {a : Action ι τ} (h : step s a = some t) :
    s.committed <+: t.committed := by
  cases a with
  | acquire i =>
    obtain ⟨-, rfl⟩ : s.holder = none ∧ { s with holder := some i } = t := by
      simpa [step] using h
    exact List.prefix_rfl
  | insert i table kept => cases h; exact List.prefix_rfl
  | commit i => cases h; exact List.prefix_append _ _
  | rollback i => cases h; exact List.prefix_rfl

end

/-! ### Reading in pages -/

/-- The identities of a table's rows. -/
def rowsOf [DecidableEq τ] (t : τ) (rows : List (τ × ℕ)) : List ℕ :=
  rows.filterMap fun p => if p.1 = t then some p.2 else none

theorem mem_rowsOf [DecidableEq τ] {t : τ} {rows : List (τ × ℕ)} {n : ℕ} :
    n ∈ rowsOf t rows ↔ (t, n) ∈ rows := by
  constructor
  · intro h
    obtain ⟨p, hp, hn⟩ := List.mem_filterMap.mp h
    split_ifs at hn with ht
    cases hn
    exact ht ▸ hp
  · intro h
    exact List.mem_filterMap.mpr ⟨(t, n), h, if_pos rfl⟩

/-- A reader of one table: where it is, and what it has read. -/
structure Consumer where
  cursor : ℕ
  seen : List ℕ

/-- Read the first rows above the cursor, at most `limit`, in the order of their identities. -/
def Consumer.page (c : Consumer) (rows : List ℕ) (limit : ℕ) : Consumer :=
  let page := ((rows.filter (c.cursor < ·)).insertionSort (· ≤ ·)).take limit
  ⟨page.getLast?.getD c.cursor, c.seen ++ page⟩

/-- The consumer, which began at `start`, has seen every row up to its cursor. -/
structure Consumer.Complete (start : ℕ) (rows : List ℕ) (c : Consumer) : Prop where
  seen : ∀ n ∈ rows, start < n → n ≤ c.cursor → n ∈ c.seen
  cursor : c.cursor = start ∨ c.cursor ∈ rows

theorem Consumer.Complete.init (start : ℕ) (rows : List ℕ) : Complete start rows ⟨start, []⟩ where
  seen _ _ hlt hle := absurd hlt (Nat.not_lt.mpr hle)
  cursor := .inl rfl

/-- In a sorted list, what is not above the last of the first ones is one of them. -/
theorem mem_take_of_le_getLast {rows : List ℕ} (hrows : rows.Pairwise (· ≤ ·)) {limit n last : ℕ}
    (hlast : (rows.take limit).getLast? = some last) (hn : n ∈ rows) (hle : n ≤ last) :
    n ∈ rows.take limit := by
  rw [← List.take_append_drop limit rows] at hrows hn
  have hmem : last ∈ rows.take limit := List.mem_of_getLast? hlast
  rcases List.mem_append.mp hn with hn | hn
  · exact hn
  · have hge := (List.pairwise_append.mp hrows).2.2 last hmem n hn
    rwa [Nat.le_antisymm hle hge]

/-- **Reading a page leaves no row behind.** -/
theorem Consumer.Complete.page {start : ℕ} {rows : List ℕ} {c : Consumer}
    (hc : c.Complete start rows) (limit : ℕ) : (c.page rows limit).Complete start rows := by
  have hsorted := List.pairwise_insertionSort (· ≤ ·) (rows.filter (c.cursor < ·))
  have hmem (n : ℕ) : n ∈ (rows.filter (c.cursor < ·)).insertionSort (· ≤ ·) ↔
      n ∈ rows ∧ c.cursor < n := by
    rw [List.mem_insertionSort, List.mem_filter, decide_eq_true_iff]
  have hpage : c.page rows limit = ⟨(((rows.filter (c.cursor < ·)).insertionSort (· ≤ ·)).take
      limit).getLast?.getD c.cursor, c.seen ++ ((rows.filter (c.cursor < ·)).insertionSort
      (· ≤ ·)).take limit⟩ := rfl
  rw [hpage]
  generalize (rows.filter (c.cursor < ·)).insertionSort (· ≤ ·) = above at hsorted hmem
  cases hlast : (above.take limit).getLast? with
  | none =>
    have hnil : above.take limit = [] := List.getLast?_eq_none_iff.mp hlast
    rw [hnil, List.append_nil]
    exact hc
  | some last =>
    have hread : last ∈ above.take limit := List.mem_of_getLast? hlast
    refine ⟨fun n hn hlt (hle : n ≤ last) => ?_, .inr ((hmem last).mp (List.mem_of_mem_take hread)).1⟩
    by_cases hold : n ≤ c.cursor
    · exact List.mem_append_left _ (hc.seen n hn hlt hold)
    · have habove : n ∈ above := (hmem n).mpr ⟨hn, Nat.lt_of_not_le hold⟩
      exact List.mem_append_right _ (mem_take_of_le_getLast hsorted hlast habove hle)

/-- **Rows that become visible above all the others are not behind a cursor.** -/
theorem Consumer.Complete.append {start : ℕ} {rows new : List ℕ} {c : Consumer}
    (hc : c.Complete start rows) (hnew : ∀ n ∈ rows, ∀ m ∈ new, n < m) :
    c.Complete start (rows ++ new) := by
  refine ⟨fun n hn hlt hle => ?_, hc.cursor.imp_right (List.mem_append_left new)⟩
  rcases List.mem_append.mp hn with hn | hn
  · exact hc.seen n hn hlt hle
  · rcases hc.cursor with hstart | hcursor
    · omega
    · have habove := hnew c.cursor hcursor n hn
      omega

/-- What becomes visible after the rest lies above it. -/
theorem lt_of_committed {s t : State ι τ} (ht : Inv t) (hst : s.committed <+: t.committed) {table : τ}
    {n m : ℕ} (hn : (table, n) ∈ s.committed) (hm : (table, m) ∈ t.committed)
    (hnew : (table, m) ∉ s.committed) : n < m := by
  obtain ⟨new, hnewRows⟩ := hst
  have hsorted := ht.sorted
  rw [← hnewRows] at hm hsorted
  have hmem : (table, m) ∈ new := (List.mem_append.mp hm).resolve_left hnew
  exact (List.pairwise_append.mp hsorted).2.2 _ hn _ hmem rfl

/-- So a consumer that has left nothing behind still has not. -/
theorem Consumer.Complete.mono [DecidableEq τ] {s t : State ι τ} {table : τ} {start : ℕ}
    {c : Consumer} (hc : c.Complete start (rowsOf table s.committed)) (ht : Inv t)
    (hst : s.committed <+: t.committed) : c.Complete start (rowsOf table t.committed) := by
  obtain ⟨new, hnew⟩ := hst
  have hsorted := ht.sorted
  rw [← hnew] at hsorted
  have hrows : rowsOf table t.committed = rowsOf table s.committed ++ rowsOf table new := by
    rw [← hnew]
    exact List.filterMap_append
  rw [hrows]
  refine hc.append fun n hn m hm => ?_
  exact (List.pairwise_append.mp hsorted).2.2 _ (mem_rowsOf.mp hn) _ (mem_rowsOf.mp hm) rfl

end CommitOrder
