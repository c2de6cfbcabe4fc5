import Mathlib.Data.List.Dedup
import Mathlib.Data.Nat.Notation

/-!
# Recursive queries

`WITH RECURSIVE q AS (base UNION ALL step)`: the rows of `base` are the first
working table, the rows that `step` makes of a working table are the next, and the
result is all working tables together. `rows` computes it with a bound on the number
of working tables.

When no row has two successors the result is a chain (`rows_eq_chain`). A chain
whose successors lower a measure ends within the bound, at its only row without a
successor (`chain_last`); when each step lowers the measure by exactly one, the length
of the chain is the difference of its ends (`length_chain`).
-/

namespace RecursiveQuery

universe u

variable {α : Type u}

/-- The rows of at most `n` working tables, the first of them `work`. -/
def rows (step : α → List α) : ℕ → List α → List α
  | 0, _ => []
  | n + 1, work => work ++ rows step n (work.flatMap step)

/-- A row, its successor, the successor's successor, at most `n` of them. -/
def chain (next : α → Option α) : ℕ → α → List α
  | 0, _ => []
  | n + 1, a => a :: (match next a with
    | none => []
    | some b => chain next n b)

@[simp] theorem rows_nil (step : α → List α) (n : ℕ) : rows step n [] = [] := by
  induction n with
  | zero => rfl
  | succ n ih => simpa [rows] using ih

/-- A query whose step never branches computes a chain. -/
theorem rows_eq_chain {step : α → List α} {next : α → Option α}
    (h : ∀ a, step a = (next a).toList) (n : ℕ) (a : α) :
    rows step n [a] = chain next n a := by
  induction n generalizing a with
  | zero => rfl
  | succ n ih =>
    cases hb : next a with
    | none => simp [rows, chain, h, hb]
    | some b => simp [rows, chain, h, hb, ih b]

variable {next : α → Option α} {m : α → ℕ}

theorem chain_succ_none {n : ℕ} {a : α} (h : next a = none) : chain next (n + 1) a = [a] := by
  simp [chain, h]

theorem chain_succ_some {n : ℕ} {a b : α} (h : next a = some b) :
    chain next (n + 1) a = a :: chain next n b := by
  simp [chain, h]

/-- A list without repetitions all of whose elements are equal has at most one. -/
theorem eq_toList_head? {l : List α} (hl : l.Nodup) (h : ∀ a ∈ l, ∀ b ∈ l, a = b) :
    l = l.head?.toList := by
  cases l with
  | nil => rfl
  | cons a l =>
    cases l with
    | nil => rfl
    | cons b l =>
      have hab : a = b := h a (by simp) b (by simp)
      rw [List.nodup_cons] at hl
      exact absurd (by simp [hab]) hl.1

/-- What the first row has and a successor inherits, every row of the chain has. -/
theorem forall_mem_chain {P : α → Prop} (hP : ∀ a b, P a → next a = some b → P b) {n : ℕ} {a x : α}
    (ha : P a) (hx : x ∈ chain next n a) : P x := by
  induction n generalizing a with
  | zero => cases hx
  | succ n ih =>
    cases hb : next a with
    | none =>
      rw [chain_succ_none hb, List.mem_singleton] at hx
      rw [hx]
      exact ha
    | some b =>
      rw [chain_succ_some hb] at hx
      rcases List.mem_cons.mp hx with rfl | hx
      · exact ha
      · exact ih (hP a b ha hb) hx

/-! ### Where a chain ends -/

/-- Every step of the chain lowers the measure. -/
def Decreases (next : α → Option α) (m : α → ℕ) : Prop := ∀ a b, next a = some b → m b < m a

/-- With the bound above the measure of the first row, the successor of a row of the
chain is in the chain. -/
theorem chain_closed (hm : Decreases next m) {n : ℕ} {a x y : α} (hn : m a < n)
    (hx : x ∈ chain next n a) (hy : next x = some y) : y ∈ chain next n a := by
  induction n generalizing a with
  | zero => exact absurd hn (Nat.not_lt_zero _)
  | succ n ih =>
    cases hb : next a with
    | none =>
      rw [chain_succ_none hb, List.mem_singleton] at hx
      rw [hx, hb] at hy
      cases hy
    | some b =>
      have hlt : m b < n := by have := hm a b hb; omega
      rw [chain_succ_some hb] at hx ⊢
      rcases List.mem_cons.mp hx with rfl | hx
      · rw [hb] at hy
        cases hy
        cases n with
        | zero => exact absurd hlt (Nat.not_lt_zero _)
        | succ n => exact List.mem_cons_of_mem _ (by simp [chain])
      · exact List.mem_cons_of_mem _ (ih hlt hx)

/-- A chain has at most one row without a successor. -/
theorem chain_end_unique {n : ℕ} {a x y : α} (hx : x ∈ chain next n a) (hy : y ∈ chain next n a)
    (hxn : next x = none) (hyn : next y = none) : x = y := by
  induction n generalizing a with
  | zero => cases hx
  | succ n ih =>
    cases hb : next a with
    | none =>
      rw [chain_succ_none hb, List.mem_singleton] at hx hy
      rw [hx, hy]
    | some b =>
      rw [chain_succ_some hb] at hx hy
      have not_first {z : α} (hz : z ∈ a :: chain next n b) (hzn : next z = none) :
          z ∈ chain next n b := by
        rcases List.mem_cons.mp hz with rfl | hz
        · rw [hb] at hzn; cases hzn
        · exact hz
      exact ih (not_first hx hxn) (not_first hy hyn)

/-- With the bound above the measure of the first row, the chain has an end. -/
theorem chain_last (hm : Decreases next m) {n : ℕ} {a : α} (hn : m a < n) :
    ∃ z ∈ chain next n a, next z = none := by
  induction n generalizing a with
  | zero => exact absurd hn (Nat.not_lt_zero _)
  | succ n ih =>
    cases hb : next a with
    | none => exact ⟨a, by simp [chain], hb⟩
    | some b =>
      obtain ⟨z, hz, hzn⟩ := ih (a := b) (by have := hm a b hb; omega)
      exact ⟨z, by rw [chain_succ_some hb]; exact List.mem_cons_of_mem _ hz, hzn⟩

/-! ### Chains that step by one -/

/-- Every step of the chain lowers the measure by one. -/
def StepsByOne (next : α → Option α) (m : α → ℕ) : Prop := ∀ a b, next a = some b → m b + 1 = m a

theorem StepsByOne.decreases (h : StepsByOne next m) : Decreases next m := by
  intro a b hb
  have := h a b hb
  omega

theorem measure_le_of_mem_chain (hm : Decreases next m) {n : ℕ} {a x : α}
    (hx : x ∈ chain next n a) : m x ≤ m a := by
  induction n generalizing a with
  | zero => cases hx
  | succ n ih =>
    cases hb : next a with
    | none =>
      rw [chain_succ_none hb, List.mem_singleton] at hx
      exact Nat.le_of_eq (congrArg m hx)
    | some b =>
      rw [chain_succ_some hb] at hx
      rcases List.mem_cons.mp hx with rfl | hx
      · exact Nat.le_refl _
      · have := ih hx
        have := hm a b hb
        omega

/-- The rows of a chain differ in their measure. -/
theorem chain_measures_nodup (hm : Decreases next m) (n : ℕ) (a : α) :
    ((chain next n a).map m).Nodup := by
  induction n generalizing a with
  | zero => exact List.nodup_nil
  | succ n ih =>
    cases hb : next a with
    | none => simp [chain_succ_none hb]
    | some b =>
      rw [chain_succ_some hb, List.map_cons, List.nodup_cons]
      refine ⟨fun hmem => ?_, ih b⟩
      obtain ⟨x, hx, heq⟩ := List.mem_map.mp hmem
      have := measure_le_of_mem_chain hm hx
      have := hm a b hb
      omega

/-- **The length of a chain that steps by one**: from the measure of its first row
down to that of its end, both included. -/
theorem length_chain (hm : StepsByOne next m) {n : ℕ} {a z : α}
    (hz : z ∈ chain next n a) (hzn : next z = none) :
    (chain next n a).length + m z = m a + 1 := by
  induction n generalizing a with
  | zero => cases hz
  | succ n ih =>
    cases hb : next a with
    | none =>
      rw [chain_succ_none hb, List.mem_singleton] at hz
      rw [chain_succ_none hb, hz, List.length_singleton, Nat.add_comm]
    | some b =>
      rw [chain_succ_some hb] at hz ⊢
      have hba := hm a b hb
      rcases List.mem_cons.mp hz with rfl | hz
      · rw [hb] at hzn; cases hzn
      · have := ih hz
        rw [List.length_cons]
        omega

/-- The end of a chain has the least measure. -/
theorem end_le_of_mem_chain (hm : Decreases next m) {n : ℕ} {a x z : α} (hx : x ∈ chain next n a)
    (hz : z ∈ chain next n a) (hzn : next z = none) : m z ≤ m x := by
  induction n generalizing a with
  | zero => cases hx
  | succ n ih =>
    cases hb : next a with
    | none =>
      rw [chain_succ_none hb, List.mem_singleton] at hx hz
      exact Nat.le_of_eq (congrArg m (hz.trans hx.symm))
    | some b =>
      rw [chain_succ_some hb] at hx hz
      rcases List.mem_cons.mp hz with rfl | hzb
      · rw [hb] at hzn; cases hzn
      · rcases List.mem_cons.mp hx with rfl | hxb
        · have := measure_le_of_mem_chain hm hzb
          have := hm x b hb
          omega
        · exact ih hxb hzb

end RecursiveQuery
