import Mathlib.Data.Nat.Notation
import Mathlib.Logic.Relation

/-!
# Runs of a transition system

A system is a step function: from a state and an action it computes the next
state, or `none` when the action is not enabled. What one step does, a run does
for a list of actions; the order of the list is the interleaving.

## What is proved

* `run_invariant` — what every step preserves holds at the end of every run;
* `run_invariant_along` — the same when only the steps that meet a condition
  preserve it, for the runs all of whose steps do (`Along`);
* `forall_prefix_iff` — what is so at every point of a run is so exactly when the steps meet a
  condition;
* `run_preorder` — a preorder that every step respects relates the two ends of a
  run: what is only added to is still there;
* `run_invariant_noted` — an invariant may speak of a variable that only records what happened;
* `countSteps_le` — a run has at most as many steps of a kind as a measure grows that each of
  them increases.
-/

namespace Runs

universe u v w

variable {σ : Type u} {α : Type v} {step : σ → α → Option σ}

/-- Take the actions of a list in order; `none` when one of them is not enabled. -/
def run (step : σ → α → Option σ) : σ → List α → Option σ
  | s, [] => some s
  | s, a :: as => (step s a).bind fun t => run step t as

@[simp] theorem run_nil (s : σ) : run step s [] = some s := rfl

theorem run_cons (s : σ) (a : α) (as : List α) :
    run step s (a :: as) = (step s a).bind fun t => run step t as := rfl

theorem run_cons_eq_some {s u : σ} {a : α} {as : List α} :
    run step s (a :: as) = some u ↔ ∃ t, step s a = some t ∧ run step t as = some u := by
  rw [run_cons, Option.bind_eq_some_iff]

/-- A run of two lists is a run of the first and, from where it ends, a run of the second. -/
theorem run_append (s : σ) (as bs : List α) :
    run step s (as ++ bs) = (run step s as).bind fun t => run step t bs := by
  induction as generalizing s with
  | nil => rfl
  | cons a as ih =>
    rw [List.cons_append, run_cons, run_cons, Option.bind_assoc]
    congr 1
    funext t
    exact ih t

/-! ### Invariants -/

/-- What every step preserves holds at the end of every run. -/
theorem run_invariant {I : σ → Prop} (hstep : ∀ s a t, I s → step s a = some t → I t)
    {s u : σ} {as : List α} (hs : I s) (h : run step s as = some u) : I u := by
  induction as generalizing s with
  | nil => cases h; exact hs
  | cons a as ih =>
    obtain ⟨t, ht, h⟩ := run_cons_eq_some.mp h
    exact ih (hstep s a t hs ht) h

/-- Every step the run takes meets `C`, a condition on the state before the step and
the action taken. -/
def Along (step : σ → α → Option σ) (C : σ → α → Prop) : σ → List α → Prop
  | _, [] => True
  | s, a :: as => C s a ∧ ∀ t, step s a = some t → Along step C t as

@[simp] theorem along_nil (C : σ → α → Prop) (s : σ) : Along step C s [] := trivial

theorem Along.mono {C D : σ → α → Prop} (hCD : ∀ s a, C s a → D s a) {s : σ} {as : List α}
    (h : Along step C s as) : Along step D s as := by
  induction as generalizing s with
  | nil => trivial
  | cons a as ih => exact ⟨hCD s a h.1, fun t ht => ih (h.2 t ht)⟩

/-- A condition follows from another along a run when it does in every state that the run can
reach. -/
theorem Along.mono_of_invariant {C D : σ → α → Prop} {I : σ → Prop}
    (hstep : ∀ s a t, I s → step s a = some t → I t) (hCD : ∀ s a, I s → C s a → D s a) {s : σ}
    {as : List α} (hs : I s) (h : Along step C s as) : Along step D s as := by
  induction as generalizing s with
  | nil => trivial
  | cons a as ih => exact ⟨hCD s a hs h.1, fun t ht => ih (hstep s a t hs ht) (h.2 t ht)⟩

/-- A condition that can be decided step by step can be decided along a run. -/
instance Along.decidable (C : σ → α → Prop) [∀ s a, Decidable (C s a)] :
    ∀ s as, Decidable (Along step C s as)
  | _, [] => isTrue trivial
  | s, a :: as =>
    match h : step s a with
    | none => decidable_of_iff (C s a) (by simp [Along, h])
    | some t =>
      have := Along.decidable C t as
      decidable_of_iff (C s a ∧ Along step C t as) (by simp [Along, h])

/-- A condition is met along a run of two lists when it is along the first and, from where
it ends, along the second. -/
theorem along_append {C : σ → α → Prop} {s : σ} {as bs : List α} :
    Along step C s (as ++ bs) ↔
      Along step C s as ∧ ∀ t, run step s as = some t → Along step C t bs := by
  induction as generalizing s with
  | nil => simp
  | cons a as ih =>
    simp only [List.cons_append, Along, ih, run_cons_eq_some]
    constructor
    · rintro ⟨hC, hrest⟩
      exact ⟨⟨hC, fun t ht => (hrest t ht).1⟩, fun u ⟨t, ht, hu⟩ => (hrest t ht).2 u hu⟩
    · rintro ⟨⟨hC, has⟩, hbs⟩
      exact ⟨hC, fun t ht => ⟨has t ht, fun u hu => hbs u ⟨t, ht, hu⟩⟩⟩

/-- A condition that every action meets in every state is met along every run. -/
theorem along_of_forall {C : σ → α → Prop} {s : σ} {as : List α} (h : ∀ a ∈ as, ∀ s, C s a) :
    Along step C s as := by
  induction as generalizing s with
  | nil => trivial
  | cons a as ih =>
    exact ⟨h a List.mem_cons_self s, fun t _ => ih fun b hb => h b (List.mem_cons_of_mem a hb)⟩

/-- What every step that meets `C` preserves holds at the end of every run all of
whose steps meet `C`. -/
theorem run_invariant_along {I : σ → Prop} {C : σ → α → Prop}
    (hstep : ∀ s a t, I s → C s a → step s a = some t → I t)
    {s u : σ} {as : List α} (hs : I s) (hC : Along step C s as) (h : run step s as = some u) :
    I u := by
  induction as generalizing s with
  | nil => cases h; exact hs
  | cons a as ih =>
    obtain ⟨t, ht, h⟩ := run_cons_eq_some.mp h
    exact ih (hstep s a t hs hC.1 ht) (hC.2 t ht) h

/-- `P` is so at every point of a run exactly when every step of it meets `C`, if `C` is what a step
needs for `P` to be so after it, and keeps what `P` follows from. -/
theorem forall_prefix_iff {K P : σ → Prop} {C : σ → α → Prop} (hholds : ∀ s, K s → P s)
    (hkeep : ∀ s a t, K s → C s a → step s a = some t → K t)
    (hneeds : ∀ s a t, K s → step s a = some t → P t → C s a)
    {s u : σ} {as : List α} (hs : K s) (h : run step s as = some u) :
    (∀ bs t, bs <+: as → run step s bs = some t → P t) ↔ Along step C s as := by
  induction as generalizing s with
  | nil =>
    refine ⟨fun _ => trivial, fun _ bs t hbs ht => ?_⟩
    obtain rfl := List.prefix_nil.mp hbs
    cases ht
    exact hholds s hs
  | cons a as ih =>
    obtain ⟨t, ht, hrun⟩ := run_cons_eq_some.mp h
    constructor
    · intro hP
      have hfirst : run step s [a] = some t := run_cons_eq_some.mpr ⟨t, ht, rfl⟩
      have hC : C s a := hneeds s a t hs ht (hP [a] t (List.prefix_append [a] as) hfirst)
      refine ⟨hC, fun t' ht' => ?_⟩
      obtain rfl : t = t' := Option.some.inj (ht.symm.trans ht')
      exact (ih (hkeep s a t hs hC ht) hrun).mp fun bs v hbs hv =>
        hP (a :: bs) v (List.cons_prefix_cons.mpr ⟨rfl, hbs⟩) (run_cons_eq_some.mpr ⟨t, ht, hv⟩)
    · rintro ⟨hC, hrest⟩ bs v hbs hv
      cases bs with
      | nil =>
        cases hv
        exact hholds s hs
      | cons b bs =>
        obtain ⟨rfl, hrestOf⟩ := List.cons_prefix_cons.mp hbs
        obtain ⟨t', ht', hrestRun⟩ := run_cons_eq_some.mp hv
        obtain rfl : t = t' := Option.some.inj (ht.symm.trans ht')
        exact (ih (hkeep s b t hs hC ht) hrun).mpr (hrest t ht) bs v hrestOf hrestRun

/-- A preorder that every step respects relates the two ends of every run. -/
theorem run_preorder {R : σ → σ → Prop} (hrefl : ∀ s, R s s)
    (htrans : ∀ s t u, R s t → R t u → R s u) (hstep : ∀ s a t, step s a = some t → R s t)
    {s u : σ} {as : List α} (h : run step s as = some u) : R s u := by
  induction as generalizing s with
  | nil => cases h; exact hrefl _
  | cons a as ih =>
    obtain ⟨t, ht, h⟩ := run_cons_eq_some.mp h
    exact htrans s t u (hstep s a t ht) (ih h)

/-! ### History variables -/

section
variable {η : Type w} (note : σ → η → α → η)

/-- The step with a variable that records what happens, and that no step reads. -/
def noted (step : σ → α → Option σ) (p : σ × η) (a : α) : Option (σ × η) :=
  (step p.1 a).map fun t => (t, note p.1 p.2 a)

theorem noted_eq_some {s t : σ} {n : η} {a : α} (h : step s a = some t) :
    noted note step (s, n) a = some (t, note s n a) := by
  simp only [noted, h, Option.map_some]

/-- What every step that meets `C` preserves, of a state and what was recorded until then, holds at
the end of every run all of whose steps meet `C`. -/
theorem run_invariant_noted {I : σ → η → Prop} {C : σ × η → α → Prop}
    (hstep : ∀ s n a t, I s n → C (s, n) a → step s a = some t → I t (note s n a))
    {s u : σ} {n : η} {as : List α} (hs : I s n) (hC : Along (noted note step) C (s, n) as)
    (h : run step s as = some u) : ∃ n', I u n' := by
  induction as generalizing s n with
  | nil =>
    cases h
    exact ⟨n, hs⟩
  | cons a as ih =>
    obtain ⟨t, ht, h⟩ := run_cons_eq_some.mp h
    exact ih (hstep s n a t hs hC.1 ht) (hC.2 _ (noted_eq_some note ht)) h

end

/-! ### Counting steps -/

section
variable (p : σ → σ → Prop) [∀ s t, Decidable (p s t)]

/-- How many steps of a run meet `p`, a condition on the states before and after the step. -/
def countSteps (step : σ → α → Option σ) : σ → List α → ℕ
  | _, [] => 0
  | s, a :: as => (step s a).elim 0 fun t => (if p s t then 1 else 0) + countSteps step t as

/-- **A measure** that no step decreases, and each step that meets `p` increases, has grown by as
much as their number. -/
theorem countSteps_le {I : σ → Prop} (hstep : ∀ s a t, I s → step s a = some t → I t) {m : σ → ℕ}
    (hm : ∀ s a t, I s → step s a = some t → m s + (if p s t then 1 else 0) ≤ m t)
    {s u : σ} {as : List α} (hs : I s) (h : run step s as = some u) :
    m s + countSteps p step s as ≤ m u := by
  induction as generalizing s with
  | nil =>
    cases h
    exact Nat.le_refl _
  | cons a as ih =>
    obtain ⟨t, ht, h⟩ := run_cons_eq_some.mp h
    have hrest := ih (hstep s a t hs ht) h
    have hfirst := hm s a t hs ht
    simp only [countSteps, ht, Option.elim_some]
    omega

end

end Runs
