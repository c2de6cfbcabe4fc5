import Mathlib.Logic.Relation
import Mathlib.Tactic.SplitIfs

/-!
# Transactions

A transaction reads and writes a state and either succeeds, with a value and the
state it leaves, or fails with an error. `commit` is what the outside sees: a
failed transaction leaves the state as it was.

Two kinds of rule are given: inversion (`bind_eq_ok` and the `_eq_ok` lemmas of the
primitives), which take a successful transaction apart into its successful
pieces, and `Guarantees`, a relation between the states before and after that is
put together from the pieces when it is a preorder. `Succeeds` says that a transaction
does not fail; the `succeeds_` lemmas say exactly when, piece by piece.
-/

namespace Transaction

universe u v w

/-- A transaction over states `σ`, with errors `ε`, returning `α`. -/
def Tx (σ : Type u) (ε : Type v) (α : Type w) := σ → Except ε (α × σ)

namespace Tx

variable {σ : Type u} {ε : Type v} {α β : Type w}

instance : Monad (Tx σ ε) where
  pure a := fun s => .ok (a, s)
  bind x f := fun s => match x s with
    | .error e => .error e
    | .ok (a, t) => f a t

/-- Fail with an error. -/
def fail (e : ε) : Tx σ ε α := fun _ => .error e

/-- Read the state. -/
def read {σ : Type u} {ε : Type v} : Tx σ ε σ := fun s => .ok (s, s)

/-- Replace the state by a function of it. -/
def modify (f : σ → σ) : Tx σ ε PUnit := fun s => .ok (⟨⟩, f s)

/-- Take the value of a computation that does not touch the state. -/
def lift (x : Except ε α) : Tx σ ε α := fun s => x.map fun a => (a, s)

/-- Fail with `e` unless `c` holds. -/
def require (c : Prop) [Decidable c] (e : ε) : Tx σ ε PUnit :=
  if c then pure ⟨⟩ else fail e

/-- Fail with `e` unless there is a value, and return it. -/
def expect (x : Option α) (e : ε) : Tx σ ε α :=
  match x with
  | some a => pure a
  | none => fail e

/-- What the outside sees of a transaction: its answer, and the state it leaves, which
after a failure is the state before. -/
def commit (x : Tx σ ε α) (s : σ) : Except ε α × σ :=
  match x s with
  | .ok (a, t) => (.ok a, t)
  | .error e => (.error e, s)

/-! ### Inversion -/

theorem bind_eq_ok {x : Tx σ ε α} {f : α → Tx σ ε β} {s u : σ} {b : β} :
    (x >>= f) s = .ok (b, u) ↔ ∃ a t, x s = .ok (a, t) ∧ f a t = .ok (b, u) := by
  change (match x s with | Except.error e => Except.error e | .ok (a, t) => f a t) = _ ↔ _
  cases hx : x s with
  | error e => simp
  | ok r =>
    obtain ⟨a, t⟩ := r
    constructor
    · exact fun h => ⟨a, t, rfl, h⟩
    · rintro ⟨a', t', heq, h⟩
      cases heq
      exact h

/-- A transaction whose first part succeeds goes on with the rest. -/
theorem bind_of_ok {x : Tx σ ε α} {f : α → Tx σ ε β} {s t : σ} {a : α} (h : x s = .ok (a, t)) :
    (x >>= f) s = f a t := by
  change (match x s with | Except.error e => Except.error e | .ok (a, t) => f a t) = _
  rw [h]

/-- Two transactions agree if their first parts do, and their rests on what these return. -/
theorem bind_congr {x y : Tx σ ε α} {f g : α → Tx σ ε β} {s : σ} (hx : x s = y s)
    (hf : ∀ a t, y s = .ok (a, t) → f a t = g a t) : (x >>= f) s = (y >>= g) s := by
  change (match x s with | Except.error e => Except.error e | .ok (a, t) => f a t) =
    (match y s with | Except.error e => Except.error e | .ok (a, t) => g a t)
  rw [hx]
  cases hy : y s with
  | error e => rfl
  | ok r => exact hf r.1 r.2 hy

@[simp] theorem pure_eq_ok {a b : α} {s t : σ} :
    (pure a : Tx σ ε α) s = .ok (b, t) ↔ a = b ∧ s = t := by
  change Except.ok (a, s) = _ ↔ _
  simp

@[simp] theorem fail_eq_ok {e : ε} {s t : σ} {a : α} :
    (fail e : Tx σ ε α) s = .ok (a, t) ↔ False := by
  simp [fail]

@[simp] theorem read_eq_ok {s t u : σ} : (read : Tx σ ε σ) s = .ok (t, u) ↔ t = s ∧ u = s := by
  simp only [read, Except.ok.injEq, Prod.mk.injEq, eq_comm]

@[simp] theorem modify_eq_ok {f : σ → σ} {s t : σ} {a : PUnit} :
    (modify f : Tx σ ε PUnit) s = .ok (a, t) ↔ t = f s := by
  simp only [modify, Except.ok.injEq, Prod.mk.injEq, true_and, eq_comm]

@[simp] theorem lift_eq_ok {x : Except ε α} {s t : σ} {a : α} :
    (lift x : Tx σ ε α) s = .ok (a, t) ↔ x = .ok a ∧ t = s := by
  cases x with
  | error e => simp [lift, Except.map]
  | ok b => simp only [lift, Except.map, Except.ok.injEq, Prod.mk.injEq, @eq_comm _ s t]

@[simp] theorem require_eq_ok {c : Prop} [Decidable c] {e : ε} {s t : σ} {a : PUnit} :
    (require c e : Tx σ ε PUnit) s = .ok (a, t) ↔ c ∧ t = s := by
  unfold require
  split_ifs with h
  · rw [pure_eq_ok, eq_comm (a := t)]
    exact and_congr_left fun _ => iff_of_true rfl h
  · rw [fail_eq_ok]
    exact ⟨False.elim, fun hc => h hc.1⟩

@[simp] theorem expect_eq_ok {x : Option α} {e : ε} {s t : σ} {a : α} :
    (expect x e : Tx σ ε α) s = .ok (a, t) ↔ x = some a ∧ t = s := by
  cases x with
  | none => simp [expect]
  | some b => simp only [expect, pure_eq_ok, Option.some.injEq, @eq_comm _ s t]

/-! ### Peeling off the first step -/

section
variable {s u : σ} {b : β}

theorem lift_bind_eq_ok {x : Except ε α} {f : α → Tx σ ε β} :
    (lift x >>= f) s = .ok (b, u) ↔ ∃ a, x = .ok a ∧ f a s = .ok (b, u) := by
  simp only [bind_eq_ok, lift_eq_ok]
  exact ⟨fun ⟨a, _, ⟨hx, ht⟩, h⟩ => ⟨a, hx, ht ▸ h⟩, fun ⟨a, hx, h⟩ => ⟨a, s, ⟨hx, rfl⟩, h⟩⟩

theorem expect_bind_eq_ok {x : Option α} {e : ε} {f : α → Tx σ ε β} :
    (expect x e >>= f) s = .ok (b, u) ↔ ∃ a, x = some a ∧ f a s = .ok (b, u) := by
  simp only [bind_eq_ok, expect_eq_ok]
  exact ⟨fun ⟨a, _, ⟨hx, ht⟩, h⟩ => ⟨a, hx, ht ▸ h⟩, fun ⟨a, hx, h⟩ => ⟨a, s, ⟨hx, rfl⟩, h⟩⟩

end

section
variable {σ ε β : Type} {s u : σ} {b : β}

theorem require_bind_eq_ok {c : Prop} [Decidable c] {e : ε} {f : PUnit → Tx σ ε β} :
    (require c e >>= f) s = .ok (b, u) ↔ c ∧ f ⟨⟩ s = .ok (b, u) := by
  simp only [bind_eq_ok, require_eq_ok]
  exact ⟨fun ⟨_, _, ⟨hc, ht⟩, h⟩ => ⟨hc, ht ▸ h⟩, fun ⟨hc, h⟩ => ⟨⟨⟩, s, ⟨hc, rfl⟩, h⟩⟩

theorem read_bind_eq_ok {f : σ → Tx σ ε β} :
    (read >>= f) s = .ok (b, u) ↔ f s s = .ok (b, u) := by
  simp only [bind_eq_ok, read_eq_ok]
  constructor
  · rintro ⟨_, _, ⟨rfl, rfl⟩, h⟩
    exact h
  · exact fun h => ⟨s, s, ⟨rfl, rfl⟩, h⟩

theorem modify_bind_eq_ok {g : σ → σ} {f : PUnit → Tx σ ε β} :
    (modify g >>= f) s = .ok (b, u) ↔ f ⟨⟩ (g s) = .ok (b, u) := by
  simp only [bind_eq_ok, modify_eq_ok]
  exact ⟨fun ⟨_, _, ht, h⟩ => ht ▸ h, fun h => ⟨⟨⟩, g s, rfl, h⟩⟩

end

theorem commit_snd_cases (x : Tx σ ε α) (s : σ) :
    (∃ a t, x s = .ok (a, t) ∧ commit x s = (.ok a, t)) ∨
      ∃ e, x s = .error e ∧ commit x s = (.error e, s) := by
  unfold commit
  cases h : x s with
  | error e => exact .inr ⟨e, rfl, rfl⟩
  | ok r => exact .inl ⟨r.1, r.2, rfl, rfl⟩

/-- A success seen from outside is one. -/
theorem commit_eq_ok {x : Tx σ ε α} {s t : σ} {a : α} :
    commit x s = (.ok a, t) ↔ x s = .ok (a, t) := by
  rcases commit_snd_cases x s with ⟨b, u, hx, hc⟩ | ⟨e, hx, hc⟩
  · rw [hx, hc]
    simp
  · rw [hx, hc]
    simp

/-! ### Guarantees -/

/-- Every success of `x` relates the state before to the state after by `R`. -/
def Guarantees (R : σ → σ → Prop) (x : Tx σ ε α) : Prop := ∀ ⦃s a t⦄, x s = .ok (a, t) → R s t

section
variable {R : σ → σ → Prop}

/-- A weaker relation is guaranteed too. -/
theorem Guarantees.mono {R' : σ → σ → Prop} {x : Tx σ ε α} (hx : Guarantees R x)
    (h : ∀ s t, R s t → R' s t) : Guarantees R' x :=
  fun _ _ _ hok => h _ _ (hx hok)

/-- A transaction that only reads guarantees whatever a state has to itself. -/
theorem Guarantees.of_eq [Std.Refl R] {x : Tx σ ε α} (hx : Guarantees Eq x) : Guarantees R x :=
  hx.mono fun s _ h => h ▸ Std.Refl.refl s

theorem guarantees_pure [Std.Refl R] (a : α) : Guarantees R (pure a : Tx σ ε α) := by
  intro s b t h
  rw [(pure_eq_ok.mp h).2]
  exact Std.Refl.refl t

theorem Guarantees.bind [IsTrans σ R] {x : Tx σ ε α} {f : α → Tx σ ε β} (hx : Guarantees R x)
    (hf : ∀ a, Guarantees R (f a)) : Guarantees R (x >>= f) := by
  intro s b u h
  obtain ⟨a, t, ha, hb⟩ := bind_eq_ok.mp h
  exact IsTrans.trans s t u (hx ha) (hf a hb)

theorem guarantees_fail (e : ε) : Guarantees R (fail e : Tx σ ε α) := by
  intro s a t h
  exact (fail_eq_ok.mp h).elim

theorem guarantees_read [Std.Refl R] : Guarantees R (read : Tx σ ε σ) := by
  intro s a t h
  rw [(read_eq_ok.mp h).2]
  exact Std.Refl.refl s

theorem guarantees_require [Std.Refl R] (c : Prop) [Decidable c] (e : ε) :
    Guarantees R (require c e : Tx σ ε PUnit) := by
  intro s a t h
  rw [(require_eq_ok.mp h).2]
  exact Std.Refl.refl s

theorem guarantees_expect [Std.Refl R] (x : Option α) (e : ε) :
    Guarantees R (expect x e : Tx σ ε α) := by
  intro s a t h
  rw [(expect_eq_ok.mp h).2]
  exact Std.Refl.refl s

theorem guarantees_lift [Std.Refl R] (x : Except ε α) : Guarantees R (lift x : Tx σ ε α) := by
  intro s a t h
  rw [(lift_eq_ok.mp h).2]
  exact Std.Refl.refl s

/-- What follows a computation may use what it returned. -/
theorem guarantees_lift_bind {x : Except ε α} {f : α → Tx σ ε β}
    (h : ∀ a, x = .ok a → Guarantees R (f a)) : Guarantees R (lift x >>= f) := by
  intro s b t hok
  obtain ⟨a, hx, hf⟩ := lift_bind_eq_ok.mp hok
  exact h a hx hf

theorem guarantees_modify {f : σ → σ} (h : ∀ s, R s (f s)) :
    Guarantees R (modify f : Tx σ ε PUnit) := by
  intro s a t ht
  rw [modify_eq_ok.mp ht]
  exact h s

/-- What every success relates, and what does nothing, a committed transaction relates. -/
theorem commit_rel [Std.Refl R] {x : Tx σ ε α} {s : σ} (h : ∀ a t, x s = .ok (a, t) → R s t) :
    R s (commit x s).2 := by
  rcases commit_snd_cases x s with ⟨a, t, hx, hc⟩ | ⟨e, -, hc⟩
  · rw [hc]; exact h a t hx
  · rw [hc]; exact Std.Refl.refl s

/-- A committed transaction relates the states before and after. -/
theorem Guarantees.commit [Std.Refl R] {x : Tx σ ε α} (hx : Guarantees R x) (s : σ) :
    R s (commit x s).2 :=
  commit_rel fun _ _ h => hx h

/-- What holds before holds after. -/
def Preserves (I : σ → Prop) (s t : σ) : Prop := I s → I t

instance (I : σ → Prop) : Std.Refl (Preserves I) := ⟨fun _ => id⟩

instance (I : σ → Prop) : IsTrans σ (Preserves I) := ⟨fun _ _ _ h h' => h' ∘ h⟩

end

/-! ### Success -/

/-- The transaction does not fail. -/
def Succeeds (x : Tx σ ε α) (s : σ) : Prop := ∃ a t, x s = .ok (a, t)

section
variable {s : σ} {P Q : Prop}

@[simp] theorem succeeds_pure (a : α) : Succeeds (pure a : Tx σ ε α) s ↔ True :=
  iff_true_intro ⟨a, s, rfl⟩

@[simp] theorem succeeds_modify (f : σ → σ) : Succeeds (modify f : Tx σ ε PUnit) s ↔ True :=
  iff_true_intro ⟨⟨⟩, f s, rfl⟩

@[simp] theorem succeeds_require (c : Prop) [Decidable c] (e : ε) :
    Succeeds (require c e : Tx σ ε PUnit) s ↔ c := by
  simp [Succeeds]

@[simp] theorem succeeds_expect (x : Option α) (e : ε) :
    Succeeds (expect x e : Tx σ ε α) s ↔ ∃ a, x = some a := by
  simp [Succeeds]

@[simp] theorem succeeds_lift (x : Except ε α) :
    Succeeds (lift x : Tx σ ε α) s ↔ ∃ a, x = .ok a := by
  simp [Succeeds]

/-- **Composition**: the first part must succeed, and after it the second. -/
theorem succeeds_bind {x : Tx σ ε α} {f : α → Tx σ ε β} (hx : Succeeds x s ↔ P)
    (hf : ∀ a t, x s = .ok (a, t) → (Succeeds (f a) t ↔ Q)) : Succeeds (x >>= f) s ↔ P ∧ Q := by
  constructor
  · rintro ⟨b, u, h⟩
    obtain ⟨a, t, ha, hb⟩ := bind_eq_ok.mp h
    exact ⟨hx.mp ⟨a, t, ha⟩, (hf a t ha).mp ⟨b, u, hb⟩⟩
  · rintro ⟨hP, hQ⟩
    obtain ⟨a, t, ha⟩ := hx.mpr hP
    obtain ⟨b, u, hb⟩ := (hf a t ha).mpr hQ
    exact ⟨b, u, bind_eq_ok.mpr ⟨a, t, ha, hb⟩⟩

/-- A first part that succeeds, and what follows. -/
theorem succeeds_bind_of_ok {x : Tx σ ε α} {f : α → Tx σ ε β} {a : α} {t : σ}
    (hx : x s = .ok (a, t)) : Succeeds (x >>= f) s ↔ Succeeds (f a) t := by
  rw [Succeeds, Succeeds, bind_of_ok hx]

end

end Tx

end Transaction
