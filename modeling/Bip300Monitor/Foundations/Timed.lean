import Bip300Monitor.Foundations.Resumption

/-!
# Programs with a clock

`wpe` asks nothing of a program that fails, and does not say how long a program takes. With a clock in
the state, which every operation moves by one and which has to stay below a bound, both can be said.

## The rules

`Total I bound p Q s n` says of a program `p` in state `s`, with `n` operations before it, that whatever
the world does in between, `p` does not fail, begins each of its operations before the bound, and ends
with `Q` of what it returns, the state and the clock. `total_bind` composes and `total_mono` weakens.
`Proc.Within` is `Total` for a process in a loop: `within_rely` says that it survives what the world does,
and `within_advance` and `within_ret` are the rules for its own steps.
-/

namespace Resumption

universe u v w x

variable {σ : Type u} {E : Type} {R : E → Type} {ε α β : Type}

/-- The interface with a clock: an operation takes one unit, and begins before the bound. -/
def Interface.timed (I : Interface σ E R) (bound : ℕ) : Interface (σ × ℕ) E R where
  rely s t := I.rely s.1 t.1 ∧ t.2 = s.2
  pre e s := I.pre e s.1 ∧ s.2 < bound
  sem e s r t := I.sem e s.1 r t.1 ∧ t.2 = s.2 + 1
  rely_refl s := ⟨I.rely_refl s.1, rfl⟩
  rely_trans _ _ _ h h' := ⟨I.rely_trans _ _ _ h.1 h'.1, h'.2.trans h.2⟩

/-- **Total correctness**: the program returns, in time, and what it returns meets `Q`. -/
def Total (I : Interface σ E R) (bound : ℕ) (p : Fallible E R ε α) (Q : α → σ → ℕ → Prop) (s : σ)
    (n : ℕ) : Prop :=
  wp (I.timed bound) p.run (fun r t => ∃ a, r = .ok a ∧ Q a t.1 t.2) (s, n)

variable {I : Interface σ E R} {bound : ℕ} {Q : α → σ → ℕ → Prop} {s t : σ} {n : ℕ}

@[simp] theorem total_pure (a : α) :
    Total I bound (pure a : Fallible E R ε α) Q s n ↔ Q a s n := by
  change (∃ b, Except.ok a = Except.ok b ∧ Q b s n) ↔ Q a s n
  simp

@[simp] theorem total_attempt (x : Except ε α) :
    Total I bound (attempt x : Fallible E R ε α) Q s n ↔ ∃ a, x = .ok a ∧ Q a s n := Iff.rfl

/-- **Composition**: the first program must establish what the second needs, and leave it time. -/
theorem total_bind (p : Fallible E R ε α) (f : α → Fallible E R ε β) {Q : β → σ → ℕ → Prop} :
    Total I bound (p >>= f) Q s n ↔ Total I bound p (fun a t m => Total I bound (f a) Q t m) s n := by
  rw [Total, wp_run_bind]
  refine ⟨wp_mono _ fun r t h => ?_, wp_mono _ fun r t h => ?_⟩
  · cases r with
    | ok a => exact ⟨a, rfl, h⟩
    | error e =>
      obtain ⟨b, hb, -⟩ := h
      cases hb
  · obtain ⟨a, rfl, h⟩ := h
    exact h

theorem total_call (e : E) {Q : R e → σ → ℕ → Prop} :
    Total I bound (call e : Fallible E R ε (R e)) Q s n ↔
      ∀ t, I.rely s t → (I.pre e t ∧ n < bound) ∧ ∀ r u, I.sem e t r u → Q r u (n + 1) := by
  rw [Total, wp_run_call]
  constructor
  · intro h t hst
    obtain ⟨hpre, hsem⟩ := h (t, n) ⟨hst, rfl⟩
    refine ⟨hpre, fun r u hu => ?_⟩
    obtain ⟨a, ha, hQ⟩ := hsem r (u, n + 1) ⟨hu, rfl⟩
    cases ha
    exact hQ
  · rintro h ⟨t, m⟩ ⟨hst, rfl⟩
    obtain ⟨hpre, hsem⟩ := h t hst
    refine ⟨hpre, ?_⟩
    rintro r ⟨u, m⟩ ⟨hu, rfl⟩
    exact ⟨r, rfl, hsem r u hu⟩

theorem total_mono {p : Fallible E R ε α} {Q' : α → σ → ℕ → Prop} (h : ∀ a t m, Q a t m → Q' a t m)
    (hp : Total I bound p Q s n) : Total I bound p Q' s n := by
  refine wp_mono _ (fun _ t hr => ?_) hp
  obtain ⟨a, ha, hQ⟩ := hr
  exact ⟨a, ha, h a t.1 t.2 hQ⟩

/-! ### Processes -/

variable {lam out : Type}

/-- The process ends its iteration in time, with `Inv` when it goes round again and with `Out` when it
leaves. -/
def Proc.Within (I : Interface σ E R) (bound : ℕ) (Inv : lam → σ → ℕ → Prop)
    (Out : out → σ → ℕ → Prop) (p : Proc E R ε lam out) (s : σ) (n : ℕ) : Prop :=
  Total I bound p (fun r t m => Sum.elim (fun l => Inv l t m) (fun o => Out o t m) r) s n

variable {Inv : lam → σ → ℕ → Prop} {Out : out → σ → ℕ → Prop} {p : Proc E R ε lam out}

/-- It does so whatever the world does. -/
theorem within_rely (hInv : ∀ l m, Stable I fun s => Inv l s m) (hOut : ∀ o m, Stable I fun s => Out o s m)
    (hp : p.Within I bound Inv Out s n) (hst : I.rely s t) : p.Within I bound Inv Out t n := by
  refine wp_rely (I.timed bound) (t := (t, n)) (fun r => ?_) hp ⟨hst, rfl⟩
  rintro ⟨s, m⟩ ⟨t, m'⟩ ⟨a, ha, hQ⟩ ⟨hst, rfl⟩
  refine ⟨a, ha, ?_⟩
  cases a with
  | inl l => exact hInv l m' s t hQ hst
  | inr o => exact hOut o m' s t hQ hst

/-- The operation that it is about to perform may be performed, and begins in time. -/
theorem within_pre {e : E} {k : R e → Proc E R ε lam out}
    (hp : Proc.Within I bound Inv Out (.op e k) s n) : I.pre e s ∧ n < bound :=
  (hp (s, n) ⟨I.rely_refl s, rfl⟩).1

/-- After it the rest does. -/
theorem within_advance {e : E} {k : R e → Proc E R ε lam out} {r : R e}
    (hp : Proc.Within I bound Inv Out (.op e k) s n) (h : I.sem e s r t) :
    (k r).Within I bound Inv Out t (n + 1) :=
  (hp (s, n) ⟨I.rely_refl s, rfl⟩).2 r (t, n + 1) ⟨h, rfl⟩

/-- An iteration that has ended has not failed. -/
theorem within_ret {r : Except ε (lam ⊕ out)} (hp : Proc.Within I bound Inv Out (.ret r) s n) :
    (∃ l, r = .ok (.inl l) ∧ Inv l s n) ∨ ∃ o, r = .ok (.inr o) ∧ Out o s n := by
  obtain ⟨a, rfl, ha⟩ := hp
  cases a with
  | inl l => exact .inl ⟨l, rfl, ha⟩
  | inr o => exact .inr ⟨o, rfl, ha⟩

end Resumption
