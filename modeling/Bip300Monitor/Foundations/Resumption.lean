import Bip300Monitor.Foundations.Runs

/-!
# Programs that share a state

A program (`Prog`) either returns or performs an operation and goes on with its
answer. Operations are first-order values, so that one can say which operation a
program is about to perform. Between any two operations the rest of the world may
change the state; it keeps to a relation `rely`.

A program that can fail (`Fallible`) fails at the first of its pieces that does. A
process (`Proc`) runs a loop: its body is a program that ends by going round again,
by leaving the loop or by a failure. A process can be stopped between any two
operations and is then gone; what it had not yet done is not done.

## The rules

`wp I p Q s` says of a program `p` in state `s` that, whatever the world does in
between, every operation `p` performs meets its precondition, and when `p`
returns `a` the state meets `Q a`. `wp_bind` composes, `wp_mono` weakens, and
`wp_rely` says that `wp` survives what the world does. `wpe` is `wp` for programs that
can fail, `Leads` is its triple for one operation, and `wp_of_all` its rule for a program of operations that
keep an invariant. `lastOp`
is the interface for what an operation has to do with the one before it.
`Proc.Good` is `wpe` for a process with a loop invariant; `good_advance` and
`good_rely` are its rules: it survives the process's own steps and the world's.

`Alone f p s q t` says the opposite of `wp`: left alone, with every operation answered by
`f`, the program `p` does get from `s` to `q` in `t`. `Returns A p a` says that `p` can return `a`
when each operation is answered as `A` allows; `Results` is the same for programs that can fail.
-/

namespace Resumption

universe u v w x

/-- A program with operations `E`, answered in `R`, returning `α`. -/
inductive Prog (E : Type u) (R : E → Type v) (α : Type w) : Type (max u v w) where
  /-- Return. -/
  | ret (a : α)
  /-- Perform an operation and go on with its answer. -/
  | op (e : E) (k : R e → Prog E R α)

namespace Prog

variable {E : Type u} {R : E → Type v} {α : Type w} {β : Type x}

/-- Run `p`, then go on with what it returned. -/
def bind (p : Prog E R α) (f : α → Prog E R β) : Prog E R β :=
  match p with
  | .ret a => f a
  | .op e k => .op e fun r => (k r).bind f

/-- Perform one operation and return its answer. -/
def perform (e : E) : Prog E R (R e) := .op e .ret

/-- The operation a program is about to perform. -/
def next? : Prog E R α → Option E
  | .ret _ => none
  | .op e _ => some e

end Prog

instance {E : Type u} {R : E → Type v} : Monad (Prog E R) where
  pure := .ret
  bind := Prog.bind

section
variable {E : Type u} {R : E → Type v} {α β : Type w}

@[simp] theorem Prog.bind_eq (p : Prog E R α) (f : α → Prog E R β) : p >>= f = p.bind f := rfl

@[simp] theorem Prog.pure_eq (a : α) : (pure a : Prog E R α) = .ret a := rfl

end

/-! ### Reasoning under interference -/

/-- What a program may assume of the world, and what each operation means. -/
structure Interface (σ : Type u) (E : Type v) (R : E → Type w) where
  /-- What the world does between two operations. -/
  rely : σ → σ → Prop
  /-- What must hold when an operation is performed. -/
  pre : E → σ → Prop
  /-- The answers and final states of an operation. -/
  sem : (e : E) → σ → R e → σ → Prop
  rely_refl : ∀ s, rely s s
  rely_trans : ∀ s t u, rely s t → rely t u → rely s u

variable {σ : Type u} {E : Type v} {R : E → Type w} (I : Interface σ E R)

/-- A postcondition the world does not disturb. -/
def Stable (P : σ → Prop) : Prop := ∀ s t, P s → I.rely s t → P t

/-- From `s`, whatever the world does in between, every operation of the program meets
its precondition and what it returns meets `Q`. -/
def wp {α : Type x} : Prog E R α → (α → σ → Prop) → σ → Prop
  | .ret a, Q, s => Q a s
  | .op e k, Q, s => ∀ t, I.rely s t → I.pre e t ∧ ∀ r u, I.sem e t r u → wp (k r) Q u

section
variable {α : Type x} {β : Type x} {Q : α → σ → Prop} {s : σ}

@[simp] theorem wp_ret (a : α) : wp I (.ret a) Q s ↔ Q a s := Iff.rfl

theorem wp_op (e : E) (k : R e → Prog E R α) :
    wp I (.op e k) Q s ↔
      ∀ t, I.rely s t → I.pre e t ∧ ∀ r u, I.sem e t r u → wp I (k r) Q u := Iff.rfl

/-- **Composition**: the first program must establish what the second needs. -/
theorem wp_bind (p : Prog E R α) (f : α → Prog E R β) {Q : β → σ → Prop} {s : σ} :
    wp I (p.bind f) Q s ↔ wp I p (fun a t => wp I (f a) Q t) s := by
  induction p generalizing s with
  | ret a => rfl
  | op e k ih =>
    simp only [Prog.bind, wp_op, ih]

theorem wp_mono {p : Prog E R α} {Q Q' : α → σ → Prop} (h : ∀ a t, Q a t → Q' a t) {s : σ}
    (hp : wp I p Q s) : wp I p Q' s := by
  induction p generalizing s with
  | ret a => exact h a s hp
  | op e k ih =>
    intro t ht
    obtain ⟨hpre, hk⟩ := hp t ht
    exact ⟨hpre, fun r u hu => ih r (hk r u hu)⟩

/-- What has been established survives what the world does. -/
theorem wp_rely {p : Prog E R α} {Q : α → σ → Prop} (hQ : ∀ a, Stable I (Q a)) {s t : σ}
    (hp : wp I p Q s) (hst : I.rely s t) : wp I p Q t := by
  cases p with
  | ret a => exact hQ a s t hp hst
  | op e k => exact fun u hu => hp u (I.rely_trans s t u hst hu)

end

/-! ### Programs that can fail -/

/-- A program that returns `α` or fails with `ε`. -/
abbrev Fallible (E : Type) (R : E → Type) (ε α : Type) := ExceptT ε (Prog E R) α

section
variable {E : Type} {R : E → Type} {ε α β : Type}

/-- Perform an operation and return its answer. -/
def call (e : E) : Fallible E R ε (R e) := ExceptT.lift (.perform e)

/-- Go on with the value of a computation, or fail with its error. -/
def attempt (x : Except ε α) : Fallible E R ε α := ExceptT.mk (.ret x)

variable {σ : Type u} (I : Interface σ E R)

/-- `wp` for a program that can fail: `Q` is asked of what it returns, nothing of a
failure. -/
def wpe (p : Fallible E R ε α) (Q : α → σ → Prop) (s : σ) : Prop :=
  wp I p.run (fun r t => ∀ a, r = .ok a → Q a t) s

variable {Q : α → σ → Prop} {s : σ}

@[simp] theorem wpe_pure (a : α) : wpe I (pure a : Fallible E R ε α) Q s ↔ Q a s := by
  change (∀ b, Except.ok a = Except.ok b → Q b s) ↔ Q a s
  simp

@[simp] theorem wpe_attempt (x : Except ε α) :
    wpe I (attempt x : Fallible E R ε α) Q s ↔ ∀ a, x = .ok a → Q a s := Iff.rfl

@[simp] theorem wpe_throw (e : ε) : wpe I (throw e : Fallible E R ε α) Q s ↔ True := by
  change (∀ b, Except.error e = Except.ok b → Q b s) ↔ True
  simp

/-- **Composition**: a failure of the first program is a failure of the whole. -/
theorem wpe_bind (p : Fallible E R ε α) (f : α → Fallible E R ε β) {Q : β → σ → Prop} :
    wpe I (p >>= f) Q s ↔ wpe I p (fun a t => wpe I (f a) Q t) s := by
  change wp I (p.run.bind (ExceptT.bindCont f)) _ s ↔ _
  rw [wp_bind]
  refine ⟨wp_mono I fun r t h a ha => ?_, wp_mono I fun r t h => ?_⟩
  · subst ha
    exact h
  · cases r with
    | ok a => exact h a rfl
    | error e => exact fun b hb => by cases hb

/-- `wp` of a program that can fail, of which its failures are asked as well. -/
theorem wp_run_bind (p : Fallible E R ε α) (f : α → Fallible E R ε β)
    {Q : Except ε β → σ → Prop} : wp I (p >>= f).run Q s ↔
      wp I p.run (fun r t => match r with
        | .ok a => wp I (f a).run Q t
        | .error e => Q (.error e) t) s := by
  change wp I (p.run.bind (ExceptT.bindCont f)) Q s ↔ _
  rw [wp_bind]
  refine ⟨wp_mono I fun r t h => ?_, wp_mono I fun r t h => ?_⟩
  · cases r with
    | ok a => exact h
    | error e => exact h
  · cases r with
    | ok a => exact h
    | error e => exact h

theorem wp_run_attempt (x : Except ε α) {Q : Except ε α → σ → Prop} :
    wp I (attempt x : Fallible E R ε α).run Q s ↔ Q x s := Iff.rfl

theorem wp_run_call (e : E) {Q : Except ε (R e) → σ → Prop} :
    wp I (call e : Fallible E R ε (R e)).run Q s ↔
      ∀ t, I.rely s t → I.pre e t ∧ ∀ r u, I.sem e t r u → Q (.ok r) u := Iff.rfl

theorem wpe_call (e : E) {Q : R e → σ → Prop} :
    wpe I (call e : Fallible E R ε (R e)) Q s ↔
      ∀ t, I.rely s t → I.pre e t ∧ ∀ r u, I.sem e t r u → Q r u := by
  change (∀ t, I.rely s t → I.pre e t ∧ ∀ r u, I.sem e t r u →
    ∀ a, Except.ok r = Except.ok a → Q a u) ↔ _
  simp

/-- Performed where `p` holds, the operation meets its precondition and leads to `q`. -/
def Leads (p : σ → Prop) (e : E) (q : R e → σ → Prop) : Prop :=
  ∀ s, p s → I.pre e s ∧ ∀ r t, I.sem e s r t → q r t

theorem Leads.mono {p p' : σ → Prop} {e : E} {q q' : R e → σ → Prop} (h : Leads I p e q)
    (hp : ∀ s, p' s → p s) (hq : ∀ r t, q r t → q' r t) : Leads I p' e q' := by
  intro s hs
  obtain ⟨hpre, hsem⟩ := h s (hp s hs)
  exact ⟨hpre, fun r t ht => hq r t (hsem r t ht)⟩

/-- An operation may be performed where a stable assertion held before. -/
theorem wpe_call_of_leads {p : σ → Prop} {e : E} {q : R e → σ → Prop} (hp : Stable I p)
    (h : Leads I p e q) (hs : p s) : wpe I (call e : Fallible E R ε (R e)) q s :=
  (wpe_call I e).mpr fun t hst => h t (hp s t hs hst)

/-- A program none of whose operations has a precondition is safe. -/
theorem wp_true {α : Type x} (hpre : ∀ e s, I.pre e s) (p : Prog E R α) (s : σ) :
    wp I p (fun _ _ => True) s := by
  induction p generalizing s with
  | ret a => trivial
  | op e k ih => exact fun t _ => ⟨hpre e t, fun r u _ => ih r u⟩

theorem wpe_true (hpre : ∀ e s, I.pre e s) (p : Fallible E R ε α) (s : σ) :
    wpe I p (fun _ _ => True) s :=
  wp_mono I (fun _ _ _ _ _ => trivial) (wp_true I hpre p.run s)

theorem wpe_mono {p : Fallible E R ε α} {Q Q' : α → σ → Prop} (h : ∀ a t, Q a t → Q' a t)
    (hp : wpe I p Q s) : wpe I p Q' s :=
  wp_mono I (fun _ t hq a ha => h a t (hq a ha)) hp

/-- The outcome of a program as a value: what follows is told of a failure. -/
def outcome (p : Fallible E R ε α) : Fallible E R ε (Except ε α) :=
  ExceptT.mk (p.run.bind fun r => .ret (.ok r))

theorem wpe_outcome (p : Fallible E R ε α) {Q : Except ε α → σ → Prop} :
    wpe I (outcome p) Q s ↔ wp I p.run Q s := by
  have hrun : (outcome p).run = p.run.bind fun r => .ret (Except.ok r) := rfl
  rw [wpe, hrun, wp_bind]
  simp

/-! ### Programs of some operations -/

/-- All operations of the program meet `ok`. -/
def Prog.All {α : Type x} (ok : E → Prop) : Prog E R α → Prop
  | .ret _ => True
  | .op e k => ok e ∧ ∀ r, (k r).All ok

variable {ok : E → Prop}

theorem Prog.All.bind {α : Type x} {β : Type x} {p : Prog E R α} {f : α → Prog E R β}
    (hp : p.All ok) (hf : ∀ a, (f a).All ok) : (p.bind f).All ok := by
  induction p with
  | ret a => exact hf a
  | op e k ih => exact ⟨hp.1, fun r => ih r (hp.2 r)⟩

/-- All operations of a program that can fail meet `ok`. -/
def Performs (ok : E → Prop) (p : Fallible E R ε α) : Prop := p.run.All ok

theorem performs_pure (a : α) : Performs ok (pure a : Fallible E R ε α) := trivial

theorem performs_attempt (x : Except ε α) : Performs ok (attempt x : Fallible E R ε α) := trivial

theorem performs_call {e : E} (he : ok e) : Performs ok (call e : Fallible E R ε (R e)) :=
  ⟨he, fun _ => trivial⟩

theorem performs_bind {p : Fallible E R ε α} {f : α → Fallible E R ε β} (hp : Performs ok p)
    (hf : ∀ a, Performs ok (f a)) : Performs ok (p >>= f) := by
  refine Prog.All.bind hp (f := ExceptT.bindCont f) fun r => ?_
  cases r with
  | ok a => exact hf a
  | error e => trivial

/-- **An invariant of the operations** holds at the end of the program, whether it returns or
fails. -/
theorem wp_of_all {α : Type x} {J : σ → Prop} (hJ : Stable I J)
    (hok : ∀ e, ok e → ∀ s, J s → I.pre e s ∧ ∀ r t, I.sem e s r t → J t) {p : Prog E R α}
    (hp : p.All ok) (hs : J s) : wp I p (fun _ t => J t) s := by
  induction p generalizing s with
  | ret a => exact hs
  | op e k ih =>
    intro t ht
    obtain ⟨hpre, hsem⟩ := hok e hp.1 t (hJ s t hs ht)
    exact ⟨hpre, fun r u hu => ih r (hp.2 r) (hsem r u hu)⟩

/-! ### The operation before -/

/-- The state is the operation performed last, with its answer: what holds of any two operations in
sequence. The world has no part in it. -/
def lastOp (link : Option (Sigma R) → E → Prop) : Interface (Option (Sigma R)) E R where
  rely s t := t = s
  pre e s := link s e
  sem e _ r t := t = some ⟨e, r⟩
  rely_refl _ := rfl
  rely_trans _ _ _ h h' := h'.trans h

/-! ### Programs that go on in the same way -/

/-- No answer is excluded, and nothing is asked. -/
def anything : Interface Unit E R where
  rely _ _ := True
  pre _ _ := True
  sem _ _ _ _ := True
  rely_refl _ := trivial
  rely_trans _ _ _ _ _ := trivial

/-- What follows a program matters only for the values it can return. -/
theorem bind_congr_of_wp {p : Prog E R α} {f g : α → Prog E R β}
    (h : wp anything p (fun a _ => f a = g a) ()) : p.bind f = p.bind g := by
  induction p with
  | ret a => exact h
  | op e k ih =>
    simp only [Prog.bind, Prog.op.injEq, heq_eq_eq, true_and]
    funext r
    exact ih r ((h () trivial).2 r () trivial)

theorem bind_congr_of_wpe {p : Fallible E R ε α} {f g : α → Fallible E R ε β}
    (h : wpe anything p (fun a _ => f a = g a) ()) : p >>= f = p >>= g := by
  refine bind_congr_of_wp (f := ExceptT.bindCont f) (g := ExceptT.bindCont g)
    (wp_mono _ (fun r _ hr => ?_) h)
  cases r with
  | ok a => exact hr a rfl
  | error e => rfl

/-! ### Processes -/

variable {lam out : Type}

/-- A process in a loop whose iterations start from `lam` and which leaves with `out`:
what is left of its current iteration, which ends by going round again (`inl`), by
leaving (`inr`), or by a failure. -/
abbrev Proc (E : Type) (R : E → Type) (ε lam out : Type) := Prog E R (Except ε (lam ⊕ out))

/-- The process is safe, and each iteration it begins finds the loop invariant. -/
def Proc.Good (Inv : lam → σ → Prop) (p : Proc E R ε lam out) (s : σ) : Prop :=
  wpe I p (fun r t => ∀ l, r = .inl l → Inv l t) s

variable {I} {Inv : lam → σ → Prop} {t : σ}

/-- A good process stays good whatever the world does. -/
theorem good_rely (hInv : ∀ l, Stable I (Inv l)) {p : Proc E R ε lam out}
    (hp : p.Good I Inv s) (hst : I.rely s t) : p.Good I Inv t := by
  have hstable : ∀ r : Except ε (lam ⊕ out),
      Stable I fun t => ∀ a, r = .ok a → ∀ l, a = .inl l → Inv l t := by
    intro r u v h huv a ha l hl
    exact hInv l u v (h a ha l hl) huv
  exact wp_rely I hstable hp hst

/-- A good process meets the precondition of the operation it performs. -/
theorem good_pre {e : E} {k : R e → Proc E R ε lam out} (hp : Proc.Good I Inv (.op e k) s) :
    I.pre e s :=
  (hp s (I.rely_refl s)).1

/-- A good process stays good. -/
theorem good_advance {e : E} {k : R e → Proc E R ε lam out} {r : R e}
    (hp : Proc.Good I Inv (.op e k) s) (h : I.sem e s r t) : (k r).Good I Inv t :=
  (hp s (I.rely_refl s)).2 r t h

end

/-! ### Running alone -/

section
variable {E : Type} {R : E → Type} {ε α β : Type} {σ : Type u}

/-- Performing operations with nothing in between takes `p` in the first state to `q` in the
second. -/
inductive Alone (f : σ → (e : E) → R e × σ) : Prog E R α → σ → Prog E R α → σ → Prop
  | refl (p : Prog E R α) (s : σ) : Alone f p s p s
  | op {e : E} {k : R e → Prog E R α} {s t : σ} {q : Prog E R α}
      (h : Alone f (k (f s e).1) (f s e).2 q t) : Alone f (.op e k) s q t

variable {f : σ → (e : E) → R e × σ} {s t u : σ}

theorem Alone.trans {p q r : Prog E R α} (hpq : Alone f p s q t) (hqr : Alone f q t r u) :
    Alone f p s r u := by
  induction hpq with
  | refl p s => exact hqr
  | op h ih => exact .op (ih hqr)

theorem Alone.bind {p q : Prog E R α} (g : α → Prog E R β) (h : Alone f p s q t) :
    Alone f (p.bind g) s (q.bind g) t := by
  induction h with
  | refl p s => exact .refl _ _
  | op h ih => exact .op ih

/-- The program, left alone, returns `a`. -/
def Yields (f : σ → (e : E) → R e × σ) (p : Fallible E R ε α) (s : σ) (a : α) (t : σ) : Prop :=
  Alone f p.run s (.ret (.ok a)) t

theorem yields_pure (a : α) (s : σ) : Yields f (pure a : Fallible E R ε α) s a s := .refl _ _

theorem yields_attempt {x : Except ε α} {a : α} (h : x = .ok a) (s : σ) :
    Yields f (attempt x : Fallible E R ε α) s a s := h ▸ .refl _ _

theorem yields_call (e : E) (s : σ) :
    Yields f (call e : Fallible E R ε (R e)) s (f s e).1 (f s e).2 := .op (.refl _ _)

/-- What follows a piece that returns runs on from there. -/
theorem Yields.then {p : Fallible E R ε α} {g : α → Fallible E R ε β} {a : α}
    {q : Prog E R (Except ε β)} (hp : Yields f p s a t) (hq : Alone f (g a).run t q u) :
    Alone f (p >>= g).run s q u :=
  (Alone.bind (ExceptT.bindCont g) hp).trans hq

theorem Yields.bind {p : Fallible E R ε α} {g : α → Fallible E R ε β} {a : α} {b : β}
    (hp : Yields f p s a t) (hg : Yields f (g a) t b u) : Yields f (p >>= g) s b u :=
  hp.then hg

end

/-! ### What can be returned -/

section
variable {E : Type u} {R : E → Type v} {α : Type w} {β : Type x}

/-- The program can return `a` when its operations are answered as `A` allows. -/
inductive Returns (A : (e : E) → R e → Prop) : Prog E R α → α → Prop
  | ret (a : α) : Returns A (.ret a) a
  | op {e : E} {k : R e → Prog E R α} {a : α} (r : R e) (hr : A e r) (h : Returns A (k r) a) :
      Returns A (.op e k) a

variable {A : (e : E) → R e → Prop}

theorem returns_ret {a b : α} : Returns A (.ret a : Prog E R α) b ↔ a = b := by
  constructor
  · rintro ⟨⟩
    rfl
  · rintro rfl
    exact .ret a

theorem returns_op {e : E} {k : R e → Prog E R α} {a : α} :
    Returns A (.op e k) a ↔ ∃ r, A e r ∧ Returns A (k r) a := by
  constructor
  · rintro ⟨⟩
    exact ⟨_, ‹_›, ‹_›⟩
  · rintro ⟨r, hr, h⟩
    exact .op r hr h

theorem returns_bind (p : Prog E R α) (f : α → Prog E R β) {b : β} :
    Returns A (p.bind f) b ↔ ∃ a, Returns A p a ∧ Returns A (f a) b := by
  induction p with
  | ret a => simp [Prog.bind, returns_ret]
  | op e k ih =>
    simp only [Prog.bind, returns_op, ih]
    constructor
    · rintro ⟨r, hr, a, ha, hb⟩
      exact ⟨a, ⟨r, hr, ha⟩, hb⟩
    · rintro ⟨a, ⟨r, hr, ha⟩, hb⟩
      exact ⟨r, hr, a, ha, hb⟩

/-- The program's value when every operation has one answer. -/
def Prog.answered (f : (e : E) → R e) : Prog E R α → α
  | .ret a => a
  | .op e k => (k (f e)).answered f

theorem returns_answered {f : (e : E) → R e} (hf : ∀ e, A e (f e)) (p : Prog E R α) :
    Returns A p (p.answered f) := by
  induction p with
  | ret a => exact .ret a
  | op e k ih => exact .op (f e) (hf e) (ih (f e))

end

section
variable {E : Type} {R : E → Type} {ε α β : Type}

/-- A program that can fail can return `a`. -/
def Results (A : (e : E) → R e → Prop) (p : Fallible E R ε α) (a : α) : Prop :=
  Returns A p.run (.ok a)

variable {A : (e : E) → R e → Prop}

@[simp] theorem results_pure {a b : α} : Results A (pure a : Fallible E R ε α) b ↔ a = b := by
  change Returns A (.ret (Except.ok a) : Prog E R (Except ε α)) (Except.ok b) ↔ a = b
  simp [returns_ret]

@[simp] theorem results_attempt {x : Except ε α} {a : α} :
    Results A (attempt x : Fallible E R ε α) a ↔ x = .ok a := returns_ret

@[simp] theorem results_call {e : E} {r : R e} :
    Results A (call e : Fallible E R ε (R e)) r ↔ A e r := by
  change Returns A (.op e fun r => .ret (Except.ok r) : Prog E R (Except ε (R e))) (Except.ok r) ↔
    A e r
  simp [returns_op, returns_ret]

theorem results_bind (p : Fallible E R ε α) (f : α → Fallible E R ε β) {b : β} :
    Results A (p >>= f) b ↔ ∃ a, Results A p a ∧ Results A (f a) b := by
  change Returns A (p.run.bind (ExceptT.bindCont f)) (.ok b) ↔ _
  rw [returns_bind]
  constructor
  · rintro ⟨r, hr, hb⟩
    cases r with
    | ok a => exact ⟨a, hr, hb⟩
    | error e =>
      cases returns_ret.mp hb
  · rintro ⟨a, ha, hb⟩
    exact ⟨.ok a, ha, hb⟩

theorem results_answered {f : (e : E) → R e} {p : Fallible E R ε α} {a : α} (hf : ∀ e, A e (f e))
    (h : p.run.answered f = .ok a) : Results A p a := by
  have hr := returns_answered hf p.run
  rwa [h] at hr

end

end Resumption
