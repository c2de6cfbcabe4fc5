import Bip300Monitor.Foundations.Resumption

/-!
# What a program has performed

`Performed p cs a` says that `p`, when its operations are answered so, performs exactly the operations
`cs`, in this order, and returns `a`. The answers are anything.

## What is proved

* `performed_bind`, `performed_run_bind` — one program after another: the operations of the first come
  first, and a failure of the first leaves none of the second.
-/

namespace Resumption

universe u v w x

section
variable {E : Type u} {R : E → Type v} {α : Type w} {β : Type x}

inductive Performed : Prog E R α → List (Sigma R) → α → Prop
  | ret (a : α) : Performed (.ret a) [] a
  | op {e : E} {k : R e → Prog E R α} {cs : List (Sigma R)} {a : α} (r : R e)
      (h : Performed (k r) cs a) : Performed (.op e k) (⟨e, r⟩ :: cs) a

variable {cs : List (Sigma R)}

theorem performed_ret {a b : α} : Performed (.ret a : Prog E R α) cs b ↔ cs = [] ∧ b = a := by
  constructor
  · rintro ⟨⟩
    exact ⟨rfl, rfl⟩
  · rintro ⟨rfl, rfl⟩
    exact .ret b

theorem performed_op {e : E} {k : R e → Prog E R α} {a : α} :
    Performed (.op e k) cs a ↔ ∃ r rest, cs = ⟨e, r⟩ :: rest ∧ Performed (k r) rest a := by
  constructor
  · rintro ⟨⟩
    exact ⟨_, _, rfl, ‹_›⟩
  · rintro ⟨r, rest, rfl, h⟩
    exact .op r h

theorem performed_bind (p : Prog E R α) (f : α → Prog E R β) {b : β} :
    Performed (p.bind f) cs b ↔
      ∃ first rest a, cs = first ++ rest ∧ Performed p first a ∧ Performed (f a) rest b := by
  induction p generalizing cs with
  | ret a =>
    constructor
    · exact fun h => ⟨[], cs, a, rfl, .ret a, h⟩
    · rintro ⟨_, _, _, rfl, ha, h⟩
      obtain ⟨rfl, rfl⟩ := performed_ret.mp ha
      exact h
  | op e k ih =>
    simp only [Prog.bind, performed_op, ih]
    constructor
    · rintro ⟨r, _, rfl, first, rest, a, rfl, ha, hb⟩
      exact ⟨⟨e, r⟩ :: first, rest, a, rfl, ⟨r, first, rfl, ha⟩, hb⟩
    · rintro ⟨_, rest, a, rfl, ⟨r, first, rfl, ha⟩, hb⟩
      exact ⟨r, first ++ rest, rfl, first, rest, a, rfl, ha, hb⟩

/-- The program's value when its operations are answered in turn, the first of them as the `n`-th. -/
def Prog.answeredInTurn (f : ℕ → (e : E) → R e) : Prog E R α → ℕ → α
  | .ret a, _ => a
  | .op e k, n => (k (f n e)).answeredInTurn f (n + 1)

/-- When the answers are given, the program performs what they lead it to. -/
theorem performed_answeredInTurn (f : ℕ → (e : E) → R e) (p : Prog E R α) (n : ℕ) :
    ∃ cs, Performed p cs (p.answeredInTurn f n) := by
  induction p generalizing n with
  | ret a => exact ⟨[], .ret a⟩
  | op e k ih =>
    obtain ⟨cs, h⟩ := ih (f n e) (n + 1)
    exact ⟨_, .op (f n e) h⟩

end

section
variable {E : Type} {R : E → Type} {ε α β : Type} {cs : List (Sigma R)}

theorem performed_run_pure {a : α} {r : Except ε α} :
    Performed (pure a : Fallible E R ε α).run cs r ↔ cs = [] ∧ r = .ok a := performed_ret

theorem performed_run_attempt {x r : Except ε α} :
    Performed (attempt x : Fallible E R ε α).run cs r ↔ cs = [] ∧ r = x := performed_ret

theorem performed_run_call {e : E} {r : Except ε (R e)} :
    Performed (call e : Fallible E R ε (R e)).run cs r ↔
      ∃ answer, cs = [⟨e, answer⟩] ∧ r = .ok answer := by
  change Performed (.op e fun r => .ret (Except.ok r) : Prog E R (Except ε (R e))) cs r ↔ _
  simp only [performed_op, performed_ret]
  constructor
  · rintro ⟨answer, _, rfl, rfl, rfl⟩
    exact ⟨answer, rfl, rfl⟩
  · rintro ⟨answer, rfl, rfl⟩
    exact ⟨answer, [], rfl, rfl, rfl⟩

/-- **Composition** of programs that can fail. -/
theorem performed_run_bind (p : Fallible E R ε α) (f : α → Fallible E R ε β) {r : Except ε β} :
    Performed (p >>= f).run cs r ↔
      (∃ e, Performed p.run cs (.error e) ∧ r = .error e) ∨
        ∃ first rest a, cs = first ++ rest ∧ Performed p.run first (.ok a) ∧
          Performed (f a).run rest r := by
  change Performed (p.run.bind (ExceptT.bindCont f)) cs r ↔ _
  rw [performed_bind]
  constructor
  · rintro ⟨first, rest, x, rfl, hx, hr⟩
    cases x with
    | ok a => exact .inr ⟨first, rest, a, rfl, hx, hr⟩
    | error e =>
      obtain ⟨rfl, rfl⟩ := performed_ret.mp hr
      exact .inl ⟨e, by rwa [List.append_nil], rfl⟩
  · rintro (⟨e, he, rfl⟩ | ⟨first, rest, a, rfl, ha, hr⟩)
    · exact ⟨cs, [], .error e, (List.append_nil _).symm, he, performed_ret.mpr ⟨rfl, rfl⟩⟩
    · exact ⟨first, rest, .ok a, rfl, ha, hr⟩

end

end Resumption
