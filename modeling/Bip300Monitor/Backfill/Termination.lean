import Bip300Monitor.Backfill.Rounds
import Mathlib.Data.Prod.Lex
import Mathlib.Order.WellFounded

/-!
# Termination of `run_history`

A call that is answered again and again, and never returns, goes round its loop without end. With
the target fixed, each round that goes on either has a cycle begun to repair the branch, which
happens once, or halves the page, or moves the cursor down: the three decrease lexicographically.

## What is proved

* `Locals.Goes.decreases` — a round towards the same target decreases the measure;
* `run_history_terminates` — a call that does not return has its target replaced infinitely often.
-/

namespace Bip300Monitor.Backfill

open Runs Resumption

variable {P : Type}

/-! ### The measure -/

/-- Whether the branch may yet be repaired, the size of a page, the height of the cursor. -/
def Locals.measure (l : Locals) : ℕ ×ₗ ℕ ×ₗ ℕ :=
  toLex (if l.restartedFromActivation then 0 else 1, toLex (l.progress.effectivePageBlocks,
    l.progress.next.elim 0 (·.height)))

/-- **A round that goes on towards the same target.** -/
theorem Locals.Goes.decreases {l l' : Locals} (h : l.Goes l') (htarget : l'.target.hash = l.target.hash) :
    l'.measure < l.measure := by
  cases h with
  | shrinks hpage _ hnext _ hrepair =>
    simp only [Locals.measure, hrepair, hnext, Prod.Lex.toLex_lt_toLex]
    exact .inr ⟨trivial, .inl hpage⟩
  | replaces hne => exact absurd htarget hne
  | repairs _ _ _ hfirst hrepair =>
    simp only [Locals.measure, hfirst, hrepair, Prod.Lex.toLex_lt_toLex]
    exact .inl Nat.zero_lt_one
  | descends hcursor hnext hlt _ _ hpage hrepair =>
    simp only [Locals.measure, hcursor, hnext, hpage, hrepair, Prod.Lex.toLex_lt_toLex]
    exact .inr ⟨trivial, .inr ⟨trivial, hlt⟩⟩

/-! ### Endless calls -/

/-- The locals with which a call is about to go round its loop. -/
def State.round? (s : State P) : Option Locals :=
  s.call.bind fun c => match c.proc with
    | .ret (.ok (.inl l)) => some l
    | _ => none

section
variable [Digests]

/-- A run from the beginning of a call, which is answered again and again and does not return. -/
structure Import.Endless (imp : Import P) (s : ℕ → State P) (a : ℕ → Action P) : Prop where
  begins : ∃ run tip settings, (s 0).call = some ⟨run, settings, runHistory imp.stream tip settings⟩
  step : ∀ n, imp.step (s n) (a n) = some (s (n + 1))
  answered : ∀ n, ∃ m ≥ n, ∃ env, a m = .advance env
  goesOn : ∀ n, (s n).call.isSome

variable {imp : Import P} {s : ℕ → State P} {a : ℕ → Action P}

/-- A step that does not answer the call leaves it as it is. -/
theorem Import.Endless.call_eq (h : imp.Endless s a) {n : ℕ} (hnot : ∀ env, a n ≠ .advance env) :
    (s (n + 1)).call = (s n).call := by
  have hgoesOn := h.goesOn
  have hstep := h.step n
  cases ha : a n with
  | advance env => exact absurd ha (hnot env)
  | call run tip settings =>
    rw [ha, Import.step, if_pos (hgoesOn n)] at hstep
    cases hstep
  | world command =>
    rw [ha] at hstep
    generalize s (n + 1) = t at hstep
    cases Import.step_cases hstep with
    | world => rfl
  | crash =>
    rw [ha] at hstep
    have hsome := hgoesOn (n + 1)
    rw [← Option.some.inj hstep] at hsome
    cases hsome

/-- Until it is answered next. -/
theorem Import.Endless.next_answer (h : imp.Endless s a) (n : ℕ) :
    ∃ m ≥ n, (s m).call = (s n).call ∧ ∃ env, a m = .advance env := by
  have hfirst := h.answered n
  classical
  obtain ⟨hn, henv⟩ := Nat.find_spec hfirst
  refine ⟨Nat.find hfirst, hn, ?_, henv⟩
  have hsame : ∀ k, n + k ≤ Nat.find hfirst → (s (n + k)).call = (s n).call := by
    intro k
    induction k with
    | zero => exact fun _ => rfl
    | succ k ih =>
      intro hk
      have hnot := Nat.find_min hfirst (Nat.lt_of_succ_le hk)
      have hstep := h.call_eq (n := n + k) fun env henv => hnot ⟨Nat.le_add_right n k, env, henv⟩
      exact hstep.trans (ih (Nat.le_of_succ_le hk))
  have hfind := hsame (Nat.find hfirst - n) (by omega)
  rwa [Nat.add_sub_cancel' hn] at hfind

/-- **The call comes to a round.** What is left of a round is a finite program, whatever it is
answered; `J` is what its end meets. -/
theorem Import.Endless.next_round (h : imp.Endless s a) {J : Locals → Prop} {run : Uuid}
    {settings : Settings} (proc : Proc (Op P) Op.Resp Failure Locals Outcome) (n : ℕ)
    (hcall : (s n).call = some ⟨run, settings, proc⟩)
    (hgood : Proc.Good answers (fun l _ => J l) proc ()) :
    ∃ m ≥ n, ∃ l, (s m).call = some ⟨run, settings, .ret (.ok (.inl l))⟩ ∧ J l := by
  induction proc generalizing n with
  | ret r =>
    obtain ⟨m, -, hm, env, henv⟩ := h.next_answer n
    have hstep := h.step m
    rw [henv, Import.step, hm, hcall, Option.map_some] at hstep
    have hsome := h.goesOn (m + 1)
    rw [← Option.some.inj hstep] at hsome
    rcases r with e | l | o
    · cases hsome
    · exact ⟨n, le_rfl, l, hcall, hgood _ rfl l rfl⟩
    · cases hsome
  | op e k ih =>
    obtain ⟨m, hm, hsame, env, henv⟩ := h.next_answer n
    have hstep := h.step m
    rw [henv, Import.step, hsame, hcall, Option.map_some] at hstep
    have hnext : (s (m + 1)).call = some ⟨run, settings,
        k (imp.perform run env (s m).record.db e).1⟩ := by
      rw [← Option.some.inj hstep]
      rfl
    obtain ⟨m', hm', l, hl⟩ := ih _ (m + 1) hnext (good_advance hgood (answered_perform e))
    exact ⟨m', by omega, l, hl⟩

/-- After one round comes another. -/
theorem Import.Endless.goes (h : imp.Endless s a) {n : ℕ} {run : Uuid} {settings : Settings}
    {l : Locals} (hcall : (s n).call = some ⟨run, settings, .ret (.ok (.inl l))⟩) :
    ∃ m ≥ n, ∃ l', (s m).call = some ⟨run, settings, .ret (.ok (.inl l'))⟩ ∧ l.Goes l' := by
  obtain ⟨m, hm, hsame, env, henv⟩ := h.next_answer n
  have hstep := h.step m
  rw [henv, Import.step, hsame, hcall, Option.map_some] at hstep
  have hnext : (s (m + 1)).call = some ⟨run, settings, iterate imp.stream settings l⟩ := by
    rw [← Option.some.inj hstep]
    rfl
  obtain ⟨m', hm', l', hl'⟩ := h.next_round _ (m + 1) hnext (iterate_goes imp.stream settings l)
  exact ⟨m', by omega, l', hl'⟩

/-- From some point on every round is towards the same target: the target was replaced only
finitely often. -/
def Settles (s : ℕ → State P) : Prop :=
  ∃ N, ∀ n ≥ N, ∀ m ≥ N, ∀ l ∈ (s n).round?, ∀ l' ∈ (s m).round?, l'.target.hash = l.target.hash

/-- **`run_history` terminates.** However the upstream answers, and whatever else is written between
two answers, no call goes on forever whose target is replaced only finitely often. -/
theorem run_history_terminates (imp : Import P) :
    ¬ ∃ (s : ℕ → State P) (a : ℕ → Action P), imp.Endless s a ∧ Settles s := by
  rintro ⟨s, a, h, N, hsettled⟩
  -- by induction on the measure no round comes after the last replacement
  have hnone : ∀ (x : ℕ ×ₗ ℕ ×ₗ ℕ) (n : ℕ) run settings l, N ≤ n →
      (s n).call = some ⟨run, settings, .ret (.ok (.inl l))⟩ → l.measure = x → False := by
    intro x
    induction x using WellFoundedLT.induction with
    | ind x ih =>
      rintro n run settings l hn hcall rfl
      obtain ⟨m, hm, l', hcall', hgoes⟩ := h.goes hcall
      have hround : (s n).round? = some l := by rw [State.round?, hcall]; rfl
      have hround' : (s m).round? = some l' := by rw [State.round?, hcall']; rfl
      have htarget := hsettled n hn m (hn.trans hm) l hround l' hround'
      exact ih _ (hgoes.decreases htarget) m run settings l' (hn.trans hm) hcall' rfl
  -- and there always is another round
  have hrounds : ∀ n, ∃ m ≥ n, ∃ run settings l,
      (s m).call = some ⟨run, settings, .ret (.ok (.inl l))⟩ := by
    intro n
    obtain ⟨⟨run, settings, proc⟩, hcall⟩ := Option.isSome_iff_exists.mp (h.goesOn n)
    obtain ⟨m, hm, l, hl, -⟩ := h.next_round (J := fun _ => True) proc n hcall
      (wpe_mono _ (fun _ _ _ _ _ => trivial) (wpe_true _ (fun _ _ => trivial) _ ()))
    exact ⟨m, hm, run, settings, l, hl⟩
  obtain ⟨m, hm, run, settings, l, hcall⟩ := hrounds N
  exact hnone _ m run settings l hm hcall rfl

end

end Bip300Monitor.Backfill
