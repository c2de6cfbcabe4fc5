import Mathlib.Data.List.Induction
import Mathlib.Tactic.SplitIfs

/-!
# Watchdogs

A watchdog is prompted from time to time, and then looks whether what it watches has been active since
it last looked. If not, it sets a deadline, which activity takes away. It counts activity up to a
limit, and compares counts, so that beyond the limit some activity is not seen.

## What is proved

* `armed_by` — a deadline was set by a prompt, with no activity since;
* `deadline_kept` — without activity a deadline stays as it is;
* `second_prompt` — without activity the second prompt finds a deadline, or sets one.
-/

namespace Watchdogs

structure Watchdog where
  activity : ℕ
  /-- What the activity was when the watchdog last looked. -/
  checked : ℕ
  deadline : Option ℕ
  deriving DecidableEq, Repr

/-- What a watchdog is told. -/
inductive Signal where
  | active
  | prompt (now : ℕ)
  deriving DecidableEq, Repr

namespace Watchdog

variable (limit timeout : ℕ) {w : Watchdog} {d : ℕ} {signals between : List Signal}

def signal (w : Watchdog) : Signal → Watchdog
  | .active =>
    { w with
      activity := min (w.activity + 1) limit
      deadline := none }
  | .prompt now =>
    { w with
      checked := w.activity
      deadline := if w.activity = w.checked then some (w.deadline.getD (now + timeout)) else none }

/-- A deadline is only there as long as the last look found no activity. -/
def Calm (w : Watchdog) : Prop := w.deadline.isSome → w.activity = w.checked

theorem calm_signal (w : Watchdog) (s : Signal) : (w.signal limit timeout s).Calm := by
  cases s with
  | active => exact fun h => by cases h
  | prompt now => exact fun _ => rfl

/-- **Prompts leave a deadline that is set.** -/
theorem deadline_kept (h : w.Calm) (hd : w.deadline = some d) (hquiet : .active ∉ signals) :
    (signals.foldl (signal limit timeout) w).deadline = some d := by
  induction signals generalizing w with
  | nil => exact hd
  | cons s rest ih =>
    rw [List.mem_cons, not_or] at hquiet
    rw [List.foldl_cons]
    cases s with
    | active => exact (hquiet.1 rfl).elim
    | prompt now =>
      refine ih (calm_signal _ _ _ _) ?_ hquiet.2
      rw [signal, if_pos (h (hd ▸ rfl)), hd, Option.getD_some]

/-- **A deadline was set by a prompt**, when there was none, and there has been no activity since. -/
theorem armed_by (hw : w.deadline = none)
    (h : (signals.foldl (signal limit timeout) w).deadline = some d) :
    ∃ before t after, signals = before ++ .prompt t :: after ∧
      (before.foldl (signal limit timeout) w).deadline = none ∧ .active ∉ after ∧ d = t + timeout := by
  induction signals using List.reverseRecOn generalizing d with
  | nil =>
    rw [List.foldl_nil, hw] at h
    cases h
  | append_singleton signals s ih =>
    rw [List.foldl_append, List.foldl_cons, List.foldl_nil] at h
    cases s with
    | active => cases h
    | prompt now =>
      rw [signal] at h
      split_ifs at h
      cases hd : (signals.foldl (signal limit timeout) w).deadline with
      | none =>
        rw [hd, Option.getD_none] at h
        exact ⟨signals, now, [], rfl, hd, List.not_mem_nil, (Option.some.inj h).symm⟩
      | some d' =>
        rw [hd, Option.getD_some] at h
        obtain ⟨before, t, after, rfl, hnone, hquiet, rfl⟩ := ih hd
        refine ⟨before, t, after ++ [.prompt now], ?_, hnone, ?_, (Option.some.inj h).symm⟩
        · rw [List.append_assoc, List.cons_append]
        · simp [hquiet]

/-- What was found at the last look is what there is, until there is activity. -/
theorem looked (hw : w.activity = w.checked) (hquiet : .active ∉ signals) :
    (signals.foldl (signal limit timeout) w).activity =
      (signals.foldl (signal limit timeout) w).checked := by
  induction signals generalizing w with
  | nil => exact hw
  | cons s rest ih =>
    rw [List.mem_cons, not_or] at hquiet
    rw [List.foldl_cons]
    cases s with
    | active => exact (hquiet.1 rfl).elim
    | prompt now => exact ih rfl hquiet.2

/-- **After a prompt, the next one leaves a deadline** unless there has been activity. -/
theorem second_prompt (w : Watchdog) (t t' : ℕ) (hquiet : .active ∉ between) :
    ((Signal.prompt t :: between ++ [Signal.prompt t']).foldl (signal limit timeout) w).deadline.isSome := by
  have hlooked := looked limit timeout (w := w.signal limit timeout (.prompt t)) rfl hquiet
  rw [List.foldl_append, List.foldl_cons, List.foldl_cons, List.foldl_nil]
  generalize between.foldl (signal limit timeout) _ = v at hlooked ⊢
  rw [signal, if_pos hlooked]
  rfl

end Watchdog

end Watchdogs
