import Mathlib.Data.Nat.Notation
import Mathlib.Data.Option.Basic
import Mathlib.Order.MinMax
import Mathlib.Tactic.ByContra

/-!
# Following a source that does not replay

A source produces items one after the other, and a follower logs stretches of them: items that it was
delivered, and intervals of which it only says that they passed. What the source produced while nobody
was subscribed comes never again, so the follower must say from which item on its next entry begins. The
items are counted from the first one, and a stretch `(lo, hi)` is of those with `lo ≤ i < hi`.

## What is proved

* `Complete.cons` — an entry that begins within the reach of the log leaves no item out;
* `Follower.Sound.accounted` — a sound follower has accounted for every item since its first entry, or
  will with the next;
* `Follower.Sound.wait`, `Follower.Sound.open`, `Follower.Sound.record`, `Follower.Sound.resume` — what
  keeps it sound: it may resume wherever the log has reached;
* `Follower.Sound.reached` — and nowhere else.
-/

namespace Following

/-! ### The log -/

/-- The end of what the log has. -/
def reach : List (ℕ × ℕ) → ℕ
  | [] => 0
  | e :: log => max e.2 (reach log)

/-- The log has the item. -/
def Covers (log : List (ℕ × ℕ)) (i : ℕ) : Prop := ∃ e ∈ log, e.1 ≤ i ∧ i < e.2

instance (log : List (ℕ × ℕ)) (i : ℕ) : Decidable (Covers log i) :=
  inferInstanceAs (Decidable (∃ e ∈ log, _))

/-- From `start` on, the log has everything up to where it ends. -/
def Complete (start : ℕ) (log : List (ℕ × ℕ)) : Prop := ∀ i, start ≤ i → i < reach log → Covers log i

@[simp] theorem reach_cons (e : ℕ × ℕ) (log : List (ℕ × ℕ)) :
    reach (e :: log) = max e.2 (reach log) := rfl

theorem Covers.cons {log : List (ℕ × ℕ)} {i : ℕ} (e : ℕ × ℕ) (h : Covers log i) :
    Covers (e :: log) i := by
  obtain ⟨e', he, hi⟩ := h
  exact ⟨e', List.mem_cons_of_mem e he, hi⟩

/-- Nothing beyond its end is in the log. -/
theorem Covers.lt_reach {log : List (ℕ × ℕ)} {i : ℕ} (h : Covers log i) : i < reach log := by
  induction log with
  | nil =>
    obtain ⟨e, he, -⟩ := h
    cases he
  | cons e log ih =>
    obtain ⟨e', he, hlo, hhi⟩ := h
    rcases List.mem_cons.mp he with rfl | he
    · exact lt_max_of_lt_left hhi
    · exact lt_max_of_lt_right (ih ⟨e', he, hlo, hhi⟩)

/-- An entry that begins where the log has reached, or earlier, leaves nothing out. -/
theorem Complete.cons {start : ℕ} {log : List (ℕ × ℕ)} {e : ℕ × ℕ} (h : Complete start log)
    (he : e.1 ≤ reach log) : Complete start (e :: log) := by
  intro i hstart hi
  by_cases hold : i < reach log
  · exact (h i hstart hold).cons e
  · have hnew : i < e.2 := by
      rcases lt_max_iff.mp hi with hi | hi
      · exact hi
      · exact absurd hi hold
    exact ⟨e, List.mem_cons_self, by omega, hnew⟩

/-! ### The follower -/

/-- A follower: the items there are, the end of its first entry, its log, and the first item that it will
still account for. -/
structure Follower where
  now : ℕ
  start : Option ℕ
  log : List (ℕ × ℕ)
  next : Option ℕ
  deriving DecidableEq

namespace Follower

/-- The log has the item, or what comes next will. -/
def Accounts (f : Follower) (i : ℕ) : Prop := Covers f.log i ∨ ∃ n ∈ f.next, n ≤ i

instance (f : Follower) (i : ℕ) : Decidable (f.Accounts i) :=
  inferInstanceAs (Decidable (_ ∨ ∃ n ∈ f.next, _))

/-- Every item since the first entry is accounted for. -/
def Accounted (f : Follower) : Prop := ∀ start ∈ f.start, ∀ i < f.now, start ≤ i → f.Accounts i

instance (f : Follower) : Decidable f.Accounted :=
  inferInstanceAs (Decidable (∀ start ∈ f.start, ∀ i < f.now, start ≤ i → f.Accounts i))

/-- The log has no holes, and the follower goes on within its reach. -/
structure Sound (f : Follower) : Prop where
  within : reach f.log ≤ f.now
  started : ∀ start ∈ f.start, start ≤ reach f.log
  complete : ∀ start ∈ f.start, Complete start f.log
  next : f.start ≠ none → ∃ n ∈ f.next, n ≤ reach f.log

variable {f : Follower}

theorem Sound.accounted (hf : f.Sound) : f.Accounted := by
  intro start hstart i hi hle
  by_cases hlog : i < reach f.log
  · exact .inl (hf.complete start hstart i hle hlog)
  · obtain ⟨n, hn, hreach⟩ := hf.next (by rw [hstart]; simp)
    exact .inr ⟨n, hn, by omega⟩

/-- The source produces items. -/
theorem Sound.wait {now : ℕ} (hf : f.Sound) (hnow : f.now ≤ now) : Sound { f with now := now } where
  within := hf.within.trans hnow
  started := hf.started
  complete := hf.complete
  next := hf.next

/-- The first entry is made. -/
theorem Sound.open {lo hi n : ℕ} (hhi : hi ≤ f.now) (hn : n ≤ hi) :
    Sound { f with start := some hi, log := [(lo, hi)], next := some n } where
  within := by simpa [reach] using hhi
  started start hstart := by
    cases hstart
    simp [reach]
  complete start hstart i hle hlt := by
    cases hstart
    simp only [reach, lt_max_iff, Nat.not_lt_zero, or_false] at hlt
    omega
  next _ := ⟨n, rfl, by simpa [reach] using hn⟩

/-- An entry is made, from the item on at which the follower was. -/
theorem Sound.record {lo hi n : ℕ} (hf : f.Sound) (hstart : f.start ≠ none) (hlo : f.next = some lo)
    (hhi : hi ≤ f.now) (hn : n ≤ hi) : Sound { f with log := (lo, hi) :: f.log, next := some n } where
  within := max_le hhi hf.within
  started start h := le_max_of_le_right (hf.started start h)
  complete start h := by
    obtain ⟨n, hnext, hle⟩ := hf.next hstart
    rw [hlo] at hnext
    cases hnext
    exact (hf.complete start h).cons hle
  next _ := ⟨n, rfl, le_max_of_le_left hn⟩

/-- The follower goes on from another item, which the log has reached. -/
theorem Sound.resume {next : Option ℕ} (hf : f.Sound)
    (hnext : f.start ≠ none → ∃ n ∈ next, n ≤ reach f.log) : Sound { f with next := next } where
  within := hf.within
  started := hf.started
  complete := hf.complete
  next := hnext

/-- **Where it may resume**: if every item is accounted for, nowhere beyond the reach of the log. -/
theorem Sound.reached {n : ℕ} (hf : f.Sound) (hstart : f.start ≠ none) (hn : n ≤ f.now)
    (h : Accounted { f with next := some n }) : n ≤ reach f.log := by
  by_contra hlt
  obtain ⟨start, hstart⟩ := Option.ne_none_iff_exists'.mp hstart
  have hnow : reach f.log < f.now := (Nat.lt_of_not_le hlt).trans_le hn
  rcases h start hstart (reach f.log) hnow (hf.started start hstart) with hcovers | ⟨m, hm, hle⟩
  · exact absurd hcovers.lt_reach (Nat.lt_irrefl _)
  · cases hm
    omega

end Follower

end Following
