import Mathlib.Data.List.Nodup
import Mathlib.Data.List.Perm.Basic

/-!
# Retries in flight

A task puts off what has failed: it notes the key of the attempt and starts a retry, unless the key
is noted already, and it forgets the key when the retry comes. The keys are noted apart from the
retries, so that they could come to differ.

## What is proved

* `Exact.schedule`, `Exact.expire` — the two operations keep the keys those of the retries, one retry
  for each key.
-/

namespace Retries

variable {κ α : Type} {key : α → κ} {noted : List κ} {inFlight : List α} {r : α}

/-- The noted keys are those of the retries in flight, of which no two have the same key. -/
structure Exact (key : α → κ) (noted : List κ) (inFlight : List α) : Prop where
  noted : ∀ k, k ∈ noted ↔ ∃ r ∈ inFlight, key r = k
  once : (inFlight.map key).Nodup

theorem Exact.empty : Exact key [] [] where
  noted := by simp
  once := List.nodup_nil

/-- A retry is started for a key that is not noted. -/
theorem Exact.schedule (h : Exact key noted inFlight) (hnew : key r ∉ noted) :
    Exact key (noted ++ [key r]) (inFlight ++ [r]) where
  noted k := by
    simp only [List.mem_append, List.mem_singleton, h.noted k]
    constructor
    · rintro (⟨other, hother, rfl⟩ | rfl)
      · exact ⟨other, .inl hother, rfl⟩
      · exact ⟨r, .inr rfl, rfl⟩
    · rintro ⟨other, hother | rfl, rfl⟩
      · exact .inl ⟨other, hother, rfl⟩
      · exact .inr rfl
  once := by
    rw [List.map_append, List.map_singleton]
    refine List.nodup_append.mpr ⟨h.once, List.nodup_singleton _, ?_⟩
    rintro k hk k' hk' rfl
    obtain ⟨other, hother, hkey⟩ := List.mem_map.mp hk
    rw [List.mem_singleton.mp hk'] at hkey
    exact hnew ((h.noted _).mpr ⟨other, hother, hkey⟩)

/-- A retry comes, and its key is forgotten. -/
theorem Exact.expire [DecidableEq κ] [DecidableEq α] (h : Exact key noted inFlight) (hr : r ∈ inFlight) :
    Exact key (noted.filter (· ≠ key r)) (inFlight.erase r) where
  noted k := by
    have hnodup := List.Nodup.of_map key h.once
    simp only [List.mem_filter, h.noted k, decide_eq_true_eq, hnodup.mem_erase_iff]
    constructor
    · rintro ⟨⟨other, hother, rfl⟩, hne⟩
      exact ⟨other, ⟨fun heq => hne (heq ▸ rfl), hother⟩, rfl⟩
    · rintro ⟨other, ⟨hne, hother⟩, rfl⟩
      exact ⟨⟨other, hother, rfl⟩, fun heq => hne (List.inj_on_of_nodup_map h.once hother hr heq)⟩
  once := (List.erase_sublist.map key).nodup h.once

end Retries
