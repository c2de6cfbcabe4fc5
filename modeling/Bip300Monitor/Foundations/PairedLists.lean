import Mathlib.Data.List.Forall2

/-!
# Lists in pairs

`List.Forall₂ R as bs` says that two lists go together, element by element. What is said of one can then
be said of the other.
-/

namespace PairedLists

universe u v

variable {α : Type u} {β : Type v} {R : α → β → Prop} {as : List α} {bs : List β}

/-- A member of the first list has its counterpart in the second. -/
theorem exists_mem (h : List.Forall₂ R as bs) {a : α} (ha : a ∈ as) : ∃ b ∈ bs, R a b := by
  induction h with
  | nil => cases ha
  | cons hab _ ih =>
    rcases List.mem_cons.mp ha with rfl | ha
    · exact ⟨_, List.mem_cons_self, hab⟩
    · obtain ⟨b, hb, hr⟩ := ih ha
      exact ⟨b, List.mem_cons_of_mem _ hb, hr⟩

/-- The last elements correspond. -/
theorem exists_getLast (h : List.Forall₂ R as bs) {a : α} (ha : as.getLast? = some a) :
    ∃ b, bs.getLast? = some b ∧ R a b := by
  induction h with
  | nil => cases ha
  | @cons a' b' as bs hab hrest ih =>
    cases hrest with
    | nil =>
      cases ha
      exact ⟨b', rfl, hab⟩
    | cons hab' hrest' =>
      rw [List.getLast?_cons_cons] at ha ⊢
      exact ih ha

/-- What the elements of each pair agree on, the lists agree on. -/
theorem forall_mem_iff {P : α → Prop} {Q : β → Prop} (h : List.Forall₂ R as bs)
    (hiff : ∀ a b, R a b → (P a ↔ Q b)) : (∀ a ∈ as, P a) ↔ ∀ b ∈ bs, Q b := by
  induction h with
  | nil => simp
  | cons hab _ ih => simp [hiff _ _ hab, ih]

end PairedLists
