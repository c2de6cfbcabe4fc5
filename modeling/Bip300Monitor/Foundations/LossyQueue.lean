import Mathlib.Data.List.Basic
import Mathlib.Data.Nat.Notation

/-!
# A queue that loses items

A sender appends to a queue, a receiver takes the first item of it, and items can be lost in between. What
was sent and what was received are kept as history.

## What is proved

* `InOrder.send`, `InOrder.lose`, `InOrder.receive` — what is received, and then what is in the queue, is
  in order among what was sent, whatever is done.
-/

universe u

/-- The items sent so far, those on their way, and those received so far. -/
structure LossyQueue (α : Type u) where
  sent : List α
  queue : List α
  received : List α

namespace LossyQueue

variable {α : Type u} {q : LossyQueue α} {a : α}

/-- Nothing was sent. -/
def empty : LossyQueue α := ⟨[], [], []⟩

/-- Append an item. -/
def send (q : LossyQueue α) (a : α) : LossyQueue α :=
  { q with sent := q.sent ++ [a], queue := q.queue ++ [a] }

/-- Lose the item at this place, if there is one. -/
def lose (q : LossyQueue α) (i : ℕ) : LossyQueue α := { q with queue := q.queue.eraseIdx i }

/-- Take the first item. -/
def receive (q : LossyQueue α) : Option (α × LossyQueue α) :=
  match q.queue with
  | [] => none
  | a :: rest => some (a, { q with queue := rest, received := q.received ++ [a] })

theorem receive_eq_some {t : LossyQueue α} :
    q.receive = some (a, t) ↔ ∃ rest, q.queue = a :: rest ∧
      t = { q with queue := rest, received := q.received ++ [a] } := by
  unfold receive
  cases q.queue with
  | nil => simp
  | cons b rest =>
    constructor
    · intro h
      cases h
      exact ⟨rest, rfl, rfl⟩
    · rintro ⟨_, hcons, rfl⟩
      cases hcons
      rfl

/-- What is received, and then what is on its way, is in order among what was sent. -/
def InOrder (q : LossyQueue α) : Prop := (q.received ++ q.queue).Sublist q.sent

theorem InOrder.empty : (LossyQueue.empty : LossyQueue α).InOrder := List.Sublist.refl []

theorem InOrder.send (h : q.InOrder) : (q.send a).InOrder := by
  unfold InOrder LossyQueue.send
  rw [← List.append_assoc]
  exact List.Sublist.append h (List.Sublist.refl [a])

theorem InOrder.lose (h : q.InOrder) (i : ℕ) : (q.lose i).InOrder :=
  ((List.Sublist.refl q.received).append (List.eraseIdx_sublist q.queue i)).trans h

theorem InOrder.receive {t : LossyQueue α} (h : q.InOrder) (hreceive : q.receive = some (a, t)) :
    t.InOrder := by
  obtain ⟨rest, hqueue, rfl⟩ := receive_eq_some.mp hreceive
  unfold InOrder at h ⊢
  rw [hqueue] at h
  rwa [List.append_assoc]

/-- What is received was sent in that order. -/
theorem InOrder.sublist (h : q.InOrder) : q.received.Sublist q.sent :=
  (List.sublist_append_left q.received q.queue).trans h

end LossyQueue
