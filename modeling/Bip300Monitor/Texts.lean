import Bip300Monitor.Failure
import Mathlib.Data.List.Basic

/-!
# Texts that can be told apart

Numbers and bytes are written into identities and keys. What is written can be read off the text.

## What is proved

* `hexEncode_inj` — bytes are told by their hexadecimal digits;
* `append_colon_inj` — a text without a colon is told by what stands before one.
-/

namespace Bip300Monitor

/-! ### Hexadecimal digits -/

/-- The two digits of a byte. -/
def hexDigits (b : UInt8) : List Char := [Nat.digitChar (b.toNat / 16), Nat.digitChar (b.toNat % 16)]

theorem toList_hexEncode (bytes : List UInt8) : (hexEncode bytes).toList = bytes.flatMap hexDigits := by
  rw [hexEncode, String.toList_join, List.flatMap_map]
  refine List.flatMap_congr fun b _ => ?_
  rw [hexByte, String.toList_ofList, hexDigits]

/-- The sixteen digits differ. -/
theorem digitChar_inj {m n : ℕ} (hm : m < 16) (hn : n < 16) (h : m.digitChar = n.digitChar) : m = n := by
  have hall : ∀ m < 16, ∀ n < 16, Nat.digitChar m = Nat.digitChar n → m = n := by decide
  exact hall m hm n hn h

theorem hexDigits_inj {b c : UInt8} (h : hexDigits b = hexDigits c) : b = c := by
  simp only [hexDigits, List.cons.injEq, and_true] at h
  have hb := b.toNat_lt
  have hc := c.toNat_lt
  have hhigh : b.toNat / 16 = c.toNat / 16 := digitChar_inj (by omega) (by omega) h.1
  have hlow : b.toNat % 16 = c.toNat % 16 := digitChar_inj (by omega) (by omega) h.2
  exact UInt8.toNat_inj.mp (by omega)

theorem hexEncode_inj {a b : List UInt8} : hexEncode a = hexEncode b ↔ a = b := by
  refine ⟨fun h => ?_, fun h => h ▸ rfl⟩
  have hlist : a.flatMap hexDigits = b.flatMap hexDigits := by
    rw [← toList_hexEncode, ← toList_hexEncode, h]
  clear h
  induction a generalizing b with
  | nil =>
    cases b with
    | nil => rfl
    | cons c b => simp [hexDigits] at hlist
  | cons c a ih =>
    cases b with
    | nil => simp [hexDigits] at hlist
    | cons d b =>
      rw [List.flatMap_cons, List.flatMap_cons] at hlist
      obtain ⟨hdigits, hrest⟩ := List.append_inj hlist rfl
      rw [hexDigits_inj hdigits, ih hrest]

/-! ### Numbers and separators -/

theorem toString_inj {m n : ℕ} : toString m = toString n ↔ m = n := by
  refine ⟨fun h => ?_, fun h => h ▸ rfl⟩
  have hdigits : Nat.toDigits 10 m = Nat.toDigits 10 n := by
    rw [← Nat.toList_repr, ← Nat.toList_repr, ← Nat.toString_eq_repr, ← Nat.toString_eq_repr, h]
  rw [← @Nat.ofDigitChars_toDigits 10 m (by decide) (by decide), hdigits,
    Nat.ofDigitChars_toDigits (by decide) (by decide)]

/-- The text has no colon. -/
def NoColon (text : String) : Prop := ':' ∉ text.toList

theorem noColon_toString (n : ℕ) : NoColon (toString n) := by
  intro h
  rw [Nat.toString_eq_repr, Nat.toList_repr] at h
  simpa using Nat.isDigit_of_mem_toDigits (by decide) (by decide) h

theorem NoColon.takeWhile {a : String} (ha : NoColon a) (rest : List Char) :
    (a.toList ++ ':' :: rest).takeWhile (· ≠ ':') = a.toList := by
  have hall : ∀ c ∈ a.toList, decide (c ≠ ':') = true := fun c hc =>
    decide_eq_true fun heq => ha (heq ▸ hc)
  rw [List.takeWhile_append_of_pos hall]
  simp

theorem append_colon_inj {a b s t : String} (ha : NoColon a) (hb : NoColon b) :
    a ++ ":" ++ s = b ++ ":" ++ t ↔ a = b ∧ s = t := by
  have hsplit (a s : String) : (a ++ ":" ++ s).toList = a.toList ++ ':' :: s.toList := by simp
  rw [← String.toList_inj, hsplit, hsplit]
  constructor
  · intro h
    have hhead : a.toList = b.toList := by
      rw [← ha.takeWhile s.toList, h, hb.takeWhile t.toList]
    rw [hhead] at h
    have htail := List.append_cancel_left h
    rw [List.cons.injEq] at htail
    exact ⟨String.toList_inj.mp hhead, String.toList_inj.mp htail.2⟩
  · rintro ⟨rfl, rfl⟩
    rfl

end Bip300Monitor
