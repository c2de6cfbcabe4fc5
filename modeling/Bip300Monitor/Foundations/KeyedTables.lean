import Mathlib.Data.List.Nodup

/-!
# A table with two keys

The rows of a table have a primary key and, under a second constraint, fields that no two rows share.
The key is a name made of the fields. A row is inserted, or the row with its key is updated.

## What is proved

* `Exact.upsert` — an injective name keeps each of the fields that were inserted, once;
* `Exact.fresh` — the second constraint never fails where the first does not.
-/

namespace KeyedTables

variable {α κ γ : Type} {key : α → κ} {update : α → α} {fields : α → γ} {name : γ → κ} {row : α}
  {rows : List α} {inserted : List γ}

section
variable [DecidableEq κ]

/-- `INSERT … ON CONFLICT (key) DO UPDATE`: the row with the key is updated, or the row is added. -/
def upsert (key : α → κ) (update : α → α) (row : α) (rows : List α) : List α :=
  if ∃ r ∈ rows, key r = key row then rows.map fun r => if key r = key row then update r else r
  else rows ++ [row]

/-- An update that leaves the fields alone leaves their column. -/
theorem map_upsert_of_mem (hupdate : ∀ r, fields (update r) = fields r)
    (h : ∃ r ∈ rows, key r = key row) : (upsert key update row rows).map fields = rows.map fields := by
  rw [upsert, if_pos h, List.map_map]
  refine List.map_congr_left fun r _ => ?_
  simp only [Function.comp_apply]
  split_ifs
  · exact hupdate r
  · rfl

theorem map_upsert_of_notMem (h : ¬ ∃ r ∈ rows, key r = key row) :
    (upsert key update row rows).map fields = rows.map fields ++ [fields row] := by
  rw [upsert, if_neg h, List.map_append, List.map_singleton]

end

/-- The rows are those of the fields that have been inserted, each once, under their names. -/
structure Exact (name : γ → κ) (key : α → κ) (fields : α → γ) (inserted : List γ) (rows : List α) :
    Prop where
  named : ∀ r ∈ rows, key r = name (fields r)
  once : (rows.map fields).Nodup
  retained : ∀ f, f ∈ inserted ↔ f ∈ rows.map fields

theorem Exact.empty : Exact name key fields [] [] where
  named := by simp
  once := List.nodup_nil
  retained := by simp

/-- Rows have the same name if they have the same fields. -/
theorem Exact.mem_iff (h : Exact name key fields inserted rows) (hname : Function.Injective name)
    (hrow : key row = name (fields row)) :
    (∃ r ∈ rows, key r = key row) ↔ fields row ∈ rows.map fields := by
  rw [List.mem_map]
  refine exists_congr fun r => and_congr_right fun hr => ?_
  rw [h.named r hr, hrow]
  exact hname.eq_iff

/-- **The second constraint holds.** A row whose key is new has new fields. -/
theorem Exact.fresh (h : Exact name key fields inserted rows) (hname : Function.Injective name)
    (hrow : key row = name (fields row)) (hkey : ¬ ∃ r ∈ rows, key r = key row) :
    fields row ∉ rows.map fields :=
  fun hmem => hkey ((h.mem_iff hname hrow).mpr hmem)

/-- The primary key is one. -/
theorem Exact.keys (h : Exact name key fields inserted rows) (hname : Function.Injective name) :
    (rows.map key).Nodup := by
  have hcolumn : rows.map key = (rows.map fields).map name := by
    rw [List.map_map]
    exact List.map_congr_left h.named
  rw [hcolumn]
  exact h.once.map hname

/-- What was inserted has one row. -/
theorem Exact.count [DecidableEq γ] (h : Exact name key fields inserted rows) {f : γ}
    (hf : f ∈ inserted) : (rows.map fields).count f = 1 :=
  List.count_eq_one_of_mem h.once ((h.retained f).mp hf)

/-- **A row is inserted, or is there.** -/
theorem Exact.upsert [DecidableEq κ] (h : Exact name key fields inserted rows)
    (hname : Function.Injective name) (hrow : key row = name (fields row))
    (hkey : ∀ r, key (update r) = key r) (hfields : ∀ r, fields (update r) = fields r) :
    Exact name key fields (fields row :: inserted) (upsert key update row rows) := by
  by_cases hmem : ∃ r ∈ rows, key r = key row
  · have hcolumn : (KeyedTables.upsert key update row rows).map fields = rows.map fields :=
      map_upsert_of_mem hfields hmem
    have hfound := (h.mem_iff hname hrow).mp hmem
    refine ⟨fun r hr => ?_, hcolumn ▸ h.once, fun f => ?_⟩
    · rw [KeyedTables.upsert, if_pos hmem] at hr
      obtain ⟨old, hold, rfl⟩ := List.mem_map.mp hr
      split_ifs
      · rw [hkey, hfields]
        exact h.named old hold
      · exact h.named old hold
    · rw [hcolumn, List.mem_cons, h.retained f]
      exact or_iff_right_of_imp fun heq => heq ▸ hfound
  · have hcolumn : (KeyedTables.upsert key update row rows).map fields = _ := map_upsert_of_notMem hmem
    refine ⟨fun r hr => ?_, ?_, fun f => ?_⟩
    · rw [KeyedTables.upsert, if_neg hmem] at hr
      rcases List.mem_append.mp hr with hr | hr
      · exact h.named r hr
      · rw [List.mem_singleton.mp hr]
        exact hrow
    · rw [hcolumn]
      refine List.nodup_append.mpr ⟨h.once, List.nodup_singleton _, ?_⟩
      rintro f hf f' hf' rfl
      rw [List.mem_singleton.mp hf'] at hf
      exact h.fresh hname hrow hmem hf
    · rw [hcolumn, List.mem_cons, List.mem_append, List.mem_singleton, h.retained f, or_comm]

end KeyedTables
