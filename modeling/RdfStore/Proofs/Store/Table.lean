import Mathlib.Data.List.Nodup
import RdfStore.Store.Table

/-!
# Laws of tables in key order

The rows of a table ascend in their keys, so no key occurs twice and reading a row is looking up
its key.

* `Table.mem_rows_iff`: the rows are exactly the look-ups that succeed.
* `Table.mem_keys_iff`: the keys are exactly those under which something is found.
-/

namespace RdfStore.Table

variable {κ ν : Type} [LT κ] [Std.Irrefl (α := κ) (· < ·)]

theorem keys_nodup (t : Table κ ν) : t.keys.Nodup := by
  rw [keys, List.Nodup, List.pairwise_map]
  refine t.ascending.imp ?_
  intro a b lt eq
  exact Std.Irrefl.irrefl (r := (· < · : κ → κ → Prop)) b.1 (eq ▸ lt)

theorem rows_nodup (t : Table κ ν) : t.rows.Nodup := List.Nodup.of_map Prod.fst t.keys_nodup

variable [DecidableEq κ]

omit [LT κ] [Std.Irrefl (α := κ) (· < ·)] in
theorem mem_of_lookup {k : κ} {v : ν} {rows : List (κ × ν)} (h : lookup k rows = some v) :
    (k, v) ∈ rows := by
  induction rows with
  | nil => cases h
  | cons row rest ih =>
      by_cases eq : row.1 = k
      · simp only [lookup, eq, if_true, Option.some.injEq] at h
        exact List.mem_cons.2 (Or.inl (Prod.ext eq.symm h.symm))
      · simp only [lookup, eq, if_false] at h
        exact List.mem_cons_of_mem _ (ih h)

omit [LT κ] [Std.Irrefl (α := κ) (· < ·)] in
theorem lookup_of_mem {k : κ} {v : ν} {rows : List (κ × ν)}
    (nodup : (rows.map Prod.fst).Nodup) (mem : (k, v) ∈ rows) : lookup k rows = some v := by
  induction rows with
  | nil => cases mem
  | cons row rest ih =>
      obtain ⟨absent, nodup⟩ := List.nodup_cons.1 nodup
      rcases List.mem_cons.1 mem with rfl | mem
      · simp [lookup]
      · have ne : row.1 ≠ k := fun h => absent (h ▸ List.mem_map_of_mem mem)
        simp [lookup, ne, ih nodup mem]

/-- The rows are exactly the look-ups that succeed. -/
theorem mem_rows_iff {t : Table κ ν} {k : κ} {v : ν} : (k, v) ∈ t.rows ↔ t.get? k = some v :=
  ⟨lookup_of_mem t.keys_nodup, mem_of_lookup⟩

theorem mem_keys_iff {t : Table κ ν} {k : κ} : k ∈ t.keys ↔ ∃ v, t.get? k = some v := by
  rw [keys, List.mem_map]
  constructor
  · intro given
    rcases given with ⟨⟨j, v⟩, mem, rfl⟩
    exact ⟨v, mem_rows_iff.1 mem⟩
  · intro given
    rcases given with ⟨v, found⟩
    exact ⟨(k, v), mem_rows_iff.2 found, rfl⟩

end RdfStore.Table
