import RdfStore.Proofs.OrderedMap
import RdfStore.Proofs.Store.Table

/-!
# Tables with a reverse index

A table and an index are `Inverse` when looking up a key in one and looking up the value found in
the other lead back and forth. Writing a fresh row to both keeps them inverse, and so does erasing
from both the rows of the table that satisfy a test (`Inverse.eraseRows`), which is how quads are
removed and how values are collected.
-/

namespace RdfStore

section Erase

variable {κ ν : Type} [LT κ] [DecidableEq κ] [DecidableEq ν]

/-- A table without the rows under the keys of a list of rows. -/
def Table.eraseRows (t : Table κ ν) (rows : List (κ × ν)) : Table κ ν :=
  rows.foldl (fun t row => t.erase row.1) t

/-- An index without the values of a list of rows. -/
def OrderedMap.eraseRows (m : OrderedMap ν κ) (rows : List (κ × ν)) : OrderedMap ν κ :=
  rows.foldl (fun m row => m.erase row.2) m

omit [DecidableEq ν] in
theorem Table.rows_eraseRows (rows : List (κ × ν)) :
    ∀ t : Table κ ν,
      (t.eraseRows rows).rows = t.rows.filter fun row => decide (row.1 ∉ rows.map Prod.fst) := by
  induction rows with
  | nil => intro t; simp [Table.eraseRows]
  | cons first rest ih =>
      intro t
      have step := ih (t.erase first.1)
      simp only [Table.eraseRows, List.foldl_cons] at step ⊢
      rw [step, Table.erase, Table.filter, List.filter_filter]
      apply List.filter_congr
      intro row _
      simp only [List.map_cons, List.mem_cons, not_or, Bool.decide_and, decide_not]
      exact Bool.and_comm _ _

omit [DecidableEq κ] [LT κ] in
theorem OrderedMap.get?_eraseRows (v : ν) (rows : List (κ × ν)) :
    ∀ m : OrderedMap ν κ,
      (m.eraseRows rows).get? v = if v ∈ rows.map Prod.snd then none else m.get? v := by
  induction rows with
  | nil => intro m; simp [OrderedMap.eraseRows]
  | cons first rest ih =>
      intro m
      have step := ih (m.erase first.2)
      simp only [OrderedMap.eraseRows, List.foldl_cons] at step ⊢
      rw [step, OrderedMap.get?_erase]
      by_cases later : v ∈ rest.map Prod.snd
      · simp [later]
      · by_cases here : first.2 = v
        · simp [here]
        · simp [later, here, Ne.symm here]

variable [Std.Irrefl (α := κ) (· < ·)]

omit [DecidableEq κ] [DecidableEq ν] in
/-- The rows that satisfy a test are told apart by their keys. -/
theorem Table.mem_map_fst_filter {t : Table κ ν} {p : κ × ν → Bool} {row : κ × ν}
    (mem : row ∈ t.rows) : row.1 ∈ (t.rows.filter p).map Prod.fst ↔ p row = true := by
  rw [List.mem_map]
  constructor
  · intro given
    rcases given with ⟨other, inside, key⟩
    obtain ⟨there, passes⟩ := List.mem_filter.1 inside
    have eq : other = row := List.inj_on_of_nodup_map t.keys_nodup there mem key
    exact eq ▸ passes
  · intro passes
    exact ⟨row, List.mem_filter.2 ⟨mem, passes⟩, rfl⟩

omit [DecidableEq ν] in
/-- Erasing the rows that satisfy a test leaves the others, in their old order. -/
theorem Table.rows_eraseRows_filter (t : Table κ ν) (p : κ × ν → Bool) :
    (t.eraseRows (t.rows.filter p)).rows = t.rows.filter fun row => !p row := by
  rw [Table.rows_eraseRows]
  apply List.filter_congr
  intro row mem
  rw [Bool.eq_iff_iff, decide_eq_true_iff, Table.mem_map_fst_filter mem, Bool.not_eq_true',
    Bool.not_eq_true]

omit [DecidableEq ν] in
theorem Table.get?_eraseRows_filter {t : Table κ ν} {p : κ × ν → Bool} {k : κ} {v : ν} :
    (t.eraseRows (t.rows.filter p)).get? k = some v ↔ t.get? k = some v ∧ p (k, v) = false := by
  rw [← Table.mem_rows_iff, Table.rows_eraseRows_filter, List.mem_filter, Table.mem_rows_iff,
    Bool.not_eq_true']

end Erase

section Inverse

variable {κ ν : Type} [LT κ] [Std.Irrefl (α := κ) (· < ·)] [DecidableEq κ] [DecidableEq ν]

/-- A table and an index that lead back and forth. -/
def Inverse (table : Table κ ν) (index : OrderedMap ν κ) : Prop :=
  ∀ k v, table.get? k = some v ↔ index.get? v = some k

namespace Inverse

variable {table : Table κ ν} {index : OrderedMap ν κ}

omit [Std.Irrefl (α := κ) (· < ·)] in
theorem empty : Inverse (Table.empty : Table κ ν) (OrderedMap.empty : OrderedMap ν κ) :=
  fun _ _ => ⟨fun h => (nomatch h), fun h => (nomatch h)⟩

omit [Std.Irrefl (α := κ) (· < ·)] in
/-- No value stands under two keys. -/
theorem key_unique (h : Inverse table index) {j k : κ} {v : ν} (first : table.get? j = some v)
    (second : table.get? k = some v) : j = k := by
  have eq := ((h j v).1 first).symm.trans ((h k v).1 second)
  exact Option.some.inj eq

omit [Std.Irrefl (α := κ) (· < ·)] in
/-- A fresh row, written to both. -/
theorem insert [DecidableLT κ] [Trans (α := κ) (· < ·) (· < ·) (· < ·)]
    [Std.Trichotomous (α := κ) (· < ·)] (h : Inverse table index) {k : κ} {v : ν}
    (keyFresh : table.get? k = none) (valueFresh : index.get? v = none) :
    Inverse (table.insert k v) (index.insert v k) := by
  intro j w
  rw [Table.get?_insert, OrderedMap.get?_insert]
  by_cases key : k = j
  · subst key
    by_cases value : v = w
    · simp [value]
    · have absent : index.get? w ≠ some k := fun found => by
        rw [(h k w).2 found] at keyFresh
        cases keyFresh
      simp [value, absent]
  · by_cases value : v = w
    · subst value
      have absent : table.get? j ≠ some v := fun found => by
        rw [(h j v).1 found] at valueFresh
        cases valueFresh
      simp [key, absent]
    · simpa [key, value] using h j w

/-- Erasing the rows that satisfy a test from both keeps a table and its index inverse. -/
theorem eraseRows (h : Inverse table index) (p : κ × ν → Bool) :
    Inverse (table.eraseRows (table.rows.filter p)) (index.eraseRows (table.rows.filter p)) := by
  intro k v
  have values : ∀ {k}, table.get? k = some v →
      (v ∈ (table.rows.filter p).map Prod.snd ↔ p (k, v) = true) := by
    intro k found
    rw [List.mem_map]
    constructor
    · intro given
      rcases given with ⟨⟨j, w⟩, inside, rfl⟩
      obtain ⟨there, passes⟩ := List.mem_filter.1 inside
      exact h.key_unique (Table.mem_rows_iff.1 there) found ▸ passes
    · intro passes
      exact ⟨(k, v), List.mem_filter.2 ⟨Table.mem_rows_iff.2 found, passes⟩, rfl⟩
  rw [Table.get?_eraseRows_filter, OrderedMap.get?_eraseRows]
  constructor
  · intro given
    rcases given with ⟨found, fails⟩
    have kept : v ∉ (table.rows.filter p).map Prod.snd := fun mem => by
      rw [(values found).1 mem] at fails
      cases fails
    rw [if_neg kept]
    exact (h k v).1 found
  · intro found
    by_cases erased : v ∈ (table.rows.filter p).map Prod.snd
    · rw [if_pos erased] at found
      cases found
    · rw [if_neg erased] at found
      have there := (h k v).2 found
      refine ⟨there, ?_⟩
      cases passes : p (k, v) with
      | false => rfl
      | true => exact (erased ((values there).2 passes)).elim

end Inverse

end Inverse

end RdfStore
