/-!
# Tables in key order

A table of rows under keys, kept and scanned in ascending order of the keys, whatever the order of
the writes.

* `Table.get?_insert`, `Table.get?_erase`: reading after a write.
* `Table.rows_insert_of_lt`: a row under a key above all others goes to the end.
-/

namespace RdfStore

/-- Rows in ascending order of their keys. -/
structure Table (κ ν : Type) [LT κ] where
  rows : List (κ × ν)
  ascending : rows.Pairwise fun a b => a.1 < b.1

namespace Table

variable {κ ν : Type} [LT κ]

/-- Two tables with the same rows are the same. -/
@[ext] theorem ext {t u : Table κ ν} (h : t.rows = u.rows) : t = u := by
  cases t; cases u; cases h; rfl

/-- The table without rows. -/
def empty : Table κ ν := ⟨[], List.Pairwise.nil⟩

instance : Inhabited (Table κ ν) := ⟨empty⟩

/-- The keys in ascending order. -/
def keys (t : Table κ ν) : List κ := t.rows.map Prod.fst

/-- The number of rows. -/
def size (t : Table κ ν) : Nat := t.rows.length

/-- The rows that satisfy a test. -/
def filter (p : κ → ν → Bool) (t : Table κ ν) : Table κ ν where
  rows := t.rows.filter fun row => p row.1 row.2
  ascending := t.ascending.sublist List.filter_sublist

variable [DecidableEq κ]

/-- The value under a key in a list of rows. -/
def lookup (k : κ) : List (κ × ν) → Option ν
  | [] => none
  | (j, v) :: rest => if j = k then some v else lookup k rest

/-- The value under a key. -/
def get? (t : Table κ ν) (k : κ) : Option ν := lookup k t.rows

/-- Remove the row under a key. -/
def erase (t : Table κ ν) (k : κ) : Table κ ν := t.filter fun j _ => !decide (j = k)

variable [DecidableLT κ]

/-- Rows with a row placed in front of the first greater key, in place of one with the same key. -/
def place (k : κ) (v : ν) : List (κ × ν) → List (κ × ν)
  | [] => [(k, v)]
  | (j, w) :: rest =>
    if k < j then (k, v) :: (j, w) :: rest
    else if j = k then (k, v) :: rest
    else (j, w) :: place k v rest

theorem mem_place {k : κ} {v : ν} {row : κ × ν} {rows : List (κ × ν)}
    (h : row ∈ place k v rows) : row = (k, v) ∨ row ∈ rows := by
  induction rows with
  | nil => simpa [place] using h
  | cons first rest ih =>
    simp only [place] at h
    split at h
    · simpa using h
    · split at h
      · rcases List.mem_cons.1 h with h | h
        · exact Or.inl h
        · exact Or.inr (List.mem_cons_of_mem _ h)
      · rcases List.mem_cons.1 h with h | h
        · exact Or.inr (h ▸ List.mem_cons_self)
        · rcases ih h with h | h
          · exact Or.inl h
          · exact Or.inr (List.mem_cons_of_mem _ h)

theorem ascending_place [Trans (α := κ) (· < ·) (· < ·) (· < ·)]
    [Std.Trichotomous (α := κ) (· < ·)] (k : κ) (v : ν) {rows : List (κ × ν)}
    (h : rows.Pairwise fun a b => a.1 < b.1) :
    (place k v rows).Pairwise fun a b => a.1 < b.1 := by
  induction rows with
  | nil => simp [place]
  | cons first rest ih =>
    obtain ⟨above, rest_ascending⟩ := List.pairwise_cons.1 h
    simp only [place]
    split
    · rename_i lt
      refine List.pairwise_cons.2 ⟨?_, h⟩
      intro row mem
      rcases List.mem_cons.1 mem with rfl | mem
      · exact lt
      · exact Trans.trans lt (above row mem)
    · rename_i not_lt
      split
      · rename_i eq
        exact List.pairwise_cons.2 ⟨fun row mem => eq ▸ above row mem, rest_ascending⟩
      · rename_i ne
        refine List.pairwise_cons.2 ⟨?_, ih rest_ascending⟩
        intro row mem
        rcases mem_place mem with rfl | mem
        · exact Decidable.byContradiction fun h =>
            ne (Std.Trichotomous.trichotomous _ _ h not_lt)
        · exact above row mem

/-- Write a row, in place of the one under the same key. -/
def insert [Trans (α := κ) (· < ·) (· < ·) (· < ·)] [Std.Trichotomous (α := κ) (· < ·)]
    (t : Table κ ν) (k : κ) (v : ν) : Table κ ν :=
  ⟨place k v t.rows, ascending_place k v t.ascending⟩

/-! ## Reading after a write -/

theorem lookup_place (k j : κ) (v : ν) (rows : List (κ × ν)) :
    lookup j (place k v rows) = if k = j then some v else lookup j rows := by
  induction rows with
  | nil => simp [place, lookup]
  | cons first rest ih =>
    simp only [place]
    split
    · simp [lookup]
    · split
      · rename_i eq
        by_cases h : k = j <;> simp [lookup, h, eq]
      · rename_i ne
        by_cases h : first.1 = j
        · have hk : k ≠ j := fun hk => ne (h.trans hk.symm)
          simp [lookup, h, hk]
        · simp [lookup, h, ih]

/-- Reading a key after writing one. -/
theorem get?_insert [Trans (α := κ) (· < ·) (· < ·) (· < ·)]
    [Std.Trichotomous (α := κ) (· < ·)] (t : Table κ ν) (k j : κ) (v : ν) :
    (t.insert k v).get? j = if k = j then some v else t.get? j :=
  lookup_place k j v t.rows

omit [DecidableLT κ] in
/-- Reading a key after removing one. -/
theorem get?_erase (t : Table κ ν) (k j : κ) :
    (t.erase k).get? j = if k = j then none else t.get? j := by
  simp only [get?, erase, filter]
  generalize t.rows = rows
  induction rows with
  | nil => simp [lookup]
  | cons first rest ih =>
    by_cases h : first.1 = k
    · simp only [List.filter_cons, h, decide_true, Bool.not_true]
      rw [if_neg (by simp), ih]
      by_cases hj : k = j <;> simp [lookup, h, hj]
    · by_cases hj : first.1 = j
      · have hk : k ≠ j := fun hk => h (hj.trans hk.symm)
        simp [lookup, hj, Ne.symm hk, hk]
      · simp [h, lookup, hj, ih]

/-- A row under a key above all others goes to the end. -/
theorem rows_insert_of_lt [Trans (α := κ) (· < ·) (· < ·) (· < ·)]
    [Std.Trichotomous (α := κ) (· < ·)] [Std.Irrefl (α := κ) (· < ·)] {t : Table κ ν} {k : κ}
    (v : ν) (above : ∀ j ∈ t.keys, j < k) : (t.insert k v).rows = t.rows ++ [(k, v)] := by
  simp only [insert, keys] at above ⊢
  generalize t.rows = rows at above
  induction rows with
  | nil => rfl
  | cons first rest ih =>
    have lt : first.1 < k := above first.1 (by simp)
    have not_lt : ¬ k < first.1 := fun h =>
      Std.Irrefl.irrefl (r := (· < · : κ → κ → Prop)) k (Trans.trans h lt)
    have ne : first.1 ≠ k := fun h => not_lt (h ▸ lt)
    have step := ih fun j mem => above j (List.mem_cons_of_mem _ mem)
    simp [place, not_lt, ne, step]

/-! ## Texts as keys -/

-- both ahead of other instances, so that a table of texts does not depend on what is imported
instance (priority := high) : Trans (α := String) (· < ·) (· < ·) (· < ·) := ⟨String.lt_trans⟩

instance (priority := high) : Std.Trichotomous (α := String) (· < ·) :=
  ⟨fun _ _ h h' => String.le_antisymm (String.not_lt.1 h') (String.not_lt.1 h)⟩

end Table

end RdfStore
