/-!
# Insertion-ordered maps

A finite map that remembers the order in which its keys first arrived. Adding a key that is
already present keeps its place; removing a key closes the gap. The entries are a list whose
keys are pairwise distinct, so two maps with the same entries are equal.

* `OrderedMap.keys_insert`, `OrderedMap.keys_insertNew`: a write keeps every place and appends
  only a new key.
* `OrderedMap.get?_insert`, `OrderedMap.get?_erase`: reading after a write.
-/

namespace RdfStore

/-- A finite map in the order of first insertion. -/
structure OrderedMap (α β : Type) where
  /-- The entries, oldest first. -/
  entries : List (α × β)
  /-- No key occurs twice. -/
  keys_nodup : (entries.map Prod.fst).Nodup

namespace OrderedMap

variable {α β : Type}

/-- Two maps with the same entries in the same order are the same map. -/
@[ext] theorem ext {m n : OrderedMap α β} (h : m.entries = n.entries) : m = n := by
  cases m; cases n; cases h; rfl

/-- The map without entries. -/
def empty : OrderedMap α β := ⟨[], List.nodup_nil⟩

instance : EmptyCollection (OrderedMap α β) := ⟨empty⟩

instance : Inhabited (OrderedMap α β) := ⟨empty⟩

/-- The keys, oldest first. -/
def keys (m : OrderedMap α β) : List α := m.entries.map Prod.fst

/-- The values, in the order of their keys. -/
def values (m : OrderedMap α β) : List β := m.entries.map Prod.snd

/-- The number of keys. -/
def size (m : OrderedMap α β) : Nat := m.entries.length

/-- Whether the map has no key. -/
def isEmpty (m : OrderedMap α β) : Bool := m.entries.isEmpty

/-- The entries that satisfy a test, in their old order. -/
def filter (p : α → β → Bool) (m : OrderedMap α β) : OrderedMap α β where
  entries := m.entries.filter fun e => p e.1 e.2
  keys_nodup := m.keys_nodup.sublist (List.filter_sublist.map Prod.fst)

section Keyed

variable [DecidableEq α]

/-- The value of a key in a list of entries. -/
def lookup (a : α) : List (α × β) → Option β
  | [] => none
  | (k, v) :: rest => if k = a then some v else lookup a rest

/-- The value of a key. -/
def get? (m : OrderedMap α β) (a : α) : Option β := lookup a m.entries

/-- Whether a key is present. -/
def contains (m : OrderedMap α β) (a : α) : Bool := m.keys.contains a

theorem contains_iff_mem {m : OrderedMap α β} {a : α} : m.contains a = true ↔ a ∈ m.keys := by
  simp [contains]

/-- The list of entries with the value of one key replaced. -/
def replaceIn (a : α) (b : β) (entries : List (α × β)) : List (α × β) :=
  entries.map fun e => if e.1 = a then (a, b) else e

theorem map_fst_replaceIn (a : α) (b : β) (entries : List (α × β)) :
    (replaceIn a b entries).map Prod.fst = entries.map Prod.fst := by
  unfold replaceIn
  rw [List.map_map]
  apply List.map_congr_left
  intro e _
  by_cases h : e.1 = a <;> simp [h]

omit [DecidableEq α] in
theorem nodup_append_of_not_mem {l : List α} {a : α} (nodup : l.Nodup) (absent : a ∉ l) :
    (l ++ [a]).Nodup := by
  rw [List.nodup_append]
  refine ⟨nodup, by simp, ?_⟩
  intro x hx y hy
  simp only [List.mem_singleton] at hy
  subst hy
  exact fun h => absent (h ▸ hx)

/-- Give a key a value: an old key keeps its place, a new key goes to the end. -/
def insert (m : OrderedMap α β) (a : α) (b : β) : OrderedMap α β :=
  if h : m.contains a then
    ⟨replaceIn a b m.entries, by rw [map_fst_replaceIn]; exact m.keys_nodup⟩
  else
    ⟨m.entries ++ [(a, b)], by
      have absent : a ∉ m.keys := fun mem => h (contains_iff_mem.2 mem)
      simpa [keys] using nodup_append_of_not_mem m.keys_nodup absent⟩

/-- Add a key at the end unless it is already present. -/
def insertNew (m : OrderedMap α β) (a : α) (b : β) : OrderedMap α β :=
  if m.contains a then m else m.insert a b

/-- Remove a key; the others keep their order. -/
def erase (m : OrderedMap α β) (a : α) : OrderedMap α β :=
  m.filter fun k _ => !decide (k = a)

/-- The map written by a list of entries, first to last. -/
def ofList (entries : List (α × β)) : OrderedMap α β :=
  entries.foldl (fun m e => m.insert e.1 e.2) empty

/-! ## What a write does to keys and look-ups -/

theorem keys_insert (m : OrderedMap α β) (a : α) (b : β) :
    (m.insert a b).keys = if a ∈ m.keys then m.keys else m.keys ++ [a] := by
  unfold insert
  by_cases h : m.contains a = true
  · have mem := contains_iff_mem.1 h
    simp only [h, dite_true, mem, if_true]
    exact map_fst_replaceIn a b m.entries
  · have absent : a ∉ m.keys := fun mem => h (contains_iff_mem.2 mem)
    rw [if_neg absent]
    simp [h, keys]

theorem keys_insertNew (m : OrderedMap α β) (a : α) (b : β) :
    (m.insertNew a b).keys = if a ∈ m.keys then m.keys else m.keys ++ [a] := by
  unfold insertNew
  by_cases h : m.contains a = true
  · simp [h, contains_iff_mem.1 h]
  · simp only [h]
    exact keys_insert m a b

theorem entries_insert_of_not_mem {m : OrderedMap α β} {a : α} (b : β) (absent : a ∉ m.keys) :
    (m.insert a b).entries = m.entries ++ [(a, b)] := by
  have h : ¬ m.contains a = true := fun mem => absent (contains_iff_mem.1 mem)
  simp [insert, h]

theorem entries_insert_of_mem {m : OrderedMap α β} {a : α} (b : β) (mem : a ∈ m.keys) :
    (m.insert a b).entries = replaceIn a b m.entries := by
  simp [insert, contains_iff_mem.2 mem]

theorem keys_erase (m : OrderedMap α β) (a : α) :
    (m.erase a).keys = m.keys.filter fun k => !decide (k = a) := by
  simp [erase, filter, keys, List.filter_map, Function.comp_def]

theorem lookup_eq_none_iff {a : α} {entries : List (α × β)} :
    lookup a entries = none ↔ a ∉ entries.map Prod.fst := by
  induction entries with
  | nil => simp [lookup]
  | cons e rest ih =>
    by_cases h : e.1 = a
    · simp [lookup, h]
    · simp [lookup, h, ih, Ne.symm h]

theorem get?_eq_none_iff {m : OrderedMap α β} {a : α} : m.get? a = none ↔ a ∉ m.keys :=
  lookup_eq_none_iff

theorem isSome_get? (m : OrderedMap α β) (a : α) : (m.get? a).isSome = m.contains a := by
  rw [Bool.eq_iff_iff, contains_iff_mem, Option.isSome_iff_ne_none, ne_eq, get?_eq_none_iff,
    Decidable.not_not]

theorem lookup_append (a : α) (xs ys : List (α × β)) :
    lookup a (xs ++ ys) = (lookup a xs).or (lookup a ys) := by
  induction xs with
  | nil => simp [lookup]
  | cons e rest ih => by_cases h : e.1 = a <;> simp [lookup, h, ih]

theorem lookup_replaceIn_self {a : α} (b : β) {entries : List (α × β)}
    (mem : a ∈ entries.map Prod.fst) : lookup a (replaceIn a b entries) = some b := by
  induction entries with
  | nil => simp at mem
  | cons e rest ih =>
    by_cases h : e.1 = a
    · simp [replaceIn, lookup, h]
    · have step := ih (by simpa [Ne.symm h] using mem)
      simpa [replaceIn, lookup, h] using step

theorem lookup_replaceIn_of_ne {a c : α} (b : β) (ne : a ≠ c) (entries : List (α × β)) :
    lookup c (replaceIn a b entries) = lookup c entries := by
  induction entries with
  | nil => rfl
  | cons e rest ih =>
    rw [replaceIn] at ih
    by_cases h : e.1 = a
    · have hc : e.1 ≠ c := fun hc => ne (h.symm.trans hc)
      simp [replaceIn, lookup, h, ne, ih]
    · simp [replaceIn, lookup, h, ih]

/-- Reading a key after writing one. -/
theorem get?_insert (m : OrderedMap α β) (a c : α) (b : β) :
    (m.insert a b).get? c = if a = c then some b else m.get? c := by
  unfold get?
  by_cases mem : a ∈ m.keys
  · rw [entries_insert_of_mem b mem]
    by_cases h : a = c
    · subst h
      simp [lookup_replaceIn_self b mem]
    · simp [h, lookup_replaceIn_of_ne b h]
  · rw [entries_insert_of_not_mem b mem, lookup_append]
    by_cases h : a = c
    · subst h
      rw [lookup_eq_none_iff.2 mem]
      simp [lookup]
    · simp [h, lookup]

theorem lookup_filter_of_ne {a c : α} (ne : c ≠ a) (entries : List (α × β)) :
    lookup c (entries.filter fun e => !decide (e.1 = a)) = lookup c entries := by
  induction entries with
  | nil => rfl
  | cons e rest ih =>
    by_cases h : e.1 = a
    · have hc : e.1 ≠ c := fun hc => ne (hc.symm.trans h)
      simp [h, lookup, ih, Ne.symm ne]
    · simp [h, lookup, ih]

/-- Reading a key after removing one. -/
theorem get?_erase (m : OrderedMap α β) (a c : α) :
    (m.erase a).get? c = if a = c then none else m.get? c := by
  by_cases h : a = c
  · subst h
    rw [if_pos rfl, get?_eq_none_iff, keys_erase]
    simp
  · rw [if_neg h]
    exact lookup_filter_of_ne (Ne.symm h) m.entries

theorem mem_entries_of_get? {m : OrderedMap α β} {a : α} {b : β} (h : m.get? a = some b) :
    (a, b) ∈ m.entries := by
  unfold get? at h
  generalize m.entries = entries at h
  induction entries with
  | nil => simp [lookup] at h
  | cons e rest ih =>
    by_cases he : e.1 = a
    · simp only [lookup, he, if_true, Option.some.injEq] at h
      exact List.mem_cons.2 (Or.inl (by rw [← he, ← h]))
    · simp only [lookup, he, if_false] at h
      exact List.mem_cons_of_mem _ (ih h)

end Keyed

end OrderedMap

end RdfStore
