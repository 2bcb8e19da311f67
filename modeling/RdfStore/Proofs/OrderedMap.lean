import Mathlib.Data.List.Nodup
import RdfStore.OrderedMap
import RdfStore.Proofs.Firsts

/-!
# Laws of insertion-ordered maps

Reading an entry and looking up its key are the same thing, because no key occurs twice.

`OrderedMap.Related` compares two maps whose values have different types: the same keys stand in
the same order, and the values under one key are related. Writing under one key on both sides, or
removing it from both, keeps two maps related; this is what carries a comparison of two
representations of the same graphs through every change.

* `OrderedMap.mem_entries_iff`: the entries are exactly the look-ups that succeed.
* `OrderedMap.ext_get?`: a map is its keys in order and what stands under them.
* `OrderedMap.ofList_entries`: a map is rebuilt from its entries.
* `OrderedMap.keys_ofList`, `OrderedMap.get?_ofList`: what is written under keys some of which come
  again.
* `OrderedMap.entries_foldl_insertNew`: what is added under keys some of which are there.
* `OrderedMap.mapValues_ofList`: writing translated entries is translating what was written.
* `OrderedMap.Related.insert`, `OrderedMap.Related.erase`: related maps stay related.
-/

namespace RdfStore.OrderedMap

variable {α β γ : Type}

/-! ## Entries and look-ups -/

theorem entries_nodup (m : OrderedMap α β) : m.entries.Nodup :=
  List.Nodup.of_map Prod.fst m.keys_nodup

/-- The map with every value translated. -/
def mapValues (f : β → γ) (m : OrderedMap α β) : OrderedMap α γ where
  entries := m.entries.map fun e => (e.1, f e.2)
  keys_nodup := by
    rw [List.map_map]
    exact m.keys_nodup

theorem entries_mapValues (f : β → γ) (m : OrderedMap α β) :
    (m.mapValues f).entries = m.entries.map fun e => (e.1, f e.2) := rfl

theorem keys_mapValues (f : β → γ) (m : OrderedMap α β) : (m.mapValues f).keys = m.keys := by
  rw [keys, mapValues, List.map_map]
  rfl

theorem values_mapValues (f : β → γ) (m : OrderedMap α β) :
    (m.mapValues f).values = m.values.map f := by
  rw [values, entries_mapValues, values, List.map_map, List.map_map]
  rfl

section Keyed

variable [DecidableEq α]

theorem lookup_of_mem {a : α} {b : β} {entries : List (α × β)}
    (nodup : (entries.map Prod.fst).Nodup) (mem : (a, b) ∈ entries) :
    lookup a entries = some b := by
  induction entries with
  | nil => cases mem
  | cons e rest ih =>
      obtain ⟨absent, nodup⟩ := List.nodup_cons.1 nodup
      rcases List.mem_cons.1 mem with rfl | mem
      · simp [lookup]
      · have ne : e.1 ≠ a := fun h => absent (h ▸ List.mem_map_of_mem mem)
        simp [lookup, ne, ih nodup mem]

/-- The entries are exactly the look-ups that succeed. -/
theorem mem_entries_iff {m : OrderedMap α β} {a : α} {b : β} :
    (a, b) ∈ m.entries ↔ m.get? a = some b :=
  ⟨lookup_of_mem m.keys_nodup, mem_entries_of_get?⟩

theorem mem_keys_iff {m : OrderedMap α β} {a : α} : a ∈ m.keys ↔ ∃ b, m.get? a = some b := by
  rw [← Option.isSome_iff_exists, isSome_get?, contains_iff_mem]

theorem get?_eq_none_of_contains {m : OrderedMap α β} {a : α} (missing : m.contains a = false) :
    m.get? a = none := by
  rw [← Option.not_isSome_iff_eq_none, isSome_get?, missing]
  exact Bool.false_ne_true

/-- Reading a key after adding one that may be there. -/
theorem get?_insertNew (m : OrderedMap α β) (a c : α) (b : β) :
    (m.insertNew a b).get? c = if a = c then some ((m.get? a).getD b) else m.get? c := by
  unfold insertNew
  by_cases known : m.contains a = true
  · obtain ⟨held, found⟩ := mem_keys_iff.1 (contains_iff_mem.1 known)
    rw [if_pos known, found, Option.getD_some]
    split
    · rename_i same
      rw [← same, found]
    · rfl
  · have absent : m.get? a = none := get?_eq_none_iff.2 fun mem => known (contains_iff_mem.2 mem)
    rw [if_neg known, get?_insert, absent, Option.getD_none]

/-- Writing the value that a key has changes nothing. -/
theorem insert_of_get? {m : OrderedMap α β} {a : α} {b : β} (found : m.get? a = some b) :
    m.insert a b = m := by
  apply OrderedMap.ext
  rw [entries_insert_of_mem b (mem_keys_iff.2 ⟨b, found⟩), replaceIn]
  refine (List.map_congr_left fun e mem => ?_).trans (List.map_id m.entries)
  rcases e with ⟨k, c⟩
  by_cases same : k = a
  · have held : m.get? a = some c := same ▸ mem_entries_iff.1 mem
    rw [if_pos same, same, id, Option.some.inj (found.symm.trans held)]
  · rw [if_neg same, id]

theorem erase_of_not_mem {m : OrderedMap α β} {a : α} (absent : a ∉ m.keys) : m.erase a = m := by
  apply OrderedMap.ext
  apply List.filter_eq_self.2
  intro e mem
  have ne : e.1 ≠ a := fun h => absent (h ▸ List.mem_map_of_mem mem)
  simp [ne]

/-- Two maps with the same keys in the same order and the same values are the same. -/
theorem ext_get? {m n : OrderedMap α β} (keys : m.keys = n.keys)
    (values : ∀ a, m.get? a = n.get? a) : m = n := by
  have read (k : OrderedMap α β) :
      k.entries = k.keys.filterMap fun a => (k.get? a).map fun b => (a, b) := by
    rw [OrderedMap.keys, List.filterMap_map]
    refine List.filterMap_some.symm.trans (List.filterMap_congr fun e mem => ?_)
    have found : k.get? e.1 = some e.2 := mem_entries_iff.1 mem
    rw [Function.comp_apply, found]
    rfl
  apply OrderedMap.ext
  rw [read m, read n, keys]
  simp only [values]

/-- Writing a key need not be prepared by adding it. -/
theorem insert_insertNew (m : OrderedMap α β) (k : α) (a b : β) :
    (m.insertNew k a).insert k b = m.insert k b := by
  apply ext_get?
  · rw [keys_insert, keys_insert, keys_insertNew]
    by_cases known : k ∈ m.keys <;> simp [known]
  · intro g
    rw [get?_insert, get?_insert, get?_insertNew]
    split <;> rfl

/-! ## Rebuilding a map -/

theorem entries_foldl_insert (entries : List (α × β)) :
    ∀ m : OrderedMap α β, ((m.entries ++ entries).map Prod.fst).Nodup →
      (entries.foldl (fun m e => m.insert e.1 e.2) m).entries = m.entries ++ entries := by
  induction entries with
  | nil => intro m _; simp
  | cons e rest ih =>
      intro m nodup
      have absent : e.1 ∉ m.keys := by
        rw [List.map_append, List.nodup_append] at nodup
        intro mem
        exact nodup.2.2 e.1 mem e.1 (by simp) rfl
      have step := entries_insert_of_not_mem e.2 absent
      rw [List.foldl_cons, ih _ (by rw [step]; simpa using nodup), step]
      simp

/-- A map is rebuilt from its entries. -/
theorem ofList_entries (m : OrderedMap α β) : ofList m.entries = m := by
  apply OrderedMap.ext
  have nodup : (((empty : OrderedMap α β).entries ++ m.entries).map Prod.fst).Nodup := m.keys_nodup
  exact entries_foldl_insert m.entries empty nodup

/-- Writing keeps the keys that are there, and appends new ones in the order of their first entries. -/
theorem keys_foldl_insert (entries : List (α × β)) : ∀ m : OrderedMap α β,
    (entries.foldl (fun m e => m.insert e.1 e.2) m).keys =
      m.keys ++ newBy id m.keys (entries.map Prod.fst) := by
  induction entries with
  | nil => intro m; exact (List.append_nil m.keys).symm
  | cons e rest ih =>
      intro m
      rw [List.foldl_cons, ih, keys_insert, List.map_cons]
      by_cases old : e.1 ∈ m.keys
      · have old' : id e.1 ∈ m.keys := old
        rw [if_pos old, newBy_cons_of_mem old']
      · have new : id e.1 ∉ m.keys := old
        rw [if_neg old, newBy_cons_of_not_mem new, newBy_concat, List.append_assoc,
          List.singleton_append, id]

theorem keys_ofList (entries : List (α × β)) :
    (ofList entries).keys = firstsBy id (entries.map Prod.fst) := by
  rw [ofList, keys_foldl_insert, ← newBy_of_nothing_known]
  exact List.nil_append _

/-- Entries that agree where they have the same key can be written in any order. -/
theorem get?_foldl_insert {f : α → Option β} (entries : List (α × β)) (a : α) :
    (∀ e ∈ entries, f e.1 = some e.2) → ∀ m : OrderedMap α β,
      (entries.foldl (fun m e => m.insert e.1 e.2) m).get? a =
        if a ∈ entries.map Prod.fst then f a else m.get? a := by
  induction entries with
  | nil => intro _ m; rw [List.map_nil, if_neg List.not_mem_nil, List.foldl_nil]
  | cons e rest ih =>
      intro agree m
      obtain ⟨here, later⟩ := List.forall_mem_cons.1 agree
      rw [List.foldl_cons, ih later, get?_insert, List.map_cons]
      by_cases again : a ∈ rest.map Prod.fst
      · rw [if_pos again, if_pos (List.mem_cons_of_mem _ again)]
      · rw [if_neg again]
        by_cases same : e.1 = a
        · rw [if_pos same, if_pos (same ▸ List.mem_cons_self), ← here, same]
        · rw [if_neg same, if_neg (List.not_mem_cons_of_ne_of_not_mem (Ne.symm same) again)]

theorem get?_ofList {f : α → Option β} {entries : List (α × β)}
    (agree : ∀ e ∈ entries, f e.1 = some e.2) {a : α} (mem : a ∈ entries.map Prod.fst) :
    (ofList entries).get? a = f a := by
  rw [ofList, get?_foldl_insert entries a agree, if_pos mem]

/-! ## Adding members under their keys -/

/-- Adding members keeps what is there and appends those with new keys, the first with each key. -/
theorem entries_foldl_insertNew (key : β → α) (l : List β) : ∀ m : OrderedMap α β,
    (l.foldl (fun m b => m.insertNew (key b) b) m).entries =
      m.entries ++ (newBy key m.keys l).map fun b => (key b, b) := by
  induction l with
  | nil => intro m; rw [newBy_nil, List.map_nil, List.append_nil]; rfl
  | cons b rest ih =>
      intro m
      rw [List.foldl_cons, ih]
      by_cases old : key b ∈ m.keys
      · rw [insertNew, if_pos (contains_iff_mem.2 old), newBy_cons_of_mem old]
      · have missing : ¬m.contains (key b) = true := fun there => old (contains_iff_mem.1 there)
        rw [insertNew, if_neg missing, keys_insert, if_neg old, newBy_concat,
          entries_insert_of_not_mem b old, newBy_cons_of_not_mem old, List.append_assoc,
          List.map_cons, List.singleton_append]

theorem keys_foldl_insertNew (key : β → α) (l : List β) (m : OrderedMap α β) :
    (l.foldl (fun m b => m.insertNew (key b) b) m).keys =
      m.keys ++ (newBy key m.keys l).map key := by
  rw [keys, entries_foldl_insertNew, List.map_append, List.map_map]
  rfl

/-! ## Translating values -/

section MapValues

variable (f : β → γ)

theorem lookup_map (a : α) (entries : List (α × β)) :
    lookup a (entries.map fun e => (e.1, f e.2)) = (lookup a entries).map f := by
  induction entries with
  | nil => rfl
  | cons e rest ih =>
      rw [List.map_cons, lookup, lookup, ih]
      split <;> rfl

theorem get?_mapValues (m : OrderedMap α β) (a : α) :
    (m.mapValues f).get? a = (m.get? a).map f := lookup_map f a m.entries

theorem mapValues_insert (m : OrderedMap α β) (a : α) (b : β) :
    (m.insert a b).mapValues f = (m.mapValues f).insert a (f b) := by
  apply OrderedMap.ext
  rw [entries_mapValues]
  by_cases mem : a ∈ m.keys
  · have mem' : a ∈ (m.mapValues f).keys := by rwa [keys_mapValues]
    rw [entries_insert_of_mem _ mem, entries_insert_of_mem _ mem', replaceIn, replaceIn,
      entries_mapValues, List.map_map, List.map_map]
    apply List.map_congr_left
    intro e _
    by_cases same : e.1 = a <;> simp [same]
  · have absent : a ∉ (m.mapValues f).keys := by rwa [keys_mapValues]
    rw [entries_insert_of_not_mem _ mem, entries_insert_of_not_mem _ absent, List.map_append]
    rfl

theorem contains_mapValues (m : OrderedMap α β) (a : α) :
    (m.mapValues f).contains a = m.contains a := by
  rw [contains, contains, keys_mapValues]

theorem mapValues_insertNew (m : OrderedMap α β) (a : α) (b : β) :
    (m.insertNew a b).mapValues f = (m.mapValues f).insertNew a (f b) := by
  unfold insertNew
  rw [contains_mapValues]
  split
  · rfl
  · exact mapValues_insert f m a b

theorem mapValues_foldl_insert (entries : List (α × β)) :
    ∀ m : OrderedMap α β, (entries.foldl (fun m e => m.insert e.1 e.2) m).mapValues f =
      (entries.map fun e => (e.1, f e.2)).foldl (fun m e => m.insert e.1 e.2) (m.mapValues f) := by
  induction entries with
  | nil => intro m; rfl
  | cons e rest ih =>
      intro m
      rw [List.foldl_cons, ih, mapValues_insert]
      rfl

/-- Writing translated entries is translating what was written. -/
theorem mapValues_ofList (entries : List (α × β)) :
    (ofList entries).mapValues f = ofList (entries.map fun e => (e.1, f e.2)) :=
  mapValues_foldl_insert f entries empty

end MapValues

/-! ## Related maps -/

/-- Two maps with the same keys in the same order, whose values are related key by key. -/
structure Related (R : α → β → γ → Prop) (m : OrderedMap α β) (n : OrderedMap α γ) : Prop where
  keys : m.keys = n.keys
  values : ∀ {a b c}, m.get? a = some b → n.get? a = some c → R a b c

namespace Related

variable {R : α → β → γ → Prop} {m : OrderedMap α β} {n : OrderedMap α γ}

theorem empty : Related R (OrderedMap.empty : OrderedMap α β) (OrderedMap.empty : OrderedMap α γ) :=
  ⟨rfl, fun h => by cases h⟩

theorem contains (h : Related R m n) (a : α) : m.contains a = n.contains a := by
  rw [OrderedMap.contains, OrderedMap.contains, h.keys]

theorem get?_eq_none (h : Related R m n) {a : α} : m.get? a = none ↔ n.get? a = none := by
  rw [get?_eq_none_iff, get?_eq_none_iff, h.keys]

/-- What one map holds under a key, the other holds a related value for. -/
theorem exists_right (h : Related R m n) {a : α} {b : β} (found : m.get? a = some b) :
    ∃ c, n.get? a = some c ∧ R a b c := by
  have mem : a ∈ n.keys := h.keys ▸ mem_keys_iff.2 ⟨b, found⟩
  obtain ⟨c, there⟩ := mem_keys_iff.1 mem
  exact ⟨c, there, h.values found there⟩

/-- Writing related values under one key keeps two maps related, if the other values stay so. -/
theorem insert {S : α → β → γ → Prop} (h : Related R m n) {a : α} {b : β} {c : γ}
    (related : S a b c)
    (others : ∀ {k x y}, k ≠ a → m.get? k = some x → R k x y → S k x y) :
    Related S (m.insert a b) (n.insert a c) := by
  refine ⟨by rw [keys_insert, keys_insert, h.keys], ?_⟩
  intro k x y here there
  rw [get?_insert] at here there
  by_cases eq : a = k
  · rw [if_pos eq] at here there
    cases here
    cases there
    exact eq ▸ related
  · rw [if_neg eq] at here there
    exact others (Ne.symm eq) here (h.values here there)

/-- Writing to a known key on one side keeps two maps related, if the values stay so. -/
theorem update {S : α → β → γ → Prop} (h : Related R m n) {a : α} {b : β} {c : γ}
    (known : m.get? a = some b) (related : S a b c)
    (others : ∀ {k x y}, k ≠ a → m.get? k = some x → R k x y → S k x y) :
    Related S m (n.insert a c) := by
  have mem : a ∈ n.keys := h.keys ▸ mem_keys_iff.2 ⟨b, known⟩
  refine ⟨by rw [keys_insert, if_pos mem, h.keys], ?_⟩
  intro k x y here there
  rw [get?_insert] at there
  by_cases eq : a = k
  · rw [if_pos eq] at there
    cases there
    subst eq
    cases here.symm.trans known
    exact related
  · rw [if_neg eq] at there
    exact others (Ne.symm eq) here (h.values here there)

/-- Adding one key on both sides, unless it is there, keeps two maps related. -/
theorem insertNew (h : Related R m n) {a : α} {b : β} {c : γ} (related : R a b c) :
    Related R (m.insertNew a b) (n.insertNew a c) := by
  rw [OrderedMap.insertNew, OrderedMap.insertNew, h.contains]
  split
  · exact h
  · exact h.insert related fun _ _ r => r

/-- Removing one key from both sides keeps two maps related, if the other values stay so. -/
theorem erase {S : α → β → γ → Prop} (h : Related R m n) (a : α)
    (others : ∀ {k x y}, k ≠ a → m.get? k = some x → R k x y → S k x y) :
    Related S (m.erase a) (n.erase a) := by
  refine ⟨by rw [keys_erase, keys_erase, h.keys], ?_⟩
  intro k x y here there
  rw [get?_erase] at here there
  by_cases eq : a = k
  · rw [if_pos eq] at here
    cases here
  · rw [if_neg eq] at here there
    exact others (Ne.symm eq) here (h.values here there)

end Related

end Keyed

end RdfStore.OrderedMap
