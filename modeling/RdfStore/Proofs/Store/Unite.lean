import RdfStore.Proofs.Firsts
import RdfStore.Proofs.OrderedMap
import RdfStore.Store

/-!
# Statements under their digests

Uniting keeps what a map holds and appends the statements whose digests are new to it, the first with
each digest (`Store.entries_unite`). Everything else about unions follows: which digests they hold
(`Store.mem_keys_unite`), where their statements come from, how large they are, and when nothing is
lost or nothing is added.
-/

namespace RdfStore.Store

variable {m : OrderedMap Digest Statement} {statements : List Statement} {digest : Digest}

/-- Every statement stands under its triple digest. -/
def Keyed (m : OrderedMap Digest Statement) : Prop := ∀ e ∈ m.entries, e.1 = e.2.tripleDigest

/-! ## What uniting appends -/

/-- Uniting appends the statements whose digests are new, the first with each digest. -/
theorem entries_unite (statements : List Statement) (m : OrderedMap Digest Statement) :
    (unite m statements).entries = m.entries ++
      (newBy Statement.tripleDigest m.keys statements).map fun t => (t.tripleDigest, t) :=
  OrderedMap.entries_foldl_insertNew Statement.tripleDigest statements m

theorem values_unite (statements : List Statement) (m : OrderedMap Digest Statement) :
    (unite m statements).values =
      m.values ++ newBy Statement.tripleDigest m.keys statements := by
  rw [OrderedMap.values, entries_unite, List.map_append, List.map_map]
  exact congrArg (m.values ++ ·) (List.map_id _)

theorem keys_unite (statements : List Statement) (m : OrderedMap Digest Statement) :
    (unite m statements).keys =
      m.keys ++ (newBy Statement.tripleDigest m.keys statements).map Statement.tripleDigest :=
  OrderedMap.keys_foldl_insertNew Statement.tripleDigest statements m

theorem size_unite (m : OrderedMap Digest Statement) (statements : List Statement) :
    (unite m statements).size =
      m.size + (newBy Statement.tripleDigest m.keys statements).length := by
  rw [OrderedMap.size, entries_unite, List.length_append, List.length_map, OrderedMap.size]

theorem values_prefix_unite (statements : List Statement) (m : OrderedMap Digest Statement) :
    m.values <+: (unite m statements).values := by
  rw [values_unite]
  exact List.prefix_append _ _

theorem values_unite_sublist (statements : List Statement) (m : OrderedMap Digest Statement) :
    List.Sublist (unite m statements).values (m.values ++ statements) := by
  rw [values_unite]
  exact (newBy_sublist _ _ statements).append_left m.values

/-- A union has the digests that were there and those of the statements. -/
theorem mem_keys_unite : digest ∈ (unite m statements).keys ↔
    digest ∈ m.keys ∨ digest ∈ statements.map Statement.tripleDigest := by
  rw [keys_unite]
  exact mem_keys_newBy

/-- Whatever a union holds it held before or was handed, under its digest. -/
theorem mem_entries_unite {e : Digest × Statement} (statements : List Statement)
    (mem : e ∈ (unite m statements).entries) :
    e ∈ m.entries ∨ ∃ x ∈ statements, e = (x.tripleDigest, x) := by
  rw [entries_unite, List.mem_append] at mem
  refine mem.imp_right fun new => ?_
  obtain ⟨x, here, rfl⟩ := List.mem_map.1 new
  exact ⟨x, (newBy_sublist _ _ statements).subset here, rfl⟩

/-! ## When nothing is added, and when nothing is lost -/

/-- Uniting with statements whose digests are there changes nothing. -/
theorem unite_of_known (known : ∀ t ∈ statements, t.tripleDigest ∈ m.keys) :
    unite m statements = m := by
  apply OrderedMap.ext
  rw [entries_unite, newBy_of_known known, List.map_nil, List.append_nil]

/-- Statements with new digests, each once, are all kept in their order. -/
theorem values_unite_of_nodup (nodup : (m.keys ++ statements.map Statement.tripleDigest).Nodup) :
    (unite m statements).values = m.values ++ statements := by
  rw [values_unite, newBy_of_nodup nodup]

/-- Of two statements with one digest the first stays. -/
theorem values_unite_pair {t u : Statement} (same : u.tripleDigest = t.tripleDigest) :
    (unite .empty [t, u]).values = [t] := by
  have old : u.tripleDigest ∈ [t.tripleDigest] := List.mem_singleton.2 same
  have nothing : (OrderedMap.empty : OrderedMap Digest Statement).keys = [] := rfl
  rw [values_unite, nothing, newBy_cons_of_not_mem List.not_mem_nil, newBy_cons_of_mem old,
    newBy_nil]
  rfl

/-! ## Keyed maps -/

theorem keyed_empty : Keyed .empty := fun _ mem => by cases mem

namespace Keyed

theorem unite (h : Keyed m) (statements : List Statement) : Keyed (unite m statements) := by
  intro e mem
  rcases mem_entries_unite statements mem with old | ⟨x, -, rfl⟩
  · exact h e old
  · dsimp only

theorem insertNew (h : Keyed m) (t : Statement) : Keyed (m.insertNew t.tripleDigest t) := h.unite [t]

theorem keys_eq (h : Keyed m) : m.keys = m.values.map Statement.tripleDigest := by
  simp only [OrderedMap.keys, OrderedMap.values, List.map_map, Function.comp_def]
  exact List.map_congr_left h

theorem digests_nodup (h : Keyed m) : (m.values.map Statement.tripleDigest).Nodup :=
  h.keys_eq ▸ m.keys_nodup

/-- Uniting the statements of one graph keeps each of them. -/
theorem unite_values (h : Keyed m) : Store.unite .empty m.values = m := by
  have nodup : ((OrderedMap.empty : OrderedMap Digest Statement).keys ++
      m.values.map Statement.tripleDigest).Nodup := h.digests_nodup
  apply OrderedMap.ext
  rw [entries_unite, newBy_of_nodup nodup, OrderedMap.values, List.map_map]
  refine (List.map_congr_left fun e mem => ?_).trans (List.map_id m.entries)
  rw [Function.comp_apply, ← h e mem, id]

end Keyed

/-- Uniting loses nothing exactly if no digest occurs twice. -/
theorem values_unite_eq_iff :
    (unite .empty statements).values = statements ↔
      (statements.map Statement.tripleDigest).Nodup := by
  constructor
  · intro same
    rw [← same]
    exact (keyed_empty.unite statements).digests_nodup
  · exact fun nodup => values_unite_of_nodup (m := .empty) nodup

end RdfStore.Store
