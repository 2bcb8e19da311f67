import Mathlib.Data.Set.Function
import RdfStore.Proofs.OrderedMap
import RdfStore.Proofs.Store.Ledger
import RdfStore.Proofs.Store.Simulation

/-!
# The store in memory shows a ledger

In memory a statement is recognised by its digest, in a ledger by its nodes. As long as no two
different triples of a set `T` have one digest, and only statements of `T` in normal form are
inserted, the two cannot be told apart: `MemoryStore.simulation`.

What the store holds for a graph is pinned down by one equation, `MemoryStore.Holds.entries`: the
triples of the ledger in their order, each under its digest and in its graph.
-/

namespace RdfStore

namespace MemoryStore

/-- What the store holds for a graph is a list of triples of `T`, each under its digest. -/
structure Holds (T : Set Triple) (graph : String) (held : OrderedMap Digest Statement)
    (triples : List Triple) : Prop where
  entries : held.entries = triples.map fun t => (t.digest, t.inGraph graph)
  known : ∀ t ∈ triples, t ∈ T

/-- A statement that may be inserted into a graph: in normal form, and its triple in `T`. -/
structure Admits (T : Set Triple) (graph : String) (x : Statement) : Prop where
  graph : x.graph = some (.named graph)
  concrete : x.placeholder? = none
  known : x.triple ∈ T

namespace Holds

variable {T : Set Triple} {graph : String} {held : OrderedMap Digest Statement}
  {triples : List Triple}

theorem empty (T : Set Triple) (graph : String) : Holds T graph .empty [] :=
  ⟨rfl, fun _ mem => by cases mem⟩

theorem size (h : Holds T graph held triples) : held.size = triples.length := by
  rw [OrderedMap.size, h.entries, List.length_map]

theorem values (h : Holds T graph held triples) :
    held.values = triples.map (Triple.inGraph graph) := by
  rw [OrderedMap.values, h.entries, List.map_map]
  rfl

/-- A digest is present exactly if its triple is: this is where digests must be apart. -/
theorem mem_keys_iff (h : Holds T graph held triples) (apart : Set.InjOn Triple.digest T)
    {t : Triple} (known : t ∈ T) : t.digest ∈ held.keys ↔ t ∈ triples := by
  -- the digests must stay folded: comparing them by their bytes is slow
  have keys : held.keys = triples.map Triple.digest := by
    rw [OrderedMap.keys, h.entries, List.map_map]
    exact List.map_congr_left fun _ _ => by simp only [Function.comp]
  rw [keys, List.mem_map]
  constructor
  · intro given
    rcases given with ⟨u, mem, eq⟩
    have same : u = t := apart (h.known u mem) known eq
    rw [← same]
    exact mem
  · intro mem
    exact ⟨t, mem, rfl⟩

/-- One statement more. -/
theorem insertNew (h : Holds T graph held triples) (apart : Set.InjOn Triple.digest T)
    {x : Statement} (admitted : Admits T graph x) :
    Holds T graph (held.insertNew x.tripleDigest x) (Triple.appendNew triples x.triple) := by
  have present := h.mem_keys_iff apart admitted.known
  rw [← Statement.tripleDigest_eq] at present
  unfold OrderedMap.insertNew Triple.appendNew
  by_cases mem : x.triple ∈ triples
  · rw [if_pos (OrderedMap.contains_iff_mem.2 (present.2 mem)), if_pos mem]
    exact h
  · have absent : x.tripleDigest ∉ held.keys := fun key => mem (present.1 key)
    rw [if_neg fun key => absent (OrderedMap.contains_iff_mem.1 key), if_neg mem]
    constructor
    · rw [OrderedMap.entries_insert_of_not_mem x absent, h.entries, List.map_append,
        List.map_singleton, Statement.inGraph_triple admitted.graph, Statement.tripleDigest_eq]
    · intro t old
      rcases List.mem_append.1 old with old | new
      · exact h.known t old
      · exact List.mem_singleton.1 new ▸ admitted.known

/-- A whole batch more. -/
theorem unite (apart : Set.InjOn Triple.digest T) (batch : List Statement) :
    ∀ {held triples}, Holds T graph held triples → (∀ x ∈ batch, Admits T graph x) →
      Holds T graph (Store.unite held batch)
        ((batch.map Statement.triple).foldl Triple.appendNew triples) := by
  induction batch with
  | nil => intro held triples h _; exact h
  | cons x rest ih =>
      intro held triples h admitted
      have step := h.insertNew apart (admitted x List.mem_cons_self)
      exact ih step fun y mem => admitted y (List.mem_cons_of_mem _ mem)

/-- What a test on statements leaves. -/
theorem filter (h : Holds T graph held triples) (keep : Statement → Bool) :
    Holds T graph (held.filter fun _ t => keep t)
      (triples.filter fun t => keep (t.inGraph graph)) := by
  constructor
  · change (held.entries.filter fun e => keep e.2) = _
    rw [h.entries, List.filter_map]
    rfl
  · intro t mem
    exact h.known t (List.mem_filter.1 mem).1

end Holds

/-! ## The simulation -/

/-- The store shows the graphs of a ledger, under fixed prefixes and a fixed default graph. -/
structure Shows (ns : Namespaces) (default : String) (T : Set Triple) (m : MemoryStore)
    (l : Ledger) : Prop where
  namespaces : m.namespaces = ns
  defaultGraph : m.defaultGraph = default
  ledgerNamespaces : l.namespaces = ns
  ledgerDefaultGraph : l.defaultGraph = default
  graphs : OrderedMap.Related (Holds T) m.graphs l.graphs

theorem shows_empty (ns : Namespaces) (default : String) (T : Set Triple) :
    Shows ns default T (.empty ns default) (.empty ns default) :=
  ⟨rfl, rfl, rfl, rfl, .empty⟩

namespace Shows

variable {ns : Namespaces} {default : String} {T : Set Triple} {m : MemoryStore} {l : Ledger}

/-- Both sides with other graphs. -/
theorem withGraphs (h : Shows ns default T m l)
    {graphs : OrderedMap String (OrderedMap Digest Statement)}
    {graphs' : OrderedMap String (List Triple)}
    (related : OrderedMap.Related (Holds T) graphs graphs') :
    Shows ns default T { m with graphs := graphs } { l with graphs := graphs' } :=
  ⟨h.namespaces, h.defaultGraph, h.ledgerNamespaces, h.ledgerDefaultGraph, related⟩

theorem statements (h : Shows ns default T m l) (graph : String) :
    m.statements graph = l.statements graph := by
  unfold MemoryStore.statements Ledger.statements
  cases found : m.graphs.get? graph with
  | none => rw [h.graphs.get?_eq_none.1 found]
  | some held =>
      obtain ⟨triples, there, holds⟩ := h.graphs.exists_right found
      simp only [there, holds.values]

/-- Both sides extend the name of a graph alike. -/
theorem extend (h : Shows ns default T m l) (graph : String) :
    l.namespaces.extend graph = m.namespaces.extend graph := by
  rw [h.namespaces, h.ledgerNamespaces]

theorem create (h : Shows ns default T m l) (graph : String) :
    (GraphStore.create m graph).Agree (Shows ns default T) (GraphStore.create l graph) := by
  refine ⟨rfl, ?_⟩
  change Shows ns default T (m.create graph)
    { l with graphs := l.graphs.insertNew (l.namespaces.extend graph) [] }
  rw [h.extend]
  exact h.withGraphs (h.graphs.insertNew (Holds.empty T _))

theorem drop (h : Shows ns default T m l) (graph : String) :
    (GraphStore.drop m graph).Agree (Shows ns default T) (GraphStore.drop l graph) := by
  refine ⟨rfl, ?_⟩
  change Shows ns default T (m.drop graph)
    { l with graphs := l.graphs.erase (l.namespaces.extend graph) }
  rw [h.extend]
  exact h.withGraphs (h.graphs.erase _ fun _ _ r => r)

theorem insert (apart : Set.InjOn Triple.digest T) (h : Shows ns default T m l)
    {graph : String} {batch : List Statement} (admitted : ∀ x ∈ batch, Admits T graph x) :
    (m.insert graph batch).Agree (Shows ns default T) (l.insert graph batch) := by
  unfold MemoryStore.insert Ledger.insert
  cases found : m.graphs.get? graph with
  | none => rw [h.graphs.get?_eq_none.1 found]; exact ⟨rfl, h⟩
  | some held =>
      obtain ⟨triples, there, holds⟩ := h.graphs.exists_right found
      have concrete : batch.findSome? Statement.placeholder? = none :=
        List.findSome?_eq_none_iff.2 fun x mem => (admitted x mem).concrete
      have grown := Holds.unite apart batch holds admitted
      simp only [there, concrete, grown.size, holds.size]
      exact ⟨rfl, h.withGraphs (h.graphs.insert grown fun _ _ r => r)⟩

theorem remove (h : Shows ns default T m l) (graph : String) (pattern : Statement) :
    (m.remove graph pattern).Agree (Shows ns default T) (l.remove graph pattern) := by
  unfold MemoryStore.remove Ledger.remove
  cases found : m.graphs.get? graph with
  | none => rw [h.graphs.get?_eq_none.1 found]; exact ⟨rfl, h⟩
  | some held =>
      obtain ⟨triples, there, holds⟩ := h.graphs.exists_right found
      have kept := holds.filter fun t => !t.fits pattern
      simp only [there, kept.size, holds.size]
      exact ⟨rfl, h.withGraphs (h.graphs.insert kept fun _ _ r => r)⟩

end Shows

/-- While digests are apart, the store in memory and the ledger cannot be told apart. -/
theorem simulation (ns : Namespaces) (default : String) {T : Set Triple}
    (apart : Set.InjOn Triple.digest T) :
    Simulation (Shows ns default T) (Admits T) where
  namespaces h := h.namespaces.trans h.ledgerNamespaces.symm
  defaultGraph h := h.defaultGraph.trans h.ledgerDefaultGraph.symm
  graphs h := h.graphs.keys
  contains h graph := h.graphs.contains graph
  statements h graph := h.statements graph
  create h graph := h.create graph
  drop h graph := h.drop graph
  insert h _ _ admitted := h.insert apart admitted
  remove h graph pattern := h.remove graph pattern

end MemoryStore

end RdfStore
