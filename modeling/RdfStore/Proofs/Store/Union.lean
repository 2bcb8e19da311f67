import RdfStore.Proofs.Query.Rows
import RdfStore.Proofs.Store.Appending

/-!
# The union of graphs

A query runs over the union of its graphs, which is built graph by graph and keeps the first
statement with each triple digest. It fails exactly if one of the graphs is neither registered nor
the default graph (`Store.unionOf_eq`). While the digests of different triples are apart, it has each
triple of the graphs once and no other (`Store.mem_unionTriples`), so what it has does not depend on
the order of the graphs, and a query's rows are the rows over these triples (`Store.query_eq`).
-/

namespace RdfStore

open GraphStore

namespace Store

/-! ## Triples of a union -/

theorem map_tripleDigest (statements : List Statement) :
    statements.map Statement.tripleDigest =
      (statements.map Statement.triple).map Triple.digest := by
  rw [List.map_map]
  exact List.map_congr_left fun t _ => t.tripleDigest_eq

/-- A union has no triple twice. -/
theorem nodup_triples_unite (statements : List Statement) :
    ((unite .empty statements).values.map Statement.triple).Nodup := by
  have digests := (keyed_empty.unite statements).digests_nodup
  rw [map_tripleDigest] at digests
  exact List.Nodup.of_map Triple.digest digests

/-- A union has every triple, if different triples have different digests. -/
theorem mem_triples_unite {statements : List Statement}
    (apart : Triple.Apart (statements.map Statement.triple)) {t : Triple} :
    t ∈ (unite .empty statements).values.map Statement.triple ↔
      t ∈ statements.map Statement.triple := by
  have part : (unite .empty statements).values ⊆ statements :=
    (values_unite_sublist statements .empty).subset
  constructor
  · exact fun mem => List.map_subset _ part mem
  · intro mem
    obtain ⟨x, given, rfl⟩ := List.mem_map.1 mem
    have key := (mem_keys_unite (m := .empty)).2 (Or.inr (List.mem_map_of_mem given))
    rw [(keyed_empty.unite statements).keys_eq, List.mem_map] at key
    obtain ⟨y, kept, same⟩ := key
    rw [y.tripleDigest_eq, x.tripleDigest_eq] at same
    have there := List.mem_map_of_mem (f := Statement.triple) kept
    rwa [apart y.triple (List.mem_map_of_mem (part kept)) x.triple mem same] at there

/-! ## Readable stores -/

variable {σ : Type} [GraphStore σ]

/-- The statements of a graph in order; a graph that cannot be read has none. -/
def listed (s : σ) (graph : String) : List Statement :=
  match GraphStore.statements s graph with
  | .ok stored => stored
  | .error _ => []

theorem triplesOf_eq_map (s : σ) (graph : String) :
    triplesOf s graph = (listed s graph).map Statement.triple := by
  rw [triplesOf, listed]
  cases GraphStore.statements s graph <;> rfl

/-- Exactly the registered graphs can be read, and each of them is listed. -/
structure Readable (s : σ) : Prop where
  present : ∀ graph, contains s graph = true → ∃ stored, GraphStore.statements s graph = .ok stored
  absent : ∀ graph, contains s graph = false → ∃ e, GraphStore.statements s graph = .error e
  known : ∀ graph, contains s graph = true → graph ∈ graphs s

namespace Readable

variable {s : σ} {graph : String}

theorem statements_eq (h : Readable s) (registered : contains s graph = true) :
    GraphStore.statements s graph = .ok (listed s graph) := by
  obtain ⟨stored, read⟩ := h.present graph registered
  rw [listed, read]

theorem listed_eq_nil (h : Readable s) (missing : contains s graph = false) :
    listed s graph = [] := by
  obtain ⟨e, unread⟩ := h.absent graph missing
  rw [listed, unread]

theorem contains_of_read (h : Readable s) {stored : List Statement}
    (read : GraphStore.statements s graph = .ok stored) : contains s graph = true := by
  by_contra missing
  obtain ⟨e, unread⟩ := h.absent graph (Bool.eq_false_of_not_eq_true missing)
  cases read.symm.trans unread

theorem triplesOf_subset (h : Readable s) (graph : String) : triplesOf s graph ⊆ triples s := by
  intro t mem
  cases there : contains s graph with
  | true => exact List.mem_flatMap.2 ⟨graph, h.known graph there, mem⟩
  | false =>
      rw [triplesOf_eq_map, h.listed_eq_nil there] at mem
      cases mem

end Readable

/-! ## Uniting graphs -/

theorem firstUnknown_cons (s : σ) (graph : String) (rest : List String) :
    firstUnknown s (graph :: rest) =
      if contains s graph = true ∨ graph = defaultGraph s then firstUnknown s rest
      else some graph := by
  rw [firstUnknown, List.find?_cons]
  by_cases there : contains s graph = true <;> by_cases own : graph = defaultGraph s <;>
    simp [there, own, firstUnknown]

/-- All graphs are known exactly if each is registered or the default graph. -/
theorem firstUnknown_eq_none_iff {s : σ} {graphs : List String} :
    firstUnknown s graphs = none ↔
      ∀ graph ∈ graphs, contains s graph = true ∨ graph = defaultGraph s := by
  rw [firstUnknown, List.find?_eq_none]
  refine forall₂_congr fun graph _ => ?_
  rw [Bool.and_eq_true, decide_eq_true_iff, Bool.not_eq_true', not_and, Bool.not_eq_false,
    or_comm, Decidable.or_iff_not_imp_left]

/-- The union has the statements of all graphs, or fails for the first unknown graph. -/
theorem unionOf_eq {s : σ} (readable : Readable s) (graphs : List String) :
    ∀ known, unionOf s known graphs =
      match firstUnknown s graphs with
      | some graph => .error (.graphNotFound graph)
      | none => .ok (unite known (graphs.flatMap (listed s))) := by
  induction graphs with
  | nil => intro known; rfl
  | cons graph rest ih =>
      intro known
      rw [unionOf, firstUnknown_cons, List.flatMap_cons]
      by_cases there : contains s graph = true
      · rw [if_pos there, if_pos (Or.inl there), readable.statements_eq there]
        dsimp only
        rw [ih]
        simp only [unite, List.foldl_append]
      · by_cases own : graph = defaultGraph s
        · rw [if_neg there, if_pos own, if_pos (Or.inr own), ih,
            readable.listed_eq_nil (Bool.eq_false_of_not_eq_true there), List.nil_append]
        · rw [if_neg there, if_neg own, if_neg (not_or.2 ⟨there, own⟩)]

/-- Whatever is united stands in one of the graphs. -/
theorem mem_of_unionOf {s : σ} (graphs : List String) :
    ∀ {known union : OrderedMap Digest Statement}, unionOf s known graphs = .ok union →
      ∀ t ∈ union.values, t ∈ known.values ∨ ∃ graph ∈ graphs, t.triple ∈ triplesOf s graph := by
  induction graphs with
  | nil =>
      intro known union united t mem
      cases united
      exact Or.inl mem
  | cons graph rest ih =>
      intro known union united t mem
      have later {known' : OrderedMap Digest Statement} (united : unionOf s known' rest = .ok union) :
          t ∈ known'.values ∨ ∃ g ∈ graph :: rest, t.triple ∈ triplesOf s g := by
        rcases ih united t mem with old | new
        · exact Or.inl old
        · obtain ⟨g, there, stored⟩ := new
          exact Or.inr ⟨g, List.mem_cons_of_mem _ there, stored⟩
      rw [unionOf] at united
      split at united
      · cases read : GraphStore.statements s graph with
        | error e =>
            rw [read] at united
            cases united
        | ok found =>
            rw [read] at united
            rcases later united with old | new
            · rcases List.mem_append.1 ((values_unite_sublist found known).subset old) with old | here
              · exact Or.inl old
              · refine Or.inr ⟨graph, List.mem_cons_self, ?_⟩
                rw [triplesOf, read]
                exact List.mem_map_of_mem here
            · exact Or.inr new
      · split at united
        · exact later united
        · cases united

/-- The triples of the union of graphs. -/
def unionTriples (s : σ) (graphs : List String) : List Triple :=
  (unite .empty (graphs.flatMap (listed s))).values.map Statement.triple

theorem unionTriples_nodup (s : σ) (graphs : List String) : (unionTriples s graphs).Nodup :=
  nodup_triples_unite _

/-- The union has the triples of its graphs and no other. -/
theorem mem_unionTriples {s : σ} (readable : Readable s) (apart : Triple.Apart (triples s))
    {graphs : List String} {t : Triple} :
    t ∈ unionTriples s graphs ↔ ∃ graph ∈ graphs, t ∈ triplesOf s graph := by
  have all : (graphs.flatMap (listed s)).map Statement.triple = graphs.flatMap (triplesOf s) := by
    rw [List.map_flatMap, funext (triplesOf_eq_map s)]
  have within : graphs.flatMap (triplesOf s) ⊆ triples s := by
    intro u mem
    obtain ⟨graph, -, here⟩ := List.mem_flatMap.1 mem
    exact readable.triplesOf_subset graph here
  rw [unionTriples, mem_triples_unite, all, List.mem_flatMap]
  rw [all]
  exact fun u here v there => apart u (within here) v (within there)

/-- A query that is ready to run fails for the first unknown graph, or answers the rows over the
triples of its graphs. -/
theorem query_eq {s : σ} (readable : Readable s) {text : String} {plan : Query.Plan}
    (prepared : Query.Plan.prepare text (namespaces s) (defaultGraph s) = .ok plan) :
    query s text none =
      match firstUnknown s plan.graphs with
      | some graph => .error (.graphNotFound graph)
      | none => .ok ⟨plan.selected, plan.rowsOver (unionTriples s plan.graphs)⟩ := by
  rw [query, prepared]
  dsimp only
  rw [unionOf_eq readable]
  cases firstUnknown s plan.graphs with
  | some graph => rfl
  | none =>
      dsimp only
      rw [unionTriples, ← Query.Plan.rows_run]
      rfl

end Store

/-! ## Both kinds of storage -/

theorem MemoryStore.readable (m : MemoryStore) : Store.Readable m := by
  refine ⟨fun graph there => ?_, fun graph missing => ?_, fun graph there => ?_⟩
  · obtain ⟨held, found⟩ := OrderedMap.mem_keys_iff.1 (OrderedMap.contains_iff_mem.1 there)
    refine ⟨held.values, ?_⟩
    change m.statements graph = _
    rw [statements, found]
  · refine ⟨.graphNotFound graph, ?_⟩
    change m.statements graph = _
    rw [statements, OrderedMap.get?_eq_none_of_contains missing]
  · exact OrderedMap.contains_iff_mem.1 there

theorem DurableStore.Sound.registry_readable {d : DurableStore} (h : d.Sound) :
    Store.Readable d := by
  refine ⟨fun graph there => ?_, fun graph missing => ?_, fun graph there => ?_⟩
  · obtain ⟨stored, read, -⟩ := h.readable graph there
    exact ⟨stored, read⟩
  · exact ⟨.graphNotFound graph,
      statements_of_absent (OrderedMap.get?_eq_none_of_contains missing)⟩
  · exact OrderedMap.contains_iff_mem.1 there

theorem Storage.Reachable.readable {s : Storage} (reachable : s.Reachable) :
    Store.Readable s := by
  cases s with
  | memory m => exact ⟨m.readable.present, m.readable.absent, m.readable.known⟩
  | durable d =>
      rcases reachable with ⟨ns, default, events, rfl⟩
      have readable := (DurableStore.Sound.after ns default events).registry_readable
      exact ⟨readable.present, readable.absent, readable.known⟩

end RdfStore
