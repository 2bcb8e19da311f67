import RdfStore.Proofs.Query.Declaration
import RdfStore.Proofs.Store.Stored

/-!
# Where all that a store holds comes from

A run of changes starts from an empty store and keeps its prefixes and its default graph. Whatever
the store holds afterwards was supplied by the run: a triple is made of a valid statement that was
added (`Triple.MadeOf`), and the name of a graph is the full form of a name that was created, or of
the default graph's (`Store.Named`). Changes that fail are no exception, although an addition may
have created the default graph by then.

* `Named.run`, `Named.after`: the names of graphs, one change and a run of changes.
* `Invariant.after_changes`: what is kept by inserting what additions make holds after a run.
* `Storage.New.named`, `Storage.New.madeOf`: the names and the triples, for both kinds of storage.
* `MemoryStore.wellFormed_after`: what the graphs of the store in memory look like.
-/

namespace RdfStore

open GraphStore Store

variable {σ τ : Type}

/-! ## Runs of changes -/

namespace Change

/-- The statements that a change hands to a store. -/
def handed : Change → List Statement
  | add _ statements _ => statements
  | create _ | drop _ | delete _ _ | remove _ _ => []

/-- The name that a change creates a graph under. -/
def created : Change → List String
  | create graph => [graph]
  | drop _ | add _ _ _ | delete _ _ | remove _ _ => []

theorem adds_or_deletes (c : Change) : c.Adds ∨ c.Deletes := by
  cases c with
  | create | add => exact Or.inl trivial
  | drop | delete | remove => exact Or.inr trivial

/-- The store after a run of changes, first to last. -/
def after [GraphStore σ] (s : σ) (changes : List Change) : σ :=
  changes.foldl (fun s c => (c.run s).store) s

/-- A run of changes is a history in which the store is not opened again. -/
theorem after_eq [GraphStore σ] (reopened : Namespaces → String → σ → σ) (s : σ)
    (changes : List Change) :
    Event.after reopened s (changes.map .change) = after s changes :=
  List.foldl_map

end Change

/-- Related stores stay related through a run of changes. -/
theorem Simulation.changes [GraphStore σ] [GraphStore τ] {rel : σ → τ → Prop}
    (sim : Simulation rel fun _ _ => True) {s : σ} {t : τ} (h : rel s t) (changes : List Change) :
    rel (Change.after s changes) (Change.after t changes) := by
  rw [← Change.after_eq (fun _ _ s => s), ← Change.after_eq (fun _ _ t => t)]
  exact sim.after (fun h _ _ => h) _ h

/-- No change alters the prefixes. -/
theorem Growing.namespaces_run [GraphStore σ] (growing : Growing σ) (s : σ) (c : Change) :
    namespaces (c.run s).store = namespaces s := by
  rcases c.adds_or_deletes with adds | deletes
  · exact (growing.adds s adds).namespaces
  · exact (growing.deletes s deletes).namespaces.symm

/-! ## Names of graphs -/

/-- A store with given prefixes and a given default graph, each graph of which is called by the full
form of one of some names or of the default graph's. -/
structure Store.Named [GraphStore σ] (ns : Namespaces) (default : String) (names : List String)
    (s : σ) : Prop where
  namespaces : namespaces s = ns
  defaultGraph : defaultGraph s = default
  names : ∀ g, contains s g = true → ∃ u ∈ default :: names, ns.extend u = g

namespace Shelved

variable [GraphStore σ] {β : Type} {table : σ → OrderedMap String β} {s : σ} {graph g : String}

theorem keys_of_write {m m' : OrderedMap String β}
    (written : m' = m ∨ g ∈ m.keys ∧ ∃ b, m' = m.insert g b) : m'.keys = m.keys := by
  rcases written with rfl | ⟨known, b, rfl⟩
  · rfl
  · rw [OrderedMap.keys_insert, if_pos known]

theorem contains_insert (shelved : Shelved table) (batch : List Statement) :
    GraphStore.contains (GraphStore.insert s graph batch).store g = GraphStore.contains s g := by
  rw [shelved.contains, shelved.contains, OrderedMap.contains, OrderedMap.contains,
    keys_of_write (shelved.insert s graph batch)]

theorem of_contains_create (shelved : Shelved table)
    (there : GraphStore.contains (GraphStore.create s graph).store g = true) :
    GraphStore.contains s g = true ∨ (namespaces s).extend graph = g := by
  obtain ⟨b, created⟩ := shelved.create s graph
  rw [shelved.contains, created, OrderedMap.contains_iff_mem, OrderedMap.keys_insertNew] at there
  rw [shelved.contains, OrderedMap.contains_iff_mem]
  split at there
  · exact Or.inl there
  · exact (List.mem_append.1 there).imp_right fun new => (List.mem_singleton.1 new).symm

/-- Writing a batch for a known graph registers no graph but the default graph, in full. -/
theorem of_contains_writeBatch (shelved : Shelved table) {batch : List Statement}
    (known : GraphStore.contains s graph = true ∨ graph = defaultGraph s)
    (there : GraphStore.contains (Store.writeBatch s graph batch).store g = true) :
    GraphStore.contains s g = true ∨ (namespaces s).extend (defaultGraph s) = g := by
  unfold Store.writeBatch at there
  split at there
  · rw [shelved.contains_insert] at there
    exact Or.inl there
  · rename_i missing
    rw [← known.resolve_left missing]
    refine shelved.of_contains_create ?_
    rcases made : GraphStore.create s graph with ⟨result, s'⟩
    rw [made] at there
    cases result with
    | error e => exact there
    | ok u =>
        rw [shelved.contains_insert] at there
        exact there

/-- Batches for known graphs: by induction, because what is registered stays so. -/
theorem of_contains_writeBatches (shelved : Shelved table) (growing : Growing σ)
    (batches : List (String × List Statement)) :
    ∀ {s : σ}, (∀ e ∈ batches, GraphStore.contains s e.1 = true ∨ e.1 = defaultGraph s) →
      GraphStore.contains (Store.writeBatches s batches).store g = true →
      GraphStore.contains s g = true ∨ (namespaces s).extend (defaultGraph s) = g := by
  induction batches with
  | nil => intro s _ there; exact Or.inl there
  | cons e rest ih =>
      intro s known there
      obtain ⟨here, known⟩ := List.forall_mem_cons.1 known
      have first := @of_contains_writeBatch _ _ _ _ s e.1 g shelved e.2 here
      have grown : Grown s (Store.writeBatch s e.1 e.2).store :=
        (growing.invariant s).writeBatch (.refl s) trivial
      simp only [Store.writeBatches] at there
      rcases made : Store.writeBatch s e.1 e.2 with ⟨result, s'⟩
      rw [made] at first grown there
      cases result with
      | error e => exact first there
      | ok count =>
          have known' : ∀ e ∈ rest, GraphStore.contains s' e.1 = true ∨ e.1 = defaultGraph s' := by
            intro e mem
            rw [grown.defaultGraph]
            exact (known e mem).imp_left (grown.contains e.1)
          rcases ih known' there with old | new
          · exact first old
          · rw [← grown.namespaces, ← grown.defaultGraph]
            exact Or.inr new

theorem of_contains_add (shelved : Shelved table) (growing : Growing σ) {draws : Draws}
    {statements : List Statement} {explicit : Option String}
    (there : GraphStore.contains (Store.add s draws statements explicit).store g = true) :
    GraphStore.contains s g = true ∨ (namespaces s).extend (defaultGraph s) = g := by
  unfold Store.add at there
  split at there
  · exact Or.inl there
  · rename_i batches made
    split at there
    · exact Or.inl there
    · rename_i known
      rw [firstUnknown_eq_none_iff] at known
      refine shelved.of_contains_writeBatches growing batches.entries (fun e mem => ?_) there
      exact known e.1 (List.mem_map_of_mem mem)

end Shelved

namespace Store.Named

variable [GraphStore σ] [GraphStore τ] {β : Type} {table : σ → OrderedMap String β}
  {ns : Namespaces} {default : String} {names : List String} {s : σ}

/-- One change, which creates a graph under one of the names if at all. -/
theorem run (shelved : Shelved table) (growing : Growing σ) (h : Named ns default names s)
    {c : Change} (created : c.created ⊆ names) : Named ns default names (c.run s).store := by
  have adds (adds : c.Adds) (new : ∀ g, contains (c.run s).store g = true →
      contains s g = true ∨ ∃ u ∈ default :: names, ns.extend u = g) :
      Named ns default names (c.run s).store := by
    have grown := growing.adds s adds
    refine ⟨grown.namespaces.trans h.namespaces, grown.defaultGraph.trans h.defaultGraph, ?_⟩
    exact fun g there => (new g there).elim (h.names g) id
  have deletes (deletes : c.Deletes) : Named ns default names (c.run s).store := by
    have grown := growing.deletes s deletes
    exact ⟨grown.namespaces.symm.trans h.namespaces, grown.defaultGraph.symm.trans h.defaultGraph,
      fun g there => h.names g (grown.contains g there)⟩
  cases c with
  | drop | delete | remove => exact deletes trivial
  | create graph =>
      refine adds trivial fun g there => (shelved.of_contains_create there).imp_right fun same => ?_
      rw [h.namespaces] at same
      exact ⟨graph, List.mem_cons_of_mem _ (created (List.mem_singleton_self graph)), same⟩
  | add draws statements graph =>
      refine adds trivial fun g there => ?_
      refine (shelved.of_contains_add growing there).imp_right fun same => ?_
      rw [h.namespaces, h.defaultGraph] at same
      exact ⟨default, List.mem_cons_self, same⟩

/-- A run of changes. -/
theorem after (shelved : Shelved table) (growing : Growing σ) (changes : List Change) :
    ∀ {s : σ}, Named ns default names s → changes.flatMap Change.created ⊆ names →
      Named ns default names (Change.after s changes) := by
  induction changes with
  | nil => intro s h _; exact h
  | cons c rest ih =>
      intro s h created
      rw [List.flatMap_cons, List.append_subset] at created
      exact ih (h.run shelved growing created.1) created.2

theorem of_simulation {rel : σ → τ → Prop} {Admits : String → Statement → Prop}
    (sim : Simulation rel Admits) {t : τ} (related : rel s t) (h : Named ns default names t) :
    Named ns default names s where
  namespaces := (sim.namespaces related).trans h.namespaces
  defaultGraph := (sim.defaultGraph related).trans h.defaultGraph
  names g there := h.names g ((sim.contains related g).symm.trans there)

end Store.Named

/-! ## What is handed to a store -/

/-- A property that is kept by inserting what additions make of some statements holds after a run of
changes that adds no others: by induction, because the prefixes stay. -/
theorem Invariant.after_changes [GraphStore σ] {Insertable : String → List Statement → Prop}
    {P : σ → Prop} (inv : Invariant Insertable (fun _ => True) P)
    (drop : ∀ {s : σ}, P s → ∀ graph, P (GraphStore.drop s graph).store) (growing : Growing σ)
    {ns : Namespaces} {supplied : List Statement}
    (insertable : ∀ {graph batch},
      (∀ x ∈ batch, x.graph = some (.named graph) ∧ x.triple.MadeOf ns supplied) →
        Insertable graph batch)
    (changes : List Change) :
    ∀ {s : σ}, namespaces s = ns → changes.flatMap Change.handed ⊆ supplied → P s →
      P (Change.after s changes) := by
  induction changes with
  | nil => intro s _ _ h; exact h
  | cons c rest ih =>
      intro s prefixes handed h
      rw [List.flatMap_cons, List.append_subset] at handed
      have within : (Event.change c).Within Insertable (fun _ => True) s := by
        cases c with
        | create | drop | remove => trivial
        | delete pattern graph => exact fun _ _ _ _ => trivial
        | add draws statements graph =>
            intro batches made e mem
            refine insertable fun x inBatch => ?_
            obtain ⟨placed, madeOf⟩ := madeOf_of_batchesFrom made e mem x inBatch
            rw [prefixes] at madeOf
            exact ⟨placed, madeOf.mono handed.1⟩
      have step : P ((Event.change c).apply (fun _ _ s => s) s) :=
        inv.apply drop (fun h _ _ => h) h within
      exact ih ((growing.namespaces_run s c).trans prefixes) handed.2 step

/-- Every entry of the store in memory stands under its digest, lies in its graph and is made of a
statement that was added. -/
theorem MemoryStore.entries_after (ns : Namespaces) (default : String) (changes : List Change) :
    (Change.after (MemoryStore.empty ns default) changes).Entries fun graph digest x =>
      digest = x.tripleDigest ∧ x.graph = some (.named graph) ∧
        x.triple.MadeOf ns (changes.flatMap Change.handed) :=
  (entries_invariant _).after_changes (fun h graph => h.drop graph) growing
    (fun made x inBatch => ⟨rfl, made x inBatch⟩) changes rfl (List.Subset.refl _)
    fun _ _ found => by cases found

theorem Ledger.madeOf_after (ns : Namespaces) (default : String) (changes : List Change) :
    Only (Triple.MadeOf ns (changes.flatMap Change.handed))
      (Change.after (Ledger.empty ns default) changes) :=
  (sourced.invariant _).after_changes
    (fun {l} h graph g t mem => h g t (sourced.drop l graph g mem)) growing
    (fun made x inBatch => (made x inBatch).2) changes rfl (List.Subset.refl _)
    fun _ _ mem => by cases mem

/-! ## The store in memory -/

/-- A label as it is generated: a fixed word and thirty-two lower-case hexadecimal digits. -/
def IsGenerated (label : String) : Prop :=
  ∃ digits : List Char, digits.length = 32 ∧ (∀ c ∈ digits, c ∈ hexAlphabet) ∧
    label = "genid" ++ String.ofList digits

theorem isGenerated_generatedLabel (draw : BitVec 128) : IsGenerated (generatedLabel draw) :=
  ⟨hexDigits 32 draw.toNat, length_hexDigits 32 _, fun _ => mem_hexAlphabet 32, rfl⟩

theorem Node.uris_full (ns : Namespaces) (rename : String → String) (n : Node) :
    ((n.extend ns).relabel rename).uris = n.uris.map ns.extend := by
  cases n with
  | literal l =>
      change (l.datatype.map ns.extend).toList = l.datatype.toList.map ns.extend
      cases l.datatype <;> rfl
  | named | blank | pattern => rfl

namespace Triple.MadeOf

variable {ns : Namespaces} {statements : List Statement} {t : Triple}

/-- All labels are generated. -/
theorem labels (h : t.MadeOf ns statements) : ∀ label ∈ t.labels, IsGenerated label := by
  obtain ⟨x, -, -, rename, generated, rfl⟩ := h
  intro label mem
  obtain ⟨a, here, rfl⟩ := Triple.exists_of_mem_labels_relabel mem
  rw [Statement.labels_extend] at here
  obtain ⟨draw, same⟩ := generated a here
  rw [same]
  exact isGenerated_generatedLabel draw

/-- All URIs are full forms of supplied ones. -/
theorem uris (h : t.MadeOf ns statements) :
    ∀ u ∈ t.uris, ∃ v ∈ statements.flatMap fun x => x.triple.uris, ns.extend v = u := by
  obtain ⟨x, given, -, rename, -, rfl⟩ := h
  intro u mem
  rw [Triple.uris, Statement.nodes_full, List.flatMap_map] at mem
  obtain ⟨n, occurs, here⟩ := List.mem_flatMap.1 mem
  rw [Node.uris_full] at here
  obtain ⟨v, supplied, same⟩ := List.mem_map.1 here
  exact ⟨v, List.mem_flatMap.2 ⟨x, given, List.mem_flatMap.2 ⟨n, occurs, supplied⟩⟩, same⟩

end Triple.MadeOf

/-- A store in memory that holds nothing but what additions of some statements make, in graphs that
are called by the full forms of some names. -/
structure MemoryStore.WellFormed (ns : Namespaces) (names : List String)
    (supplied : List Statement) (m : MemoryStore) : Prop where
  names : ∀ graph ∈ m.graphs.keys, ∃ u ∈ names, ns.extend u = graph
  digests : m.Entries fun _ digest x => digest = x.tripleDigest
  /-- No two statements of a graph have one canonical text. -/
  texts : ∀ graph held, m.graphs.get? graph = some held →
    (held.values.map fun x => x.canonical false).Nodup
  placed : m.Entries fun graph _ x => x.graph = some (.named graph)
  concrete : m.Entries fun _ _ x => ∀ n ∈ x.nodes, n.isConcrete = true
  predicates : m.Entries fun _ _ x => ∃ uri, x.predicate = .named uri
  labels : m.Entries fun _ _ x => ∀ label ∈ x.labels, IsGenerated label
  uris : m.Entries fun _ _ x =>
    ∀ u ∈ x.triple.uris, ∃ v ∈ supplied.flatMap fun x => x.triple.uris, ns.extend v = u

/-- After every run of changes from an empty store, whether they succeed or fail, the store in
memory holds nothing but what the additions among them make. -/
theorem MemoryStore.wellFormed_after (ns : Namespaces) (default : String)
    (changes : List Change) :
    (Change.after (MemoryStore.empty ns default) changes).WellFormed ns
      (default :: changes.flatMap Change.created) (changes.flatMap Change.handed) := by
  have start : Named ns default (changes.flatMap Change.created) (MemoryStore.empty ns default) :=
    ⟨rfl, rfl, fun g there => by cases there⟩
  have named := start.after shelved growing changes (List.Subset.refl _)
  have entries := entries_after ns default changes
  have digests : (Change.after (MemoryStore.empty ns default) changes).Indexed :=
    fun graph held found e mem => (entries graph held found e mem).1
  have made {graph held} found e mem := (entries graph held found e mem).2.2
  refine ⟨fun graph there => named.names graph (OrderedMap.contains_iff_mem.2 there), digests,
    fun graph held found => ?_, fun graph held found e mem => (entries graph held found e mem).2.1,
    fun graph held found e mem => (made found e mem).normal.concrete,
    fun graph held found e mem => (made found e mem).normal.predicate,
    fun graph held found e mem => (made found e mem).labels,
    fun graph held found e mem => (made found e mem).uris⟩
  have nodup := (digests graph held found).digests_nodup
  have texts : held.values.map Statement.tripleDigest =
      (held.values.map fun x => x.canonical false).map Digest.ofText := by
    rw [List.map_map]
    exact List.map_congr_left fun x _ => by
      rw [Statement.tripleDigest, Statement.digest, Function.comp_apply]
  rw [texts] at nodup
  exact List.Nodup.of_map Digest.ofText nodup

/-! ## Both kinds of storage -/

namespace Storage

/-- An empty storage of either kind. -/
inductive New (ns : Namespaces) (default : String) : Storage → Prop
  | memory : New ns default (.memory (.empty ns default))
  | durable : New ns default (.durable (.new ns default))

variable {ns : Namespaces} {default : String} {s : Storage}

theorem after_memory (m : MemoryStore) (changes : List Change) :
    Change.after (memory m) changes = memory (Change.after m changes) :=
  simulation_memory.changes rfl changes

theorem after_durable (d : DurableStore) (changes : List Change) :
    Change.after (durable d) changes = durable (Change.after d changes) :=
  simulation_durable.changes rfl changes

theorem New.attained (new : s.New ns default) (changes : List Change) :
    (Change.after s changes).Attained := by
  cases new with
  | memory =>
      rw [after_memory, ← Change.after_eq MemoryStore.reopenWith]
      exact ⟨ns, default, _, rfl⟩
  | durable =>
      rw [after_durable, ← Change.after_eq DurableStore.reopenWith]
      exact ⟨ns, default, _, rfl⟩

/-- After a run of changes every graph is called by the full form of a name that was created or of
the default graph's. -/
theorem New.named (new : s.New ns default) (changes : List Change) :
    Named ns default (changes.flatMap Change.created) (Change.after s changes) := by
  cases new with
  | memory =>
      have start : Named ns default (changes.flatMap Change.created)
          (MemoryStore.empty ns default) := ⟨rfl, rfl, fun g there => by cases there⟩
      exact .of_simulation simulation_memory (after_memory _ changes)
        (start.after MemoryStore.shelved MemoryStore.growing changes (List.Subset.refl _))
  | durable =>
      have start : Named ns default (changes.flatMap Change.created) (Ledger.empty ns default) :=
        ⟨rfl, rfl, fun g there => by cases there⟩
      have shows := DurableStore.simulation.changes (DurableStore.shows_new ns default) changes
      have below := start.after Ledger.shelved Ledger.growing changes (List.Subset.refl _)
      exact .of_simulation simulation_durable (after_durable _ changes)
        (.of_simulation DurableStore.simulation shows below)

/-- After a run of changes every statement lies in the graph that it is read from and is made of a
statement that was added. -/
theorem New.madeOf (new : s.New ns default) (changes : List Change) {graph : String}
    {stored : List Statement}
    (read : GraphStore.statements (Change.after s changes) graph = .ok stored) :
    ∀ t ∈ stored, t.graph = some (.named graph) ∧
      t.triple.MadeOf ns (changes.flatMap Change.handed) := by
  cases new with
  | memory =>
      have entries := MemoryStore.entries_after ns default changes
      rw [after_memory] at read
      obtain ⟨held, found, rfl⟩ := MemoryStore.statements_eq_ok_iff.1 read
      intro t mem
      obtain ⟨e, here, rfl⟩ := List.mem_map.1 mem
      exact (entries graph held found e here).2
  | durable =>
      have shows := DurableStore.simulation.changes (DurableStore.shows_new ns default) changes
      have made := Ledger.madeOf_after ns default changes graph
      rw [after_durable] at read
      obtain ⟨held, found, rfl⟩ := Ledger.statements_eq_ok_iff.1
        ((DurableStore.simulation.statements shows graph).symm.trans read)
      rw [Ledger.triplesOf_eq, found] at made
      intro t mem
      obtain ⟨u, here, rfl⟩ := List.mem_map.1 mem
      exact ⟨rfl, made u here⟩

end Storage

end RdfStore
