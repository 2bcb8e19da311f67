import RdfStore.Proofs.Query.Solutions
import RdfStore.Proofs.Store.Addition
import RdfStore.Proofs.Store.Unite

/-!
# The default graph of a new session

Statements without a graph go to the default graph, which the first of them creates. Creating a
graph extends its name, writing to it does not, so a new session can store such statements exactly
if extension leaves the name of its default graph alone (`Session.add_ofSettings`). A name that is
written with a registered prefix passes the check of settings, but then every addition to the
default graph is refused, and an empty graph is left behind under the extended name.
-/

namespace RdfStore

open GraphStore

/-! ## One batch for the default graph -/

namespace Store

section Graphless

variable {ns : Namespaces} {default : String} {draws : Draws}

theorem target_of_graphless {t : Statement} (graphless : t.graph = none) :
    t.target ns none default = default := by
  rw [Statement.target, graphless]
  rfl

theorem Batches.entries_push {batches : Batches} {held : List Statement}
    (entries : batches.entries = [(default, held)]) (t : Statement) :
    (batches.push default t).entries = [(default, held ++ [t])] := by
  have found : batches.get? default = some held := by
    rw [OrderedMap.get?, entries, OrderedMap.lookup, if_pos rfl]
  have known : default ∈ batches.keys := OrderedMap.mem_keys_iff.2 ⟨held, found⟩
  rw [push, found, OrderedMap.entries_insert_of_mem _ known, entries, OrderedMap.replaceIn,
    List.map_singleton, if_pos rfl, Option.getD_some]

theorem batchesFrom_of_graphless (statements : List Statement) :
    ∀ {batches : Batches} {r : Relabelling} {held : List Statement},
      batches.entries = [(default, held)] → (∀ t ∈ statements, t.Valid ∧ t.graph = none) →
      ∃ result more, batchesFrom ns default none draws batches r statements = .ok result ∧
        result.entries = [(default, held ++ more)] := by
  induction statements with
  | nil =>
      intro batches r held entries _
      refine ⟨batches, [], rfl, ?_⟩
      rw [List.append_nil]
      exact entries
  | cons t rest ih =>
      intro batches r held entries fit
      obtain ⟨⟨valid, graphless⟩, fit⟩ := List.forall_mem_cons.1 fit
      let step := r.normalize ns draws default t
      obtain ⟨result, more, made, final⟩ :=
        ih (r := step.2) (Batches.entries_push entries step.1) fit
      refine ⟨result, step.1 :: more, ?_, ?_⟩
      · unfold batchesFrom
        rw [Statement.check_eq_ok_iff.2 valid, target_of_graphless graphless]
        exact made
      · rw [final, List.append_assoc, List.singleton_append]

/-- Statements without a graph make a single batch, for the default graph. -/
theorem batches_of_graphless {statements : List Statement} (some : statements ≠ [])
    (fit : ∀ t ∈ statements, t.Valid ∧ t.graph = none) :
    ∃ batches first rest, batchesFrom ns default none draws .empty .empty statements = .ok batches ∧
      batches.entries = [(default, first :: rest)] := by
  cases statements with
  | nil => exact absurd rfl some
  | cons t rest =>
      obtain ⟨⟨valid, graphless⟩, fit⟩ := List.forall_mem_cons.1 fit
      let step := Relabelling.empty.normalize ns draws default t
      have entries : (Batches.push .empty default step.1).entries = [(default, [step.1])] := rfl
      obtain ⟨result, more, made, final⟩ :=
        batchesFrom_of_graphless (r := step.2) rest entries fit
      refine ⟨result, step.1, more, ?_, final⟩
      unfold batchesFrom
      rw [Statement.check_eq_ok_iff.2 valid, target_of_graphless graphless]
      exact made

end Graphless

end Store

/-! ## A new store in memory -/

namespace MemoryStore

variable {ns : Namespaces} {default : String}

/-- The store that holds nothing but some statements in one graph. -/
def withGraph (ns : Namespaces) (default graph : String) (held : OrderedMap Digest Statement) :
    MemoryStore :=
  ⟨OrderedMap.empty.insert graph held, ns, default⟩

theorem writeBatch_empty (fixed : ns.extend default = default) (batch : List Statement) :
    Store.writeBatch (empty ns default) default batch =
      ⟨.ok (Store.unite .empty batch).size,
        withGraph ns default default (Store.unite .empty batch)⟩ := by
  change MemoryStore.insert (withGraph ns default (ns.extend default) .empty) default batch = _
  have found : (withGraph ns default default .empty).graphs.get? default = some .empty := by
    rw [withGraph, OrderedMap.get?_insert, if_pos rfl]
  rw [fixed, MemoryStore.insert, found]
  have again : (withGraph ns default default .empty).graphs.insert default
      (Store.unite .empty batch) = OrderedMap.empty.insert default (Store.unite .empty batch) := by
    apply OrderedMap.ext
    have known : default ∈ (withGraph ns default default .empty).graphs.keys :=
      List.mem_singleton_self default
    rw [OrderedMap.entries_insert_of_mem _ known]
    change [if default = default then _ else _] = _
    rw [if_pos rfl]
    rfl
  simp only [again]
  rfl

theorem writeBatch_empty_of_ne (moved : ns.extend default ≠ default) (batch : List Statement) :
    Store.writeBatch (empty ns default) default batch =
      ⟨.error (.graphNotFound default), withGraph ns default (ns.extend default) .empty⟩ := by
  change MemoryStore.insert (withGraph ns default (ns.extend default) .empty) default batch = _
  have absent : (withGraph ns default (ns.extend default) .empty).graphs.get? default = none := by
    rw [withGraph, OrderedMap.get?_insert, if_neg moved]
    rfl
  rw [MemoryStore.insert, absent]

/-- Statements without a graph are added to an empty store in one batch. -/
theorem add_empty {statements : List Statement} (some : statements ≠ [])
    (fit : ∀ t ∈ statements, t.Valid ∧ t.graph = none) (draws : Draws) :
    ∃ first rest, Store.add (empty ns default) draws statements none =
      Store.writeBatch (empty ns default) default (first :: rest) := by
  obtain ⟨batches, first, rest, made, entries⟩ :=
    @Store.batches_of_graphless ns default draws _ some fit
  have keys : batches.keys = [default] := by rw [OrderedMap.keys, entries]; rfl
  have allowed : Store.firstUnknown (empty ns default) [default] = none := by
    rw [Store.firstUnknown, List.find?_eq_none]
    intro graph mem
    rw [List.mem_singleton.1 mem]
    simp [GraphStore.defaultGraph, empty]
  refine ⟨first, rest, ?_⟩
  rw [Store.add_of_batches made (by rw [keys]; exact allowed), entries,
    Store.writeBatches_singleton]

/-- What a store that holds a single graph lists and answers. -/
theorem withGraph_shows {held : OrderedMap Digest Statement} (keyed : Store.Keyed held) :
    let s := withGraph ns default default held
    GraphStore.graphs s = [default] ∧ GraphStore.statements s default = .ok held.values ∧
      ∃ solutions, Store.query s Query.everything none = .ok solutions ∧
        solutions.rows.map OrderedMap.entries =
          held.values.map fun t => [("s", t.subject), ("p", t.predicate), ("o", t.object)] := by
  intro s
  have found : s.graphs.get? default = some held := by
    rw [show s.graphs = OrderedMap.empty.insert default held from rfl, OrderedMap.get?_insert,
      if_pos rfl]
  have present : GraphStore.contains s default = true :=
    OrderedMap.contains_iff_mem.2 (OrderedMap.mem_keys_iff.2 ⟨held, found⟩)
  have listed : GraphStore.statements s default = .ok held.values := by
    change MemoryStore.statements s default = _
    rw [MemoryStore.statements, found]
  have united : Store.unionOf s .empty [default] = .ok held := by
    rw [Store.unionOf, if_pos present, listed]
    exact congrArg Except.ok keyed.unite_values
  exact ⟨rfl, listed, Store.query_everything united⟩

end MemoryStore

/-! ## New sessions -/

/-- A new session in memory stores valid statements without a graph exactly if extension leaves the
name of its default graph alone. Then the default graph is its only graph, and the query for
everything answers one row for each stored statement. Otherwise the addition is refused, and its
only graph has another name. -/
theorem Session.add_ofSettings {settings : Settings} (valid : settings.check = .ok ())
    (inMemory : settings.backend = .memory) (file : DatabaseFile) (draws : Draws)
    {statements : List Statement} (some : statements ≠ [])
    (fit : ∀ t ∈ statements, t.Valid ∧ t.graph = none) :
    ∃ session, Session.ofSettings settings file = .ok session ∧
      let reply := Store.add session.storage draws statements none
      if settings.namespaces.extend settings.defaultGraph = settings.defaultGraph then
        graphs reply.store = [settings.defaultGraph] ∧
          ∃ stored solutions, stored ≠ [] ∧ reply.result = .ok stored.length ∧
            GraphStore.statements reply.store settings.defaultGraph = .ok stored ∧
            Store.query reply.store Query.everything none = .ok solutions ∧
            solutions.rows.map OrderedMap.entries =
              stored.map fun t => [("s", t.subject), ("p", t.predicate), ("o", t.object)]
      else
        reply.result = .error (.graphNotFound settings.defaultGraph) ∧
          graphs reply.store = [settings.namespaces.extend settings.defaultGraph] := by
  let m := MemoryStore.empty settings.namespaces settings.defaultGraph
  obtain ⟨first, rest, written⟩ :=
    @MemoryStore.add_empty settings.namespaces settings.defaultGraph _ some fit draws
  refine ⟨⟨.memory m⟩, ?_, ?_⟩
  · rw [ofSettings, valid, inMemory]
  intro reply
  -- the session's store replies as the store in memory does
  have sim := Storage.simulation_memory
  obtain ⟨result, store⟩ : Reply.Agree _ reply (Store.add m draws statements none) :=
    sim.add rfl fun _ _ _ _ _ _ => trivial
  rw [written] at result store
  by_cases fixed : settings.namespaces.extend settings.defaultGraph = settings.defaultGraph
  · let held := Store.unite .empty (first :: rest)
    have keyed : Store.Keyed held := Store.keyed_empty.unite _
    have there : first.tripleDigest ∈ held.keys :=
      Store.mem_keys_unite.2 (Or.inr List.mem_cons_self)
    rw [MemoryStore.writeBatch_empty fixed] at result store
    obtain ⟨listed, found, solutions, answered, rows⟩ :=
      @MemoryStore.withGraph_shows settings.namespaces settings.defaultGraph _ keyed
    rw [if_pos fixed, sim.graphs store, sim.statements store, sim.query store]
    refine ⟨listed, held.values, solutions, ?_, ?_, found, answered, rows⟩
    · intro none
      rw [OrderedMap.values, List.map_eq_nil_iff] at none
      rw [OrderedMap.keys, none] at there
      cases there
    · rw [result, OrderedMap.values, List.length_map]
      rfl
  · rw [MemoryStore.writeBatch_empty_of_ne fixed] at result store
    rw [if_neg fixed, sim.graphs store]
    exact ⟨result, rfl⟩

/-- A literal and a blank node in the default graph of a new session with a full name for it. -/
theorem Session.add_ofSettings_sample :
    let settings : Settings := { defaultGraph := "urn:d" }
    let batch : List Statement :=
      [⟨.named "http://a", .named "foaf:name", .literal ⟨"x", none, some "en"⟩, none⟩,
        ⟨.blank "b", .named "foaf:knows", .named "http://a", none⟩]
    settings.check = .ok () ∧ settings.backend = .memory ∧ batch ≠ [] ∧
      (∀ t ∈ batch, t.Valid ∧ t.graph = none) ∧
      ∃ session, Session.ofSettings settings .absent = .ok session ∧
        let reply := Store.add session.storage (fun _ => 7#128) batch none
        graphs reply.store = ["urn:d"] ∧
          ∃ stored solutions, stored ≠ [] ∧ reply.result = .ok stored.length ∧
            GraphStore.statements reply.store "urn:d" = .ok stored ∧
            Store.query reply.store Query.everything none = .ok solutions ∧
            solutions.rows.map OrderedMap.entries =
              stored.map fun t => [("s", t.subject), ("p", t.predicate), ("o", t.object)] := by
  intro settings batch
  have valid : settings.check = .ok () := by cbv
  have fit : ∀ t ∈ batch, t.Valid ∧ t.graph = none := by decide
  have fixed : settings.namespaces.extend settings.defaultGraph = settings.defaultGraph := by
    decide +kernel
  obtain ⟨session, opened, added⟩ :=
    Session.add_ofSettings valid rfl .absent (fun _ => 7#128) (List.cons_ne_nil _ _) fit
  rw [if_pos fixed] at added
  exact ⟨valid, rfl, List.cons_ne_nil _ _, fit, session, opened, added⟩

/-- Settings may name the default graph with a registered prefix, but then a new session cannot
store a statement without a graph. -/
theorem Session.default_graph_refused :
    let settings : Settings := { defaultGraph := "foaf:d" }
    let t : Statement := ⟨.named "http://a", .named "foaf:knows", .named "http://b", none⟩
    settings.check = .ok () ∧ t.Valid ∧
      ∃ session, Session.ofSettings settings .absent = .ok session ∧
        let reply := Store.add session.storage (fun _ => 7#128) [t] none
        reply.result = .error (.graphNotFound "foaf:d") ∧
          graphs reply.store = ["http://xmlns.com/foaf/0.1/d"] := by
  intro settings t
  have valid : settings.check = .ok () := by cbv
  let m := MemoryStore.empty settings.namespaces settings.defaultGraph
  have opened : Session.ofSettings settings .absent = .ok ⟨.memory m⟩ := by
    rw [ofSettings, valid]
  exact ⟨valid, by decide, ⟨.memory m⟩, opened, by cbv, by cbv⟩

end RdfStore
