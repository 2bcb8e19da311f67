import RdfStore.Proofs.Store.Plain
import RdfStore.Proofs.Store.Validity

/-!
# What is read addresses what it came from

The URIs in a store are in full, so where extending twice is extending once
(`Namespaces.Idempotent`), a value that is read from a store stands for itself when it is handed
back. A read statement deletes itself and nothing else, the name of a listed graph drops that graph,
and adding read statements again changes nothing (`Storage.addressed_of_listed`).

* `Store.Absorbing`: a graph lists no statement twice and does not change when it is handed what it
  holds. Both representations are like that after every history (`Storage.Attained.absorbing`).
-/

namespace RdfStore

open GraphStore Store

/-- What an addition makes is in full. -/
theorem Triple.MadeOf.full {ns : Namespaces} {statements : List Statement} {t : Triple}
    (h : t.MadeOf ns statements) (idempotent : ns.Idempotent) : t.Full ns := by
  intro u mem
  obtain ⟨v, -, rfl⟩ := h.uris u mem
  exact idempotent v

/-! ## Inserting what is there -/

/-- A graph lists no statement twice, and inserting what it holds changes nothing. -/
structure Store.Absorbing {σ : Type} [GraphStore σ] (s : σ) : Prop where
  nodup : ∀ {graph stored}, GraphStore.statements s graph = .ok stored → stored.Nodup
  insert : ∀ {graph stored batch}, GraphStore.statements s graph = .ok stored → batch ⊆ stored →
    insert s graph batch = ⟨.ok 0, s⟩

theorem MemoryStore.Indexed.absorbing {m : MemoryStore} (h : m.Indexed) : Absorbing m := by
  constructor
  · intro graph stored read
    obtain ⟨held, found, rfl⟩ := statements_eq_ok_iff.1 read
    exact List.Nodup.of_map Statement.tripleDigest (h graph held found).digests_nodup
  · intro graph stored batch read within
    obtain ⟨held, found, rfl⟩ := statements_eq_ok_iff.1 read
    have known : ∀ t ∈ batch, t.tripleDigest ∈ held.keys := by
      intro t mem
      rw [(h graph held found).keys_eq]
      exact List.mem_map_of_mem (within mem)
    exact insert_of_known found known

namespace Insertion

variable {d : Insertion}

/-- Interning the node of a stored value answers its number and stores nothing. -/
theorem internNode_nodeAt (h : Inverse d.tables.values d.tables.valueIndex) {id : Nat}
    (stored : ∃ v, d.tables.values.get? id = some v) :
    d.internNode (d.tables.nodeAt id) = .ok (id, d) := by
  obtain ⟨v, found⟩ := stored
  have node : d.tables.nodeAt id = v.toNode := by rw [Tables.nodeAt, found]
  rw [node, internNode, StoredValue.ofNode_toNode]
  dsimp only
  rw [intern, (h id v).1 found]

/-- Adding a statement whose triple the graph holds changes nothing. -/
theorem addStatement_of_known (h : d.tables.Integrity d.next) {graph : Nat} {t : Statement}
    (known : t.triple ∈ d.tables.triples graph) : d.addStatement graph t = .ok d := by
  obtain ⟨row, mem, same⟩ := List.mem_map.1 known
  rcases row with ⟨n, q⟩
  obtain ⟨found, rfl⟩ := Tables.mem_rowsOf.1 mem
  have stored := h.closed n q found
  simp only [Quad.values, List.forall_mem_cons] at stored
  obtain ⟨subject, predicate, object⟩ := Triple.mk.inj same
  unfold addStatement
  rw [← subject, ← predicate, ← object, internNode_nodeAt h.values stored.1]
  change ((d.internNode _).bind _) = _
  rw [internNode_nodeAt h.values stored.2.1]
  change ((d.internNode _).bind _) = _
  rw [internNode_nodeAt h.values stored.2.2.1]
  exact congrArg Except.ok (addQuad_of_indexed ((h.quads n q).1 found))

theorem addStatements_of_known (h : d.tables.Integrity d.next) {graph : Nat}
    (batch : List Statement) :
    (∀ t ∈ batch, t.triple ∈ d.tables.triples graph) → d.addStatements graph batch = .ok d := by
  induction batch with
  | nil => intro _; rfl
  | cons t rest ih =>
      intro known
      obtain ⟨here, known⟩ := List.forall_mem_cons.1 known
      simp only [addStatements, addStatement_of_known h here, ih known]

end Insertion

/-- Inserting triples that a graph holds changes nothing, the counters included. -/
theorem DurableStore.Sound.insert_of_known {d : DurableStore} (h : d.Sound) {graph : String}
    {id : Nat} (found : d.graphIds.get? graph = some id) {batch : List Statement}
    (known : ∀ t ∈ batch, t.triple ∈ d.tables.triples id) : d.insert graph batch = ⟨.ok 0, d⟩ := by
  have added := Insertion.addStatements_of_known h.insertion.integrity batch known
  have finished : Insertion.finish ⟨d.tables, d.next.value, d.next.quad, 0⟩ = d.tables := by
    rw [Insertion.finish, h.counters.symm]
  rw [DurableStore.insert, found]
  dsimp only
  rw [added]
  dsimp only
  rw [finished]

theorem DurableStore.Sound.absorbing {d : DurableStore} (h : d.Sound) : Absorbing d := by
  have held_of_read : ∀ {graph stored}, GraphStore.statements d graph = .ok stored →
      ∃ id, d.graphIds.get? graph = some id ∧
        (d.tables.triples id).map (Triple.inGraph graph) = stored := by
    intro graph stored read
    cases found : d.graphIds.get? graph with
    | none => cases (statements_of_absent found).symm.trans read
    | some id => exact ⟨id, rfl, Except.ok.inj ((h.statements_eq found).symm.trans read)⟩
  constructor
  · intro graph stored read
    obtain ⟨id, found, rfl⟩ := held_of_read read
    exact (h.integrity.triples_nodup id).map (Triple.inGraph_injective graph)
  · intro graph stored batch read within
    obtain ⟨id, found, rfl⟩ := held_of_read read
    refine h.insert_of_known found fun t mem => ?_
    obtain ⟨u, held, rfl⟩ := List.mem_map.1 (within mem)
    exact held

/-! ## Handing back what was read -/

namespace Store

variable {σ : Type} [GraphStore σ] {s : σ} {graph : String} {stored : List Statement}

/-- The statements that are read from a graph and the name of the graph stand for themselves when
they are handed back: each statement deletes itself, the name drops the graph, nothing else changes
either time, and adding statements without blank nodes again changes nothing at all. -/
structure Addressed (s : σ) (graph : String) (stored : List Statement) : Prop where
  nodup : stored.Nodup
  delete : ∀ t ∈ stored, ∃ s', Store.delete s t none = ⟨.ok 1, s'⟩ ∧ AltersOnly graph s s' ∧
    GraphStore.statements s' graph = .ok (stored.erase t)
  drop : ∃ s', drop s graph = ⟨.ok (), s'⟩ ∧
    graphs s' = (graphs s).filter (fun g => !decide (g = graph)) ∧
    ∀ g, g ≠ graph → GraphStore.statements s' g = GraphStore.statements s g
  add : ∀ draws batch, batch ⊆ stored → (∀ t ∈ batch, t.labels = []) →
    Store.add s draws batch none = ⟨.ok 0, s⟩

/-- Statements that lie in a graph, are valid and are in full address what they came from. -/
theorem addressed_of_full (removing : Removing s) (absorbing : Absorbing s)
    (read : GraphStore.statements s graph = .ok stored) (registered : contains s graph = true)
    (name : (namespaces s).extend graph = graph)
    (placed : ∀ t ∈ stored, t.graph = some (.named graph)) (valid : ∀ t ∈ stored, t.Valid)
    (full : ∀ t ∈ stored, t.triple.Full (namespaces s)) : Addressed s graph stored where
  nodup := absorbing.nodup read
  delete t mem := by
    have selects : patternGraph s t none = .ok (some graph) := by
      simp only [patternGraph, placed t mem, name]
    have concrete : ∀ n ∈ t.nodes, n.isConcrete = true := fun n occurs =>
      Node.isConcrete_of_storable ((valid t mem).storable n occurs)
    have self : t.triple.inGraph graph = t := Statement.inGraph_triple (placed t mem)
    have deleted := removing.delete read (absorbing.nodup read) placed registered selects concrete
      (full t mem) (self.symm ▸ mem)
    rwa [self] at deleted
  drop := by
    have dropped := removing.drop graph
    rwa [name] at dropped
  add draws batch within unlabelled := by
    cases batch with
    | nil => rfl
    | cons t rest =>
        have plain : ∀ u ∈ t :: rest, u.Plain (namespaces s) := fun u mem =>
          ⟨valid u (within mem), unlabelled u mem, full u (within mem)⟩
        have target : ∀ u ∈ t :: rest, u.target (namespaces s) none (defaultGraph s) = graph := by
          intro u mem
          rw [Statement.target, placed u (within mem)]
          exact name
        have same : (t :: rest).map (fun u => u.triple.inGraph graph) = t :: rest := by
          refine (List.map_congr_left fun u mem => ?_).trans (List.map_id (t :: rest))
          exact Statement.inGraph_triple (placed u (within mem))
        rw [add_of_plain (List.cons_ne_nil t rest) plain target registered, same]
        exact absorbing.insert read within

end Store

namespace Storage

variable {ns : Namespaces} {default : String} {s : Storage}

theorem Attained.absorbing {s : Storage} (attained : s.Attained) : Absorbing s := by
  cases s with
  | memory m =>
      rcases attained with ⟨ns, default, events, rfl⟩
      have absorbing := (MemoryStore.indexed_after ns default events).absorbing
      refine ⟨absorbing.nodup, fun read within => ?_⟩
      exact congrArg (Reply.lift memory) (absorbing.insert read within)
  | durable d =>
      rcases attained with ⟨ns, default, events, rfl⟩
      have absorbing := (DurableStore.Sound.after ns default events).absorbing
      refine ⟨absorbing.nodup, fun read within => ?_⟩
      exact congrArg (Reply.lift durable) (absorbing.insert read within)

theorem contains_of_mem_graphs {s : Storage} {graph : String} (listed : graph ∈ graphs s) :
    contains s graph = true := by
  cases s with
  | memory m => exact OrderedMap.contains_iff_mem.2 listed
  | durable d => exact OrderedMap.contains_iff_mem.2 listed

/-- Where extending twice is extending once and neither a namespace nor a created name nor the
default graph is empty, the statements of every listed graph can be read after every run of changes,
and they and the name of the graph address what they came from. -/
theorem addressed_of_listed (new : s.New ns default) (idempotent : ns.Idempotent)
    (present : ns.NoneEmpty) (ownGraph : default ≠ "") (changes : List Change)
    (created : ∀ name, .create name ∈ changes → name ≠ "") {graph : String}
    (listed : graph ∈ graphs (Change.after s changes)) :
    ∃ stored, GraphStore.statements (Change.after s changes) graph = .ok stored ∧
      Addressed (Change.after s changes) graph stored := by
  have attained := new.attained changes
  have named := new.named changes
  have registered := contains_of_mem_graphs listed
  obtain ⟨stored, read⟩ := attained.reachable.readable.present graph registered
  have made := new.madeOf changes read
  have nameless := new.graph_ne_empty changes present ownGraph created registered
  refine ⟨stored, read, addressed_of_full attained.reachable.removing attained.absorbing read
    registered ?_ (fun t mem => (made t mem).1) (fun t mem => ?_) (fun t mem => ?_)⟩
  · obtain ⟨u, -, rfl⟩ := named.names graph registered
    rw [named.namespaces, idempotent u]
  · obtain ⟨placed, made⟩ := made t mem
    exact (made.normal.valid_iff placed).2 ⟨nameless, made.empty_not_mem present⟩
  · rw [named.namespaces]
    exact (made t mem).2.full idempotent

/-- A statement with a blank node and one without, in a graph that was created under a short name:
the first deletes itself, and adding the second again changes nothing. -/
theorem addressed_of_listed_sample :
    let t : Statement :=
      ⟨.blank "b", .named "foaf:name", .literal ⟨"x", some "xsd:string", none⟩, none⟩
    let u : Statement := ⟨.named "urn:a", .named "foaf:name", .named "foaf:x", none⟩
    let s := durable (.new .standard "urn:d")
    let changes : List Change := [.create "foaf:g", .add (fun _ => 0) [t, u] (some "foaf:g")]
    let graph := "http://xmlns.com/foaf/0.1/g"
    let x : Statement := ⟨.blank (generatedLabel 0), .named "http://xmlns.com/foaf/0.1/name",
      .literal ⟨"x", some "http://www.w3.org/2001/XMLSchema#string", none⟩, some (.named graph)⟩
    let y : Statement := ⟨.named "urn:a", .named "http://xmlns.com/foaf/0.1/name",
      .named "http://xmlns.com/foaf/0.1/x", some (.named graph)⟩
    s.New .standard "urn:d" ∧ Namespaces.standard.Idempotent ∧ Namespaces.standard.NoneEmpty ∧
      graph ∈ graphs (Change.after s changes) ∧
      GraphStore.statements (Change.after s changes) graph = .ok [x, y] ∧
      (∃ s', Store.delete (Change.after s changes) x none = ⟨.ok 1, s'⟩ ∧
        GraphStore.statements s' graph = .ok [y]) ∧
      Store.add (Change.after s changes) (fun _ => 0) [y] none =
        ⟨.ok 0, Change.after s changes⟩ := by
  intro t u s changes graph x y
  have new : s.New .standard "urn:d" := .durable
  have idempotent : Namespaces.standard.Idempotent :=
    Namespaces.idempotent_of_absolute (by decide +kernel)
  have present : Namespaces.standard.NoneEmpty := by decide +kernel
  have created : ∀ name, .create name ∈ changes → name ≠ "" := by
    intro name mem
    have same : name = "foaf:g" := by simpa [changes] using mem
    rw [same]
    decide
  have listed : graph ∈ graphs (Change.after s changes) := by decide +kernel
  have read : GraphStore.statements (Change.after s changes) graph = .ok [x, y] := by decide +kernel
  obtain ⟨stored, held, addressed⟩ :=
    addressed_of_listed new idempotent present (by decide) changes created listed
  obtain rfl : [x, y] = stored := Except.ok.inj (read.symm.trans held)
  obtain ⟨s', deleted, -, left⟩ := addressed.delete x List.mem_cons_self
  have others : [x, y].erase x = [y] := List.erase_cons_head x [y]
  rw [others] at left
  have again := addressed.add (fun _ => 0) [y] (List.subset_cons_self x [y]) (by decide)
  exact ⟨new, idempotent, present, listed, read, ⟨s', deleted, left⟩, again⟩

end Storage

end RdfStore
