import RdfStore.Proofs.Namespaces
import RdfStore.Proofs.Store.Provenance

/-!
# Which stored statements are valid

Statements are checked as they are given, before their URIs are extended and before a graph is
chosen for them, and the graph that an addition names is not checked at all. A stored statement
therefore has no other fault than an empty URI, and has one exactly if one of its nodes or its graph
is called by the empty text (`Storage.check_of_stored`). Neither happens if no namespace, no created name and
no default graph is empty; an empty one of them is enough for an invalid statement
(`Storage.stored_with_empty_uri`).
-/

namespace RdfStore

open GraphStore Store

/-! ## Empty URIs -/

/-- A node that is no placeholder is storable unless it has the empty URI. -/
theorem Node.storable_iff {n : Node} (concrete : n.isConcrete = true) :
    n.Storable ↔ n ≠ .named "" := by
  cases n with
  | named uri => exact not_congr (Node.named.injEq uri "" ▸ Iff.rfl)
  | literal | blank => exact ⟨fun _ same => (by cases same), fun _ => trivial⟩
  | pattern name => cases concrete

/-- A statement in normal form is valid unless one of its nodes or its graph has the empty URI. -/
theorem Triple.Normal.valid_iff {t : Statement} (normal : t.triple.Normal) {graph : String}
    (placed : t.graph = some (.named graph)) :
    t.Valid ↔ graph ≠ "" ∧ .named "" ∉ t.nodes := by
  have storable : (∀ n ∈ t.nodes, n.Storable) ↔ .named "" ∉ t.nodes := by
    constructor
    · exact fun all mem => all _ mem rfl
    · intro absent n mem
      exact (Node.storable_iff (normal.concrete n mem)).2 fun same => absent (same ▸ mem)
  obtain ⟨uri, named⟩ := normal.predicate
  rw [← storable]
  constructor
  · intro valid
    obtain ⟨name, same, present⟩ := valid.graph _ placed
    cases same
    exact ⟨present, valid.storable⟩
  · intro given
    rcases given with ⟨present, all⟩
    refine ⟨all _ (t.nodeAt_mem_nodes .subject), ?_, all _ (t.nodeAt_mem_nodes .object), ?_⟩
    · exact Statement.addressable_iff.2 ⟨all _ (t.nodeAt_mem_nodes .predicate), uri, named⟩
    · intro g found
      cases placed.symm.trans found
      exact ⟨graph, rfl, present⟩

/-- If no namespace is empty, then additions make no node with the empty URI. -/
theorem Triple.MadeOf.empty_not_mem {ns : Namespaces} {statements : List Statement} {t : Triple}
    (h : t.MadeOf ns statements) (present : ns.NoneEmpty) : .named "" ∉ t.nodes := by
  obtain ⟨x, -, valid, rename, -, rfl⟩ := h
  rw [Statement.nodes_full]
  intro mem
  obtain ⟨n, occurs, same⟩ := List.mem_map.1 mem
  cases n with
  | named uri =>
      exact Namespaces.extend_ne_empty present (valid.storable _ occurs) (Node.named.inj same)
  | literal | blank | pattern => cases same

/-! ## Both kinds of storage -/

namespace Storage

variable {ns : Namespaces} {default : String} {s : Storage}

theorem Attained.reachable {s : Storage} (attained : s.Attained) : s.Reachable := by
  cases s with
  | memory m => trivial
  | durable d => exact attained

/-- No graph has the empty name if no namespace, no created name and no default graph is empty. -/
theorem New.graph_ne_empty (new : s.New ns default) (changes : List Change)
    (present : ns.NoneEmpty) (ownGraph : default ≠ "")
    (created : ∀ name, .create name ∈ changes → name ≠ "") {graph : String}
    (registered : contains (Change.after s changes) graph = true) : graph ≠ "" := by
  obtain ⟨name, known, rfl⟩ := (new.named changes).names graph registered
  refine Namespaces.extend_ne_empty present ?_
  rcases List.mem_cons.1 known with rfl | known
  · exact ownGraph
  · obtain ⟨c, mem, here⟩ := List.mem_flatMap.1 known
    cases c with
    | create g => exact List.mem_singleton.1 here ▸ created g mem
    | drop | add | delete | remove => cases here

/-- After every run of changes a stored statement passes the check again exactly if neither one of
its nodes nor its graph has the empty URI. Its nodes have none if no namespace is empty, and its
graph has none if besides no created name and no default graph is. -/
theorem check_of_stored (new : s.New ns default) (changes : List Change) {graph : String}
    {stored : List Statement}
    (read : GraphStore.statements (Change.after s changes) graph = .ok stored) {t : Statement}
    (mem : t ∈ stored) :
    (t.check = .ok () ↔ graph ≠ "" ∧ .named "" ∉ t.nodes) ∧
      (ns.NoneEmpty → .named "" ∉ t.nodes) ∧
      (ns.NoneEmpty → default ≠ "" → (∀ name, .create name ∈ changes → name ≠ "") →
        graph ≠ "") := by
  obtain ⟨placed, made⟩ := new.madeOf changes read t mem
  have registered := (new.attained changes).reachable.readable.contains_of_read read
  refine ⟨?_, made.empty_not_mem, fun present ownGraph created => ?_⟩
  · rw [Statement.check_eq_ok_iff]
    exact made.normal.valid_iff placed
  · exact new.graph_ne_empty changes present ownGraph created registered

/-- A statement with a blank node in a graph that was created under a short name. -/
theorem check_of_stored_sample :
    let value : Node := .literal ⟨"x", none, some "en"⟩
    let t : Statement := ⟨.blank "b", .named "foaf:name", value, none⟩
    let changes : List Change := [.create "foaf:g", .add (fun _ => 0) [t] (some "foaf:g")]
    let s := durable (.new .standard "urn:d")
    let graph := "http://xmlns.com/foaf/0.1/g"
    let x : Statement := ⟨.blank (generatedLabel 0), .named "http://xmlns.com/foaf/0.1/name", value,
      some (.named graph)⟩
    s.New .standard "urn:d" ∧ GraphStore.statements (Change.after s changes) graph = .ok [x] ∧
      Namespaces.standard.NoneEmpty ∧ x.check = .ok () := by
  intro value t changes s graph x
  have new : s.New .standard "urn:d" := .durable
  have read : GraphStore.statements (Change.after s changes) graph = .ok [x] := by decide +kernel
  have present : Namespaces.standard.NoneEmpty := by decide +kernel
  obtain ⟨check, nodes, name⟩ := check_of_stored new changes read (List.mem_singleton_self x)
  refine ⟨new, read, present, check.2 ⟨name present (by decide) ?_, nodes present⟩⟩
  intro name mem
  have same : name = "foaf:g" := by simpa [changes] using mem
  rw [same]
  decide

/-- A prefix for the empty text makes a stored URI empty, and a graph may be created and written to
under the empty name. The statements are valid as they are given, and the same graph is refused
where a statement names it itself. -/
theorem stored_with_empty_uri :
    let t : Statement := ⟨.named "ex:", .named "http://p", .named "http://b", none⟩
    let u : Statement := ⟨.named "http://a", .named "http://p", .named "http://b", none⟩
    let s := Change.after (memory (.empty (Namespaces.empty.add "ex" "") "urn:d"))
      [.add (fun _ => 0) [t] none]
    let s' := Change.after (memory (.empty .standard "urn:d"))
      [.create "", .add (fun _ => 0) [u] (some "")]
    t.check = .ok () ∧ u.check = .ok () ∧
      ({ u with graph := some (.named "") } : Statement).check = .error (.emptyUri .graph) ∧
      (∃ x, GraphStore.statements s "urn:d" = .ok [x] ∧ x.check = .error (.emptyUri .subject)) ∧
      ∃ x, GraphStore.statements s' "" = .ok [x] ∧ x.check = .error (.emptyUri .graph) := by
  intro t u s s'
  let x : Statement := { t with subject := .named "", graph := some (.named "urn:d") }
  let y : Statement := { u with graph := some (.named "") }
  have read : GraphStore.statements s "urn:d" = .ok [x] := by decide +kernel
  have read' : GraphStore.statements s' "" = .ok [y] := by decide +kernel
  exact ⟨by decide, by decide, by decide, ⟨x, read, by decide⟩, y, read', by decide⟩

end Storage

end RdfStore
