import RdfStore.Store

/-!
# A ledger of triples

The plainest store there is: under each graph's name a list of triples in order of arrival, each
once. Triples are told apart by their nodes alone, so there are no digests, no value numbers and
nothing to collect. What the other representations show to their callers is compared with it.

A ledger refuses placeholders, and it reports a triple in the graph it was read from.
-/

namespace RdfStore

/-- The name of a placeholder. -/
def Node.placeholder? : Node → Option (Option String)
  | .pattern name => some name
  | _ => none

/-- Subject, predicate and object, without a graph. -/
structure Triple where
  subject : Node
  predicate : Node
  object : Node
  deriving DecidableEq

namespace Triple

/-- The statement that a triple makes in a graph. -/
def inGraph (graph : String) (t : Triple) : Statement :=
  ⟨t.subject, t.predicate, t.object, some (.named graph)⟩

/-- The three nodes. -/
def nodes (t : Triple) : List Node := [t.subject, t.predicate, t.object]

/-- The digest that deduplication in memory goes by. -/
def digest (t : Triple) : Digest := (Statement.mk t.subject t.predicate t.object none).tripleDigest

/-- A list of triples with one more at its end, unless it is there already. -/
def appendNew (held : List Triple) (t : Triple) : List Triple :=
  if t ∈ held then held else held ++ [t]

end Triple

namespace Statement

/-- A statement without its graph. -/
def triple (t : Statement) : Triple := ⟨t.subject, t.predicate, t.object⟩

/-- The three nodes. -/
def nodes (t : Statement) : List Node := t.triple.nodes

theorem nodeAt_mem_nodes (t : Statement) (position : Position) : t.nodeAt position ∈ t.nodes := by
  cases position with
  | subject => exact List.mem_cons_self
  | predicate => exact List.mem_cons_of_mem _ List.mem_cons_self
  | object => exact List.mem_cons_of_mem _ (List.mem_cons_of_mem _ List.mem_cons_self)

theorem inGraph_triple {graph : String} {t : Statement} (h : t.graph = some (.named graph)) :
    t.triple.inGraph graph = t := by
  cases t; cases h; rfl

/-- The digest does not look at the graph. -/
theorem tripleDigest_eq (t : Statement) : t.tripleDigest = t.triple.digest := by
  unfold tripleDigest Triple.digest tripleDigest digest canonical
  rfl

/-- The first placeholder among subject, predicate and object, by its name. -/
def placeholder? (t : Statement) : Option (Option String) := t.nodes.findSome? Node.placeholder?

end Statement

/-- Graphs and their triples. -/
structure Ledger where
  graphs : OrderedMap String (List Triple)
  namespaces : Namespaces
  defaultGraph : String

namespace Ledger

/-- The ledger without graphs. -/
def empty (namespaces : Namespaces) (defaultGraph : String) : Ledger :=
  ⟨.empty, namespaces, defaultGraph⟩

/-- The ledger with other prefixes and another default graph. -/
def reopenWith (namespaces : Namespaces) (defaultGraph : String) (l : Ledger) : Ledger :=
  { l with namespaces := namespaces, defaultGraph := defaultGraph }

/-- Append the new triples of a list to a graph. A placeholder refuses the whole list. -/
def insert (l : Ledger) (graph : String) (statements : List Statement) : Reply Ledger Nat :=
  match l.graphs.get? graph with
  | none => ⟨.error (.graphNotFound graph), l⟩
  | some held =>
    match statements.findSome? Statement.placeholder? with
    | some name => ⟨.error (.statement (.notStorable name)), l⟩
    | none =>
      let grown := (statements.map Statement.triple).foldl Triple.appendNew held
      ⟨.ok (grown.length - held.length), { l with graphs := l.graphs.insert graph grown }⟩

/-- Remove the triples of a graph that fit a pattern. -/
def remove (l : Ledger) (graph : String) (pattern : Statement) : Reply Ledger Nat :=
  match l.graphs.get? graph with
  | none => ⟨.error (.graphNotFound graph), l⟩
  | some held =>
    let kept := held.filter fun t => !(t.inGraph graph).fits pattern
    ⟨.ok (held.length - kept.length), { l with graphs := l.graphs.insert graph kept }⟩

/-- The triples of a graph as statements. -/
def statements (l : Ledger) (graph : String) : Except Error (List Statement) :=
  match l.graphs.get? graph with
  | none => .error (.graphNotFound graph)
  | some held => .ok (held.map (Triple.inGraph graph))

instance : GraphStore Ledger where
  namespaces := namespaces
  defaultGraph := defaultGraph
  graphs l := l.graphs.keys
  contains l graph := l.graphs.contains graph
  create l graph :=
    ⟨.ok (), { l with graphs := l.graphs.insertNew (l.namespaces.extend graph) [] }⟩
  drop l graph := ⟨.ok (), { l with graphs := l.graphs.erase (l.namespaces.extend graph) }⟩
  insert := insert
  remove := remove
  statements := statements

end Ledger

end RdfStore
