import RdfStore.Store

/-!
# The store in memory

Graphs and their statements are kept in insertion-ordered maps, the statements of a graph under
their triple digests. An inserted statement keeps its own graph field.
-/

namespace RdfStore

/-- A store that lives in memory. -/
structure MemoryStore where
  graphs : OrderedMap String (OrderedMap Digest Statement)
  namespaces : Namespaces
  defaultGraph : String

namespace MemoryStore

/-- The store without graphs. -/
def empty (namespaces : Namespaces) (defaultGraph : String) : MemoryStore :=
  ⟨.empty, namespaces, defaultGraph⟩

/-- Register a graph under its full name. -/
def create (s : MemoryStore) (graph : String) : MemoryStore :=
  { s with graphs := s.graphs.insertNew (s.namespaces.extend graph) .empty }

/-- Remove a graph by its full name. -/
def drop (s : MemoryStore) (graph : String) : MemoryStore :=
  { s with graphs := s.graphs.erase (s.namespaces.extend graph) }

/-- Append the statements whose digests a graph does not hold yet. -/
def insert (s : MemoryStore) (graph : String) (statements : List Statement) :
    Reply MemoryStore Nat :=
  match s.graphs.get? graph with
  | none => ⟨.error (.graphNotFound graph), s⟩
  | some held =>
    let grown := Store.unite held statements
    ⟨.ok (grown.size - held.size), { s with graphs := s.graphs.insert graph grown }⟩

/-- Remove the statements of a graph that fit a pattern. -/
def remove (s : MemoryStore) (graph : String) (pattern : Statement) : Reply MemoryStore Nat :=
  match s.graphs.get? graph with
  | none => ⟨.error (.graphNotFound graph), s⟩
  | some held =>
    let kept := held.filter fun _ t => !t.fits pattern
    ⟨.ok (held.size - kept.size), { s with graphs := s.graphs.insert graph kept }⟩

/-- The statements of a graph. -/
def statements (s : MemoryStore) (graph : String) : Except Error (List Statement) :=
  match s.graphs.get? graph with
  | none => .error (.graphNotFound graph)
  | some held => .ok held.values

/-- The statements of a graph that fit a pattern; a graph that is not registered has none. -/
def fitting (s : MemoryStore) (pattern : Statement) (graph : String) : List Statement :=
  match s.graphs.get? graph with
  | none => []
  | some held => held.values.filter fun t => t.fits pattern

instance : GraphStore MemoryStore where
  namespaces := namespaces
  defaultGraph := defaultGraph
  graphs s := s.graphs.keys
  contains s graph := s.graphs.contains graph
  create s graph := ⟨.ok (), s.create graph⟩
  drop s graph := ⟨.ok (), s.drop graph⟩
  insert := insert
  remove := remove
  statements := statements

/-- The statements that fit a pattern in the graphs it names. -/
def matching (s : MemoryStore) (pattern : Statement) (graph : Option String) :
    Except Error (List Statement) :=
  (Store.patternTargets s pattern graph).map fun targets =>
    targets.flatMap (s.fitting (pattern.extend s.namespaces))

/-- Whether a statement fits a pattern in the graphs it names. -/
def hasMatching (s : MemoryStore) (pattern : Statement) (graph : Option String) :
    Except Error Bool :=
  (Store.patternTargets s pattern graph).map fun targets =>
    targets.any fun target => !(s.fitting (pattern.extend s.namespaces) target).isEmpty

instance : PatternSearch MemoryStore := ⟨matching, hasMatching⟩

end MemoryStore

end RdfStore
