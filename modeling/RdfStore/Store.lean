import RdfStore.Error
import RdfStore.Query.Plan
import RdfStore.Statement.Normal
import RdfStore.Statement.Validity

/-!
# Stores

A store holds named graphs of statements. `GraphStore` lists the primitives that a representation
has to offer; its graph names are full URIs, except that creating and dropping a graph extends the
name first. Everything a caller normally uses is built from the primitives, once for all
representations: adding statements, deleting by pattern, counting and querying.

An operation that changes the store answers with a `Reply`, which carries the store afterwards
also when the result is an error.
-/

namespace RdfStore

/-- A result together with the store afterwards. -/
structure Reply (σ α : Type) where
  result : Except Error α
  store : σ

/-- The primitives of a store. -/
class GraphStore (σ : Type) where
  /-- The prefixes that URIs are extended by. -/
  namespaces : σ → Namespaces
  /-- The name of the default graph. -/
  defaultGraph : σ → String
  /-- The registered graphs in order of creation. -/
  graphs : σ → List String
  /-- Whether a graph is registered. -/
  contains : σ → String → Bool
  /-- Register a graph; nothing happens if it is registered already. -/
  create : σ → String → Reply σ Unit
  /-- Remove a graph and its statements; nothing happens if it is not registered. -/
  drop : σ → String → Reply σ Unit
  /-- Append the new statements of a list to a registered graph, and count them. -/
  insert : σ → String → List Statement → Reply σ Nat
  /-- Remove the statements of a registered graph that fit a pattern, and count them. -/
  remove : σ → String → Statement → Reply σ Nat
  /-- The statements of a registered graph in order of insertion. -/
  statements : σ → String → Except Error (List Statement)

/-- Searching by pattern, which a representation may refuse. -/
class PatternSearch (σ : Type) where
  /-- The statements that fit a pattern, in the given graph, the pattern's own or the default. -/
  matching : σ → Statement → Option String → Except Error (List Statement)
  /-- Whether any statement fits a pattern. -/
  hasMatching : σ → Statement → Option String → Except Error Bool

namespace Store

open GraphStore

variable {σ : Type} [GraphStore σ]

/-! ## Adding statements -/

/-- Statements in normal form by the graph they are written to, graphs in order of first use. -/
abbrev Batches := OrderedMap String (List Statement)

/-- A statement appended to the batch of a graph. -/
def Batches.push (batches : Batches) (graph : String) (t : Statement) : Batches :=
  batches.insert graph ((batches.get? graph).getD [] ++ [t])

/-- The batches of a list of statements, or the first statement's fault. -/
def batchesFrom (ns : Namespaces) (default : String) (explicit : Option String) (draws : Draws) :
    Batches → Relabelling → List Statement → Except Error Batches
  | batches, _, [] => .ok batches
  | batches, relabelling, t :: rest =>
    match t.check with
    | .error fault => .error (.statement fault)
    | .ok () =>
      let graph := t.target ns explicit default
      let (normal, relabelling) := relabelling.normalize ns draws graph t
      batchesFrom ns default explicit draws (batches.push graph normal) relabelling rest

/-- The first graph of a list that is neither registered nor the default graph. -/
def firstUnknown (s : σ) (graphs : List String) : Option String :=
  graphs.find? fun graph => graph ≠ defaultGraph s && !contains s graph

/-- Write one batch, creating its graph if need be. -/
def writeBatch (s : σ) (graph : String) (batch : List Statement) : Reply σ Nat :=
  if contains s graph then insert s graph batch
  else
    match create s graph with
    | ⟨.error e, s⟩ => ⟨.error e, s⟩
    | ⟨.ok (), s⟩ => insert s graph batch

/-- Write batches one after the other, up to the first error. -/
def writeBatches : σ → List (String × List Statement) → Reply σ Nat
  | s, [] => ⟨.ok 0, s⟩
  | s, (graph, batch) :: rest =>
    match writeBatch s graph batch with
    | ⟨.error e, s⟩ => ⟨.error e, s⟩
    | ⟨.ok count, s⟩ =>
      let reply := writeBatches s rest
      ⟨reply.result.map (count + ·), reply.store⟩

/-- Bring statements into normal form and store them. Each goes to the explicit graph, else to its
own, else to the default graph, which is created on demand; any other unregistered graph refuses
them all before anything is written. -/
def add (s : σ) (draws : Draws) (statements : List Statement) (graph : Option String) :
    Reply σ Nat :=
  match batchesFrom (namespaces s) (defaultGraph s) graph draws .empty .empty statements with
  | .error e => ⟨.error e, s⟩
  | .ok batches =>
    match firstUnknown s batches.keys with
    | some graph => ⟨.error (.graphNotFound graph), s⟩
    | none => writeBatches s batches.entries

/-! ## Patterns -/

/-- The one graph that a deletion or search names: the explicit one, the pattern's own or the
default. Nothing stands for every graph. -/
def patternGraph (s : σ) (pattern : Statement) (graph : Option String) :
    Except Error (Option String) :=
  match graph, pattern.graph with
  | some graph, _ => .ok (some ((namespaces s).extend graph))
  | none, some (.named graph) => .ok (some ((namespaces s).extend graph))
  | none, some (.pattern _) => .ok none
  | none, some node => .error (.statement (.graphNotSelectable node))
  | none, none => .ok (some (defaultGraph s))

/-- The registered graphs that a deletion or search looks at. The default graph may be missing,
any other graph may not. -/
def patternTargets (s : σ) (pattern : Statement) (graph : Option String) :
    Except Error (List String) :=
  match patternGraph s pattern graph with
  | .error e => .error e
  | .ok none => .ok (graphs s)
  | .ok (some target) =>
    if contains s target then .ok [target]
    else if target = defaultGraph s then .ok []
    else .error (.graphNotFound target)

/-- Remove what fits an extended pattern from graph after graph, up to the first error. -/
def removeFrom (pattern : Statement) : σ → List String → Reply σ Nat
  | s, [] => ⟨.ok 0, s⟩
  | s, graph :: rest =>
    match remove s graph pattern with
    | ⟨.error e, s⟩ => ⟨.error e, s⟩
    | ⟨.ok count, s⟩ =>
      let reply := removeFrom pattern s rest
      ⟨reply.result.map (count + ·), reply.store⟩

/-- Remove every statement that fits a pattern, and count them. -/
def delete (s : σ) (pattern : Statement) (graph : Option String) : Reply σ Nat :=
  match patternTargets s pattern graph with
  | .error e => ⟨.error e, s⟩
  | .ok targets => removeFrom (pattern.extend (namespaces s)) s targets

/-! ## Counting and querying -/

/-- The number of statements in a graph, the default graph unless one is given; a graph that is
not registered has none. -/
def count (s : σ) (graph : Option String) : Except Error Nat :=
  let target := match graph with
    | some graph => (namespaces s).extend graph
    | none => defaultGraph s
  if contains s target then (statements s target).map List.length else .ok 0

/-- Statements under their triple digests, the first with each digest. -/
def unite (known : OrderedMap Digest Statement) (statements : List Statement) :
    OrderedMap Digest Statement :=
  statements.foldl (fun known t => known.insertNew t.tripleDigest t) known

/-- The union of the statements of graphs. A missing default graph is empty, any other missing
graph is an error. -/
def unionOf (s : σ) : OrderedMap Digest Statement → List String →
    Except Error (OrderedMap Digest Statement)
  | known, [] => .ok known
  | known, graph :: rest =>
    if contains s graph then
      match statements s graph with
      | .error e => .error e
      | .ok found => unionOf s (unite known found) rest
    else if graph = defaultGraph s then unionOf s known rest
    else .error (.graphNotFound graph)

/-- Answer a SELECT query, with at most a number of rows if a limit is given. -/
def query (s : σ) (text : String) (limit : Option Nat) : Except Error Query.Solutions :=
  match Query.Plan.prepare text (namespaces s) (defaultGraph s) with
  | .error fault => .error (.query fault)
  | .ok plan =>
    match unionOf s .empty plan.graphs with
    | .error e => .error e
    | .ok union => .ok (plan.run union.values limit)

/-- All graphs with their statements. -/
def dump (s : σ) : Except Error (List (String × List Statement)) :=
  (graphs s).mapM fun graph => (statements s graph).map fun found => (graph, found)

end Store

end RdfStore
