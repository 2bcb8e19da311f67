import RdfStore.Store
import RdfStore.Store.Table
import RdfStore.Text.Inspect

/-!
# The store in a database file

Values are kept once in a value table, and quads refer to them by number. A reverse index finds
the number of a value, another one the place of a quad. Graphs, values and quads are numbered by
counters that only grow, so scanning the quads by their numbers gives the order of insertion.

Every change is made on a copy of the tables, which replaces them as a whole when it succeeds. The
store also keeps the graphs in order of creation and the counters at hand; `DurableStore.load`
rebuilds both from the tables.
-/

namespace RdfStore

/-! ## Values -/

/-- A row of the value table: a node that may be stored. -/
inductive StoredValue where
  | uri (text : String)
  | blank (label : String)
  | literal (literal : Literal)
  deriving DecidableEq, Inhabited

namespace StoredValue

/-- The value of a node; a placeholder has none. -/
def ofNode : Node → Except StatementFault StoredValue
  | .named text => .ok (.uri text)
  | .blank label => .ok (.blank label)
  | .literal l => .ok (.literal l)
  | .pattern name => .error (.notStorable name)

/-- The node of a value. -/
def toNode : StoredValue → Node
  | uri text => .named text
  | blank label => .blank label
  | literal l => .literal l

theorem ofNode_toNode (v : StoredValue) : ofNode v.toNode = .ok v := by cases v <;> rfl

theorem toNode_of_ofNode {n : Node} {v : StoredValue} (h : ofNode n = .ok v) : v.toNode = n := by
  cases n <;> simp only [ofNode, Except.ok.injEq, reduceCtorEq] at h <;> subst h <;> rfl

end StoredValue

/-! ## Tables -/

/-- A stored quad: the numbers of its graph and of its three values. -/
structure Quad where
  graph : Nat
  subject : Nat
  predicate : Nat
  object : Nat
  deriving DecidableEq, Inhabited

/-- The numbers that the next graph, value and quad take. -/
structure Counters where
  graph : Nat := 0
  value : Nat := 0
  quad : Nat := 0
  deriving DecidableEq, Inhabited

/-- The content of a database file. -/
structure Tables where
  /-- Graph names and their numbers. -/
  graphs : Table String Nat
  /-- Value numbers and their values. -/
  values : Table Nat StoredValue
  /-- Values and their numbers; never scanned. -/
  valueIndex : OrderedMap StoredValue Nat
  /-- Quad numbers and their quads. -/
  quads : Table Nat Quad
  /-- Quads and their numbers; never scanned. -/
  quadIndex : OrderedMap Quad Nat
  counters : Counters

namespace Tables

/-- The tables of a new database. -/
def empty : Tables := ⟨.empty, .empty, .empty, .empty, .empty, ⟨0, 0, 0⟩⟩

/-! ### Reading -/

/-- The node that a value number stands for. -/
def nodeOf (t : Tables) (id : Nat) : Except Error Node :=
  match t.values.get? id with
  | some value => .ok value.toNode
  | none => .error (.storage (.danglingValue id))

/-- The statement that a quad stands for, in a given graph. -/
def statementOf (t : Tables) (graph : Option Node) (q : Quad) : Except Error Statement := do
  let subject ← t.nodeOf q.subject
  let predicate ← t.nodeOf q.predicate
  let object ← t.nodeOf q.object
  return ⟨subject, predicate, object, graph⟩

/-- The rows of the quads of a graph, in order of insertion. -/
def rowsOf (t : Tables) (graph : Nat) : List (Nat × Quad) :=
  t.quads.rows.filter fun row => decide (row.2.graph = graph)

/-- The rows of a graph whose statements fit a pattern. -/
def fittingRows (t : Tables) (pattern : Statement) :
    List (Nat × Quad) → Except Error (List (Nat × Quad))
  | [] => .ok []
  | row :: rest => do
    let found ← t.statementOf none row.2
    let more ← t.fittingRows pattern rest
    return if found.fits pattern then row :: more else more

/-! ### Removing -/

/-- Whether some quad refers to a value. -/
def isReferenced (t : Tables) (id : Nat) : Bool :=
  t.quads.rows.any fun row =>
    decide (row.2.subject = id) || decide (row.2.predicate = id) || decide (row.2.object = id)

/-- The tables without the rows of some quads. -/
def eraseQuads (t : Tables) (rows : List (Nat × Quad)) : Tables :=
  rows.foldl (fun t row =>
    { t with quads := t.quads.erase row.1, quadIndex := t.quadIndex.erase row.2 }) t

/-- The tables without the values that no quad refers to. -/
def collect (t : Tables) : Tables :=
  let orphans := t.values.rows.filter fun row => !t.isReferenced row.1
  orphans.foldl (fun t row =>
    { t with values := t.values.erase row.1, valueIndex := t.valueIndex.erase row.2 }) t

end Tables

/-! ## Insertion -/

/-- An insertion under way: the tables so far, and the counters that are written at its end. -/
structure Insertion where
  tables : Tables
  nextValue : Nat
  nextQuad : Nat
  added : Nat

namespace Insertion

/-- The number of a value, a new one if the value is not known yet. -/
def intern (d : Insertion) (v : StoredValue) : Nat × Insertion :=
  match d.tables.valueIndex.get? v with
  | some id => (id, d)
  | none =>
    let id := d.nextValue
    (id,
      { d with
        tables :=
          { d.tables with
            values := d.tables.values.insert id v
            valueIndex := d.tables.valueIndex.insert v id }
        nextValue := id + 1 })

/-- The number of a node's value; a placeholder is refused. -/
def internNode (d : Insertion) (n : Node) : Except Error (Nat × Insertion) :=
  match StoredValue.ofNode n with
  | .error fault => .error (.statement fault)
  | .ok value => .ok (d.intern value)

/-- Add a quad unless it is there already. -/
def addQuad (d : Insertion) (q : Quad) : Insertion :=
  match d.tables.quadIndex.get? q with
  | some _ => d
  | none =>
    { d with
      tables :=
        { d.tables with
          quads := d.tables.quads.insert d.nextQuad q
          quadIndex := d.tables.quadIndex.insert q d.nextQuad }
      nextQuad := d.nextQuad + 1
      added := d.added + 1 }

/-- Add a statement to the graph with a number. -/
def addStatement (graph : Nat) (d : Insertion) (t : Statement) : Except Error Insertion := do
  let (subject, d) ← d.internNode t.subject
  let (predicate, d) ← d.internNode t.predicate
  let (object, d) ← d.internNode t.object
  return d.addQuad ⟨graph, subject, predicate, object⟩

/-- Add statements to the graph with a number, first to last. -/
def addStatements (graph : Nat) : Insertion → List Statement → Except Error Insertion
  | d, [] => .ok d
  | d, t :: rest =>
    match d.addStatement graph t with
    | .error e => .error e
    | .ok d => d.addStatements graph rest

/-- The tables with the counters written back. -/
def finish (d : Insertion) : Tables :=
  { d.tables with counters := { d.tables.counters with value := d.nextValue, quad := d.nextQuad } }

end Insertion

/-! ## The store -/

/-- A store that lives in a database file. -/
structure DurableStore where
  tables : Tables
  /-- The graphs and their numbers in order of creation. -/
  graphIds : OrderedMap String Nat
  /-- The counters, as they stand in the tables. -/
  next : Counters
  namespaces : Namespaces
  defaultGraph : String

namespace DurableStore

/-- The order in which graphs are listed: by number, then by name. -/
def earlier (a b : String × Nat) : Bool :=
  decide (a.2 < b.2) || (decide (a.2 = b.2) && decide (a.1 ≤ b.1))

/-- The store over the content of a database file. -/
def load (tables : Tables) (namespaces : Namespaces) (defaultGraph : String) : DurableStore :=
  ⟨tables, .ofList (tables.graphs.rows.mergeSort earlier), tables.counters, namespaces,
    defaultGraph⟩

/-- Register a graph under its full name. -/
def create (s : DurableStore) (graph : String) : DurableStore :=
  let name := s.namespaces.extend graph
  if s.graphIds.contains name then s
  else
    let id := s.next.graph
    { s with
      tables :=
        { s.tables with
          graphs := s.tables.graphs.insert name id
          counters := { s.tables.counters with graph := id + 1 } }
      graphIds := s.graphIds.insert name id
      next := { s.next with graph := id + 1 } }

/-- Remove a graph by its full name, its quads and the values that are left over. -/
def drop (s : DurableStore) (graph : String) : DurableStore :=
  let name := s.namespaces.extend graph
  match s.graphIds.get? name with
  | none => s
  | some id =>
    let kept := s.tables.eraseQuads (s.tables.rowsOf id)
    { s with
      tables := { kept with graphs := kept.graphs.erase name }.collect
      graphIds := s.graphIds.erase name }

/-- Append the new statements of a list to a graph. A placeholder refuses the whole list. -/
def insert (s : DurableStore) (graph : String) (statements : List Statement) :
    Reply DurableStore Nat :=
  match s.graphIds.get? graph with
  | none => ⟨.error (.graphNotFound graph), s⟩
  | some id =>
    match Insertion.addStatements id ⟨s.tables, s.next.value, s.next.quad, 0⟩ statements with
    | .error e => ⟨.error e, s⟩
    | .ok done =>
      ⟨.ok done.added,
        { s with
          tables := done.finish
          next := { s.next with value := done.nextValue, quad := done.nextQuad } }⟩

/-- Remove the statements of a graph that fit a pattern, and then, if there were any, the values
that are left over. -/
def remove (s : DurableStore) (graph : String) (pattern : Statement) : Reply DurableStore Nat :=
  match s.graphIds.get? graph with
  | none => ⟨.error (.graphNotFound graph), s⟩
  | some id =>
    match s.tables.fittingRows pattern (s.tables.rowsOf id) with
    | .error e => ⟨.error e, s⟩
    | .ok [] => ⟨.ok 0, s⟩
    | .ok doomed => ⟨.ok doomed.length, { s with tables := (s.tables.eraseQuads doomed).collect }⟩

/-- The statements of a graph, which is also their graph field. -/
def statements (s : DurableStore) (graph : String) : Except Error (List Statement) :=
  match s.graphIds.get? graph with
  | none => .error (.graphNotFound graph)
  | some id =>
    (s.tables.rowsOf id).mapM fun row => s.tables.statementOf (some (.named graph)) row.2

instance : GraphStore DurableStore where
  namespaces := namespaces
  defaultGraph := defaultGraph
  graphs s := s.graphIds.keys
  contains s graph := s.graphIds.contains graph
  create s graph := ⟨.ok (), s.create graph⟩
  drop s graph := ⟨.ok (), s.drop graph⟩
  insert := insert
  remove := remove
  statements := statements

instance : PatternSearch DurableStore where
  matching _ _ _ := .error (.notImplemented .matching)
  hasMatching _ _ _ := .error (.notImplemented .hasMatching)

/-! ## The database file -/

/-- The number of stored values. -/
def valueCount (s : DurableStore) : Nat := s.tables.values.size

/-- The number of stored quads in all graphs. -/
def quadCount (s : DurableStore) : Nat := s.tables.quads.size

/-- The store in one line, for people. -/
def description (s : DurableStore) : String :=
  "RedbStore \x7b graph_cache_size: " ++ toString s.graphIds.size ++ ", next_value_id: "
    ++ toString s.next.value ++ ", next_quad_seq: " ++ toString s.next.quad
    ++ ", default_graph: " ++ Text.inspect s.defaultGraph ++ ", .. \x7d"

end DurableStore

/-- What is found where a database file should be. -/
inductive DatabaseFile where
  /-- Nothing, in a directory that exists. -/
  | absent
  /-- Nothing, and the directory does not exist either. -/
  | unreachable
  /-- Bytes that are no database. -/
  | foreign
  /-- A database. -/
  | database (tables : Tables)

/-- The content of a database file, which is created if need be. -/
def DatabaseFile.open : DatabaseFile → Except Error Tables
  | absent => .ok .empty
  | unreachable => .error (.storage .missing)
  | foreign => .error (.storage .unreadable)
  | database tables => .ok tables

end RdfStore
