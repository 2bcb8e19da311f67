import RdfStore.Query.Filter
import RdfStore.Query.Parse

/-!
# Plans and solutions

A plan is a query that has been read, classified and checked against a store's prefixes; running
it over statements cannot fail. `Plan.run` goes through the matching statements once and stops as
soon as it has enough rows.
-/

namespace RdfStore.Query

/-- A query that is ready to run. -/
structure Plan where
  /-- The store's prefixes followed by the query's own. -/
  namespaces : Namespaces
  shape : Shape
  selected : List String
  filter : Option Filter
  /-- The graphs to look at, in full and without repetition. -/
  graphs : List String
  distinct : Bool

/-- The answer to a query: the selected variables and the rows in order. -/
structure Solutions where
  selected : List String
  rows : List Row

namespace Solutions

/-- The number of rows. -/
def count (s : Solutions) : Nat := s.rows.length

/-- Whether there is no row. -/
def isEmpty (s : Solutions) : Bool := s.rows.isEmpty

end Solutions

namespace Plan

/-- The variables that a projection selects from a shape. -/
def select (shape : Shape) : Projection → Except Fault (List String)
  | .all => .ok shape.names
  | .listed names =>
    match names.find? fun name => (shape.positionOf name).isNone with
    | some name => .error (.unsupported (.selectedUnbound name))
    | none => .ok names

/-- The graphs of a query; without FROM it is the default graph. -/
def targets (ns : Namespaces) (default : String) (graphs : List String) : List String :=
  match extendAll ns graphs with
  | [] => [default]
  | graph :: rest => graph :: rest

/-- The plan of a query that has been read. -/
def ofSelect (q : Select) (store : Namespaces) (default : String) : Except Fault Plan := do
  let ns := q.namespaces store
  let shape ← (Shape.classify q.patterns).mapError Fault.shape
  let selected ← select shape q.projection
  let filter ←
    match q.filter with
    | none => .ok none
    | some comparisons => (Filter.resolve ns shape selected comparisons).map some
  return ⟨ns, shape, selected, filter, targets ns default q.graphs, q.distinct⟩

/-- The plan of a query text. -/
def prepare (text : String) (store : Namespaces) (default : String) : Except Fault Plan := do
  let q ← parse text
  ofSelect q store default

/-! ## Running -/

/-- Whether a statement passes the filter, if there is one. -/
def accepts (plan : Plan) (t : Statement) : Bool :=
  match plan.filter with
  | none => true
  | some filter => filter.accepts plan.namespaces t

/-- The entries of a row for a list of variables; an unbound variable has none. -/
def project (selected : List String) (row : Row) : Row :=
  .ofList (selected.filterMap fun name => (row.get? name).map fun node => (name, node))

/-- The row that a statement contributes. -/
def rowOf (plan : Plan) (t : Statement) : Row := project plan.selected (plan.shape.bind t)

/-- What rows are told apart by: the canonical texts of their nodes. -/
def rowKey (row : Row) : List String := row.values.map Node.text

/-- The rows of a list of matching statements, given the keys of the rows before and how many rows
may still follow. -/
def collect (plan : Plan) : List (List String) → Option Nat → List Statement → List Row
  | _, _, [] => []
  | _, some 0, _ => []
  | seen, room, t :: rest =>
    if plan.accepts t then
      let row := plan.rowOf t
      let key := rowKey row
      if plan.distinct && seen.contains key then collect plan seen room rest
      else row :: collect plan (key :: seen) (room.map (· - 1)) rest
    else collect plan seen room rest

/-- Run a plan over the union of its graphs' statements. -/
def run (plan : Plan) (statements : List Statement) (limit : Option Nat) : Solutions :=
  ⟨plan.selected, plan.collect [] limit (plan.shape.matching plan.namespaces statements)⟩

end Plan

end RdfStore.Query
