import RdfStore.Namespaces
import RdfStore.Node

/-!
# Written queries

A SELECT query as its author wrote it: URIs keep their written form, full or prefixed, and are
extended only when they are matched.
-/

namespace RdfStore.Query

/-- One position of a triple pattern. -/
inductive Term where
  /-- A variable, by its name without the sign in front. -/
  | variable (name : String)
  /-- A URI, full or prefixed. -/
  | uri (text : String)
  /-- A literal. -/
  | literal (literal : Literal)
  /-- A blank node, by its label. -/
  | blank (label : String)
  deriving DecidableEq, Inhabited

namespace Term

/-- The word for the kind of a term. -/
def kind : Term → String
  | «variable» _ => "var"
  | uri _ => "uri"
  | literal _ => "literal"
  | blank _ => "blank"

end Term

/-- A pattern for triples. -/
structure TriplePattern where
  subject : Term
  predicate : Term
  object : Term
  deriving DecidableEq, Inhabited

/-- The kinds of the three terms, such as `(var, uri, literal)`. -/
def TriplePattern.signature (p : TriplePattern) : String :=
  "(" ++ p.subject.kind ++ ", " ++ p.predicate.kind ++ ", " ++ p.object.kind ++ ")"

/-- What a query selects. -/
inductive Projection where
  /-- Every variable, in pattern order. -/
  | all
  /-- The listed variables, in this order. -/
  | listed (names : List String)
  deriving DecidableEq, Inhabited

/-- A filter's comparison of a variable with a URI. -/
structure Comparison where
  name : String
  uri : String
  deriving DecidableEq, Inhabited

/-- A SELECT query. -/
structure Select where
  prefixes : List (String × String) := []
  graphs : List String := []
  projection : Projection := .all
  distinct : Bool := false
  patterns : List TriplePattern := []
  filter : Option (List Comparison) := none
  deriving DecidableEq, Inhabited

/-- The store's prefixes followed by the query's own. -/
def Select.namespaces (q : Select) (store : Namespaces) : Namespaces := store.addAll q.prefixes

end RdfStore.Query
