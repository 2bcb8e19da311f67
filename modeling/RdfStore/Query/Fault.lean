import RdfStore.Query.Syntax

/-!
# Why a query is refused

A query text is refused because it has another form than SELECT, because its triple patterns make
no known shape, because it uses a construct outside the subset, or because it is malformed.
-/

namespace RdfStore.Query

/-- The number of triple patterns that a query may have. -/
def maxPatterns : Nat := 3

/-- Why triple patterns make no known shape. -/
inductive ShapeFault where
  | noPatterns
  | tooMany (count : Nat)
  /-- A single pattern of no known kind. -/
  | single (pattern : TriplePattern)
  /-- The first of several patterns is not made of three different variables. -/
  | firstNotOpen (pattern : TriplePattern)
  /-- A further pattern does not constrain the first one's subject. -/
  | notNarrowing (subject : String) (literalAllowed : Bool) (pattern : TriplePattern)
  deriving DecidableEq

/-- The wording of a fault in the shape. -/
def ShapeFault.message : ShapeFault → String
  | noPatterns => "no triple patterns"
  | tooMany count =>
    toString count ++ " triple patterns (at most " ++ toString maxPatterns ++ " supported)"
  | single pattern => "triple pattern " ++ pattern.signature
  | firstNotOpen pattern =>
    "first of several patterns must be (var, var, var), got " ++ pattern.signature
  | notNarrowing subject literalAllowed pattern =>
    "narrowing pattern must be (?" ++ subject ++ ", uri, "
      ++ (if literalAllowed then "uri|literal" else "uri") ++ "), got " ++ pattern.signature

/-- A recognisable construct outside the subset. -/
inductive Unsupported where
  /-- A filter with `&&`. -/
  | conjunction
  /-- A filter with `!=`. -/
  | inequality
  /-- A keyword, in upper case. -/
  | keyword (word : String)
  | severalFilters
  | selectedUnbound (name : String)
  | filterMixed
  | filterUnbound (name : String)
  | filterNotSelected (name : String)
  deriving DecidableEq

/-- The wording of an unsupported construct. -/
def Unsupported.message : Unsupported → String
  | conjunction => "FILTER conjunctions (&&)"
  | inequality => "FILTER operators other than ="
  | keyword word => word
  | severalFilters => "more than one FILTER"
  | selectedUnbound name =>
    "selected variable ?" ++ name ++ " is not bound by the triple patterns"
  | filterMixed => "FILTER must compare a single variable"
  | filterUnbound name => "FILTER variable ?" ++ name ++ " is not bound by the triple patterns"
  | filterNotSelected name => "FILTER variable ?" ++ name ++ " is not selected"

/-- Why a text is no query at all. -/
inductive Malformed where
  /-- The text is not in the language of the grammar. -/
  | grammar
  | noPatterns
  | emptyFilter
  deriving DecidableEq

/-- The wording of a malformed text. -/
def Malformed.message : Malformed → String
  | grammar => "the text does not follow the query grammar"
  | noPatterns => "WHERE clause has no triple patterns"
  | emptyFilter => "empty FILTER"

/-- Why a query is refused. -/
inductive Fault where
  /-- Another form than SELECT, by its keyword in upper case. -/
  | form (keyword : String)
  | shape (fault : ShapeFault)
  | unsupported (construct : Unsupported)
  | malformed (reason : Malformed)
  deriving DecidableEq

/-- The wording of a refusal. -/
def Fault.message : Fault → String
  | form keyword => "Unsupported query type: " ++ keyword
  | shape fault => "Unsupported query shape: " ++ fault.message
  | unsupported construct => "Unsupported query: " ++ construct.message
  | malformed reason => "Malformed query: " ++ reason.message

end RdfStore.Query
