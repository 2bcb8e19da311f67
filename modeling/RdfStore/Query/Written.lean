import RdfStore.Query.Syntax

/-!
# Queries as text

The written form of a query on one line: URIs in angle brackets, literals and blank nodes in their
canonical texts, one space between tokens. A layout says where the filter stands and how many pairs
of brackets are put around each of its comparisons; neither changes the query.
-/

namespace RdfStore.Query

/-- The choices that the written form of a query leaves open. -/
structure Layout where
  /-- Whether the filter stands behind the closing brace. -/
  filterBehind : Bool
  /-- The number of pairs of brackets around the comparison with a number. -/
  brackets : Nat → Nat

/-- The filter inside the braces and no needless brackets. -/
def Layout.plain : Layout := ⟨false, fun _ => 0⟩

namespace Written

/-- A URI in angle brackets. -/
def uri (text : String) : List Char := '<' :: text.toList ++ ['>']

/-- A variable with its sign. -/
def «variable» (name : String) : List Char := '?' :: name.toList

/-- A term. -/
def term : Term → List Char
  | .variable name => «variable» name
  | .uri text => uri text
  | .literal l => l.text.toList
  | .blank label => '_' :: ':' :: label.toList

/-- Three terms with spaces between them. -/
def triple (p : TriplePattern) : List Char :=
  term p.subject ++ ' ' :: term p.predicate ++ ' ' :: term p.object

/-- Pieces with a separator between them. -/
def separated (separator : List Char) : List (List Char) → List Char
  | [] => []
  | [piece] => piece
  | piece :: rest => piece ++ separator ++ separated separator rest

/-- PREFIX declarations, each with a space behind it. -/
def prefixes (entries : List (String × String)) : List Char :=
  entries.flatMap fun entry =>
    "PREFIX ".toList ++ entry.1.toList ++ ':' :: ' ' :: uri entry.2 ++ [' ']

/-- A projection. -/
def projection : Projection → List Char
  | .all => ['*']
  | .listed names => separated [' '] (names.map «variable»)

/-- FROM clauses, each with a space in front of it. -/
def graphs (names : List String) : List Char :=
  names.flatMap fun name => " FROM ".toList ++ uri name

/-- A comparison inside a number of pairs of brackets. -/
def comparison (brackets : Nat) (c : Comparison) : List Char :=
  List.replicate brackets '(' ++ «variable» c.name ++ " = ".toList ++ uri c.uri
    ++ List.replicate brackets ')'

/-- Comparisons with the numbers from the given one on. -/
def comparisons (brackets : Nat → Nat) : Nat → List Comparison → List (List Char)
  | _, [] => []
  | n, c :: rest => comparison (brackets n) c :: comparisons brackets (n + 1) rest

/-- A filter with a space in front of it, or nothing. -/
def filter (brackets : Nat → Nat) : Option (List Comparison) → List Char
  | none => []
  | some found =>
    " FILTER (".toList ++ separated " || ".toList (comparisons brackets 0 found) ++ [')']

/-- Triple patterns between full stops. -/
def patterns (found : List TriplePattern) : List Char := separated " . ".toList (found.map triple)

end Written

/-- The written form of a query. -/
def Select.written (layout : Layout) (q : Select) : List Char :=
  let filter := Written.filter layout.brackets q.filter
  Written.prefixes q.prefixes ++ "SELECT ".toList
    ++ (if q.distinct then "DISTINCT ".toList else [])
    ++ Written.projection q.projection ++ Written.graphs q.graphs
    ++ " WHERE \x7b ".toList ++ Written.patterns q.patterns
    ++ (if layout.filterBehind then [] else filter)
    ++ " \x7d".toList
    ++ (if layout.filterBehind then filter else [])

end RdfStore.Query
