import RdfStore.Query.Diagnosis
import RdfStore.Query.Grammar

/-!
# Reading a query

`parse` is the front door of the query language: the form of the text is judged first, then the
grammar reads it, and a text that the grammar rejects is diagnosed. What the grammar accepts must
have at most one filter and at least one triple pattern, and two filters are reported first.
-/

namespace RdfStore.Query

/-- The one filter of a query, if it has at most one. -/
def soleFilter : Option (List Comparison) → Option (List Comparison) →
    Except Fault (Option (List Comparison))
  | some _, some _ => .error (.unsupported .severalFilters)
  | some inner, none => .ok (some inner)
  | none, outer => .ok outer

/-- The query that clauses make. -/
def Clauses.toSelect (c : Clauses) : Except Fault Select :=
  match soleFilter c.innerFilter c.outerFilter with
  | .error fault => .error fault
  | .ok filter =>
    if c.patterns = [] then .error (.malformed .noPatterns)
    else .ok ⟨c.prefixes, c.graphs, c.projection, c.distinct, c.patterns, filter⟩

/-- Read a query. -/
def parse (text : String) : Except Fault Select :=
  match formOf text.toList with
  | .other keyword => .error (.form keyword)
  | .select | .unknown =>
    match Grammar.clauses text.toList with
    | some clauses => clauses.toSelect
    | none => .error (diagnose text.toList)

end RdfStore.Query
