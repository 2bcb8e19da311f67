import RdfStore.Query.Token

/-!
# Grammar of the query language

A query is a prologue of PREFIX declarations, SELECT with DISTINCT and a projection, FROM clauses,
an optional WHERE, a group of triple patterns in braces, and at most one filter inside the group
and one behind it:

    (PREFIX name: <uri>)*  SELECT  DISTINCT?  (* | ?v+)  (FROM uri)*  WHERE?
      { (s p o (. s p o)* .?)?  filter? }  filter?

Choices are ordered and repetitions take as much as they can. Every part passes over blanks and
comments in front of its tokens, so a repetition that stops may leave them to what follows.
Recursion is bounded by the length of the text: a repetition's step and a nested comparison both
read at least one character.
-/

namespace RdfStore.Query

/-- The clauses of a text in the language of the grammar. -/
structure Clauses where
  prefixes : List (String × String)
  distinct : Bool
  projection : Projection
  graphs : List String
  patterns : List TriplePattern
  /-- The filter inside the braces. -/
  innerFilter : Option (List Comparison)
  /-- The filter behind the braces. -/
  outerFilter : Option (List Comparison)
  deriving DecidableEq

namespace Grammar

open Text (Scan mark)
open Token

/-- A part as often as it can be read, at most a number of times. -/
def manyUpTo {α : Type} (part : Scan α) : Nat → List Char → List α × List Char
  | 0, text => ([], text)
  | n + 1, text =>
    match part (skip text) with
    | some (first, rest) =>
      let (more, rest) := manyUpTo part n rest
      (first :: more, rest)
    | none => ([], text)

/-- A part as often as it can be read. -/
def many {α : Type} (part : Scan α) (text : List Char) : List α × List Char :=
  manyUpTo part text.length text

/-- A part or nothing. -/
def optional {α : Type} (part : Scan α) (text : List Char) : Option α × List Char :=
  match part (skip text) with
  | some (found, rest) => (some found, rest)
  | none => (none, text)

/-! ## Clauses in front of the group -/

/-- `PREFIX name: <uri>`. -/
def prefixDecl : Scan (String × String) := fun text => do
  let text ← keyword "PREFIX".toList text
  let (name, text) ← prefixName (skip text)
  let (uri, text) ← uri (skip text)
  return ((name, uri), text)

/-- `*` or at least one variable. -/
def projection : Scan Projection := fun text =>
  match mark '*' text with
  | some rest => some (.all, rest)
  | none => do
    let (first, rest) ← «variable» text
    let (more, rest) := many «variable» rest
    return (.listed (first :: more), rest)

/-- `FROM uri`. -/
def fromClause : Scan String := fun text => do
  let text ← keyword "FROM".toList text
  anyUri (skip text)

/-! ## The group -/

/-- Three terms. -/
def triple : Scan TriplePattern := fun text => do
  let (subject, text) ← term text
  let (predicate, text) ← term (skip text)
  let (object, text) ← term (skip text)
  return (⟨subject, predicate, object⟩, text)

/-- A full stop and three terms. -/
def furtherTriple : Scan TriplePattern := fun text => do
  let text ← mark '.' text
  triple (skip text)

/-- Triple patterns between full stops; a last full stop may close the list. -/
def triples : Scan (List TriplePattern) := fun text => do
  let (first, text) ← triple text
  let (more, text) := many furtherTriple text
  return (first :: more, (mark '.' (skip text)).getD text)

/-- `?v = uri`. -/
def equation : Scan Comparison := fun text => do
  let (name, text) ← «variable» text
  let text ← mark '=' (skip text)
  let (uri, text) ← anyUri (skip text)
  return (⟨name, uri⟩, text)

/-- An equation inside at most a number of pairs of brackets. -/
def comparisonUpTo : Nat → Scan Comparison
  | 0, text => equation text
  | n + 1, text =>
    match mark '(' text with
    | none => equation text
    | some inner => do
      let (found, rest) ← comparisonUpTo n (skip inner)
      let rest ← mark ')' (skip rest)
      return (found, rest)

/-- An equation inside any number of pairs of brackets. -/
def comparison : Scan Comparison := fun text => comparisonUpTo text.length text

/-- `||` and a comparison. -/
def furtherComparison : Scan Comparison := fun text => do
  let text ← mark '|' text
  let text ← mark '|' text
  comparison (skip text)

/-- `FILTER ( comparison || … )`. -/
def filter : Scan (List Comparison) := fun text => do
  let text ← keyword "FILTER".toList text
  let text ← mark '(' (skip text)
  let (first, text) ← comparison (skip text)
  let (more, text) := many furtherComparison text
  let text ← mark ')' (skip text)
  return (first :: more, text)

/-- Triple patterns and a filter in braces. -/
def group : Scan (List TriplePattern × Option (List Comparison)) := fun text => do
  let text ← mark '\x7b' text
  let (patterns, text) := optional triples text
  let (inner, text) := optional filter text
  let text ← mark '\x7d' (skip text)
  return ((patterns.getD [], inner), text)

/-! ## The query -/

/-- The clauses of a whole text. -/
def clauses (text : List Char) : Option Clauses := do
  let (prefixes, text) := many prefixDecl text
  let text ← keyword "SELECT".toList (skip text)
  let (distinct, text) := optional (fun text => (keyword "DISTINCT".toList text).map ((), ·)) text
  let (projection, text) ← projection (skip text)
  let (graphs, text) := many fromClause text
  let text := (keyword "WHERE".toList (skip text)).getD text
  let ((patterns, innerFilter), text) ← group (skip text)
  let (outerFilter, text) := optional filter text
  if skip text = [] then
    return ⟨prefixes, distinct.isSome, projection, graphs, patterns, innerFilter, outerFilter⟩
  else
    none

end Grammar

end RdfStore.Query
