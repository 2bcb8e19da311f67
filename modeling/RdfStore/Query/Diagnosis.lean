import RdfStore.Query.Fault
import RdfStore.Query.Form

/-!
# Why a text does not follow the grammar

A text that the grammar rejects is searched for constructs that the full query language has and
this subset lacks. URIs and quoted strings are blanked out first, so that their content cannot be
mistaken for one.
-/

namespace RdfStore.Query

/-- The keywords of the full language that are outside the subset. -/
def foreignKeywords : List String :=
  ["OPTIONAL", "UNION", "MINUS", "GRAPH", "BIND", "VALUES", "SERVICE", "ORDER", "GROUP", "HAVING",
    "LIMIT", "OFFSET", "REDUCED", "EXISTS", "BASE"]

/-- The text without URIs and quoted strings, each of which leaves one space. The first argument
is the character that closes the open one; an open one at the end takes the rest with it. -/
def outsideTerms : Option Char → List Char → List Char
  | _, [] => []
  | some close, c :: text =>
    if c = close then ' ' :: outsideTerms none text else outsideTerms (some close) text
  | none, c :: text =>
    if c = '<' then outsideTerms (some '>') text
    else if c = '"' || c = '\'' then outsideTerms (some c) text
    else c :: outsideTerms none text

/-- The words of a text: runs of letters and digits. The first argument is the open word, last
character first. -/
def wordsFrom : List Char → List Char → List (List Char)
  | word, [] => [word.reverse]
  | word, c :: text =>
    if c.isAlphanum then wordsFrom (c :: word) text else word.reverse :: wordsFrom [] text

/-- The words of a text in upper case; between two neighbouring separators stands an empty one. -/
def upperWords (text : List Char) : List String :=
  (wordsFrom [] text).map fun word => String.ofList (word.map Char.toUpper)

/-- The fault of a text that the grammar rejects. -/
def diagnose (text : List Char) : Fault :=
  let code := outsideTerms none (codeOf text)
  if Text.occursIn ['&', '&'] code then .unsupported .conjunction
  else if Text.occursIn ['!', '='] code then .unsupported .inequality
  else
    match (upperWords code).find? foreignKeywords.contains with
    | some word => .unsupported (.keyword word)
    | none => .malformed .grammar

end RdfStore.Query
