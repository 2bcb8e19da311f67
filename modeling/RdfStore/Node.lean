import RdfStore.Text.Quoted

/-!
# Nodes

The positions of a statement: named resources, literals, blank nodes, and the placeholders that
only patterns use. Every node has one canonical text, and identity by content (deduplication,
difference, distinct rows) is identity of canonical texts.
-/

namespace RdfStore

/-- A scalar value with an optional datatype URI and an optional language tag. -/
structure Literal where
  value : String
  datatype : Option String := none
  language : Option String := none
  deriving DecidableEq, Inhabited

/-- The canonical text of a literal: the escaped value in double quotes, then the language tag,
then the datatype. -/
def Literal.text (l : Literal) : String :=
  "\"" ++ String.ofList (Text.escape l.value.toList) ++ "\""
    ++ (match l.language with
      | some language => "@" ++ language
      | none => "")
    ++ (match l.datatype with
      | some datatype => "^^<" ++ datatype ++ ">"
      | none => "")

/-- One position of a statement. -/
inductive Node where
  /-- A resource with a URI. -/
  | named (uri : String)
  /-- A literal value. -/
  | literal (literal : Literal)
  /-- An anonymous resource, known by its label within one store. -/
  | blank (label : String)
  /-- A variable, or the wildcard if it has no name; never part of a stored statement. -/
  | pattern (name : Option String)
  deriving DecidableEq, Inhabited

namespace Node

/-- The canonical text of a placeholder. -/
def patternText (name : Option String) : String := "?" ++ name.getD ""

/-- The canonical text of a node. -/
def text : Node → String
  | named uri => "<" ++ uri ++ ">"
  | literal l => l.text
  | blank label => "_:" ++ label
  | pattern name => patternText name

/-- Whether a node is a placeholder. -/
def isPattern : Node → Bool
  | pattern _ => true
  | _ => false

/-- Whether a node may stand in a stored statement. -/
def isConcrete (n : Node) : Bool := !n.isPattern

/-- The URI of a named node. -/
def uri? : Node → Option String
  | named uri => some uri
  | _ => none

/-- The label of a blank node. -/
def label? : Node → Option String
  | blank label => some label
  | _ => none

/-- The literal of a literal node. -/
def literal? : Node → Option Literal
  | literal l => some l
  | _ => none

end Node

end RdfStore
