import RdfStore.Digest
import RdfStore.Node

/-!
# Statements

A subject, a predicate and an object, optionally in a graph. A statement's canonical form is the
row of its nodes' canonical texts; its content digest is the digest of that text, and the triple
digest, which leaves the graph out, is what deduplication within a graph goes by.
-/

namespace RdfStore

/-- A fact, or a pattern for facts, optionally in a graph. -/
structure Statement where
  subject : Node
  predicate : Node
  object : Node
  graph : Option Node := none
  deriving DecidableEq, Inhabited

/-- The three positions that a query can bind. -/
inductive Position where
  | subject
  | predicate
  | object
  deriving DecidableEq, Inhabited

namespace Position

/-- The word for a position. -/
def word : Position → String
  | subject => "subject"
  | predicate => "predicate"
  | object => "object"

end Position

namespace Statement

/-- The node at a position. -/
def nodeAt (t : Statement) : Position → Node
  | .subject => t.subject
  | .predicate => t.predicate
  | .object => t.object

/-- Whether a statement names a graph. -/
def isQuad (t : Statement) : Bool := t.graph.isSome

/-- The canonical form: the texts of subject, predicate and object, and of the graph if it is
asked for and present. -/
def canonical (t : Statement) (withGraph : Bool) : String :=
  t.subject.text ++ " " ++ t.predicate.text ++ " " ++ t.object.text
    ++ (match withGraph, t.graph with
      | true, some graph => " " ++ graph.text
      | _, _ => "")

/-- The statement as one line of text. -/
def text (t : Statement) : String := t.canonical true ++ " ."

/-- The digest of the canonical form. -/
def digest (t : Statement) (withGraph : Bool) : Digest := Digest.ofText (t.canonical withGraph)

/-- The digest of subject, predicate and object. -/
def tripleDigest (t : Statement) : Digest := t.digest false

/-! ## Matching -/

/-- Whether a node fits a pattern's node: placeholders fit everything, other nodes themselves. -/
def nodeFits (stored pattern : Node) : Bool := pattern.isPattern || decide (stored = pattern)

/-- Whether a statement fits a pattern in all three positions; graphs are not looked at. -/
def fits (t pattern : Statement) : Bool :=
  nodeFits t.subject pattern.subject && nodeFits t.predicate pattern.predicate
    && nodeFits t.object pattern.object

end Statement

end RdfStore
