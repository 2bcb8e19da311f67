import RdfStore.Node

/-!
# Why a statement is refused

Each way in which a statement, or a pattern's graph, can be unfit for the store, with its wording.
-/

namespace RdfStore

/-- A position of a statement, the graph included. -/
inductive Role where
  | subject
  | predicate
  | object
  | graph
  deriving DecidableEq, Inhabited

/-- The word for a position. -/
def Role.word : Role → String
  | subject => "subject"
  | predicate => "predicate"
  | object => "object"
  | graph => "graph"

/-- Why a statement is refused. -/
inductive StatementFault where
  /-- A placeholder stands where a stored statement needs a concrete node. -/
  | placeholder (role : Role) (name : Option String)
  /-- A named node has no URI. -/
  | emptyUri (role : Role)
  /-- The predicate is a literal or a blank node. -/
  | predicateNotNamed (node : Node)
  /-- The graph is a literal or a blank node. -/
  | graphNotNamed (node : Node)
  /-- The graph of a pattern is a literal or a blank node. -/
  | graphNotSelectable (node : Node)
  /-- A placeholder was handed to the primitive insertion. -/
  | notStorable (name : Option String)
  deriving DecidableEq

/-- The wording of a refusal. -/
def StatementFault.message : StatementFault → String
  | placeholder role name =>
    role.word ++ " is a pattern (" ++ Node.patternText name ++ "); stored statements must be concrete"
  | emptyUri role => role.word ++ " has an empty URI"
  | predicateNotNamed node => "predicate must be a named node, got " ++ node.text
  | graphNotNamed node => "graph must be a named node, got " ++ node.text
  | graphNotSelectable node => "graph must be a named node or a pattern, got " ++ node.text
  | notStorable name => "cannot store pattern " ++ Node.patternText name

end RdfStore
