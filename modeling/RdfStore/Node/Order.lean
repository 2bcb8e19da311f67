import RdfStore.Node

/-!
# The order of nodes

Named nodes come before literals, literals before blank nodes, blank nodes before placeholders.
Within a kind texts are compared by code points, which is the order of their UTF-8 bytes;
literals by value, then datatype, then language, an absent part before every present one.
-/

namespace RdfStore

/-- An absent text before every text. -/
def compareOptional : Option String → Option String → Ordering
  | none, none => .eq
  | none, some _ => .lt
  | some _, none => .gt
  | some a, some b => compare a b

/-- Value, then datatype, then language. -/
def Literal.compare (a b : Literal) : Ordering :=
  (Ord.compare a.value b.value).then
    ((compareOptional a.datatype b.datatype).then (compareOptional a.language b.language))

namespace Node

/-- The place of a node's kind among the kinds. -/
def rank : Node → Nat
  | named _ => 0
  | literal _ => 1
  | blank _ => 2
  | pattern _ => 3

/-- The order of two nodes. -/
def compare : Node → Node → Ordering
  | named a, named b => Ord.compare a b
  | literal a, literal b => a.compare b
  | blank a, blank b => Ord.compare a b
  | pattern a, pattern b => compareOptional a b
  | a, b => Ord.compare a.rank b.rank

/-- Nodes in ascending order; equal nodes keep their order. -/
def sort (nodes : List Node) : List Node := nodes.mergeSort fun a b => (a.compare b).isLE

/-- The number of different nodes in a list. -/
def countDistinct (nodes : List Node) : Nat := nodes.eraseDups.length

end Node

end RdfStore
