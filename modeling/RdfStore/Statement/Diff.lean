import RdfStore.OrderedMap
import RdfStore.Statement

/-!
# Difference of two collections

Statements are told apart by their content digest, with or without their graph. Within one side
later statements with a known digest are ignored, and each side of the difference keeps the order
of first occurrence.
-/

namespace RdfStore

/-- The statements that only one of two collections holds. -/
structure StatementDiff where
  onlyLeft : List Statement
  onlyRight : List Statement
  deriving DecidableEq

namespace StatementDiff

/-- Whether both collections hold the same statements. -/
def isEmpty (d : StatementDiff) : Bool := d.onlyLeft.isEmpty && d.onlyRight.isEmpty

/-- The difference seen from the other side. -/
def reversed (d : StatementDiff) : StatementDiff := ⟨d.onlyRight, d.onlyLeft⟩

/-- The first statement with each digest, in order of first occurrence. -/
def index (withGraph : Bool) (statements : List Statement) : OrderedMap Digest Statement :=
  statements.foldl (fun known t => known.insertNew (t.digest withGraph) t) .empty

/-- The statements of one index whose digest the other lacks. -/
def only (here there : OrderedMap Digest Statement) : List Statement :=
  (here.filter fun digest _ => !there.contains digest).values

/-- The difference of two collections. -/
def between (withGraph : Bool) (left right : List Statement) : StatementDiff :=
  let leftIndex := index withGraph left
  let rightIndex := index withGraph right
  ⟨only leftIndex rightIndex, only rightIndex leftIndex⟩

end StatementDiff

end RdfStore
