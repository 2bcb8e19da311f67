import RdfStore.Query.Shape

/-!
# Filters

A filter restricts one variable to a set of URIs. It must compare a single variable, which the
triple patterns bind and the query selects.
-/

namespace RdfStore.Query

/-- A resolved filter: a variable, the position it is bound at and the URIs it may have, in full
and without repetition. -/
structure Filter where
  name : String
  position : Position
  uris : List String
  deriving DecidableEq

/-- The full forms of a list of URIs, each once, in order of first occurrence. -/
def extendAll (ns : Namespaces) (uris : List String) : List String :=
  uris.foldl (fun known uri =>
    let full := ns.extend uri
    if known.contains full then known else known ++ [full]) []

namespace Filter

/-- Resolve a filter's comparisons against a shape and a selection. -/
def resolve (ns : Namespaces) (shape : Shape) (selected : List String) :
    List Comparison → Except Fault Filter
  | [] => .error (.malformed .emptyFilter)
  | first :: rest =>
    if rest.any fun c => decide (c.name ≠ first.name) then .error (.unsupported .filterMixed)
    else
      match shape.positionOf first.name with
      | none => .error (.unsupported (.filterUnbound first.name))
      | some position =>
        if selected.contains first.name then
          .ok ⟨first.name, position, extendAll ns ((first :: rest).map Comparison.uri)⟩
        else .error (.unsupported (.filterNotSelected first.name))

/-- Whether a statement has one of a filter's URIs at its position. -/
def accepts (ns : Namespaces) (f : Filter) (t : Statement) : Bool :=
  (t.nodeAt f.position).uri?.any fun uri => f.uris.contains (ns.extend uri)

end Filter

end RdfStore.Query
