import RdfStore.Namespaces
import RdfStore.Statement

/-!
# Normal form of statements

What the store keeps of a caller's statement: URIs and datatypes in full, blank labels replaced by
generated ones, and the graph it was written to. Patterns are extended in the same way, but keep
their blank labels, because they address stored ones.

A relabelling lives for one call. Its `n`-th new label takes the `n`-th of the draws that the
caller hands over, so that everything here is a function of its arguments.
-/

namespace RdfStore

/-! ## Extension -/

/-- A node with its URI or datatype in full; blank nodes and placeholders are left alone. -/
def Node.extend (ns : Namespaces) : Node → Node
  | .named uri => .named (ns.extend uri)
  | .literal l => .literal { l with datatype := l.datatype.map ns.extend }
  | n => n

/-- A pattern with all its URIs in full. -/
def Statement.extend (ns : Namespaces) (t : Statement) : Statement :=
  ⟨t.subject.extend ns, t.predicate.extend ns, t.object.extend ns, t.graph.map (Node.extend ns)⟩

/-- The graph that a statement is written to: the explicit one, else its own, else the default. -/
def Statement.target (ns : Namespaces) (explicit : Option String) (default : String)
    (t : Statement) : String :=
  match explicit with
  | some graph => ns.extend graph
  | none =>
    match t.graph.bind Node.uri? with
    | some graph => ns.extend graph
    | none => default

/-! ## Relabelling -/

/-- The random bits behind the generated labels of one call. -/
abbrev Draws := Nat → BitVec 128

/-- The last hexadecimal digits of a number, most significant first. -/
def hexDigits : Nat → Nat → List Char
  | 0, _ => []
  | count + 1, n => hexDigits count (n / 16) ++ [Digest.hexDigit (n % 16)]

/-- A generated label: a fixed word and thirty-two hexadecimal digits. -/
def generatedLabel (draw : BitVec 128) : String :=
  "genid" ++ String.ofList (hexDigits 32 draw.toNat)

/-- The labels that one call has replaced so far, and what replaced them. -/
structure Relabelling where
  table : OrderedMap String String

namespace Relabelling

/-- Nothing replaced yet. -/
def empty : Relabelling := ⟨.empty⟩

instance : Inhabited Relabelling := ⟨empty⟩

/-- The number of labels replaced so far. -/
def size (r : Relabelling) : Nat := r.table.size

/-- Whether no label has been replaced. -/
def isEmpty (r : Relabelling) : Bool := r.table.isEmpty

/-- The label that replaces a given one: the old answer if there is one, else the next draw. -/
def resolve (draws : Draws) (r : Relabelling) (label : String) : String × Relabelling :=
  match r.table.get? label with
  | some generated => (generated, r)
  | none =>
    let generated := generatedLabel (draws r.size)
    (generated, ⟨r.table.insert label generated⟩)

/-- A node in normal form. -/
def normalizeNode (ns : Namespaces) (draws : Draws) (r : Relabelling) :
    Node → Node × Relabelling
  | .blank label =>
    let (generated, r) := r.resolve draws label
    (.blank generated, r)
  | n => (n.extend ns, r)

/-- A statement in the normal form of a graph: subject, predicate and object in this order. -/
def normalize (ns : Namespaces) (draws : Draws) (graph : String) (r : Relabelling)
    (t : Statement) : Statement × Relabelling :=
  let (subject, r) := r.normalizeNode ns draws t.subject
  let (predicate, r) := r.normalizeNode ns draws t.predicate
  let (object, r) := r.normalizeNode ns draws t.object
  (⟨subject, predicate, object, some (.named graph)⟩, r)

end Relabelling

end RdfStore
