import RdfStore.Query.Fault
import RdfStore.Statement

/-!
# Query shapes

Six arrangements of triple patterns are evaluated, each by a matcher of its own. `Shape.classify`
recognises them, `Shape.matching` picks the statements that satisfy one, in their old order, and
`Shape.bind` turns a picked statement into a row.

URIs are compared by their full forms, labels and language tags without regard to case, and a
literal's datatype and language only where the query writes them.
-/

namespace RdfStore

/-- A solution: variable names and the nodes bound to them, in the order of the selection. -/
abbrev Row := OrderedMap String Node

namespace Query

/-! ## Comparing written terms with stored nodes -/

/-- Whether a stored and a written URI are the same, as they stand or in full. -/
def sameUri (ns : Namespaces) (stored written : String) : Bool :=
  decide (stored = written) || decide (ns.extend stored = ns.extend written)

/-- Whether a node is named by a written URI. -/
def isNamed (ns : Namespaces) (written : String) : Node → Bool
  | .named uri => sameUri ns uri written
  | _ => false

/-- Whether two texts differ at most in the case of ASCII letters. -/
def sameLetters (a b : String) : Bool :=
  decide (a.toList.map Char.toLower = b.toList.map Char.toLower)

/-- Whether a stored part of a literal satisfies a written one; what is not written asks nothing. -/
def partFits (same : String → String → Bool) (stored : Option String) : Option String → Bool
  | none => true
  | some written => stored.any fun stored => same stored written

/-- Whether a stored literal satisfies a written one. -/
def literalFits (ns : Namespaces) (stored written : Literal) : Bool :=
  decide (stored.value = written.value)
    && partFits sameLetters stored.language written.language
    && partFits (sameUri ns) stored.datatype written.datatype

/-! ## Constraints -/

/-- The object that a constraint asks for. -/
inductive ObjectConstant where
  | uri (text : String)
  | literal (literal : Literal)
  deriving DecidableEq, Inhabited

/-- What a pattern with constant predicate and object asks of a subject. -/
structure Constraint where
  predicate : String
  object : ObjectConstant
  deriving DecidableEq, Inhabited

/-- Whether a node is the object that a constraint asks for. -/
def ObjectConstant.fits (ns : Namespaces) : ObjectConstant → Node → Bool
  | uri text, node => isNamed ns text node
  | literal written, .literal stored => literalFits ns stored written
  | literal _, _ => false

/-- Whether a statement has the predicate and object of a constraint. -/
def Constraint.fits (ns : Namespaces) (c : Constraint) (t : Statement) : Bool :=
  isNamed ns c.predicate t.predicate && c.object.fits ns t.object

/-! ## Shapes -/

/-- The arrangements of triple patterns that are evaluated. -/
inductive Shape where
  /-- `?s ?p ?o`. -/
  | allStatements (subject predicate object : String)
  /-- `<uri> ?p ?o`. -/
  | bySubjectUri (uri predicate object : String)
  /-- `_:label ?p ?o`. -/
  | bySubjectBlank (label predicate object : String)
  /-- `?s <p> <o>` or `?s <p> "value"`. -/
  | subjectsByPredicateObject (subject : String) (constraint : Constraint)
  /-- `?s ?p ?o . ?s <p> <o>`. -/
  | constrained (subject predicate object : String) (constraint : Constraint)
  /-- `?s ?p ?o . ?s <p1> <o1> . ?s <p2> <o2>`, where the last object may be a literal. -/
  | doublyConstrained (subject predicate object : String) (first second : Constraint)
  deriving DecidableEq, Inhabited

namespace Shape

/-- The name of a shape. -/
def name : Shape → String
  | allStatements .. => "all_statements"
  | bySubjectUri .. => "by_subject_uri"
  | bySubjectBlank .. => "by_subject_blank"
  | subjectsByPredicateObject .. => "subjects_by_predicate_object"
  | constrained .. => "constrained"
  | doublyConstrained .. => "doubly_constrained"

/-! ### Classification -/

/-- The names of a pattern of three different variables. -/
def openPattern : TriplePattern → Option (String × String × String)
  | ⟨.variable s, .variable p, .variable o⟩ =>
    if s ≠ p ∧ p ≠ o ∧ s ≠ o then some (s, p, o) else none
  | _ => none

/-- The constraint that a further pattern puts on a subject variable. -/
def narrowing (subject : String) (literalAllowed : Bool) : TriplePattern → Option Constraint
  | ⟨.variable s, .uri p, .uri o⟩ => if s = subject then some ⟨p, .uri o⟩ else none
  | ⟨.variable s, .uri p, .literal o⟩ =>
    if s = subject ∧ literalAllowed then some ⟨p, .literal o⟩ else none
  | _ => none

/-- The shape of a single pattern. -/
def ofSingle (pattern : TriplePattern) : Except ShapeFault Shape :=
  match pattern with
  | ⟨.variable s, .variable p, .variable o⟩ =>
    if s ≠ p ∧ p ≠ o ∧ s ≠ o then .ok (.allStatements s p o) else .error (.single pattern)
  | ⟨.uri uri, .variable p, .variable o⟩ =>
    if p ≠ o then .ok (.bySubjectUri uri p o) else .error (.single pattern)
  | ⟨.blank label, .variable p, .variable o⟩ =>
    if p ≠ o then .ok (.bySubjectBlank label p o) else .error (.single pattern)
  | ⟨.variable s, .uri p, .uri o⟩ => .ok (.subjectsByPredicateObject s ⟨p, .uri o⟩)
  | ⟨.variable s, .uri p, .literal o⟩ => .ok (.subjectsByPredicateObject s ⟨p, .literal o⟩)
  | _ => .error (.single pattern)

/-- The names of the first of several patterns. -/
def openFirst (pattern : TriplePattern) : Except ShapeFault (String × String × String) :=
  match openPattern pattern with
  | some names => .ok names
  | none => .error (.firstNotOpen pattern)

/-- The constraint of a further pattern. -/
def narrow (subject : String) (literalAllowed : Bool) (pattern : TriplePattern) :
    Except ShapeFault Constraint :=
  match narrowing subject literalAllowed pattern with
  | some constraint => .ok constraint
  | none => .error (.notNarrowing subject literalAllowed pattern)

/-- The shape of a list of patterns. -/
def classify : List TriplePattern → Except ShapeFault Shape
  | [] => .error .noPatterns
  | [single] => ofSingle single
  | [full, further] => do
    let (s, p, o) ← openFirst full
    let constraint ← narrow s false further
    return .constrained s p o constraint
  | [full, further, last] => do
    let (s, p, o) ← openFirst full
    let first ← narrow s false further
    let second ← narrow s true last
    return .doublyConstrained s p o first second
  | patterns => .error (.tooMany patterns.length)

/-! ### Variables -/

/-- The variables of a shape with the positions they are bound at, in pattern order. -/
def bindings : Shape → List (String × Position)
  | allStatements s p o => [(s, .subject), (p, .predicate), (o, .object)]
  | bySubjectUri _ p o => [(p, .predicate), (o, .object)]
  | bySubjectBlank _ p o => [(p, .predicate), (o, .object)]
  | subjectsByPredicateObject s _ => [(s, .subject)]
  | constrained s p o _ => [(s, .subject), (p, .predicate), (o, .object)]
  | doublyConstrained s p o _ _ => [(s, .subject), (p, .predicate), (o, .object)]

/-- The variables of a shape, in pattern order. -/
def names (shape : Shape) : List String := shape.bindings.map Prod.fst

/-- The position that a variable is bound at. -/
def positionOf (shape : Shape) (name : String) : Option Position :=
  OrderedMap.lookup name shape.bindings

/-- The row that a statement makes. -/
def bind (shape : Shape) (t : Statement) : Row :=
  .ofList (shape.bindings.map fun (name, position) => (name, t.nodeAt position))

/-! ### Matching -/

/-- The subjects of the statements that satisfy a constraint. -/
def subjectsOf (ns : Namespaces) (c : Constraint) (statements : List Statement) : List Node :=
  (statements.filter (c.fits ns)).map Statement.subject

/-- The statements that satisfy a shape, in their old order. -/
def matching (ns : Namespaces) (statements : List Statement) : Shape → List Statement
  | allStatements .. => statements
  | bySubjectUri uri _ _ => statements.filter fun t => isNamed ns uri t.subject
  | bySubjectBlank label _ _ =>
    statements.filter fun t => t.subject.label?.any fun stored => sameLetters stored label
  | subjectsByPredicateObject _ c => statements.filter (c.fits ns)
  | constrained _ _ _ c =>
    let subjects := subjectsOf ns c statements
    statements.filter fun t => subjects.contains t.subject
  | doublyConstrained _ _ _ first second =>
    let candidates := subjectsOf ns first statements
    let subjects := (subjectsOf ns second statements).filter candidates.contains
    statements.filter fun t => subjects.contains t.subject

end Shape

end Query

end RdfStore
