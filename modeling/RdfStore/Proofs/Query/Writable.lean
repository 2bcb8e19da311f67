import RdfStore.Query.Token
import RdfStore.Query.Written

/-!
# Queries that can be written down

Any text may stand in a query as a value, but a name can only be written if its characters are
those that the language knows for it. `Select.Writable` says so for a whole query, class by class:
names of variables, prefixes, blank labels, language tags and URIs. A literal has at most one of a
language and a datatype, and its value is free, because the written form escapes it. The lists that
the grammar never leaves empty are not empty here either. These are all the queries that any text is
read as (`writable_of_parse` in `RdfStore.Proofs.Query.Sound`).
-/

namespace RdfStore.Query

/-- At least one character, all of one class. -/
def IsRun (p : Char → Bool) (text : List Char) : Prop := text ≠ [] ∧ ∀ c ∈ text, p c = true

instance (p : Char → Bool) (text : List Char) : Decidable (IsRun p text) :=
  @instDecidableAnd _ _ inferInstance (List.decidableBAll _ text)

/-- A name of a variable. -/
def IsName (name : String) : Prop := IsRun Token.isNameChar name.toList

instance (name : String) : Decidable (IsName name) := inferInstanceAs (Decidable (IsRun _ _))

/-- A label of a blank node. -/
def IsLabel (label : String) : Prop := IsRun Token.isLabelChar label.toList

instance (label : String) : Decidable (IsLabel label) := inferInstanceAs (Decidable (IsRun _ _))

/-- A URI without angle brackets and blanks. -/
def IsUri (uri : String) : Prop := ∀ c ∈ uri.toList, Token.isUriChar c = true

instance (uri : String) : Decidable (IsUri uri) := List.decidableBAll _ uri.toList

/-- A prefix: nothing, or a letter and further characters of labels. -/
def IsPrefix (name : String) : Prop :=
  name.toList.head?.all Char.isAlpha = true ∧ ∀ c ∈ name.toList.tail, Token.isLabelChar c = true

instance (name : String) : Decidable (IsPrefix name) :=
  @instDecidableAnd _ _ inferInstance (List.decidableBAll _ name.toList.tail)

theorem IsPrefix.isLabelChar {name : String} (h : IsPrefix name) :
    ∀ c ∈ name.toList, Token.isLabelChar c = true := by
  obtain ⟨first, others⟩ := h
  intro c mem
  cases chars : name.toList with
  | nil =>
      rw [chars] at mem
      cases mem
  | cons d rest =>
      rw [chars] at mem first others
      rcases List.mem_cons.1 mem with rfl | mem
      · have letter : c.isAlpha = true := first
        simp [Token.isLabelChar, Char.isAlphanum, letter]
      · exact others c mem

/-- A language tag: letters, and subtags of letters and digits behind hyphens. -/
def IsTag (tag : String) : Prop :=
  ∃ (main : List Char) (subs : List (List Char)),
    tag.toList = main ++ subs.flatMap ('-' :: ·) ∧ IsRun Char.isAlpha main ∧
      ∀ sub ∈ subs, IsRun Char.isAlphanum sub

/-- A literal that can be written, whatever its value. -/
structure LiteralWritable (l : Literal) : Prop where
  single : l.language = none ∨ l.datatype = none
  language : ∀ tag, l.language = some tag → IsTag tag
  datatype : ∀ uri, l.datatype = some uri → IsUri uri

/-- A term that can be written. -/
def Term.Writable : Term → Prop
  | «variable» name => IsName name
  | uri text => IsUri text
  | literal l => LiteralWritable l
  | blank label => IsLabel label

/-- A pattern that can be written. -/
structure TriplePattern.Writable (p : TriplePattern) : Prop where
  subject : p.subject.Writable
  predicate : p.predicate.Writable
  object : p.object.Writable

/-- A comparison that can be written. -/
structure Comparison.Writable (c : Comparison) : Prop where
  name : IsName c.name
  uri : IsUri c.uri

/-- A selection that can be written: everything, or at least one name. -/
def Projection.Writable : Projection → Prop
  | all => True
  | listed names => names ≠ [] ∧ ∀ name ∈ names, IsName name

/-- A filter that can be written: none, or at least one comparison. -/
def FilterWritable : Option (List Comparison) → Prop
  | none => True
  | some found => found ≠ [] ∧ ∀ c ∈ found, c.Writable

/-- A query that can be written. -/
structure Select.Writable (q : Select) : Prop where
  prefixes : ∀ entry ∈ q.prefixes, IsPrefix entry.1 ∧ IsUri entry.2
  graphs : ∀ graph ∈ q.graphs, IsUri graph
  projection : q.projection.Writable
  patterns_ne_nil : q.patterns ≠ []
  patterns : ∀ p ∈ q.patterns, p.Writable
  filter : FilterWritable q.filter

end RdfStore.Query
