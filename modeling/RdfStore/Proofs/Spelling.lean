import Mathlib.Data.List.Forall2
import RdfStore.Statement.Normal

/-!
# Spellings

A URI can be written in several ways that a table of prefixes extends to one text. Nodes, patterns
and statements that differ only in how their URIs are spelled are the same to a store: they have
one full form (`Statement.respelled_iff`), they go to the same graph
(`Statement.Respelled.target`), and they are stored in one normal form
(`Statement.Respelled.normalize`).
-/

namespace RdfStore

/-! ## The same but for the spelling of URIs -/

/-- Two texts that the prefixes extend to the same URI. -/
def Namespaces.Respelled (ns : Namespaces) (u v : String) : Prop := ns.extend u = ns.extend v

/-- Two literals that differ at most in the spelling of the datatype. -/
structure Literal.Respelled (ns : Namespaces) (l m : Literal) : Prop where
  value : l.value = m.value
  language : l.language = m.language
  datatype : Option.Rel ns.Respelled l.datatype m.datatype

/-- Two nodes that differ at most in the spelling of a URI or a datatype. -/
inductive Node.Respelled (ns : Namespaces) : Node → Node → Prop
  | named {u v : String} : ns.Respelled u v → Respelled ns (.named u) (.named v)
  | literal {l m : Literal} : l.Respelled ns m → Respelled ns (.literal l) (.literal m)
  | blank (label : String) : Respelled ns (.blank label) (.blank label)
  | pattern (name : Option String) : Respelled ns (.pattern name) (.pattern name)

/-- Two statements or patterns that differ at most in the spelling of URIs. -/
structure Statement.Respelled (ns : Namespaces) (t u : Statement) : Prop where
  subject : t.subject.Respelled ns u.subject
  predicate : t.predicate.Respelled ns u.predicate
  object : t.object.Respelled ns u.object
  graph : Option.Rel (Node.Respelled ns) t.graph u.graph

/-! ## One full form -/

theorem optionRel_iff {α β : Type} {R : α → α → Prop} (f : α → β)
    (image : ∀ a b, R a b ↔ f a = f b) {x y : Option α} :
    Option.Rel R x y ↔ x.map f = y.map f := by
  constructor
  · intro h
    cases h with
    | none => rfl
    | some related => exact congrArg some ((image _ _).1 related)
  · intro same
    cases x with
    | none =>
        cases y with
        | none => exact .none
        | some b => cases same
    | some a =>
        cases y with
        | none => cases same
        | some b => exact .some ((image a b).2 (Option.some.inj same))

section

variable {ns : Namespaces}

theorem Literal.respelled_iff {l m : Literal} :
    l.Respelled ns m ↔ (Node.literal l).extend ns = (Node.literal m).extend ns := by
  simp only [Node.extend, Node.literal.injEq, Literal.mk.injEq]
  constructor
  · intro h
    exact ⟨h.value, (optionRel_iff ns.extend fun _ _ => Iff.rfl).1 h.datatype, h.language⟩
  · intro same
    rcases same with ⟨value, datatype, language⟩
    exact ⟨value, language, (optionRel_iff ns.extend fun _ _ => Iff.rfl).2 datatype⟩

theorem Node.respelled_iff {n m : Node} : n.Respelled ns m ↔ n.extend ns = m.extend ns := by
  constructor
  · intro h
    cases h with
    | named same => exact congrArg Node.named same
    | literal same => exact Literal.respelled_iff.1 same
    | blank | pattern => rfl
  · intro same
    cases n with
    | named u =>
        cases m with
        | named v => exact .named (Node.named.inj same)
        | literal | blank | pattern => cases same
    | literal l =>
        cases m with
        | literal l' => exact .literal (Literal.respelled_iff.2 same)
        | named | blank | pattern => cases same
    | blank label =>
        cases m with
        | blank => cases same; exact .blank label
        | named | literal | pattern => cases same
    | pattern name =>
        cases m with
        | pattern => cases same; exact .pattern name
        | named | literal | blank => cases same

/-- Statements are respellings of each other exactly if they are the same in full. -/
theorem Statement.respelled_iff {t u : Statement} :
    t.Respelled ns u ↔ t.extend ns = u.extend ns := by
  have graphs : Option.Rel (Node.Respelled ns) t.graph u.graph ↔
      t.graph.map (Node.extend ns) = u.graph.map (Node.extend ns) :=
    optionRel_iff (Node.extend ns) fun _ _ => Node.respelled_iff
  simp only [Statement.extend, Statement.mk.injEq, ← Node.respelled_iff, ← graphs]
  constructor
  · intro h
    exact ⟨h.subject, h.predicate, h.object, h.graph⟩
  · intro same
    rcases same with ⟨subject, predicate, object, graph⟩
    exact ⟨subject, predicate, object, graph⟩

instance (t u : Statement) : Decidable (t.Respelled ns u) :=
  decidable_of_iff _ Statement.respelled_iff.symm

/-! ## One target and one normal form -/

theorem Node.Respelled.uri? {n m : Node} (h : n.Respelled ns m) :
    Option.Rel ns.Respelled n.uri? m.uri? := by
  cases h with
  | named same => exact .some same
  | literal | blank | pattern => exact .none

theorem Node.optionRel_uri? {x y : Option Node} (h : Option.Rel (Node.Respelled ns) x y) :
    Option.Rel ns.Respelled (x.bind Node.uri?) (y.bind Node.uri?) := by
  cases h with
  | none => exact .none
  | some same => exact same.uri?

/-- Where a statement is written to does not depend on the spelling of the graph. -/
theorem Statement.Respelled.target {t u : Statement} (h : t.Respelled ns u)
    {graph graph' : Option String} (given : Option.Rel ns.Respelled graph graph')
    (default : String) : t.target ns graph default = u.target ns graph' default := by
  have own := Node.optionRel_uri? h.graph
  unfold Statement.target
  generalize t.graph.bind Node.uri? = g at own ⊢
  generalize u.graph.bind Node.uri? = g' at own ⊢
  cases given with
  | some same => exact same
  | none =>
      cases own with
      | none => rfl
      | some same => exact same

theorem Node.Respelled.normalizeNode {n m : Node} (h : n.Respelled ns m) (draws : Draws)
    (r : Relabelling) : r.normalizeNode ns draws n = r.normalizeNode ns draws m := by
  cases h with
  | blank | pattern => rfl
  | named same =>
      have full := Node.respelled_iff.1 (.named same)
      exact congrArg (·, r) full
  | literal same =>
      have full := Node.respelled_iff.1 (.literal same)
      exact congrArg (·, r) full

/-- What is stored of a statement does not depend on the spelling of its URIs. -/
theorem Statement.Respelled.normalize {t u : Statement} (h : t.Respelled ns u) (draws : Draws)
    (graph : String) (r : Relabelling) :
    r.normalize ns draws graph t = r.normalize ns draws graph u := by
  simp only [Relabelling.normalize, h.subject.normalizeNode, h.predicate.normalizeNode,
    h.object.normalizeNode]

end

end RdfStore
