import RdfStore.Proofs.Query.Assignment
import RdfStore.Proofs.Query.Plan
import RdfStore.Proofs.Spelling

/-!
# Spellings in queries

Queries that differ only in how their URIs are spelled, under the prefixes they are run with, have
the same answers. Every stage from the written query to its rows keeps them together:

* `Shape.classify_related`: they are refused in the same words, or have shapes that differ only in
  spelling.
* `Shape.Respelled.matching`: such shapes pick the same statements.
* `Plan.ofSelect_related` and `Plan.Respelled.run`: their plans have the same solutions.
-/

namespace RdfStore.Query

/-! ## The same but for the spelling of URIs -/

/-- Two terms that differ at most in the spelling of a URI or a datatype. -/
inductive Term.Respelled (ns : Namespaces) : Term → Term → Prop
  | variable (name : String) : Respelled ns (.variable name) (.variable name)
  | uri {u v : String} : ns.Respelled u v → Respelled ns (.uri u) (.uri v)
  | literal {l m : Literal} : l.Respelled ns m → Respelled ns (.literal l) (.literal m)
  | blank (label : String) : Respelled ns (.blank label) (.blank label)

/-- Two patterns for triples that differ at most in spelling. -/
structure TriplePattern.Respelled (ns : Namespaces) (p q : TriplePattern) : Prop where
  subject : p.subject.Respelled ns q.subject
  predicate : p.predicate.Respelled ns q.predicate
  object : p.object.Respelled ns q.object

/-- Two comparisons of one variable with one URI. -/
structure Comparison.Respelled (ns : Namespaces) (c d : Comparison) : Prop where
  name : c.name = d.name
  uri : ns.Respelled c.uri d.uri

/-- Two queries that differ at most in the spelling of the URIs in their patterns, graphs and
filters. -/
structure Select.Respelled (ns : Namespaces) (q r : Select) : Prop where
  prefixes : q.prefixes = r.prefixes
  graphs : List.Forall₂ ns.Respelled q.graphs r.graphs
  projection : q.projection = r.projection
  distinct : q.distinct = r.distinct
  patterns : List.Forall₂ (TriplePattern.Respelled ns) q.patterns r.patterns
  filter : Option.Rel (List.Forall₂ (Comparison.Respelled ns)) q.filter r.filter

/-- Two objects of constraints that differ at most in spelling. -/
inductive ObjectConstant.Respelled (ns : Namespaces) : ObjectConstant → ObjectConstant → Prop
  | uri {u v : String} : ns.Respelled u v → Respelled ns (.uri u) (.uri v)
  | literal {l m : Literal} : l.Respelled ns m → Respelled ns (.literal l) (.literal m)

/-- Two constraints that differ at most in spelling. -/
structure Constraint.Respelled (ns : Namespaces) (c d : Constraint) : Prop where
  predicate : ns.Respelled c.predicate d.predicate
  object : c.object.Respelled ns d.object

/-- Two shapes of one kind with the same variables that differ at most in spelling. -/
inductive Shape.Respelled (ns : Namespaces) : Shape → Shape → Prop
  | allStatements (s p o : String) :
      Respelled ns (.allStatements s p o) (.allStatements s p o)
  | bySubjectUri {u v : String} (p o : String) : ns.Respelled u v →
      Respelled ns (.bySubjectUri u p o) (.bySubjectUri v p o)
  | bySubjectBlank (label p o : String) :
      Respelled ns (.bySubjectBlank label p o) (.bySubjectBlank label p o)
  | subjectsByPredicateObject {c d : Constraint} (s : String) : c.Respelled ns d →
      Respelled ns (.subjectsByPredicateObject s c) (.subjectsByPredicateObject s d)
  | constrained {c d : Constraint} (s p o : String) : c.Respelled ns d →
      Respelled ns (.constrained s p o c) (.constrained s p o d)
  | doublyConstrained {c d c' d' : Constraint} (s p o : String) : c.Respelled ns d →
      c'.Respelled ns d' →
      Respelled ns (.doublyConstrained s p o c c') (.doublyConstrained s p o d d')

/-- Two faults of one kind in shapes. Such a fault keeps the pattern that it is about, of which its
wording shows the signature only. -/
inductive ShapeFault.Alike : ShapeFault → ShapeFault → Prop
  | noPatterns : Alike .noPatterns .noPatterns
  | tooMany (count : Nat) : Alike (.tooMany count) (.tooMany count)
  | single {p q : TriplePattern} : p.signature = q.signature → Alike (.single p) (.single q)
  | firstNotOpen {p q : TriplePattern} : p.signature = q.signature →
      Alike (.firstNotOpen p) (.firstNotOpen q)
  | notNarrowing {p q : TriplePattern} (subject : String) (literalAllowed : Bool) :
      p.signature = q.signature →
      Alike (.notNarrowing subject literalAllowed p) (.notNarrowing subject literalAllowed q)

/-- Two refusals of one kind, with the same wording. -/
inductive Fault.Alike : Fault → Fault → Prop
  | same (fault : Fault) : Alike fault fault
  | shape {f g : ShapeFault} : f.Alike g → Alike (.shape f) (.shape g)

theorem ShapeFault.Alike.message {f g : ShapeFault} (h : f.Alike g) : f.message = g.message := by
  cases h with
  | noPatterns | tooMany => rfl
  | single same => exact congrArg ("triple pattern " ++ ·) same
  | firstNotOpen same =>
      exact congrArg ("first of several patterns must be (var, var, var), got " ++ ·) same
  | notNarrowing subject literalAllowed same => exact congrArg (_ ++ ·) same

theorem Fault.Alike.message {f g : Fault} (h : f.Alike g) : f.message = g.message := by
  cases h with
  | same => rfl
  | shape same => exact congrArg ("Unsupported query shape: " ++ ·) same.message

/-! ## Recognising a shape -/

section

variable {ns : Namespaces}

theorem Term.Respelled.kind {t u : Term} (h : t.Respelled ns u) : t.kind = u.kind := by
  cases h <;> rfl

theorem TriplePattern.Respelled.signature {p q : TriplePattern} (h : p.Respelled ns q) :
    p.signature = q.signature := by
  unfold TriplePattern.signature
  rw [h.subject.kind, h.predicate.kind, h.object.kind]

namespace Shape

/-- Shapes that differ in spelling, or refusals in the same words. -/
abbrev Recognised (ns : Namespaces) : Except ShapeFault Shape → Except ShapeFault Shape → Prop :=
  Except.Related ShapeFault.Alike (Respelled ns)

theorem openPattern_eq {p q : TriplePattern} (h : p.Respelled ns q) :
    openPattern p = openPattern q := by
  rcases p with ⟨s, p, o⟩
  rcases q with ⟨s', p', o'⟩
  rcases h with ⟨subject, predicate, object⟩
  cases subject <;> cases predicate <;> cases object <;> rfl

theorem narrowing_related {p q : TriplePattern} (h : p.Respelled ns q) (subject : String)
    (literalAllowed : Bool) :
    Option.Rel (Constraint.Respelled ns) (narrowing subject literalAllowed p)
      (narrowing subject literalAllowed q) := by
  rcases p with ⟨s, p, o⟩
  rcases q with ⟨s', p', o'⟩
  rcases h with ⟨subject, predicate, object⟩
  cases subject with
  | uri | literal | blank => exact .none
  | «variable» name =>
      cases predicate with
      | «variable» | literal | blank => exact .none
      | uri predicate =>
          cases object with
          | «variable» | blank => exact .none
          | uri object =>
              unfold narrowing
              dsimp only
              split
              · exact .some ⟨predicate, .uri object⟩
              · exact .none
          | literal object =>
              unfold narrowing
              dsimp only
              split
              · exact .some ⟨predicate, .literal object⟩
              · exact .none

theorem openFirst_related {p q : TriplePattern} (h : p.Respelled ns q) :
    Except.Related ShapeFault.Alike Eq (openFirst p) (openFirst q) := by
  unfold openFirst
  rw [openPattern_eq h]
  cases openPattern q with
  | some names => exact .ok rfl
  | none =>
      exact .error (.firstNotOpen h.signature)

theorem narrow_related {p q : TriplePattern} (h : p.Respelled ns q) (subject : String)
    (literalAllowed : Bool) :
    Except.Related ShapeFault.Alike (Constraint.Respelled ns)
      (narrow subject literalAllowed p) (narrow subject literalAllowed q) := by
  have related := narrowing_related h subject literalAllowed
  unfold narrow
  generalize narrowing subject literalAllowed p = c at related ⊢
  generalize narrowing subject literalAllowed q = d at related ⊢
  cases related with
  | some related => exact .ok related
  | none =>
      exact .error (.notNarrowing _ _ h.signature)

theorem ofSingle_related {p q : TriplePattern} (h : p.Respelled ns q) :
    Recognised ns (ofSingle p) (ofSingle q) := by
  have refused : Recognised ns (.error (.single p)) (.error (.single q)) :=
    .error (.single h.signature)
  rcases p with ⟨s, p, o⟩
  rcases q with ⟨s', p', o'⟩
  rcases h with ⟨subject, predicate, object⟩
  cases subject with
  | literal => exact refused
  | «variable» s =>
      cases predicate with
      | literal | blank => exact refused
      | uri predicate =>
          cases object with
          | «variable» | blank => exact refused
          | uri object => exact .ok (.subjectsByPredicateObject s ⟨predicate, .uri object⟩)
          | literal object => exact .ok (.subjectsByPredicateObject s ⟨predicate, .literal object⟩)
      | «variable» p =>
          cases object with
          | uri | literal | blank => exact refused
          | «variable» o =>
              unfold ofSingle
              dsimp only
              split
              · exact .ok (.allStatements s p o)
              · exact refused
  | uri same =>
      cases predicate with
      | uri | literal | blank => exact refused
      | «variable» p =>
          cases object with
          | uri | literal | blank => exact refused
          | «variable» o =>
              unfold ofSingle
              dsimp only
              split
              · exact .ok (.bySubjectUri p o same)
              · exact refused
  | blank label =>
      cases predicate with
      | uri | literal | blank => exact refused
      | «variable» p =>
          cases object with
          | uri | literal | blank => exact refused
          | «variable» o =>
              unfold ofSingle
              dsimp only
              split
              · exact .ok (.bySubjectBlank label p o)
              · exact refused

/-- Lists of patterns that differ only in spelling are recognised alike. -/
theorem classify_related {ps qs : List TriplePattern}
    (h : List.Forall₂ (TriplePattern.Respelled ns) ps qs) :
    Recognised ns (classify ps) (classify qs) := by
  cases h with
  | nil => exact .error .noPatterns
  | cons full h =>
      cases h with
      | nil => exact ofSingle_related full
      | cons further h =>
          cases h with
          | nil =>
              refine (openFirst_related full).bind ?_
              intro names names' same
              subst same
              rcases names with ⟨s, p, o⟩
              refine (narrow_related further s false).bind ?_
              intro c d related
              exact .ok (.constrained s p o related)
          | cons last h =>
              cases h with
              | nil =>
                  refine (openFirst_related full).bind ?_
                  intro names names' same
                  subst same
                  rcases names with ⟨s, p, o⟩
                  refine (narrow_related further s false).bind ?_
                  intro c d related
                  refine (narrow_related last s true).bind ?_
                  intro c' d' related'
                  exact .ok (.doublyConstrained s p o related related')
              | cons fourth h =>
                  have lengths := h.length_eq
                  simp only [classify, List.length_cons, lengths]
                  exact .error (.tooMany _)

end Shape

/-! ## Comparing with stored nodes -/

theorem isNamed_eq {u v : String} (same : ns.Respelled u v) : isNamed ns u = isNamed ns v := by
  funext n
  rw [Bool.eq_iff_iff, isNamed_iff, isNamed_iff, same]

theorem literalFits_eq {l m : Literal} (h : l.Respelled ns m) (stored : Literal) :
    literalFits ns stored l = literalFits ns stored m := by
  rcases l with ⟨value, datatype, language⟩
  rcases m with ⟨value', datatype', language'⟩
  rcases h with ⟨rfl, rfl, same⟩
  have datatypes : partFits (sameUri ns) stored.datatype datatype =
      partFits (sameUri ns) stored.datatype datatype' := by
    cases same with
    | none => rfl
    | @some u v same =>
        have full : ns.extend u = ns.extend v := same
        rw [Bool.eq_iff_iff, partFits_iff, partFits_iff]
        simp only [Option.some.injEq, forall_eq', sameUri_iff, full]
  simp only [literalFits, datatypes]

theorem ObjectConstant.Respelled.fits {c d : ObjectConstant} (h : c.Respelled ns d) :
    c.fits ns = d.fits ns := by
  funext n
  cases h with
  | uri same => exact congrFun (isNamed_eq same) n
  | literal same =>
      cases n with
      | literal stored => exact literalFits_eq same stored
      | named | blank | pattern => rfl

theorem Constraint.Respelled.fits {c d : Constraint} (h : c.Respelled ns d) :
    c.fits ns = d.fits ns := by
  funext t
  simp only [Constraint.fits, isNamed_eq h.predicate, h.object.fits]

namespace Shape

variable {shape shape' : Shape}

theorem Respelled.bindings (h : shape.Respelled ns shape') : shape.bindings = shape'.bindings := by
  cases h <;> rfl

theorem Respelled.positionOf (h : shape.Respelled ns shape') (name : String) :
    shape.positionOf name = shape'.positionOf name := by
  unfold Shape.positionOf
  rw [h.bindings]

theorem Respelled.bind (h : shape.Respelled ns shape') (t : Statement) :
    shape.bind t = shape'.bind t := by
  unfold Shape.bind
  rw [h.bindings]

/-- Shapes that differ only in spelling pick the same statements. -/
theorem Respelled.matching (h : shape.Respelled ns shape') (statements : List Statement) :
    shape.matching ns statements = shape'.matching ns statements := by
  cases h with
  | allStatements | bySubjectBlank => rfl
  | bySubjectUri p o same => simp only [Shape.matching, isNamed_eq same]
  | subjectsByPredicateObject s same => simp only [Shape.matching, same.fits]
  | constrained s p o same => simp only [Shape.matching, subjectsOf, same.fits]
  | doublyConstrained s p o same same' =>
      simp only [Shape.matching, subjectsOf, same.fits, same'.fits]

end Shape

/-! ## Plans -/

theorem map_eq_of_forall₂ {α β : Type} {R : α → α → Prop} {f : α → β}
    (image : ∀ a b, R a b → f a = f b) {l l' : List α} (h : List.Forall₂ R l l') :
    l.map f = l'.map f := by
  rw [← List.forall₂_eq_eq_eq, List.forall₂_map_left_iff, List.forall₂_map_right_iff]
  exact h.imp image

theorem extendAll_eq {us vs : List String} (h : List.Forall₂ ns.Respelled us vs) :
    extendAll ns us = extendAll ns vs := by
  rw [extendAll_eq_foldl, extendAll_eq_foldl, map_eq_of_forall₂ (fun _ _ same => same) h]

theorem Filter.resolve_eq {shape shape' : Shape} (same : shape.Respelled ns shape')
    (selected : List String) {cs ds : List Comparison}
    (h : List.Forall₂ (Comparison.Respelled ns) cs ds) :
    resolve ns shape selected cs = resolve ns shape' selected ds := by
  have uris : extendAll ns (cs.map Comparison.uri) = extendAll ns (ds.map Comparison.uri) := by
    apply extendAll_eq
    rw [List.forall₂_map_left_iff, List.forall₂_map_right_iff]
    exact h.imp fun _ _ related => related.uri
  cases h with
  | nil => rfl
  | @cons c d cs ds first rest =>
      have names := map_eq_of_forall₂ (fun _ _ related => Comparison.Respelled.name related) rest
      have mixed : (cs.any fun e => decide (e.name ≠ d.name)) =
          ds.any fun e => decide (e.name ≠ d.name) := by
        have both := congrArg (List.any · fun name => decide (name ≠ d.name)) names
        rw [List.any_map, List.any_map] at both
        exact both
      simp only [resolve, mixed, first.name, same.positionOf, uris]

/-- Two plans that differ at most in how their shapes are spelled. -/
structure Plan.Respelled (plan plan' : Plan) : Prop where
  shape : plan.shape.Respelled plan.namespaces plan'.shape
  rest : plan' = { plan with shape := plan'.shape }

namespace Plan

theorem select_eq {shape shape' : Shape} (same : shape.Respelled ns shape')
    (projection : Projection) : select shape projection = select shape' projection := by
  cases projection with
  | all => simp only [select, Shape.names, same.bindings]
  | listed names => simp only [select, same.positionOf]

theorem targets_eq {us vs : List String} (h : List.Forall₂ ns.Respelled us vs)
    (default : String) : targets ns default us = targets ns default vs := by
  unfold targets
  rw [extendAll_eq h]

/-- Queries that differ only in spelling are refused alike, or planned alike. -/
theorem ofSelect_related {store : Namespaces} {q r : Select}
    (h : q.Respelled (q.namespaces store) r) (default : String) :
    Except.Related Fault.Alike Respelled (ofSelect q store default)
      (ofSelect r store default) := by
  have namespaces : r.namespaces store = q.namespaces store := by
    unfold Select.namespaces
    rw [h.prefixes]
  have filters := h.filter
  unfold ofSelect
  rw [namespaces, ← h.projection, ← h.distinct]
  dsimp only
  rw [← targets_eq h.graphs default]
  have shapes := (Shape.classify_related h.patterns).mapError fun _ _ => Fault.Alike.shape
  generalize q.namespaces store = ns at filters shapes ⊢
  generalize q.filter = x at filters ⊢
  generalize r.filter = y at filters ⊢
  refine shapes.bind ?_
  intro shape shape' same
  rw [select_eq same]
  refine (Except.Related.refl Fault.Alike.same _).bind ?_
  intro selected selected' eq
  subst eq
  cases filters with
  | none => exact .ok ⟨same, rfl⟩
  | some filters =>
      dsimp only
      rw [Filter.resolve_eq same selected filters]
      refine (Except.Related.refl Fault.Alike.same _).bind ?_
      intro filter filter' eq
      subst eq
      exact .ok ⟨same, rfl⟩

theorem Respelled.collect {plan plan' : Plan} (h : plan.Respelled plan')
    (statements : List Statement) :
    ∀ seen room, plan.collect seen room statements = plan'.collect seen room statements := by
  have distinct : plan.distinct = plan'.distinct := by rw [h.rest]
  refine Plan.collect_congr distinct statements (fun t _ => ?_) fun t _ => ?_
  · rw [h.rest]
    rfl
  · have selected : plan'.selected = plan.selected := by rw [h.rest]
    rw [rowOf, rowOf, h.shape.bind, selected]

/-- Plans that differ only in spelling have the same solutions. -/
theorem Respelled.run {plan plan' : Plan} (h : plan.Respelled plan') (statements : List Statement)
    (limit : Option Nat) : plan.run statements limit = plan'.run statements limit := by
  have namespaces : plan'.namespaces = plan.namespaces := by rw [h.rest]
  have selected : plan'.selected = plan.selected := by rw [h.rest]
  unfold Plan.run
  rw [namespaces, selected, h.shape.matching, h.collect]

end Plan

end

end RdfStore.Query
