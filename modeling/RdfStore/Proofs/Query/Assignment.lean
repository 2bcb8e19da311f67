import Mathlib.Data.List.Forall2
import RdfStore.Proofs.Except
import RdfStore.Query.Shape

/-!
# Six matchers, one meaning

A list of triple patterns has a meaning that knows nothing of shapes: a statement answers it if
some assignment of nodes to variables makes the first pattern match the statement and each further
pattern match some statement of the list (`Query.Answers`).

Recognising a shape loses nothing of the patterns (`Shape.classify_eq_ok`), so each of the six
matchers can be compared with the meaning of the patterns that its shape stands for
(`Shape.matching_eq_filter_answers`). The two matchers with further patterns are two cases of one
fact, `answers_open_iff`: variables of the first pattern that differ can be bound at will, and each
further pattern then only asks for a subject.
-/

namespace RdfStore.Query

/-! ## Letters -/

/-- Two characters are equal, or a capital letter and its small letter. -/
def SameLetter (a b : Char) : Prop :=
  a = b ∨ ((65 ≤ a.toNat ∧ a.toNat ≤ 90) ∧ b.toNat = a.toNat + 32) ∨
    ((65 ≤ b.toNat ∧ b.toNat ≤ 90) ∧ a.toNat = b.toNat + 32)

/-- Two texts are equal up to the case of ASCII letters. -/
def SameText (a b : String) : Prop := List.Forall₂ SameLetter a.toList b.toList

theorem toNat_toLower (c : Char) :
    c.toLower.toNat = if 65 ≤ c.toNat ∧ c.toNat ≤ 90 then c.toNat + 32 else c.toNat := by
  have upper : (c.val ≥ 'A'.val ∧ c.val ≤ 'Z'.val) ↔ 65 ≤ c.toNat ∧ c.toNat ≤ 90 := Iff.rfl
  unfold Char.toLower
  by_cases capital : c.val ≥ 'A'.val ∧ c.val ≤ 'Z'.val
  · rw [dif_pos capital, if_pos (upper.1 capital)]
    change (c.val + ('a'.val - 'A'.val)).toNat = c.val.toNat + 32
    have step : ('a'.val - 'A'.val).toNat = 32 := rfl
    have bound : c.val.toNat ≤ 90 := (upper.1 capital).2
    rw [UInt32.toNat_add, step]
    omega
  · rw [dif_neg capital, if_neg fun h => capital (upper.2 h)]

theorem toLower_eq_iff {a b : Char} : a.toLower = b.toLower ↔ SameLetter a b := by
  have left := toNat_toLower a
  have right := toNat_toLower b
  rw [SameLetter, ← Char.toNat_inj, ← Char.toNat_inj, left, right]
  split <;> split <;> omega

theorem sameLetters_iff {a b : String} : sameLetters a b = true ↔ SameText a b := by
  rw [sameLetters, decide_eq_true_iff, ← List.forall₂_eq_eq_eq, List.forall₂_map_left_iff,
    List.forall₂_map_right_iff, SameText]
  simp only [toLower_eq_iff]

/-! ## Meaning -/

/-- Nodes for variables. -/
abbrev Assignment := String → Node

/-- A stored literal has all that a written one states. -/
structure LiteralMatches (ns : Namespaces) (written stored : Literal) : Prop where
  value : stored.value = written.value
  language : ∀ tag, written.language = some tag →
    ∃ tag', stored.language = some tag' ∧ SameText tag' tag
  datatype : ∀ uri, written.datatype = some uri →
    ∃ uri', stored.datatype = some uri' ∧ ns.extend uri' = ns.extend uri

/-- A term matches a node under an assignment. -/
def Term.Matches (ns : Namespaces) (σ : Assignment) : Term → Node → Prop
  | «variable» name, n => n = σ name
  | uri written, n => ∃ stored, n = .named stored ∧ ns.extend stored = ns.extend written
  | literal written, n => ∃ stored, n = .literal stored ∧ LiteralMatches ns written stored
  | blank written, n => ∃ stored, n = .blank stored ∧ SameText stored written

/-- A pattern matches a statement under an assignment. -/
structure TriplePattern.Matches (ns : Namespaces) (σ : Assignment) (p : TriplePattern)
    (t : Statement) : Prop where
  subject : p.subject.Matches ns σ t.subject
  predicate : p.predicate.Matches ns σ t.predicate
  object : p.object.Matches ns σ t.object

/-- A statement answers a list of patterns within a list of statements: under one assignment it
matches the first pattern, and each further pattern matches some statement. -/
def Answers (ns : Namespaces) (statements : List Statement) (t : Statement) :
    List TriplePattern → Prop
  | [] => False
  | first :: further =>
    ∃ σ : Assignment, first.Matches ns σ t ∧ ∀ p ∈ further, ∃ u ∈ statements, p.Matches ns σ u

/-! ## Constants -/

section Constants

variable {ns : Namespaces}

theorem sameUri_iff {stored written : String} :
    sameUri ns stored written = true ↔ ns.extend stored = ns.extend written := by
  rw [sameUri, Bool.or_eq_true, decide_eq_true_iff, decide_eq_true_iff]
  constructor
  · intro given
    rcases given with rfl | same
    · rfl
    · exact same
  · exact Or.inr

theorem isNamed_iff {written : String} {n : Node} :
    isNamed ns written n = true ↔
      ∃ stored, n = .named stored ∧ ns.extend stored = ns.extend written := by
  cases n with
  | named stored => simp only [isNamed, sameUri_iff, Node.named.injEq, exists_eq_left']
  | literal | blank | pattern => simp [isNamed]

theorem partFits_iff {same : String → String → Bool} {stored written : Option String} :
    partFits same stored written = true ↔
      ∀ w, written = some w → ∃ s, stored = some s ∧ same s w = true := by
  cases written with
  | none => simp [partFits]
  | some w => simp [partFits, Option.any_eq_true]

theorem literalFits_iff {stored written : Literal} :
    literalFits ns stored written = true ↔ LiteralMatches ns written stored := by
  rw [literalFits, Bool.and_eq_true, Bool.and_eq_true, decide_eq_true_iff, partFits_iff,
    partFits_iff]
  simp only [sameLetters_iff, sameUri_iff]
  constructor
  · intro given
    rcases given with ⟨⟨value, language⟩, datatype⟩
    exact ⟨value, language, datatype⟩
  · intro given
    rcases given with ⟨value, language, datatype⟩
    exact ⟨⟨value, language⟩, datatype⟩

/-- The term that asks for a constant object. -/
def ObjectConstant.term : ObjectConstant → Term
  | uri text => .uri text
  | literal l => .literal l

/-- The pattern that puts a constraint on a subject variable. -/
def Constraint.pattern (subject : String) (c : Constraint) : TriplePattern :=
  ⟨.variable subject, .uri c.predicate, c.object.term⟩

theorem ObjectConstant.fits_iff {c : ObjectConstant} {n : Node} (σ : Assignment) :
    c.fits ns n = true ↔ c.term.Matches ns σ n := by
  cases c with
  | uri text => exact isNamed_iff
  | literal written =>
      cases n with
      | literal stored =>
          simp only [fits, literalFits_iff, term, Term.Matches, Node.literal.injEq,
            exists_eq_left']
      | named | blank | pattern => simp [fits, term, Term.Matches]

/-- The pattern of a constraint asks for the assigned subject, and for nothing else that depends on
the assignment. -/
theorem Constraint.pattern_matches_iff {subject : String} {c : Constraint} {σ : Assignment}
    {t : Statement} :
    (c.pattern subject).Matches ns σ t ↔ t.subject = σ subject ∧ c.fits ns t = true := by
  rw [Constraint.fits, Bool.and_eq_true, isNamed_iff, ObjectConstant.fits_iff σ]
  constructor
  · intro given
    rcases given with ⟨assigned, predicate, object⟩
    exact ⟨assigned, predicate, object⟩
  · intro given
    rcases given with ⟨assigned, predicate, object⟩
    exact ⟨assigned, predicate, object⟩

end Constants

/-! ## Recognising a shape -/

namespace Shape

/-- The pattern of three variables. -/
def full (s p o : String) : TriplePattern := ⟨.variable s, .variable p, .variable o⟩

/-- The patterns that a shape stands for. -/
def patterns : Shape → List TriplePattern
  | allStatements s p o => [full s p o]
  | bySubjectUri text p o => [⟨.uri text, .variable p, .variable o⟩]
  | bySubjectBlank label p o => [⟨.blank label, .variable p, .variable o⟩]
  | subjectsByPredicateObject s c => [c.pattern s]
  | constrained s p o c => [full s p o, c.pattern s]
  | doublyConstrained s p o c d => [full s p o, c.pattern s, d.pattern s]

theorem openFirst_eq_ok {pattern : TriplePattern} {s p o : String}
    (h : openFirst pattern = .ok (s, p, o)) :
    pattern = full s p o ∧ [s, p, o].Nodup := by
  unfold openFirst at h
  split at h
  · rename_i names found
    cases h
    unfold openPattern at found
    split at found
    · split at found
      · rename_i different
        cases found
        exact ⟨rfl, by simp [different]⟩
      · cases found
    · cases found
  · cases h

theorem narrow_eq_ok {subject : String} {literalAllowed : Bool} {pattern : TriplePattern}
    {c : Constraint} (h : narrow subject literalAllowed pattern = .ok c) :
    pattern = c.pattern subject := by
  unfold narrow at h
  split at h
  · rename_i constraint found
    cases h
    unfold narrowing at found
    split at found
    · split at found
      · rename_i same
        cases found
        rw [same]
        rfl
      · cases found
    · split at found
      · rename_i same
        cases found
        rw [same.1]
        rfl
      · cases found
    · cases found
  · cases h

theorem ofSingle_eq_ok {pattern : TriplePattern} {shape : Shape}
    (h : ofSingle pattern = .ok shape) : [pattern] = shape.patterns ∧ shape.names.Nodup := by
  unfold ofSingle at h
  split at h
  · split at h
    · rename_i different
      cases h
      exact ⟨rfl, by simp [names, bindings, different]⟩
    · cases h
  · split at h
    · rename_i different
      cases h
      exact ⟨rfl, by simp [names, bindings, different]⟩
    · cases h
  · split at h
    · rename_i different
      cases h
      exact ⟨rfl, by simp [names, bindings, different]⟩
    · cases h
  · cases h
    exact ⟨rfl, List.pairwise_singleton _ _⟩
  · cases h
    exact ⟨rfl, List.pairwise_singleton _ _⟩
  · cases h

/-- Only the patterns that a shape stands for are recognised as that shape, and only if its
variables are different. -/
theorem classify_eq_ok {patterns : List TriplePattern} {shape : Shape}
    (h : classify patterns = .ok shape) :
    patterns = shape.patterns ∧ shape.names.Nodup := by
  unfold classify at h
  split at h
  · cases h
  · exact ofSingle_eq_ok h
  · rename_i first further
    obtain ⟨⟨s, p, o⟩, opened, rest⟩ := Except.bind_eq_ok_iff.1 h
    obtain ⟨c, narrowed, shaped⟩ := Except.bind_eq_ok_iff.1 rest
    obtain ⟨rfl, different⟩ := openFirst_eq_ok opened
    obtain rfl := narrow_eq_ok narrowed
    cases shaped
    exact ⟨rfl, different⟩
  · rename_i first further last
    obtain ⟨⟨s, p, o⟩, opened, rest⟩ := Except.bind_eq_ok_iff.1 h
    obtain ⟨c, narrowed, rest⟩ := Except.bind_eq_ok_iff.1 rest
    obtain ⟨d, again, shaped⟩ := Except.bind_eq_ok_iff.1 rest
    obtain ⟨rfl, different⟩ := openFirst_eq_ok opened
    obtain rfl := narrow_eq_ok narrowed
    obtain rfl := narrow_eq_ok again
    cases shaped
    exact ⟨rfl, different⟩
  · cases h

/-! ## The matchers -/

theorem mem_subjectsOf {ns : Namespaces} {c : Constraint} {statements : List Statement} {n : Node} :
    n ∈ subjectsOf ns c statements ↔
      ∃ u ∈ statements, u.subject = n ∧ c.fits ns u = true := by
  simp only [subjectsOf, List.mem_map, List.mem_filter]
  constructor
  · intro given
    rcases given with ⟨u, ⟨mem, fits⟩, eq⟩
    exact ⟨u, mem, eq, fits⟩
  · intro given
    rcases given with ⟨u, mem, eq, fits⟩
    exact ⟨u, ⟨mem, fits⟩, eq⟩

/-- Different variables can be bound to any nodes. -/
theorem exists_assignment {s p o : String} (different : [s, p, o].Nodup) (a b c : Node) :
    ∃ σ : Assignment, σ s = a ∧ σ p = b ∧ σ o = c := by
  simp only [List.nodup_cons, List.mem_cons, List.not_mem_nil, or_false, not_or] at different
  obtain ⟨⟨sp, so⟩, po, -⟩ := different
  refine ⟨fun name => if name = s then a else if name = p then b else c, ?_, ?_, ?_⟩
  · exact if_pos rfl
  · exact (if_neg (Ne.symm sp)).trans (if_pos rfl)
  · exact (if_neg (Ne.symm so)).trans (if_neg (Ne.symm po))

/-- A pattern of different variables matches everything, and a further pattern with a constraint
asks for a statement about the same subject. -/
theorem answers_open_iff {ns : Namespaces} {statements : List Statement} {t : Statement}
    {s p o : String} (different : [s, p, o].Nodup) (constraints : List Constraint) :
    Answers ns statements t (full s p o :: constraints.map (Constraint.pattern s)) ↔
      ∀ c ∈ constraints, t.subject ∈ subjectsOf ns c statements := by
  simp only [Answers, List.forall_mem_map, Constraint.pattern_matches_iff, mem_subjectsOf]
  constructor
  · intro given c mem
    rcases given with ⟨σ, ⟨subject, -, -⟩, further⟩
    obtain ⟨u, known, assigned, fits⟩ := further c mem
    exact ⟨u, known, assigned.trans subject.symm, fits⟩
  · intro further
    obtain ⟨σ, hs, hp, ho⟩ := exists_assignment different t.subject t.predicate t.object
    refine ⟨σ, ⟨hs.symm, hp.symm, ho.symm⟩, fun c mem => ?_⟩
    obtain ⟨u, known, same, fits⟩ := further c mem
    exact ⟨u, known, same.trans hs.symm, fits⟩

/-- A single pattern with a constant subject asks for that subject only. -/
theorem answers_subject_iff {ns : Namespaces} {statements : List Statement} {t : Statement}
    {subject : Term} {p o : String} (different : [p, o].Nodup) {asked : Prop}
    (constant : ∀ σ, subject.Matches ns σ t.subject ↔ asked) :
    Answers ns statements t [⟨subject, .variable p, .variable o⟩] ↔ asked := by
  constructor
  · intro given
    rcases given with ⟨σ, ⟨fits, -, -⟩, -⟩
    exact (constant σ).1 fits
  · intro fits
    have ne : o ≠ p := by
      intro same
      subst same
      exact (List.nodup_cons.1 different).1 List.mem_cons_self
    refine ⟨fun name => if name = p then t.predicate else t.object, ⟨(constant _).2 fits, ?_, ?_⟩,
      fun _ mem => by cases mem⟩
    · exact (if_pos rfl).symm
    · exact (if_neg ne).symm

theorem answers_constraint_iff {ns : Namespaces} {statements : List Statement} {t : Statement}
    {s : String} {c : Constraint} :
    Answers ns statements t [c.pattern s] ↔ c.fits ns t = true := by
  constructor
  · intro given
    rcases given with ⟨σ, fits, -⟩
    exact (Constraint.pattern_matches_iff.1 fits).2
  · intro fits
    exact ⟨fun _ => t.subject, Constraint.pattern_matches_iff.2 ⟨rfl, fits⟩,
      fun _ mem => by cases mem⟩

open Classical in
/-- The matcher of a shape with different variables picks what answers the patterns it stands
for. -/
theorem matching_eq_filter {ns : Namespaces} {statements : List Statement} {shape : Shape}
    (different : shape.names.Nodup) :
    shape.matching ns statements =
      statements.filter fun t => decide (Answers ns statements t shape.patterns) := by
  cases shape with
  | allStatements s p o =>
      symm
      apply List.filter_eq_self.2
      intro t _
      have meaning : Answers ns statements t [full s p o] ↔ _ := answers_open_iff different []
      exact decide_eq_true (meaning.2 fun c mem => by cases mem)
  | bySubjectUri text p o =>
      apply List.filter_congr
      intro t _
      rw [Bool.eq_iff_iff, decide_eq_true_iff, isNamed_iff]
      exact (answers_subject_iff different fun σ => Iff.rfl).symm
  | bySubjectBlank label p o =>
      apply List.filter_congr
      intro t _
      rw [Bool.eq_iff_iff, decide_eq_true_iff]
      refine (answers_subject_iff different fun σ => ?_).symm
      cases t.subject with
      | blank stored =>
          simp only [Term.Matches, Node.label?, Option.any_some, sameLetters_iff, Node.blank.injEq,
            exists_eq_left']
      | named | literal | pattern => simp [Term.Matches, Node.label?]
  | subjectsByPredicateObject s c =>
      apply List.filter_congr
      intro t _
      rw [Bool.eq_iff_iff, decide_eq_true_iff]
      exact answers_constraint_iff.symm
  | constrained s p o c =>
      apply List.filter_congr
      intro t _
      rw [Bool.eq_iff_iff, decide_eq_true_iff, List.contains_iff_mem]
      have meaning : Answers ns statements t [full s p o, c.pattern s] ↔ _ :=
        answers_open_iff different [c]
      rw [List.forall_mem_singleton] at meaning
      exact meaning.symm
  | doublyConstrained s p o c d =>
      apply List.filter_congr
      intro t _
      rw [Bool.eq_iff_iff, decide_eq_true_iff, List.contains_iff_mem, List.mem_filter,
        List.contains_iff_mem]
      have meaning : Answers ns statements t [full s p o, c.pattern s, d.pattern s] ↔ _ :=
        answers_open_iff different [c, d]
      rw [List.forall_mem_cons, List.forall_mem_singleton, and_comm] at meaning
      exact meaning.symm

open Classical in
/-- The matcher of every recognised shape returns, in their old order and each at most once for
each place in the list, exactly the statements that answer the patterns. Narrowing by two
constraints one after the other is the conjunction of narrowing by each. -/
theorem matching_eq_filter_answers {patterns : List TriplePattern} {shape : Shape}
    (recognised : classify patterns = .ok shape) (ns : Namespaces) (statements : List Statement) :
    (shape.matching ns statements =
        statements.filter fun t => decide (Answers ns statements t patterns)) ∧
      ∀ (s p o : String) (first second : Constraint),
        (doublyConstrained s p o first second).matching ns statements =
          statements.filter fun t =>
            decide (t ∈ (constrained s p o first).matching ns statements ∧
              t ∈ (constrained s p o second).matching ns statements) := by
  obtain ⟨rfl, different⟩ := classify_eq_ok recognised
  refine ⟨matching_eq_filter different, ?_⟩
  intro s p o first second
  apply List.filter_congr
  intro t mem
  rw [Bool.eq_iff_iff]
  simp only [matching, decide_eq_true_iff, List.contains_iff_mem, List.mem_filter, mem, true_and]
  exact and_comm

/-- What is said about those who know `http://a` and are one year old. -/
def sample : List TriplePattern :=
  [full "s" "p" "o", ⟨.variable "s", .uri "foaf:knows", .uri "http://a"⟩,
    ⟨.variable "s", .uri "foaf:age", .literal ⟨"1", none, none⟩⟩]

/-- Two statements that meet one constraint each, and one about somebody else. -/
def people : List Statement :=
  [⟨.named "http://b", .named "foaf:knows", .named "http://a", none⟩,
    ⟨.named "http://b", .named "http://xmlns.com/foaf/0.1/age", .literal ⟨"1", some "xsd:integer",
      none⟩, none⟩,
    ⟨.named "http://c", .named "foaf:age", .literal ⟨"1", none, none⟩, none⟩]

open Classical in
/-- A list of three patterns that is recognised, and its answers. -/
theorem matching_sample :
    classify sample = .ok (doublyConstrained "s" "p" "o" ⟨"foaf:knows", .uri "http://a"⟩
        ⟨"foaf:age", .literal ⟨"1", none, none⟩⟩) ∧
      (people.filter fun t => decide (Answers .standard people t sample)) = people.take 2 := by
  have recognised : classify sample = .ok (doublyConstrained "s" "p" "o"
      ⟨"foaf:knows", .uri "http://a"⟩ ⟨"foaf:age", .literal ⟨"1", none, none⟩⟩) := by decide
  refine ⟨recognised, ?_⟩
  rw [← (matching_eq_filter_answers recognised .standard people).1]
  decide +kernel

end Shape

end RdfStore.Query
