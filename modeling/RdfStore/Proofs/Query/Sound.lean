import RdfStore.Proofs.Query.Writable
import RdfStore.Query.Parse

/-!
# What is read can be written

Every query that some text is read as meets `Select.Writable`: the scanners let only characters of
their class into a name, a literal gets a language or a datatype but never both, and the grammar has
no empty selection and no empty filter. So the condition excludes nothing that the language can say.

* `writable_of_parse`: the statement for whole queries.
-/

namespace RdfStore.Query

open Text (Scan run)

/-- Whatever a scanner reads has a property. -/
def Yields {α : Type} (part : Scan α) (P : α → Prop) : Prop :=
  ∀ text a rest, part text = some (a, rest) → P a

namespace Yields

variable {α β : Type} {part other : Scan α} {P : α → Prop}

theorem map {Q : β → Prop} {f : α → β} (h : Yields part P) (keep : ∀ a, P a → Q (f a)) :
    Yields (fun text => (part text).map fun (a, rest) => (f a, rest)) Q := by
  intro text b rest read
  obtain ⟨⟨a, left⟩, found, eq⟩ := Option.map_eq_some_iff.1 read
  obtain ⟨rfl, rfl⟩ := Prod.mk.inj eq
  exact keep a (h _ _ _ found)

theorem orElse (h : Yields part P) (h' : Yields other P) :
    Yields (fun text => part text <|> other text) P := by
  intro text a rest read
  rcases Option.or_eq_some_iff.1 ((Option.orElse_eq_or ..).symm.trans read) with found | ⟨-, found⟩
  · exact h text a rest found
  · exact h' text a rest found

theorem manyUpTo (h : Yields part P) (n : Nat) (text : List Char) :
    ∀ a ∈ (Grammar.manyUpTo part n text).1, P a := by
  induction n generalizing text with
  | zero => intro a mem; cases mem
  | succ n ih =>
      unfold Grammar.manyUpTo
      split
      · rename_i first rest found
        exact List.forall_mem_cons.2 ⟨h _ _ _ found, ih rest⟩
      · intro a mem
        cases mem

theorem many (h : Yields part P) (text : List Char) : ∀ a ∈ (Grammar.many part text).1, P a :=
  h.manyUpTo text.length text

theorem optional (h : Yields part P) (text : List Char) :
    ∀ a, (Grammar.optional part text).1 = some a → P a := by
  intro a read
  unfold Grammar.optional at read
  split at read
  · rename_i found rest inner
    cases read
    exact h _ _ _ inner
  · cases read

end Yields

/-! ## Tokens -/

namespace Token

theorem yields_run (p : Char → Bool) : Yields (run p) (IsRun p) := by
  intro text found rest read
  obtain ⟨-, filled, all, -⟩ := Text.run_eq_some read
  exact ⟨filled, all⟩

theorem isRun_ofList {p : Char → Bool} (found : List Char) (h : IsRun p found) :
    IsRun p (String.ofList found).toList := by
  rw [String.toList_ofList]
  exact h

theorem yields_variable : Yields «variable» IsName := by
  intro text name rest read
  cases text with
  | nil => cases read
  | cons c text =>
      rw [«variable»] at read
      split at read
      · exact Yields.map (Q := IsName) (yields_run isNameChar) isRun_ofList _ _ _ read
      · cases read

theorem yields_uri : Yields uri IsUri := by
  intro text found rest read
  unfold uri at read
  split at read
  · split at read
    · cases read
      intro c mem
      rw [String.toList_ofList] at mem
      exact Text.of_mem_takeWhile mem
    · cases read
  · cases read

theorem yields_blank : Yields blank IsLabel := by
  intro text label rest read
  unfold blank at read
  split at read
  · exact Yields.map (Q := IsLabel) (yields_run isLabelChar) isRun_ofList _ _ _ read
  · cases read

theorem prefixPart_spec (text : List Char) :
    (prefixPart text).1.head?.all Char.isAlpha = true ∧
      ∀ c ∈ (prefixPart text).1.tail, isLabelChar c = true := by
  cases text with
  | nil => exact ⟨rfl, fun c mem => by cases mem⟩
  | cons c text =>
      rw [prefixPart]
      split
      · rename_i letter
        exact ⟨letter, fun d mem => Text.of_mem_takeWhile mem⟩
      · exact ⟨rfl, fun d mem => by cases mem⟩

theorem yields_prefixName : Yields prefixName IsPrefix := by
  intro text name rest read
  have spec := prefixPart_spec text
  unfold prefixName at read
  split at read
  · rename_i found left split
    cases read
    rw [split] at spec
    unfold IsPrefix
    rw [String.toList_ofList]
    exact spec
  · cases read

theorem isUriChar_of_isLabelChar {c : Char} (h : isLabelChar c = true) : isUriChar c = true := by
  rw [isUriChar, Bool.not_eq_true']
  apply Bool.eq_false_iff.2
  intro outside
  simp only [isSpace, Bool.or_eq_true, decide_eq_true_eq] at outside
  rcases outside with (rfl | rfl) | ((rfl | rfl) | rfl) | rfl <;> exact absurd h (by decide)

theorem isUriChar_of_isLocalChar {c : Char} (h : isLocalChar c = true) : isUriChar c = true := by
  simp only [isLocalChar, Bool.or_eq_true, decide_eq_true_eq] at h
  rcases h with ((label | rfl) | rfl) | rfl
  · exact isUriChar_of_isLabelChar label
  · decide
  · decide
  · decide

theorem prefixPart_isLabelChar (text : List Char) :
    ∀ c ∈ (prefixPart text).1, isLabelChar c = true := by
  obtain ⟨first, others⟩ := prefixPart_spec text
  have named : IsPrefix (String.ofList (prefixPart text).1) := by
    unfold IsPrefix
    rw [String.toList_ofList]
    exact ⟨first, others⟩
  have all := named.isLabelChar
  rwa [String.toList_ofList] at all

theorem yields_prefixedName : Yields prefixedName IsUri := by
  intro text uri rest read
  have spec := prefixPart_isLabelChar text
  unfold prefixedName at read
  split at read
  · rename_i found left split
    cases read
    rw [split] at spec
    intro c mem
    rw [String.toList_ofList] at mem
    rcases List.mem_append.1 mem with mem | mem
    · exact isUriChar_of_isLabelChar (spec c mem)
    rcases List.mem_cons.1 mem with rfl | mem
    · decide
    · exact isUriChar_of_isLocalChar (Text.of_mem_takeWhile mem)
  · cases read

theorem yields_anyUri : Yields anyUri IsUri := yields_uri.orElse yields_prefixedName

/-- What the scanner of subtags reads: more of the subtag that is open, if one is, and then whole
subtags. -/
theorem subtags_spec (inside : Bool) (text : List Char) :
    ∃ (open_ : List Char) (subs : List (List Char)),
      (subtags inside text).1 = open_ ++ subs.flatMap ('-' :: ·) ∧ (inside = false → open_ = []) ∧
        (∀ c ∈ open_, c.isAlphanum = true) ∧ ∀ sub ∈ subs, IsRun Char.isAlphanum sub := by
  fun_induction subtags inside text with
  | case1 => exact ⟨[], [], rfl, fun _ => rfl, by simp, by simp⟩
  | case2 inside d text letter tags rest read ih =>
      obtain ⟨more, subs, split, -, all, runs⟩ := ih
      have run : IsRun Char.isAlphanum (d :: more) :=
        ⟨List.cons_ne_nil d more, List.forall_mem_cons.2 ⟨letter, all⟩⟩
      rw [read] at split
      refine ⟨[], (d :: more) :: subs, ?_, fun _ => rfl, by simp,
        List.forall_mem_cons.2 ⟨run, runs⟩⟩
      exact congrArg (fun found => '-' :: d :: found) split
  | case3 => exact ⟨[], [], rfl, fun _ => rfl, by simp, by simp⟩
  | case4 inside c text _ goesOn tags rest read ih =>
      obtain ⟨more, subs, split, -, all, runs⟩ := ih
      obtain ⟨isOpen, letter⟩ := Bool.and_eq_true_iff.1 goesOn
      rw [read] at split
      refine ⟨c :: more, subs, congrArg (c :: ·) split, ?_,
        List.forall_mem_cons.2 ⟨letter, all⟩, runs⟩
      intro closed
      rw [isOpen] at closed
      cases closed
  | case5 => exact ⟨[], [], rfl, fun _ => rfl, by simp, by simp⟩

theorem yields_language : Yields language IsTag := by
  intro text tag rest read
  unfold language at read
  split at read
  · split at read
    · rename_i main left found
      cases read
      obtain ⟨more, subs, split, closed, -, runs⟩ := subtags_spec false left
      rw [closed rfl] at split
      refine ⟨main, subs, ?_, yields_run Char.isAlpha _ _ _ found, runs⟩
      rw [String.toList_ofList, split]
      rfl
    · cases read
  · cases read

theorem yields_datatype : Yields datatype IsUri := by
  intro text type rest read
  unfold datatype at read
  split at read
  · exact yields_anyUri _ _ _ read
  · cases read

theorem qualify_writable (value : String) (text : List Char) :
    LiteralWritable (qualify value text).1 := by
  unfold qualify
  split
  · rename_i tag rest read
    exact ⟨Or.inr rfl, by rintro _ ⟨⟩; exact yields_language _ _ _ read, by rintro _ ⟨⟩⟩
  · split
    · rename_i type rest read
      exact ⟨Or.inl rfl, by rintro _ ⟨⟩, by rintro _ ⟨⟩; exact yields_datatype _ _ _ read⟩
    · exact ⟨Or.inl rfl, by rintro _ ⟨⟩, by rintro _ ⟨⟩⟩

theorem yields_literal : Yields literal LiteralWritable := by
  intro text l rest read
  cases text with
  | nil => cases read
  | cons quote text =>
      rw [literal] at read
      split at read
      · split at read
        · rename_i body close left _
          split at read
          · have writable := qualify_writable (String.ofList (Text.unescape body)) left
            rw [Option.some.inj read] at writable
            exact writable
          · cases read
        · cases read
      · cases read

theorem number_writable (value : String) {type : String} (h : IsUri type) :
    LiteralWritable ⟨value, some type, none⟩ :=
  ⟨Or.inl rfl, by rintro _ ⟨⟩, by rintro _ ⟨⟩; exact h⟩

theorem yields_number : Yields number LiteralWritable := by
  intro text l rest read
  unfold number at read
  split at read
  rename_i minus digits _
  split at read
  · cases read
  · split at read
    · cases read
      exact number_writable _ (by decide)
    · cases read
      exact number_writable _ (by decide)

theorem yields_typeKeyword : Yields typeKeyword IsUri := by
  have standard : IsUri typeUri := by decide
  intro text uri rest read
  unfold typeKeyword at read
  split at read
  · split at read
    · cases read
    · cases read
      exact standard
  · cases read
    exact standard
  · cases read

theorem yields_term : Yields term Term.Writable := by
  have names := yields_variable.map (Q := Term.Writable) (f := Term.variable) fun _ h => h
  have uris := yields_uri.map (Q := Term.Writable) (f := Term.uri) fun _ h => h
  have blanks := yields_blank.map (Q := Term.Writable) (f := Term.blank) fun _ h => h
  have literals := yields_literal.map (Q := Term.Writable) (f := Term.literal) fun _ h => h
  have numbers := yields_number.map (Q := Term.Writable) (f := Term.literal) fun _ h => h
  have prefixed := yields_prefixedName.map (Q := Term.Writable) (f := Term.uri) fun _ h => h
  have types := yields_typeKeyword.map (Q := Term.Writable) (f := Term.uri) fun _ h => h
  exact names.orElse (uris.orElse (blanks.orElse (literals.orElse (numbers.orElse
    (prefixed.orElse types)))))

end Token

/-! ## Clauses -/

namespace Grammar

theorem yields_prefixDecl :
    Yields prefixDecl fun entry => IsPrefix entry.1 ∧ IsUri entry.2 := by
  intro text entry rest read
  unfold prefixDecl at read
  simp only [Option.bind_eq_bind, Option.bind_eq_some_iff, Option.pure_def] at read
  obtain ⟨_, -, ⟨name, _⟩, named, ⟨uri, _⟩, found, eq⟩ := read
  cases eq
  exact ⟨Token.yields_prefixName _ _ _ named, Token.yields_uri _ _ _ found⟩

theorem yields_projection : Yields projection Projection.Writable := by
  intro text p rest read
  unfold projection at read
  split at read
  · cases read
    trivial
  · simp only [Option.bind_eq_bind, Option.bind_eq_some_iff, Option.pure_def] at read
    obtain ⟨⟨first, left⟩, named, eq⟩ := read
    cases eq
    exact ⟨List.cons_ne_nil _ _, List.forall_mem_cons.2
      ⟨Token.yields_variable _ _ _ named, Token.yields_variable.many left⟩⟩

theorem yields_fromClause : Yields fromClause IsUri := by
  intro text graph rest read
  unfold fromClause at read
  simp only [Option.bind_eq_bind, Option.bind_eq_some_iff] at read
  obtain ⟨_, -, found⟩ := read
  exact Token.yields_anyUri _ _ _ found

theorem yields_triple : Yields triple TriplePattern.Writable := by
  intro text p rest read
  unfold triple at read
  simp only [Option.bind_eq_bind, Option.bind_eq_some_iff, Option.pure_def] at read
  obtain ⟨⟨subject, _⟩, first, ⟨predicate, _⟩, second, ⟨object, _⟩, third, eq⟩ := read
  cases eq
  exact ⟨Token.yields_term _ _ _ first, Token.yields_term _ _ _ second,
    Token.yields_term _ _ _ third⟩

theorem yields_furtherTriple : Yields furtherTriple TriplePattern.Writable := by
  intro text p rest read
  unfold furtherTriple at read
  simp only [Option.bind_eq_bind, Option.bind_eq_some_iff] at read
  obtain ⟨_, -, found⟩ := read
  exact yields_triple _ _ _ found

theorem yields_triples : Yields triples fun found => ∀ p ∈ found, p.Writable := by
  intro text found rest read
  unfold triples at read
  simp only [Option.bind_eq_bind, Option.bind_eq_some_iff, Option.pure_def] at read
  obtain ⟨⟨first, left⟩, one, eq⟩ := read
  cases eq
  exact List.forall_mem_cons.2 ⟨yields_triple _ _ _ one, yields_furtherTriple.many left⟩

theorem yields_equation : Yields equation Comparison.Writable := by
  intro text c rest read
  unfold equation at read
  simp only [Option.bind_eq_bind, Option.bind_eq_some_iff, Option.pure_def] at read
  obtain ⟨⟨name, _⟩, named, _, -, ⟨uri, _⟩, found, eq⟩ := read
  cases eq
  exact ⟨Token.yields_variable _ _ _ named, Token.yields_anyUri _ _ _ found⟩

/-- Brackets add nothing: by induction on the bound for their number. -/
theorem yields_comparisonUpTo (n : Nat) : Yields (comparisonUpTo n) Comparison.Writable := by
  induction n with
  | zero => exact yields_equation
  | succ n ih =>
      intro text c rest read
      unfold comparisonUpTo at read
      split at read
      · exact yields_equation _ _ _ read
      · simp only [Option.bind_eq_bind, Option.bind_eq_some_iff, Option.pure_def] at read
        obtain ⟨⟨inner, _⟩, found, _, -, eq⟩ := read
        cases eq
        exact ih _ _ _ found

theorem yields_comparison : Yields comparison Comparison.Writable :=
  fun text => yields_comparisonUpTo text.length text

theorem yields_furtherComparison : Yields furtherComparison Comparison.Writable := by
  intro text c rest read
  unfold furtherComparison at read
  simp only [Option.bind_eq_bind, Option.bind_eq_some_iff] at read
  obtain ⟨_, -, _, -, found⟩ := read
  exact yields_comparison _ _ _ found

theorem yields_filter : Yields filter fun found => FilterWritable (some found) := by
  intro text found rest read
  unfold filter at read
  simp only [Option.bind_eq_bind, Option.bind_eq_some_iff, Option.pure_def] at read
  obtain ⟨_, -, _, -, ⟨first, left⟩, one, _, -, eq⟩ := read
  cases eq
  exact ⟨List.cons_ne_nil _ _, List.forall_mem_cons.2
    ⟨yields_comparison _ _ _ one, yields_furtherComparison.many left⟩⟩

theorem optional_filter_writable (text : List Char) :
    FilterWritable (optional filter text).1 := by
  cases found : (optional filter text).1 with
  | none => trivial
  | some comparisons => exact yields_filter.optional text comparisons found

theorem yields_group :
    Yields group fun found => (∀ p ∈ found.1, p.Writable) ∧ FilterWritable found.2 := by
  intro text found rest read
  unfold group at read
  simp only [Option.bind_eq_bind, Option.bind_eq_some_iff, Option.pure_def] at read
  obtain ⟨text, -, _, -, eq⟩ := read
  cases eq
  refine ⟨?_, optional_filter_writable _⟩
  cases found : (optional triples text).1 with
  | none => intro p mem; cases mem
  | some patterns => exact yields_triples.optional text patterns found

/-- The clauses of a text, part by part. -/
theorem clauses_writable {text : List Char} {c : Clauses} (read : clauses text = some c) :
    (∀ entry ∈ c.prefixes, IsPrefix entry.1 ∧ IsUri entry.2) ∧ (∀ graph ∈ c.graphs, IsUri graph) ∧
      c.projection.Writable ∧ (∀ p ∈ c.patterns, p.Writable) ∧ FilterWritable c.innerFilter ∧
        FilterWritable c.outerFilter := by
  unfold clauses at read
  simp only [Option.bind_eq_bind, Option.bind_eq_some_iff, Option.pure_def] at read
  obtain ⟨_, -, ⟨projection, _⟩, selected, ⟨⟨patterns, inner⟩, _⟩, grouped, read⟩ := read
  split at read
  · cases read
    obtain ⟨writable, filtered⟩ := yields_group _ _ _ grouped
    exact ⟨yields_prefixDecl.many _, yields_fromClause.many _, yields_projection _ _ _ selected,
      writable, filtered, optional_filter_writable _⟩
  · cases read

end Grammar

/-! ## Queries -/

theorem soleFilter_writable {inner outer filter : Option (List Comparison)}
    (hi : FilterWritable inner) (ho : FilterWritable outer)
    (h : soleFilter inner outer = .ok filter) : FilterWritable filter := by
  unfold soleFilter at h
  split at h
  · cases h
  · cases h
    exact hi
  · cases h
    exact ho

theorem toSelect_eq_ok {c : Clauses} {q : Select} (h : c.toSelect = .ok q) :
    ∃ filter, soleFilter c.innerFilter c.outerFilter = .ok filter ∧ c.patterns ≠ [] ∧
      q = ⟨c.prefixes, c.graphs, c.projection, c.distinct, c.patterns, filter⟩ := by
  unfold Clauses.toSelect at h
  split at h
  · cases h
  · rename_i filter sole
    split at h
    · cases h
    · rename_i filled
      exact ⟨filter, sole, filled, (Except.ok.inj h).symm⟩

theorem parse_eq_ok {text : String} {q : Select} (h : parse text = .ok q) :
    ∃ c, Grammar.clauses text.toList = some c ∧ c.toSelect = .ok q := by
  unfold parse at h
  cases read : Grammar.clauses text.toList with
  | none =>
      rw [read] at h
      split at h <;> cases h
  | some c =>
      rw [read] at h
      refine ⟨c, rfl, ?_⟩
      split at h
      · cases h
      · exact h
      · exact h

/-- A query that some text is read as can be written. -/
theorem writable_of_parse {text : String} {q : Select} (h : parse text = .ok q) : q.Writable := by
  obtain ⟨c, read, made⟩ := parse_eq_ok h
  obtain ⟨prefixes, graphs, projection, patterns, inner, outer⟩ := Grammar.clauses_writable read
  obtain ⟨filter, sole, filled, rfl⟩ := toSelect_eq_ok made
  exact ⟨prefixes, graphs, projection, filled, patterns, soleFilter_writable inner outer sole⟩

end RdfStore.Query
