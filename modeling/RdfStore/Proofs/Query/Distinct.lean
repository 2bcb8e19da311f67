import RdfStore.Proofs.Canonical

/-!
# Which nodes share a text, and what DISTINCT tells apart

The value of a literal is escaped in its canonical text, its language and its datatype are not. So a
language can go on as if a datatype followed it: the text `"x"@en^^<d>` belongs to a literal with the
language `en` and the datatype `d`, and to one with the language `en^^<d>` and no datatype. Nothing
else goes wrong. Two different nodes that are no placeholders share a text only if they are literals
with one value, and the language of one runs into the datatype of the other (`Node.text_eq_iff`).

DISTINCT tells rows apart by the texts of their nodes. Among statements without two such literals it
leaves out exactly the rows that are equal to an earlier one (`Query.Plan.rows_of_distinct`).

* `distinct_by_texts`: both together.
-/

namespace RdfStore

/-! ## Literals -/

namespace Literal

/-- The language of the second literal starts like that of the first, and goes on with what the first
has behind its language, as far as the second does not have it as its datatype. -/
structure RunsInto (l m : Literal) : Prop where
  value : l.value = m.value
  qualifiers : ∃ tag type middle, l.language = some tag ∧ l.datatype = some type ∧
    m.language = some (tag ++ "^^<" ++ middle) ∧
      type.toList ++ ['>'] = middle.toList ++ datatypeText m.datatype

theorem eq_of_parts {l m : Literal} (value : l.value = m.value) (language : l.language = m.language)
    (datatype : l.datatype = m.datatype) : l = m := by
  rcases l with ⟨v, d, t⟩
  rcases m with ⟨v', d', t'⟩
  cases value
  cases language
  cases datatype
  rfl

theorem datatypeText_inj {o o' : Option String} (same : datatypeText o = datatypeText o') :
    o = o' := by
  cases o with
  | none =>
      cases o' with
      | none => rfl
      | some type' => cases same
  | some type =>
      cases o' with
      | none => cases same
      | some type' =>
          simp only [datatypeText, List.cons.injEq, true_and, List.append_cancel_right_eq] at same
          rw [String.toList_inj.1 same]

/-- What a language can take from a datatype: nothing, or its mark and a part of its URI. -/
theorem datatypeText_split {o o' : Option String} {more : List Char}
    (same : datatypeText o = more ++ datatypeText o') : more = [] ∧ o = o' ∨
      ∃ type middle, o = some type ∧ more = '^' :: '^' :: '<' :: middle ∧
        type.toList ++ ['>'] = middle ++ datatypeText o' := by
  cases more with
  | nil => exact Or.inl ⟨rfl, datatypeText_inj same⟩
  | cons a more =>
      refine Or.inr ?_
      cases o with
      | none => cases same
      | some type =>
          rw [datatypeText, List.cons_append, List.cons.injEq] at same
          obtain ⟨rfl, same⟩ := same
          -- the mark `^^<` does not start a second time within itself
          cases more with
          | nil => cases o' <;> cases same
          | cons b more =>
              rw [List.cons_append, List.cons.injEq] at same
              obtain ⟨rfl, same⟩ := same
              cases more with
              | nil => cases o' <;> cases same
              | cons c middle =>
                  rw [List.cons_append, List.cons.injEq] at same
                  obtain ⟨rfl, same⟩ := same
                  exact ⟨type, middle, rfl, rfl, same⟩

/-- One language being the start of the other, what it lacks is taken from the datatype behind it. -/
theorem eq_or_runsInto {l m : Literal} {tag : String} {more : List Char} (value : l.value = m.value)
    (language : l.language = some tag) (language' : m.language = some (tag ++ String.ofList more))
    (types : datatypeText l.datatype = more ++ datatypeText m.datatype) : l = m ∨ l.RunsInto m := by
  rcases datatypeText_split types with ⟨rfl, datatype⟩ | ⟨type, middle, datatype, rfl, rest⟩
  · refine Or.inl ?_
    rw [String.ofList_nil, String.append_empty] at language'
    exact eq_of_parts value (language.trans language'.symm) datatype
  · refine Or.inr ⟨value, tag, type, String.ofList middle, language, datatype, ?_, ?_⟩
    · rw [language', Option.some.injEq, ← String.toList_inj]
      simp
    · rw [rest, String.toList_ofList]

theorem RunsInto.same_qualifier {l m : Literal} (h : l.RunsInto m) :
    Query.Token.qualifier l = Query.Token.qualifier m := by
  obtain ⟨tag, type, middle, language, datatype, language', rest⟩ := h.qualifiers
  rw [qualifier_eq l, qualifier_eq m, language, datatype, language', languageText, languageText,
    datatypeText, rest]
  simp

/-- A literal runs into longer languages only. -/
theorem not_runsInto_of_language {l m : Literal} (same : l.language = m.language) :
    ¬l.RunsInto m := by
  intro runs
  obtain ⟨tag, type, middle, language, -, language', -⟩ := runs.qualifiers
  have longer := language.symm.trans (same.trans language')
  rw [Option.some.injEq] at longer
  have lengths := congrArg String.length longer
  have mark : "^^<".length = 3 := rfl
  rw [String.length_append, String.length_append, mark] at lengths
  omega

theorem text_eq_text_iff {l m : Literal} :
    l.text = m.text ↔ l.value = m.value ∧ Query.Token.qualifier l = Query.Token.qualifier m := by
  rw [← String.toList_inj, Query.Token.literal_text, Query.Token.literal_text]
  constructor
  · intro same
    obtain ⟨values, qualifiers⟩ := escape_append_inj (List.cons.inj same).2
    exact ⟨String.toList_inj.1 values, qualifiers⟩
  · rintro ⟨value, qualifiers⟩
    rw [value, qualifiers]

/-- Literals share a text exactly if they are equal or one runs into the other. -/
theorem text_eq_iff {l m : Literal} : l.text = m.text ↔ l = m ∨ l.RunsInto m ∨ m.RunsInto l := by
  constructor
  · intro same
    obtain ⟨value, qualifiers⟩ := text_eq_text_iff.1 same
    rw [qualifier_eq, qualifier_eq] at qualifiers
    cases language : l.language with
    | none =>
        cases language' : m.language with
        | none =>
            rw [language, language'] at qualifiers
            exact Or.inl (eq_of_parts value (language.trans language'.symm)
              (datatypeText_inj qualifiers))
        | some tag' =>
            rw [language, language'] at qualifiers
            cases datatype : l.datatype <;> rw [datatype] at qualifiers <;> cases qualifiers
    | some tag =>
        cases language' : m.language with
        | none =>
            rw [language, language'] at qualifiers
            cases datatype : m.datatype <;> rw [datatype] at qualifiers <;> cases qualifiers
        | some tag' =>
            rw [language, language'] at qualifiers
            rcases List.append_eq_append_iff.1 (List.cons.inj qualifiers).2 with
              ⟨more, split, types⟩ | ⟨more, split, types⟩
            · refine (eq_or_runsInto value language ?_ types).imp id Or.inl
              rw [language', Option.some.injEq, ← String.toList_inj, split]
              simp
            · refine (eq_or_runsInto value.symm language' ?_ types).imp Eq.symm Or.inr
              rw [language, Option.some.injEq, ← String.toList_inj, split]
              simp
  · rintro (rfl | runs | runs)
    · rfl
    · exact text_eq_text_iff.2 ⟨runs.value, runs.same_qualifier⟩
    · exact text_eq_text_iff.2 ⟨runs.value.symm, runs.same_qualifier.symm⟩

end Literal

/-! ## Nodes -/

namespace Node

/-- Two nodes are literals the first of which runs into the second. -/
def RunsInto : Node → Node → Prop
  | literal l, literal m => l.RunsInto m
  | _, _ => False

theorem RunsInto.literals {n m : Node} (h : n.RunsInto m) :
    ∃ l l', n = literal l ∧ m = literal l' ∧ l.RunsInto l' := by
  cases n with
  | literal l =>
      cases m with
      | literal l' => exact ⟨l, l', rfl, rfl, h⟩
      | named | blank | pattern => exact h.elim
  | named | blank | pattern => exact h.elim

theorem RunsInto.same_text {n m : Node} (h : n.RunsInto m) : n.text = m.text := by
  obtain ⟨l, l', rfl, rfl, runs⟩ := h.literals
  exact Literal.text_eq_iff.2 (Or.inr (Or.inl runs))

/-- Nodes whose literals all have one language do not run into one another. -/
theorem not_runsInto_of_language {n m : Node} {language : Option String}
    (left : ∀ l, n = literal l → l.language = language)
    (right : ∀ l, m = literal l → l.language = language) : ¬n.RunsInto m := by
  intro h
  obtain ⟨l, l', given, given', runs⟩ := h.literals
  exact Literal.not_runsInto_of_language ((left l given).trans (right l' given').symm) runs

theorem eq_or_runsInto {n m : Node} (concrete : n.isConcrete = true) (same : n.text = m.text) :
    n = m ∨ n.RunsInto m ∨ m.RunsInto n := by
  have chars := congrArg String.toList same
  rw [toList_text, toList_text] at chars
  obtain ⟨kind, bodies⟩ := List.cons.inj chars
  cases n with
  | named uri =>
      cases m with
      | named uri' =>
          exact Or.inl (congrArg named (String.toList_inj.1 (List.append_cancel_right bodies)))
      | literal | blank | pattern => cases kind
  | literal l =>
      cases m with
      | literal l' => exact (Literal.text_eq_iff.1 same).imp (congrArg literal) id
      | named | blank | pattern => cases kind
  | blank label =>
      cases m with
      | blank label' =>
          exact Or.inl (congrArg blank (String.toList_inj.1 (List.cons.inj bodies).2))
      | named | literal | pattern => cases kind
  | pattern name => cases concrete

/-- Nodes that are no placeholders share a text exactly if they are equal or one runs into the other. -/
theorem text_eq_iff {n m : Node} (concrete : n.isConcrete = true) :
    n.text = m.text ↔ n = m ∨ n.RunsInto m ∨ m.RunsInto n := by
  refine ⟨eq_or_runsInto concrete, fun given => ?_⟩
  rcases given with same | runs | runs
  · rw [same]
  · exact runs.same_text
  · exact runs.same_text.symm

end Node

/-! ## Rows -/

namespace Query.Plan

variable {plan : Plan} {statements : List Statement}

/-- If different nodes of the statements have different texts, the rows with DISTINCT are the rows
without it, each where it comes first. -/
theorem rows_of_distinct (distinct : plan.distinct = true)
    (texts : Triple.TextsApart (statements.map Statement.triple)) (limit : Option Nat) :
    (plan.run statements limit).rows =
      atMost limit (firstsBy OrderedMap.entries
        (run { plan with distinct := false } statements none).rows) := by
  have all : (run { plan with distinct := false } statements none).rows =
      ((plan.shape.matching plan.namespaces statements).filter plan.accepts).map plan.rowOf :=
    collect_eq_map_filter rfl _ _
  rw [all, run, collect_eq, kept, if_pos distinct, newBy_of_nothing_known]
  refine congrArg (atMost limit) (firstsBy_congr _ fun row mem row' mem' => ⟨fun same => ?_, ?_⟩)
  · obtain ⟨t, here, rfl⟩ := List.mem_map.1 mem
    obtain ⟨u, there, rfl⟩ := List.mem_map.1 mem'
    have stored {t : Statement}
        (mem : t ∈ (plan.shape.matching plan.namespaces statements).filter plan.accepts) :
        t.triple ∈ statements.map Statement.triple :=
      List.mem_map_of_mem ((Shape.matching_sublist _ _).subset (List.mem_of_mem_filter mem))
    rw [← rowOf_ungraphed plan t, ← rowOf_ungraphed plan u] at same ⊢
    rw [Statement.ungraphed, Statement.ungraphed, rowOf_eq_of_rowKey texts (stored here)
      (stored there) same]
  · intro same
    rw [OrderedMap.ext same]

end Query.Plan

/-- Nodes that are no placeholders share a text exactly if they are equal or literals one of which runs
into the other. So DISTINCT leaves out exactly the rows that are equal to an earlier one, if no such
literals are among the nodes of the statements. -/
theorem distinct_by_texts (plan : Query.Plan) (distinct : plan.distinct = true) :
    (∀ n m : Node, n.isConcrete = true → m.isConcrete = true →
      (n.text = m.text ↔ n = m ∨ n.RunsInto m ∨ m.RunsInto n)) ∧
      ∀ (statements : List Statement) (limit : Option Nat),
        (∀ t ∈ statements, ∀ n ∈ t.nodes, n.isConcrete = true) →
        (∀ t ∈ statements, ∀ u ∈ statements, ∀ n ∈ t.nodes, ∀ m ∈ u.nodes, ¬n.RunsInto m) →
        (plan.run statements limit).rows =
          Query.atMost limit (firstsBy OrderedMap.entries
            (Query.Plan.run { plan with distinct := false } statements none).rows) := by
  refine ⟨fun n m concrete _ => Node.text_eq_iff concrete, ?_⟩
  intro statements limit concrete apart
  refine Query.Plan.rows_of_distinct distinct ?_ limit
  intro t here u there n left m right same
  obtain ⟨x, stored, rfl⟩ := List.mem_map.1 here
  obtain ⟨y, stored', rfl⟩ := List.mem_map.1 there
  rcases (Node.text_eq_iff (concrete x stored n left)).1 same with equal | runs | runs
  · exact equal
  · exact (apart x stored y stored' n left m right runs).elim
  · exact (apart y stored' x stored m right n left runs).elim

/-- Two literals with one language and different datatypes are told apart, and the third statement
repeats the first row. -/
theorem distinct_by_texts_sample :
    let l : Literal := ⟨"x", some "d", some "en"⟩
    let m : Literal := ⟨"x", none, some "en"⟩
    let t : Statement := ⟨.named "s", .named "p", .literal l, none⟩
    let u : Statement := ⟨.named "s", .named "p", .literal m, none⟩
    let plan : Query.Plan := ⟨.empty, .allStatements "s" "p" "o", ["o"], none, ["g"], true⟩
    let statements := [t, u, { t with subject := .blank "b" }]
    (Node.literal l).text ≠ (Node.literal m).text ∧
      (plan.run statements (some 5)).rows.map OrderedMap.entries =
        [[("o", .literal l)], [("o", .literal m)]] := by
  intro l m t u plan statements
  obtain ⟨nodes, rows⟩ := distinct_by_texts plan rfl
  have english : ∀ t ∈ statements, ∀ n ∈ t.nodes, ∀ k, n = .literal k → k.language = some "en" := by
    simp [statements, t, u, l, m, Statement.nodes, Statement.triple, Triple.nodes]
  have apart : ∀ t ∈ statements, ∀ u ∈ statements, ∀ n ∈ t.nodes, ∀ m ∈ u.nodes, ¬n.RunsInto m :=
    fun t here u there n left m right =>
      Node.not_runsInto_of_language (english t here n left) (english u there m right)
  refine ⟨fun same => ?_, ?_⟩
  · rcases (nodes (.literal l) (.literal m) rfl rfl).1 same with equal | runs | runs
    · exact absurd equal (by decide)
    · exact apart t (by decide) u (by decide) _ (by decide) _ (by decide) runs
    · exact apart u (by decide) t (by decide) _ (by decide) _ (by decide) runs
  · rw [rows statements (some 5) (by decide) apart]
    decide +kernel

/-- The language of the second literal is written like language and datatype of the first, and DISTINCT
shows one row for two. -/
theorem literals_share_text :
    let l : Literal := ⟨"x", some "http://d", some "en"⟩
    let m : Literal := ⟨"x", none, some "en^^<http://d>"⟩
    let t : Statement := ⟨.named "http://a", .named "http://p", .literal l, none⟩
    let u : Statement := ⟨.named "http://a", .named "http://p", .literal m, none⟩
    let plan : Query.Plan := ⟨.standard, .allStatements "s" "p" "o", ["o"], none, ["g"], true⟩
    Node.literal l ≠ .literal m ∧ (Node.literal l).text = (Node.literal m).text ∧
      t.Valid ∧ u.Valid ∧
      (plan.run [t, u] none).rows.map OrderedMap.entries = [[("o", .literal l)]] := by
  decide +kernel

end RdfStore
