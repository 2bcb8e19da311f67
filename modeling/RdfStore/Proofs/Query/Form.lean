import RdfStore.Proofs.Query.Grammar
import RdfStore.Query.Form

/-!
# The form check on written queries

The form of a query text is judged before the grammar reads it, by rules of its own: comments are
cut line by line at the last `#`, and a PREFIX declaration reaches to the next `>`. Neither misfires
on a written query. It stands on one line (`oneLine_written`), so at most one `#` is taken for the
start of a comment; in front of the word SELECT every `#` is inside angle brackets (`Shielded`), so
that word survives; and no `>` closes a declaration too early.

* `formOf_written`: the form of a written query is SELECT.
-/

namespace RdfStore.Query

/-! ## A written query stands on one line -/

/-- No character of the text ends a line. -/
def OneLine (text : List Char) : Prop := ∀ c ∈ text, Token.endsLine c = false

instance (text : List Char) : Decidable (OneLine text) := List.decidableBAll _ text

section

variable {text front back : List Char}

@[simp] theorem oneLine_nil : OneLine [] := by
  intro c mem
  cases mem

@[simp] theorem oneLine_cons {c : Char} :
    OneLine (c :: text) ↔ Token.endsLine c = false ∧ OneLine text :=
  List.forall_mem_cons

@[simp] theorem oneLine_append : OneLine (front ++ back) ↔ OneLine front ∧ OneLine back :=
  List.forall_mem_append

theorem oneLine_of_class {p : Char → Bool} (h : ∀ c ∈ text, p c = true) (feed : p '\n' = false)
    (return_ : p '\r' = false) : OneLine text := by
  intro c mem
  have inside := h c mem
  rw [Bool.eq_false_iff]
  intro ends
  simp only [Token.endsLine, Bool.or_eq_true, decide_eq_true_eq] at ends
  rcases ends with rfl | rfl
  · exact absurd inside (by simp [return_])
  · exact absurd inside (by simp [feed])

theorem oneLine_replicate {c : Char} (n : Nat) (h : Token.endsLine c = false) :
    OneLine (List.replicate n c) := by
  intro d mem
  rw [List.eq_of_mem_replicate mem]
  exact h

theorem oneLine_flatMap {α : Type} {body : α → List Char} {items : List α}
    (h : ∀ i ∈ items, OneLine (body i)) : OneLine (items.flatMap body) := by
  intro c mem
  obtain ⟨i, at_, inner⟩ := List.mem_flatMap.1 mem
  exact h i at_ c inner

theorem oneLine_separated {separator : List Char} {pieces : List (List Char)}
    (between : OneLine separator) (h : ∀ piece ∈ pieces, OneLine piece) :
    OneLine (Written.separated separator pieces) := by
  cases pieces with
  | nil => exact oneLine_nil
  | cons first pieces =>
      obtain ⟨first, others⟩ := List.forall_mem_cons.1 h
      rw [Grammar.separated_cons, oneLine_append]
      exact ⟨first, oneLine_flatMap fun piece mem => oneLine_append.2 ⟨between, others piece mem⟩⟩

end

theorem oneLine_variable {name : String} (h : IsName name) : OneLine (Written.variable name) :=
  oneLine_cons.2 ⟨rfl, oneLine_of_class h.2 rfl rfl⟩

theorem oneLine_uri {text : String} (h : IsUri text) : OneLine (Written.uri text) := by
  have plain : OneLine text.toList := oneLine_of_class h rfl rfl
  simp [Written.uri, plain, Token.endsLine]

theorem oneLine_tag {tag : String} (h : IsTag tag) : OneLine tag.toList := by
  obtain ⟨main, subs, chars, letters, others⟩ := h
  rw [chars, oneLine_append]
  refine ⟨oneLine_of_class letters.2 rfl rfl, oneLine_flatMap ?_⟩
  intro sub mem
  exact oneLine_cons.2 ⟨rfl, oneLine_of_class (others sub mem).2 rfl rfl⟩

/-- The value of a literal may hold line ends, but its escaped form does not. -/
theorem oneLine_escape (value : List Char) : OneLine (Text.escape value) := by
  intro c mem
  rw [Bool.eq_false_iff]
  intro ends
  simp only [Token.endsLine, Bool.or_eq_true, decide_eq_true_eq] at ends
  rcases ends with rfl | rfl
  · exact Text.layout_not_mem_escape (Or.inr (Or.inl rfl)) value mem
  · exact Text.layout_not_mem_escape (Or.inl rfl) value mem

theorem oneLine_qualifier {l : Literal} (h : LiteralWritable l) : OneLine (Token.qualifier l) := by
  refine oneLine_append.2 ⟨?_, ?_⟩
  · split
    · rename_i tag found
      exact oneLine_cons.2 ⟨rfl, oneLine_tag (h.language tag found)⟩
    · exact oneLine_nil
  · split
    · rename_i type found
      exact oneLine_cons.2 ⟨rfl, oneLine_cons.2 ⟨rfl, oneLine_uri (h.datatype type found)⟩⟩
    · exact oneLine_nil

theorem oneLine_term {t : Term} (h : t.Writable) : OneLine (Written.term t) := by
  cases t with
  | «variable» name => exact oneLine_variable h
  | uri text => exact oneLine_uri h
  | literal l =>
      rw [Written.term, Token.literal_text]
      simp [oneLine_escape, oneLine_qualifier h, Token.endsLine]
  | blank label =>
      have plain : OneLine label.toList := oneLine_of_class h.2 rfl rfl
      simp [Written.term, plain, Token.endsLine]

theorem oneLine_triple {p : TriplePattern} (h : p.Writable) : OneLine (Written.triple p) := by
  simp [Written.triple, oneLine_term h.subject, oneLine_term h.predicate, oneLine_term h.object,
    Token.endsLine]

theorem oneLine_patterns {found : List TriplePattern} (h : ∀ p ∈ found, p.Writable) :
    OneLine (Written.patterns found) := by
  refine oneLine_separated (by decide) ?_
  intro piece mem
  obtain ⟨p, at_, rfl⟩ := List.mem_map.1 mem
  exact oneLine_triple (h p at_)

theorem oneLine_comparison {c : Comparison} (h : c.Writable) (brackets : Nat) :
    OneLine (Written.comparison brackets c) := by
  have opened : OneLine (List.replicate brackets '(') := oneLine_replicate brackets rfl
  have closed : OneLine (List.replicate brackets ')') := oneLine_replicate brackets rfl
  simp [Written.comparison, opened, closed, oneLine_variable h.name, oneLine_uri h.uri,
    Token.endsLine]

theorem oneLine_filter {filter : Option (List Comparison)} (brackets : Nat → Nat)
    (h : FilterWritable filter) : OneLine (Written.filter brackets filter) := by
  cases filter with
  | none => exact oneLine_nil
  | some found =>
      have pieces : OneLine (Written.separated " || ".toList
          (Written.comparisons brackets 0 found)) := by
        rw [Grammar.comparisons_eq_map]
        refine oneLine_separated (by decide) ?_
        intro piece mem
        obtain ⟨entry, at_, rfl⟩ := List.mem_map.1 mem
        exact oneLine_comparison (h.2 _ (List.fst_mem_of_mem_zipIdx at_)) _
      exact oneLine_append.2 ⟨oneLine_append.2 ⟨by decide, pieces⟩, by decide⟩

theorem oneLine_projection {p : Projection} (h : p.Writable) : OneLine (Written.projection p) := by
  cases p with
  | all => decide
  | listed names =>
      refine oneLine_separated (by decide) ?_
      intro piece mem
      obtain ⟨name, at_, rfl⟩ := List.mem_map.1 mem
      exact oneLine_variable (h.2 name at_)

theorem oneLine_declaration {entry : String × String} (name : IsPrefix entry.1)
    (uri : IsUri entry.2) : OneLine (Grammar.declaration entry) := by
  have label : OneLine entry.1.toList := oneLine_of_class name.isLabelChar rfl rfl
  unfold Grammar.declaration
  simp [label, oneLine_uri uri, Token.endsLine]

theorem oneLine_prefixes {entries : List (String × String)}
    (h : ∀ entry ∈ entries, IsPrefix entry.1 ∧ IsUri entry.2) :
    OneLine (Written.prefixes entries) := by
  refine oneLine_flatMap ?_
  intro entry mem
  obtain ⟨name, uri⟩ := h entry mem
  exact oneLine_append.2 ⟨oneLine_declaration name uri, by decide⟩

theorem oneLine_graphs {graphs : List String} (h : ∀ graph ∈ graphs, IsUri graph) :
    OneLine (Written.graphs graphs) := by
  refine oneLine_flatMap ?_
  intro graph mem
  simp [oneLine_uri (h graph mem), Token.endsLine]

theorem oneLine_written {q : Select} (layout : Layout) (h : q.Writable) :
    OneLine (q.written layout) := by
  have distinct : OneLine (if q.distinct then "DISTINCT ".toList else []) := by
    split <;> decide
  rw [Grammar.written_eq]
  simp only [oneLine_append, oneLine_cons, oneLine_prefixes h.prefixes, distinct,
    oneLine_projection h.projection, oneLine_graphs h.graphs, oneLine_patterns h.patterns,
    oneLine_filter _ (Grammar.innerFilter_writable layout h.filter),
    oneLine_filter _ (Grammar.outerFilter_writable layout h.filter)]
  decide

/-! ## Comments -/

/-- Every `#` stands behind an angle bracket that is still open. -/
def Shielded (text : List Char) : Prop :=
  ∀ before after, text = before ++ '#' :: after → before.count '>' < before.count '<'

theorem shielded_of_not_mem {text : List Char} (h : '#' ∉ text) : Shielded text := by
  intro before after eq
  refine absurd ?_ h
  rw [eq]
  exact List.mem_append_right before (List.mem_cons_self)

/-- An occurrence in two joined texts is in the first or in the second. -/
theorem occurrence_append {d : Char} {front back before after : List Char}
    (eq : front ++ back = before ++ d :: after) :
    (∃ middle, front = before ++ d :: middle) ∨
      ∃ middle, before = front ++ middle ∧ back = middle ++ d :: after := by
  rcases List.append_eq_append_iff.1 eq with ⟨middle, split, rest⟩ | ⟨middle, split, rest⟩
  · exact Or.inr ⟨middle, split, rest⟩
  · cases middle with
    | nil =>
        rw [List.append_nil] at split
        exact Or.inr ⟨[], by rw [split, List.append_nil], rest.symm⟩
    | cons c middle =>
        obtain ⟨rfl, -⟩ := List.cons.inj rest
        exact Or.inl ⟨middle, split⟩

/-- Behind a text that closes no more brackets than it opens, a shielded text stays shielded. -/
theorem Shielded.append {front back : List Char} (hf : Shielded front)
    (balanced : front.count '>' ≤ front.count '<') (hb : Shielded back) :
    Shielded (front ++ back) := by
  intro before after eq
  rcases occurrence_append eq with ⟨middle, split⟩ | ⟨middle, split, rest⟩
  · exact hf before middle split
  · have inner := hb middle after rest
    rw [split, List.count_append, List.count_append]
    omega

theorem count_uri {text : String} (h : IsUri text) :
    (Written.uri text).count '>' = 1 ∧ (Written.uri text).count '<' = 1 := by
  have noClose : '>' ∉ text.toList := fun mem => absurd (h _ mem) (by decide)
  have noOpen : '<' ∉ text.toList := fun mem => absurd (h _ mem) (by decide)
  simp [Written.uri, List.count_eq_zero.2 noClose, List.count_eq_zero.2 noOpen]

theorem shielded_uri {text : String} (h : IsUri text) : Shielded (Written.uri text) := by
  have noClose : '>' ∉ text.toList := fun mem => absurd (h _ mem) (by decide)
  intro before after eq
  cases before with
  | nil => cases (List.cons.inj eq).1
  | cons c before =>
      obtain ⟨rfl, tail⟩ := List.cons.inj eq
      have inside : '>' ∉ before := by
        rcases occurrence_append tail with ⟨middle, split⟩ | ⟨middle, -, rest⟩
        · exact fun mem => noClose (split ▸ List.mem_append_left _ mem)
        · cases middle with
          | nil => cases (List.cons.inj rest).1
          | cons d middle => simp at rest
      simp [List.count_eq_zero.2 inside]

/-- A shielded front survives the cut, wherever the last `#` of the line stands. -/
theorem codeOfLine_shielded {front : List Char} (h : Shielded front) (back : List Char) :
    ∃ rest, rest <+: back ∧ codeOfLine (front ++ back) = front ++ rest := by
  unfold codeOfLine
  split
  · rename_i before after cut
    obtain ⟨eq, -⟩ := Text.cutLast?_eq_some cut
    split
    · rename_i few
      rcases occurrence_append eq with ⟨middle, split⟩ | ⟨middle, split, rest⟩
      · have many := h before middle split
        omega
      · exact ⟨middle, rest ▸ List.prefix_append _ _, split⟩
    · exact ⟨back, List.prefix_refl back, rfl⟩
  · exact ⟨back, List.prefix_refl back, rfl⟩

/-- A shielded line has no comment. -/
theorem codeOfLine_of_shielded {line : List Char} (h : Shielded line) : codeOfLine line = line := by
  unfold codeOfLine
  split
  · rename_i before after cut
    obtain ⟨eq, -⟩ := Text.cutLast?_eq_some cut
    exact if_neg (Nat.not_le.2 (h before after eq))
  · rfl

/-! ## The leading words -/

/-- A declaration up to its URI. -/
def declared (name : String) : List Char := "PREFIX ".toList ++ (name.toList ++ [':', ' '])

theorem declaration_eq (entry : String × String) :
    Grammar.declaration entry = declared entry.1 ++ Written.uri entry.2 := by
  unfold Grammar.declaration declared
  rw [List.append_assoc, List.append_assoc, List.append_assoc]
  rfl

theorem not_mem_declared {name : String} (h : IsPrefix name) {c : Char}
    (label : Token.isLabelChar c = false) (outside : c ∉ "PREFIX ".toList ++ [':', ' ']) :
    c ∉ declared name := by
  intro mem
  rcases List.mem_append.1 mem with mem | mem
  · exact outside (List.mem_append_left _ mem)
  rcases List.mem_append.1 mem with mem | mem
  · rw [h.isLabelChar c mem] at label
    cases label
  · exact outside (List.mem_append_right _ mem)

theorem shielded_declaration {entry : String × String} (name : IsPrefix entry.1)
    (uri : IsUri entry.2) : Shielded (Grammar.declaration entry) ∧
      (Grammar.declaration entry).count '>' = (Grammar.declaration entry).count '<' := by
  have noHash : '#' ∉ declared entry.1 := not_mem_declared name rfl (by decide)
  have noOpen : '<' ∉ declared entry.1 := not_mem_declared name rfl (by decide)
  have noClose : '>' ∉ declared entry.1 := not_mem_declared name rfl (by decide)
  have opened := List.count_eq_zero.2 noOpen
  have closed := List.count_eq_zero.2 noClose
  obtain ⟨closedUri, openedUri⟩ := count_uri uri
  rw [declaration_eq]
  refine ⟨?_, ?_⟩
  · refine Shielded.append (shielded_of_not_mem noHash) ?_ (shielded_uri uri)
    omega
  · rw [List.count_append, List.count_append]
    omega

theorem shielded_prefixes {entries : List (String × String)}
    (h : ∀ entry ∈ entries, IsPrefix entry.1 ∧ IsUri entry.2) {rest : List Char}
    (behind : Shielded rest) : Shielded (Written.prefixes entries ++ rest) := by
  induction entries with
  | nil => exact behind
  | cons entry entries ih =>
      obtain ⟨⟨name, uri⟩, others⟩ := List.forall_mem_cons.1 h
      obtain ⟨shielded, balanced⟩ := shielded_declaration name uri
      have gap : Shielded [' '] := shielded_of_not_mem (by decide)
      rw [Grammar.prefixes_cons]
      exact shielded.append (Nat.le_of_eq balanced) (gap.append (by decide) (ih others))

theorem trimFront_prefixes (entries : List (String × String)) (rest : List Char) :
    Text.trimFront (Written.prefixes entries ++ ("SELECT ".toList ++ rest)) =
      Written.prefixes entries ++ ("SELECT ".toList ++ rest) := by
  cases entries with
  | nil => rfl
  | cons entry entries => rfl

/-- The check passes over a declaration, which is left at the bracket that closes its own URI. -/
theorem formAfter_declaration {entry : String × String} (name : IsPrefix entry.1)
    (uri : IsUri entry.2) (n : Nat) (rest : List Char) :
    formAfter (n + 1) (Grammar.declaration entry ++ rest) = formAfter n (Text.trimFront rest) := by
  have opened : '>' ∉ declared entry.1 ++ '<' :: entry.2.toList := by
    have before : '>' ∉ declared entry.1 := not_mem_declared name rfl (by decide)
    have inside : '>' ∉ entry.2.toList := fun mem => absurd (uri _ mem) (by decide)
    simp [before, inside]
  have shape : Grammar.declaration entry ++ rest =
      (declared entry.1 ++ '<' :: entry.2.toList) ++ '>' :: rest := by
    rw [declaration_eq, Written.uri, List.append_assoc, List.append_assoc]
    simp
  have word (tail : List Char) :
      leadingWord ((declared entry.1 ++ '<' :: entry.2.toList) ++ tail) = "PREFIX" := rfl
  rw [shape, formAfter, word, if_pos rfl, Text.cut?_singleton_eq_some_iff.2 ⟨rfl, opened⟩]

theorem formAfter_prefixes {entries : List (String × String)}
    (h : ∀ entry ∈ entries, IsPrefix entry.1 ∧ IsUri entry.2) (rest : List Char) {n : Nat}
    (fuel : entries.length < n) :
    formAfter n (Written.prefixes entries ++ ("SELECT ".toList ++ rest)) = .select := by
  induction entries generalizing n with
  | nil =>
      obtain ⟨m, rfl⟩ : ∃ m, n = m + 1 := ⟨n - 1, by omega⟩
      have word : leadingWord ("SELECT ".toList ++ rest) = "SELECT" := rfl
      change formAfter (m + 1) ("SELECT ".toList ++ rest) = .select
      rw [formAfter, word]
      rfl
  | cons entry entries ih =>
      obtain ⟨m, rfl⟩ : ∃ m, n = m + 1 := ⟨n - 1, by simp only [List.length_cons] at fuel; omega⟩
      obtain ⟨⟨name, uri⟩, others⟩ := List.forall_mem_cons.1 h
      have trimmed :
          Text.trimFront (' ' :: (Written.prefixes entries ++ ("SELECT ".toList ++ rest))) =
            Written.prefixes entries ++ ("SELECT ".toList ++ rest) :=
        trimFront_prefixes entries rest
      rw [Grammar.prefixes_cons, formAfter_declaration name uri, trimmed]
      exact ih others (Nat.lt_of_succ_lt_succ fuel)

theorem length_le_prefixes (entries : List (String × String)) :
    entries.length ≤ (Written.prefixes entries).length := by
  have enough := Grammar.length_le_spaced Grammar.declaration entries
  have same := congrArg List.length (Grammar.prefixes_spaced entries [])
  simp only [List.length_cons, List.length_append, List.length_nil] at same
  omega

/-- The form of a written query is SELECT, whatever stands in its URIs and literals. -/
theorem formOf_written {q : Select} (layout : Layout) (h : q.Writable) :
    formOf (q.written layout) = .select := by
  obtain ⟨back, split⟩ : ∃ back, q.written layout =
      (Written.prefixes q.prefixes ++ "SELECT ".toList) ++ back := by
    unfold Select.written
    simp only [List.append_assoc]
    exact ⟨_, rfl⟩
  have shielded : Shielded (Written.prefixes q.prefixes ++ "SELECT ".toList) :=
    shielded_prefixes h.prefixes (shielded_of_not_mem (by decide))
  obtain ⟨rest, -, kept⟩ := codeOfLine_shielded shielded back
  have feed : '\n' ∉ q.written layout := by
    intro mem
    cases oneLine_written layout h _ mem
  have filled : q.written layout ≠ [] := by
    rw [split]
    simp
  have code : codeOf (q.written layout) =
      Written.prefixes q.prefixes ++ ("SELECT ".toList ++ rest) := by
    rw [codeOf, Text.lines_of_not_mem feed filled, ← List.append_assoc, ← kept, ← split]
    rfl
  have enough := length_le_prefixes q.prefixes
  rw [formOf, code, trimFront_prefixes]
  refine formAfter_prefixes h.prefixes rest ?_
  rw [List.length_append]
  omega

end RdfStore.Query
