import RdfStore.Proofs.Query.Quoted
import RdfStore.Proofs.Query.Writable

/-!
# Tokens are read back as they were written

A scanner that is given the written form of a token and any text behind it returns the token and
that text, provided the text cannot be taken for a continuation (`Token.Ends`). In written queries a
token is followed by a space or a closing bracket, or it stands at the very end.

* `Token.variable_written`, `Token.uri_written`, `Token.blank_written`, `Token.literal_written`: one
  class each.
* `Token.term_written`: the ordered choice between the classes takes the right one.
-/

namespace RdfStore.Query

open Text (run mark)

namespace Token

/-! ## Blanks and marks -/

theorem skip_space (text : List Char) : skip (' ' :: text) = skip text := rfl

theorem mark_self (d : Char) (text : List Char) : mark d (d :: text) = some text := if_pos rfl

/-! ## Where tokens end -/

/-- The characters that follow tokens in written queries. -/
def closers : List Char := [' ', ')']

/-- No token goes on into this text. -/
def Ends (rest : List Char) : Prop := ∀ c ∈ rest.head?, c ∈ closers

theorem ends_space (rest : List Char) : Ends (' ' :: rest) := by
  intro c mem
  cases mem
  decide

theorem ends_bracket (rest : List Char) : Ends (')' :: rest) := by
  intro c mem
  cases mem
  decide

theorem Ends.cases {rest : List Char} (h : Ends rest) :
    rest = [] ∨ (∃ text, rest = ' ' :: text) ∨ ∃ text, rest = ')' :: text := by
  cases rest with
  | nil => exact Or.inl rfl
  | cons c text =>
      have closer : c ∈ closers := h c rfl
      simp only [closers, List.mem_cons, List.not_mem_nil, or_false] at closer
      rcases closer with rfl | rfl
      · exact Or.inr (Or.inl ⟨text, rfl⟩)
      · exact Or.inr (Or.inr ⟨text, rfl⟩)

/-- A run is read as a whole if the text behind it does not continue it. -/
theorem run_append {p : Char → Bool} {found rest : List Char} (h : IsRun p found)
    (stop : ∀ c ∈ rest.head?, p c = false) : run p (found ++ rest) = some (found, rest) := by
  obtain ⟨some, all⟩ := h
  have taken : rest.takeWhile p = [] := by
    cases rest with
    | nil => rfl
    | cons c text => rw [List.takeWhile_cons_of_neg (by simp [stop c rfl])]
  have dropped : rest.dropWhile p = rest := by
    cases rest with
    | nil => rfl
    | cons c text => rw [List.dropWhile_cons_of_neg (by simp [stop c rfl])]
  cases found with
  | nil => exact absurd rfl some
  | cons c found =>
      obtain ⟨first, all⟩ := List.forall_mem_cons.1 all
      rw [List.cons_append, run, if_pos first, List.takeWhile_append_of_pos all,
        List.dropWhile_append_of_pos all, taken, dropped, List.append_nil]

theorem Ends.stops {p : Char → Bool} {rest : List Char} (ends : Ends rest) (space : p ' ' = false)
    (bracket : p ')' = false) : ∀ c ∈ rest.head?, p c = false := by
  intro c mem
  rcases ends.cases with rfl | ⟨text, rfl⟩ | ⟨text, rfl⟩
  · cases mem
  · cases mem
    exact space
  · cases mem
    exact bracket

/-! ## Names and URIs -/

theorem variable_written {name : String} {rest : List Char} (h : IsName name) (ends : Ends rest) :
    «variable» (Written.variable name ++ rest) = some (name, rest) := by
  have read : run isNameChar (name.toList ++ rest) = some (name.toList, rest) :=
    run_append h (ends.stops rfl rfl)
  change (run isNameChar (name.toList ++ rest)).map _ = _
  rw [read]
  exact congrArg (fun found => some (found, rest)) String.ofList_toList

theorem uri_written {text : String} (rest : List Char) (h : IsUri text) :
    uri (Written.uri text ++ rest) = some (text, rest) := by
  have split : Written.uri text ++ rest = '<' :: (text.toList ++ '>' :: rest) := by
    rw [Written.uri, List.append_assoc]
    rfl
  have close : ¬isUriChar '>' = true := by decide
  have dropped : (text.toList ++ '>' :: rest).dropWhile isUriChar = '>' :: rest := by
    rw [List.dropWhile_append_of_pos h, List.dropWhile_cons_of_neg close]
  have taken : (text.toList ++ '>' :: rest).takeWhile isUriChar = text.toList := by
    rw [List.takeWhile_append_of_pos h, List.takeWhile_cons_of_neg close, List.append_nil]
  rw [split]
  unfold uri
  simp only [dropped, taken, String.ofList_toList]

theorem anyUri_written {text : String} (rest : List Char) (h : IsUri text) :
    anyUri (Written.uri text ++ rest) = some (text, rest) := by
  rw [anyUri, uri_written rest h]
  rfl

theorem blank_written {label : String} {rest : List Char} (h : IsLabel label) (ends : Ends rest) :
    blank ('_' :: ':' :: label.toList ++ rest) = some (label, rest) := by
  have read : run isLabelChar (label.toList ++ rest) = some (label.toList, rest) :=
    run_append h (ends.stops rfl rfl)
  change (run isLabelChar (label.toList ++ rest)).map _ = _
  rw [read]
  exact congrArg (fun found => some (found, rest)) String.ofList_toList

theorem prefixPart_written {name : String} (rest : List Char) (h : IsPrefix name) :
    prefixPart (name.toList ++ ':' :: rest) = (name.toList, ':' :: rest) := by
  have colon : ¬isLabelChar ':' = true := by decide
  obtain ⟨first, others⟩ := h
  cases chars : name.toList with
  | nil => rfl
  | cons c more =>
      rw [chars] at first others
      have letter : c.isAlpha = true := first
      have all : ∀ d ∈ more, isLabelChar d = true := others
      rw [List.cons_append, prefixPart, if_pos letter, List.takeWhile_append_of_pos all,
        List.dropWhile_append_of_pos all, List.takeWhile_cons_of_neg colon,
        List.dropWhile_cons_of_neg colon, List.append_nil]

theorem prefixName_written {name : String} (rest : List Char) (h : IsPrefix name) :
    prefixName (name.toList ++ ':' :: rest) = some (name, rest) := by
  unfold prefixName
  rw [prefixPart_written rest h]
  exact congrArg (fun text => some (text, rest)) String.ofList_toList

/-! ## Literals -/

theorem subtags_run {sub : List Char} (text : List Char) (all : ∀ c ∈ sub, c.isAlphanum = true) :
    subtags true (sub ++ text) = (sub ++ (subtags true text).1, (subtags true text).2) := by
  induction sub with
  | nil => rfl
  | cons c sub ih =>
      obtain ⟨letter, all⟩ := List.forall_mem_cons.1 all
      have hyphen : c ≠ '-' := by
        rintro rfl
        exact absurd letter (by decide)
      have step : subtags true (c :: (sub ++ text)) =
          (c :: (subtags true (sub ++ text)).1, (subtags true (sub ++ text)).2) := by
        rw [subtags, if_pos (by simp [letter])]
        intro d more eq
        exact absurd eq hyphen
      rw [List.cons_append, step, ih all]
      rfl

theorem subtags_ends {inside : Bool} {rest : List Char} (ends : Ends rest) :
    subtags inside rest = ([], rest) := by
  rcases ends.cases with rfl | ⟨text, rfl⟩ | ⟨text, rfl⟩
  · rfl
  · cases inside <;> rfl
  · cases inside <;> rfl

/-- Subtags are read to their end: by induction on their number, a run of letters and digits for
each behind its hyphen. -/
theorem subtags_written {subs : List (List Char)} {rest : List Char}
    (h : ∀ sub ∈ subs, IsRun Char.isAlphanum sub) (ends : Ends rest) (inside : Bool) :
    subtags inside (subs.flatMap ('-' :: ·) ++ rest) = (subs.flatMap ('-' :: ·), rest) := by
  induction subs generalizing inside with
  | nil => exact subtags_ends ends
  | cons sub subs ih =>
      obtain ⟨⟨some, all⟩, others⟩ := List.forall_mem_cons.1 h
      have rest_read := ih others true
      cases sub with
      | nil => exact absurd rfl some
      | cons c sub =>
          obtain ⟨letter, all⟩ := List.forall_mem_cons.1 all
          have read := subtags_run (subs.flatMap ('-' :: ·) ++ rest) all
          rw [List.flatMap_cons, List.cons_append, List.cons_append, List.append_assoc,
            List.cons_append, subtags, if_pos letter, read, rest_read]
          rfl

theorem language_written {tag : String} {rest : List Char} (h : IsTag tag) (ends : Ends rest) :
    language ('@' :: tag.toList ++ rest) = some (tag, rest) := by
  obtain ⟨main, subs, chars, letters, others⟩ := h
  have stop : ∀ c ∈ (subs.flatMap ('-' :: ·) ++ rest).head?, c.isAlpha = false := by
    intro c mem
    cases subs with
    | nil => exact ends.stops rfl rfl c mem
    | cons sub subs =>
        cases mem
        rfl
  have read := run_append letters stop
  have more := subtags_written others ends false
  have back : String.ofList (main ++ subs.flatMap ('-' :: ·)) = tag := by
    rw [← chars, String.ofList_toList]
  rw [chars, List.cons_append, List.append_assoc]
  unfold language
  simp only [read, more, back]

theorem datatype_written {type : String} (rest : List Char) (h : IsUri type) :
    datatype ('^' :: '^' :: Written.uri type ++ rest) = some (type, rest) :=
  anyUri_written rest h

/-- What stands behind the closing quote of a literal. -/
def qualifier (l : Literal) : List Char :=
  (match l.language with
    | some language => '@' :: language.toList
    | none => []) ++
  (match l.datatype with
    | some datatype => '^' :: '^' :: Written.uri datatype
    | none => [])

theorem qualify_written {l : Literal} {rest : List Char} (h : LiteralWritable l)
    (ends : Ends rest) : qualify l.value (qualifier l ++ rest) = (l, rest) := by
  obtain ⟨value, type, tag⟩ := l
  cases tag with
  | some tag =>
      have absent : type = none := by simpa using h.single
      subst absent
      have read := language_written (h.language tag rfl) ends
      have shape : qualifier ⟨value, none, some tag⟩ = '@' :: tag.toList := List.append_nil _
      unfold qualify
      rw [shape, read]
  | none =>
      cases type with
      | some type =>
          have read := datatype_written rest (h.datatype type rfl)
          have other : language ('^' :: '^' :: Written.uri type ++ rest) = none := rfl
          have shape : qualifier ⟨value, some type, none⟩ = '^' :: '^' :: Written.uri type := rfl
          unfold qualify
          rw [shape, other, read]
      | none =>
          rcases ends.cases with rfl | ⟨text, rfl⟩ | ⟨text, rfl⟩ <;> rfl

theorem literal_text (l : Literal) :
    l.text.toList = '"' :: (Text.escape l.value.toList ++ '"' :: qualifier l) := by
  obtain ⟨value, type, tag⟩ := l
  cases tag <;> cases type <;>
    simp [Literal.text, qualifier, Written.uri, String.toList_append]

theorem literal_written {l : Literal} {rest : List Char} (h : LiteralWritable l)
    (ends : Ends rest) : literal (l.text.toList ++ rest) = some (l, rest) := by
  have body := quotedBody_escape l.value.toList (qualifier l ++ rest)
  have value : String.ofList (Text.unescape (Text.escape l.value.toList)) = l.value := by
    rw [Text.unescape_escape, String.ofList_toList]
  have shape : l.text.toList ++ rest =
      '"' :: (Text.escape l.value.toList ++ '"' :: (qualifier l ++ rest)) := by
    rw [literal_text, List.cons_append, List.append_assoc, List.cons_append]
  rw [shape, literal, if_pos (by decide)]
  simp only [body, if_true, value, qualify_written h ends]

/-! ## Terms -/

/-- The ordered choice takes the class that the term was written in, since no earlier class starts
with the same character. -/
theorem term_written {t : Term} {rest : List Char} (h : t.Writable) (ends : Ends rest) :
    term (Written.term t ++ rest) = some (t, rest) := by
  cases t with
  | «variable» name =>
      have read := variable_written h ends
      rw [Written.term, term, read]
      rfl
  | uri text =>
      have read := uri_written rest h
      have other : «variable» (Written.uri text ++ rest) = none := rfl
      rw [Written.term, term, other, read]
      rfl
  | blank label =>
      have read := blank_written h ends
      rw [Written.term, term, read]
      rfl
  | literal l =>
      have read := literal_written h ends
      rw [Written.term, term, read, literal_text]
      rfl

/-- Nothing is passed over in front of a term. -/
theorem skip_term (t : Term) (rest : List Char) :
    skip (Written.term t ++ rest) = Written.term t ++ rest := by
  cases t with
  | «variable» name => rfl
  | uri text => rfl
  | blank label => rfl
  | literal l => rw [Written.term, literal_text]; rfl

theorem skip_uri (text : String) (rest : List Char) :
    skip (Written.uri text ++ rest) = Written.uri text ++ rest :=
  skip_term (.uri text) rest

end Token

end RdfStore.Query
