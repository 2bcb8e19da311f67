import RdfStore.Proofs.Query.Comments

/-!
# The form of a query and its first keyword

The form of a query text is judged by rules of its own, before the grammar reads it. Behind the pieces
in front of a query they mostly come to the first keyword, as the grammar does. What can go wrong are
comments. Where a front of one is left, the check stops (`Quiet`), and inside a declaration it takes a
`>` in it for the end of the URI. Where none of this happens, the first keyword decides
(`parse_of_first_keyword`).
-/

namespace RdfStore.Query

/-! ## The check of what is left -/

/-- The form of a text without comments. -/
def formOfCode (code : List Char) : Form := formAfter (code.length + 1) (Text.trimFront code)

/-- The check does not depend on its bound, if the length of the text is below it. -/
theorem formAfter_congr (n : Nat) : ∀ {m : Nat} {text : List Char}, text.length < n →
    text.length < m → formAfter n text = formAfter m text := by
  induction n with
  | zero =>
      intro m text short _
      cases short
  | succ n ih =>
      intro m text short short'
      obtain ⟨m, rfl⟩ : ∃ k, m = k + 1 := ⟨m - 1, by omega⟩
      unfold formAfter
      dsimp only
      split
      · cases cut : Text.cut? ['>'] text with
        | none => rfl
        | some parts =>
            rcases parts with ⟨before, rest⟩
            have shorter : (Text.trimFront rest).length < text.length := by
              have trimmed : (Text.trimFront rest).length ≤ rest.length :=
                (List.dropWhile_suffix _).length_le
              rw [Text.cut?_eq_some cut, List.length_append, List.length_append,
                List.length_singleton]
              omega
            exact ih (by omega) (by omega)
      · rfl

/-- More steps than the text has characters make no difference. -/
theorem formAfter_trimFront {text : List Char} {n : Nat} (enough : text.length < n) :
    formAfter n (Text.trimFront text) = formOfCode text := by
  have shorter : (Text.trimFront text).length ≤ text.length := (List.dropWhile_suffix _).length_le
  exact formAfter_congr _ (by omega) (by omega)

theorem formOfCode_blanks {blanks : List Char} (blank : ∀ c ∈ blanks, Text.isBlank c = true)
    (more : List Char) : formOfCode (blanks ++ more) = formOfCode more := by
  have trimmed : Text.trimFront (blanks ++ more) = Text.trimFront more :=
    List.dropWhile_append_of_pos blank
  rw [formOfCode, trimmed]
  refine formAfter_trimFront ?_
  rw [List.length_append]
  omega

/-- The letters in front go on as far as letters follow. -/
theorem leadingWord_append {word : List Char} (letters : ∀ c ∈ word, c.isAlpha = true)
    (more : List Char) : leadingWord (word ++ more) =
      String.ofList (word.map Char.toUpper ++ (more.takeWhile Char.isAlpha).map Char.toUpper) := by
  rw [leadingWord, List.takeWhile_append_of_pos letters, List.map_append]

theorem leadingWord_of_ends {word more : List Char} (letters : ∀ c ∈ word, c.isAlpha = true)
    (ends : ∀ c ∈ more.head?, c.isAlpha = false) :
    leadingWord (word ++ more) = String.ofList (word.map Char.toUpper) := by
  have none : more.takeWhile Char.isAlpha = [] := by
    cases more with
    | nil => rfl
    | cons c more =>
        have other : c.isAlpha = false := ends c rfl
        rw [List.takeWhile_cons, other, if_neg Bool.false_ne_true]
  rw [leadingWord_append letters, none, List.map_nil, List.append_nil]

theorem trimFront_word {word : List Char} (filled : word ≠ [])
    (letters : ∀ c ∈ word, c.isAlpha = true) (more : List Char) :
    Text.trimFront (word ++ more) = word ++ more := by
  cases word with
  | nil => exact absurd rfl filled
  | cons c word =>
      have other := isBlank_of_isAlpha (letters c List.mem_cons_self)
      rw [List.cons_append, Text.trimFront, List.dropWhile_cons, other, if_neg Bool.false_ne_true]

/-- The words that the check knows. -/
def knownWords : List String := "PREFIX" :: "SELECT" :: otherForms

theorem formAfter_unknown {text : List Char} (unknown : leadingWord text ∉ knownWords) (n : Nat) :
    formAfter (n + 1) text = .unknown := by
  rw [knownWords, List.mem_cons, List.mem_cons, not_or, not_or] at unknown
  obtain ⟨prefix_, select, other⟩ := unknown
  rw [formAfter, if_neg prefix_, if_neg select, if_neg]
  rwa [List.contains_iff_mem]

/-- A word that the check knows is some letters, in whatever case it is written. -/
theorem letters_of_known {word : List Char} {known : String} (known' : known ∈ knownWords)
    (upper : word.map Char.toUpper = known.toList) :
    word ≠ [] ∧ ∀ c ∈ word, c.isAlpha = true := by
  have every : ∀ w ∈ knownWords, w.toList ≠ [] ∧ w.toList.all Char.isAlpha = true := by decide
  obtain ⟨filled, letters⟩ := every known known'
  exact ⟨ne_nil_of_map_toUpper upper filled, isAlpha_of_map_toUpper upper letters⟩

/-- The same for the keyword of a form. -/
theorem letters_of_other {word : List Char}
    (other : String.ofList (word.map Char.toUpper) ∈ otherForms) :
    word ≠ [] ∧ ∀ c ∈ word, c.isAlpha = true :=
  letters_of_known (List.mem_cons_of_mem _ (List.mem_cons_of_mem _ other)) String.toList_ofList.symm

/-- None of the words goes on as another one. -/
theorem not_mem_knownWords {word : String} (known : word ∈ knownWords) {more : List Char}
    (filled : more ≠ []) : String.ofList (word.toList ++ more) ∉ knownWords := by
  have apart : ∀ w ∈ knownWords, ∀ v ∈ knownWords, w.toList <+: v.toList → w = v := by decide
  intro mem
  have same := apart word known _ mem (by
    rw [String.toList_ofList]
    exact List.prefix_append _ _)
  have longer := congrArg String.toList same
  rw [String.toList_ofList] at longer
  exact filled (List.append_right_eq_self.1 longer.symm)

/-- The check goes on behind the bracket that closes a declaration. -/
theorem formOfCode_declaration {word middle : List Char}
    (upper : word.map Char.toUpper = "PREFIX".toList) (closed : '>' ∉ middle)
    (ends : ∀ c ∈ middle.head?, c.isAlpha = false) (more : List Char) :
    formOfCode (word ++ (middle ++ '>' :: more)) = formOfCode more := by
  obtain ⟨filled, letters⟩ := letters_of_known (by decide) upper
  have ends' : ∀ c ∈ (middle ++ '>' :: more).head?, c.isAlpha = false := by
    cases middle with
    | nil => intro c first; cases first; rfl
    | cons b middle => exact ends
  have front : leadingWord (word ++ (middle ++ '>' :: more)) = "PREFIX" := by
    rw [leadingWord_of_ends letters ends', upper, String.ofList_toList]
  have cut : Text.cut? ['>'] (word ++ (middle ++ '>' :: more)) = some (word ++ middle, more) :=
    Text.cut?_singleton_eq_some_iff.2 ⟨(List.append_assoc _ _ _).symm,
      List.not_mem_append (not_mem_of_class letters rfl) closed⟩
  rw [formOfCode, trimFront_word filled letters, formAfter, front, if_pos rfl, cut]
  refine formAfter_trimFront ?_
  simp only [List.length_append, List.length_cons]
  omega

/-- A word that goes on behind one that the check knows ends the check. -/
theorem formOfCode_longer {word more : List Char} {known : String} (known' : known ∈ knownWords)
    (upper : word.map Char.toUpper = known.toList) (goes : more.takeWhile Char.isAlpha ≠ []) :
    formOfCode (word ++ more) = .unknown := by
  obtain ⟨filled, letters⟩ := letters_of_known known' upper
  rw [formOfCode, trimFront_word filled letters]
  refine formAfter_unknown ?_ _
  rw [leadingWord_append letters, upper]
  exact not_mem_knownWords known' fun none => goes (List.map_eq_nil_iff.1 none)

/-- The check finds the form at the keyword of a form. -/
theorem formOfCode_other {word rest : List Char}
    (other : String.ofList (word.map Char.toUpper) ∈ otherForms)
    (ends : ∀ c ∈ rest.head?, c.isAlpha = false) :
    formOfCode (word ++ rest) = .other (String.ofList (word.map Char.toUpper)) := by
  have apart : ∀ w ∈ otherForms, w ≠ "PREFIX" ∧ w ≠ "SELECT" := by decide
  obtain ⟨prefix_, select⟩ := apart _ other
  obtain ⟨filled, letters⟩ := letters_of_other other
  rw [formOfCode, trimFront_word filled letters, formAfter, leadingWord_of_ends letters ends,
    if_neg prefix_, if_neg select, if_pos (List.contains_iff_mem.2 other)]

theorem formOfCode_select {word rest : List Char} (upper : word.map Char.toUpper = "SELECT".toList)
    (keyword : String) : formOfCode (word ++ rest) ≠ .other keyword := by
  obtain ⟨filled, letters⟩ := letters_of_known (by decide) upper
  by_cases none : rest.takeWhile Char.isAlpha = []
  · have front : leadingWord (word ++ rest) = "SELECT" := by
      rw [leadingWord_append letters, upper, none, List.map_nil, List.append_nil,
        String.ofList_toList]
    have select : formOfCode (word ++ rest) = .select := by
      rw [formOfCode, trimFront_word filled letters, formAfter, front]
      rfl
    rw [select]
    exact fun same => by cases same
  · rw [formOfCode_longer (by decide) upper none]
    exact fun same => by cases same

/-! ## The first keyword -/

/-- The check passes over the text, whatever follows. -/
def Passed (code : List Char) : Prop := ∀ more, formOfCode (code ++ more) = formOfCode more

/-- The check passes over the text or stops in it, whatever follows. -/
def Quiet (code : List Char) : Prop :=
  ∀ more, formOfCode (code ++ more) = formOfCode more ∨ formOfCode (code ++ more) = .unknown

section

variable {code more : List Char}

theorem Passed.quiet (h : Passed code) : Quiet code := fun rest => Or.inl (h rest)

theorem Passed.append (h : Passed code) (h' : Passed more) : Passed (code ++ more) := by
  intro rest
  rw [List.append_assoc, h, h']

theorem Quiet.append (h : Quiet code) (h' : Quiet more) : Quiet (code ++ more) := by
  intro rest
  rw [List.append_assoc]
  rcases h (more ++ rest) with passed | stopped
  · rw [passed]
    exact h' rest
  · exact Or.inr stopped

theorem passed_of_isBlank (blank : ∀ c ∈ code, Text.isBlank c = true) : Passed code :=
  fun rest => formOfCode_blanks blank rest

end

namespace Filler.Remains

variable {f : Filler} {left : List Char}

theorem quiet (h : f.Remains left) : Quiet left := by
  obtain ⟨blanks, kept, blanks', rfl, blank, keeps⟩ := h
  obtain ⟨blank, blank'⟩ := List.forall_mem_append.1 blank
  refine (passed_of_isBlank blank).quiet.append (Quiet.append ?_ (passed_of_isBlank blank').quiet)
  have nothing : Quiet [] := fun _ => Or.inl rfl
  cases f with
  | blank =>
      obtain rfl := keeps
      exact nothing
  | comment body ending =>
      rcases keeps with rfl | ⟨-, more, rfl, -⟩
      · exact nothing
      · intro rest
        have unknown : leadingWord ('#' :: (more ++ rest)) ∉ knownWords :=
          (by decide : "" ∉ knownWords)
        exact Or.inr (formAfter_unknown unknown _)

theorem passed (h : f.Remains left) (plain : f.Plain) : Passed left := by
  obtain ⟨blanks, kept, blanks', rfl, blank, keeps⟩ := h
  obtain ⟨blank, blank'⟩ := List.forall_mem_append.1 blank
  have nothing : kept = [] := by
    cases f with
    | blank => exact keeps
    | comment body ending => exact keeps.resolve_right fun second => plain.2 second.1
  rw [nothing]
  exact (passed_of_isBlank blank).append (passed_of_isBlank blank')

end Filler.Remains

namespace Leaves

variable {front code tail : List Char}

/-- Of a piece something is left in which the check finds no form. -/
theorem piece (h : Leaves front code tail) {p : Piece} (formed : p.WellFormed) (quiet : p.Quiet) :
    ∃ left tail', Leaves (front ++ p.chars) (code ++ left) tail' ∧ Quiet left ∧
      (p.Passed → Passed left) := by
  cases p with
  | filler f =>
      obtain ⟨gap, tail', h, remains, -⟩ := h.filler formed quiet
      exact ⟨gap, tail', h, remains.quiet, remains.passed⟩
  | declaration d =>
      have blank := passed_of_isBlank h.isBlank_of_mem_tail
      obtain ⟨middle, h, closed, spaced⟩ := h.declaration formed quiet
      have passed (ends : ∀ c ∈ middle.head?, c.isAlpha = false) :
          Passed (d.word ++ (middle ++ ['>'])) := by
        intro more
        rw [List.append_assoc, List.append_assoc, List.singleton_append]
        exact formOfCode_declaration formed.word closed ends more
      refine ⟨_, [], h, blank.quiet.append ?_, fun given => blank.append (passed (spaced given.2))⟩
      by_cases ends : ∀ c ∈ middle.head?, c.isAlpha = false
      · exact (passed ends).quiet
      · refine fun more => Or.inr ?_
        rw [List.append_assoc]
        refine formOfCode_longer (by decide) formed.word ?_
        cases middle with
        | nil => exact absurd (fun _ none => by cases none) ends
        | cons c middle =>
            have letter : c.isAlpha = true := by simpa using ends
            rw [List.append_assoc, List.cons_append, List.takeWhile_cons, if_pos letter]
            exact List.cons_ne_nil _ _

theorem pieces (pieces : List Piece) : ∀ {front code tail : List Char}, Leaves front code tail →
    (∀ p ∈ pieces, p.WellFormed) → (∀ p ∈ pieces, p.Quiet) →
    ∃ left tail', Leaves (front ++ preamble pieces) (code ++ left) tail' ∧ Quiet left ∧
      ((∀ p ∈ pieces, p.Passed) → Passed left) := by
  induction pieces with
  | nil =>
      intro front code tail h _ _
      refine ⟨[], tail, ?_, fun _ => Or.inl rfl, fun _ _ => rfl⟩
      rw [List.append_nil, preamble, List.flatMap_nil, List.append_nil]
      exact h
  | cons p pieces ih =>
      intro front code tail h formed quiet
      obtain ⟨formed, formed'⟩ := List.forall_mem_cons.1 formed
      obtain ⟨quiet, quiet'⟩ := List.forall_mem_cons.1 quiet
      obtain ⟨left, tail', h, quiet, passed⟩ := h.piece formed quiet
      obtain ⟨left', tail'', h, quiet', passed'⟩ := ih h formed' quiet'
      refine ⟨left ++ left', tail'', ?_, quiet.append quiet', fun given => ?_⟩
      · rw [preamble_cons, ← List.append_assoc, ← List.append_assoc]
        exact h
      · obtain ⟨given, given'⟩ := List.forall_mem_cons.1 given
        exact (passed given).append (passed' given')

end Leaves

section

variable {pieces : List Piece} {word rest : List Char}

/-- Behind pieces the check comes to the keyword, and of what is behind it, to the next character. -/
theorem exists_formOf (formed : ∀ p ∈ pieces, p.WellFormed) (quiet : ∀ p ∈ pieces, p.Quiet)
    (filled : word ≠ []) (letters : ∀ c ∈ word, c.isAlpha = true) (rest : List Char) :
    ∃ left rest', formOf (preamble pieces ++ (word ++ rest)) = formOfCode (left ++ (word ++ rest')) ∧
      Quiet left ∧ ((∀ p ∈ pieces, p.Passed) → Passed left) ∧
        ∀ c ∈ rest'.head?, c = '\n' ∨ c ∈ rest.head? := by
  obtain ⟨left, tail, leaves, quiet, passed⟩ := Leaves.nil.pieces pieces formed quiet
  obtain ⟨rest', code, next⟩ := leaves.word filled letters rest
  rw [List.nil_append, List.nil_append, ← List.append_assoc left] at code
  have blank := passed_of_isBlank leaves.isBlank_of_mem_tail
  exact ⟨left ++ tail, rest', congrArg formOfCode code, quiet.append blank.quiet,
    fun all => (passed all).append blank, next⟩

theorem formOf_select (formed : ∀ p ∈ pieces, p.WellFormed) (quiet : ∀ p ∈ pieces, p.Quiet)
    (upper : word.map Char.toUpper = "SELECT".toList) (keyword : String) :
    formOf (preamble pieces ++ (word ++ rest)) ≠ .other keyword := by
  obtain ⟨filled, letters⟩ := letters_of_known (by decide) upper
  obtain ⟨left, rest', form, quiet, -, -⟩ := exists_formOf formed quiet filled letters rest
  rw [form]
  rcases quiet (word ++ rest') with passed | stopped
  · rw [passed]
    exact formOfCode_select upper keyword
  · rw [stopped]
    exact fun same => by cases same

theorem formOf_other (formed : ∀ p ∈ pieces, p.WellFormed) (passed : ∀ p ∈ pieces, p.Passed)
    (other : String.ofList (word.map Char.toUpper) ∈ otherForms)
    (ends : ∀ c ∈ rest.head?, c.isAlpha = false) :
    formOf (preamble pieces ++ (word ++ rest)) =
      .other (String.ofList (word.map Char.toUpper)) := by
  obtain ⟨filled, letters⟩ := letters_of_other other
  obtain ⟨left, rest', form, -, passes, next⟩ :=
    exists_formOf formed (fun p mem => (passed p mem).quiet) filled letters rest
  have ends' : ∀ c ∈ rest'.head?, c.isAlpha = false := by
    intro c first
    rcases next c first with rfl | first
    · rfl
    · exact ends c first
  rw [form, passes passed]
  exact formOfCode_other other ends'

end

theorem toSelect_ne_form (c : Clauses) (keyword : String) :
    c.toSelect ≠ .error (.form keyword) := by
  unfold Clauses.toSelect soleFilter
  cases c.innerFilter with
  | none =>
      dsimp only
      split <;> exact nofun
  | some inner =>
      cases c.outerFilter with
      | none =>
          dsimp only
          split <;> exact nofun
      | some outer => exact nofun

theorem diagnose_ne_form (text : List Char) (keyword : String) : diagnose text ≠ .form keyword := by
  unfold diagnose
  dsimp only
  split
  · exact nofun
  · split
    · exact nofun
    · split <;> exact nofun

/-- A query is refused for its form exactly if the form check finds another one. -/
theorem parse_eq_form_iff {text keyword : String} :
    parse text = .error (.form keyword) ↔ formOf text.toList = .other keyword := by
  cases form : formOf text.toList with
  | other found =>
      rw [parse, form, Except.error.injEq, Fault.form.injEq, Form.other.injEq]
  | select | unknown =>
      rw [parse, form]
      refine iff_of_false ?_ nofun
      cases Grammar.clauses text.toList with
      | some c => exact toSelect_ne_form c keyword
      | none => exact fun same => diagnose_ne_form _ keyword (Except.error.inj same)

/-- Behind pieces without harmful comments the first keyword decides on the form: SELECT is never
refused for another one, and each of the others is reported. All that the grammar reads in front of
SELECT are pieces. -/
theorem parse_of_first_keyword (text : String) :
    (∀ (pieces : List Piece) (word rest : List Char),
      text.toList = preamble pieces ++ (word ++ rest) → (∀ p ∈ pieces, p.WellFormed ∧ p.Quiet) →
      word.map Char.toUpper = "SELECT".toList →
        ∀ keyword, parse text ≠ .error (.form keyword)) ∧
    (∀ (pieces : List Piece) (word rest : List Char),
      text.toList = preamble pieces ++ (word ++ rest) → (∀ p ∈ pieces, p.WellFormed ∧ p.Passed) →
      String.ofList (word.map Char.toUpper) ∈ otherForms →
      (∀ c ∈ rest.head?, c.isAlpha = false) →
        parse text = .error (.form (String.ofList (word.map Char.toUpper)))) ∧
    ∀ c : Clauses, Grammar.clauses text.toList = some c →
      ∃ (pieces : List Piece) (word rest : List Char), (∀ p ∈ pieces, p.WellFormed) ∧
        word.map Char.toUpper = "SELECT".toList ∧
        text.toList = preamble pieces ++ (word ++ rest) := by
  refine ⟨?_, ?_, fun c read => ?_⟩
  · intro pieces word rest split given upper keyword
    rw [ne_eq, parse_eq_form_iff, split]
    exact formOf_select (fun p mem => (given p mem).1) (fun p mem => (given p mem).2) upper keyword
  · intro pieces word rest split given other ends
    rw [parse_eq_form_iff, split]
    exact formOf_other (fun p mem => (given p mem).1) (fun p mem => (given p mem).2) other ends
  · obtain ⟨pieces, word, rest, formed, upper, split⟩ := Grammar.exists_preamble read
    exact ⟨pieces, word, rest, fun p mem => (formed p mem).formed, upper, split⟩

/-- The comment in the declaration has a second `#`, the one behind it a bracket and a keyword. -/
theorem parse_of_first_keyword_sample :
    let front := "pReFiX a:# # b\r\n<http://x/#># > ADD\n "
    let accepted := "# a # b\rselect*\x7b?s ?p ?o\x7d"
    parse (front ++ "Ask \x7b\x7d") = .error (.form "ASK") ∧
      parse (front ++ "select *") ≠ .error (.form "ADD") ∧
      (Grammar.clauses accepted.toList).isSome ∧
      ∃ (pieces : List Piece) (word rest : List Char), (∀ p ∈ pieces, p.WellFormed) ∧
        word.map Char.toUpper = "SELECT".toList ∧
        accepted.toList = preamble pieces ++ (word ++ rest) := by
  intro front accepted
  let d : Declaration :=
    ⟨"pReFiX".toList, [.blank ' '], "a", [.comment " # b".toList .returnFeed], "http://x/#"⟩
  let pieces : List Piece :=
    [.declaration d, .filler (.comment " > ADD".toList .feed), .filler (.blank ' ')]
  have declared : d.WellFormed := ⟨by decide, by decide, by decide, by decide, by decide⟩
  have formed : ∀ p ∈ pieces, p.WellFormed ∧ p.Passed := by
    simp only [pieces, List.forall_mem_cons, Piece.WellFormed, Piece.Passed]
    exact ⟨⟨declared, by decide⟩, by decide, by decide, List.forall_mem_nil _⟩
  have quiet : ∀ p ∈ pieces, p.WellFormed ∧ p.Quiet :=
    fun p mem => (formed p mem).imp_right Piece.Passed.quiet
  have ask : (front ++ "Ask \x7b\x7d").toList =
      preamble pieces ++ ("Ask".toList ++ " \x7b\x7d".toList) := by decide +kernel
  have select : (front ++ "select *").toList =
      preamble pieces ++ ("select".toList ++ " *".toList) := by decide +kernel
  have read : (Grammar.clauses accepted.toList).isSome := by decide +kernel
  obtain ⟨c, clauses⟩ := Option.isSome_iff_exists.1 read
  obtain ⟨-, others, -⟩ := parse_of_first_keyword (front ++ "Ask \x7b\x7d")
  obtain ⟨selects, -, -⟩ := parse_of_first_keyword (front ++ "select *")
  obtain ⟨-, -, grammar⟩ := parse_of_first_keyword accepted
  refine ⟨?_, selects pieces _ _ select quiet (by decide) "ADD", read, grammar c clauses⟩
  exact others pieces _ _ ask formed (by decide) fun c first => by cases first; rfl

/-- In the first text a comment inside a declaration has a second `#` and a `>`, in the second the
comment in front has a second `#`, in the third its line ends with a return, and in the fourth a
letter follows on the keyword of the declaration. -/
theorem first_keyword_missed :
    let declaration : Declaration := ⟨"PREFIX".toList, [.blank ' '], "a",
      [.blank ' ', .comment " > ASK #".toList .feed], "http://x/"⟩
    let select := " SELECT * \x7b ?s ?p ?o \x7d"
    let ask := "ASK \x7b ?s ?p ?o \x7d"
    (declaration.WellFormed ∧
      (Grammar.clauses (declaration.chars ++ select.toList)).isSome ∧
      parse (String.ofList (declaration.chars ++ select.toList)) = .error (.form "ASK")) ∧
    ∀ piece ∈ [Piece.filler (.comment " a # b".toList .feed),
        .filler (.comment " a".toList .loneReturn),
        .declaration ⟨"PREFIX".toList, [], "a", [], "http://x/"⟩], piece.WellFormed ∧
      parse (String.ofList (piece.chars ++ ask.toList)) ≠ .error (.form "ASK") := by
  intro declaration select ask
  refine ⟨⟨⟨by decide, by decide, by decide, by decide, by decide⟩, by decide +kernel, ?_⟩, ?_⟩
  · rw [parse_eq_form_iff, String.toList_ofList]
    decide +kernel
  · simp only [List.forall_mem_cons, ne_eq, parse_eq_form_iff, String.toList_ofList]
    refine ⟨⟨?_, by decide +kernel⟩, ⟨?_, by decide +kernel⟩, ⟨?_, by decide +kernel⟩,
      List.forall_mem_nil _⟩
    · exact (by decide : OneLine " a # b".toList)
    · exact (by decide : OneLine " a".toList)
    · exact ⟨by decide, by decide, by decide, by decide, by decide⟩

end RdfStore.Query
