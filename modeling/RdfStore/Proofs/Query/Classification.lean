import RdfStore.Proofs.Query.Keyword
import RdfStore.Proofs.Query.Tidy

/-!
# What is wrong with a rejected text

A text that the grammar rejects is searched for `&&`, `!=` and keywords, in what is left of it without
comments, URIs and strings. If the text is made of lexemes, the search mostly sees their marks and words
(`parse_rejected`). It can be misled (`lexemes_disguised`): comments are searched for without regard to the
lexemes (`tidy`), a string ends at its own quote although a backslash stands in front of it, every `<`
starts a URI (`Lexeme.Legible`), and a name is split into words like any other text
(`Lexeme.Faithful`).

* `outsideTerms_spelled`: URIs and strings leave a blank each, and other lexemes stay.
* `operator_infix`, `firstKeyword_flatMap`: operators and keywords are found by the lexemes.
* `Thinned.pair_infix`, `Thinned.isChain`: missing gaps make no difference.
* `diagnose_spelled`: the judgement of the text is the judgement of its lexemes.
-/

namespace RdfStore.Query

/-! ## URIs and strings -/

theorem outsideTerms_closed {close : Char} {body : List Char} (absent : close ∉ body)
    (rest : List Char) :
    outsideTerms (some close) (body ++ close :: rest) = ' ' :: outsideTerms none rest := by
  induction body with
  | nil => rw [List.nil_append, outsideTerms, if_pos rfl]
  | cons c body ih =>
      obtain ⟨other, absent⟩ := not_or.1 (List.mem_cons.not.1 absent)
      rw [List.cons_append, outsideTerms, if_neg (Ne.symm other), ih absent]

theorem outsideTerms_plain {text : List Char} (plain : ∀ c ∈ text, c ∉ ['<', '"', '\''])
    (rest : List Char) : outsideTerms none (text ++ rest) = text ++ outsideTerms none rest := by
  induction text with
  | nil => rfl
  | cons c text ih =>
      obtain ⟨first, plain⟩ := List.forall_mem_cons.1 plain
      simp only [List.mem_cons, List.not_mem_nil, or_false, not_or] at first
      obtain ⟨bracket, double, single⟩ := first
      rw [List.cons_append, outsideTerms, if_neg bracket, if_neg (by simp [double, single]), ih plain,
        List.cons_append]

namespace Lexeme

/-- What the blanking of URIs and strings leaves of a lexeme. -/
def residue : Lexeme → List Char
  | uri _ | quoted _ _ => [' ']
  | x => x.chars

/-- Nothing in the lexeme is taken for the start or the end of a URI or a string. -/
def Legible : Lexeme → Prop
  | quoted quote body => quote ∉ body
  | mark c => c ≠ '<'
  | _ => True

instance : DecidablePred Legible
  | quoted quote body => inferInstanceAs (Decidable (quote ∉ body))
  | mark c => inferInstanceAs (Decidable (c ≠ '<'))
  | blank _ | comment _ | uri _ | name _ | word _ => inferInstanceAs (Decidable True)

/-- A lexeme that the search for keywords sees as it is. -/
structure Seen (x : Lexeme) : Prop where
  formed : x.WellFormed
  legible : x.Legible
  code : ∀ body, x ≠ .comment body

variable {x : Lexeme}

theorem Seen.outsideTerms (h : x.Seen) (rest : List Char) :
    Query.outsideTerms none (x.chars ++ rest) = x.residue ++ Query.outsideTerms none rest := by
  obtain ⟨formed, legible, code⟩ := h
  have plain {p : Char → Bool} {text : List Char} (inside : ∀ c ∈ text, p c = true)
      (outside : ['<', '"', '\''].any p = false) : ∀ c ∈ text, c ∉ ['<', '"', '\''] :=
    fun c mem special => List.any_eq_false.1 outside c special (inside c mem)
  cases x with
  | comment body => exact absurd rfl (code body)
  | blank c =>
      refine outsideTerms_plain (plain (p := Token.isSpace) ?_ (by decide)) rest
      exact List.forall_mem_singleton.2 formed
  | uri body =>
      have absent : '>' ∉ body := not_mem_of_class formed rfl
      rw [chars, List.cons_append, List.append_assoc, Query.outsideTerms, if_pos rfl]
      exact outsideTerms_closed absent rest
  | quoted quote body =>
      have opens : quote ≠ '<' ∧ (decide (quote = '"') || decide (quote = '\'')) = true := by
        rcases formed.1 with rfl | rfl <;> decide
      rw [chars, List.cons_append, List.append_assoc, Query.outsideTerms, if_neg opens.1,
        if_pos opens.2]
      exact outsideTerms_closed legible rest
  | name chars => exact outsideTerms_plain (plain formed.isRun.2 (by decide)) rest
  | mark c =>
      refine outsideTerms_plain (List.forall_mem_singleton.2 ?_) rest
      simp only [List.mem_cons, List.not_mem_nil, or_false]
      rintro (rfl | rfl | rfl)
      · exact legible rfl
      · exact absurd formed (by decide : '"' ∉ marks)
      · exact absurd formed (by decide : '\'' ∉ marks)
  | word letters => exact outsideTerms_plain (plain formed.2 (by decide)) rest

theorem Seen.residue_ne_nil (h : x.Seen) : x.residue ≠ [] := by
  cases x with
  | uri | quoted => exact List.cons_ne_nil _ _
  | _ => exact h.formed.chars_ne_nil

/-- The characters of the operators that are outside the subset. -/
def operators : List Char := ['&', '!', '=']

/-- The characters of those operators stand nowhere else. -/
theorem Seen.eq_mark (h : x.Seen) {d : Char} (operator : d ∈ operators) (mem : d ∈ x.residue) :
    x = .mark d := by
  have outside {p : Char → Bool} (none : operators.any p = false) (inside : p d = true) : False :=
    List.any_eq_false.1 none d operator inside
  have noBlank : d ∉ [' '] := fun mem => outside (p := Token.isSpace) (by decide)
    (List.mem_singleton.1 mem ▸ rfl)
  cases x with
  | comment body => exact absurd rfl (h.code body)
  | blank c =>
      rw [List.mem_singleton.1 mem] at outside
      exact (outside (p := Token.isSpace) (by decide) h.formed).elim
  | uri | quoted => exact absurd mem noBlank
  | name chars => exact (outside (by decide) (h.formed.isRun.2 d mem)).elim
  | mark c => rw [List.mem_singleton.1 mem]
  | word letters => exact (outside (by decide) (h.formed.2 d mem)).elim

theorem Seen.head?_residue (h : x.Seen) {d : Char} (operator : d ∈ operators) :
    x.residue.head? = some d ↔ x = .mark d := by
  refine ⟨fun first => h.eq_mark operator (List.mem_of_mem_head? first), ?_⟩
  rintro rfl
  rfl

theorem Seen.getLast?_residue (h : x.Seen) {d : Char} (operator : d ∈ operators) :
    x.residue.getLast? = some d ↔ x = .mark d := by
  refine ⟨fun last => h.eq_mark operator (List.mem_of_getLast? last), ?_⟩
  rintro rfl
  rfl

end Lexeme

open Lexeme

theorem outsideTerms_spelled {lexemes : List Lexeme} (seen : ∀ x ∈ lexemes, x.Seen) :
    outsideTerms none (spelled lexemes) = lexemes.flatMap residue := by
  induction lexemes with
  | nil => rfl
  | cons x rest ih =>
      obtain ⟨first, others⟩ := List.forall_mem_cons.1 seen
      rw [spelled_cons, first.outsideTerms, ih others, List.flatMap_cons]

/-- An operator of two characters is found where its marks follow each other. -/
theorem operator_infix {d e : Char} (left : d ∈ operators) (right : e ∈ operators)
    {lexemes : List Lexeme} (seen : ∀ x ∈ lexemes, x.Seen) :
    [d, e] <:+: lexemes.flatMap residue ↔ [.mark d, .mark e] <:+: lexemes := by
  induction lexemes with
  | nil => simp
  | cons x rest ih =>
      obtain ⟨first, others⟩ := List.forall_mem_cons.1 seen
      have alone : ¬ [d, e] <:+: x.residue := by
        intro part
        have same := first.eq_mark left (part.subset List.mem_cons_self)
        rw [same] at part
        simpa [residue, chars] using part.length_le
      have next : (rest.flatMap residue).head? = some e ↔ rest.head? = some (.mark e) := by
        cases rest with
        | nil => simp
        | cons y rest =>
            have second := others y List.mem_cons_self
            rw [List.flatMap_cons, List.head?_append_of_ne_nil _ second.residue_ne_nil,
              second.head?_residue right, List.head?_cons, Option.some.injEq]
      rw [List.flatMap_cons, pair_infix_append, ih others, pair_infix_cons, next,
        first.getLast?_residue left]
      exact or_iff_right alone

/-! ## Words -/

theorem wordsFrom_append {c : Char} (stop : c.isAlphanum = false) (back front : List Char) :
    ∀ word, wordsFrom word (front ++ c :: back) = wordsFrom word front ++ wordsFrom [] back := by
  induction front with
  | nil =>
      intro word
      rw [List.nil_append, wordsFrom, wordsFrom, stop, if_neg Bool.false_ne_true]
      rfl
  | cons d front ih =>
      intro word
      rw [List.cons_append, wordsFrom, wordsFrom]
      split
      · exact ih _
      · rw [ih, List.cons_append]

theorem upperWords_append {c : Char} (stop : c.isAlphanum = false) (front back : List Char) :
    upperWords (front ++ c :: back) = upperWords front ++ upperWords back := by
  rw [upperWords, wordsFrom_append stop, List.map_append]
  rfl

/-- The first keyword among words. -/
def firstKeyword (words : List String) : Option String := words.find? foreignKeywords.contains

theorem firstKeyword_append (front back : List String) :
    firstKeyword (front ++ back) = (firstKeyword front).or (firstKeyword back) :=
  List.find?_append

/-- Where a word cannot go on, the words of joined texts are those of both. -/
theorem firstKeyword_upperWords_append {front back : List Char}
    (apart : (front.getLast?.any Char.isAlphanum && back.head?.any Char.isAlphanum) = false) :
    firstKeyword (upperWords (front ++ back)) =
      (firstKeyword (upperWords front)).or (firstKeyword (upperWords back)) := by
  have empty : firstKeyword (upperWords []) = none := by decide
  rcases Bool.and_eq_false_iff.1 apart with last | first
  · rcases List.eq_nil_or_concat front with rfl | ⟨front, c, rfl⟩
    · rw [List.nil_append, empty, Option.none_or]
    · have stop : c.isAlphanum = false := by simpa using last
      rw [List.concat_eq_append, List.append_assoc, List.singleton_append,
        upperWords_append stop, upperWords_append stop, firstKeyword_append, firstKeyword_append,
        empty, Option.or_none]
  · cases back with
    | nil => rw [List.append_nil, empty, Option.or_none]
    | cons c back =>
        have stop : c.isAlphanum = false := first
        have alone : upperWords (c :: back) = upperWords [] ++ upperWords back :=
          upperWords_append stop [] back
        rw [upperWords_append stop, alone, firstKeyword_append, firstKeyword_append, empty,
          Option.none_or]

theorem Lexeme.Seen.firstKeyword_residue {x : Lexeme} (h : x.Seen) :
    firstKeyword (upperWords x.residue) = firstKeyword x.words := by
  have single {c : Char} (stop : c.isAlphanum = false) : firstKeyword (upperWords [c]) = none := by
    have split : upperWords [c] = upperWords [] ++ upperWords [] := upperWords_append stop [] []
    rw [split]
    decide
  cases x with
  | comment body => exact absurd rfl (h.code body)
  | blank c =>
      have space : Token.isSpace c = true := h.formed
      simp only [Token.isSpace, Bool.or_eq_true, decide_eq_true_eq] at space
      rcases space with ((rfl | rfl) | rfl) | rfl <;> exact single rfl
  | uri | quoted => exact single rfl
  | mark c =>
      have outside : marks.any Char.isAlphanum = false := by decide
      exact single (Bool.eq_false_iff.2 (List.any_eq_false.1 outside c h.formed))
  | name | word => rfl

theorem Lexeme.Apart.residue {x y : Lexeme} (h : x.Apart y) (code : ∀ body, x ≠ .comment body) :
    (x.residue.getLast?.any Char.isAlphanum && y.residue.head?.any Char.isAlphanum) = false := by
  have touch :
      (x.chars.getLast?.any Char.isAlphanum && y.chars.head?.any Char.isAlphanum) = false := by
    cases x with
    | comment body => exact absurd rfl (code body)
    | _ => exact h
  rw [Bool.and_eq_false_iff] at touch ⊢
  refine touch.imp (fun last => ?_) fun first => ?_
  · cases x with
    | uri | quoted => rfl
    | _ => exact last
  · cases y with
    | uri | quoted => rfl
    | _ => exact first

/-- The first keyword in what is left of lexemes is the first in their words. -/
theorem firstKeyword_flatMap {lexemes : List Lexeme} (seen : ∀ x ∈ lexemes, x.Seen)
    (apart : lexemes.IsChain Apart) :
    firstKeyword (upperWords (lexemes.flatMap residue)) = firstKeyword (lexemes.flatMap words) := by
  induction lexemes with
  | nil => decide
  | cons x rest ih =>
      obtain ⟨first, others⟩ := List.forall_mem_cons.1 seen
      obtain ⟨next, apart⟩ := List.isChain_cons.1 apart
      have boundary : (x.residue.getLast?.any Char.isAlphanum &&
          (rest.flatMap residue).head?.any Char.isAlphanum) = false := by
        cases rest with
        | nil => exact Bool.and_false _
        | cons y rest =>
            have second := others y List.mem_cons_self
            rw [List.flatMap_cons, List.head?_append_of_ne_nil _ second.residue_ne_nil]
            exact (next y rfl).residue first.code
      rw [List.flatMap_cons, List.flatMap_cons, firstKeyword_upperWords_append boundary,
        firstKeyword_append, first.firstKeyword_residue, ih others apart]

/-! ## Missing gaps -/

namespace Thinned

variable {all left : List Lexeme}

theorem mem (h : Thinned all left) : ∀ x ∈ left, x ∈ all ∧ ∀ body, x ≠ .comment body := by
  induction h with
  | nil => exact List.forall_mem_nil _
  | keep code _ ih =>
      exact List.forall_mem_cons.2 ⟨⟨List.mem_cons_self, code⟩,
        fun y at_ => ⟨List.mem_cons_of_mem _ (ih y at_).1, (ih y at_).2⟩⟩
  | drop _ _ _ ih => exact fun y at_ => ⟨List.mem_cons_of_mem _ (ih y at_).1, (ih y at_).2⟩

theorem head (h : Thinned all left) : left.head? = all.head? ∨
    (∀ x ∈ all.head?, x.IsGap) ∧ ∀ y ∈ left.head?, y = .blank '\n' := by
  cases h with
  | nil => exact Or.inl rfl
  | keep => exact Or.inl rfl
  | drop gap ends =>
      exact Or.inr ⟨fun y first => Option.some.inj first ▸ gap, ends⟩

theorem flatMap_words (h : Thinned all left) : left.flatMap words = all.flatMap words := by
  induction h with
  | nil => rfl
  | keep _ _ ih => rw [List.flatMap_cons, List.flatMap_cons, ih]
  | @drop x _ _ gap _ _ ih =>
      have none : x.words = [] := by
        cases x with
        | blank | comment => rfl
        | _ => exact gap.elim
      rw [List.flatMap_cons, none, List.nil_append, ih]

theorem isChain (h : Thinned all left) (apart : all.IsChain Apart) : left.IsChain Apart := by
  induction h with
  | nil => exact apart
  | @keep x all left _ thinned ih =>
      obtain ⟨next, apart⟩ := List.isChain_cons.1 apart
      refine List.isChain_cons.2 ⟨fun y first => ?_, ih apart⟩
      rcases thinned.head with same | ⟨-, ends⟩
      · exact next y (same ▸ first)
      · rw [ends y first]
        cases x with
        | comment => rfl
        | _ => exact Bool.and_false _
  | drop _ _ _ ih => exact ih (List.isChain_cons.1 apart).2

/-- Marks that follow each other are left so, and no others come together. -/
theorem pair_infix (h : Thinned all left) (d e : Char) :
    [.mark d, .mark e] <:+: left ↔ [.mark d, .mark e] <:+: all := by
  induction h with
  | nil => exact Iff.rfl
  | @keep x all left _ thinned ih =>
      have next : left.head? = some (.mark e) ↔ all.head? = some (.mark e) := by
        rcases thinned.head with same | ⟨gap, ends⟩
        · rw [same]
        · refine iff_of_false (fun first => ?_) fun first => (gap _ first).elim
          cases ends _ first
      rw [pair_infix_cons, pair_infix_cons, next]
      exact or_congr_left ih
  | @drop x all left gap _ _ ih =>
      have mark : x ≠ .mark d := by
        rintro rfl
        exact gap
      rw [pair_infix_cons]
      exact ih.trans (or_iff_left fun meets => mark meets.1).symm

end Thinned

/-! ## The judgement -/

/-- What is searched for keywords are the lexemes as they are. -/
structure Clear (lexemes : List Lexeme) : Prop where
  legible : ∀ x ∈ lexemes, x.Legible
  tidy : tidy (some []) lexemes = true

section

variable {lexemes : List Lexeme}

/-- The judgement of what is searched is the judgement of the lexemes. -/
theorem diagnose_spelled (lexed : Lexed lexemes) (clear : Clear lexemes) :
    diagnose (spelled lexemes) = judged lexemes := by
  obtain ⟨left, thinned, code⟩ := exists_thinned lexed.formed clear.tidy
  have seen : ∀ x ∈ left, x.Seen := by
    intro x mem
    obtain ⟨mem, token⟩ := thinned.mem x mem
    exact ⟨lexed.formed x mem, clear.legible x mem, token⟩
  have occurs {d e : Char} (first : d ∈ operators) (second : e ∈ operators) :
      Text.occursIn [d, e] (left.flatMap residue) = true ↔ [.mark d, .mark e] <:+: lexemes := by
    rw [Text.occursIn_iff, operator_infix first second seen, thinned.pair_infix]
  have keyword : (upperWords (left.flatMap residue)).find? foreignKeywords.contains =
      (lexemes.flatMap words).find? foreignKeywords.contains := by
    refine (firstKeyword_flatMap seen (thinned.isChain lexed.apart)).trans ?_
    rw [thinned.flatMap_words, firstKeyword]
  simp only [diagnose, code, outsideTerms_spelled seen, keyword]
  refine if_congr (occurs (by decide) (by decide)) rfl ?_
  exact if_congr (occurs (by decide) (by decide)) rfl rfl

theorem formOf_spelled (lexed : Lexed lexemes) (clear : Clear lexemes) (keyword : String) :
    formOf (spelled lexemes) ≠ .other keyword := by
  obtain ⟨left, thinned, code⟩ := exists_thinned lexed.formed clear.tidy
  obtain ⟨word, rest, rfl, upper⟩ := lexed.select
  have form : formOf (spelled (.word word :: rest)) = formOfCode (spelled left) :=
    congrArg formOfCode code
  rw [form]
  cases thinned with
  | keep => exact formOfCode_select upper keyword
  | drop gap => exact gap.elim

/-- A text is judged unsupported exactly for an operator or a keyword. -/
theorem judged_unsupported_iff : (∃ fault, judged lexemes = .unsupported fault) ↔
    [.mark '&', .mark '&'] <:+: lexemes ∨ [.mark '!', .mark '='] <:+: lexemes ∨
      ∃ x ∈ lexemes, ∃ word ∈ x.words, word ∈ foreignKeywords := by
  have found : (∃ word ∈ lexemes.flatMap words, word ∈ foreignKeywords) ↔
      ∃ x ∈ lexemes, ∃ word ∈ x.words, word ∈ foreignKeywords := by
    constructor
    · rintro ⟨word, mem, foreign⟩
      obtain ⟨x, at_, inner⟩ := List.mem_flatMap.1 mem
      exact ⟨x, at_, word, inner, foreign⟩
    · rintro ⟨x, at_, word, inner, foreign⟩
      exact ⟨word, List.mem_flatMap.2 ⟨x, at_, inner⟩, foreign⟩
  unfold judged
  split
  · rename_i conjunction
    exact iff_of_true ⟨_, rfl⟩ (Or.inl conjunction)
  · rename_i noConjunction
    rw [or_iff_right noConjunction]
    split
    · rename_i inequality
      exact iff_of_true ⟨_, rfl⟩ (Or.inl inequality)
    · rename_i noInequality
      rw [or_iff_right noInequality, ← found]
      split
      · rename_i word first
        refine iff_of_true ⟨_, rfl⟩ ⟨word, List.mem_of_find?_eq_some first, ?_⟩
        simpa using List.find?_some first
      · rename_i none
        refine iff_of_false nofun ?_
        rintro ⟨word, mem, foreign⟩
        have other := List.find?_eq_none.1 none word mem
        exact other (List.contains_iff_mem.2 foreign)

theorem wordsFrom_of_isAlpha {text : List Char} (letters : ∀ c ∈ text, c.isAlpha = true) :
    ∀ word, wordsFrom word text = [word.reverse ++ text] := by
  induction text with
  | nil =>
      intro word
      rw [wordsFrom, List.append_nil]
  | cons c text ih =>
      intro word
      obtain ⟨letter, letters⟩ := List.forall_mem_cons.1 letters
      have inside : c.isAlphanum = true := Bool.or_eq_true_iff.2 (Or.inl letter)
      rw [wordsFrom, if_pos inside, ih letters, List.reverse_cons, List.append_assoc,
        List.singleton_append]

namespace Lexeme

/-- A bare word that is a keyword outside the subset, in any case. -/
def IsKeyword : Lexeme → Prop
  | word letters => String.ofList (letters.map Char.toUpper) ∈ foreignKeywords
  | _ => False

/-- Only a keyword has the spelling of one, or of one as a part. -/
def Faithful (x : Lexeme) : Prop := (∃ word ∈ x.words, word ∈ foreignKeywords) → x.IsKeyword

instance : DecidablePred IsKeyword
  | word letters =>
    inferInstanceAs (Decidable (String.ofList (letters.map Char.toUpper) ∈ foreignKeywords))
  | blank _ | comment _ | uri _ | quoted _ _ | name _ | mark _ => inferInstanceAs (Decidable False)

instance : DecidablePred Faithful := fun x =>
  inferInstanceAs (Decidable ((∃ word ∈ x.words, word ∈ foreignKeywords) → x.IsKeyword))

/-- A keyword has its own spelling. -/
theorem IsKeyword.exists_word {x : Lexeme} (h : x.IsKeyword) :
    ∃ word ∈ x.words, word ∈ foreignKeywords := by
  cases x with
  | word letters =>
      have every : ∀ keyword ∈ foreignKeywords, keyword.toList.all Char.isAlpha = true := by decide
      have alpha := isAlpha_of_map_toUpper String.toList_ofList.symm (every _ h)
      refine ⟨_, ?_, h⟩
      rw [words, upperWords, wordsFrom_of_isAlpha alpha]
      exact List.mem_singleton.2 rfl
  | _ => exact h.elim

end Lexeme

/-- The lexemes have an operator or a keyword that is outside the subset. -/
def Foreign (lexemes : List Lexeme) : Prop :=
  [.mark '&', .mark '&'] <:+: lexemes ∨ [.mark '!', .mark '='] <:+: lexemes ∨
    ∃ x ∈ lexemes, x.IsKeyword

instance : DecidablePred Foreign := fun lexemes =>
  inferInstanceAs (Decidable (_ ∨ _ ∨ ∃ x ∈ lexemes, x.IsKeyword))

theorem parse_eq_diagnose {text : String} (form : ∀ keyword, formOf text.toList ≠ .other keyword)
    (rejected : Grammar.clauses text.toList = none) :
    parse text = .error (diagnose text.toList) := by
  unfold parse
  cases found : formOf text.toList with
  | other keyword => exact absurd found (form keyword)
  | select | unknown => rw [rejected]

/-- A text of lexemes that starts with SELECT and that the grammar rejects is judged by its marks and
its words, if they are searched as they are. If moreover nothing else has the spelling of a keyword, it
is unsupported exactly for `&&`, `!=` or a bare word that is a keyword. -/
theorem parse_rejected {text : String} (lexed : Lexed lexemes) (clear : Clear lexemes)
    (split : text.toList = spelled lexemes) (rejected : Grammar.clauses text.toList = none) :
    parse text = .error (judged lexemes) ∧
      ((∀ x ∈ lexemes, x.Faithful) →
        ((∃ fault, parse text = .error (.unsupported fault)) ↔ Foreign lexemes)) := by
  have judgement : parse text = .error (judged lexemes) := by
    have form := formOf_spelled lexed clear
    rw [← split] at form
    rw [parse_eq_diagnose form rejected, split, diagnose_spelled lexed clear]
  refine ⟨judgement, fun faithful => ?_⟩
  simp only [judgement, Except.error.injEq, judged_unsupported_iff]
  refine or_congr_right (or_congr_right ⟨?_, ?_⟩)
  · rintro ⟨x, mem, spelling⟩
    exact ⟨x, mem, faithful x mem spelling⟩
  · rintro ⟨x, mem, keyword⟩
    exact ⟨x, mem, keyword.exists_word⟩

end

/-- The string and the comment have keywords, and the comment has an open quote. -/
theorem parse_rejected_sample :
    let lexemes : List Lexeme := [.word "sElect".toList, .mark '*', .mark '\x7b',
      .name ('?' :: "s".toList), .blank ' ', .uri "http://x/#a".toList, .quoted '\'' "LIMIT".toList,
      .comment " \"order".toList, .blank '\r', .blank '\n', .mark '\x7d', .word "limit".toList,
      .blank ' ', .name "5".toList]
    let text := "sElect*\x7b?s <http://x/#a>'LIMIT'# \"order\r\n\x7dlimit 5"
    Lexed lexemes ∧ Clear lexemes ∧ text.toList = spelled lexemes ∧
      Grammar.clauses text.toList = none ∧
      parse text = .error (.unsupported (.keyword "LIMIT")) ∧
      (∀ x ∈ lexemes, x.Faithful) ∧ Foreign lexemes ∧
      ∃ fault, parse text = .error (.unsupported fault) := by
  intro lexemes text
  have number : Named ([] ++ ("5".toList ++ [])) := .number (Or.inl rfl) (by decide) (Or.inl rfl)
  have formed : ∀ x ∈ lexemes, x.WellFormed := by
    simp only [lexemes, List.forall_mem_cons, WellFormed]
    exact ⟨by decide, by decide, by decide, .variable (Or.inl rfl) (by decide), rfl,
      (by decide : IsUri "http://x/#a"), by decide, by decide, rfl, rfl, by decide, by decide, rfl,
      number, List.forall_mem_nil _⟩
  have lexed : Lexed lexemes := ⟨formed, by decide, _, _, rfl, by decide⟩
  have clear : Clear lexemes := ⟨by decide, by decide +kernel⟩
  have split : text.toList = spelled lexemes := by decide +kernel
  have rejected : Grammar.clauses text.toList = none := by decide +kernel
  have faithful : ∀ x ∈ lexemes, x.Faithful := by decide +kernel
  have foreign : Foreign lexemes := Or.inr (Or.inr ⟨.word "limit".toList, by decide, by decide⟩)
  have judgement : judged lexemes = .unsupported (.keyword "LIMIT") := by decide +kernel
  obtain ⟨parsed, iff⟩ := parse_rejected lexed clear split rejected
  exact ⟨lexed, clear, split, rejected, judgement ▸ parsed, faithful, foreign,
    (iff faithful).2 foreign⟩

/-- In the first two texts the keyword is a variable, and stands in a comment with a second `#`. In the
others it is a bare word, behind a string with a `#`, a string with its own quote, a comment whose line
ends with a lone return, and an operator. -/
theorem lexemes_disguised :
    let select := [Lexeme.word "SELECT".toList, .blank ' ']
    let limit := Lexeme.word "LIMIT".toList
    (∀ rest ∈ [[.name ('?' :: "limit".toList)], [.comment " LIMIT #".toList]],
      Lexed (select ++ rest) ∧ Grammar.clauses (spelled (select ++ rest)) = none ∧
        ¬ Foreign (select ++ rest) ∧
        parse (String.ofList (spelled (select ++ rest))) = .error (.unsupported (.keyword "LIMIT"))) ∧
    ∀ front ∈ [[.quoted '"' ['#'], .blank ' '], [.quoted '"' ['\\', '"'], .blank ' '],
        [.comment [], .blank '\r'], [.mark '<', .blank ' ']],
      Lexed (select ++ (front ++ [limit])) ∧
        Grammar.clauses (spelled (select ++ (front ++ [limit]))) = none ∧
        Foreign (select ++ (front ++ [limit])) ∧
        parse (String.ofList (spelled (select ++ (front ++ [limit])))) =
          .error (.malformed .grammar) := by
  intro select limit
  have lexed {rest : List Lexeme} (formed : ∀ x ∈ rest, x.WellFormed)
      (apart : (select ++ rest).IsChain Apart) : Lexed (select ++ rest) := by
    have front : ∀ x ∈ select, x.WellFormed := by
      simp only [select, List.forall_mem_cons, WellFormed]
      exact ⟨by decide, rfl, List.forall_mem_nil _⟩
    exact ⟨List.forall_mem_append.2 ⟨front, formed⟩, apart, _, _, rfl, by decide⟩
  have judgement {lexemes : List Lexeme} {fault : Fault} (form : formOf (spelled lexemes) = .select)
      (rejected : Grammar.clauses (spelled lexemes) = none)
      (found : diagnose (spelled lexemes) = fault) :
      parse (String.ofList (spelled lexemes)) = .error fault := by
    have parsed := @parse_eq_diagnose (String.ofList (spelled lexemes))
    rw [String.toList_ofList, form, found] at parsed
    exact parsed (fun _ => nofun) rejected
  have behind {x y : Lexeme} (first : x.WellFormed) (second : y.WellFormed) :
      ∀ z ∈ [x, y] ++ [limit], z.WellFormed :=
    List.forall_mem_cons.2 ⟨first, List.forall_mem_cons.2 ⟨second, List.forall_mem_singleton.2
      (by decide : IsRun isWordChar "LIMIT".toList)⟩⟩
  simp only [List.forall_mem_cons]
  refine ⟨⟨?_, ?_, List.forall_mem_nil _⟩, ?_, ?_, ?_, ?_, List.forall_mem_nil _⟩
  all_goals refine ⟨lexed ?_ (by decide), by decide +kernel, by decide,
    judgement (by decide +kernel) (by decide +kernel) (by decide +kernel)⟩
  · exact List.forall_mem_singleton.2 (.variable (Or.inl rfl) (by decide))
  · exact List.forall_mem_singleton.2 (by decide : OneLine " LIMIT #".toList)
  · exact behind ⟨Or.inl rfl, by decide⟩ rfl
  · exact behind ⟨Or.inl rfl, by decide⟩ rfl
  · exact behind oneLine_nil rfl
  · exact behind (by decide : '<' ∈ marks) rfl

end RdfStore.Query
