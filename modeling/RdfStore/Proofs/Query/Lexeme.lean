import Mathlib.Data.List.Chain
import Mathlib.Data.List.Infix
import RdfStore.Proofs.Query.Form
import RdfStore.Query.Parse

/-!
# The lexemes of a text

A text that the grammar rejects may still be made of lexemes: blanks, comments, URIs, quoted strings,
names (of variables, blank nodes and prefixes, numbers, language tags), marks and bare words. What is
wrong with such a text can be judged by its marks and its words (`judged`).

* `Lexed`: the lexemes of a text that starts with SELECT.
* `Lexeme.WellFormed.solid`: a token starts and ends on a line, and breaks no line behind a return.
-/

namespace RdfStore.Query

/-! ## Lexemes -/

/-- The characters of punctuation and operators. -/
def marks : List Char :=
  ['\x7b', '\x7d', '(', ')', '[', ']', '.', ',', ';', '=', '*', '|', '&', '!', '+', '-', '/', '^', '<',
    '>']

/-- The characters of bare words. Blanks, marks and quotes separate them, and a comment or a name starts
with one of the others. -/
def isWordChar (c : Char) : Bool :=
  !(Token.isSpace c || marks.contains c || ['"', '\'', '#', '?', '$', ':', '@'].contains c)

/-- The tokens in which a name may stand, which is no word of the language. -/
inductive Named : List Char → Prop
  | «variable» {sign : Char} {name : String} :
    sign = '?' ∨ sign = '$' → IsName name → Named (sign :: name.toList)
  | label {label : String} : IsLabel label → Named ('_' :: ':' :: label.toList)
  | prefixed {name : String} {part : List Char} :
    IsPrefix name → (∀ c ∈ part, Token.isLocalChar c = true) → Named (name.toList ++ ':' :: part)
  | number {minus digits fraction : List Char} :
    minus = [] ∨ minus = ['-'] → IsRun Char.isDigit digits →
    fraction = [] ∨ (∃ more, fraction = '.' :: more ∧ IsRun Char.isDigit more) →
    Named (minus ++ (digits ++ fraction))
  | tag {tag : String} : IsTag tag → Named ('@' :: tag.toList)

/-- The characters of names, signs included. -/
def isNamedChar (c : Char) : Bool := Token.isLocalChar c || ['?', '$', ':', '@', '.'].contains c

/-- A piece of a text by its kind. -/
inductive Lexeme where
  | blank (c : Char)
  /-- A comment by what follows its sign, without the end of its line. -/
  | comment (body : List Char)
  | uri (body : List Char)
  | quoted (quote : Char) (body : List Char)
  | name (chars : List Char)
  | mark (c : Char)
  | word (letters : List Char)
  deriving DecidableEq

namespace Lexeme

def chars : Lexeme → List Char
  | blank c => [c]
  | comment body => '#' :: body
  | uri body => '<' :: (body ++ ['>'])
  | quoted quote body => quote :: (body ++ [quote])
  | name chars => chars
  | mark c => [c]
  | word letters => letters

def WellFormed : Lexeme → Prop
  | blank c => Token.isSpace c = true
  | comment body => OneLine body
  | uri body => ∀ c ∈ body, Token.isUriChar c = true
  | quoted quote body => (quote = '"' ∨ quote = '\'') ∧
    Token.quotedBody quote (body ++ [quote]) = (body, [quote])
  | name chars => Named chars
  | mark c => c ∈ marks
  | word letters => IsRun isWordChar letters

/-- The lexeme separates tokens. -/
def IsGap : Lexeme → Prop
  | blank _ | comment _ => True
  | _ => False

/-- The words in a lexeme, in upper case: the runs of letters and digits in a name or a bare word. -/
def words : Lexeme → List String
  | name chars => upperWords chars
  | word letters => upperWords letters
  | _ => []

/-- One lexeme may stand in front of another: they do not touch with letters or digits, and a comment
runs to the end of its line. -/
def Apart : Lexeme → Lexeme → Prop
  | comment _, y => y.chars.head?.all Token.endsLine = true
  | x, y => (x.chars.getLast?.any Char.isAlphanum && y.chars.head?.any Char.isAlphanum) = false

instance : DecidableRel Apart
  | comment _, _ | blank _, _ | uri _, _ | quoted _ _, _ | name _, _ | mark _, _ | word _, _ =>
    inferInstanceAs (Decidable (_ = _))

end Lexeme

/-- The text that lexemes make. -/
def spelled (lexemes : List Lexeme) : List Char := lexemes.flatMap Lexeme.chars

/-- What is wrong with a text that the grammar rejects, by its lexemes: a conjunction, an inequality or
the first keyword, and if there is none, nothing but that it is rejected. -/
def judged (lexemes : List Lexeme) : Fault :=
  if [.mark '&', .mark '&'] <:+: lexemes then .unsupported .conjunction
  else if [.mark '!', .mark '='] <:+: lexemes then .unsupported .inequality
  else
    match (lexemes.flatMap Lexeme.words).find? foreignKeywords.contains with
    | some word => .unsupported (.keyword word)
    | none => .malformed .grammar

/-- The lexemes of a text that starts with SELECT. -/
structure Lexed (lexemes : List Lexeme) : Prop where
  formed : ∀ x ∈ lexemes, x.WellFormed
  apart : lexemes.IsChain Lexeme.Apart
  select : ∃ word rest, lexemes = .word word :: rest ∧ word.map Char.toUpper = "SELECT".toList

theorem spelled_cons (x : Lexeme) (lexemes : List Lexeme) :
    spelled (x :: lexemes) = x.chars ++ spelled lexemes :=
  List.flatMap_cons

/-! ## Line breaks in lexemes -/

section

variable {α : Type} {a b : α}

theorem pair_infix_cons {c : α} {back : List α} :
    [a, b] <:+: c :: back ↔ [a, b] <:+: back ∨ c = a ∧ back.head? = some b := by
  have next : [b] <+: back ↔ back.head? = some b := by
    cases back with
    | nil => simp
    | cons d back => simp [List.cons_prefix_cons, eq_comm]
  rw [List.infix_cons_iff, List.cons_prefix_cons, next, or_comm, eq_comm (a := a)]

/-- Two things that follow each other in joined lists do so in one of them or where they meet. -/
theorem pair_infix_append {front back : List α} :
    [a, b] <:+: front ++ back ↔
      [a, b] <:+: front ∨ [a, b] <:+: back ∨ front.getLast? = some a ∧ back.head? = some b := by
  induction front with
  | nil => simp
  | cons c front ih =>
      rw [List.cons_append, pair_infix_cons, pair_infix_cons, ih]
      cases front with
      | nil => simp
      | cons d front =>
          rw [List.cons_append, List.head?_cons, List.head?_cons, List.getLast?_cons_cons]
          tauto

end

/-- A text that is part of a line at its start and its end, and breaks no line behind a return. -/
structure Solid (text : List Char) : Prop where
  first : ∃ c ∈ text.head?, c ≠ '\n'
  last : ∃ c ∈ text.getLast?, Token.endsLine c = false
  unbroken : ¬ ['\r', '\n'] <:+: text

theorem solid_of_oneLine {text : List Char} (filled : text ≠ []) (oneLine : OneLine text) :
    Solid text := by
  refine ⟨?_, ?_, ?_⟩
  · refine ⟨text.head filled, List.head?_eq_some_head filled, ?_⟩
    rintro feed
    have ends := oneLine _ (List.head_mem filled)
    rw [feed] at ends
    cases ends
  · exact ⟨text.getLast filled, List.getLast?_eq_some_getLast filled,
      oneLine _ (List.getLast_mem filled)⟩
  · intro part
    cases oneLine '\n' (part.subset (List.mem_cons_of_mem _ List.mem_cons_self))

theorem unbroken_cons {c : Char} {text : List Char} (unbroken : ¬ ['\r', '\n'] <:+: text)
    (meets : c = '\r' → text.head? ≠ some '\n') : ¬ ['\r', '\n'] <:+: c :: text := by
  rw [pair_infix_cons, not_or, not_and]
  exact ⟨unbroken, meets⟩

/-- In a string a line feed stands behind a backslash only. -/
theorem quotedBody_unbroken (quote : Char) (text : List Char) :
    (Token.quotedBody quote text).1.head? ≠ some '\n' ∧
      ¬ ['\r', '\n'] <:+: (Token.quotedBody quote text).1 := by
  have reads := Token.bodyReads_quotedBody quote text
  generalize (Token.quotedBody quote text).1 = body at reads ⊢
  generalize (Token.quotedBody quote text).2 = rest at reads
  induction reads with
  | stop => simp
  | step piece _ ih =>
      cases piece with
      | pair c => exact ⟨by simp, unbroken_cons (unbroken_cons ih.2 fun _ => ih.1) (by simp)⟩
      | plain other slash feed => exact ⟨by simp [feed], unbroken_cons ih.2 fun _ => ih.1⟩

theorem isNamedChar_of_isLabelChar {c : Char} (h : Token.isLabelChar c = true) :
    isNamedChar c = true := by
  rw [isNamedChar, Token.isLocalChar, h]
  rfl

theorem isNamedChar_of_isNameChar {c : Char} (h : Token.isNameChar c = true) :
    isNamedChar c = true := by
  rw [Token.isNameChar] at h
  exact isNamedChar_of_isLabelChar (Bool.or_eq_true_iff.2 (Or.inl h))

theorem isNamedChar_of_isAlphanum {c : Char} (h : c.isAlphanum = true) : isNamedChar c = true :=
  isNamedChar_of_isNameChar (Bool.or_eq_true_iff.2 (Or.inl h))

theorem Named.isRun {chars : List Char} (h : Named chars) : IsRun isNamedChar chars := by
  have digit {c : Char} (inside : c.isDigit = true) : isNamedChar c = true :=
    isNamedChar_of_isAlphanum (Bool.or_eq_true_iff.2 (Or.inr inside))
  have letter {c : Char} (inside : c.isAlpha = true) : isNamedChar c = true :=
    isNamedChar_of_isAlphanum (Bool.or_eq_true_iff.2 (Or.inl inside))
  cases h with
  | «variable» sign name =>
      refine ⟨List.cons_ne_nil _ _, List.forall_mem_cons.2 ⟨?_, fun c mem => ?_⟩⟩
      · rcases sign with rfl | rfl <;> rfl
      · exact isNamedChar_of_isNameChar (name.2 c mem)
  | label named =>
      refine ⟨List.cons_ne_nil _ _, List.forall_mem_cons.2 ⟨rfl, List.forall_mem_cons.2 ⟨rfl, ?_⟩⟩⟩
      exact fun c mem => isNamedChar_of_isLabelChar (named.2 c mem)
  | prefixed name part =>
      refine ⟨by simp, List.forall_mem_append.2 ⟨fun c mem => ?_, List.forall_mem_cons.2
        ⟨rfl, fun c mem => Bool.or_eq_true_iff.2 (Or.inl (part c mem))⟩⟩⟩
      exact isNamedChar_of_isLabelChar (name.isLabelChar c mem)
  | number minus digits fraction =>
      refine ⟨by simp [digits.1], List.forall_mem_append.2 ⟨?_, List.forall_mem_append.2
        ⟨fun c mem => digit (digits.2 c mem), ?_⟩⟩⟩
      · rcases minus with rfl | rfl
        · exact List.forall_mem_nil _
        · exact List.forall_mem_singleton.2 rfl
      · rcases fraction with rfl | ⟨more, rfl, run⟩
        · exact List.forall_mem_nil _
        · exact List.forall_mem_cons.2 ⟨rfl, fun c mem => digit (run.2 c mem)⟩
  | tag tag =>
      obtain ⟨main, subs, chars, run, runs⟩ := tag
      rw [chars]
      refine ⟨List.cons_ne_nil _ _, List.forall_mem_cons.2 ⟨rfl, List.forall_mem_append.2
        ⟨fun c mem => letter (run.2 c mem), fun c mem => ?_⟩⟩⟩
      obtain ⟨sub, at_, inner⟩ := List.mem_flatMap.1 mem
      rcases List.mem_cons.1 inner with rfl | inner
      · rfl
      · exact isNamedChar_of_isAlphanum ((runs sub at_).2 c inner)

namespace Lexeme

variable {x : Lexeme}

theorem WellFormed.chars_ne_nil (h : x.WellFormed) : x.chars ≠ [] := by
  cases x with
  | name => exact h.isRun.1
  | word => exact h.1
  | _ => exact List.cons_ne_nil _ _

theorem WellFormed.solid (h : x.WellFormed) (token : ¬ x.IsGap) : Solid x.chars := by
  cases x with
  | blank | comment => exact absurd trivial token
  | uri body =>
      refine solid_of_oneLine (List.cons_ne_nil _ _) ?_
      have inside : OneLine body := oneLine_of_class h rfl rfl
      simp [chars, inside, Token.endsLine]
  | quoted quote body =>
      obtain ⟨quotes, scanned⟩ := h
      have plain : quote ≠ '\n' ∧ Token.endsLine quote = false := by
        rcases quotes with rfl | rfl <;> decide
      obtain ⟨first, unbroken⟩ := quotedBody_unbroken quote (body ++ [quote])
      rw [scanned] at first unbroken
      refine ⟨⟨quote, rfl, plain.1⟩, ⟨quote, ?_, plain.2⟩, unbroken_cons ?_ ?_⟩
      · rw [chars, ← List.cons_append, List.getLast?_concat]
        rfl
      · rw [pair_infix_append]
        rintro (inside | alone | ⟨-, meets⟩)
        · exact unbroken inside
        · simpa using alone.length_le
        · exact plain.1 (Option.some.inj meets)
      · rintro rfl
        cases plain.2
  | name chars => exact solid_of_oneLine h.isRun.1 (oneLine_of_class h.isRun.2 rfl rfl)
  | mark c =>
      refine solid_of_oneLine (List.cons_ne_nil _ _) (List.forall_mem_singleton.2 ?_)
      have outside : marks.any Token.endsLine = false := by decide
      exact Bool.eq_false_iff.2 (List.any_eq_false.1 outside c h)
  | word letters => exact solid_of_oneLine h.1 (oneLine_of_class h.2 rfl rfl)

end Lexeme

end RdfStore.Query
