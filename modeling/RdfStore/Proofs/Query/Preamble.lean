import RdfStore.Proofs.Query.Form
import RdfStore.Proofs.Query.Sound

/-!
# What stands in front of a query

In front of its first keyword a query has blanks, comments and PREFIX declarations, and blanks and
comments stand between the tokens of a declaration too. A `Piece` says how one of them is spelled:
which blanks and comments there are and how their lines end, and how the letters of the keyword are
written. The grammar reads nothing else in front of SELECT (`Grammar.exists_preamble`), and it knows
fewer blanks than the form check (`Piece.Read`).
-/

namespace RdfStore.Query

/-! ## Spelling -/

/-- The end of a line. -/
inductive LineEnd where
  | feed
  | returnFeed
  | loneReturn
  deriving DecidableEq

def LineEnd.chars : LineEnd → List Char
  | feed => ['\n']
  | returnFeed => ['\r', '\n']
  | loneReturn => ['\r']

/-- What may stand between two tokens: a blank, or a comment and the end of its line. -/
inductive Filler where
  | blank (c : Char)
  | comment (body : List Char) (ending : LineEnd)
  deriving DecidableEq

namespace Filler

def chars : Filler → List Char
  | blank c => [c]
  | comment body ending => '#' :: (body ++ ending.chars)

/-- The blank is one, or the comment stands on one line. -/
def WellFormed : Filler → Prop
  | blank c => Text.isBlank c = true
  | comment body _ => OneLine body

instance : DecidablePred WellFormed
  | blank c => inferInstanceAs (Decidable (Text.isBlank c = true))
  | comment body _ => inferInstanceAs (Decidable (OneLine body))

/-- The grammar passes over the filler: the blank is one that it knows, or the comment stands on one
line. -/
def Read : Filler → Prop
  | blank c => Token.isSpace c = true
  | comment body _ => OneLine body

instance : DecidablePred Read
  | blank c => inferInstanceAs (Decidable (Token.isSpace c = true))
  | comment body _ => inferInstanceAs (Decidable (OneLine body))

end Filler

/-- The text of some fillers. -/
def fill (fillers : List Filler) : List Char := fillers.flatMap Filler.chars

/-- A PREFIX declaration, token by token. -/
structure Declaration where
  word : List Char
  beforeName : List Filler
  name : String
  beforeUri : List Filler
  uri : String

namespace Declaration

/-- What stands between the keyword and the URI. -/
def label (d : Declaration) : List Char :=
  fill d.beforeName ++ (d.name.toList ++ ':' :: fill d.beforeUri)

def chars (d : Declaration) : List Char := d.word ++ (d.label ++ Written.uri d.uri)

/-- Every token is one of the grammar. -/
structure WellFormed (d : Declaration) : Prop where
  word : d.word.map Char.toUpper = "PREFIX".toList
  beforeName : ∀ f ∈ d.beforeName, f.WellFormed
  name : IsPrefix d.name
  beforeUri : ∀ f ∈ d.beforeUri, f.WellFormed
  uri : IsUri d.uri

end Declaration

/-- A part of what stands in front of the first keyword. -/
inductive Piece where
  | filler (f : Filler)
  | declaration (d : Declaration)

namespace Piece

def chars : Piece → List Char
  | filler f => f.chars
  | declaration d => d.chars

def WellFormed : Piece → Prop
  | filler f => f.WellFormed
  | declaration d => d.WellFormed

/-- The blanks and comments in a piece. -/
def fillers : Piece → List Filler
  | filler f => [f]
  | declaration d => d.beforeName ++ d.beforeUri

/-- The grammar reads the piece. -/
structure Read (p : Piece) : Prop where
  formed : p.WellFormed
  spaced : ∀ f ∈ p.fillers, f.Read

/-- The prefix that a piece declares. -/
def entry? : Piece → Option (String × String)
  | filler _ => none
  | declaration d => some (d.name, d.uri)

end Piece

/-- The text of some pieces. -/
def preamble (pieces : List Piece) : List Char := pieces.flatMap Piece.chars

/-- The prefixes that some pieces declare. -/
def declaredEntries (pieces : List Piece) : List (String × String) := pieces.filterMap Piece.entry?

theorem fill_cons (f : Filler) (fillers : List Filler) : fill (f :: fillers) = f.chars ++ fill fillers :=
  List.flatMap_cons

theorem preamble_cons (p : Piece) (pieces : List Piece) :
    preamble (p :: pieces) = p.chars ++ preamble pieces :=
  List.flatMap_cons

theorem preamble_append (pieces more : List Piece) :
    preamble (pieces ++ more) = preamble pieces ++ preamble more :=
  List.flatMap_append

theorem preamble_fillers (fillers : List Filler) :
    preamble (fillers.map .filler) = fill fillers :=
  List.flatMap_map Piece.filler Piece.chars fillers

/-! ## What the grammar passes over -/

namespace Token

theorem isBlank_of_isSpace {c : Char} (h : isSpace c = true) : Text.isBlank c = true := by
  simp only [isSpace, Bool.or_eq_true, decide_eq_true_eq] at h
  rcases h with ((rfl | rfl) | rfl) | rfl <;> decide

/-- What is passed over in front of a token are fillers; inside a comment it is first the rest of that
comment. -/
theorem exists_fill (text : List Char) :
    (skipFrom false text ≠ [] → ∃ fillers : List Filler,
      (∀ f ∈ fillers, f.Read) ∧ text = fill fillers ++ skipFrom false text) ∧
    (skipFrom true text ≠ [] → ∃ (body : List Char) (ending : LineEnd) (fillers : List Filler),
      OneLine body ∧ (∀ f ∈ fillers, f.Read) ∧
        text = body ++ (ending.chars ++ (fill fillers ++ skipFrom true text))) := by
  induction text with
  | nil => exact ⟨fun token => absurd rfl token, fun token => absurd rfl token⟩
  | cons c text ih =>
      obtain ⟨outside, inside⟩ := ih
      refine ⟨?_, ?_⟩
      · unfold skipFrom
        intro token
        split at token
        · rename_i space
          obtain ⟨fillers, formed, split⟩ := outside token
          refine ⟨.blank c :: fillers, List.forall_mem_cons.2 ⟨space, formed⟩, ?_⟩
          rw [if_pos space, fill_cons, List.append_assoc, ← split]
          rfl
        · rename_i noSpace
          rw [if_neg noSpace]
          split at token
          · rename_i comment
            obtain ⟨body, ending, fillers, plain, formed, split⟩ := inside token
            refine ⟨.comment body ending :: fillers, List.forall_mem_cons.2 ⟨plain, formed⟩, ?_⟩
            rw [if_pos comment, comment, fill_cons, Filler.chars, List.append_assoc,
              List.cons_append, List.append_assoc, ← split]
          · rename_i noComment
            rw [if_neg noComment]
            exact ⟨[], List.forall_mem_nil _, rfl⟩
      · unfold skipFrom
        intro token
        cases ends : endsLine c with
        | false =>
            rw [ends] at token
            obtain ⟨body, ending, fillers, plain, formed, split⟩ := inside token
            refine ⟨c :: body, ending, fillers, oneLine_cons.2 ⟨ends, plain⟩, formed, ?_⟩
            rw [Bool.not_false, List.cons_append, ← split]
        | true =>
            rw [ends] at token
            obtain ⟨fillers, formed, split⟩ := outside token
            have ending : ∃ ending : LineEnd, ending.chars = [c] := by
              simp only [endsLine, Bool.or_eq_true, decide_eq_true_eq] at ends
              rcases ends with rfl | rfl
              · exact ⟨.loneReturn, rfl⟩
              · exact ⟨.feed, rfl⟩
            obtain ⟨ending, last⟩ := ending
            refine ⟨[], ending, fillers, oneLine_nil, formed, ?_⟩
            rw [Bool.not_true, last, ← split]
            rfl

theorem exists_fill_skip {text : List Char} (token : skip text ≠ []) : ∃ fillers : List Filler,
    (∀ f ∈ fillers, f.Read) ∧ text = fill fillers ++ skip text :=
  (exists_fill text).1 token

theorem keyword_eq_some {rest : List Char} (word : List Char) :
    ∀ {text : List Char}, keyword word text = some rest →
      ∃ letters : List Char, letters.map Char.toUpper = word ∧ text = letters ++ rest := by
  induction word with
  | nil =>
      intro text read
      cases read
      exact ⟨[], rfl, rfl⟩
  | cons k word ih =>
      intro text read
      cases text with
      | nil => cases read
      | cons c text =>
          unfold keyword at read
          split at read
          · rename_i same
            obtain ⟨letters, upper, split⟩ := ih read
            refine ⟨c :: letters, ?_, congrArg (c :: ·) split⟩
            rw [List.map_cons, same, upper]
          · cases read

theorem prefixName_eq_some {name : String} {text rest : List Char}
    (read : prefixName text = some (name, rest)) : text = name.toList ++ ':' :: rest := by
  have parts : (prefixPart text).1 ++ (prefixPart text).2 = text := by
    cases text with
    | nil => rfl
    | cons c text =>
        rw [prefixPart]
        split
        · exact congrArg (c :: ·) List.takeWhile_append_dropWhile
        · rfl
  unfold prefixName at read
  split at read
  · rename_i found behind split
    cases read
    rw [split] at parts
    rw [String.toList_ofList, parts]
  · cases read

theorem uri_eq_some {uri : String} {text rest : List Char} (read : Token.uri text = some (uri, rest)) :
    text = Written.uri uri ++ rest := by
  unfold Token.uri at read
  split at read
  · rename_i body
    split at read
    · rename_i behind closed
      cases read
      have parts : body.takeWhile isUriChar ++ body.dropWhile isUriChar = body :=
        List.takeWhile_append_dropWhile
      rw [closed] at parts
      rw [Written.uri, String.toList_ofList, List.append_assoc, List.singleton_append,
        List.cons_append, parts]
    · cases read
  · cases read

end Token

theorem Filler.Read.formed {f : Filler} (h : f.Read) : f.WellFormed := by
  cases f with
  | blank => exact Token.isBlank_of_isSpace h
  | comment => exact h

theorem Filler.Read.piece {f : Filler} (h : f.Read) : (Piece.filler f).Read :=
  ⟨h.formed, List.forall_mem_singleton.2 h⟩

namespace Grammar

open Token (skip)

/-- What is read as a declaration is the text of one. -/
theorem exists_declaration {entry : String × String} {text rest : List Char}
    (read : prefixDecl text = some (entry, rest)) :
    ∃ d : Declaration, (Piece.declaration d).Read ∧ text = d.chars ++ rest := by
  obtain ⟨named, located⟩ := yields_prefixDecl _ _ _ read
  unfold prefixDecl at read
  obtain ⟨afterWord, keyword, read⟩ := Option.bind_eq_some_iff.1 read
  obtain ⟨⟨name, afterName⟩, found, read⟩ := Option.bind_eq_some_iff.1 read
  obtain ⟨⟨uri, afterUri⟩, found', read⟩ := Option.bind_eq_some_iff.1 read
  cases read
  obtain ⟨word, upper, split⟩ := Token.keyword_eq_some _ keyword
  have named' := Token.prefixName_eq_some found
  have located' := Token.uri_eq_some found'
  have token : skip afterWord ≠ [] := by
    rw [named']
    exact List.append_ne_nil_of_right_ne_nil _ (List.cons_ne_nil _ _)
  have token' : skip afterName ≠ [] := by
    rw [located']
    exact List.cons_ne_nil _ _
  obtain ⟨beforeName, spaced, filled⟩ := Token.exists_fill_skip token
  obtain ⟨beforeUri, spaced', filled'⟩ := Token.exists_fill_skip token'
  have formed : Declaration.WellFormed ⟨word, beforeName, name, beforeUri, uri⟩ :=
    ⟨upper, fun f mem => (spaced f mem).formed, named, fun f mem => (spaced' f mem).formed, located⟩
  refine ⟨_, ⟨formed, List.forall_mem_append.2 ⟨spaced, spaced'⟩⟩, ?_⟩
  rw [split, filled, named', filled', located', Declaration.chars, Declaration.label]
  simp

/-- What is read as declarations, one after the other, is the text of some pieces. -/
theorem exists_preamble_manyUpTo (n : Nat) : ∀ text : List Char, ∃ pieces : List Piece,
    (∀ p ∈ pieces, p.Read) ∧ text = preamble pieces ++ (manyUpTo prefixDecl n text).2 := by
  induction n with
  | zero => exact fun text => ⟨[], List.forall_mem_nil _, rfl⟩
  | succ n ih =>
      intro text
      cases read : prefixDecl (skip text) with
      | none =>
          rw [manyUpTo_stop _ read]
          exact ⟨[], List.forall_mem_nil _, rfl⟩
      | some pair =>
          rcases pair with ⟨entry, rest⟩
          have token : skip text ≠ [] := by
            intro none
            rw [none] at read
            cases read
          obtain ⟨fillers, spaced, filled⟩ := Token.exists_fill_skip token
          obtain ⟨d, formed, found⟩ := exists_declaration read
          obtain ⟨pieces, later, split⟩ := ih rest
          refine ⟨fillers.map .filler ++ .declaration d :: pieces, ?_, ?_⟩
          · rw [List.forall_mem_append, List.forall_mem_map, List.forall_mem_cons]
            exact ⟨fun f mem => (spaced f mem).piece, formed, later⟩
          · rw [manyUpTo_step n read, preamble_append, preamble_fillers, preamble_cons,
              List.append_assoc, List.append_assoc, ← split, Piece.chars, ← found, ← filled]

/-- In front of SELECT the grammar reads nothing but pieces. -/
theorem exists_preamble {text : List Char} {c : Clauses} (read : clauses text = some c) :
    ∃ (pieces : List Piece) (word rest : List Char), (∀ p ∈ pieces, p.Read) ∧
      word.map Char.toUpper = "SELECT".toList ∧ text = preamble pieces ++ (word ++ rest) := by
  obtain ⟨pieces, formed, split⟩ := exists_preamble_manyUpTo text.length text
  change text = preamble pieces ++ (many prefixDecl text).2 at split
  unfold clauses at read
  obtain ⟨rest, keyword, -⟩ := Option.bind_eq_some_iff.1 read
  change Token.keyword "SELECT".toList (skip (many prefixDecl text).2) = some rest at keyword
  obtain ⟨word, upper, selected⟩ := Token.keyword_eq_some _ keyword
  have token : skip (many prefixDecl text).2 ≠ [] := by
    intro none
    rw [none] at keyword
    cases keyword
  obtain ⟨fillers, spaced, filled⟩ := Token.exists_fill_skip token
  refine ⟨pieces ++ fillers.map .filler, word, rest, ?_, upper, ?_⟩
  · rw [List.forall_mem_append, List.forall_mem_map]
    exact ⟨formed, fun f mem => (spaced f mem).piece⟩
  · rw [preamble_append, preamble_fillers, List.append_assoc, ← selected, ← filled, ← split]

end Grammar

end RdfStore.Query
