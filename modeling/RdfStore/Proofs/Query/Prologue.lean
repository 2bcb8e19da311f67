import RdfStore.Proofs.Query.Keyword

/-!
# One more piece in the prologue

Behind pieces that it reads, the grammar goes on as if the text began there, and has their prefixes in
front of those of the text (`Grammar.clauses_preamble`). So a query text with more pieces in its
prologue is read as the same query with their prefixes among its own, unless it is refused for another
form (`parse_inserted`): the form check sees other comments than the grammar. The repetition that reads
the declarations is bounded by the length of the text, and a longer text makes no difference to it
(`Grammar.manyUpTo_congr`).
-/

namespace RdfStore.Query

/-! ## Reading a piece -/

namespace Token

theorem skipFrom_comment {body : List Char} (plain : OneLine body) (ending : LineEnd)
    (rest : List Char) : skipFrom true (body ++ (ending.chars ++ rest)) = skip rest := by
  induction body with
  | nil => cases ending <;> rfl
  | cons c body ih =>
      obtain ⟨inside, plain⟩ := oneLine_cons.1 plain
      rw [List.cons_append, skipFrom, inside]
      exact ih plain

theorem skip_filler {f : Filler} (read : f.Read) (rest : List Char) :
    skip (f.chars ++ rest) = skip rest := by
  cases f with
  | blank c => exact if_pos read
  | comment body ending =>
      rw [Filler.chars, List.cons_append, List.append_assoc]
      exact skipFrom_comment read ending rest

theorem skip_fill {fillers : List Filler} (read : ∀ f ∈ fillers, f.Read) (rest : List Char) :
    skip (fill fillers ++ rest) = skip rest := by
  induction fillers with
  | nil => rfl
  | cons f fillers ih =>
      obtain ⟨first, others⟩ := List.forall_mem_cons.1 read
      rw [fill_cons, List.append_assoc, skip_filler first, ih others]

theorem skip_word {word : List Char} (filled : word ≠ []) (letters : ∀ c ∈ word, c.isAlpha = true)
    (rest : List Char) : skip (word ++ rest) = word ++ rest := by
  cases word with
  | nil => exact absurd rfl filled
  | cons c word =>
      have letter := letters c List.mem_cons_self
      have space : ¬isSpace c = true := by
        intro space
        have other := isBlank_of_isAlpha letter
        rw [isBlank_of_isSpace space] at other
        cases other
      have hash : c ≠ '#' := by
        rintro rfl
        cases letter
      rw [List.cons_append, skip, skipFrom, if_neg space, if_neg hash]

theorem keyword_written {word : List Char} (rest : List Char) :
    ∀ {letters : List Char}, letters.map Char.toUpper = word →
      keyword word (letters ++ rest) = some rest := by
  induction word with
  | nil =>
      intro letters upper
      rw [List.map_eq_nil_iff.1 upper]
      rfl
  | cons k word ih =>
      intro letters upper
      cases letters with
      | nil => cases upper
      | cons c letters =>
          obtain ⟨first, others⟩ := List.cons.inj upper
          rw [List.cons_append, keyword, if_pos first, ih others]

end Token

namespace Grammar

open Text (Scan)
open Token (skip)

theorem prefixDecl_declaration {d : Declaration} (read : (Piece.declaration d).Read)
    (rest : List Char) : prefixDecl (skip (d.chars ++ rest)) = some ((d.name, d.uri), rest) := by
  obtain ⟨formed, spaced⟩ := read
  obtain ⟨beforeName, beforeUri⟩ := List.forall_mem_append.1 spaced
  obtain ⟨filled, letters⟩ := letters_of_known (by decide) formed.word
  have split : d.chars ++ rest = d.word ++ (fill d.beforeName ++ (d.name.toList ++ ':' ::
      (fill d.beforeUri ++ (Written.uri d.uri ++ rest)))) := by
    simp [Declaration.chars, Declaration.label]
  rw [split, Token.skip_word filled letters, prefixDecl, Token.keyword_written _ formed.word]
  simp only [Option.bind_eq_bind, Option.bind_some, Token.skip_fill beforeName,
    Token.skip_fill beforeUri, skip_prefixName _ formed.name, Token.prefixName_written _ formed.name,
    Token.skip_uri, Token.uri_written rest formed.uri, Option.pure_def]

/-! ## What a declaration takes -/

theorem length_skipFrom (text : List Char) :
    ∀ inside, (Token.skipFrom inside text).length ≤ text.length := by
  induction text with
  | nil => intro inside; cases inside <;> exact Nat.le_refl 0
  | cons c rest ih =>
      intro inside
      rw [List.length_cons]
      cases inside with
      | true => exact Nat.le_succ_of_le (ih _)
      | false =>
          unfold Token.skipFrom
          split
          · exact Nat.le_succ_of_le (ih _)
          · split
            · exact Nat.le_succ_of_le (ih _)
            · exact Nat.le_refl _

/-- A declaration takes at least its keyword from the text. -/
theorem length_prefixDecl {entry : String × String} {text rest : List Char}
    (read : prefixDecl (skip text) = some (entry, rest)) : rest.length < text.length := by
  obtain ⟨d, ⟨formed, -⟩, split⟩ := exists_declaration read
  obtain ⟨filled, -⟩ := letters_of_known (by decide) formed.word
  have word := List.length_pos_iff.2 filled
  have skipped := length_skipFrom text false
  have taken := congrArg List.length split
  rw [Declaration.chars, List.length_append, List.length_append] at taken
  unfold skip at taken
  omega

/-! ## Repetitions -/

section

variable {α : Type} {part : Scan α}
  (takes : ∀ {text found rest}, part (skip text) = some (found, rest) → rest.length < text.length)

include takes

/-- A repetition of parts that take something depends neither on its bound, if the length of the text
is within it, nor on the blanks and comments in front. -/
theorem manyUpTo_congr (n : Nat) :
    ∀ {m : Nat} {text text' : List Char}, skip text = skip text' → text.length ≤ n →
      text'.length ≤ m →
      (manyUpTo part n text).1 = (manyUpTo part m text').1 ∧
        skip (manyUpTo part n text).2 = skip (manyUpTo part m text').2 := by
  have stops {text : List Char} (empty : text.length ≤ 0) : part (skip text) = none := by
    cases read : part (skip text) with
    | none => rfl
    | some pair =>
        have shorter := takes read
        omega
  -- Both texts are at the same token, so the two repetitions step or stop together.
  induction n with
  | zero =>
      intro m text text' same short _
      have stop := stops short
      rw [manyUpTo_stop 0 stop, manyUpTo_stop m (same ▸ stop)]
      exact ⟨rfl, same⟩
  | succ n ih =>
      intro m text text' same short short'
      cases read : part (skip text) with
      | none =>
          rw [manyUpTo_stop _ read, manyUpTo_stop m (same ▸ read)]
          exact ⟨rfl, same⟩
      | some pair =>
          rcases pair with ⟨first, rest⟩
          have read' : part (skip text') = some (first, rest) := same ▸ read
          have left := takes read
          have right := takes read'
          obtain ⟨k, rfl⟩ : ∃ k, m = k + 1 := ⟨m - 1, by omega⟩
          obtain ⟨found, behind⟩ := ih (m := k) (rfl : skip rest = skip rest) (by omega) (by omega)
          rw [manyUpTo_step n read, manyUpTo_step k read']
          exact ⟨congrArg (first :: ·) found, behind⟩

/-- Blanks and comments in front make no difference to a repetition. -/
theorem many_congr {text text' : List Char} (same : skip text = skip text') :
    (many part text).1 = (many part text').1 ∧ skip (many part text).2 = skip (many part text').2 :=
  manyUpTo_congr takes _ same (Nat.le_refl _) (Nat.le_refl _)

/-- Behind the first of its parts a repetition goes on as it does alone. -/
theorem many_step {text rest : List Char} {first : α}
    (read : part (skip text) = some (first, rest)) :
    (many part text).1 = first :: (many part rest).1 ∧
      skip (many part text).2 = skip (many part rest).2 := by
  have shorter := takes read
  obtain ⟨n, length⟩ : ∃ n, text.length = n + 1 := ⟨text.length - 1, by omega⟩
  obtain ⟨found, behind⟩ :=
    manyUpTo_congr takes n (rfl : skip rest = skip rest) (by omega) (Nat.le_refl _)
  rw [many, length, manyUpTo_step n read]
  exact ⟨congrArg (first :: ·) found, behind⟩

end

/-- Of the pieces in front of a text the declarations are read, and then those of the text. -/
theorem many_preamble {pieces : List Piece} (read : ∀ p ∈ pieces, p.Read) (rest : List Char) :
    (many prefixDecl (preamble pieces ++ rest)).1 =
        declaredEntries pieces ++ (many prefixDecl rest).1 ∧
      skip (many prefixDecl (preamble pieces ++ rest)).2 = skip (many prefixDecl rest).2 := by
  induction pieces with
  | nil => exact ⟨rfl, rfl⟩
  | cons p pieces ih =>
      obtain ⟨first, others⟩ := List.forall_mem_cons.1 read
      obtain ⟨found, behind⟩ := ih others
      rw [preamble_cons, List.append_assoc, ← behind, declaredEntries, List.filterMap_cons]
      cases p with
      | filler f =>
          have spaced : f.Read := first.spaced f (List.mem_singleton_self f)
          obtain ⟨same, next⟩ := many_congr length_prefixDecl
            (Token.skip_filler spaced (preamble pieces ++ rest))
          exact ⟨same.trans found, next⟩
      | declaration d =>
          obtain ⟨same, next⟩ := many_step length_prefixDecl
            (prefixDecl_declaration first (preamble pieces ++ rest))
          exact ⟨same.trans (congrArg ((d.name, d.uri) :: ·) found), next⟩

/-- Behind pieces a text has the clauses that it has alone, with the prefixes of the pieces in front of
its own. -/
theorem clauses_preamble {pieces : List Piece} (read : ∀ p ∈ pieces, p.Read) (rest : List Char) :
    clauses (preamble pieces ++ rest) = (clauses rest).map fun c =>
      { c with prefixes := declaredEntries pieces ++ c.prefixes } := by
  obtain ⟨found, behind⟩ := many_preamble read rest
  unfold clauses
  dsimp only [Option.bind_eq_bind, Option.pure_def]
  rw [found, behind, Option.map_bind]
  refine Option.bind_congr fun selected _ => ?_
  rw [Function.comp_apply, Option.map_bind]
  refine Option.bind_congr fun projection _ => ?_
  rw [Function.comp_apply, Option.map_bind]
  refine Option.bind_congr fun group _ => ?_
  rw [Function.comp_apply]
  split <;> rfl

end Grammar

/-! ## The query -/

/-- A text that is not refused for its form is the query that its clauses make. -/
theorem parse_eq_toSelect {text : String} {c : Clauses}
    (accepted : ∀ keyword, parse text ≠ .error (.form keyword))
    (read : Grammar.clauses text.toList = some c) : parse text = c.toSelect := by
  cases form : formOf text.toList with
  | other keyword => exact absurd (parse_eq_form_iff.2 form) (accepted keyword)
  | select | unknown => rw [parse, form, read]

theorem toSelect_prefixes {c : Clauses} {q : Select} (made : c.toSelect = .ok q)
    (prefixes : List (String × String)) :
    Clauses.toSelect { c with prefixes } = .ok { q with prefixes } := by
  obtain ⟨filter, sole, filled, rfl⟩ := toSelect_eq_ok made
  unfold Clauses.toSelect
  dsimp only
  rw [sole]
  exact if_neg filled

/-- With more pieces in its prologue a query text is read as the same query with the prefixes of the
pieces among its own. -/
theorem parse_inserted {text text' : String} {q : Select} {before added : List Piece}
    {rest : List Char} (read : parse text = .ok q)
    (split : text.toList = preamble before ++ rest)
    (split' : text'.toList = preamble (before ++ added) ++ rest)
    (grammatical : ∀ p ∈ before ++ added, p.Read)
    (accepted : ∀ keyword, parse text' ≠ .error (.form keyword)) :
    ∃ later, q.prefixes = declaredEntries before ++ later ∧
      parse text' =
        .ok { q with prefixes := declaredEntries before ++ (declaredEntries added ++ later) } := by
  obtain ⟨c, front, made⟩ := parse_eq_ok read
  obtain ⟨_, -, -, query⟩ := toSelect_eq_ok made
  rw [split, Grammar.clauses_preamble fun p mem => grammatical p (List.mem_append_left _ mem)]
    at front
  obtain ⟨alone, behind, rfl⟩ := Option.map_eq_some_iff.1 front
  have front' := Grammar.clauses_preamble grammatical rest
  rw [← split', behind, Option.map_some] at front'
  refine ⟨alone.prefixes, congrArg Select.prefixes query, ?_⟩
  rw [parse_eq_toSelect accepted front', declaredEntries, List.filterMap_append, List.append_assoc]
  exact toSelect_prefixes made _

end RdfStore.Query
