import RdfStore.Proofs.Query.Comments
import RdfStore.Proofs.Query.Lexeme

/-!
# Lexemes and the search for comments

The search for comments knows no lexemes. It cuts every line at its last `#`, unless more brackets are
open than closed there. It takes away the comments and nothing else where the lexemes are tidy (`tidy`):
no `#` inside another lexeme is taken for a comment, and no comment has a second `#`, stands behind an
open bracket or ends with a lone return.

* `exists_thinned`: what is left of tidy lexemes are the same lexemes without the comments, and without
  some of the blanks in front of a line feed or at the end.
-/

namespace RdfStore.Query

/-! ## Tidy lexemes -/

/-- Nothing of the line is taken for a comment. -/
def uncut (line : List Char) : Bool :=
  match Text.cutLast? '#' line with
  | some (before, _) => decide (before.count '>' < before.count '<')
  | none => true

/-- The open line behind a text; the first argument is the one in front of it. -/
def openLine : List Char → List Char → List Char
  | line, [] => line
  | line, c :: text => if c = '\n' then openLine [] text else openLine (line ++ [c]) text

/-- Nothing of the lines that a text closes is taken for a comment. -/
def uncutLines : List Char → List Char → Bool
  | _, [] => true
  | line, c :: text =>
    if c = '\n' then uncut line && uncutLines [] text else uncutLines (line ++ [c]) text

/-- What is taken for a comment are the comments. In front of one no bracket is open on its line, and
behind it only blanks stand there. The first argument is the open line, which is missing behind a
comment. -/
def tidy : Option (List Char) → List Lexeme → Bool
  | some line, [] => uncut line
  | none, [] => true
  | some line, .comment body :: rest =>
    decide (line.count '<' ≤ line.count '>') && !body.contains '#' && tidy none rest
  | some line, x :: rest => uncutLines line x.chars && tidy (some (openLine line x.chars)) rest
  | none, .blank c :: rest => if c = '\n' then tidy (some []) rest else tidy none rest
  | none, _ :: _ => false

/-! ## Line by line -/

theorem codeOfLine_of_uncut {line : List Char} (h : uncut line = true) : codeOfLine line = line := by
  rw [uncut] at h
  rw [codeOfLine]
  cases cut : Text.cutLast? '#' line with
  | none => rfl
  | some parts =>
      rw [cut] at h
      exact if_neg (Nat.not_le.2 (of_decide_eq_true h))

theorem uncut_of_return {line : List Char} (h : uncut (line ++ ['\r']) = true) :
    uncut line = true := by
  rw [uncut] at h ⊢
  cases cut : Text.cutLast? '#' line with
  | none => rfl
  | some parts =>
      obtain ⟨before, after⟩ := parts
      obtain ⟨rfl, last⟩ := Text.cutLast?_eq_some cut
      have cut' := Text.cutLast?_append (List.not_mem_append last (by decide : '#' ∉ ['\r'])) before
      rw [List.append_assoc, List.cons_append, cut'] at h
      exact h

/-- What closes a line is taken from it alone. -/
theorem codeOf_feed {line : List Char} (noFeed : '\n' ∉ line) (more : List Char) :
    codeOf (line ++ '\n' :: more) = codeOfLine (Text.dropReturn line) ++ codeOf ('\n' :: more) := by
  by_cases filled : more = []
  · rw [filled, codeOf, Text.lines_append noFeed]
    exact (List.append_nil _).symm
  · have next := @codeOf_line [] more List.not_mem_nil filled
    rw [List.nil_append] at next
    rw [codeOf_line noFeed filled, next]
    rfl

/-- Of lines in which nothing is taken for a comment all but the open one are done. -/
theorem codeOf_openLine (text : List Char) : ∀ {line : List Char}, '\n' ∉ line →
    uncutLines line text = true → ¬ ['\r', '\n'] <:+: line ++ text →
    '\n' ∉ openLine line text ∧ ∃ done, line ++ text = done ++ openLine line text ∧
      ∀ more, text.getLast? ≠ some '\n' ∨ more ≠ [] →
        codeOf (line ++ (text ++ more)) = done ++ codeOf (openLine line text ++ more) := by
  induction text with
  | nil =>
      intro line noFeed _ _
      exact ⟨noFeed, [], List.append_nil line, fun more _ => rfl⟩
  | cons c text ih =>
      intro line noFeed kept unbroken
      by_cases feed : c = '\n'
      · subst feed
        rw [uncutLines, if_pos rfl, Bool.and_eq_true] at kept
        rw [openLine, if_pos rfl]
        have unbroken' : ¬ ['\r', '\n'] <:+: [] ++ text :=
          fun part => unbroken (part.trans ⟨line ++ ['\n'], [], by simp⟩)
        obtain ⟨noFeed', done, split, code⟩ := ih List.not_mem_nil kept.2 unbroken'
        have noReturn : Text.dropReturn line = line :=
          if_neg fun last => unbroken (pair_infix_append.2 (Or.inr (Or.inr ⟨last, rfl⟩)))
        refine ⟨noFeed', line ++ '\n' :: done, ?_, fun more open_ => ?_⟩
        · rw [List.append_assoc, List.cons_append, ← split, List.nil_append]
        · have open' : text.getLast? ≠ some '\n' ∨ more ≠ [] := by
            refine open_.imp_left fun last same => last ?_
            rw [List.getLast?_cons, same]
            rfl
          have filled : text ++ more ≠ [] := by
            rcases open_ with last | more
            · refine List.append_ne_nil_of_left_ne_nil ?_ more
              rintro rfl
              exact last rfl
            · exact List.append_ne_nil_of_right_ne_nil text more
          rw [List.cons_append, codeOf_line noFeed filled, noReturn, codeOfLine_of_uncut kept.1,
            List.append_assoc, List.cons_append, ← code more open', List.nil_append]
      · rw [uncutLines, if_neg feed] at kept
        rw [openLine, if_neg feed]
        have noFeed' : '\n' ∉ line ++ [c] :=
          List.not_mem_append noFeed fun mem => feed (List.mem_singleton.1 mem).symm
        have same (more : List Char) : line ++ c :: more = line ++ [c] ++ more := by simp
        rw [same] at unbroken
        obtain ⟨noFeed'', done, split, code⟩ := ih noFeed' kept unbroken
        refine ⟨noFeed'', done, (same text).trans split, fun more open_ => ?_⟩
        rw [List.cons_append, same]
        refine code more (open_.imp_left fun last same => last ?_)
        rw [List.getLast?_cons, same]
        rfl

/-- Some of the gaps are missing: all comments, and blanks where a line or the text ends. -/
inductive Thinned : List Lexeme → List Lexeme → Prop
  | nil : Thinned [] []
  | keep {x : Lexeme} {all left : List Lexeme} :
    (∀ body, x ≠ .comment body) → Thinned all left → Thinned (x :: all) (x :: left)
  | drop {x : Lexeme} {all left : List Lexeme} :
    x.IsGap → (∀ y ∈ left.head?, y = .blank '\n') → Thinned all left → Thinned (x :: all) left

theorem Thinned.head_of_feed {all left : List Lexeme} (h : Thinned (.blank '\n' :: all) left) :
    ∀ y ∈ left.head?, y = .blank '\n' := by
  cases h with
  | keep => exact fun y first => (Option.some.inj first).symm
  | drop _ ends => exact ends

/-- Behind an open line the cut leaves the lexemes. -/
def Survives (line : List Char) (lexemes : List Lexeme) : Prop :=
  ∃ left, Thinned lexemes left ∧ codeOf (line ++ spelled lexemes) = line ++ spelled left

/-- Behind a comment the cut leaves the lexemes from the next line on. -/
def SurvivesComment (lexemes : List Lexeme) : Prop :=
  ∃ left, Thinned lexemes left ∧ (∀ y ∈ left.head?, y = .blank '\n') ∧
    ∀ line body : List Char, '\n' ∉ line → line.count '<' ≤ line.count '>' → '\n' ∉ body → '#' ∉ body →
      codeOf (line ++ '#' :: (body ++ spelled lexemes)) = line ++ spelled left

section

variable {line : List Char} {rest : List Lexeme}

theorem survives_feed (formed : ∀ x ∈ rest, x.WellFormed) (h : Survives [] rest) :
    Survives [] (.blank '\n' :: rest) := by
  obtain ⟨left, thinned, code⟩ := h
  cases rest with
  | nil => exact ⟨[], .drop trivial (fun _ none => by cases none) .nil, rfl⟩
  | cons x rest =>
      refine ⟨.blank '\n' :: left, .keep (fun _ => nofun) thinned, ?_⟩
      have filled : spelled (x :: rest) ≠ [] :=
        List.append_ne_nil_of_left_ne_nil (formed x List.mem_cons_self).chars_ne_nil _
      exact (@codeOf_line [] _ List.not_mem_nil filled).trans (congrArg ('\n' :: ·) code)

/-- A line feed closes the line. -/
theorem Survives.close (h : Survives [] (.blank '\n' :: rest)) (noFeed : '\n' ∉ line)
    {kept : List Char} (code : codeOfLine (Text.dropReturn line) = kept) :
    ∃ left, Thinned (.blank '\n' :: rest) left ∧ (∀ y ∈ left.head?, y = .blank '\n') ∧
      codeOf (line ++ '\n' :: spelled rest) = kept ++ spelled left := by
  obtain ⟨left, thinned, code'⟩ := h
  refine ⟨left, thinned, thinned.head_of_feed, ?_⟩
  rw [codeOf_feed noFeed, code]
  exact congrArg (kept ++ ·) code'

/-- The line of a comment goes on to the next line feed. -/
theorem survivesComment_feed (h : Survives [] (.blank '\n' :: rest)) :
    SurvivesComment (.blank '\n' :: rest) := by
  obtain ⟨left, thinned, code⟩ := h
  refine ⟨left, thinned, thinned.head_of_feed, ?_⟩
  intro line body noFeed few noFeed' noSign
  have last : (line ++ ['#']).getLast? ≠ some '\r' := by simp
  obtain ⟨front, part, dropped⟩ := dropReturn_append last body
  have cut : codeOfLine (line ++ ['#'] ++ front) = line := by
    rw [List.append_assoc, List.singleton_append, codeOfLine,
      Text.cutLast?_append fun mem => noSign (part.subset mem)]
    exact if_pos few
  have split : line ++ '#' :: (body ++ spelled (.blank '\n' :: rest)) =
      (line ++ ['#'] ++ body) ++ '\n' :: spelled rest := by simp [spelled_cons, Lexeme.chars]
  have noFeed'' : '\n' ∉ line ++ ['#'] ++ body :=
    List.not_mem_append (List.not_mem_append noFeed (by decide)) noFeed'
  rw [split, codeOf_feed noFeed'', dropped, cut]
  exact congrArg (line ++ ·) code

theorem survivesComment_blank {c : Char} (space : Token.isSpace c = true) (other : c ≠ '\n')
    (h : SurvivesComment rest) : SurvivesComment (.blank c :: rest) := by
  obtain ⟨left, thinned, ends, code⟩ := h
  refine ⟨left, .drop trivial ends thinned, ends, ?_⟩
  intro line body noFeed few noFeed' noSign
  have sign : '#' ≠ c := by
    rintro rfl
    cases space
  have code' := code line (body ++ [c]) noFeed few
    (List.not_mem_append noFeed' fun mem => other (List.mem_singleton.1 mem).symm)
    (List.not_mem_append noSign fun mem => sign (List.mem_singleton.1 mem))
  rwa [List.append_assoc] at code'

end

theorem survives_nil {line : List Char} (noFeed : '\n' ∉ line) (kept : uncut line = true) :
    Survives line [] := by
  refine ⟨[], .nil, ?_⟩
  cases line with
  | nil => rfl
  | cons c line =>
      simp only [spelled, List.flatMap_nil, List.append_nil]
      rw [codeOf, Text.lines_of_not_mem noFeed (List.cons_ne_nil c line), List.map_singleton,
        codeOfLine_of_uncut kept]
      rfl

theorem survivesComment_nil : SurvivesComment [] := by
  refine ⟨[], .nil, fun y first => (by cases first), fun line body noFeed few noFeed' noSign => ?_⟩
  have noFeed'' : '\n' ∉ line ++ '#' :: body :=
    List.not_mem_append noFeed (List.not_mem_cons_of_ne_of_not_mem (by decide) noFeed')
  simp only [spelled, List.flatMap_nil, List.append_nil]
  rw [codeOf, Text.lines_of_not_mem noFeed'' (by simp), List.map_singleton, codeOfLine,
    Text.cutLast?_append noSign]
  exact if_pos few

theorem tidy_token {x : Lexeme} (token : ∀ body, x ≠ .comment body) (line : List Char)
    (rest : List Lexeme) : tidy (some line) (x :: rest) =
      (uncutLines line x.chars && tidy (some (openLine line x.chars)) rest) := by
  cases x with
  | comment body => exact absurd rfl (token body)
  | _ => rfl

theorem tidy_feed (line : List Char) (rest : List Lexeme) :
    tidy (some line) (.blank '\n' :: rest) = (uncut line && tidy (some []) rest) := by
  rw [tidy_token (x := .blank '\n') (fun _ => nofun), Lexeme.chars, uncutLines, if_pos rfl,
    uncutLines, openLine, if_pos rfl, openLine, Bool.and_true]

theorem tidy_blank {c : Char} (other : c ≠ '\n') (line : List Char) (rest : List Lexeme) :
    tidy (some line) (.blank c :: rest) = tidy (some (line ++ [c])) rest := by
  rw [tidy_token (x := .blank c) (fun _ => nofun), Lexeme.chars, uncutLines, if_neg other,
    uncutLines, openLine, if_neg other, openLine, Bool.true_and]

/-- Tidy lexemes survive behind every open line. A return at its end must not be one that belongs to
the end of the line. -/
def Surviving (lexemes : List Lexeme) : Prop :=
  ∀ line : List Char, '\n' ∉ line →
    line.getLast? ≠ some '\r' ∨ lexemes.head? ≠ some (.blank '\n') →
    tidy (some line) lexemes = true → Survives line lexemes

namespace Surviving

variable {rest : List Lexeme}

theorem start (h : Surviving rest) (tidied : tidy (some []) rest = true) : Survives [] rest :=
  h [] List.not_mem_nil (Or.inl (by simp)) tidied

theorem comment (behind : tidy none rest = true → SurvivesComment rest) {body : List Char}
    (oneLine : OneLine body) : Surviving (.comment body :: rest) := by
  intro line noFeed _ tidied
  simp only [tidy, Bool.and_eq_true, decide_eq_true_eq, Bool.not_eq_true', List.contains_eq_mem,
    decide_eq_false_iff_not] at tidied
  obtain ⟨⟨few, noSign⟩, tidied⟩ := tidied
  obtain ⟨left, thinned, ends, code⟩ := behind tidied
  have noFeed' : '\n' ∉ body := fun mem => by cases oneLine _ mem
  exact ⟨left, .drop trivial ends thinned, code line body noFeed few noFeed' noSign⟩

theorem feed (h : Surviving rest) (formed : ∀ x ∈ rest, x.WellFormed) :
    Surviving (.blank '\n' :: rest) := by
  intro line noFeed separate tidied
  rw [tidy_feed, Bool.and_eq_true] at tidied
  obtain ⟨kept, tidied⟩ := tidied
  have noReturn : Text.dropReturn line = line := if_neg (separate.resolve_right fun h => h rfl)
  obtain ⟨left, thinned, -, code⟩ := (survives_feed formed (h.start tidied)).close noFeed
    (congrArg codeOfLine noReturn)
  rw [codeOfLine_of_uncut kept] at code
  exact ⟨left, thinned, code⟩

theorem blank (h : Surviving rest) {c : Char} (other : c ≠ '\n') :
    Surviving (.blank c :: rest) := by
  intro line noFeed _ tidied
  have noFeed' : '\n' ∉ line ++ [c] :=
    List.not_mem_append noFeed fun mem => other (List.mem_singleton.1 mem).symm
  rw [tidy_blank other] at tidied
  by_cases ends : c = '\r' ∧ rest.head? = some (.blank '\n')
  · -- the return belongs to the end of the line, and is dropped
    obtain ⟨rfl, first⟩ := ends
    obtain ⟨more, rfl⟩ : ∃ more, rest = .blank '\n' :: more := List.head?_eq_some_iff.1 first
    rw [tidy_feed, Bool.and_eq_true] at tidied
    obtain ⟨kept, tidied⟩ := tidied
    have next : tidy (some []) (.blank '\n' :: more) = true := by
      rw [tidy_feed, tidied]
      rfl
    have cut : codeOfLine (Text.dropReturn (line ++ ['\r'])) = line := by
      rw [dropReturn_concat, codeOfLine_of_uncut (uncut_of_return kept)]
    obtain ⟨left, thinned, ends, code⟩ := (h.start next).close noFeed' cut
    refine ⟨left, .drop trivial ends thinned, ?_⟩
    rwa [List.append_assoc] at code
  · have separate : (line ++ [c]).getLast? ≠ some '\r' ∨ rest.head? ≠ some (.blank '\n') := by
      rw [List.getLast?_concat, ne_eq, Option.some.injEq]
      exact not_and_or.1 ends
    obtain ⟨left, thinned, code⟩ := h _ noFeed' separate tidied
    refine ⟨.blank c :: left, .keep (fun _ => nofun) thinned, ?_⟩
    rw [List.append_assoc, List.append_assoc] at code
    exact code

theorem token (h : Surviving rest) {x : Lexeme} (formed : x.WellFormed) (token : ¬ x.IsGap) :
    Surviving (x :: rest) := by
  intro line noFeed _ tidied
  have noComment : ∀ body, x ≠ .comment body := fun body same => token (same ▸ trivial)
  obtain ⟨⟨first, first_, apart⟩, ⟨last, last_, inside⟩, unbroken⟩ := formed.solid token
  have plain : last ≠ '\n' ∧ last ≠ '\r' := by
    constructor <;> (rintro rfl; cases inside)
  have unbroken' : ¬ ['\r', '\n'] <:+: line ++ x.chars := by
    rw [pair_infix_append]
    rintro (before | within | ⟨-, meets⟩)
    · exact noFeed (before.subset (List.mem_cons_of_mem _ List.mem_cons_self))
    · exact unbroken within
    · rw [first_] at meets
      exact apart (Option.some.inj meets)
  rw [tidy_token noComment, Bool.and_eq_true] at tidied
  obtain ⟨kept, tidied⟩ := tidied
  obtain ⟨noFeed', done, split, code⟩ := codeOf_openLine x.chars noFeed kept unbroken'
  have last' : (openLine line x.chars).getLast? ≠ some '\r' := by
    intro return_
    have whole : (line ++ x.chars).getLast? = some '\r' := by
      rw [split, List.getLast?_append, return_]
      rfl
    rw [List.getLast?_append, last_] at whole
    exact plain.2 (Option.some.inj whole)
  obtain ⟨left, thinned, code'⟩ := h _ noFeed' (Or.inl last') tidied
  refine ⟨x :: left, .keep noComment thinned, ?_⟩
  have open_ : x.chars.getLast? ≠ some '\n' := fun same =>
    plain.1 (Option.some.inj (last_.symm.trans same))
  rw [spelled_cons, spelled_cons, code _ (Or.inl open_), code', ← List.append_assoc, ← split,
    List.append_assoc]

end Surviving

/-- Tidy lexemes survive the cut. -/
theorem surviving (lexemes : List Lexeme) (formed : ∀ x ∈ lexemes, x.WellFormed) :
    Surviving lexemes ∧ (tidy none lexemes = true → SurvivesComment lexemes) := by
  induction lexemes with
  | nil =>
      refine ⟨fun line noFeed _ kept => survives_nil noFeed ?_, fun _ => survivesComment_nil⟩
      rwa [tidy] at kept
  | cons x rest ih =>
      obtain ⟨formed, others⟩ := List.forall_mem_cons.1 formed
      obtain ⟨open_, behind⟩ := ih others
      by_cases gap : x.IsGap
      · cases x with
        | blank c =>
            by_cases feed : c = '\n'
            · subst feed
              refine ⟨open_.feed others, fun tidied => survivesComment_feed ?_⟩
              exact survives_feed others (open_.start tidied)
            · refine ⟨open_.blank feed, fun tidied => survivesComment_blank formed feed (behind ?_)⟩
              rwa [tidy, if_neg feed] at tidied
        | comment body => exact ⟨.comment behind formed, nofun⟩
        | _ => exact gap.elim
      · refine ⟨open_.token formed gap, fun tidied => ?_⟩
        cases x with
        | blank => exact absurd trivial gap
        | _ => cases tidied

/-- What is left of tidy lexemes are the same lexemes without the comments, and without some of the
blanks in front of a line feed or at the end. -/
theorem exists_thinned {lexemes : List Lexeme} (formed : ∀ x ∈ lexemes, x.WellFormed)
    (tidied : tidy (some []) lexemes = true) :
    ∃ left, Thinned lexemes left ∧ codeOf (spelled lexemes) = spelled left :=
  (surviving lexemes formed).1.start tidied

end RdfStore.Query
