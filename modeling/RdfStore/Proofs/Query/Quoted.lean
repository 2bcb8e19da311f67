import RdfStore.Query.Token

/-!
# Escaped values between quotes

The writer of escapes, the rule for strings and the reader of escapes are three loops with a table
each. The rule is a repetition (`Token.BodyReads`): it takes a backslash together with the character
behind it, or a character that is neither the quote nor a backslash nor a line feed, for as long as
one of these is there. The scanner does just that (`Token.quotedBody_eq_iff`).

The three loops fit together (`Token.escaped_read_back`): whatever stands behind the closing quote,
an escaped value is all that the rule takes, and it is read as the value. The writer makes one piece
of each character, so that no escaped value ends in the middle of a piece.
-/

namespace RdfStore.Query.Token

/-- What the rule for strings takes at once. -/
inductive BodyPiece (quote : Char) : List Char → Prop
  | pair (c : Char) : BodyPiece quote ['\\', c]
  | plain {c : Char} : c ≠ quote → c ≠ '\\' → c ≠ '\n' → BodyPiece quote [c]

/-- The rule takes a body from the front of a text and leaves a rest: pieces until none is there. -/
inductive BodyReads (quote : Char) : List Char → List Char → List Char → Prop
  | stop {text : List Char} :
    (∀ piece, BodyPiece quote piece → ¬ piece <+: text) → BodyReads quote text [] text
  | step {piece text body rest : List Char} :
    BodyPiece quote piece → BodyReads quote text body rest →
    BodyReads quote (piece ++ text) (piece ++ body) rest

section Rule

variable {quote : Char} {text body rest : List Char}

/-- No piece starts with the quote, a line feed or a backslash that is the last character. -/
theorem BodyReads.of_stopper {c : Char} (last : c = '\\' → text = [])
    (stops : c = quote ∨ c = '\\' ∨ c = '\n') : BodyReads quote (c :: text) [] (c :: text) := by
  refine .stop fun piece h front => ?_
  cases h with
  | pair d =>
      obtain ⟨slash, behind⟩ := List.cons_prefix_cons.1 front
      rw [last slash.symm] at behind
      exact List.cons_ne_nil _ _ (List.prefix_nil.1 behind)
  | plain other slash feed =>
      obtain ⟨rfl, -⟩ := List.cons_prefix_cons.1 front
      rcases stops with same | same | same
      · exact other same
      · exact slash same
      · exact feed same

theorem quotedBody_of_no_piece (h : ∀ piece, BodyPiece quote piece → ¬ piece <+: text) :
    quotedBody quote text = ([], text) := by
  fun_cases quotedBody quote text with
  | case1 => rfl
  | case2 c text => exact absurd (List.prefix_append ['\\', c] text) (h _ (.pair c))
  | case3 => rfl
  | case4 c text _ plain =>
      simp only [Bool.or_eq_true, decide_eq_true_eq, not_or] at plain
      obtain ⟨⟨other, slash⟩, feed⟩ := plain
      exact absurd (List.prefix_append [c] text) (h _ (.plain other slash feed))

theorem quotedBody_append_of_piece {piece : List Char} (h : BodyPiece quote piece) :
    quotedBody quote (piece ++ text) =
      (piece ++ (quotedBody quote text).1, (quotedBody quote text).2) := by
  cases h with
  | pair c => rfl
  | plain other slash feed =>
      rw [List.singleton_append, quotedBody, if_neg (by simp [slash, other, feed])]
      · rfl
      · intro d more eq
        exact absurd eq slash

/-- The scanner follows the rule: by induction along its own recursion, a piece in each case that
goes on. -/
theorem bodyReads_quotedBody (quote : Char) (text : List Char) :
    BodyReads quote text (quotedBody quote text).1 (quotedBody quote text).2 := by
  fun_induction quotedBody quote text with
  | case1 =>
      refine .stop fun piece h => ?_
      cases h <;> simp
  | case2 c text body rest found ih =>
      rw [found] at ih
      exact .step (.pair c) ih
  | case3 c text alone ends =>
      simp only [Bool.or_eq_true, decide_eq_true_eq, or_assoc] at ends
      refine .of_stopper (fun slash => ?_) ends
      cases text with
      | nil => rfl
      | cons d more => exact absurd rfl (alone d more slash)
  | case4 c text _ plain body rest found ih =>
      rw [found] at ih
      simp only [Bool.or_eq_true, decide_eq_true_eq, not_or] at plain
      obtain ⟨⟨other, slash⟩, feed⟩ := plain
      exact .step (.plain other slash feed) ih

/-- The rule can take a text in one way only, which is the scanner's. -/
theorem quotedBody_eq_iff :
    quotedBody quote text = (body, rest) ↔ BodyReads quote text body rest := by
  constructor
  · intro read
    have reads := bodyReads_quotedBody quote text
    rw [read] at reads
    exact reads
  · intro reads
    induction reads with
    | stop none => exact quotedBody_of_no_piece none
    | step piece _ ih => rw [quotedBody_append_of_piece piece, ih]

end Rule

/-! ## Escaped values -/

/-- The written form of a character is one piece. -/
theorem bodyPiece_escapeChar (c : Char) : BodyPiece '"' (Text.escapeChar c) := by
  unfold Text.escapeChar
  split
  · exact .pair '\\'
  split
  · exact .pair '"'
  split
  · exact .pair 'n'
  split
  · exact .pair 'r'
  split
  · exact .pair 't'
  rename_i slash quote feed _ _
  exact .plain quote slash feed

/-- The body of a literal ends at the quote behind the escaped value. -/
theorem quotedBody_escape (value rest : List Char) :
    quotedBody '"' (Text.escape value ++ '"' :: rest) = (Text.escape value, '"' :: rest) := by
  rw [quotedBody_eq_iff]
  induction value with
  | nil => exact .of_stopper nofun (Or.inl rfl)
  | cons c value ih =>
      have head : Text.escape (c :: value) = Text.escapeChar c ++ Text.escape value :=
        List.flatMap_cons
      rw [head, List.append_assoc]
      exact .step (bodyPiece_escapeChar c) ih

/-- An escaped value with a double quote and any further text behind it: the rule for strings takes
exactly the escaped value, which is read as the value. It holds no line feed, no return and no
tab. -/
theorem escaped_read_back (value : String) (further : List Char) :
    let escaped := Text.escape value.toList
    (∀ body rest, BodyReads '"' (escaped ++ '"' :: further) body rest ↔
      body = escaped ∧ rest = '"' :: further) ∧
    quotedBody '"' (escaped ++ '"' :: further) = (escaped, '"' :: further) ∧
    String.ofList (Text.unescape escaped) = value ∧
    '\n' ∉ escaped ∧ '\r' ∉ escaped ∧ '\t' ∉ escaped := by
  intro escaped
  have read : quotedBody '"' (escaped ++ '"' :: further) = (escaped, '"' :: further) :=
    quotedBody_escape value.toList further
  have back : Text.unescape escaped = value.toList := Text.unescape_escape value.toList
  have absent {c : Char} (layout : c = '\n' ∨ c = '\r' ∨ c = '\t') : c ∉ escaped :=
    Text.layout_not_mem_escape layout value.toList
  refine ⟨fun body rest => ?_, read, ?_, absent (Or.inl rfl), absent (Or.inr (Or.inl rfl)),
    absent (Or.inr (Or.inr rfl))⟩
  · rw [← quotedBody_eq_iff, read, Prod.mk.injEq, eq_comm, @eq_comm _ _ rest]
  · rw [back, String.ofList_toList]

end RdfStore.Query.Token
