import RdfStore.Proofs.Query.Preamble

/-!
# Comments in front of a query

The form check cuts every line at its last `#`, unless a bracket is open there. So of the comments in
front of a query it does not see what the grammar sees. A comment with a second `#` is cut there, and a
front of it is left (`Filler.Remains`). And a lone return does not end a line, so that what follows it
is taken for a part of the comment. Otherwise the check comes to the code behind the comments.

* `Leaves`: what the cut leaves of the text read so far, whatever follows. One lemma for each kind of
  token says how that grows.
* `Leaves.declaration`, `Leaves.word`: what is left of a declaration and of a keyword.
-/

namespace RdfStore.Query

/-! ## Comments that do no harm -/

namespace Filler

/-- The line of the comment ends where the form check ends it. -/
def LineEnded : Filler → Prop
  | blank _ => True
  | comment _ ending => ending ≠ .loneReturn

/-- What may be left of the comment closes no URI. -/
def Unclosing : Filler → Prop
  | blank _ => True
  | comment body ending => ending ≠ .loneReturn ∧ ('#' ∈ body → '>' ∉ body)

/-- Nothing is left of the comment. -/
def Plain : Filler → Prop
  | blank _ => True
  | comment body ending => ending ≠ .loneReturn ∧ '#' ∉ body

instance : DecidablePred LineEnded
  | blank _ => inferInstanceAs (Decidable True)
  | comment _ ending => inferInstanceAs (Decidable (ending ≠ .loneReturn))

instance : DecidablePred Unclosing
  | blank _ => inferInstanceAs (Decidable True)
  | comment body ending =>
    inferInstanceAs (Decidable (ending ≠ .loneReturn ∧ ('#' ∈ body → '>' ∉ body)))

instance : DecidablePred Plain
  | blank _ => inferInstanceAs (Decidable True)
  | comment body ending => inferInstanceAs (Decidable (ending ≠ .loneReturn ∧ '#' ∉ body))

theorem Plain.lineEnded {f : Filler} (h : f.Plain) : f.LineEnded := by
  cases f with
  | blank => trivial
  | comment => exact h.1

theorem Unclosing.lineEnded {f : Filler} (h : f.Unclosing) : f.LineEnded := by
  cases f with
  | blank => trivial
  | comment => exact h.1

/-- What may be kept of a comment: nothing, or if it has a second `#`, a front of it. -/
def Keeps : Filler → List Char → Prop
  | blank _, kept => kept = []
  | comment body _, kept => kept = [] ∨ '#' ∈ body ∧ ∃ more, kept = '#' :: more ∧ more <+: body

/-- What may be left of a filler: blanks, and between them what is kept of a comment. -/
def Remains (f : Filler) (left : List Char) : Prop :=
  ∃ blanks kept blanks', left = blanks ++ (kept ++ blanks') ∧
    (∀ c ∈ blanks ++ blanks', Text.isBlank c = true) ∧ f.Keeps kept

theorem keeps_nil (f : Filler) : f.Keeps [] := by
  cases f with
  | blank => rfl
  | comment => exact Or.inl rfl

theorem remains_of_isBlank (f : Filler) {blanks : List Char}
    (blank : ∀ c ∈ blanks, Text.isBlank c = true) : f.Remains blanks := by
  refine ⟨blanks, [], [], ?_, ?_, f.keeps_nil⟩
  · rw [List.append_nil, List.append_nil]
  · rwa [List.append_nil]

end Filler

namespace Piece

/-- The form check finds no form in the piece. -/
def Quiet : Piece → Prop
  | filler f => f.LineEnded
  | declaration d => ∀ f ∈ d.beforeName ++ d.beforeUri, f.Unclosing

/-- The form check passes over the piece. Of a declaration it must see the end of the keyword. -/
def Passed : Piece → Prop
  | filler f => f.Plain
  | declaration d =>
    (∀ f ∈ d.beforeName ++ d.beforeUri, f.Unclosing) ∧ (d.beforeName ≠ [] ∨ d.name = "")

theorem Passed.quiet {p : Piece} (h : p.Passed) : p.Quiet := by
  cases p with
  | filler => exact h.lineEnded
  | declaration => exact h.1

end Piece

/-! ## Lines -/

theorem lines_ne_nil {text : List Char} (filled : text ≠ []) : Text.lines text ≠ [] := by
  have all (text : List Char) : ∀ line, line ≠ [] ∨ text ≠ [] → Text.linesFrom line text ≠ [] := by
    induction text with
    | nil =>
        intro line filled
        cases line with
        | nil => exact absurd rfl (filled.resolve_left fun h => h rfl)
        | cons c line => exact List.cons_ne_nil _ _
    | cons c text ih =>
        intro line _
        rw [Text.linesFrom]
        split
        · exact List.cons_ne_nil _ _
        · exact ih (c :: line) (Or.inl (List.cons_ne_nil c line))
  exact all text [] (Or.inr filled)

/-- Comments are taken away line by line. -/
theorem codeOf_line {line more : List Char} (oneLine : '\n' ∉ line) (filled : more ≠ []) :
    codeOf (line ++ '\n' :: more) = codeOfLine (Text.dropReturn line) ++ '\n' :: codeOf more := by
  unfold codeOf
  rw [Text.lines_append oneLine, List.map_cons]
  cases later : (Text.lines more).map codeOfLine with
  | nil => exact absurd (List.map_eq_nil_iff.1 later) (lines_ne_nil filled)
  | cons first rest => rfl

/-- A token does not end with a return. -/
theorem getLast?_ne_return {word : List Char} (filled : word ≠ []) (oneLine : OneLine word)
    (line : List Char) : (line ++ word).getLast? ≠ some '\r' := by
  intro last
  rw [List.getLast?_append] at last
  cases found : word.getLast? with
  | none => exact filled (List.getLast?_eq_none_iff.1 found)
  | some c =>
      rw [found, Option.some_or] at last
      obtain rfl := Option.some.inj last
      cases oneLine _ (List.mem_of_getLast? found)

theorem dropReturn_concat (line : List Char) : Text.dropReturn (line ++ ['\r']) = line := by
  rw [Text.dropReturn, List.getLast?_concat, if_pos rfl, List.dropLast_concat]

/-- Of what follows on a line a front is left without a return at its end. -/
theorem dropReturn_append {line : List Char} (last : line.getLast? ≠ some '\r') (more : List Char) :
    ∃ front, front <+: more ∧ Text.dropReturn (line ++ more) = line ++ front := by
  unfold Text.dropReturn
  split
  · rename_i closed
    refine ⟨more.dropLast, List.dropLast_prefix more, List.dropLast_append_of_ne_nil ?_⟩
    rintro rfl
    rw [List.append_nil] at closed
    exact last closed
  · exact ⟨more, List.prefix_refl more, rfl⟩

theorem mem_head?_of_front {front text : List Char} (part : front <+: text) :
    ∀ c ∈ front.head?, c ∈ text.head? := by
  obtain ⟨more, rfl⟩ := part
  intro c first
  rw [List.head?_append, Option.mem_def.1 first]
  rfl

/-- An open line in which every `#` is shielded is left in front of what follows, and of that at least
the part up to a comment or the end of the line. -/
theorem codeOf_shielded {line : List Char} (noFeed : '\n' ∉ line) (shielded : Shielded line)
    (last : line.getLast? ≠ some '\r') (filled : line ≠ []) (rest : List Char) :
    ∃ rest', codeOf (line ++ rest) = line ++ rest' ∧
      ∀ c ∈ rest'.head?, c = '\n' ∨ c ∈ rest.head? := by
  by_cases feed : '\n' ∈ rest
  · obtain ⟨before, after, rfl, noFeed'⟩ := List.eq_append_cons_of_mem feed
    obtain ⟨front, part, dropped⟩ := dropReturn_append last before
    obtain ⟨kept, part', code⟩ := codeOfLine_shielded shielded front
    have inside := mem_head?_of_front
      ((part'.trans part).trans (List.prefix_append before ('\n' :: after)))
    rw [codeOf, ← List.append_assoc, Text.lines_append (List.not_mem_append noFeed noFeed'),
      List.map_cons, dropped, code]
    cases (Text.lines after).map codeOfLine with
    | nil => exact ⟨kept, rfl, fun c first => Or.inr (inside c first)⟩
    | cons next lines =>
        refine ⟨kept ++ '\n' :: Text.joinLines (next :: lines), ?_, fun c first => ?_⟩
        · rw [← List.append_assoc]
          rfl
        · cases kept with
          | nil => exact Or.inl (Option.some.inj first).symm
          | cons d kept => exact Or.inr (inside c first)
  · obtain ⟨kept, part, code⟩ := codeOfLine_shielded shielded rest
    refine ⟨kept, ?_, fun c first => Or.inr (mem_head?_of_front part c first)⟩
    rw [codeOf, Text.lines_of_not_mem (List.not_mem_append noFeed feed)
      (List.append_ne_nil_of_left_ne_nil filled rest), List.map_singleton, code]
    rfl

/-- A comment behind a text that closes all its brackets is cut off, or if it has a second `#` a front
of it is left. -/
theorem codeOfLine_comment {line : List Char} (balanced : line.count '>' = line.count '<')
    (body : List Char) (ending : LineEnd) : ∃ kept, codeOfLine (line ++ '#' :: body) = line ++ kept ∧
      (Filler.comment body ending).Keeps kept := by
  by_cases second : '#' ∈ body
  · unfold codeOfLine
    split
    · rename_i before after cut
      obtain ⟨split, last⟩ := Text.cutLast?_eq_some cut
      split
      · rcases occurrence_append split with ⟨middle, rfl⟩ | ⟨middle, rfl, rest⟩
        · refine absurd ?_ last
          rw [List.append_assoc, List.cons_append, List.append_cancel_left_eq] at split
          rw [← (List.cons.inj split).2]
          exact List.mem_append_right _ List.mem_cons_self
        · refine ⟨middle, rfl, Or.inr ⟨second, ?_⟩⟩
          cases middle with
          | nil => exact absurd ((List.cons.inj rest).2 ▸ second) last
          | cons c middle =>
              obtain ⟨rfl, behind⟩ := List.cons.inj rest
              exact ⟨middle, rfl, '#' :: after, behind.symm⟩
      · exact ⟨_, rfl, Or.inr ⟨second, body, rfl, List.prefix_refl body⟩⟩
    · exact ⟨_, rfl, Or.inr ⟨second, body, rfl, List.prefix_refl body⟩⟩
  · refine ⟨[], ?_, Or.inl rfl⟩
    rw [codeOfLine, Text.cutLast?_append second, List.append_nil]
    exact if_pos (Nat.le_of_eq balanced.symm)

/-! ## Letters -/

theorem isAlpha_of_isAlpha_toUpper {c : Char} (h : c.toUpper.isAlpha = true) : c.isAlpha = true := by
  unfold Char.toUpper at h
  split at h
  · rename_i small
    have lower : c.isLower = true :=
      Bool.and_eq_true_iff.2 ⟨decide_eq_true small.1, decide_eq_true small.2⟩
    exact Bool.or_eq_true_iff.2 (Or.inr lower)
  · exact h

/-- A keyword in any case consists of letters. -/
theorem isAlpha_of_map_toUpper {word keyword : List Char} (upper : word.map Char.toUpper = keyword)
    (letters : keyword.all Char.isAlpha = true) : ∀ c ∈ word, c.isAlpha = true := by
  intro c mem
  refine isAlpha_of_isAlpha_toUpper (List.all_eq_true.1 letters _ ?_)
  rw [← upper]
  exact List.mem_map_of_mem mem

theorem ne_nil_of_map_toUpper {word keyword : List Char} (upper : word.map Char.toUpper = keyword)
    (filled : keyword ≠ []) : word ≠ [] := by
  rintro rfl
  exact filled upper.symm

theorem isBlank_of_isAlpha {c : Char} (h : c.isAlpha = true) : Text.isBlank c = false := by
  rw [Bool.eq_false_iff]
  intro blank
  simp only [Text.isBlank, Text.blankRanges, List.any_cons, List.any_nil, Bool.or_eq_true,
    Bool.and_eq_true, decide_eq_true_eq, Bool.or_false] at blank
  have range : 65 ≤ c.toNat ∧ c.toNat ≤ 122 := by
    rcases Bool.or_eq_true_iff.1 h with upper | lower
    · have upper : 65 ≤ c.toNat ∧ c.toNat ≤ 90 := of_decide_eq_true upper
      omega
    · obtain ⟨low, high⟩ := Bool.and_eq_true_iff.1 lower
      have low : 97 ≤ c.toNat := of_decide_eq_true low
      have high : c.toNat ≤ 122 := of_decide_eq_true high
      omega
  omega

theorem not_isAlpha_of_isBlank {c : Char} (blank : Text.isBlank c = true) : c.isAlpha = false := by
  rw [Bool.eq_false_iff]
  intro letter
  rw [isBlank_of_isAlpha letter] at blank
  cases blank

theorem not_mem_of_class {p : Char → Bool} {text : List Char} (inside : ∀ c ∈ text, p c = true)
    {c : Char} (outside : p c = false) : c ∉ text :=
  fun mem => Bool.false_ne_true (outside.symm.trans (inside c mem))

/-- What does not go on with a letter, and closes no URI. -/
structure Gap (gap : List Char) : Prop where
  ends : ∀ c ∈ gap.head?, c.isAlpha = false
  unclosing : '>' ∉ gap

namespace Gap

variable {gap more : List Char}

theorem nil : Gap [] := ⟨fun _ none => (by cases none), List.not_mem_nil⟩

theorem of_isBlank (blank : ∀ c ∈ gap, Text.isBlank c = true) : Gap gap where
  ends c first := not_isAlpha_of_isBlank (blank c (List.mem_of_mem_head? first))
  unclosing := not_mem_of_class blank rfl

theorem append_ends (h : Gap gap) (ends : gap ≠ [] ∨ ∀ c ∈ more.head?, c.isAlpha = false) :
    ∀ c ∈ (gap ++ more).head?, c.isAlpha = false := by
  cases gap with
  | nil => exact ends.resolve_left fun some => some rfl
  | cons b gap => exact h.ends

theorem append (h : Gap gap) (h' : Gap more) : Gap (gap ++ more) where
  ends := h.append_ends (Or.inr h'.ends)
  unclosing := List.not_mem_append h.unclosing h'.unclosing

end Gap

theorem Filler.Remains.gap {f : Filler} {left : List Char} (h : f.Remains left)
    (unclosing : f.Unclosing) : Gap left := by
  obtain ⟨blanks, kept, blanks', rfl, blank, keeps⟩ := h
  obtain ⟨blank, blank'⟩ := List.forall_mem_append.1 blank
  refine (Gap.of_isBlank blank).append (Gap.append ?_ (Gap.of_isBlank blank'))
  cases f with
  | blank =>
      obtain rfl := keeps
      exact .nil
  | comment body ending =>
      rcases keeps with rfl | ⟨second, more, rfl, part⟩
      · exact .nil
      · refine ⟨fun c first => by cases first; rfl, ?_⟩
        exact List.not_mem_cons_of_ne_of_not_mem (by decide)
          fun mem => unclosing.2 second (part.subset mem)

/-! ## What is left of the pieces -/

/-- What the form check leaves of a text with a given front, line by line: the lines that are done,
then the line that is open and closes all its brackets. A return at its end is kept apart, because it
belongs to the end of the line if a line feed follows. -/
structure LeavesLine (front done line tail : List Char) : Prop where
  ending : tail = [] ∧ line.getLast? ≠ some '\r' ∨ tail = ['\r']
  noFeed : '\n' ∉ line
  shielded : Shielded line
  balanced : line.count '>' = line.count '<'
  code : ∀ more, more ≠ [] → codeOf (front ++ more) = done ++ codeOf (line ++ (tail ++ more))

namespace LeavesLine

variable {front done line tail : List Char}

theorem isBlank_of_mem_tail (h : LeavesLine front done line tail) :
    ∀ c ∈ tail, Text.isBlank c = true := by
  rcases h.ending with ⟨rfl, -⟩ | rfl
  · exact List.forall_mem_nil _
  · exact List.forall_mem_singleton.2 rfl

/-- The open line with its return. -/
theorem append_tail (h : LeavesLine front done line tail) :
    '\n' ∉ line ++ tail ∧ Shielded (line ++ tail) ∧
      (line ++ tail).count '>' = (line ++ tail).count '<' ∧ Text.dropReturn (line ++ tail) = line := by
  rcases h.ending with ⟨rfl, last⟩ | rfl
  · rw [List.append_nil]
    exact ⟨h.noFeed, h.shielded, h.balanced, if_neg last⟩
  · refine ⟨List.not_mem_append h.noFeed (by decide), ?_, ?_, dropReturn_concat line⟩
    · exact h.shielded.append (Nat.le_of_eq h.balanced) (shielded_of_not_mem (by decide))
    · rw [List.count_append, List.count_append, h.balanced]
      rfl

/-- A token stays as it is. -/
theorem token (h : LeavesLine front done line tail) {word : List Char} (filled : word ≠ [])
    (oneLine : OneLine word) (shielded : Shielded word)
    (balanced : word.count '>' = word.count '<') :
    LeavesLine (front ++ word) done (line ++ (tail ++ word)) [] := by
  obtain ⟨noFeed, shielded', balanced', -⟩ := h.append_tail
  rw [← List.append_assoc]
  have noFeed' : '\n' ∉ word := fun mem => by cases oneLine _ mem
  refine ⟨Or.inl ⟨rfl, getLast?_ne_return filled oneLine _⟩, List.not_mem_append noFeed noFeed',
    shielded'.append (Nat.le_of_eq balanced') shielded, ?_, ?_⟩
  · rw [List.count_append, balanced', balanced, ← List.count_append]
  · intro more _
    rw [List.append_assoc, h.code _ (List.append_ne_nil_of_left_ne_nil filled _)]
    simp only [List.append_assoc, List.nil_append]

/-- A return waits for what follows. -/
theorem return_ (h : LeavesLine front done line tail) :
    LeavesLine (front ++ ['\r']) done (line ++ tail) ['\r'] := by
  obtain ⟨noFeed, shielded, balanced, -⟩ := h.append_tail
  refine ⟨Or.inr rfl, noFeed, shielded, balanced, fun more _ => ?_⟩
  rw [List.append_assoc, h.code _ (List.append_ne_nil_of_left_ne_nil (List.cons_ne_nil _ _) _),
    List.append_assoc]

/-- What stands on the open line and the line feed behind it make a line that is done. -/
theorem close (h : LeavesLine front done line tail) {more code : List Char}
    (noFeed : '\n' ∉ more)
    (left : codeOfLine (Text.dropReturn (line ++ tail ++ more)) = code) :
    LeavesLine (front ++ (more ++ ['\n'])) (done ++ (code ++ ['\n'])) [] [] := by
  obtain ⟨noFeed', -⟩ := h.append_tail
  refine ⟨Or.inl ⟨rfl, by simp⟩, List.not_mem_nil, shielded_of_not_mem List.not_mem_nil, rfl,
    fun later filled => ?_⟩
  have split : front ++ (more ++ ['\n']) ++ later = front ++ (more ++ '\n' :: later) := by simp
  have split' : line ++ (tail ++ (more ++ '\n' :: later)) =
      (line ++ tail ++ more) ++ '\n' :: later := by simp
  rw [split, h.code _ (List.append_ne_nil_of_right_ne_nil _ (List.cons_ne_nil _ _)), split',
    codeOf_line (List.not_mem_append noFeed' noFeed) filled, left]
  simp

end LeavesLine

/-- What the form check leaves of a text with a given front: the code, and a return if it stands at the
end. -/
def Leaves (front code tail : List Char) : Prop :=
  ∃ done line, code = done ++ line ∧ LeavesLine front done line tail

namespace Leaves

variable {front code tail : List Char}

theorem nil : Leaves [] [] [] :=
  ⟨[], [], rfl, Or.inl ⟨rfl, by simp⟩, List.not_mem_nil, shielded_of_not_mem List.not_mem_nil, rfl,
    fun _ _ => rfl⟩

theorem token (h : Leaves front code tail) {word : List Char} (filled : word ≠ [])
    (oneLine : OneLine word) (shielded : Shielded word)
    (balanced : word.count '>' = word.count '<') :
    Leaves (front ++ word) (code ++ (tail ++ word)) [] := by
  obtain ⟨done, line, rfl, leaves⟩ := h
  exact ⟨done, _, List.append_assoc _ _ _, leaves.token filled oneLine shielded balanced⟩

theorem return_ (h : Leaves front code tail) :
    Leaves (front ++ ['\r']) (code ++ tail) ['\r'] := by
  obtain ⟨done, line, rfl, leaves⟩ := h
  exact ⟨done, _, List.append_assoc _ _ _, leaves.return_⟩

/-- A line feed closes the line, and takes a return in front of it. -/
theorem feed (h : Leaves front code tail) : Leaves (front ++ ['\n']) (code ++ ['\n']) [] := by
  obtain ⟨done, line, rfl, leaves⟩ := h
  obtain ⟨-, -, -, dropped⟩ := leaves.append_tail
  have left : codeOfLine (Text.dropReturn (line ++ tail ++ [])) = line := by
    rw [List.append_nil, dropped, codeOfLine_of_shielded leaves.shielded]
  refine ⟨_, [], ?_, leaves.close List.not_mem_nil left⟩
  simp

/-- Of a comment the end of its line is left, and perhaps a front of it. -/
theorem comment (h : Leaves front code tail) {body : List Char} {ending : LineEnd}
    (oneLine : OneLine body) (ended : ending ≠ .loneReturn) : ∃ kept,
      Leaves (front ++ (Filler.comment body ending).chars) (code ++ (tail ++ (kept ++ ['\n']))) [] ∧
        (Filler.comment body ending).Keeps kept := by
  obtain ⟨done, line, rfl, leaves⟩ := h
  obtain ⟨-, -, balanced, -⟩ := leaves.append_tail
  obtain ⟨kept, cut, keeps⟩ := codeOfLine_comment balanced body ending
  refine ⟨kept, ?_, keeps⟩
  have oneLine' : OneLine ('#' :: body) := oneLine_cons.2 ⟨rfl, oneLine⟩
  have noFeed : '\n' ∉ '#' :: body := fun mem => by cases oneLine' _ mem
  have noReturn : Text.dropReturn (line ++ tail ++ '#' :: body) = line ++ tail ++ '#' :: body :=
    if_neg (getLast?_ne_return (List.cons_ne_nil _ _) oneLine' _)
  have split : done ++ line ++ (tail ++ (kept ++ ['\n'])) =
      done ++ (line ++ tail ++ kept ++ ['\n']) ++ [] := by simp
  refine ⟨_, [], split, ?_⟩
  cases ending with
  | feed =>
      refine leaves.close noFeed ?_
      rw [noReturn, cut]
  | returnFeed =>
      have chars : (Filler.comment body .returnFeed).chars = ('#' :: body ++ ['\r']) ++ ['\n'] := by
        simp [Filler.chars, LineEnd.chars]
      rw [chars]
      refine leaves.close (List.not_mem_append noFeed (by decide)) ?_
      rw [← List.append_assoc, dropReturn_concat, cut]
  | loneReturn => exact absurd rfl ended

/-- A token of a class in which no `#`, no bracket and no end of a line is. -/
theorem plainToken (h : Leaves front code tail) (p : Char → Bool) {word : List Char}
    (filled : word ≠ []) (inside : ∀ c ∈ word, p c = true)
    (outside : ['#', '<', '>', '\n', '\r'].any p = false) :
    Leaves (front ++ word) (code ++ (tail ++ word)) [] := by
  have outside (c : Char) (special : c ∈ ['#', '<', '>', '\n', '\r']) : p c = false :=
    Bool.eq_false_iff.2 (List.any_eq_false.1 outside c special)
  have absent {c : Char} (special : c ∈ ['#', '<', '>', '\n', '\r']) : c ∉ word :=
    not_mem_of_class inside (outside c special)
  refine h.token filled ?_ (shielded_of_not_mem (absent (by decide))) ?_
  · exact oneLine_of_class inside (outside _ (by decide)) (outside _ (by decide))
  · rw [List.count_eq_zero.2 (absent (by decide)), List.count_eq_zero.2 (absent (by decide))]

theorem isBlank_of_mem_tail (h : Leaves front code tail) : ∀ c ∈ tail, Text.isBlank c = true := by
  obtain ⟨_, _, -, leaves⟩ := h
  exact leaves.isBlank_of_mem_tail

/-- Of a filler something is left. -/
theorem filler (h : Leaves front code tail) {f : Filler} (formed : f.WellFormed)
    (ended : f.LineEnded) : ∃ gap tail', Leaves (front ++ f.chars) (code ++ gap) tail' ∧
      f.Remains gap ∧ gap ++ tail' ≠ [] := by
  have before := h.isBlank_of_mem_tail
  cases f with
  | comment body ending =>
      obtain ⟨kept, leaves, keeps⟩ := h.comment formed ended
      refine ⟨_, [], leaves, ⟨tail, kept, ['\n'], rfl, ?_, keeps⟩, by simp⟩
      exact List.forall_mem_append.2 ⟨before, List.forall_mem_singleton.2 rfl⟩
  | blank c =>
      by_cases feed : c = '\n'
      · subst feed
        exact ⟨['\n'], [], h.feed,
          Filler.remains_of_isBlank _ (List.forall_mem_singleton.2 rfl), by decide⟩
      by_cases return_ : c = '\r'
      · subst return_
        exact ⟨tail, ['\r'], h.return_, Filler.remains_of_isBlank _ before, by simp⟩
      have blank : Text.isBlank c = true := formed
      refine ⟨tail ++ [c], [], h.plainToken (fun d => Text.isBlank d && d != '\n' && d != '\r')
        (List.cons_ne_nil c []) ?_ (by decide), Filler.remains_of_isBlank _ ?_, by simp⟩
      · refine List.forall_mem_singleton.2 ?_
        simp [blank, feed, return_]
      · exact List.forall_mem_append.2 ⟨before, List.forall_mem_singleton.2 blank⟩

/-- Of fillers inside a declaration a gap is left. -/
theorem fill (fillers : List Filler) : ∀ {front code tail : List Char}, Leaves front code tail →
    (∀ f ∈ fillers, f.WellFormed) → (∀ f ∈ fillers, f.Unclosing) →
    ∃ gap tail', Leaves (front ++ fill fillers) (code ++ gap) tail' ∧ Gap gap ∧
      (fillers ≠ [] ∨ tail ≠ [] → gap ++ tail' ≠ []) := by
  induction fillers with
  | nil =>
      intro front code tail h _ _
      refine ⟨[], tail, ?_, .nil, fun some => some.resolve_left fun h => h rfl⟩
      rw [List.append_nil, Query.fill, List.flatMap_nil, List.append_nil]
      exact h
  | cons f fillers ih =>
      intro front code tail h formed unclosing
      obtain ⟨formed, formed'⟩ := List.forall_mem_cons.1 formed
      obtain ⟨unclosing, unclosing'⟩ := List.forall_mem_cons.1 unclosing
      obtain ⟨gap, tail', h, remains, filled⟩ := h.filler formed unclosing.lineEnded
      obtain ⟨gap', tail'', h, rest, filled'⟩ := ih h formed' unclosing'
      refine ⟨gap ++ gap', tail'', ?_, (remains.gap unclosing).append rest, fun _ => ?_⟩
      · rw [fill_cons, ← List.append_assoc, ← List.append_assoc]
        exact h
      · rw [List.append_assoc]
        -- a return that waits is left in the end, or the line feed behind it
        by_cases none : gap = []
        · rw [none] at filled
          exact List.append_ne_nil_of_right_ne_nil _ (filled' (Or.inr filled))
        · exact List.append_ne_nil_of_left_ne_nil none _

/-- A declaration is left with gaps between its tokens. -/
theorem declaration (h : Leaves front code tail) {d : Declaration} (formed : d.WellFormed)
    (quiet : (Piece.declaration d).Quiet) : ∃ middle,
      Leaves (front ++ d.chars) (code ++ (tail ++ (d.word ++ (middle ++ ['>'])))) [] ∧
        '>' ∉ middle ∧
        (d.beforeName ≠ [] ∨ d.name = "" → ∀ c ∈ middle.head?, c.isAlpha = false) := by
  obtain ⟨quiet, quiet'⟩ := List.forall_mem_append.1 quiet
  have letters := isAlpha_of_map_toUpper formed.word (by decide)
  have filled := ne_nil_of_map_toUpper formed.word (by decide)
  have named : ∀ c ∈ d.name.toList ++ [':'], (Token.isLabelChar c || c == ':') = true := by
    intro c mem
    rcases List.mem_append.1 mem with mem | mem
    · rw [formed.name.isLabelChar c mem, Bool.true_or]
    · rw [List.mem_singleton.1 mem]
      rfl
  have inUri : '>' ∉ d.uri.toList := not_mem_of_class formed.uri rfl
  obtain ⟨closed, opened⟩ := count_uri formed.uri
  -- token by token
  have h := h.plainToken Char.isAlpha filled letters (by decide)
  obtain ⟨gap, tail', h, between, spaced⟩ := h.fill _ formed.beforeName quiet
  have between := between.append (Gap.of_isBlank h.isBlank_of_mem_tail)
  have h := h.plainToken (fun c => Token.isLabelChar c || c == ':') (by simp) named (by decide)
  obtain ⟨gap', tail'', h, between', -⟩ := h.fill _ formed.beforeUri quiet'
  have between' := between'.append (Gap.of_isBlank h.isBlank_of_mem_tail)
  have h := h.token (List.cons_ne_nil '<' _) (oneLine_uri formed.uri) (shielded_uri formed.uri)
    (closed.trans opened.symm)
  refine ⟨(gap ++ tail') ++ (d.name.toList ++ [':'] ++ ((gap' ++ tail'') ++ '<' :: d.uri.toList)),
    ?_, ?_, ?_⟩
  · simp only [Declaration.chars, Declaration.label, List.append_assoc, List.nil_append,
      List.cons_append] at h ⊢
    exact h
  · exact List.not_mem_append between.unclosing (List.not_mem_append (not_mem_of_class named rfl)
      (List.not_mem_append between'.unclosing
        (List.not_mem_cons_of_ne_of_not_mem (by decide) inUri)))
  · intro given
    refine between.append_ends (given.imp (fun some => spaced (Or.inl some)) fun none => ?_)
    rw [none]
    intro c first
    cases first
    rfl

/-- A word is left, and what follows it at least up to a comment or the end of the line. -/
theorem word (h : Leaves front code tail) {word : List Char} (filled : word ≠ [])
    (letters : ∀ c ∈ word, c.isAlpha = true) (rest : List Char) :
    ∃ rest', codeOf (front ++ (word ++ rest)) = code ++ (tail ++ (word ++ rest')) ∧
      ∀ c ∈ rest'.head?, c = '\n' ∨ c ∈ rest.head? := by
  obtain ⟨done, line, rfl, leaves⟩ := h
  obtain ⟨noFeed, shielded, balanced, -⟩ := leaves.append_tail
  have plain : OneLine word := oneLine_of_class letters rfl rfl
  have open_ : Shielded (line ++ tail ++ word) := shielded.append (Nat.le_of_eq balanced)
    (shielded_of_not_mem (not_mem_of_class letters rfl))
  obtain ⟨rest', code, next⟩ := codeOf_shielded
    (List.not_mem_append noFeed (not_mem_of_class letters rfl)) open_
    (getLast?_ne_return filled plain _) (List.append_ne_nil_of_right_ne_nil _ filled) rest
  refine ⟨rest', ?_, next⟩
  rw [leaves.code _ (List.append_ne_nil_of_left_ne_nil filled rest)]
  simp only [List.append_assoc] at code ⊢
  rw [code]

end Leaves

end RdfStore.Query
