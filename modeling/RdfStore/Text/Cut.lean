/-!
# Cutting a text at a given piece

`cut?` finds the leftmost place where a piece occurs and returns what stands before and after
it. Splitting at a separator, testing for a piece and replacing its first occurrence are all
read off the same cut. `cut?_eq_some` says that a cut loses nothing, and
`cut?_eq_none_iff` that a missing cut means a missing piece. A single character is cut where it
stands first (`cut?_singleton_eq_some_iff`).
-/

namespace RdfStore.Text

/-- What follows a given front, if the text starts with it. -/
def stripFront? : List Char → List Char → Option (List Char)
  | [], text => some text
  | _ :: _, [] => none
  | p :: piece, c :: text => if p = c then stripFront? piece text else none

theorem stripFront?_eq_some_iff {piece text after : List Char} :
    stripFront? piece text = some after ↔ text = piece ++ after := by
  induction piece generalizing text with
  | nil => simp [stripFront?, eq_comm]
  | cons p piece ih =>
    cases text with
    | nil => simp [stripFront?]
    | cons c text =>
      by_cases h : p = c
      · simp [stripFront?, h, ih]
      · simp [stripFront?, h, Ne.symm h]

theorem isSome_stripFront? {piece text : List Char} :
    (stripFront? piece text).isSome = true ↔ piece <+: text := by
  rw [Option.isSome_iff_exists]
  simp only [stripFront?_eq_some_iff, eq_comm (a := text)]
  rfl

/-- The text before and after the leftmost occurrence of a piece. -/
def cut? (piece : List Char) : List Char → Option (List Char × List Char)
  | [] => (stripFront? piece []).map fun after => ([], after)
  | c :: text =>
    match stripFront? piece (c :: text) with
    | some after => some ([], after)
    | none => (cut? piece text).map fun (before, after) => (c :: before, after)

/-- A cut loses nothing. -/
theorem cut?_eq_some {piece text before after : List Char}
    (h : cut? piece text = some (before, after)) : text = before ++ piece ++ after := by
  induction text generalizing before after with
  | nil =>
    obtain ⟨rest, strip, pair⟩ := Option.map_eq_some_iff.1 h
    cases pair
    simpa using stripFront?_eq_some_iff.1 strip
  | cons c text ih =>
    simp only [cut?] at h
    split at h
    · rename_i rest strip
      cases h
      simpa using stripFront?_eq_some_iff.1 strip
    · obtain ⟨⟨b, a⟩, inner, pair⟩ := Option.map_eq_some_iff.1 h
      cases pair
      rw [ih inner]
      simp

/-- There is no cut exactly when the piece occurs nowhere. -/
theorem cut?_eq_none_iff {piece text : List Char} :
    cut? piece text = none ↔ ∀ before after, text ≠ before ++ piece ++ after := by
  induction text with
  | nil =>
    simp only [cut?, Option.map_eq_none_iff]
    constructor
    · intro none before after eq
      cases piece with
      | nil => simp [stripFront?] at none
      | cons p piece => simp at eq
    · intro absent
      cases piece with
      | nil => exact absurd rfl (absent [] [])
      | cons p piece => rfl
  | cons c text ih =>
    simp only [cut?]
    constructor
    · intro none before after eq
      split at none
      · simp at none
      · rename_i strip
        rw [Option.map_eq_none_iff, ih] at none
        cases before with
        | nil => simp [stripFront?_eq_some_iff.2 (show c :: text = piece ++ after by simpa using eq)] at strip
        | cons b before =>
          simp only [List.cons_append, List.cons.injEq] at eq
          exact none before after eq.2
    · intro absent
      split
      · rename_i after strip
        exact absurd (by simpa using stripFront?_eq_some_iff.1 strip) (absent [] after)
      · rw [Option.map_eq_none_iff, ih]
        intro before after eq
        exact absent (c :: before) after (by simp [eq])

theorem cut?_self_append {piece : List Char} (filled : piece ≠ []) (after : List Char) :
    cut? piece (piece ++ after) = some ([], after) := by
  cases piece with
  | nil => exact absurd rfl filled
  | cons p piece =>
    have strip := stripFront?_eq_some_iff.2 (rfl : p :: piece ++ after = p :: piece ++ after)
    rw [List.cons_append] at strip ⊢
    rw [cut?, strip]

/-- A text is cut at a character where that character stands first. -/
theorem cut?_singleton_eq_some_iff {d : Char} {text before after : List Char} :
    cut? [d] text = some (before, after) ↔ text = before ++ d :: after ∧ d ∉ before := by
  induction text generalizing before with
  | nil => simp [cut?, stripFront?]
  | cons c text ih =>
    by_cases here : d = c
    · have first : cut? [d] (c :: text) = some ([], text) := by simp [cut?, stripFront?, here]
      rw [first]
      cases before with
      | nil => simp [here, eq_comm]
      | cons b before => grind
    · have later : cut? [d] (c :: text) =
          (cut? [d] text).map fun (before, after) => (c :: before, after) := by
        simp [cut?, stripFront?, here]
      rw [later]
      cases before with
      | nil => simp [Ne.symm here]
      | cons b before =>
        constructor
        · intro found
          obtain ⟨parts, inner, same⟩ := Option.map_eq_some_iff.1 found
          cases same
          obtain ⟨eq, absent⟩ := ih.1 inner
          exact ⟨congrArg (c :: ·) eq, List.not_mem_cons_of_ne_of_not_mem here absent⟩
        · rintro ⟨eq, absent⟩
          obtain ⟨first, rest⟩ := List.cons.inj eq
          rw [ih.2 ⟨rest, List.not_mem_of_not_mem_cons absent⟩, first]
          rfl

/-- A cut at a character is not moved by what follows the text. -/
theorem cut?_append {d : Char} {text before after : List Char}
    (cut : cut? [d] text = some (before, after)) (more : List Char) :
    cut? [d] (text ++ more) = some (before, after ++ more) := by
  obtain ⟨rfl, absent⟩ := cut?_singleton_eq_some_iff.1 cut
  exact cut?_singleton_eq_some_iff.2 ⟨by rw [List.append_assoc, List.cons_append], absent⟩

/-- Whether a piece occurs in a text. -/
def occursIn (piece text : List Char) : Bool := (cut? piece text).isSome

theorem occursIn_iff {piece text : List Char} : occursIn piece text = true ↔ piece <:+: text := by
  rw [occursIn, ← Option.ne_none_iff_isSome, ne_eq, cut?_eq_none_iff, Classical.not_forall]
  refine exists_congr fun before => ?_
  rw [Classical.not_forall]
  refine exists_congr fun after => ?_
  rw [ne_eq, Classical.not_not]
  exact eq_comm

/-- The text before and after its last occurrence of a character. -/
def cutLast? (d : Char) : List Char → Option (List Char × List Char)
  | [] => none
  | c :: text =>
    match cutLast? d text with
    | some (before, after) => some (c :: before, after)
    | none => if c = d then some ([], text) else none

/-- A cut at the last occurrence loses nothing, and the rest has no further occurrence. -/
theorem cutLast?_eq_some {d : Char} {text before after : List Char}
    (h : cutLast? d text = some (before, after)) : text = before ++ d :: after ∧ d ∉ after := by
  induction text generalizing before after with
  | nil => simp [cutLast?] at h
  | cons c text ih =>
    simp only [cutLast?] at h
    split at h
    · rename_i b a inner
      cases h
      obtain ⟨eq, absent⟩ := ih inner
      exact ⟨by simp [eq], absent⟩
    · rename_i none
      split at h
      · rename_i hc
        cases h
        refine ⟨by simp [hc], ?_⟩
        intro mem
        clear ih
        induction text with
        | nil => simp at mem
        | cons e text ih =>
          simp only [cutLast?] at none
          split at none
          · simp at none
          · rename_i inner
            split at none
            · simp at none
            · rename_i he
              rcases List.mem_cons.1 mem with rfl | mem
              · exact he rfl
              · exact ih inner mem
      · simp at h

theorem cutLast?_eq_none {d : Char} {text : List Char} (absent : d ∉ text) :
    cutLast? d text = none := by
  cases found : cutLast? d text with
  | none => rfl
  | some parts =>
    obtain ⟨rfl, -⟩ := cutLast?_eq_some found
    exact absurd (List.mem_append_right _ List.mem_cons_self) absent

theorem cutLast?_append {d : Char} {after : List Char} (absent : d ∉ after) (before : List Char) :
    cutLast? d (before ++ d :: after) = some (before, after) := by
  induction before with
  | nil => rw [List.nil_append, cutLast?, cutLast?_eq_none absent, if_pos rfl]
  | cons c before ih => rw [List.cons_append, cutLast?, ih]

end RdfStore.Text
