/-!
# Blank characters

The characters with the Unicode property *White_Space*, and trimming by them. Every character
that the core library calls whitespace is among them (`isBlank_of_isWhitespace`).
-/

namespace RdfStore.Text

/-- The ranges of the characters with the property *White_Space*, ascending. -/
def blankRanges : List (Nat × Nat) :=
  [(0x09, 0x0D), (0x20, 0x20), (0x85, 0x85), (0xA0, 0xA0), (0x1680, 0x1680), (0x2000, 0x200A),
    (0x2028, 0x2029), (0x202F, 0x202F), (0x205F, 0x205F), (0x3000, 0x3000)]

/-- Whether a character has the property *White_Space*. -/
def isBlank (c : Char) : Bool :=
  blankRanges.any fun (low, high) => decide (low ≤ c.toNat) && decide (c.toNat ≤ high)

theorem isBlank_of_isWhitespace {c : Char} (h : c.isWhitespace = true) : isBlank c = true := by
  simp only [Char.isWhitespace, Bool.or_eq_true, decide_eq_true_eq] at h
  rcases h with ((rfl | rfl) | rfl) | rfl <;> decide

/-- The text without the blanks in front. -/
def trimFront (text : List Char) : List Char := text.dropWhile isBlank

/-- Whether a text holds nothing but blanks. -/
def isAllBlank (text : List Char) : Bool := text.all isBlank

theorem trimFront_eq_nil_iff {text : List Char} : trimFront text = [] ↔ isAllBlank text = true := by
  induction text with
  | nil => simp [trimFront, isAllBlank]
  | cons c text ih =>
    simp only [trimFront, isAllBlank] at ih
    by_cases h : isBlank c = true <;> simp_all [trimFront, isAllBlank]

end RdfStore.Text
