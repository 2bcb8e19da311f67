import RdfStore.Text.Visible

/-!
# Quoted text for people

A text between double quotes in which every character that does not show by itself is written by
an escape. `inspectChar_of_ascii` says that the printable ASCII characters other than the quote and
the backslash stand for themselves.
-/

namespace RdfStore.Text

/-- A character between double quotes. -/
def inspectChar (c : Char) : List Char :=
  if c = '\x00' then ['\\', '0']
  else if c = '\t' then ['\\', 't']
  else if c = '\r' then ['\\', 'r']
  else if c = '\n' then ['\\', 'n']
  else if c = '\\' || c = '"' then ['\\', c]
  else if isVisible c then [c]
  else ['\\', 'u', '\x7b'] ++ Nat.toDigits 16 c.toNat ++ ['\x7d']

/-- A text in double quotes, with escapes. -/
def inspect (text : String) : String :=
  "\"" ++ String.ofList (text.toList.flatMap inspectChar) ++ "\""

theorem inspectChar_of_ascii {c : Char} (low : 0x20 ≤ c.toNat) (high : c.toNat < 0x7F)
    (quote : c ≠ '"') (backslash : c ≠ '\\') : inspectChar c = [c] := by
  unfold inspectChar
  split
  · subst_vars; exact absurd low (by decide)
  split
  · subst_vars; exact absurd low (by decide)
  split
  · subst_vars; exact absurd low (by decide)
  split
  · subst_vars; exact absurd low (by decide)
  simp [quote, backslash, isVisible_of_ascii low high]

end RdfStore.Text
