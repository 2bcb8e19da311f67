import RdfStore.Text.Scan
import RdfStore.Toml.Scalar

/-!
# Quoted TOML strings

Basic strings, in double quotes and with escapes, and literal strings, in single quotes and without
them; both on one line or, between three quotes, on several. The scanners start behind the opening
quotes; their bound on the number of steps is the length of the text.
-/

namespace RdfStore.Toml.Quoted

/-- Whether a character may stand in a comment or in a string as it is. -/
def isPlain (c : Char) : Bool :=
  c = '\t' || (decide (0x20 ≤ c.toNat) && decide (c.toNat ≠ 0x7F))

/-- The character with a number in hexadecimal digits. -/
def charOf (digits : List Char) : Option Char :=
  if digits.all Scalar.isHex then
    let n := Scalar.numberOf 16 digits
    if n.isValidChar then some (Char.ofNat n) else none
  else none

/-- The character of a number with a fixed count of digits, and the rest. -/
def numbered (count : Nat) (text : List Char) : Option (Char × List Char) :=
  if count ≤ text.length then (charOf (text.take count)).map fun c => (c, text.drop count) else none

/-- The character that an escape stands for, behind its backslash, and the rest. -/
def escape : Text.Scan Char
  | [] => none
  | c :: text =>
    if c = 'b' then some ('\x08', text)
    else if c = 't' then some ('\t', text)
    else if c = 'n' then some ('\n', text)
    else if c = 'f' then some ('\x0c', text)
    else if c = 'r' then some ('\r', text)
    else if c = 'e' then some ('\x1b', text)
    else if c = '"' then some ('"', text)
    else if c = '\\' then some ('\\', text)
    else if c = 'x' then numbered 2 text
    else if c = 'u' then numbered 4 text
    else if c = 'U' then numbered 8 text
    else none

/-- The end of a string in front of what was read later. -/
def push (c : Char) (found : List Char × List Char) : List Char × List Char :=
  (c :: found.1, found.2)

/-- The rest of a basic string on one line. -/
def basicUpTo : Nat → List Char → Option (List Char × List Char)
  | 0, _ => none
  | _, [] => none
  | n + 1, c :: text =>
    if c = '"' then some ([], text)
    else if c = '\\' then do
      let (c, text) ← escape text
      return push c (← basicUpTo n text)
    else if isPlain c then (basicUpTo n text).map (push c)
    else none

/-- The rest of a literal string on one line. -/
def literalUpTo : List Char → Option (List Char × List Char)
  | [] => none
  | c :: text =>
    if c = '\'' then some ([], text)
    else if isPlain c then (literalUpTo text).map (push c)
    else none

/-- What follows three quotes: up to two more belong to the string. -/
def closing (quote : Char) (text : List Char) : List Char × List Char :=
  match text with
  | c :: d :: rest =>
    if c = quote then if d = quote then ([c, d], rest) else ([c], d :: rest)
    else ([], c :: d :: rest)
  | [c] => if c = quote then ([c], []) else ([], [c])
  | [] => ([], [])

/-- Whether a character is a blank within a line. -/
def isSpace (c : Char) : Bool := c = ' ' || c = '\t'

/-- What follows a line ending in front of a text. -/
def lineEnd : List Char → Option (List Char)
  | '\n' :: text => some text
  | '\r' :: '\n' :: text => some text
  | _ => none

/-- The text behind the first line ending, if a string starts with one. -/
def dropFirstLineEnd (text : List Char) : List Char := (lineEnd text).getD text

/-- The text behind blanks and line endings. -/
def skipLayout : Nat → List Char → List Char
  | 0, text => text
  | n + 1, text =>
    match lineEnd text with
    | some rest => skipLayout n rest
    | none =>
      match text with
      | c :: rest => if isSpace c then skipLayout n rest else c :: rest
      | [] => []

/-- The rest of a string on several lines. Only a basic one has escapes; there a backslash at the
end of a line swallows the line ending and all blanks and line endings after it. -/
def longUpTo (quote : Char) : Nat → List Char → Option (List Char × List Char)
  | 0, _ => none
  | _, [] => none
  | n + 1, c :: text =>
    match c == quote, text with
    | true, d :: e :: rest =>
      if d = quote ∧ e = quote then some (closing quote rest)
      else (longUpTo quote n (d :: e :: rest)).map (push c)
    | true, _ => none
    | false, text =>
      if c = '\\' && quote = '"' then
        if (lineEnd (text.dropWhile isSpace)).isSome then longUpTo quote n (skipLayout text.length text)
        else do
          let (c, text) ← escape text
          return push c (← longUpTo quote n text)
      else if c = '\n' then (longUpTo quote n text).map (push c)
      else if c = '\r' then
        match text with
        | '\n' :: rest => (longUpTo quote n rest).map fun found => push '\r' (push '\n' found)
        | _ => none
      else if isPlain c then (longUpTo quote n text).map (push c)
      else none

/-- A string on one line. -/
def short : Text.Scan String
  | '"' :: text => (basicUpTo text.length text).map fun (found, rest) => (String.ofList found, rest)
  | '\'' :: text => (literalUpTo text).map fun (found, rest) => (String.ofList found, rest)
  | _ => none

/-- A string on several lines. -/
def long : Text.Scan String
  | '"' :: '"' :: '"' :: text =>
    let text := dropFirstLineEnd text
    (longUpTo '"' text.length text).map fun (found, rest) => (String.ofList found, rest)
  | '\'' :: '\'' :: '\'' :: text =>
    let text := dropFirstLineEnd text
    (longUpTo '\'' text.length text).map fun (found, rest) => (String.ofList found, rest)
  | _ => none

/-- Whether a text starts with three equal quotes. -/
def isLong : List Char → Bool
  | c :: d :: e :: _ => (c = '"' || c = '\'') && d = c && e = c
  | _ => false

/-- A string of any kind. -/
def scan : Text.Scan String := fun text => if isLong text then long text else short text

end RdfStore.Toml.Quoted
