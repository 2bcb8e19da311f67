import RdfStore.Toml.Quoted

/-!
# TOML documents

A document is a sequence of lines: pairs of a key and a value, headers that choose the table of
the pairs after them, comments and empty lines. `Toml.read` returns the entries of the document,
or nothing if the text breaks a rule of the language or defines something twice.
-/

namespace RdfStore.Toml

open Quoted (isPlain isSpace lineEnd)

/-! ## Layout -/

/-- The text behind the blanks in front of it. -/
def skipSpaces (text : List Char) : List Char := text.dropWhile isSpace

/-- The text from the end of a comment's line on, behind its sign. -/
def skipComment (text : List Char) : List Char := text.dropWhile isPlain

/-- The text behind blanks, line endings and comments, each step one character at least. -/
def skipLinesUpTo : Nat → List Char → List Char
  | 0, text => text
  | n + 1, text =>
    match lineEnd text with
    | some rest => skipLinesUpTo n rest
    | none =>
      match text with
      | [] => []
      | c :: rest =>
        if isSpace c then skipLinesUpTo n rest
        else if c = '#' then skipLinesUpTo n (skipComment rest)
        else c :: rest

/-- The text behind blanks, line endings and comments. -/
def skipLines (text : List Char) : List Char := skipLinesUpTo text.length text

/-- What follows the rest of a line on which only a comment may still stand. -/
def endLine (text : List Char) : Option (List Char) :=
  let text := skipSpaces text
  let text := match text with
    | '#' :: comment => skipComment comment
    | text => text
  match text with
  | [] => some []
  | text => lineEnd text

/-! ## Keys -/

/-- The characters of bare keys. -/
def isKeyChar (c : Char) : Bool := c.isAlphanum || c = '_' || c = '-'

/-- One part of a key. -/
def keyPart : Text.Scan String := fun text =>
  ((Text.run isKeyChar text).map fun (found, rest) => (String.ofList found, rest))
    <|> Quoted.short text

/-- The further parts of a dotted key. -/
def keyPartsUpTo : Nat → List Char → Option (List String × List Char)
  | 0, text => some ([], text)
  | n + 1, text =>
    match skipSpaces text with
    | '.' :: rest => do
      let (part, rest) ← keyPart (skipSpaces rest)
      let (parts, rest) ← keyPartsUpTo n rest
      return (part :: parts, rest)
    | _ => some ([], text)

/-- The number of parts that a key may have. -/
def maxKeyParts : Nat := 80

/-- A key: its parts. -/
def key : Text.Scan (List String) := fun text => do
  let (first, rest) ← keyPart text
  let (parts, rest) ← keyPartsUpTo rest.length rest
  if parts.length < maxKeyParts then return (first :: parts, rest) else none

/-! ## Values -/

/-- The items of an array up to its closing bracket, each read by a given scanner. -/
def itemsUpTo (item : Text.Scan Value) : Nat → List Char → Option (List Value × List Char)
  | 0, _ => none
  | n + 1, text =>
    match skipLines text with
    | ']' :: rest => some ([], rest)
    | text => do
      let (first, rest) ← item text
      match skipLines rest with
      | ',' :: rest => do
        let (more, rest) ← itemsUpTo item n rest
        return (first :: more, rest)
      | ']' :: rest => return ([first], rest)
      | _ => none

/-- A key, an equals sign and a value read by a given scanner, with gaps of a given kind around the
sign. -/
def pair (skip : List Char → List Char) (item : Text.Scan Value) :
    Text.Scan (List String × Value) := fun text => do
  let (path, text) ← key text
  let text ← Text.mark '=' (skip text)
  let (v, text) ← item (skip text)
  return ((path, v), text)

/-- The pairs of a table in braces up to the closing one, added to given entries. -/
def pairsUpTo (item : Text.Scan Value) : Nat → Entries → List Char → Option (Entries × List Char)
  | 0, _, _ => none
  | n + 1, entries, text =>
    match skipLines text with
    | '\x7d' :: rest => some (entries, rest)
    | text => do
      let ((path, v), rest) ← pair skipLines item text
      let entries ← Entries.assign v path true entries
      match skipLines rest with
      | ',' :: rest => pairsUpTo item n entries rest
      | '\x7d' :: rest => return (entries, rest)
      | _ => none

/-- A value that is neither an array nor a table. -/
def plainValue : Text.Scan Value := fun text =>
  ((Quoted.scan text).map fun (found, rest) => (Value.string found, rest)) <|> Scalar.scan text

/-- A value with at most a number of brackets and braces open at any place. -/
def valueUpTo : Nat → Text.Scan Value
  | 0, text => plainValue text
  | n + 1, text =>
    match text with
    | '[' :: rest => (itemsUpTo (valueUpTo n) rest.length rest).map fun (items, rest) =>
      (.array false items, rest)
    | '\x7b' :: rest => (pairsUpTo (valueUpTo n) rest.length [] rest).map fun (entries, rest) =>
      (.table .inline entries, rest)
    | text => plainValue text

/-- The number of brackets and braces that may be open at the same place. -/
def maxNesting : Nat := 80

/-- A value. -/
def value : Text.Scan Value := valueUpTo maxNesting

/-! ## Lines -/

/-- A document under construction: the path of the last header and the entries so far. -/
structure Draft where
  here : List String
  entries : Entries

namespace Draft

/-- Write a pair into the table of the last header. -/
def assign (d : Draft) (path : List String) (v : Value) : Option Draft :=
  match d.here with
  | [] => (d.entries.assign v path true).map fun entries => { d with entries }
  | here => (d.entries.alter (Entries.assignIn path v) here).map fun entries => { d with entries }

/-- Open a table. -/
def openTable (d : Draft) (path : List String) : Option Draft :=
  (d.entries.alter Entries.openTable path).map fun entries => ⟨path, entries⟩

/-- Open a new element of an array of tables. -/
def openElement (d : Draft) (path : List String) : Option Draft :=
  (d.entries.alter Entries.openElement path).map fun entries => ⟨path, entries⟩

end Draft

/-- What a line does to the document, and the text behind what it holds. -/
def expression (d : Draft) (text : List Char) : Option (Draft × List Char) :=
  match text with
  | '[' :: '[' :: text => do
    let (path, text) ← key (skipSpaces text)
    let text ← Text.mark ']' (skipSpaces text)
    let text ← Text.mark ']' text
    return (← d.openElement path, text)
  | '[' :: text => do
    let (path, text) ← key (skipSpaces text)
    let text ← Text.mark ']' (skipSpaces text)
    return (← d.openTable path, text)
  | text => do
    let ((path, v), text) ← pair skipSpaces value text
    return (← d.assign path v, text)

/-- The document that the remaining lines make; each line has one character at least. -/
def linesUpTo : Nat → Draft → List Char → Option Entries
  | 0, d, text => if text = [] then some d.entries else none
  | n + 1, d, text =>
    match skipLines text with
    | [] => some d.entries
    | text => do
      let (d, rest) ← expression d text
      let rest ← endLine rest
      linesUpTo n d rest

/-- The text behind a byte order mark. -/
def dropByteOrderMark : List Char → List Char
  | c :: text => if c = '\ufeff' then text else c :: text
  | [] => []

/-- The entries of a document. -/
def read (text : String) : Option Entries :=
  let text := dropByteOrderMark text.toList
  linesUpTo text.length ⟨[], []⟩ text

end RdfStore.Toml
