import RdfStore.Query.Syntax
import RdfStore.Text.Quoted
import RdfStore.Text.Scan

/-!
# Tokens of the query language

One scanner per token class; every class reads as far as it can. `skip` passes over blanks and
comments, which may stand between any two tokens but never inside one.
-/

namespace RdfStore.Query.Token

open Text (Scan run)

/-! ## Blanks, comments and keywords -/

/-- The characters that separate tokens. -/
def isSpace (c : Char) : Bool := c = ' ' || c = '\t' || c = '\r' || c = '\n'

/-- Whether a character ends a comment. -/
def endsLine (c : Char) : Bool := c = '\r' || c = '\n'

/-- Pass over blanks and comments; the flag says whether the text starts inside a comment. -/
def skipFrom : Bool → List Char → List Char
  | _, [] => []
  | true, c :: text => skipFrom (!endsLine c) text
  | false, c :: text =>
    if isSpace c then skipFrom false text
    else if c = '#' then skipFrom true text
    else c :: text

/-- Pass over blanks and comments. -/
def skip (text : List Char) : List Char := skipFrom false text

/-- Read a keyword, given in upper case, in any case. What follows it is not looked at. -/
def keyword : List Char → List Char → Option (List Char)
  | [], text => some text
  | _ :: _, [] => none
  | k :: word, c :: text => if c.toUpper = k then keyword word text else none

/-! ## Names -/

/-- The characters of variable names. -/
def isNameChar (c : Char) : Bool := c.isAlphanum || c = '_'

/-- The characters of blank labels, and of prefixes after their first letter. -/
def isLabelChar (c : Char) : Bool := c.isAlphanum || c = '_' || c = '-'

/-- The characters of the local part of a prefixed name. -/
def isLocalChar (c : Char) : Bool := isLabelChar c || c = '%' || c = '/' || c = '#'

/-- The characters of a URI between angle brackets. -/
def isUriChar (c : Char) : Bool := !(c = '>' || c = '<' || isSpace c)

/-- A variable: its sign and its name, which is what counts. -/
def «variable» : Scan String
  | [] => none
  | c :: text =>
    if c = '?' || c = '$' then (run isNameChar text).map fun (name, rest) => (String.ofList name, rest)
    else none

/-- A URI between angle brackets. -/
def uri : Scan String
  | '<' :: text =>
    match text.dropWhile isUriChar with
    | '>' :: rest => some (String.ofList (text.takeWhile isUriChar), rest)
    | _ => none
  | _ => none

/-- A blank node: its label. -/
def blank : Scan String
  | '_' :: ':' :: text => (run isLabelChar text).map fun (label, rest) => (String.ofList label, rest)
  | _ => none

/-- The part of a prefixed name before the colon, possibly empty. -/
def prefixPart : List Char → List Char × List Char
  | [] => ([], [])
  | c :: text =>
    if c.isAlpha then (c :: text.takeWhile isLabelChar, text.dropWhile isLabelChar)
    else ([], c :: text)

/-- A prefix and its colon: the prefix. -/
def prefixName (text : List Char) : Option (String × List Char) :=
  match prefixPart text with
  | (name, ':' :: rest) => some (String.ofList name, rest)
  | _ => none

/-- A prefixed name, as written. -/
def prefixedName (text : List Char) : Option (String × List Char) :=
  match prefixPart text with
  | (name, ':' :: rest) =>
    some (String.ofList (name ++ ':' :: rest.takeWhile isLocalChar), rest.dropWhile isLocalChar)
  | _ => none

/-- A URI in either notation. -/
def anyUri (text : List Char) : Option (String × List Char) := uri text <|> prefixedName text

/-! ## Literals -/

/-- The characters up to an unescaped quote, backslash or line feed; a backslash takes the next
character with it, whatever that is. -/
def quotedBody (quote : Char) : List Char → List Char × List Char
  | [] => ([], [])
  | '\\' :: c :: text =>
    let (body, rest) := quotedBody quote text
    ('\\' :: c :: body, rest)
  | c :: text =>
    if c = quote || c = '\\' || c = '\n' then ([], c :: text)
    else
      let (body, rest) := quotedBody quote text
      (c :: body, rest)

/-- The subtags of a language tag: each a hyphen and at least one letter or digit. The flag says
whether a subtag is open. -/
def subtags : Bool → List Char → List Char × List Char
  | _, [] => ([], [])
  | _, '-' :: d :: text =>
    if d.isAlphanum then
      let (tags, rest) := subtags true text
      ('-' :: d :: tags, rest)
    else ([], '-' :: d :: text)
  | inside, c :: text =>
    if inside && c.isAlphanum then
      let (tags, rest) := subtags true text
      (c :: tags, rest)
    else ([], c :: text)

/-- A language tag behind its sign. -/
def language : Scan String
  | '@' :: text =>
    match run Char.isAlpha text with
    | some (main, rest) =>
      let (tags, rest) := subtags false rest
      some (String.ofList (main ++ tags), rest)
    | none => none
  | _ => none

/-- A datatype behind its sign. -/
def datatype : Scan String
  | '^' :: '^' :: text => anyUri text
  | _ => none

/-- What may follow a closing quote: a language tag, a datatype or nothing. -/
def qualify (value : String) (text : List Char) : Literal × List Char :=
  match language text with
  | some (tag, rest) => (⟨value, none, some tag⟩, rest)
  | none =>
    match datatype text with
    | some (type, rest) => (⟨value, some type, none⟩, rest)
    | none => (⟨value, none, none⟩, text)

/-- A quoted literal. -/
def literal : Scan Literal
  | [] => none
  | quote :: text =>
    if quote = '"' || quote = '\'' then
      match quotedBody quote text with
      | (body, close :: rest) =>
        if close = quote then some (qualify (String.ofList (Text.unescape body)) rest) else none
      | (_, []) => none
    else none

/-- The datatype of bare numbers without a fraction. -/
def integerType : String := "http://www.w3.org/2001/XMLSchema#integer"

/-- The datatype of bare numbers with a fraction. -/
def decimalType : String := "http://www.w3.org/2001/XMLSchema#decimal"

/-- The sign of a number, if any. -/
def sign : List Char → List Char × List Char
  | '-' :: text => (['-'], text)
  | text => ([], text)

/-- The fraction of a number: a point and at least one digit. -/
def fraction : Scan (List Char)
  | '.' :: text => (run Char.isDigit text).map fun (digits, rest) => ('.' :: digits, rest)
  | _ => none

/-- A bare number: a literal with its digits as written. -/
def number (text : List Char) : Option (Literal × List Char) :=
  let (minus, text) := sign text
  match run Char.isDigit text with
  | none => none
  | some (digits, rest) =>
    match fraction rest with
    | some (part, rest) => some (⟨String.ofList (minus ++ digits ++ part), some decimalType, none⟩, rest)
    | none => some (⟨String.ofList (minus ++ digits), some integerType, none⟩, rest)

/-! ## Terms -/

/-- The URI that the keyword `a` stands for. -/
def typeUri : String := "http://www.w3.org/1999/02/22-rdf-syntax-ns#type"

/-- The keyword `a`, which no character of a longer name may follow. -/
def typeKeyword : Scan String
  | 'a' :: c :: text => if isLabelChar c || c = ':' then none else some (typeUri, c :: text)
  | ['a'] => some (typeUri, [])
  | _ => none

/-- A term of a triple pattern; the first class that fits is taken. -/
def term (text : List Char) : Option (Term × List Char) :=
  ((«variable» text).map fun (name, rest) => (Term.variable name, rest))
    <|> ((uri text).map fun (uri, rest) => (Term.uri uri, rest))
    <|> ((blank text).map fun (label, rest) => (Term.blank label, rest))
    <|> ((literal text).map fun (l, rest) => (Term.literal l, rest))
    <|> ((number text).map fun (l, rest) => (Term.literal l, rest))
    <|> ((prefixedName text).map fun (uri, rest) => (Term.uri uri, rest))
    <|> ((typeKeyword text).map fun (uri, rest) => (Term.uri uri, rest))

end RdfStore.Query.Token
