import RdfStore.Text.Blank
import RdfStore.Text.Cut
import RdfStore.Text.Lines

/-!
# The form of a query text

Which kind of query a text is, judged by its first word behind the prologue, without reading it by
the grammar. `codeOf` takes line comments away by a rule of its own: a line is cut at its last
`#`, unless more angle brackets are opened than closed in front of it, because then the `#` is
part of a URI.
-/

namespace RdfStore.Query

/-- A text without its line comments. -/
def codeOfLine (line : List Char) : List Char :=
  match Text.cutLast? '#' line with
  | some (before, _) => if before.count '<' ≤ before.count '>' then before else line
  | none => line

/-- A text without line comments. -/
def codeOf (text : List Char) : List Char := Text.joinLines ((Text.lines text).map codeOfLine)

/-- The query forms that are recognised but not evaluated. -/
def otherForms : List String :=
  ["ASK", "CONSTRUCT", "DESCRIBE", "INSERT", "DELETE", "LOAD", "CLEAR", "CREATE", "DROP", "COPY",
    "MOVE", "ADD", "WITH"]

/-- The letters in front of a text, in upper case. -/
def leadingWord (text : List Char) : String :=
  String.ofList ((text.takeWhile Char.isAlpha).map Char.toUpper)

/-- The form of a query text. -/
inductive Form where
  | select
  /-- A form that is not evaluated, by its keyword. -/
  | other (keyword : String)
  /-- No known keyword stands behind the prologue. -/
  | unknown
  deriving DecidableEq

/-- The form of a text after at most a number of PREFIX declarations. A declaration reaches to the
next closing angle bracket. -/
def formAfter : Nat → List Char → Form
  | 0, _ => .unknown
  | n + 1, text =>
    let word := leadingWord text
    if word = "PREFIX" then
      match Text.cut? ['>'] text with
      | some (_, rest) => formAfter n (Text.trimFront rest)
      | none => .unknown
    else if word = "SELECT" then .select
    else if otherForms.contains word then .other word
    else .unknown

/-- The form of a query text. -/
def formOf (text : List Char) : Form :=
  let code := codeOf text
  formAfter (code.length + 1) (Text.trimFront code)

end RdfStore.Query
