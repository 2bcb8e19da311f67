import RdfStore.Text.Scan
import RdfStore.Toml.Value

/-!
# Bare TOML values

Booleans, numbers and points in time: the values that are written without brackets or quotes. Each
is recognised from its whole text.
-/

namespace RdfStore.Toml.Scalar

/-! ## Numbers -/

/-- Digits of a class, with single underscores between them; the underscores are left out. -/
def digitsFrom (p : Char → Bool) : List Char → Option (List Char)
  | [] => none
  | [c] => if p c then some [c] else none
  | c :: '_' :: text => if p c then (digitsFrom p text).map (c :: ·) else none
  | c :: text => if p c then (digitsFrom p text).map (c :: ·) else none

/-- The value of a digit. -/
def digitValue (c : Char) : Nat :=
  if c.isDigit then c.toNat - '0'.toNat else c.toLower.toNat - 'a'.toNat + 10

/-- The number that digits make in a base. -/
def numberOf (base : Nat) (digits : List Char) : Nat :=
  digits.foldl (fun n c => n * base + digitValue c) 0

/-- Whether a character is a digit in base sixteen. -/
def isHex (c : Char) : Bool := c.isDigit || (decide ('a' ≤ c) && decide (c ≤ 'f'))
  || (decide ('A' ≤ c) && decide (c ≤ 'F'))

/-- Whether a character is a digit in base eight. -/
def isOctal (c : Char) : Bool := decide ('0' ≤ c) && decide (c ≤ '7')

/-- Whether a character is a digit in base two. -/
def isBinary (c : Char) : Bool := c = '0' || c = '1'

/-- Decimal digits without a leading zero. -/
def plainDigits (text : List Char) : Option (List Char) :=
  match digitsFrom Char.isDigit text with
  | some ('0' :: _ :: _) => none
  | found => found

/-- The sign in front of a number, and the rest. -/
def sign : List Char → Bool × List Char
  | '+' :: text => (false, text)
  | '-' :: text => (true, text)
  | text => (false, text)

/-- A whole number. -/
def wholeNumber (text : List Char) : Option Int :=
  match text with
  | '0' :: 'x' :: text => (digitsFrom isHex text).map fun ds => numberOf 16 ds
  | '0' :: 'o' :: text => (digitsFrom isOctal text).map fun ds => numberOf 8 ds
  | '0' :: 'b' :: text => (digitsFrom isBinary text).map fun ds => numberOf 2 ds
  | text =>
    let (negative, text) := sign text
    (plainDigits text).map fun ds => if negative then -(numberOf 10 ds : Int) else numberOf 10 ds

/-- Whether a number fits into 128 bits, signed or not. -/
def fits (n : Int) : Bool := decide (-Int.pow 2 127 ≤ n) && decide (n < Int.pow 2 128)

/-- The text before and after the first character of a class. -/
def splitAt? (p : Char → Bool) (text : List Char) : Option (List Char × List Char) :=
  match text.dropWhile fun c => !p c with
  | [] => none
  | _ :: rest => some (text.takeWhile fun c => !p c, rest)

/-- Whether a character introduces an exponent. -/
def isExponentMark (c : Char) : Bool := c = 'e' || c = 'E'

/-- A number in decimal digits, possibly with a sign. -/
def signed (text : List Char) : Option Int :=
  let (negative, text) := sign text
  (digitsFrom Char.isDigit text).map fun ds =>
    if negative then -(numberOf 10 ds : Int) else numberOf 10 ds

/-- The digits of a number with a fraction, an exponent or both, and the power of ten that they
count. -/
def scientific (text : List Char) : Option (List Char × Int) := do
  let (mantissa, exponent) ←
    match splitAt? isExponentMark text with
    | some (mantissa, exponent) => (signed exponent).map fun power => (mantissa, some power)
    | none => some (text, none)
  match splitAt? (fun c => decide (c = '.')) mantissa with
  | some (whole, fraction) =>
    let whole ← plainDigits whole
    let fraction ← digitsFrom Char.isDigit fraction
    return (whole ++ fraction, exponent.getD 0 - fraction.length)
  | none =>
    let power ← exponent
    return (← plainDigits mantissa, power)

/-- Numbers from here on are rounded to infinity in double precision: half a step above the
greatest finite number. -/
def doubleBound : Nat := Nat.pow 2 1024 - Nat.pow 2 970

/-- Whether a power of ten, counted by digits, is finite in double precision. The bound has 309
digits, so numbers of another size need no comparison. -/
def isDouble (digits : List Char) (power : Int) : Bool :=
  let digits := digits.dropWhile fun c => decide (c = '0')
  let size := digits.length + power
  if digits = [] then true
  else if size ≠ 309 then decide (size < 309)
  else
    decide (numberOf 10 digits * Nat.pow 10 power.toNat < doubleBound * Nat.pow 10 (-power).toNat)

/-- Whether a text is a finite number with a fraction, an exponent or both, or one of the words for
infinity and for no number. -/
def isFloat (text : List Char) : Bool :=
  let body := (sign text).2
  body = "inf".toList || body = "nan".toList
    || (scientific body).any fun (digits, power) => isDouble digits power

/-! ## All together -/

/-- The value of a bare text. -/
def ofText (text : List Char) : Option Value :=
  if text = "true".toList then some (.boolean true)
  else if text = "false".toList then some (.boolean false)
  else
    match wholeNumber text with
    | some n => if fits n then some (.integer n) else none
    | none =>
      if isFloat text then some (.float (String.ofList text))
      else (Moment.read text).map .moment

/-- The characters of bare values. -/
def isChar (c : Char) : Bool :=
  c.isAlphanum || c = '_' || c = '+' || c = '-' || c = '.' || c = ':'

/-- Whether a text starts with a digit. -/
def startsWithDigit : List Char → Bool
  | [] => false
  | c :: _ => c.isDigit

/-- A bare value in front of a text. One space may stand between a date and a time of day. -/
def scan : Text.Scan Value := fun text => do
  let (found, rest) ← Text.run isChar text
  let (found, rest) :=
    match Date.scan found, rest with
    | some (_, []), ' ' :: later =>
      if startsWithDigit later then (found ++ ' ' :: later.takeWhile isChar, later.dropWhile isChar)
      else (found, rest)
    | _, _ => (found, rest)
  return (← ofText found, rest)

end RdfStore.Toml.Scalar
