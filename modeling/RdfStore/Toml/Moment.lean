import RdfStore.Text.Scan

/-!
# Points in time

Dates, times of day and both together, as TOML writes them. `Moment.read` reads the whole of a
text, which must name a day that exists; `Moment.text` writes a moment in one fixed form, with a
capital `T` in front of the time and no needless zeros behind the seconds.
-/

namespace RdfStore.Toml

/-- A day of the calendar. -/
structure Date where
  year : Nat
  month : Nat
  day : Nat
  deriving DecidableEq, Inhabited

/-- A time of day. Seconds, and billionths behind them, are kept only if they are written. -/
structure TimeOfDay where
  hour : Nat
  minute : Nat
  second : Option Nat
  nanosecond : Option Nat
  deriving DecidableEq, Inhabited

/-- The distance from universal time. -/
inductive Offset where
  | universal
  /-- East of it, or west if negative. -/
  | minutes (n : Int)
  deriving DecidableEq, Inhabited

/-- A point in time, as far as it is given. -/
inductive Moment where
  | date (day : Date)
  | time (clock : TimeOfDay)
  | both (day : Date) (clock : TimeOfDay) (offset : Option Offset)
  deriving DecidableEq, Inhabited

/-! ## Reading -/

/-- The number made of a count of digits in front of a text, behind a number read before. -/
def digitsOf : Nat → Nat → Text.Scan Nat
  | 0, n, text => some (n, text)
  | _ + 1, _, [] => none
  | count + 1, n, c :: text =>
    if c.isDigit then digitsOf count (n * 10 + (c.toNat - '0'.toNat)) text else none

/-- The number made of two digits. -/
def twoDigits : Text.Scan Nat := digitsOf 2 0

namespace Date

/-- The number of days of a month. -/
def daysIn (year month : Nat) : Nat :=
  if month = 2 then (if (year % 4 = 0 ∧ year % 100 ≠ 0) ∨ year % 400 = 0 then 29 else 28)
  else if month = 4 ∨ month = 6 ∨ month = 9 ∨ month = 11 then 30
  else 31

/-- A date. -/
def scan : Text.Scan Date := fun text => do
  let (year, text) ← digitsOf 4 0 text
  let text ← Text.mark '-' text
  let (month, text) ← twoDigits text
  let text ← Text.mark '-' text
  let (day, text) ← twoDigits text
  if 1 ≤ month ∧ month ≤ 12 ∧ 1 ≤ day ∧ day ≤ daysIn year month then
    return (⟨year, month, day⟩, text)
  else none

end Date

namespace TimeOfDay

/-- The billionths that the digits of a fraction make; further digits are dropped. -/
def billionths (digits : List Char) : Nat :=
  (digits.take 9 ++ List.replicate (9 - digits.length) '0').foldl
    (fun n c => n * 10 + (c.toNat - '0'.toNat)) 0

/-- The fraction behind the seconds, if there is one. -/
def fraction : Text.Scan (Option Nat)
  | '.' :: text => (Text.run Char.isDigit text).map fun (digits, rest) =>
    (some (billionths digits), rest)
  | text => some (none, text)

/-- A time of day. -/
def scan : Text.Scan TimeOfDay := fun text => do
  let (hour, text) ← twoDigits text
  let text ← Text.mark ':' text
  let (minute, text) ← twoDigits text
  if hour ≤ 23 ∧ minute ≤ 59 then
    match text with
    | ':' :: text =>
      let (second, text) ← twoDigits text
      if second ≤ 60 then
        let (nanosecond, text) ← fraction text
        return (⟨hour, minute, some second, nanosecond⟩, text)
      else none
    | text => return (⟨hour, minute, none, none⟩, text)
  else none

end TimeOfDay

namespace Offset

/-- An offset of some hours and minutes behind its sign. -/
def hoursAndMinutes (sign : Int) (text : List Char) : Option Offset := do
  let (hour, text) ← twoDigits text
  let text ← Text.mark ':' text
  let (minute, text) ← twoDigits text
  if hour ≤ 23 ∧ minute ≤ 59 ∧ text = [] then return minutes (sign * (hour * 60 + minute : Nat))
  else none

/-- The offset that a whole text is; an empty text has none. -/
def read : List Char → Option (Option Offset)
  | [] => some none
  | ['Z'] => some (some universal)
  | ['z'] => some (some universal)
  | '+' :: text => (hoursAndMinutes 1 text).map some
  | '-' :: text => (hoursAndMinutes (-1) text).map some
  | _ => none

end Offset

namespace Moment

/-- Whether a character may stand between a date and a time of day. -/
def isSeparator (c : Char) : Bool := c = 'T' || c = 't' || c = ' '

/-- The moment of a day and what follows it. -/
def readBehind (day : Date) : List Char → Option Moment
  | [] => some (.date day)
  | c :: text =>
    if isSeparator c then do
      let (clock, text) ← TimeOfDay.scan text
      return both day clock (← Offset.read text)
    else none

/-- The moment that a whole text is. -/
def read (text : List Char) : Option Moment :=
  match Date.scan text with
  | some (day, rest) => readBehind day rest
  | none =>
    match TimeOfDay.scan text with
    | some (clock, []) => some (.time clock)
    | _ => none

end Moment

/-! ## Writing -/

/-- The last decimal digits of a number, as many as asked for. -/
def padded : Nat → Nat → List Char
  | 0, _ => []
  | width + 1, n => padded width (n / 10) ++ [Nat.digitChar (n % 10)]

/-- A date with its parts between hyphens. -/
def Date.text (d : Date) : List Char :=
  padded 4 d.year ++ '-' :: padded 2 d.month ++ '-' :: padded 2 d.day

/-- A fraction without the zeros at its end, but with one digit at least. -/
def TimeOfDay.fractionText (nanosecond : Nat) : List Char :=
  match ((padded 9 nanosecond).reverse.dropWhile fun c => decide (c = '0')).reverse with
  | [] => ['0']
  | digits => digits

/-- A time of day with its parts between colons. -/
def TimeOfDay.text (t : TimeOfDay) : List Char :=
  padded 2 t.hour ++ ':' :: padded 2 t.minute
    ++ (match t.second with
      | some second => ':' :: padded 2 second
      | none => [])
    ++ (match t.nanosecond with
      | some nanosecond => '.' :: TimeOfDay.fractionText nanosecond
      | none => [])

/-- An offset with its sign. -/
def Offset.text : Offset → List Char
  | universal => ['Z']
  | minutes n =>
    (if n < 0 then '-' else '+') :: padded 2 (n.natAbs / 60) ++ ':' :: padded 2 (n.natAbs % 60)

/-- A moment in its fixed form. -/
def Moment.text : Moment → List Char
  | date day => day.text
  | time clock => clock.text
  | both day clock offset =>
    day.text ++ 'T' :: clock.text
      ++ (match offset with
        | some offset => offset.text
        | none => [])

end RdfStore.Toml
