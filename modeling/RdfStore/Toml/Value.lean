import RdfStore.Toml.Moment

/-!
# TOML values

The values of a TOML document, and the rules by which headers and dotted keys build tables. A table
remembers how it came about, because only some ways allow it to be added to later:

* a header `[a.b]` makes `b`, and the table `a` in front of it if there is none yet;
* a dotted key `a.b = …` makes `a`, or takes over the table `a` that headers made in front of
  another one; further dotted keys may extend it, and no header may open it any more;
* a table in braces is complete as it stands.
-/

namespace RdfStore.Toml

/-- How a table came about. -/
inductive Origin where
  /-- By a header of its own, or as the document itself. -/
  | header
  /-- As a part of the path of a header. -/
  | implied
  /-- As a part of a dotted key. -/
  | dotted
  /-- In braces. -/
  | inline
  deriving DecidableEq, Inhabited

/-- A value. Numbers with a fraction keep their text. -/
inductive Value where
  | string (text : String)
  | integer (n : Int)
  | float (text : String)
  | boolean (b : Bool)
  | moment (moment : Moment)
  /-- An array; the flag says whether headers in double brackets made it, so that they may go on
  adding to it. -/
  | array (growing : Bool) (items : List Value)
  | table (origin : Origin) (entries : List (String × Value))
  deriving Inhabited

mutual

/-- Whether all whole numbers in a value pass a test. -/
def Value.allIntegers (test : Int → Bool) : Value → Bool
  | .integer n => test n
  | .array _ items => itemsPass test items
  | .table _ entries => entriesPass test entries
  | _ => true

/-- Whether all whole numbers in the items of an array pass a test. -/
def itemsPass (test : Int → Bool) : List Value → Bool
  | [] => true
  | v :: rest => v.allIntegers test && itemsPass test rest

/-- Whether all whole numbers in the entries of a table pass a test. -/
def entriesPass (test : Int → Bool) : List (String × Value) → Bool
  | [] => true
  | (_, v) :: rest => v.allIntegers test && entriesPass test rest

end

/-- The entries of a table in order. -/
abbrev Entries := List (String × Value)

namespace Entries

/-- The value under a key. -/
def get? (entries : Entries) (key : String) : Option Value :=
  (entries.find? fun entry => decide (entry.1 = key)).map Prod.snd

/-- The value under a key, written in its old place or at the end. -/
def set (entries : Entries) (key : String) (v : Value) : Entries :=
  if (entries.get? key).isSome then
    entries.map fun entry => if entry.1 = key then (key, v) else entry
  else entries ++ [(key, v)]

/-- An array that headers made, with its last table replaced. -/
def setLast (items : List Value) (entries : Entries) : Value :=
  .array true (items.dropLast ++ [.table .header entries])

/-- Write a value under a dotted key into a table. The tables that it passes through are dotted ones
from then on; a table with a header of its own is closed to it, and the flag says whether the table
at hand takes a value, which the last one of an array of tables does not. -/
def assign (v : Value) : List String → Bool → Entries → Option Entries
  | [], _, _ => none
  | [key], accepts, entries =>
    if accepts && (entries.get? key).isNone then some (entries.set key v) else none
  | key :: path, _, entries =>
    match entries.get? key with
    | none => (assign v path true []).map fun sub => entries.set key (.table .dotted sub)
    | some (.table .dotted sub) =>
      (assign v path true sub).map fun sub => entries.set key (.table .dotted sub)
    | some (.table .implied sub) =>
      (assign v path true sub).map fun sub => entries.set key (.table .dotted sub)
    | some (.array true items) =>
      match items.getLast? with
      | some (.table _ sub) =>
        (assign v path false sub).map fun sub => entries.set key (setLast items sub)
      | _ => none
    | some _ => none

/-- Change the table that the last part of a header's path stands for, making the tables in front
of it as needed. -/
def alter (change : Option Value → Option Value) : List String → Entries → Option Entries
  | [], _ => none
  | [key], entries => (change (entries.get? key)).map fun v => entries.set key v
  | key :: path, entries =>
    match entries.get? key with
    | none => (alter change path []).map fun sub => entries.set key (.table .implied sub)
    | some (.table .inline _) => none
    | some (.table origin sub) =>
      (alter change path sub).map fun sub => entries.set key (.table origin sub)
    | some (.array true items) =>
      match items.getLast? with
      | some (.table _ sub) => (alter change path sub).map fun sub => entries.set key (setLast items sub)
      | _ => none
    | some _ => none

/-- What a header in single brackets makes of the value under its last key. -/
def openTable : Option Value → Option Value
  | none => some (.table .header [])
  | some (.table .implied entries) => some (.table .header entries)
  | some _ => none

/-- What a header in double brackets makes of the value under its last key. -/
def openElement : Option Value → Option Value
  | none => some (.array true [.table .header []])
  | some (.array true items) => some (.array true (items ++ [.table .header []]))
  | some _ => none

/-- What a pair makes of the table that the last header stands for. -/
def assignIn (path : List String) (v : Value) : Option Value → Option Value
  | some (.table origin entries) => (assign v path true entries).map (.table origin)
  | some (.array true items) =>
    match items.getLast? with
    | some (.table _ entries) => (assign v path true entries).map (setLast items)
    | _ => none
  | _ => none

end Entries

end RdfStore.Toml
