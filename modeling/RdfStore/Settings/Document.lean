import RdfStore.Settings
import RdfStore.Toml.Document

/-!
# Settings documents

Settings in a TOML document: the table `backend` with a `kind` and, for a database, a `path`; the
texts `default_graph` and `standard_prefixes`; and the table `prefixes`. What is not given keeps its
standard value, and unknown keys are ignored.
-/

namespace RdfStore.Settings

open Toml (Value Entries)

/-- A text. -/
def text? : Value → Option String
  | .string text => some text
  | _ => none

/-- A truth value. -/
def boolean? : Value → Option Bool
  | .boolean b => some b
  | _ => none

/-- The key of the one entry that a point in time has where a table is asked for. -/
def momentKey : String := "$__toml_private_datetime"

/-- The entries of a table all of whose values are texts; a point in time counts as a table with one
entry. -/
def texts? : Value → Option (OrderedMap String String)
  | .table _ entries =>
    (entries.mapM fun entry => (text? entry.2).map fun text => (entry.1, text)).map .ofList
  | .moment moment => some (.ofList [(momentKey, String.ofList moment.text)])
  | _ => none

/-- The backend of a kind, whose path is looked up only where the kind needs one. -/
def backendOf (kind : Value) (path : Option Value) : Option Backend :=
  match kind with
  | .string "memory" => some .memory
  | .string "redb" => (path.bind text?).map .file
  | _ => none

/-- Whether a number fits into 64 bits, signed or not. -/
def isWord (n : Int) : Bool := decide (-Int.pow 2 63 ≤ n) && decide (n < Int.pow 2 64)

/-- A backend: a table with its kind and its path, or an array of just these. Whatever else the
table holds, its whole numbers must be of 64 bits. -/
def backend? (v : Value) : Option Backend :=
  if v.allIntegers isWord then
    match v with
    | .table _ entries => do
      let kind ← Entries.get? entries "kind"
      backendOf kind (Entries.get? entries "path")
    | .array _ [.string "memory"] => some .memory
    | .array _ [.string "redb", .string path] => some (.file path)
    | _ => none
  else none

/-- A value of a key that may be missing. -/
def optional {α : Type} (read : Value → Option α) (default : α) (found : Option Value) : Option α :=
  match found with
  | none => some default
  | some v => read v

/-- The settings that the entries of a document make. -/
def ofEntries (entries : Entries) : Option Settings := do
  let standard : Settings := {}
  let backend ← optional backend? standard.backend (entries.get? "backend")
  let defaultGraph ← optional text? standard.defaultGraph (entries.get? "default_graph")
  let standardPrefixes ← optional boolean? standard.standardPrefixes (entries.get? "standard_prefixes")
  let prefixes ← optional texts? standard.prefixes (entries.get? "prefixes")
  return ⟨backend, defaultGraph, standardPrefixes, prefixes⟩

/-- The settings of a document, checked. -/
def ofDocument (text : String) : Except SettingsFault Settings :=
  match (Toml.read text).bind ofEntries with
  | none => .error .document
  | some settings =>
    match settings.check with
    | .error fault => .error fault
    | .ok () => .ok settings

/-- The settings in a file, of which the bytes are given unless it is missing. -/
def ofFile (bytes : Option ByteArray) : Except Error Settings :=
  match bytes with
  | none => .error (.storage .missing)
  | some bytes =>
    match String.fromUTF8? bytes with
    | none => .error (.storage .unreadable)
    | some text => (ofDocument text).mapError Error.settings

end RdfStore.Settings
