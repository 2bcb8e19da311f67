import RdfStore.Error
import RdfStore.Namespaces
import RdfStore.Text.Blank

/-!
# Settings

What a session is built from: the kind of storage, the name of the default graph and the
prefixes. Settings can be overridden by three environment variables, and are checked afterwards.
-/

namespace RdfStore

/-- Where a store keeps its statements. -/
inductive Backend where
  | memory
  /-- In the database file at a path. -/
  | file (path : String)
  deriving DecidableEq, Inhabited

/-- The name of the default graph unless settings say otherwise. -/
def standardDefaultGraph : String := "urn:x-quadrant:default-graph"

/-- The settings of a session. -/
structure Settings where
  backend : Backend := .memory
  defaultGraph : String := standardDefaultGraph
  /-- Whether the well-known prefixes come first. -/
  standardPrefixes : Bool := true
  /-- Further prefixes, in order. -/
  prefixes : OrderedMap String String := .empty

namespace Settings

instance : Inhabited Settings := ⟨{}⟩

/-- The prefixes that settings describe. -/
def namespaces (s : Settings) : Namespaces :=
  (if s.standardPrefixes then Namespaces.standard else .empty).addAll s.prefixes.entries

/-- Whether a prefix entry cannot be used. -/
def isBadEntry (entry : String × String) : Bool :=
  entry.1.isEmpty || entry.1.toList.contains ':' || entry.2.isEmpty

/-- The first fault of settings: the default graph, then the path, then the prefixes. -/
def check (s : Settings) : Except SettingsFault Unit :=
  if Text.isAllBlank s.defaultGraph.toList then .error .emptyDefaultGraph
  else if s.backend = .file "" then .error .emptyPath
  else
    match s.prefixes.entries.find? isBadEntry with
    | some entry => .error (.prefixEntry entry.1)
    | none => .ok ()

/-! ## Overrides -/

/-- The variable that chooses the kind of storage. -/
def backendVariable : String := "QUADRANT_BACKEND"

/-- The variable that holds the path of the database. -/
def pathVariable : String := "QUADRANT_DB_PATH"

/-- The variable that holds the name of the default graph. -/
def defaultGraphVariable : String := "QUADRANT_DEFAULT_GRAPH"

/-- A text with its ASCII letters in lower case. -/
def lowerCase (text : String) : String := String.ofList (text.toList.map Char.toLower)

/-- The storage that a kind and a path choose over a given one. -/
def overrideBackend (base : Backend) (kind path : Option String) : Except SettingsFault Backend :=
  match kind with
  | none => .ok ((path.map Backend.file).getD base)
  | some kind =>
    let kind := lowerCase kind
    if kind = "memory" then .ok .memory
    else if kind = "redb" then
      match path, base with
      | some path, _ => .ok (.file path)
      | none, .file path => .ok (.file path)
      | none, .memory => .error .pathMissing
    else .error (.unknownBackend kind)

/-- Settings with the overrides of an environment, checked. -/
def override (s : Settings) (environment : String → Option String) :
    Except SettingsFault Settings := do
  let backend ←
    overrideBackend s.backend (environment backendVariable) (environment pathVariable)
  let overridden :=
    { s with
      backend
      defaultGraph := (environment defaultGraphVariable).getD s.defaultGraph }
  overridden.check
  return overridden

end Settings

end RdfStore
