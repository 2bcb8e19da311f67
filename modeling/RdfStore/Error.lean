import RdfStore.Query.Fault
import RdfStore.Statement.Fault

/-!
# Errors

Everything that can go wrong in a store or a session, by its cause, and the wording of each.
-/

namespace RdfStore

/-- Why settings are refused. -/
inductive SettingsFault where
  /-- The text is not a settings document. -/
  | document
  | emptyDefaultGraph
  | emptyPath
  /-- A prefix is empty or holds a colon, or its namespace is empty. -/
  | prefixEntry (name : String)
  /-- A database is asked for by name, but no path is known. -/
  | pathMissing
  /-- A kind of storage that does not exist, in lower case. -/
  | unknownBackend (kind : String)
  deriving DecidableEq

/-- The wording of a refusal of settings. -/
def SettingsFault.message : SettingsFault → String
  | document => "the text is not a settings document"
  | emptyDefaultGraph => "default_graph must not be empty"
  | emptyPath => "redb backend requires a path"
  | prefixEntry name => "invalid prefix entry '" ++ name ++ "'"
  | pathMissing => "QUADRANT_BACKEND=redb requires QUADRANT_DB_PATH"
  | unknownBackend kind => "unknown backend '" ++ kind ++ "'"

/-- Why a file cannot be used. -/
inductive StorageFault where
  /-- There is no file to read, or no directory to create it in. -/
  | missing
  /-- The file's bytes are not what they should be. -/
  | unreadable
  /-- A stored quad refers to a value that is not in the value table. -/
  | danglingValue (id : Nat)
  deriving DecidableEq

/-- The wording of a fault of a file. -/
def StorageFault.message : StorageFault → String
  | missing => "no such file or directory"
  | unreadable => "the file cannot be read"
  | danglingValue id => "quad references missing value " ++ toString id

/-- An operation that only some stores offer. -/
inductive Operation where
  | matching
  | hasMatching
  deriving DecidableEq

/-- The wording of a missing operation. -/
def Operation.message : Operation → String
  | matching => "get_matching_statements on the redb backend"
  | hasMatching => "has_matching_statement on the redb backend"

/-- What can go wrong. -/
inductive Error where
  /-- A graph that is not registered was written to or asked for. -/
  | graphNotFound (graph : String)
  | query (fault : Query.Fault)
  | statement (fault : StatementFault)
  | notImplemented (operation : Operation)
  | storage (fault : StorageFault)
  | settings (fault : SettingsFault)
  /-- A holder of a shared session failed while it had the lock. -/
  | lockPoisoned
  deriving DecidableEq

/-- The wording of an error. -/
def Error.message : Error → String
  | graphNotFound graph => "Graph not found: " ++ graph
  | query fault => fault.message
  | statement fault => "Invalid statement: " ++ fault.message
  | notImplemented operation => "Not implemented: " ++ operation.message
  | storage fault => "I/O error: " ++ fault.message
  | settings fault => "Configuration error: " ++ fault.message
  | lockPoisoned => "Store lock poisoned"

end RdfStore
