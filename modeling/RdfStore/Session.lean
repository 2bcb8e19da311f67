import RdfStore.Settings
import RdfStore.Store.Durable
import RdfStore.Store.Memory

/-!
# Sessions

A session owns one store of either kind. Its yes-or-no and counting questions never fail: an
error is answered as `false` or `0`. A shared session adds a lock, which stays poisoned once a
holder has failed.
-/

namespace RdfStore

/-- The store of a session. -/
inductive Storage where
  | memory (store : MemoryStore)
  | durable (store : DurableStore)

/-- The reply of one kind of store as a reply of either kind. -/
def Reply.lift {σ τ α : Type} (wrap : σ → τ) (r : Reply σ α) : Reply τ α := ⟨r.result, wrap r.store⟩

namespace Storage

open GraphStore PatternSearch

instance : GraphStore Storage where
  namespaces
    | memory s => namespaces s
    | durable s => namespaces s
  defaultGraph
    | memory s => defaultGraph s
    | durable s => defaultGraph s
  graphs
    | memory s => graphs s
    | durable s => graphs s
  contains
    | memory s => contains s
    | durable s => contains s
  create
    | memory s, graph => (create s graph).lift memory
    | durable s, graph => (create s graph).lift durable
  drop
    | memory s, graph => (drop s graph).lift memory
    | durable s, graph => (drop s graph).lift durable
  insert
    | memory s, graph, batch => (insert s graph batch).lift memory
    | durable s, graph, batch => (insert s graph batch).lift durable
  remove
    | memory s, graph, pattern => (remove s graph pattern).lift memory
    | durable s, graph, pattern => (remove s graph pattern).lift durable
  statements
    | memory s => statements s
    | durable s => statements s

instance : PatternSearch Storage where
  matching
    | memory s => matching s
    | durable s => matching s
  hasMatching
    | memory s => hasMatching s
    | durable s => hasMatching s

/-- Register a prefix. -/
def addPrefix (name namespaceUri : String) : Storage → Storage
  | memory s => memory { s with namespaces := s.namespaces.add name namespaceUri }
  | durable s => durable { s with namespaces := s.namespaces.add name namespaceUri }

end Storage

/-- A session. -/
structure Session where
  storage : Storage

namespace Session

/-- The session that settings describe; the file is what is found at the settings' path. -/
def ofSettings (settings : Settings) (file : DatabaseFile) : Except Error Session :=
  match settings.check with
  | .error fault => .error (.settings fault)
  | .ok () =>
    match settings.backend with
    | .memory => .ok ⟨.memory (.empty settings.namespaces settings.defaultGraph)⟩
    | .file _ =>
      match file.open with
      | .error e => .error e
      | .ok tables =>
        .ok ⟨.durable (.load tables settings.namespaces settings.defaultGraph)⟩

/-- Whether a session keeps its statements in a file. -/
def isPersistent (s : Session) : Bool :=
  match s.storage with
  | .memory _ => false
  | .durable _ => true

/-- A copy of a session; a database file has only one owner. -/
def clone? (s : Session) : Option Session :=
  match s.storage with
  | .memory store => some ⟨.memory store⟩
  | .durable _ => none

/-- Whether a graph is registered, by its full or short name. -/
def contains (s : Session) (graph : String) : Bool :=
  GraphStore.contains s.storage ((GraphStore.namespaces s.storage).extend graph)

/-- The number of graphs. -/
def graphCount (s : Session) : Nat := (GraphStore.graphs s.storage).length

/-- The number of statements in a graph, the default graph unless one is given. -/
def count (s : Session) (graph : Option String) : Nat :=
  match Store.count s.storage graph with
  | .ok count => count
  | .error _ => 0

end Session

/-- A session behind a lock. -/
structure SharedSession where
  session : Session
  /-- Whether a holder of the lock has failed. -/
  poisoned : Bool := false

namespace SharedSession

/-- Run an action under the lock. -/
def hold {α : Type} (s : SharedSession) (action : Session → Reply Session α) :
    Reply SharedSession α :=
  if s.poisoned then ⟨.error .lockPoisoned, s⟩
  else
    let reply := action s.session
    ⟨reply.result, { s with session := reply.store }⟩

/-- The lock after a holder has failed. -/
def poison (s : SharedSession) : SharedSession := { s with poisoned := true }

end SharedSession

end RdfStore
