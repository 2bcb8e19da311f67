import RdfStore.Store.Durable
import RdfStore.Store.Memory

/-!
# Histories of a store

What callers can do to a store, as data: `Change` lists the operations that may alter it,
`Question` those that only read it. Both are run over any representation, so one history can be
replayed against several of them and the answers compared.

* `Turn.replay` replays changes and questions and collects the answers; between two of them the
  store may be closed and opened again.
* `Event.after` is the store after a history that may also use the primitive insertion and may
  open the file again with other prefixes and another default graph.

How a representation is closed and opened again is a parameter: `DurableStore.reopen` rebuilds the
store from its tables, and a store that is never closed takes the identity.
-/

namespace RdfStore

open GraphStore

/-- A reply with its result translated. -/
def Reply.map {σ α β : Type} (f : α → β) (r : Reply σ α) : Reply σ β := ⟨r.result.map f, r.store⟩

/-- What an operation tells its caller. -/
inductive Answer where
  | done
  | number (count : Nat)
  | truth (value : Bool)
  | names (graphs : List String)
  | statements (found : List Statement)
  | solutions (found : Query.Solutions)

/-- An operation that may alter a store. An addition brings the random bits of its labels. -/
inductive Change where
  | create (graph : String)
  | drop (graph : String)
  | add (draws : Draws) (statements : List Statement) (graph : Option String)
  | delete (pattern : Statement) (graph : Option String)
  /-- The primitive removal: nothing is extended. -/
  | remove (graph : String) (pattern : Statement)

/-- An operation that only reads a store. -/
inductive Question where
  | graphs
  | contains (graph : String)
  | statements (graph : String)
  | count (graph : Option String)
  /-- The graphs that a deletion by pattern would look at. -/
  | targets (pattern : Statement) (graph : Option String)
  | query (text : String) (limit : Option Nat)

section Run

variable {σ : Type} [GraphStore σ]

/-- Carry out a change. -/
def Change.run (s : σ) : Change → Reply σ Answer
  | create graph => (GraphStore.create s graph).map fun _ => .done
  | drop graph => (GraphStore.drop s graph).map fun _ => .done
  | add draws statements graph => (Store.add s draws statements graph).map .number
  | delete pattern graph => (Store.delete s pattern graph).map .number
  | remove graph pattern => (GraphStore.remove s graph pattern).map .number

/-- Answer a question. -/
def Question.ask (s : σ) : Question → Except Error Answer
  | graphs => .ok (.names (GraphStore.graphs s))
  | contains graph => .ok (.truth (GraphStore.contains s graph))
  | statements graph => (GraphStore.statements s graph).map .statements
  | count graph => (Store.count s graph).map .number
  | targets pattern graph => (Store.patternTargets s pattern graph).map .names
  | query text limit => (Store.query s text limit).map .solutions

/-- One step of a caller's history. -/
inductive Turn where
  | change (change : Change)
  | ask (question : Question)
  | reopen

/-- Take one step. -/
def Turn.take (reopened : σ → σ) (s : σ) : Turn → Reply σ Answer
  | change c => c.run s
  | ask q => ⟨q.ask s, s⟩
  | reopen => ⟨.ok .done, reopened s⟩

/-- The answers of a history, first to last, and the store afterwards. -/
def Turn.replay (reopened : σ → σ) : σ → List Turn → List (Except Error Answer) × σ
  | s, [] => ([], s)
  | s, turn :: rest =>
    let reply := turn.take reopened s
    let later := replay reopened reply.store rest
    (reply.result :: later.1, later.2)

/-- Something that happens to a store and its file. -/
inductive Event where
  | change (change : Change)
  /-- The primitive insertion: nothing is checked or extended. -/
  | insert (graph : String) (statements : List Statement)
  | reopen (namespaces : Namespaces) (defaultGraph : String)

/-- The store after an event. -/
def Event.apply (reopened : Namespaces → String → σ → σ) (s : σ) : Event → σ
  | change c => (c.run s).store
  | insert graph statements => (GraphStore.insert s graph statements).store
  | reopen namespaces defaultGraph => reopened namespaces defaultGraph s

/-- The store after a history, first event to last. -/
def Event.after (reopened : Namespaces → String → σ → σ) (s : σ) (events : List Event) : σ :=
  events.foldl (Event.apply reopened) s

theorem Event.after_concat (reopened : Namespaces → String → σ → σ) (s : σ) (events : List Event)
    (e : Event) :
    Event.after reopened s (events ++ [e]) = e.apply reopened (Event.after reopened s events) := by
  rw [Event.after, List.foldl_append]
  rfl

end Run

/-! ## Closing and opening again -/

namespace DurableStore

/-- The store over a new database file. -/
def new (namespaces : Namespaces) (defaultGraph : String) : DurableStore :=
  .load .empty namespaces defaultGraph

/-- The store closed and opened again over the same file. -/
def reopenWith (namespaces : Namespaces) (defaultGraph : String) (s : DurableStore) :
    DurableStore :=
  .load s.tables namespaces defaultGraph

/-- The store closed and opened again with the prefixes and the default graph it had. -/
def reopen (s : DurableStore) : DurableStore := s.reopenWith s.namespaces s.defaultGraph

end DurableStore

end RdfStore
