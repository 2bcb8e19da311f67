import RdfStore.Proofs.Store.Batches
import RdfStore.Proofs.Store.Memory
import RdfStore.Proofs.Store.Reachable

/-!
# The two representations are one store

The store in memory and the store in a database file both show the same ledger, the one by digests
and the other by value numbers. Replayed from empty stores, a history of changes and questions
therefore gets the same answers from both, also if the file is closed and opened again between two
steps: `replay_eq_of_digestsApart`.

Digests are the one place where the two differ in principle. The condition is that the digests of
the normal forms which the history inserts tell their triples apart; triples that only occur in
patterns or queries do not matter.
-/

namespace RdfStore

open GraphStore

namespace Turn

/-- The statements in normal form that a step hands to a store. -/
def normals (ns : Namespaces) (default : String) : Turn → List Statement
  | change (.add draws statements graph) =>
    match Store.batchesFrom ns default graph draws .empty .empty statements with
    | .ok batches => batches.values.flatten
    | .error _ => []
  | _ => []

/-- The triples of all these statements. -/
def known (ns : Namespaces) (default : String) (turns : List Turn) : Set Triple :=
  { t | ∃ x ∈ turns.flatMap (normals ns default), x.triple = t }

/-- No two different triples in normal form have one digest. -/
def DigestsApart (ns : Namespaces) (default : String) (turns : List Turn) : Prop :=
  ∀ x ∈ turns.flatMap (normals ns default), ∀ y ∈ turns.flatMap (normals ns default),
    x.tripleDigest = y.tripleDigest → x.triple = y.triple

instance (ns : Namespaces) (default : String) (turns : List Turn) :
    Decidable (DigestsApart ns default turns) :=
  inferInstanceAs (Decidable (∀ x ∈ _, ∀ y ∈ _, _ → _))

variable {ns : Namespaces} {default : String} {turns : List Turn}

theorem DigestsApart.injOn (h : DigestsApart ns default turns) :
    Set.InjOn Triple.digest (known ns default turns) := by
  intro _ left _ right eq
  rcases left with ⟨x, hx, rfl⟩
  rcases right with ⟨y, hy, rfl⟩
  rw [← Statement.tripleDigest_eq, ← Statement.tripleDigest_eq] at eq
  exact h x hx y hy eq

/-- All that a change of a history hands to a store in memory may be inserted there. -/
theorem admitted_of_mem {c : Change} (mem : change c ∈ turns) :
    c.Admitted (MemoryStore.Admits (known ns default turns)) ns default := by
  cases c with
  | create | drop | delete | remove => trivial
  | add draws statements graph =>
      intro batches made e inBatches x inBatch
      have normal : batches.Forall fun graph x =>
          x.graph = some (.named graph) ∧ x.placeholder? = none :=
        Store.Batches.forall_of_batchesFrom
          (fun graph r t valid => ⟨rfl, r.placeholder?_normalize graph valid⟩)
          statements Store.Batches.forall_empty made
      obtain ⟨inGraph, concrete⟩ := normal e inBatches x inBatch
      refine ⟨inGraph, concrete, x, ?_, rfl⟩
      rw [List.mem_flatMap]
      refine ⟨_, mem, ?_⟩
      rw [normals, made]
      exact List.mem_flatten.2 ⟨e.2, List.mem_map_of_mem inBatches, inBatch⟩

end Turn

/-- A history gets the same answers from a store in memory and from a store in a database file that
is closed and opened again at will. Afterwards both list the same graphs in the same order, all of
them can be read, and they hold the same statements in the same order. -/
theorem replay_eq_of_digestsApart (ns : Namespaces) (default : String) (turns : List Turn)
    (apart : Turn.DigestsApart ns default turns) :
    let m := Turn.replay id (MemoryStore.empty ns default) turns
    let d := Turn.replay DurableStore.reopen (DurableStore.new ns default) turns
    m.1 = d.1 ∧ graphs m.2 = graphs d.2 ∧
      ∃ listing, (graphs m.2).mapM (statements m.2) = .ok listing ∧
        (graphs d.2).mapM (statements d.2) = .ok listing := by
  intro m d
  have sim := (MemoryStore.simulation ns default apart.injOn).through DurableStore.simulation
  have start : ∃ l, MemoryStore.Shows ns default (Turn.known ns default turns)
      (MemoryStore.empty ns default) l ∧ DurableStore.Shows (DurableStore.new ns default) l :=
    ⟨.empty ns default, MemoryStore.shows_empty ns default _, DurableStore.shows_new ns default⟩
  obtain ⟨answers, l, inMemory, inFile⟩ := sim.replay
    (fun ⟨l, inMemory, inFile⟩ =>
      ⟨inFile.namespaces.trans inMemory.ledgerNamespaces,
        inFile.defaultGraph.trans inMemory.ledgerDefaultGraph⟩)
    (fun ⟨l, inMemory, inFile⟩ => ⟨l, inMemory, inFile.reopen⟩)
    turns start fun c => Turn.admitted_of_mem
  have related : ∃ l, MemoryStore.Shows ns default (Turn.known ns default turns) m.2 l ∧
      DurableStore.Shows d.2 l := ⟨l, inMemory, inFile⟩
  have listing := inFile.sound.mapM_statements
  have sameGraphs : graphs m.2 = graphs d.2 := sim.graphs related
  have sameStatements : statements m.2 = statements d.2 := funext (sim.statements related)
  refine ⟨answers, sameGraphs, _, ?_, listing⟩
  rw [sameGraphs, sameStatements]
  exact listing

/-- Two statements, a reopening, the removal of one of them, both again, and a look. -/
def Turn.sample : List Turn :=
  let statements : List Statement :=
    [⟨.named "http://a", .named "foaf:age", .literal ⟨"1", some "xsd:integer", none⟩, none⟩,
      ⟨.blank "b", .named "foaf:knows", .named "http://a", none⟩]
  [.change (.add (fun _ => 7#128) statements none), .reopen,
    .change (.delete ⟨.pattern none, .pattern none, .named "http://a", none⟩ none),
    .change (.add (fun _ => 8#128) statements none), .ask (.statements "http://d")]

/-- The condition on digests holds of a history with three different triples. -/
theorem replay_eq_sample :
    Turn.DigestsApart .standard "http://d" Turn.sample ∧
      (Turn.replay id (MemoryStore.empty .standard "http://d") Turn.sample).1 =
        (Turn.replay DurableStore.reopen (DurableStore.new .standard "http://d") Turn.sample).1 := by
  have apart : Turn.DigestsApart .standard "http://d" Turn.sample := by decide +kernel
  exact ⟨apart, (replay_eq_of_digestsApart .standard "http://d" Turn.sample apart).1⟩

end RdfStore
