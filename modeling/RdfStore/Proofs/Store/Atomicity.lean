import RdfStore.Proofs.Store.Appending
import RdfStore.Proofs.Store.Readback

/-!
# An insertion into a database file happens as a whole or not at all

A list is interned and added node by node, and a placeholder may turn up after any number of writes.
The writes are then lost with the copy of the tables that they were made on, and the counters at hand
were never touched. So a refused insertion leaves the store as it was, and one that succeeds has
written the whole list.

* `DurableStore.Sound.insert_of_concrete`: a list without placeholders is written to its graph.
* `DurableStore.Sound.insert_of_placeholder`: any other list is refused for its first placeholder.
* `DurableStore.insert_all_or_nothing`: all cases, after every history.
-/

namespace RdfStore

open GraphStore

/-- Looking for a placeholder statement by statement is looking node by node. -/
theorem Statement.findSome?_placeholder? (batch : List Statement) :
    batch.findSome? Statement.placeholder? =
      (batch.flatMap Statement.nodes).findSome? Node.placeholder? := by
  induction batch with
  | nil => rfl
  | cons t rest ih =>
      rw [List.findSome?_cons, List.flatMap_cons, List.findSome?_append, ih, Statement.placeholder?]
      cases t.nodes.findSome? Node.placeholder? <;> rfl

/-- The triples of what a graph reports are those it was read from. -/
theorem Triple.map_triple_inGraph (graph : String) (held : List Triple) :
    (held.map (Triple.inGraph graph)).map Statement.triple = held := by
  rw [List.map_map]
  exact List.map_id held

namespace DurableStore

namespace Sound

variable {s : DurableStore} {graph : String} {id : Nat} {batch : List Statement}

/-- A list without placeholders is appended to its graph, and the counters move on. -/
theorem insert_of_concrete (h : s.Sound) (found : s.graphIds.get? graph = some id)
    (concrete : batch.findSome? Statement.placeholder? = none) :
    ∃ done, Insertion.addStatements id ⟨s.tables, s.next.value, s.next.quad, 0⟩ batch = .ok done ∧
      done.tables.triples id =
        (batch.map Statement.triple).foldl Triple.appendNew (s.tables.triples id) ∧
      done.added = ((batch.map Statement.triple).toFinset \ (s.tables.triples id).toFinset).card ∧
      s.insert graph batch =
        ⟨.ok done.added,
          { s with
            tables := done.finish
            next := { s.next with value := done.nextValue, quad := done.nextQuad } }⟩ := by
  obtain ⟨done, added, -, appended⟩ :=
    Insertion.addStatements_of_concrete batch h.insertion ⟨graph, h.registered found⟩ concrete
  refine ⟨done, added, appended.triples, ?_, ?_⟩
  · have count := appended.added
    rw [appended.triples, Triple.length_foldl_appendNew, Nat.zero_add, Nat.add_comm] at count
    exact Nat.add_left_cancel count
  · rw [DurableStore.insert, found]
    dsimp only
    rw [added]

/-- A list with a placeholder is refused for the first one, whatever was written before it. -/
theorem insert_of_placeholder (h : s.Sound) (found : s.graphIds.get? graph = some id)
    {name : Option String} (placeholder : batch.findSome? Statement.placeholder? = some name) :
    s.insert graph batch = ⟨.error (.statement (.notStorable name)), s⟩ := by
  rw [DurableStore.insert, found]
  dsimp only
  rw [Insertion.addStatements_of_placeholder batch h.insertion ⟨graph, h.registered found⟩
    placeholder]

end Sound

/-- The three answers of an insertion. After every history an unregistered graph is refused with its
name; a list for a registered graph is refused for its first placeholder, however much stands before
that; and any other list is answered by the number of its different triples that the graph did not
hold, which has them all from then on, so that the same list once more adds nothing. What a refusal
or a repetition leaves is the store as it was, with its tables and its counters, and opening the
file again gives the same store in every case. -/
theorem insert_all_or_nothing (ns : Namespaces) (default : String) (events : List Event)
    (graph : String) (batch : List Statement) :
    let s := Event.after reopenWith (new ns default) events
    let reply := s.insert graph batch
    (graph ∉ graphs s → reply = ⟨.error (.graphNotFound graph), s⟩) ∧
    (graph ∈ graphs s → ∀ before name after,
      batch.flatMap Statement.nodes = before ++ .pattern name :: after →
      (∀ n ∈ before, n.placeholder? = none) →
      reply = ⟨.error (.statement (.notStorable name)), s⟩) ∧
    (graph ∈ graphs s → (∀ n ∈ batch.flatMap Statement.nodes, n.placeholder? = none) →
      ∃ stored now, statements s graph = .ok stored ∧ statements reply.store graph = .ok now ∧
        reply.result =
          .ok ((batch.map Statement.triple).toFinset \ (stored.map Statement.triple).toFinset).card ∧
        now.map Statement.triple =
          (batch.map Statement.triple).foldl Triple.appendNew (stored.map Statement.triple) ∧
        reply.store.insert graph batch = ⟨.ok 0, reply.store⟩) ∧
    reply.store.reopen = reply.store ∧ s.reopen = s := by
  intro s reply
  have shows : Shows s (Event.after Ledger.reopenWith (.empty ns default) events) :=
    Shows.after events (shows_new ns default)
  have sound := shows.sound
  have sound' : reply.store.Sound := (shows.insert graph batch).store.sound
  have registered : graph ∈ graphs s → ∃ id, s.graphIds.get? graph = some id :=
    OrderedMap.mem_keys_iff.1
  refine ⟨?_, ?_, ?_, sound'.reopen_eq, sound.reopen_eq⟩
  · intro absent
    change s.insert graph batch = _
    rw [DurableStore.insert, OrderedMap.get?_eq_none_iff.2 absent]
  · intro listed before name after split concrete
    obtain ⟨id, found⟩ := registered listed
    refine sound.insert_of_placeholder found ?_
    rw [Statement.findSome?_placeholder?, split, List.findSome?_append,
      List.findSome?_eq_none_iff.2 concrete]
    rfl
  · intro listed concrete
    obtain ⟨id, found⟩ := registered listed
    have fit : batch.findSome? Statement.placeholder? = none := by
      rw [Statement.findSome?_placeholder?, List.findSome?_eq_none_iff.2 concrete]
    obtain ⟨done, -, grown, count, inserted⟩ := sound.insert_of_concrete found fit
    have written : reply = _ := inserted
    have found' : reply.store.graphIds.get? graph = some id := written ▸ found
    have grown' : reply.store.tables.triples id =
        (batch.map Statement.triple).foldl Triple.appendNew (s.tables.triples id) :=
      written ▸ grown
    refine ⟨_, _, sound.statements_eq found, sound'.statements_eq found', ?_, ?_, ?_⟩
    · rw [Triple.map_triple_inGraph, written, count]
    · rw [Triple.map_triple_inGraph, Triple.map_triple_inGraph, grown']
    · refine sound'.insert_of_known found' fun t mem => ?_
      rw [grown']
      exact (Triple.mem_foldl_appendNew _ _).2 (Or.inr (List.mem_map_of_mem mem))

/-- An unknown graph, a placeholder behind a statement that is fine, and a statement given twice. -/
theorem insert_all_or_nothing_sample :
    let s := Event.after reopenWith (new .standard "urn:d")
      [.change (.create "urn:g"), .reopen .standard "urn:d"]
    let t : Statement := ⟨.named "urn:a", .named "urn:p", .blank "b", none⟩
    let s' := (s.insert "urn:g" [t, t]).store
    s.insert "urn:h" [t] = ⟨.error (.graphNotFound "urn:h"), s⟩ ∧
      s.insert "urn:g" [t, { t with predicate := .pattern (some "x") }] =
        ⟨.error (.statement (.notStorable (some "x"))), s⟩ ∧
      (s.insert "urn:g" [t, t]).result = .ok 1 ∧ s'.insert "urn:g" [t, t] = ⟨.ok 0, s'⟩ := by
  intro s t s'
  have listed : "urn:g" ∈ graphs s := by decide +kernel
  have absent : "urn:h" ∉ graphs s := by decide +kernel
  obtain ⟨refused, -⟩ := insert_all_or_nothing .standard "urn:d"
    [.change (.create "urn:g"), .reopen .standard "urn:d"] "urn:h" [t]
  obtain ⟨-, placeholder, -⟩ := insert_all_or_nothing .standard "urn:d"
    [.change (.create "urn:g"), .reopen .standard "urn:d"] "urn:g"
    [t, { t with predicate := .pattern (some "x") }]
  obtain ⟨-, -, written, -⟩ := insert_all_or_nothing .standard "urn:d"
    [.change (.create "urn:g"), .reopen .standard "urn:d"] "urn:g" [t, t]
  obtain ⟨stored, now, read, -, count, -, again⟩ := written listed (by decide)
  have nothing : statements s "urn:g" = .ok [] := by decide +kernel
  obtain rfl : [] = stored := Except.ok.inj (nothing.symm.trans read)
  exact ⟨refused absent,
    placeholder listed (t.nodes ++ [t.subject]) (some "x") [t.object] rfl (by decide), count, again⟩

end DurableStore

end RdfStore
