import Mathlib.Algebra.GroupWithZero.Nat
import Mathlib.Data.List.Dedup
import RdfStore.Proofs.Store.Durable

/-!
# What a database file holds after any history

A history starts from a new file and consists of changes, primitive insertions of any statements,
and reopenings with any prefixes and default graph. After each one the store is `Sound` and shows
the ledger that has been through the same history (`DurableStore.Shows.after`).

* `DurableStore.integrity_after`: the tables fit together, no quad refers to a missing value, and
  every graph reads as the nodes that were inserted.
* `DurableStore.counts_after`: the number of values is the number of distinct nodes, and the
  number of quads is the number of statements in all graphs.
* `DurableStore.reopen_eq_self`: closing the store and opening it again changes nothing.
-/

namespace RdfStore

/-- A list whose members all have one of some keys, counted key by key. -/
theorem length_eq_sum_of_keys {α β : Type} [DecidableEq β] (key : α → β) (keys : List β) :
    ∀ {l : List α}, keys.Nodup → (∀ a ∈ l, key a ∈ keys) →
      l.length = (keys.map fun k => (l.filter fun a => decide (key a = k)).length).sum := by
  induction keys with
  | nil =>
      intro l _ all
      rw [List.eq_nil_iff_forall_not_mem.2 fun a mem => List.not_mem_nil (all a mem)]
      rfl
  | cons k rest ih =>
      intro l nodup all
      obtain ⟨absent, nodup⟩ := List.nodup_cons.1 nodup
      let others := l.filter fun a => !decide (key a = k)
      have inRest : ∀ a ∈ others, key a ∈ rest := by
        intro a mem
        obtain ⟨mem, ne⟩ := List.mem_filter.1 mem
        have ne : key a ≠ k := by simpa using ne
        exact (List.mem_cons.1 (all a mem)).resolve_left ne
      have same : ∀ j ∈ rest, others.filter (fun a => decide (key a = j)) =
          l.filter fun a => decide (key a = j) := by
        intro j mem
        rw [List.filter_filter]
        apply List.filter_congr
        intro a _
        by_cases eq : key a = j
        · have ne : key a ≠ k := fun h => absent (h ▸ eq ▸ mem)
          simp [eq, eq ▸ ne]
        · simp [eq]
      have parts := List.length_eq_length_filter_add (l := l) fun a => decide (key a = k)
      have later := ih nodup inRest
      rw [List.map_congr_left fun j mem => congrArg List.length (same j mem)] at later
      rw [List.map_cons, List.sum_cons, parts, ← later]

namespace DurableStore

theorem Sound.after (ns : Namespaces) (default : String) (events : List Event) :
    (Event.after DurableStore.reopenWith (new ns default) events).Sound :=
  (Shows.after events (shows_new ns default)).sound

/-! ## Integrity -/

/-- After every history the tables fit together: values and quads are inverse to their indices,
every quad refers to stored values and to a registered graph, graphs have different numbers, and
all numbers are below their counters. The store at hand agrees with them. Neither reading nor
removing ever meets a missing value, and every graph reads as a ledger does that keeps the nodes
themselves. -/
theorem integrity_after (ns : Namespaces) (default : String) (events : List Event) :
    let s := Event.after reopenWith (new ns default) events
    let l := Event.after Ledger.reopenWith (Ledger.empty ns default) events
    s.tables.Integrity s.tables.counters ∧
      s.next = s.tables.counters ∧
      (∀ name, s.graphIds.get? name = s.tables.graphs.get? name) ∧
      (∀ n q, s.tables.quads.get? n = some q →
        ∀ id ∈ q.values, ∃ node, s.tables.nodeOf id = .ok node) ∧
      (∀ graph pattern id, s.statements graph ≠ .error (.storage (.danglingValue id)) ∧
        (s.remove graph pattern).result ≠ .error (.storage (.danglingValue id))) ∧
      ∀ graph, s.statements graph = l.statements graph := by
  intro s l
  have shows : Shows s l := Shows.after events (shows_new ns default)
  have sound := shows.sound
  have integrity : s.tables.Integrity s.tables.counters := sound.counters ▸ sound.integrity
  refine ⟨integrity, sound.counters.symm, sound.mirrored, ?_, ?_, shows.statements⟩
  · intro n q found id refers
    exact ⟨_, Tables.nodeOf_eq (integrity.closed n q found id refers)⟩
  · intro graph pattern id
    have removed : (s.remove graph pattern).result = (l.remove graph pattern).result :=
      (shows.remove graph pattern).result
    rw [shows.statements, removed]
    unfold Ledger.statements Ledger.remove
    constructor
    · cases l.graphs.get? graph <;> intro eq <;> cases eq
    · cases l.graphs.get? graph <;> intro eq <;> cases eq

/-! ## Counts -/

/-- The statements of all graphs, in order of creation of the graphs. -/
def listed (s : DurableStore) : List (List Statement) :=
  s.graphIds.entries.map fun e => (s.tables.triples e.2).map (Triple.inGraph e.1)

theorem mem_nodes_listed {s : DurableStore} {n : Node} :
    n ∈ s.listed.flatten.flatMap Statement.nodes ↔
      ∃ e ∈ s.graphIds.entries, ∃ t ∈ s.tables.triples e.2, n ∈ t.nodes := by
  simp only [listed, List.mem_flatMap, List.mem_flatten, List.mem_map]
  constructor
  · intro given
    rcases given with ⟨x, ⟨_, ⟨e, mem, rfl⟩, here⟩, occurs⟩
    obtain ⟨t, held, rfl⟩ := List.mem_map.1 here
    exact ⟨e, mem, t, held, occurs⟩
  · intro given
    rcases given with ⟨e, mem, t, held, occurs⟩
    exact ⟨_, ⟨_, ⟨e, mem, rfl⟩, List.mem_map_of_mem held⟩, occurs⟩

namespace Sound

variable {s : DurableStore}

/-- Every registered graph can be read. -/
theorem mapM_statements (h : s.Sound) :
    (GraphStore.graphs s).mapM (GraphStore.statements s) = .ok s.listed := by
  change (s.graphIds.entries.map Prod.fst).mapM s.statements = _
  rw [List.mapM_map]
  apply Except.mapM_eq_ok
  intro entry mem
  rcases entry with ⟨name, id⟩
  exact h.statements_eq (OrderedMap.mem_entries_iff.1 mem)

/-! ### Quads -/

theorem ids_nodup (h : s.Sound) : (s.graphIds.entries.map Prod.snd).Nodup := by
  rw [List.Nodup, List.pairwise_map]
  exact h.ordered.imp fun lt => Nat.ne_of_lt lt

/-- Every quad lies in a graph at hand. -/
theorem mem_ids (h : s.Sound) {n : Nat} {q : Quad} (found : s.tables.quads.get? n = some q) :
    ∃ name, (name, q.graph) ∈ s.graphIds.entries := by
  obtain ⟨name, registered⟩ := h.integrity.registered n q found
  exact ⟨name, OrderedMap.mem_entries_iff.2 ((h.mirrored name).trans registered)⟩

theorem quadCount_eq (h : s.Sound) : s.quadCount = (s.listed.map List.length).sum := by
  have covered : ∀ row ∈ s.tables.quads.rows,
      row.2.graph ∈ s.graphIds.entries.map Prod.snd := by
    intro row mem
    obtain ⟨name, inGraph⟩ := h.mem_ids (Table.mem_rows_iff.1 mem)
    exact List.mem_map_of_mem inGraph
  have parts := length_eq_sum_of_keys (fun row : Nat × Quad => row.2.graph) _ h.ids_nodup covered
  rw [quadCount, Table.size, parts, listed, List.map_map, List.map_map]
  apply congrArg List.sum
  apply List.map_congr_left
  intro entry _
  change (s.tables.rowsOf entry.2).length = (List.map _ (List.map _ _)).length
  rw [List.length_map, List.length_map]

/-! ### Values -/

/-- The nodes of a stored quad are those of its values. -/
theorem mem_read_nodes_iff {t : Tables} {q : Quad} {n : Node} :
    n ∈ (t.read q).nodes ↔ ∃ id ∈ q.values, t.nodeAt id = n := by
  simp only [Triple.nodes, Tables.read, Quad.values, List.mem_cons, List.not_mem_nil, or_false,
    exists_eq_or_imp, exists_eq_left, eq_comm]

/-- A node occurs in some graph exactly if a stored value stands for it. -/
theorem mem_nodes_iff (h : s.Sound) {n : Node} :
    (∃ e ∈ s.graphIds.entries, ∃ t ∈ s.tables.triples e.2, n ∈ t.nodes) ↔
      ∃ row ∈ s.tables.values.rows, row.2.toNode = n := by
  constructor
  · intro given
    rcases given with ⟨e, -, t, held, occurs⟩
    obtain ⟨⟨k, q⟩, mem, rfl⟩ := List.mem_map.1 held
    obtain ⟨id, refers, rfl⟩ := mem_read_nodes_iff.1 occurs
    obtain ⟨v, stored⟩ := h.integrity.closed k q (Tables.mem_rowsOf.1 mem).1 id refers
    refine ⟨(id, v), Table.mem_rows_iff.2 stored, ?_⟩
    rw [Tables.nodeAt, stored]
  · intro given
    rcases given with ⟨⟨id, v⟩, mem, rfl⟩
    have stored := Table.mem_rows_iff.1 mem
    obtain ⟨k, q, found, refers⟩ := Tables.isReferenced_iff.1 (h.compact id v stored)
    obtain ⟨name, inGraph⟩ := h.mem_ids found
    refine ⟨(name, q.graph), inGraph, s.tables.read q, ?_, ?_⟩
    · exact List.mem_map.2 ⟨(k, q), Tables.mem_rowsOf.2 ⟨found, rfl⟩, rfl⟩
    · refine mem_read_nodes_iff.2 ⟨id, refers, ?_⟩
      rw [Tables.nodeAt, stored]

/-- Stored values stand for different nodes. -/
theorem valueNodes_nodup (h : s.Sound) :
    (s.tables.values.rows.map fun row => row.2.toNode).Nodup := by
  refine List.Nodup.map_on ?_ s.tables.values.rows_nodup
  intro row here row' there eq
  rcases row with ⟨i, v⟩
  rcases row' with ⟨j, w⟩
  have here := Table.mem_rows_iff.1 here
  have there := Table.mem_rows_iff.1 there
  have same : s.tables.nodeAt i = s.tables.nodeAt j := by
    rw [Tables.nodeAt, Tables.nodeAt, here, there]
    exact eq
  obtain rfl := h.integrity.nodeAt_injective ⟨v, here⟩ ⟨w, there⟩ same
  rw [here] at there
  cases there
  rfl

theorem valueCount_eq (h : s.Sound) :
    s.valueCount = (s.listed.flatten.flatMap Statement.nodes).dedup.length := by
  have perm : (s.tables.values.rows.map fun row => row.2.toNode).Perm
      (s.listed.flatten.flatMap Statement.nodes).dedup := by
    rw [List.perm_ext_iff_of_nodup h.valueNodes_nodup (List.nodup_dedup _)]
    intro n
    rw [List.mem_dedup, mem_nodes_listed, h.mem_nodes_iff, List.mem_map]
  have count := perm.length_eq
  rw [List.length_map] at count
  exact count

/-- No value is stored without need, and none is missing. -/
theorem stored_iff_referenced (h : s.Sound) (id : Nat) :
    (∃ v, s.tables.values.get? id = some v) ↔ s.tables.isReferenced id = true := by
  constructor
  · intro given
    obtain ⟨v, stored⟩ := given
    exact h.compact id v stored
  · intro referenced
    obtain ⟨n, q, found, refers⟩ := Tables.isReferenced_iff.1 referenced
    exact h.integrity.closed n q found id refers

end Sound

/-- After every history the values are exactly those that some quad refers to, there are as many
of them as different nodes occur in the graphs, and there are as many quads as statements in all
graphs together. -/
theorem counts_after (ns : Namespaces) (default : String) (events : List Event) :
    let s := Event.after reopenWith (new ns default) events
    (∀ id, (∃ v, s.tables.values.get? id = some v) ↔ s.tables.isReferenced id = true) ∧
      ∃ listing, (GraphStore.graphs s).mapM (GraphStore.statements s) = .ok listing ∧
        s.valueCount = (listing.flatten.flatMap Statement.nodes).dedup.length ∧
        s.quadCount = (listing.map List.length).sum := by
  intro s
  have sound : s.Sound := Sound.after ns default events
  have values := sound.valueCount_eq
  have quads := sound.quadCount_eq
  exact ⟨sound.stored_iff_referenced, s.listed, sound.mapM_statements, values, quads⟩

/-! ## Closing and opening again -/

theorem Sound.reopen_eq {s : DurableStore} (h : s.Sound) : s.reopen = s := h.load_eq _ _

/-- Wherever a store that shows a ledger is closed and opened again, it answers as if it had been
left open: by induction on the steps, because each of them keeps the store showing a ledger. -/
theorem replay_reopen (turns : List Turn) :
    ∀ {s : DurableStore} {l : Ledger}, Shows s l →
      Turn.replay reopen s turns = Turn.replay id s turns := by
  induction turns with
  | nil => intro s l _; rfl
  | cons turn rest ih =>
      intro s l h
      have same : turn.take reopen s = turn.take id s := by
        cases turn with
        | change c => rfl
        | ask q => rfl
        | reopen => exact congrArg (Reply.mk _) h.sound.reopen_eq
      have shown : ∃ l', Shows (turn.take id s).store l' := by
        cases turn with
        | change c => exact ⟨_, h.apply (.change c)⟩
        | ask q => exact ⟨l, h⟩
        | reopen => exact ⟨l, h⟩
      obtain ⟨l', shown⟩ := shown
      simp only [Turn.replay, same, ih shown]

/-- After every history the file holds all of the store: opening it again gives back the tables, the
graphs in their order and the three counters. Whatever the store is asked to do later, its answers
and its state are those of a store that is never closed. -/
theorem reopen_eq_self (ns : Namespaces) (default : String) (events : List Event) :
    let s := Event.after reopenWith (new ns default) events
    s.reopen = s ∧ ∀ turns, Turn.replay reopen s turns = Turn.replay id s turns := by
  intro s
  have shows := Shows.after events (shows_new ns default)
  exact ⟨shows.sound.reopen_eq, fun turns => replay_reopen turns shows⟩

end DurableStore

end RdfStore
