import RdfStore.Proofs.Store.Index
import RdfStore.Proofs.Store.Ledger
import RdfStore.Store.Durable

/-!
# The tables of a database fit together

`Tables.Integrity` says what the five tables and the counters owe to each other: the values and
the quads are inverse to their indices, every quad refers to stored values and a registered graph,
no two graphs share a number, and every number in use is below its counter. `Tables.Compact` adds
that every stored value is referred to.

`Tables.triples` reads the quads of a graph back as triples. Under `Integrity` reading never fails
(`Integrity.statementOf`) and tells the quads of a graph apart (`Integrity.read_injective`).

Removing quads and collecting values are followed through both: `Integrity.removeQuads`,
`Integrity.collect`, `Integrity.triples_collect`.
-/

namespace RdfStore

/-- The numbers of the three values that a quad refers to. -/
def Quad.values (q : Quad) : List Nat := [q.subject, q.predicate, q.object]

theorem Quad.mem_values {q : Quad} {id : Nat} :
    id ∈ q.values ↔ (q.subject = id ∨ q.predicate = id) ∨ q.object = id := by
  simp only [values, List.mem_cons, List.not_mem_nil, or_false, @eq_comm _ id, or_assoc]

namespace Tables

/-- The tables refer to each other without gaps, and every number is below its counter. -/
structure Integrity (t : Tables) (next : Counters) : Prop where
  values : Inverse t.values t.valueIndex
  quads : Inverse t.quads t.quadIndex
  /-- Every value that a quad refers to is stored. -/
  closed : ∀ n q, t.quads.get? n = some q → ∀ id ∈ q.values, ∃ v, t.values.get? id = some v
  /-- Every quad lies in a registered graph. -/
  registered : ∀ n q, t.quads.get? n = some q → ∃ name, t.graphs.get? name = some q.graph
  /-- No two graphs share a number. -/
  graphs : ∀ a b id, t.graphs.get? a = some id → t.graphs.get? b = some id → a = b
  graphBound : ∀ name id, t.graphs.get? name = some id → id < next.graph
  valueBound : ∀ id v, t.values.get? id = some v → id < next.value
  quadBound : ∀ n q, t.quads.get? n = some q → n < next.quad

/-- Every stored value is referred to. -/
def Compact (t : Tables) : Prop := ∀ id v, t.values.get? id = some v → t.isReferenced id = true

theorem isReferenced_iff {t : Tables} {id : Nat} :
    t.isReferenced id = true ↔ ∃ n q, t.quads.get? n = some q ∧ id ∈ q.values := by
  simp only [isReferenced, List.any_eq_true, Bool.or_eq_true, decide_eq_true_iff, Prod.exists,
    Table.mem_rows_iff, Quad.mem_values]

theorem integrity_empty : Integrity .empty ⟨0, 0, 0⟩ where
  values := .empty
  quads := .empty
  closed _ _ h := nomatch h
  registered _ _ h := nomatch h
  graphs _ _ _ h := nomatch h
  graphBound _ _ h := nomatch h
  valueBound _ _ h := nomatch h
  quadBound _ _ h := nomatch h

/-! ## Reading back -/

/-- The node under a value number; numbers that are not in use read as some fixed node. -/
def nodeAt (t : Tables) (id : Nat) : Node :=
  match t.values.get? id with
  | some value => value.toNode
  | none => default

/-- The triple that a quad stands for. -/
def read (t : Tables) (q : Quad) : Triple :=
  ⟨t.nodeAt q.subject, t.nodeAt q.predicate, t.nodeAt q.object⟩

/-- The triples of a graph, in order of insertion. -/
def triples (t : Tables) (graph : Nat) : List Triple :=
  (t.rowsOf graph).map fun row => t.read row.2

theorem mem_rowsOf {t : Tables} {graph n : Nat} {q : Quad} :
    (n, q) ∈ t.rowsOf graph ↔ t.quads.get? n = some q ∧ q.graph = graph := by
  rw [rowsOf, List.mem_filter, Table.mem_rows_iff, decide_eq_true_iff]

theorem nodeOf_eq {t : Tables} {id : Nat} (h : ∃ v, t.values.get? id = some v) :
    t.nodeOf id = .ok (t.nodeAt id) := by
  obtain ⟨v, found⟩ := h
  simp only [nodeOf, nodeAt, found]

/-- Two tables that hold the same value under a number read the same node there. -/
theorem nodeAt_congr {t u : Tables} {id : Nat} (h : t.values.get? id = u.values.get? id) :
    t.nodeAt id = u.nodeAt id := by
  rw [nodeAt, nodeAt, h]

theorem read_congr {t u : Tables} {q : Quad}
    (h : ∀ id ∈ q.values, t.values.get? id = u.values.get? id) : t.read q = u.read q := by
  simp only [Quad.values, List.forall_mem_cons] at h
  rw [read, read, nodeAt_congr h.1, nodeAt_congr h.2.1, nodeAt_congr h.2.2.1]

namespace Integrity

variable {t : Tables} {next : Counters}

/-- Reading a stored quad never fails. -/
theorem statementOf (h : t.Integrity next) {n : Nat} {q : Quad} (found : t.quads.get? n = some q)
    (graph : Option Node) :
    t.statementOf graph q =
      .ok ⟨(t.read q).subject, (t.read q).predicate, (t.read q).object, graph⟩ := by
  have stored := h.closed n q found
  simp only [Quad.values, List.forall_mem_cons] at stored
  unfold Tables.statementOf
  rw [nodeOf_eq stored.1, nodeOf_eq stored.2.1, nodeOf_eq stored.2.2.1]
  rfl

/-- Different stored values are different nodes. -/
theorem nodeAt_injective (h : t.Integrity next) {i j : Nat} (here : ∃ v, t.values.get? i = some v)
    (there : ∃ v, t.values.get? j = some v) (eq : t.nodeAt i = t.nodeAt j) : i = j := by
  obtain ⟨v, here⟩ := here
  obtain ⟨w, there⟩ := there
  simp only [nodeAt, here, there] at eq
  have same : (.ok v : Except StatementFault StoredValue) = .ok w := by
    rw [← StoredValue.ofNode_toNode v, ← StoredValue.ofNode_toNode w, eq]
  cases same
  exact h.values.key_unique here there

/-- Two quads of one graph that read as the same triple are the same. -/
theorem read_injective (h : t.Integrity next) {q r : Quad} (graph : q.graph = r.graph)
    (here : ∀ id ∈ q.values, ∃ v, t.values.get? id = some v)
    (there : ∀ id ∈ r.values, ∃ v, t.values.get? id = some v) (eq : t.read q = t.read r) :
    q = r := by
  simp only [Quad.values, List.forall_mem_cons] at here there
  simp only [read, Triple.mk.injEq] at eq
  cases q
  cases r
  simp only [Quad.mk.injEq]
  exact ⟨graph, h.nodeAt_injective here.1 there.1 eq.1,
    h.nodeAt_injective here.2.1 there.2.1 eq.2.1,
    h.nodeAt_injective here.2.2.1 there.2.2.1 eq.2.2⟩

/-- A quad over stored values is indexed exactly if its graph holds its triple. -/
theorem indexed_iff (h : t.Integrity next) {q : Quad}
    (stored : ∀ id ∈ q.values, ∃ v, t.values.get? id = some v) :
    (∃ n, t.quadIndex.get? q = some n) ↔ t.read q ∈ t.triples q.graph := by
  rw [triples, List.mem_map]
  constructor
  · intro given
    rcases given with ⟨n, indexed⟩
    exact ⟨(n, q), mem_rowsOf.2 ⟨(h.quads n q).2 indexed, rfl⟩, rfl⟩
  · intro given
    rcases given with ⟨⟨n, r⟩, mem, eq⟩
    obtain ⟨found, graph⟩ := mem_rowsOf.1 mem
    have same := h.read_injective graph (h.closed n r found) stored eq
    exact ⟨n, same ▸ (h.quads n r).1 found⟩

/-- The rows of a graph that fit a pattern are found without a fault. -/
theorem fittingRows (h : t.Integrity next) (pattern : Statement) (rows : List (Nat × Quad)) :
    (∀ row ∈ rows, t.quads.get? row.1 = some row.2) →
      t.fittingRows pattern rows =
        .ok (rows.filter fun row => (Statement.mk (t.read row.2).subject (t.read row.2).predicate
          (t.read row.2).object none).fits pattern) := by
  induction rows with
  | nil => intro _; rfl
  | cons row rest ih =>
      intro stored
      have later := ih fun other mem => stored other (List.mem_cons_of_mem _ mem)
      unfold Tables.fittingRows
      rw [h.statementOf (stored row List.mem_cons_self), later, List.filter_cons]
      rfl

end Integrity

/-! ## Removing quads -/

theorem eraseQuads_eq (rows : List (Nat × Quad)) :
    ∀ t : Tables, t.eraseQuads rows =
      { t with quads := t.quads.eraseRows rows, quadIndex := t.quadIndex.eraseRows rows } := by
  induction rows with
  | nil => intro t; rfl
  | cons row rest ih => intro t; exact ih _

/-- The tables without the quads whose rows satisfy a test. -/
def removeQuads (t : Tables) (p : Nat × Quad → Bool) : Tables :=
  t.eraseQuads (t.quads.rows.filter p)

theorem values_removeQuads (t : Tables) (p : Nat × Quad → Bool) :
    (t.removeQuads p).values = t.values := by rw [removeQuads, eraseQuads_eq]

theorem graphs_removeQuads (t : Tables) (p : Nat × Quad → Bool) :
    (t.removeQuads p).graphs = t.graphs := by rw [removeQuads, eraseQuads_eq]

theorem counters_removeQuads (t : Tables) (p : Nat × Quad → Bool) :
    (t.removeQuads p).counters = t.counters := by rw [removeQuads, eraseQuads_eq]

theorem get?_quads_removeQuads {t : Tables} {p : Nat × Quad → Bool} {n : Nat} {q : Quad} :
    (t.removeQuads p).quads.get? n = some q ↔ t.quads.get? n = some q ∧ p (n, q) = false := by
  rw [removeQuads, eraseQuads_eq, Table.get?_eraseRows_filter]

theorem rowsOf_removeQuads (t : Tables) (p : Nat × Quad → Bool) (graph : Nat) :
    (t.removeQuads p).rowsOf graph = (t.rowsOf graph).filter fun row => !p row := by
  rw [rowsOf, rowsOf, removeQuads, eraseQuads_eq, Table.rows_eraseRows_filter, List.filter_filter,
    List.filter_filter]
  apply List.filter_congr
  intro row _
  exact Bool.and_comm _ _

theorem triples_removeQuads (t : Tables) (p : Nat × Quad → Bool) (graph : Nat) :
    (t.removeQuads p).triples graph =
      ((t.rowsOf graph).filter fun row => !p row).map fun row => t.read row.2 := by
  rw [triples, rowsOf_removeQuads]
  apply List.map_congr_left
  intro row _
  exact read_congr fun id _ => by rw [values_removeQuads]

theorem Integrity.removeQuads {t : Tables} {next : Counters} (h : t.Integrity next)
    (p : Nat × Quad → Bool) : (t.removeQuads p).Integrity next where
  values := by rw [Tables.removeQuads, eraseQuads_eq]; exact h.values
  quads := by rw [Tables.removeQuads, eraseQuads_eq]; exact h.quads.eraseRows p
  closed n q found := by
    rw [values_removeQuads]
    exact h.closed n q (get?_quads_removeQuads.1 found).1
  registered n q found := by
    rw [graphs_removeQuads]
    exact h.registered n q (get?_quads_removeQuads.1 found).1
  graphs := by rw [graphs_removeQuads]; exact h.graphs
  graphBound := by rw [graphs_removeQuads]; exact h.graphBound
  valueBound := by rw [values_removeQuads]; exact h.valueBound
  quadBound n q found := h.quadBound n q (get?_quads_removeQuads.1 found).1

/-- The tables without those quads of a graph whose rows satisfy a test. -/
def prune (t : Tables) (graph : Nat) (p : Nat × Quad → Bool) : Tables :=
  t.removeQuads fun row => p row && decide (row.2.graph = graph)

theorem eraseQuads_filter_rowsOf (t : Tables) (graph : Nat) (p : Nat × Quad → Bool) :
    t.eraseQuads ((t.rowsOf graph).filter p) = t.prune graph p := by
  rw [prune, removeQuads, rowsOf, List.filter_filter]

theorem eraseQuads_rowsOf (t : Tables) (graph : Nat) :
    t.eraseQuads (t.rowsOf graph) = t.prune graph fun _ => true := by
  rw [← eraseQuads_filter_rowsOf, List.filter_eq_self.2 fun _ _ => rfl]

theorem triples_prune_self (t : Tables) (graph : Nat) (p : Nat × Quad → Bool) :
    (t.prune graph p).triples graph =
      ((t.rowsOf graph).filter fun row => !p row).map fun row => t.read row.2 := by
  rw [prune, triples_removeQuads]
  apply congrArg (List.map _)
  apply List.filter_congr
  intro row mem
  have lies := (mem_rowsOf.1 mem).2
  rw [decide_eq_true lies, Bool.and_true]

/-- The other graphs keep their triples. -/
theorem triples_prune_of_ne (t : Tables) {graph other : Nat} (ne : other ≠ graph)
    (p : Nat × Quad → Bool) : (t.prune graph p).triples other = t.triples other := by
  rw [prune, triples_removeQuads, List.filter_eq_self.2]
  · rfl
  · intro row mem
    have lies := (mem_rowsOf.1 mem).2
    have stays : ¬row.2.graph = graph := fun here => ne (lies.symm.trans here)
    rw [decide_eq_false stays, Bool.and_false, Bool.not_false]

/-! ## Removing a graph's name -/

/-- The tables without the name of a graph. -/
def removeGraph (t : Tables) (name : String) : Tables := { t with graphs := t.graphs.erase name }

/-- The name of a graph that holds no quad may go. -/
theorem Integrity.removeGraph {t : Tables} {next : Counters} (h : t.Integrity next)
    {name : String} {id : Nat} (named : t.graphs.get? name = some id)
    (void : ∀ n q, t.quads.get? n = some q → q.graph ≠ id) :
    (t.removeGraph name).Integrity next := by
  have kept : ∀ {a i}, (t.graphs.erase name).get? a = some i → t.graphs.get? a = some i := by
    intro a i found
    rw [Table.get?_erase] at found
    split at found
    · cases found
    · exact found
  refine ⟨h.values, h.quads, h.closed, ?_, ?_, ?_, h.valueBound, h.quadBound⟩
  · intro n q found
    obtain ⟨a, registered⟩ := h.registered n q found
    refine ⟨a, ?_⟩
    have ne : name ≠ a := by
      intro same
      subst same
      exact void n q found (Option.some.inj (registered.symm.trans named))
    change (t.graphs.erase name).get? a = some q.graph
    rw [Table.get?_erase, if_neg ne]
    exact registered
  · exact fun a b i here there => h.graphs a b i (kept here) (kept there)
  · exact fun a i found => h.graphBound a i (kept found)

/-! ## Collecting values -/

theorem eraseValues_eq (rows : List (Nat × StoredValue)) :
    ∀ t : Tables, rows.foldl (fun t row =>
        { t with values := t.values.erase row.1, valueIndex := t.valueIndex.erase row.2 }) t =
      { t with values := t.values.eraseRows rows, valueIndex := t.valueIndex.eraseRows rows } := by
  induction rows with
  | nil => intro t; rfl
  | cons row rest ih => intro t; exact ih _

theorem collect_eq (t : Tables) :
    t.collect =
      { t with
        values := t.values.eraseRows (t.values.rows.filter fun row => !t.isReferenced row.1)
        valueIndex :=
          t.valueIndex.eraseRows (t.values.rows.filter fun row => !t.isReferenced row.1) } :=
  eraseValues_eq _ t

theorem quads_collect (t : Tables) : t.collect.quads = t.quads := by rw [collect_eq]

theorem graphs_collect (t : Tables) : t.collect.graphs = t.graphs := by rw [collect_eq]

theorem counters_collect (t : Tables) : t.collect.counters = t.counters := by rw [collect_eq]

theorem rowsOf_collect (t : Tables) (graph : Nat) : t.collect.rowsOf graph = t.rowsOf graph := by
  rw [rowsOf, rowsOf, quads_collect]

theorem isReferenced_collect (t : Tables) (id : Nat) :
    t.collect.isReferenced id = t.isReferenced id := by
  rw [isReferenced, isReferenced, quads_collect]

/-- Exactly the values that some quad refers to survive. -/
theorem get?_values_collect {t : Tables} {id : Nat} {v : StoredValue} :
    t.collect.values.get? id = some v ↔
      t.values.get? id = some v ∧ t.isReferenced id = true := by
  rw [collect_eq, Table.get?_eraseRows_filter, Bool.not_eq_false']

theorem compact_collect (t : Tables) : t.collect.Compact := by
  intro id v found
  rw [isReferenced_collect]
  exact (get?_values_collect.1 found).2

theorem Integrity.collect {t : Tables} {next : Counters} (h : t.Integrity next) :
    t.collect.Integrity next where
  values := by rw [collect_eq]; exact h.values.eraseRows _
  quads := by rw [collect_eq]; exact h.quads
  closed n q found id refers := by
    rw [quads_collect] at found
    obtain ⟨v, stored⟩ := h.closed n q found id refers
    exact ⟨v, get?_values_collect.2 ⟨stored, isReferenced_iff.2 ⟨n, q, found, refers⟩⟩⟩
  registered := by rw [quads_collect, graphs_collect]; exact h.registered
  graphs := by rw [graphs_collect]; exact h.graphs
  graphBound := by rw [graphs_collect]; exact h.graphBound
  valueBound id v found := h.valueBound id v (get?_values_collect.1 found).1
  quadBound := by rw [quads_collect]; exact h.quadBound

/-- Collecting values changes no triple. -/
theorem Integrity.triples_collect {t : Tables} {next : Counters} (h : t.Integrity next)
    (graph : Nat) : t.collect.triples graph = t.triples graph := by
  rw [triples, triples, rowsOf_collect]
  apply List.map_congr_left
  intro row mem
  rcases row with ⟨n, q⟩
  have found := (mem_rowsOf.1 mem).1
  apply read_congr
  intro id refers
  obtain ⟨v, stored⟩ := h.closed n q found id refers
  rw [stored]
  exact get?_values_collect.2 ⟨stored, isReferenced_iff.2 ⟨n, q, found, refers⟩⟩

end Tables

end RdfStore
