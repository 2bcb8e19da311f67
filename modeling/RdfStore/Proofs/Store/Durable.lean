import Mathlib.Data.List.Sort
import RdfStore.Proofs.Except
import RdfStore.Proofs.Store.Insertion
import RdfStore.Proofs.Store.Invariant

/-!
# The store in a database file shows a ledger

`DurableStore.Sound` collects what every operation keeps: the tables fit together and are compact,
the counters at hand are the stored ones, and the graphs at hand are the stored ones in ascending
order of their numbers. The last two are what makes opening the file again give the same store
(`Sound.load_eq`).

`DurableStore.Shows` says that the triples of each graph are those of a ledger. It is kept by every
primitive, without any condition on what is inserted (`DurableStore.simulation`), and so holds
after every history (`DurableStore.Shows.after`).
-/

namespace RdfStore

namespace Tables

variable {t : Tables} {next : Counters}

/-- The counters in the tables play no part in how the tables fit together. -/
theorem Integrity.withCounters (h : t.Integrity next) (counters : Counters) :
    ({ t with counters := counters } : Tables).Integrity next :=
  ⟨h.values, h.quads, h.closed, h.registered, h.graphs, h.graphBound, h.valueBound, h.quadBound⟩

/-- A new graph takes the number of the counter. -/
theorem Integrity.insertGraph (h : t.Integrity next) {name : String}
    (absent : t.graphs.get? name = none) :
    ({ t with graphs := t.graphs.insert name next.graph } : Tables).Integrity
      { next with graph := next.graph + 1 } := by
  have new : ∀ {a i}, (t.graphs.insert name next.graph).get? a = some i →
      a = name ∧ i = next.graph ∨ t.graphs.get? a = some i := by
    intro a i found
    rw [Table.get?_insert] at found
    by_cases eq : name = a
    · rw [if_pos eq] at found
      exact Or.inl ⟨eq.symm, (Option.some.inj found).symm⟩
    · rw [if_neg eq] at found
      exact Or.inr found
  refine ⟨h.values, h.quads, h.closed, ?_, ?_, ?_, h.valueBound, h.quadBound⟩
  · intro n q found
    obtain ⟨a, registered⟩ := h.registered n q found
    have ne : name ≠ a := by
      intro same
      subst same
      rw [absent] at registered
      cases registered
    refine ⟨a, ?_⟩
    rw [Table.get?_insert, if_neg ne]
    exact registered
  · intro a b i here there
    rcases new here with ⟨first, number⟩ | old
    · rcases new there with ⟨second, -⟩ | old
      · exact first.trans second.symm
      · exact (Nat.lt_irrefl _ (number ▸ h.graphBound b i old)).elim
    · rcases new there with ⟨-, number⟩ | old'
      · exact (Nat.lt_irrefl _ (number ▸ h.graphBound a i old)).elim
      · exact h.graphs a b i old old'
  · intro a i found
    rcases new found with ⟨-, rfl⟩ | found
    · exact Nat.lt_succ_self _
    · exact Nat.lt_succ_of_lt (h.graphBound a i found)

/-- No quad lies in a graph whose number was never given. -/
theorem Integrity.triples_unused (h : t.Integrity next) : t.triples next.graph = [] := by
  rw [triples, List.map_eq_nil_iff, List.eq_nil_iff_forall_not_mem]
  intro row mem
  rcases row with ⟨n, q⟩
  obtain ⟨found, graph⟩ := mem_rowsOf.1 mem
  obtain ⟨name, registered⟩ := h.registered n q found
  exact Nat.lt_irrefl _ (graph ▸ h.graphBound name q.graph registered)

end Tables

namespace DurableStore

/-- What every operation keeps. -/
structure Sound (s : DurableStore) : Prop where
  integrity : s.tables.Integrity s.next
  compact : s.tables.Compact
  counters : s.tables.counters = s.next
  mirrored : ∀ name, s.graphIds.get? name = s.tables.graphs.get? name
  ordered : s.graphIds.entries.Pairwise fun a b => a.2 < b.2

/-! ## Opening the file again -/

theorem earlier_trans (a b c : String × Nat) (h : earlier a b = true) (h' : earlier b c = true) :
    earlier a c = true := by
  simp only [earlier, Bool.or_eq_true, Bool.and_eq_true, decide_eq_true_iff] at h h' ⊢
  rcases h with h | ⟨h, name⟩
  · rcases h' with h' | ⟨h', -⟩ <;> exact Or.inl (by omega)
  · rcases h' with h' | ⟨h', name'⟩
    · exact Or.inl (by omega)
    · exact Or.inr ⟨h.trans h', String.le_trans name name'⟩

theorem earlier_total (a b : String × Nat) : (earlier a b || earlier b a) = true := by
  simp only [earlier, Bool.or_eq_true, Bool.and_eq_true, decide_eq_true_iff]
  rcases Nat.lt_trichotomy a.2 b.2 with lt | eq | gt
  · exact Or.inl (Or.inl lt)
  · rcases String.le_total a.1 b.1 with le | le
    · exact Or.inl (Or.inr ⟨eq, le⟩)
    · exact Or.inr (Or.inr ⟨eq.symm, le⟩)
  · exact Or.inr (Or.inl gt)

theorem earlier_antisymm {a b : String × Nat} (h : earlier a b = true) (h' : earlier b a = true) :
    a = b := by
  simp only [earlier, Bool.or_eq_true, Bool.and_eq_true, decide_eq_true_iff] at h h'
  rcases h with h | ⟨h, name⟩
  · rcases h' with h' | ⟨h', -⟩ <;> omega
  · rcases h' with h' | ⟨-, name'⟩
    · omega
    · exact Prod.ext (String.le_antisymm name name') h

theorem statements_of_absent {s : DurableStore} {name : String}
    (absent : s.graphIds.get? name = none) : s.statements name = .error (.graphNotFound name) := by
  simp only [DurableStore.statements, absent]

namespace Sound

variable {s : DurableStore}

/-- The graphs at hand are the stored ones in ascending order of their numbers. -/
theorem sorted_graphs (h : s.Sound) :
    s.tables.graphs.rows.mergeSort earlier = s.graphIds.entries := by
  have perm : s.tables.graphs.rows.mergeSort earlier |>.Perm s.graphIds.entries := by
    refine (List.mergeSort_perm _ _).trans ?_
    rw [List.perm_ext_iff_of_nodup s.tables.graphs.rows_nodup s.graphIds.entries_nodup]
    intro entry
    rcases entry with ⟨name, id⟩
    rw [Table.mem_rows_iff, OrderedMap.mem_entries_iff, h.mirrored]
  have sorted := List.pairwise_mergeSort earlier_trans earlier_total s.tables.graphs.rows
  have ordered : s.graphIds.entries.Pairwise fun a b => earlier a b = true :=
    h.ordered.imp fun lt => by simp [earlier, lt]
  exact perm.eq_of_pairwise (fun _ _ _ _ => earlier_antisymm) sorted ordered

/-- Opening the file of a store again gives the store. -/
theorem load_eq (h : s.Sound) (namespaces : Namespaces) (defaultGraph : String) :
    load s.tables namespaces defaultGraph =
      { s with namespaces := namespaces, defaultGraph := defaultGraph } := by
  rw [load, h.sorted_graphs, OrderedMap.ofList_entries, h.counters]

theorem reopenWith (h : s.Sound) (namespaces : Namespaces) (defaultGraph : String) :
    (s.reopenWith namespaces defaultGraph).Sound := by
  rw [DurableStore.reopenWith, h.load_eq]
  exact ⟨h.integrity, h.compact, h.counters, h.mirrored, h.ordered⟩

/-- A registered graph is registered in the tables, under the same number. -/
theorem registered (h : s.Sound) {name : String} {id : Nat}
    (found : s.graphIds.get? name = some id) : s.tables.graphs.get? name = some id :=
  (h.mirrored name).symm.trans found

/-- Different graphs have different numbers. -/
theorem ids_ne (h : s.Sound) {a b : String} {i j : Nat} (ne : a ≠ b)
    (here : s.graphIds.get? a = some i) (there : s.graphIds.get? b = some j) : i ≠ j := by
  intro same
  subst same
  exact ne (h.integrity.graphs a b i (h.registered here) (h.registered there))

/-- Reading a registered graph never fails on account of its quads. -/
theorem statements_eq (h : s.Sound) {name : String} {id : Nat}
    (found : s.graphIds.get? name = some id) :
    s.statements name = .ok ((s.tables.triples id).map (Triple.inGraph name)) := by
  simp only [DurableStore.statements, found]
  rw [Tables.triples, List.map_map]
  apply Except.mapM_eq_ok
  intro row mem
  rcases row with ⟨n, q⟩
  exact h.integrity.statementOf (Tables.mem_rowsOf.1 mem).1 _

/-- Removing quads and then collecting values changes neither graphs nor counters. -/
theorem removeQuads (h : s.Sound) (p : Nat × Quad → Bool) :
    Sound { s with tables := (s.tables.removeQuads p).collect } where
  integrity := (h.integrity.removeQuads p).collect
  compact := Tables.compact_collect _
  counters := by
    rw [Tables.counters_collect, Tables.counters_removeQuads]
    exact h.counters
  mirrored name := by
    rw [Tables.graphs_collect, Tables.graphs_removeQuads]
    exact h.mirrored name
  ordered := h.ordered

/-- An insertion starts from tables that fit together. -/
theorem insertion (h : s.Sound) : Insertion.Sound ⟨s.tables, s.next.value, s.next.quad, 0⟩ := by
  refine ⟨?_, h.compact⟩
  change s.tables.Integrity { s.tables.counters with value := s.next.value, quad := s.next.quad }
  rw [h.counters]
  exact h.integrity

end Sound

/-! ## Showing a ledger -/

/-- The store holds the triples of a ledger, graph by graph. -/
structure Shows (s : DurableStore) (l : Ledger) : Prop where
  sound : s.Sound
  namespaces : s.namespaces = l.namespaces
  defaultGraph : s.defaultGraph = l.defaultGraph
  graphs : OrderedMap.Related (fun _ id triples => s.tables.triples id = triples)
    s.graphIds l.graphs

theorem new_eq (ns : Namespaces) (default : String) :
    new ns default = ⟨.empty, .empty, ⟨0, 0, 0⟩, ns, default⟩ := by
  unfold new load
  rw [show Tables.empty.graphs.rows = [] from rfl, List.mergeSort_nil]
  rfl

theorem shows_new (ns : Namespaces) (default : String) :
    Shows (new ns default) (.empty ns default) := by
  rw [new_eq]
  refine ⟨⟨Tables.integrity_empty, ?_, rfl, fun _ => rfl, List.Pairwise.nil⟩, rfl, rfl, .empty⟩
  exact fun _ _ found => nomatch found

namespace Shows

variable {s : DurableStore} {l : Ledger}

theorem reopenWith (h : Shows s l) (ns : Namespaces) (default : String) :
    Shows (s.reopenWith ns default) (l.reopenWith ns default) := by
  rw [DurableStore.reopenWith, h.sound.load_eq]
  exact ⟨h.sound.load_eq ns default ▸ h.sound.reopenWith ns default, rfl, rfl, h.graphs⟩

theorem statements (h : Shows s l) (graph : String) :
    s.statements graph = l.statements graph := by
  unfold Ledger.statements
  cases found : s.graphIds.get? graph with
  | none => rw [h.graphs.get?_eq_none.1 found, statements_of_absent found]
  | some id =>
      obtain ⟨triples, there, shown⟩ := h.graphs.exists_right found
      rw [there, h.sound.statements_eq found, shown]

/-- Both sides extend the name of a graph alike. -/
theorem extend (h : Shows s l) (graph : String) :
    l.namespaces.extend graph = s.namespaces.extend graph := by
  rw [h.namespaces]

theorem create (h : Shows s l) (graph : String) :
    (GraphStore.create s graph).Agree Shows (GraphStore.create l graph) := by
  refine ⟨rfl, ?_⟩
  change Shows (s.create graph)
    { l with graphs := l.graphs.insertNew (l.namespaces.extend graph) [] }
  rw [h.extend]
  unfold DurableStore.create OrderedMap.insertNew
  simp only [← h.graphs.contains (s.namespaces.extend graph)]
  split
  · exact h
  · rename_i absent
    have fresh : s.graphIds.get? (s.namespaces.extend graph) = none := by
      rw [OrderedMap.get?_eq_none_iff]
      exact fun mem => absent (OrderedMap.contains_iff_mem.2 mem)
    have integrity := h.sound.integrity.insertGraph ((h.sound.mirrored _).symm.trans fresh)
    refine ⟨⟨integrity.withCounters _, h.sound.compact, ?_, ?_, ?_⟩, h.namespaces,
      h.defaultGraph, ?_⟩
    · rw [h.sound.counters]
    · intro name
      rw [OrderedMap.get?_insert, Table.get?_insert, h.sound.mirrored]
    · rw [OrderedMap.entries_insert_of_not_mem _ (OrderedMap.get?_eq_none_iff.1 fresh),
        List.pairwise_append]
      refine ⟨h.sound.ordered, List.pairwise_singleton _ _, ?_⟩
      intro entry old e new
      rcases entry with ⟨name, id⟩
      rw [List.mem_singleton] at new
      subst new
      exact h.sound.integrity.graphBound name id
        (h.sound.registered (OrderedMap.mem_entries_iff.1 old))
    · exact h.graphs.insert h.sound.integrity.triples_unused fun _ _ r => r

theorem drop (h : Shows s l) (graph : String) :
    (GraphStore.drop s graph).Agree Shows (GraphStore.drop l graph) := by
  refine ⟨rfl, ?_⟩
  change Shows (s.drop graph) { l with graphs := l.graphs.erase (l.namespaces.extend graph) }
  rw [h.extend]
  unfold DurableStore.drop
  cases found : s.graphIds.get? (s.namespaces.extend graph) with
  | none =>
      have absent := OrderedMap.get?_eq_none_iff.1 (h.graphs.get?_eq_none.1 found)
      simp only [found, OrderedMap.erase_of_not_mem absent]
      exact h
  | some id =>
      let pruned := s.tables.prune id fun _ => true
      let kept := pruned.removeGraph (s.namespaces.extend graph)
      have graphs : pruned.graphs = s.tables.graphs := Tables.graphs_removeQuads _ _
      have named : pruned.graphs.get? (s.namespaces.extend graph) = some id := by
        rw [graphs]
        exact h.sound.registered found
      have void : ∀ n q, pruned.quads.get? n = some q → q.graph ≠ id := by
        intro n q there
        have stays := (Tables.get?_quads_removeQuads.1 there).2
        rw [Bool.true_and] at stays
        exact of_decide_eq_false stays
      have integrity : kept.Integrity s.next :=
        (h.sound.integrity.removeQuads _).removeGraph named void
      simp only [found, Tables.eraseQuads_rowsOf]
      change Shows { s with tables := kept.collect, graphIds := s.graphIds.erase _ } _
      refine ⟨⟨integrity.collect, kept.compact_collect, ?_, ?_, ?_⟩, h.namespaces,
        h.defaultGraph, ?_⟩
      · rw [Tables.counters_collect]
        exact (Tables.counters_removeQuads _ _).trans h.sound.counters
      · intro name
        rw [Tables.graphs_collect, OrderedMap.get?_erase, h.sound.mirrored]
        change _ = (pruned.graphs.erase _).get? name
        rw [Table.get?_erase, graphs]
      · exact h.sound.ordered.sublist List.filter_sublist
      · refine h.graphs.erase _ fun {name other triples} ne there shown => ?_
        have different : other ≠ id := h.sound.ids_ne ne there found
        rw [integrity.triples_collect]
        change pruned.triples other = triples
        rw [Tables.triples_prune_of_ne _ different]
        exact shown

/-- Both sides append the same triples, or refuse the batch for the same placeholder. -/
theorem insert (h : Shows s l) (graph : String) (batch : List Statement) :
    (GraphStore.insert s graph batch).Agree Shows (GraphStore.insert l graph batch) := by
  change (s.insert graph batch).Agree Shows (l.insert graph batch)
  unfold DurableStore.insert Ledger.insert
  cases found : s.graphIds.get? graph with
  | none =>
      rw [h.graphs.get?_eq_none.1 found]
      exact ⟨rfl, h⟩
  | some id =>
      obtain ⟨held, there, shown⟩ := h.graphs.exists_right found
      have sound := h.sound.insertion
      have registered : ∃ name, s.tables.graphs.get? name = some id :=
        ⟨graph, h.sound.registered found⟩
      simp only [there]
      cases placeholder : batch.findSome? Statement.placeholder? with
      | some name =>
          simp only [Insertion.addStatements_of_placeholder batch sound registered placeholder]
          exact ⟨rfl, h⟩
      | none =>
          obtain ⟨done, added, kept, appended⟩ :=
            Insertion.addStatements_of_concrete batch sound registered placeholder
          have counters : done.tables.counters = s.next := appended.counters.trans h.sound.counters
          have next : done.next = { s.next with value := done.nextValue, quad := done.nextQuad } := by
            rw [Insertion.next, counters]
          simp only [added]
          constructor
          · have count := appended.added
            have grown := appended.triples
            simp only [shown, Nat.zero_add] at count grown
            rw [← grown, ← count, Nat.add_sub_cancel]
          · refine ⟨⟨?_, kept.compact, next, ?_, h.sound.ordered⟩, h.namespaces, h.defaultGraph, ?_⟩
            · exact next ▸ kept.integrity.withCounters _
            · intro name
              exact (h.sound.mirrored name).trans (congrArg (·.get? name) appended.graphs.symm)
            · refine h.graphs.update found ?_ fun {name other triples} ne there shown => ?_
              · rw [← shown]
                exact appended.triples
              · exact (appended.others other (h.sound.ids_ne ne there found)).trans shown

/-- Both sides remove the same triples. -/
theorem remove (h : Shows s l) (graph : String) (pattern : Statement) :
    (GraphStore.remove s graph pattern).Agree Shows (GraphStore.remove l graph pattern) := by
  change (s.remove graph pattern).Agree Shows (l.remove graph pattern)
  unfold DurableStore.remove Ledger.remove
  cases found : s.graphIds.get? graph with
  | none =>
      rw [h.graphs.get?_eq_none.1 found]
      exact ⟨rfl, h⟩
  | some id =>
      obtain ⟨held, there, shown⟩ := h.graphs.exists_right found
      simp only [there]
      let fits : Nat × Quad → Bool := fun row =>
        ((s.tables.read row.2).inGraph graph).fits pattern
      have fitting : s.tables.fittingRows pattern (s.tables.rowsOf id) =
          .ok ((s.tables.rowsOf id).filter fits) :=
        h.sound.integrity.fittingRows pattern _ fun row mem => (Tables.mem_rowsOf.1 mem).1
      have kept : held.filter (fun t => !(t.inGraph graph).fits pattern) =
          ((s.tables.rowsOf id).filter fun row => !fits row).map fun row => s.tables.read row.2 := by
        rw [← shown, Tables.triples, List.filter_map]
        rfl
      have count : held.length -
          (held.filter fun t => !(t.inGraph graph).fits pattern).length =
            ((s.tables.rowsOf id).filter fits).length := by
        have parts := List.length_eq_length_filter_add (l := s.tables.rowsOf id) fits
        rw [kept, ← shown, Tables.triples, List.length_map, List.length_map, parts]
        exact Nat.add_sub_cancel _ _
      have doomed := s.tables.eraseQuads_filter_rowsOf id fits
      -- a removal that finds nothing skips the collection, so it is a case of its own
      rw [fitting, count]
      cases some : (s.tables.rowsOf id).filter fits with
      | nil =>
          refine ⟨rfl, h.sound, h.namespaces, h.defaultGraph, ?_⟩
          refine h.graphs.update found ?_ fun _ _ r => r
          rw [kept, Tables.triples, List.filter_eq_self.2]
          intro row mem
          rw [Bool.not_eq_true', ← Bool.not_eq_true]
          exact List.filter_eq_nil_iff.1 some row mem
      | cons row rest =>
          rw [some] at doomed
          simp only [doomed]
          have integrity : (s.tables.prune id fits).Integrity s.next :=
            h.sound.integrity.removeQuads _
          refine ⟨rfl, h.sound.removeQuads _, h.namespaces, h.defaultGraph, ?_⟩
          refine h.graphs.update found ?_ fun {name other triples} ne there shown => ?_
          · rw [kept, ← Tables.triples_prune_self]
            exact integrity.triples_collect id
          · have different : other ≠ id := h.sound.ids_ne ne there found
            have stays := Tables.triples_prune_of_ne s.tables different fits
            exact ((integrity.triples_collect other).trans stays).trans shown

end Shows

/-- The store in a database file shows a ledger, whatever is inserted. -/
theorem simulation : Simulation Shows fun _ _ => True where
  namespaces h := h.namespaces
  defaultGraph h := h.defaultGraph
  graphs h := h.graphs.keys
  contains h := h.graphs.contains
  statements h := h.statements
  create h := h.create
  drop h := h.drop
  insert h graph batch _ := h.insert graph batch
  remove h := h.remove

/-- Closing the store and opening it again with its own prefixes keeps showing the ledger. -/
theorem Shows.reopen {s : DurableStore} {l : Ledger} (h : Shows s l) : Shows s.reopen l := by
  have again := h.reopenWith s.namespaces s.defaultGraph
  rw [Ledger.reopenWith, h.namespaces, h.defaultGraph] at again
  rw [DurableStore.reopen, h.namespaces, h.defaultGraph]
  exact again

/-- One event. -/
theorem Shows.apply {s : DurableStore} {l : Ledger} (h : Shows s l) (e : Event) :
    Shows (e.apply DurableStore.reopenWith s) (e.apply Ledger.reopenWith l) :=
  simulation.apply Shows.reopenWith h e

/-- A history takes a store that shows a ledger to one that shows the ledger after the same
history. -/
theorem Shows.after (events : List Event) {s : DurableStore} {l : Ledger} (h : Shows s l) :
    Shows (Event.after DurableStore.reopenWith s events)
      (Event.after Ledger.reopenWith l events) :=
  simulation.after Shows.reopenWith events h

end DurableStore

end RdfStore
