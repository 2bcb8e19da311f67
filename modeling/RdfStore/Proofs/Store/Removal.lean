import RdfStore.Proofs.Store.Provenance

/-!
# Removal takes away what it names

Removing by pattern takes the fitting statements out of one graph and answers how many they were;
dropping takes away one graph. The other statements and graphs stay as they are and in their order
(`Store.Removing`). Every representation does so in every state, and so do both kinds of storage
(`Storage.Reachable.removing`).
-/

namespace RdfStore

open GraphStore

variable {σ τ : Type}

/-- A later store that lists the same graphs and differs in what one of them holds, if at all. -/
structure Store.AltersOnly [GraphStore σ] (graph : String) (s s' : σ) : Prop where
  graphs : graphs s' = graphs s
  others : ∀ g, g ≠ graph → GraphStore.statements s' g = GraphStore.statements s g

/-- Removal by pattern and dropping take away what they name and nothing else. -/
structure Store.Removing [GraphStore σ] (s : σ) : Prop where
  remove : ∀ {graph stored}, GraphStore.statements s graph = .ok stored → ∀ pattern, ∃ s',
    remove s graph pattern = ⟨.ok (stored.filter fun t => t.fits pattern).length, s'⟩ ∧
      AltersOnly graph s s' ∧
      GraphStore.statements s' graph = .ok (stored.filter fun t => !t.fits pattern)
  drop : ∀ graph, ∃ s', drop s graph = ⟨.ok (), s'⟩ ∧
    graphs s' = (graphs s).filter (fun g => !decide (g = (namespaces s).extend graph)) ∧
    ∀ g, g ≠ (namespaces s).extend graph → GraphStore.statements s' g = GraphStore.statements s g

open Store

/-! ## The representations -/

namespace Store.AltersOnly

variable [GraphStore σ] {graph : String} {s s' s'' : σ}

theorem refl (graph : String) (s : σ) : AltersOnly graph s s := ⟨rfl, fun _ _ => rfl⟩

theorem trans (h : AltersOnly graph s s') (h' : AltersOnly graph s' s'') :
    AltersOnly graph s s'' :=
  ⟨h'.graphs.trans h.graphs, fun g ne => (h'.others g ne).trans (h.others g ne)⟩

end Store.AltersOnly

theorem length_sub_length_filter_not {α : Type} (p : α → Bool) (l : List α) :
    l.length - (l.filter fun a => !p a).length = (l.filter p).length := by
  rw [List.length_eq_length_filter_add (l := l) p, Nat.add_sub_cancel]

/-- Dropping where graphs are kept in a map. -/
theorem Shelved.drop_spec [GraphStore σ] {β : Type} {table : σ → OrderedMap String β}
    (shelved : Shelved table) (s : σ) (graph : String) :
    GraphStore.graphs (GraphStore.drop s graph).store =
        (GraphStore.graphs s).filter (fun g => !decide (g = (namespaces s).extend graph)) ∧
      ∀ g, g ≠ (namespaces s).extend graph →
        GraphStore.statements (GraphStore.drop s graph).store g = GraphStore.statements s g := by
  have dropped := shelved.drop s graph
  constructor
  · rw [shelved.graphs, shelved.graphs, dropped, OrderedMap.keys_erase]
  · intro g ne
    refine shelved.statements ?_
    rw [dropped, OrderedMap.get?_erase, if_neg (Ne.symm ne)]

/-- Writing to a registered graph where graphs are kept in a map. -/
theorem Shelved.altersOnly_insert [GraphStore σ] {β : Type} {table : σ → OrderedMap String β}
    (shelved : Shelved table) {s s' : σ} {graph : String} {b : β} (known : graph ∈ (table s).keys)
    (written : table s' = (table s).insert graph b) : AltersOnly graph s s' where
  graphs := by rw [shelved.graphs, shelved.graphs, written, OrderedMap.keys_insert, if_pos known]
  others g ne := by
    refine shelved.statements ?_
    rw [written, OrderedMap.get?_insert, if_neg (Ne.symm ne)]

theorem MemoryStore.removing (m : MemoryStore) : Removing m where
  remove {graph stored} read pattern := by
    obtain ⟨held, found, rfl⟩ := statements_eq_ok_iff.1 read
    let kept := held.filter fun _ t => !t.fits pattern
    have values : kept.values = held.values.filter fun t => !t.fits pattern := by
      rw [OrderedMap.values, OrderedMap.values, List.filter_map]
      rfl
    have count : held.size - kept.size =
        (held.values.filter fun t => t.fits pattern).length := by
      rw [← length_sub_length_filter_not, ← values]
      simp only [OrderedMap.size, OrderedMap.values, List.length_map]
    refine ⟨{ m with graphs := m.graphs.insert graph kept }, ?_, ?_, ?_⟩
    · change m.remove graph pattern = _
      rw [MemoryStore.remove, found, ← count]
    · exact shelved.altersOnly_insert (OrderedMap.mem_keys_iff.2 ⟨held, found⟩) rfl
    · refine statements_eq_ok_iff.2 ⟨kept, ?_, values⟩
      rw [OrderedMap.get?_insert, if_pos rfl]
  drop graph := ⟨_, rfl, shelved.drop_spec m graph⟩

theorem Ledger.removing (l : Ledger) : Removing l where
  remove {graph stored} read pattern := by
    obtain ⟨held, found, rfl⟩ := statements_eq_ok_iff.1 read
    let kept := held.filter fun t => !(t.inGraph graph).fits pattern
    have values : kept.map (Triple.inGraph graph) =
        (held.map (Triple.inGraph graph)).filter fun t => !t.fits pattern := by
      rw [List.filter_map]
      rfl
    have count : held.length - kept.length =
        ((held.map (Triple.inGraph graph)).filter fun t => t.fits pattern).length := by
      rw [← length_sub_length_filter_not fun t : Statement => t.fits pattern, ← values,
        List.length_map, List.length_map]
    refine ⟨{ l with graphs := l.graphs.insert graph kept }, ?_, ?_, ?_⟩
    · change l.remove graph pattern = _
      rw [Ledger.remove, found, ← count]
    · exact shelved.altersOnly_insert (OrderedMap.mem_keys_iff.2 ⟨held, found⟩) rfl
    · refine statements_eq_ok_iff.2 ⟨kept, ?_, values⟩
      rw [OrderedMap.get?_insert, if_pos rfl]
  drop graph := ⟨_, rfl, shelved.drop_spec l graph⟩

/-! ## Seen through a simulation -/

/-- A store that cannot be told apart from one that removes what it names does so as well. -/
theorem Simulation.removing [GraphStore σ] [GraphStore τ] {rel : σ → τ → Prop}
    {Admits : String → Statement → Prop} (sim : Simulation rel Admits) {s : σ} {t : τ}
    (h : rel s t) (removing : Removing t) : Removing s where
  remove {graph stored} read pattern := by
    obtain ⟨t', removed, alters, left⟩ :=
      removing.remove ((sim.statements h graph).symm.trans read) pattern
    have agree := sim.remove h graph pattern
    rcases made : GraphStore.remove s graph pattern with ⟨result, s'⟩
    rw [made, removed] at agree
    obtain ⟨rfl, h'⟩ := agree
    refine ⟨s', rfl, ⟨?_, fun g ne => ?_⟩, ?_⟩
    · rw [sim.graphs h', sim.graphs h, alters.graphs]
    · rw [sim.statements h', sim.statements h, alters.others g ne]
    · rw [sim.statements h', left]
  drop graph := by
    obtain ⟨t', dropped, names, statements⟩ := removing.drop graph
    have agree := sim.drop h graph
    rcases made : GraphStore.drop s graph with ⟨result, s'⟩
    rw [made, dropped] at agree
    obtain ⟨rfl, h'⟩ := agree
    rw [sim.namespaces h]
    refine ⟨s', rfl, ?_, fun g ne => ?_⟩
    · rw [sim.graphs h', sim.graphs h, names]
    · rw [sim.statements h', sim.statements h, statements g ne]

theorem Storage.Reachable.removing {s : Storage} (reachable : s.Reachable) : Removing s := by
  cases s with
  | memory m => exact simulation_memory.removing rfl m.removing
  | durable d =>
      rcases reachable with ⟨ns, default, events, rfl⟩
      have shows := DurableStore.Shows.after events (DurableStore.shows_new ns default)
      have inFile := DurableStore.simulation.removing shows (Ledger.removing _)
      exact simulation_durable.removing rfl inFile

end RdfStore
