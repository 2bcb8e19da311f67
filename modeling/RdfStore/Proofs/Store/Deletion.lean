import RdfStore.Proofs.Store.Removal

/-!
# Deleting, listing and testing agree

Deleting by pattern, listing what fits it and testing whether anything does go through the same
graphs (`Store.patternTargets`), each in its own way. In memory they are refused together, and
otherwise the deletion takes away just what the list has, graph after graph
(`MemoryStore.delete_agrees`).

* `Store.nodup_of_patternTargets`, `Store.contains_of_patternTargets`: the graphs are registered and
  different, so a deletion meets each of them once and is never refused on its way.
* `MemoryStore.removeFrom_purges`: a run of removals from different registered graphs.
-/

namespace RdfStore

open GraphStore

/-! ## The graphs of a pattern -/

namespace Store

variable {σ : Type} [GraphStore σ] {s : σ} {pattern : Statement} {explicit : Option String}
  {targets : List String}

/-- A pattern stands for every graph, or for one registered graph, or for the default graph which is
not there. -/
theorem cases_of_patternTargets (h : patternTargets s pattern explicit = .ok targets) :
    targets = graphs s ∨ (∃ graph, contains s graph = true ∧ targets = [graph]) ∨ targets = [] := by
  unfold patternTargets at h
  split at h
  · cases h
  · cases h
    exact Or.inl rfl
  · rename_i graph _
    split at h
    · rename_i registered
      cases h
      exact Or.inr (Or.inl ⟨graph, registered, rfl⟩)
    · split at h
      · cases h
        exact Or.inr (Or.inr rfl)
      · cases h

theorem nodup_of_patternTargets (nodup : (graphs s).Nodup)
    (h : patternTargets s pattern explicit = .ok targets) : targets.Nodup := by
  rcases cases_of_patternTargets h with rfl | ⟨graph, -, rfl⟩ | rfl
  · exact nodup
  · exact List.nodup_singleton graph
  · exact List.nodup_nil

theorem contains_of_patternTargets (known : ∀ graph ∈ graphs s, contains s graph = true)
    (h : patternTargets s pattern explicit = .ok targets) :
    ∀ graph ∈ targets, contains s graph = true := by
  rcases cases_of_patternTargets h with rfl | ⟨graph, registered, rfl⟩ | rfl
  · exact known
  · exact fun g mem => List.mem_singleton.1 mem ▸ registered
  · exact fun g mem => nomatch mem

/-- Stores with the same prefixes, default graph and graphs resolve patterns alike. -/
theorem patternTargets_congr {s' : σ} (prefixes : namespaces s' = namespaces s)
    (default : defaultGraph s' = defaultGraph s) (names : graphs s' = graphs s)
    (registered : ∀ graph, contains s' graph = contains s graph) (pattern : Statement)
    (explicit : Option String) :
    patternTargets s' pattern explicit = patternTargets s pattern explicit := by
  have selected : patternGraph s' pattern explicit = patternGraph s pattern explicit := by
    simp only [patternGraph, prefixes, default]
  simp only [patternTargets, selected, default, names, registered]

/-! ## Purged graphs -/

/-- What fits a pattern in some graphs, graph by graph. -/
def allFitting (s : σ) (pattern : Statement) (targets : List String) : List Statement :=
  targets.flatMap fun graph => (listed s graph).filter fun t => t.fits pattern

/-- A later store in which some graphs have lost what fits a pattern. Nothing else has changed. -/
structure Purged (pattern : Statement) (targets : List String) (s s' : σ) : Prop where
  namespaces : namespaces s' = namespaces s
  defaultGraph : defaultGraph s' = defaultGraph s
  graphs : graphs s' = graphs s
  purged : ∀ graph ∈ targets, GraphStore.statements s' graph =
    .ok ((listed s graph).filter fun t => !t.fits pattern)
  others : ∀ graph ∉ targets, GraphStore.statements s' graph = GraphStore.statements s graph

namespace Purged

variable {s₁ s' : σ} {graph : String} {rest : List String}

theorem nil (pattern : Statement) (s : σ) : Purged pattern [] s s :=
  ⟨rfl, rfl, rfl, fun _ mem => (nomatch mem), fun _ _ => rfl⟩

theorem listed_of_not_mem (h : Purged pattern targets s s') (absent : graph ∉ targets) :
    listed s' graph = listed s graph := by
  rw [listed, listed, h.others graph absent]

/-- One graph after the other. -/
theorem cons (h : Purged pattern [graph] s s₁) (h' : Purged pattern rest s₁ s')
    (fresh : graph ∉ rest) : Purged pattern (graph :: rest) s s' where
  namespaces := h'.namespaces.trans h.namespaces
  defaultGraph := h'.defaultGraph.trans h.defaultGraph
  graphs := h'.graphs.trans h.graphs
  purged g mem := by
    rcases List.mem_cons.1 mem with rfl | later
    · rw [h'.others g fresh]
      exact h.purged g (List.mem_singleton_self g)
    · have ne : g ∉ [graph] := fun same => fresh (List.mem_singleton.1 same ▸ later)
      rw [h'.purged g later, h.listed_of_not_mem ne]
  others g absent := by
    rw [List.mem_cons, not_or] at absent
    rw [h'.others g absent.2]
    exact h.others g fun same => absent.1 (List.mem_singleton.1 same)

/-- What has been purged of a pattern has nothing left that fits it. -/
theorem fitting_eq_nil (h : Purged pattern targets s s') : allFitting s' pattern targets = [] := by
  refine List.flatMap_eq_nil_iff.2 fun graph mem => ?_
  rw [listed, h.purged graph mem]
  refine List.filter_eq_nil_iff.2 fun t left fits => ?_
  have misfit := (List.mem_filter.1 left).2
  rw [fits] at misfit
  cases misfit

end Purged

end Store

open Store

/-! ## The store in memory -/

namespace MemoryStore

variable {m : MemoryStore}

theorem fitting_eq (m : MemoryStore) (pattern : Statement) (graph : String) :
    m.fitting pattern graph = (listed m graph).filter fun t => t.fits pattern := by
  have read : GraphStore.statements m graph = m.statements graph := rfl
  rw [MemoryStore.fitting, listed, read, MemoryStore.statements]
  cases m.graphs.get? graph <;> rfl

/-- Listing goes through the graphs of the pattern. -/
theorem matching_eq (m : MemoryStore) (pattern : Statement) (explicit : Option String) :
    m.matching pattern explicit = (patternTargets m pattern explicit).map
      (allFitting m (pattern.extend m.namespaces)) := by
  rw [matching]
  refine congrArg (Except.map · _) (funext fun targets => ?_)
  exact congrArg (targets.flatMap ·) (funext (m.fitting_eq _))

/-- Testing is asking whether the list would have a member. -/
theorem hasMatching_eq (m : MemoryStore) (pattern : Statement) (explicit : Option String) :
    m.hasMatching pattern explicit = (m.matching pattern explicit).map
      fun found => decide (0 < found.length) := by
  rw [hasMatching, matching]
  cases patternTargets m pattern explicit with
  | error e => rfl
  | ok targets =>
      refine congrArg Except.ok ?_
      dsimp only
      rw [Bool.eq_iff_iff, List.any_eq_true, decide_eq_true_iff, List.length_pos_iff_exists_mem]
      simp only [Bool.not_eq_true', List.isEmpty_eq_false_iff_exists_mem, List.mem_flatMap]
      exact ⟨fun ⟨g, mem, t, fits⟩ => ⟨t, g, mem, fits⟩, fun ⟨t, g, mem, fits⟩ => ⟨g, mem, t, fits⟩⟩

theorem contains_of_graphs_eq {m' : MemoryStore}
    (names : GraphStore.graphs m' = GraphStore.graphs m) (graph : String) :
    GraphStore.contains m' graph = GraphStore.contains m graph :=
  congrArg (·.contains graph) names

/-- Removing from one registered graph. -/
theorem remove_purges (m : MemoryStore) (pattern : Statement) {graph : String}
    (registered : GraphStore.contains m graph = true) :
    ∃ m', GraphStore.remove m graph pattern =
        ⟨.ok ((listed m graph).filter fun t => t.fits pattern).length, m'⟩ ∧
      Purged pattern [graph] m m' := by
  obtain ⟨held, found⟩ := OrderedMap.mem_keys_iff.1 (OrderedMap.contains_iff_mem.1 registered)
  have read : GraphStore.statements m graph = .ok (listed m graph) := by
    have stored := statements_eq_ok_iff.2 ⟨held, found, rfl⟩
    rw [listed, stored]
  obtain ⟨m', removed, alters, left⟩ := m.removing.remove read pattern
  have store : (m.remove graph pattern).store = m' := congrArg Reply.store removed
  rw [MemoryStore.remove, found] at store
  obtain rfl := store
  refine ⟨_, removed, rfl, rfl, alters.graphs, fun g mem => ?_, fun g absent => ?_⟩
  · rw [List.mem_singleton.1 mem, left]
  · exact alters.others g fun same => absent (List.mem_singleton.2 same)

/-- Removing from different registered graphs: by induction, because a removal leaves the later graphs
registered and as they were. -/
theorem removeFrom_purges (pattern : Statement) (targets : List String) :
    ∀ {m : MemoryStore}, targets.Nodup → (∀ g ∈ targets, GraphStore.contains m g = true) →
      ∃ m', removeFrom pattern m targets =
          ⟨.ok (allFitting m pattern targets).length, m'⟩ ∧ Purged pattern targets m m' := by
  induction targets with
  | nil => intro m _ _; exact ⟨m, rfl, .nil pattern m⟩
  | cons graph rest ih =>
      intro m nodup registered
      obtain ⟨fresh, nodup⟩ := List.nodup_cons.1 nodup
      obtain ⟨here, registered⟩ := List.forall_mem_cons.1 registered
      obtain ⟨m₁, first, purged⟩ := m.remove_purges pattern here
      have registered : ∀ g ∈ rest, GraphStore.contains m₁ g = true := fun g mem =>
        (contains_of_graphs_eq purged.graphs g).trans (registered g mem)
      obtain ⟨m', later, purged'⟩ := ih nodup registered
      have unread : allFitting m₁ pattern rest = allFitting m pattern rest := by
        refine List.flatMap_congr fun g mem => ?_
        have ne : g ∉ [graph] := fun same => fresh (List.mem_singleton.1 same ▸ mem)
        rw [purged.listed_of_not_mem ne]
      refine ⟨m', ?_, purged.cons purged' fresh⟩
      rw [removeFrom, first]
      simp only [later, unread]
      rw [allFitting, allFitting, List.flatMap_cons, List.length_append]
      rfl

/-- Deleting, listing and testing a pattern are refused together, and then nothing changes. Otherwise
the pattern's graphs are registered and different, the list has what fits the pattern in them, the
test answers whether it has a member, and the deletion answers its length and takes away just what it
has: afterwards the list is empty. -/
theorem delete_agrees (m : MemoryStore) (pattern : Statement) (explicit : Option String) :
    match patternTargets m pattern explicit with
    | .error e =>
        Store.delete m pattern explicit = ⟨.error e, m⟩ ∧
          PatternSearch.matching m pattern explicit = .error e ∧
          PatternSearch.hasMatching m pattern explicit = .error e
    | .ok targets =>
        targets.Nodup ∧ (∀ g ∈ targets, GraphStore.contains m g = true) ∧
          ∃ found m', found = allFitting m (pattern.extend m.namespaces) targets ∧
            PatternSearch.matching m pattern explicit = .ok found ∧
            PatternSearch.hasMatching m pattern explicit = .ok (decide (0 < found.length)) ∧
            Store.delete m pattern explicit = ⟨.ok found.length, m'⟩ ∧
            PatternSearch.matching m' pattern explicit = .ok [] ∧
            Purged (pattern.extend m.namespaces) targets m m' := by
  have listing (m : MemoryStore) : PatternSearch.matching m pattern explicit =
      (patternTargets m pattern explicit).map (allFitting m (pattern.extend m.namespaces)) :=
    m.matching_eq pattern explicit
  have testing : PatternSearch.hasMatching m pattern explicit =
      (PatternSearch.matching m pattern explicit).map fun found => decide (0 < found.length) :=
    m.hasMatching_eq pattern explicit
  rw [testing, listing m, Store.delete]
  cases resolved : patternTargets m pattern explicit with
  | error e => exact ⟨rfl, rfl, rfl⟩
  | ok targets =>
      have nodup := nodup_of_patternTargets m.graphs.keys_nodup resolved
      have registered : ∀ g ∈ targets, GraphStore.contains m g = true :=
        contains_of_patternTargets (fun _ => OrderedMap.contains_iff_mem.2) resolved
      obtain ⟨m', removed, purged⟩ :=
        removeFrom_purges (pattern.extend m.namespaces) targets nodup registered
      have resolved' : patternTargets m' pattern explicit = .ok targets := by
        rw [← resolved]
        exact patternTargets_congr purged.namespaces purged.defaultGraph purged.graphs
          (contains_of_graphs_eq purged.graphs) pattern explicit
      have prefixes : m'.namespaces = m.namespaces := purged.namespaces
      refine ⟨nodup, registered, _, m', rfl, rfl, rfl, removed, ?_, purged⟩
      rw [listing m', resolved', prefixes]
      exact congrArg Except.ok purged.fitting_eq_nil

end MemoryStore

end RdfStore
