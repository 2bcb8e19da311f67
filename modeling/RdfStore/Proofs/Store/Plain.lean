import RdfStore.Proofs.Store.Removal

/-!
# Statements that are stored as they are given

A valid statement without blank nodes whose URIs are in full is its own normal form
(`Statement.Plain`). Adding such statements to one registered graph inserts just them
(`Store.add_of_plain`), and deleting by a statement in full takes away the stored statement with the
same nodes and no other (`Store.Removing.delete`).
-/

namespace RdfStore

open GraphStore

variable {σ : Type} {ns : Namespaces}

/-! ## What extending and renaming leave alone -/

/-- A triple all of whose URIs are in full. -/
def Triple.Full (ns : Namespaces) (t : Triple) : Prop := ∀ u ∈ t.uris, ns.extend u = u

instance (ns : Namespaces) : DecidablePred (Triple.Full ns) := fun t =>
  inferInstanceAs (Decidable (∀ u ∈ t.uris, ns.extend u = u))

/-- A valid statement without blank nodes whose URIs are in full; its graph need not be. -/
structure Statement.Plain (ns : Namespaces) (t : Statement) : Prop where
  valid : t.Valid
  unlabelled : t.labels = []
  full : t.triple.Full ns

instance (ns : Namespaces) : DecidablePred (Statement.Plain ns) := fun t =>
  decidable_of_iff (t.Valid ∧ t.labels = [] ∧ t.triple.Full ns)
    ⟨fun ⟨valid, unlabelled, full⟩ => ⟨valid, unlabelled, full⟩,
      fun ⟨valid, unlabelled, full⟩ => ⟨valid, unlabelled, full⟩⟩

theorem Node.extend_eq_self {n : Node} (full : ∀ u ∈ n.uris, ns.extend u = u) :
    n.extend ns = n := by
  cases n with
  | named uri => exact congrArg Node.named (full uri (List.mem_singleton_self uri))
  | blank | pattern => rfl
  | literal l =>
      rcases l with ⟨value, datatype, language⟩
      cases datatype with
      | none => rfl
      | some uri =>
          have same : ns.extend uri = uri := full uri (List.mem_singleton_self uri)
          simp only [Node.extend, Option.map_some, same]

theorem Node.relabel_eq_self {n : Node} (unlabelled : n.label? = none) (rename : String → String) :
    n.relabel rename = n := by
  cases n with
  | blank label => cases unlabelled
  | named | literal | pattern => rfl

theorem Triple.eq_of_fixed {f : Node → Node} {t : Triple} (fixed : ∀ n ∈ t.nodes, f n = n) :
    (⟨f t.subject, f t.predicate, f t.object⟩ : Triple) = t := by
  simp only [nodes, List.forall_mem_cons] at fixed
  rw [fixed.1, fixed.2.1, fixed.2.2.1]

theorem Triple.Full.extend {t : Statement} (full : t.triple.Full ns) :
    (t.extend ns).triple = t.triple :=
  eq_of_fixed (t := t.triple) fun n mem =>
    Node.extend_eq_self fun u here => full u (List.mem_flatMap.2 ⟨n, mem, here⟩)

theorem Triple.relabel_eq_self {t : Triple} (unlabelled : t.labels = [])
    (rename : String → String) : t.relabel rename = t :=
  eq_of_fixed fun n mem =>
    Node.relabel_eq_self (Option.toList_eq_nil_iff.1 (List.flatMap_eq_nil_iff.1 unlabelled n mem))
      rename

/-- A plain statement is its own normal form. -/
theorem Statement.Plain.normal {t : Statement} (plain : t.Plain ns) (rename : String → String) :
    (t.extend ns).triple.relabel rename = t.triple := by
  rw [plain.full.extend, Triple.relabel_eq_self plain.unlabelled]

/-- Only a statement with the same nodes fits a pattern without placeholders. -/
theorem Statement.fits_iff {t p : Statement} (concrete : ∀ n ∈ p.nodes, n.isConcrete = true) :
    t.fits p = true ↔ t.triple = p.triple := by
  have node : ∀ position stored, nodeFits stored (p.nodeAt position) = true ↔
      stored = p.nodeAt position := by
    intro position stored
    have none : (p.nodeAt position).isPattern = false :=
      (Bool.not_eq_true' _) ▸ concrete _ (p.nodeAt_mem_nodes position)
    rw [nodeFits, none, Bool.false_or, decide_eq_true_iff]
  rw [fits, Bool.and_eq_true, Bool.and_eq_true, triple, triple, Triple.mk.injEq, ← and_assoc]
  exact and_congr (and_congr (node .subject _) (node .predicate _)) (node .object _)

/-! ## Adding -/

namespace Store

/-- A map with one key has one entry. -/
theorem Batches.entries_of_keys {batches : Batches} {graph : String}
    (keys : batches.keys = [graph]) :
    batches.entries = [(graph, (batches.get? graph).getD [])] := by
  obtain ⟨batch, found⟩ := OrderedMap.mem_keys_iff.1 (keys ▸ List.mem_singleton_self graph)
  obtain ⟨e, single, named⟩ := List.map_eq_singleton_iff.1 keys
  have mem := OrderedMap.mem_entries_iff.2 found
  rw [single] at mem
  rw [single, found, Option.getD_some, ← List.mem_singleton.1 mem]

/-- Plain statements for one graph make one batch, which holds just their triples. -/
theorem batches_of_plain (draws : Draws) {default graph : String} {explicit : Option String}
    {batch : List Statement} (some : batch ≠ []) (plain : ∀ t ∈ batch, t.Plain ns)
    (target : ∀ t ∈ batch, t.target ns explicit default = graph) :
    ∃ batches, batchesFrom ns default explicit draws .empty .empty batch = .ok batches ∧
      batches.entries = [(graph, batch.map fun t => t.triple.inGraph graph)] := by
  have unfaulted : batch.findSome? Statement.fault? = none :=
    List.findSome?_eq_none_iff.2 fun t mem => Statement.fault?_eq_none_iff.2 (plain t mem).valid
  obtain ⟨batches, made⟩ : ∃ batches,
      batchesFrom ns default explicit draws .empty .empty batch = .ok batches := by
    obtain ⟨batches, made, -⟩ := batchesFrom_of_valid batch unfaulted
    exact ⟨batches, made⟩
  refine ⟨batches, made, ?_⟩
  have keys : batches.keys = [graph] := by
    have targets : ∀ g, g ∈ batches.keys ↔ g = graph := by
      intro g
      rw [Batches.mem_keys_of_batchesFrom batch made]
      constructor
      · rintro (old | ⟨t, mem, rfl⟩)
        · cases old
        · exact target t mem
      · rintro rfl
        obtain ⟨t, mem⟩ := List.exists_mem_of_ne_nil batch some
        exact Or.inr ⟨t, mem, target t mem⟩
    have nodup : batches.keys.Nodup := batches.keys_nodup
    rw [← List.perm_singleton, List.perm_ext_iff_of_nodup nodup (List.nodup_singleton graph)]
    exact fun g => (targets g).trans List.mem_singleton.symm
  obtain ⟨R, -, written⟩ := Batches.relabelled batch made
  rw [Batches.entries_of_keys keys, written graph]
  have all : batch.filter (fun t => decide (t.target ns explicit default = graph)) = batch :=
    List.filter_eq_self.2 fun t mem => decide_eq_true (target t mem)
  rw [all]
  refine congrArg (fun b => [(graph, b)]) ?_
  exact List.map_congr_left fun t mem => by rw [(plain t mem).normal]

/-- Adding plain statements to a registered graph inserts just their triples. -/
theorem add_of_plain [GraphStore σ] {s : σ} {graph : String} {explicit : Option String}
    {draws : Draws} {batch : List Statement} (some : batch ≠ [])
    (plain : ∀ t ∈ batch, t.Plain (namespaces s))
    (target : ∀ t ∈ batch, t.target (namespaces s) explicit (defaultGraph s) = graph)
    (registered : contains s graph = true) :
    Store.add s draws batch explicit =
      GraphStore.insert s graph (batch.map fun t => t.triple.inGraph graph) := by
  obtain ⟨batches, made, entries⟩ := batches_of_plain draws some plain target
  have known : firstUnknown s batches.keys = none := by
    rw [firstUnknown_eq_none_iff, OrderedMap.keys, entries]
    exact List.forall_mem_singleton.2 (Or.inl registered)
  rw [add_of_batches made known, entries, writeBatches_singleton, writeBatch, if_pos registered]

/-! ## Deleting -/

theorem removeFrom_singleton [GraphStore σ] (s : σ) (graph : String) (pattern : Statement) :
    removeFrom pattern s [graph] = remove s graph pattern := by
  unfold removeFrom
  rcases remove s graph pattern with ⟨result, s'⟩
  cases result with
  | error e => rfl
  | ok n => rfl

/-- Deleting from one registered graph is removing from it what fits the pattern in full. -/
theorem delete_of_patternGraph [GraphStore σ] {s : σ} {pattern : Statement}
    {explicit : Option String} {graph : String} (selects : patternGraph s pattern explicit = .ok (some graph))
    (registered : contains s graph = true) :
    Store.delete s pattern explicit = remove s graph (pattern.extend (namespaces s)) := by
  have targets : patternTargets s pattern explicit = .ok [graph] := by
    simp only [patternTargets, selects, registered, if_true]
  rw [delete, targets]
  exact removeFrom_singleton s graph _

/-- Deleting by the nodes of a stored statement takes away that statement and no other. -/
theorem Removing.delete [GraphStore σ] {s : σ} (removing : Removing s) {graph : String}
    {stored : List Statement} (read : GraphStore.statements s graph = .ok stored)
    (nodup : stored.Nodup) (placed : ∀ t ∈ stored, t.graph = some (.named graph))
    (registered : contains s graph = true) {pattern : Statement} {explicit : Option String}
    (selects : patternGraph s pattern explicit = .ok (some graph))
    (concrete : ∀ n ∈ pattern.nodes, n.isConcrete = true)
    (full : pattern.triple.Full (namespaces s)) (mem : pattern.triple.inGraph graph ∈ stored) :
    ∃ s', Store.delete s pattern explicit = ⟨.ok 1, s'⟩ ∧ AltersOnly graph s s' ∧
      GraphStore.statements s' graph = .ok (stored.erase (pattern.triple.inGraph graph)) := by
  obtain ⟨s', removed, alters, left⟩ := removing.remove read (pattern.extend (namespaces s))
  have same : (pattern.extend (namespaces s)).triple = pattern.triple := full.extend
  have fits : ∀ t ∈ stored, t.fits (pattern.extend (namespaces s)) =
      decide (t = pattern.triple.inGraph graph) := by
    intro t here
    rw [Bool.eq_iff_iff, decide_eq_true_iff, Statement.fits_iff, same]
    · constructor
      · intro eq
        rw [← eq, Statement.inGraph_triple (placed t here)]
      · rintro rfl
        rfl
    · rw [Statement.nodes, same]
      exact concrete
  have single : stored.filter (fun t => t.fits (pattern.extend (namespaces s))) =
      [pattern.triple.inGraph graph] := by
    rw [List.filter_congr fits, ← List.perm_singleton,
      List.perm_ext_iff_of_nodup (nodup.filter _) (List.nodup_singleton _)]
    intro t
    rw [List.mem_filter, decide_eq_true_iff, List.mem_singleton]
    exact ⟨And.right, fun eq => ⟨eq ▸ mem, eq⟩⟩
  have others : stored.filter (fun t => !t.fits (pattern.extend (namespaces s))) =
      stored.erase (pattern.triple.inGraph graph) := by
    rw [nodup.erase_eq_filter]
    refine List.filter_congr fun t here => ?_
    rw [fits t here]
    rfl
  rw [single] at removed
  rw [others] at left
  exact ⟨s', (delete_of_patternGraph selects registered).trans removed, alters, left⟩

end Store

end RdfStore
