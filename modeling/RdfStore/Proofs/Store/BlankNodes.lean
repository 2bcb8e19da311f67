import RdfStore.Proofs.Store.Appending

/-!
# Blank nodes keep their structure

An addition gives the blank nodes of its statements generated labels. If these are fresh, one
injective renaming of the labels describes what is stored (`Store.Renamed`): blank nodes that were
one stay one, across statements, positions and graphs, and blank nodes that were two stay two. None
becomes a blank node that the store held before.

Statements with blank nodes are therefore always new. How many are stored depends on how many
different statements there are for each graph, and not on the generated labels
(`Store.count_of_labelled`), so a second addition of the same statements stores as many again. Both
are said by `Storage.renamed_of_accepted`.
-/

namespace RdfStore

open GraphStore

variable {σ : Type}

/-! ## The labels of one relabelling -/

namespace Relabelling

variable {draws : Draws} {labels : List String} {R : Relabelling}

/-- From nothing on, a relabelling knows the labels that it has met and uses as many draws. -/
theorem size_of_grows (grows : Grows draws labels .empty R) : R.size = labels.dedup.length := by
  have same : R.table.keys.Perm labels.dedup := by
    refine (List.perm_ext_iff_of_nodup R.table.keys_nodup (List.nodup_dedup labels)).2 ?_
    intro a
    change a ∈ R.table.keys ↔ _
    rw [grows.known, List.mem_dedup]
    exact ⟨fun given => given.elim (fun none => by cases none) id, Or.inr⟩
  rw [← same.length_eq, OrderedMap.keys, List.length_map]
  rfl

theorem get?_rename (grows : Grows draws labels .empty R) {a : String} (mem : a ∈ labels) :
    R.table.get? a = some (R.rename a) := by
  obtain ⟨b, found⟩ := OrderedMap.mem_keys_iff.1 ((grows.known a).2 (Or.inr mem))
  rw [rename, found, Option.getD_some]

theorem values_of_grows (grows : Grows draws labels .empty R) :
    R.table.values = (List.range labels.dedup.length).map fun i => generatedLabel (draws i) := by
  rw [← size_of_grows grows]
  exact grows.drawn rfl

theorem rename_drawn (grows : Grows draws labels .empty R) {a : String} (mem : a ∈ labels) :
    ∃ i < labels.dedup.length, R.rename a = generatedLabel (draws i) := by
  have value : R.rename a ∈ R.table.values :=
    List.mem_map_of_mem (OrderedMap.mem_entries_of_get? (get?_rename grows mem))
  rw [values_of_grows grows, List.mem_map] at value
  obtain ⟨i, inRange, drawn⟩ := value
  exact ⟨i, List.mem_range.1 inRange, drawn.symm⟩

/-- Different labels get different draws, so what they become differs if the draws do. -/
theorem rename_injOn (grows : Grows draws labels .empty R)
    (different : ∀ i < labels.dedup.length, ∀ j < labels.dedup.length,
      generatedLabel (draws i) = generatedLabel (draws j) → i = j) :
    ∀ a ∈ labels, ∀ b ∈ labels, R.rename a = R.rename b → a = b := by
  intro a mem b mem' same
  have nodup : (R.table.entries.map Prod.snd).Nodup := by
    change R.table.values.Nodup
    rw [values_of_grows grows]
    refine List.Nodup.map_on ?_ List.nodup_range
    intro i inRange j inRange'
    exact different i (List.mem_range.1 inRange) j (List.mem_range.1 inRange')
  have here := OrderedMap.mem_entries_of_get? (get?_rename grows mem)
  have there := OrderedMap.mem_entries_of_get? (get?_rename grows mem')
  exact congrArg Prod.fst (List.inj_on_of_nodup_map nodup here there same)

end Relabelling

/-! ## What an addition stores -/

namespace Store

variable [GraphStore σ]

/-- The number of different labels in a list of statements, which is the number of draws that their
addition uses. -/
def labelCount (batch : List Statement) : Nat := (batch.flatMap Statement.labels).dedup.length

/-- The first labels that a generator makes are different, and the store holds none of them. -/
structure Fresh (s : σ) (draws : Draws) (count : Nat) : Prop where
  different : ∀ i < count, ∀ j < count,
    generatedLabel (draws i) = generatedLabel (draws j) → i = j
  unused : ∀ i < count, ∀ t ∈ triples s, generatedLabel (draws i) ∉ t.labels

/-- The triples that an addition hands to the store, in normal form. -/
def normals (s : σ) (draws : Draws) (batch : List Statement) (graph : Option String) :
    List Triple :=
  match batchesFrom (namespaces s) (defaultGraph s) graph draws .empty .empty batch with
  | .ok batches => batches.values.flatten.map Statement.triple
  | .error _ => []

/-- A later store holds every statement of a batch in full and with its labels renamed, by an
injective renaming to labels that were drawn for it and that the store did not hold before. -/
structure Renamed (s s' : σ) (draws : Draws) (batch : List Statement) (graph : Option String)
    (rename : String → String) : Prop where
  drawn : ∀ a ∈ batch.flatMap Statement.labels,
    ∃ i < labelCount batch, rename a = generatedLabel (draws i)
  unused : ∀ a ∈ batch.flatMap Statement.labels, ∀ t ∈ triples s, rename a ∉ t.labels
  injective : ∀ a ∈ batch.flatMap Statement.labels, ∀ b ∈ batch.flatMap Statement.labels,
    Node.blank (rename a) = Node.blank (rename b) ↔ a = b
  stored : ∀ t ∈ batch, (t.extend (namespaces s)).triple.relabel rename ∈
    triplesOf s' (t.target (namespaces s) graph (defaultGraph s))

section

variable {s s' : σ} {draws : Draws} {batch : List Statement} {graph : Option String} {n : Nat}
  {batches : Batches}

/-- The triples of the statements for one graph, in full. -/
def fullTriples (s : σ) (batch : List Statement) (graph : Option String) (g : String) :
    List Triple :=
  (batch.filter fun t => decide (t.target (namespaces s) graph (defaultGraph s) = g)).map
    fun t => (t.extend (namespaces s)).triple

/-- All batches together are the full triples under one renaming. -/
theorem triples_of_batches
    (made : batchesFrom (namespaces s) (defaultGraph s) graph draws .empty .empty batch =
      .ok batches) :
    ∃ R, Relabelling.Grows draws (batch.flatMap Statement.labels) .empty R ∧
      ∀ e ∈ batches.entries, e.2.map Statement.triple =
        (fullTriples s batch graph e.1).map (Triple.relabel R.rename) := by
  obtain ⟨R, grows, held⟩ := Batches.relabelled batch made
  refine ⟨R, grows, fun e mem => ?_⟩
  have found : batches.get? e.1 = some e.2 := OrderedMap.mem_entries_iff.1 mem
  have here := held e.1
  rw [found, Option.getD_some] at here
  rw [here, fullTriples, List.map_map, List.map_append, List.map_map]
  rfl

theorem mem_fullTriples {u : Triple} {g : String} (mem : u ∈ fullTriples s batch graph g) :
    ∃ t ∈ batch, (t.extend (namespaces s)).triple = u := by
  obtain ⟨t, given, same⟩ := List.mem_map.1 mem
  exact ⟨t, (List.mem_filter.1 given).1, same⟩

theorem labels_fullTriples {u : Triple} {g : String} (mem : u ∈ fullTriples s batch graph g) :
    u.labels ⊆ batch.flatMap Statement.labels := by
  obtain ⟨t, given, rfl⟩ := mem_fullTriples mem
  rw [Statement.labels_extend]
  intro a here
  exact List.mem_flatMap.2 ⟨t, given, here⟩

/-- If every statement has a blank node, the count is that of the different statements for each
graph: a statement with a fresh label is not there yet, and the renaming keeps different statements
different. -/
theorem count_of_labelled
    (made : batchesFrom (namespaces s) (defaultGraph s) graph draws .empty .empty batch =
      .ok batches)
    (appended : Appended s s' batches.entries n) (fresh : Fresh s draws (labelCount batch))
    (listed : ∀ {g t}, t ∈ triplesOf s g → t ∈ triples s)
    (labelled : ∀ t ∈ batch, t.labels ≠ []) :
    n = (batches.keys.map fun g => (fullTriples s batch graph g).toFinset.card).sum := by
  obtain ⟨R, grows, full⟩ := triples_of_batches made
  have apart := Relabelling.rename_injOn grows fresh.different
  rw [appended.count, OrderedMap.keys, List.map_map]
  refine congrArg List.sum (List.map_congr_left fun e mem => ?_)
  have new : ∀ u ∈ e.2.map Statement.triple, u ∉ triplesOf s e.1 := by
    intro u inBatch held
    rw [full e mem] at inBatch
    obtain ⟨v, inFull, rfl⟩ := List.mem_map.1 inBatch
    obtain ⟨t, given, rfl⟩ := mem_fullTriples inFull
    obtain ⟨a, here⟩ := List.exists_mem_of_ne_nil _ (labelled t given)
    have known : a ∈ batch.flatMap Statement.labels := List.mem_flatMap.2 ⟨t, given, here⟩
    obtain ⟨i, inRange, drawn⟩ := Relabelling.rename_drawn grows known
    rw [← Statement.labels_extend (namespaces s)] at here
    have renamed := @Triple.mem_labels_relabel R.rename _ _ here
    rw [drawn] at renamed
    exact fresh.unused i inRange _ (listed held) renamed
  have disjoint : Disjoint (e.2.map Statement.triple).toFinset (triplesOf s e.1).toFinset := by
    rw [Finset.disjoint_left]
    intro u inBatch held
    exact new u (List.mem_toFinset.1 inBatch) (List.mem_toFinset.1 held)
  have image : (e.2.map Statement.triple).toFinset =
      (fullTriples s batch graph e.1).toFinset.image (Triple.relabel R.rename) := by
    ext u
    rw [full e mem]
    simp only [List.mem_toFinset, List.mem_map, Finset.mem_image]
  have injective : Set.InjOn (Triple.relabel R.rename)
      (fullTriples s batch graph e.1).toFinset := by
    intro u left v right same
    exact Triple.relabel_injOn apart (labels_fullTriples (List.mem_toFinset.1 left))
      (labels_fullTriples (List.mem_toFinset.1 right)) same
  rw [Function.comp_apply, grown, Triple.length_foldl_appendNew, Nat.add_sub_cancel_left,
    Finset.sdiff_eq_self_of_disjoint disjoint, image, Finset.card_image_of_injOn injective]

/-- What was appended is the batch renamed. -/
theorem renamed_of_appended
    (made : batchesFrom (namespaces s) (defaultGraph s) graph draws .empty .empty batch =
      .ok batches)
    (appended : Appended s s' batches.entries n) (fresh : Fresh s draws (labelCount batch)) :
    ∃ rename, Renamed s s' draws batch graph rename := by
  obtain ⟨R, grows, full⟩ := triples_of_batches made
  have apart := Relabelling.rename_injOn grows fresh.different
  refine ⟨R.rename, fun a mem => Relabelling.rename_drawn grows mem, ?_, ?_, ?_⟩
  · intro a mem t held
    obtain ⟨i, inRange, drawn⟩ := Relabelling.rename_drawn grows mem
    rw [drawn]
    exact fresh.unused i inRange t held
  · intro a mem b mem'
    rw [Node.blank.injEq]
    exact ⟨apart a mem b mem', congrArg R.rename⟩
  · intro t given
    let g := t.target (namespaces s) graph (defaultGraph s)
    have used : g ∈ batches.keys :=
      (Batches.mem_keys_of_batchesFrom batch made).2 (Or.inr ⟨t, given, rfl⟩)
    obtain ⟨e, mem, same⟩ := List.mem_map.1 used
    have inFull : (t.extend (namespaces s)).triple ∈ fullTriples s batch graph g :=
      List.mem_map.2 ⟨t, List.mem_filter.2 ⟨given, decide_eq_true rfl⟩, rfl⟩
    change _ ∈ triplesOf s' g
    rw [← same] at inFull ⊢
    rw [appended.triples e mem, grown, Triple.mem_foldl_appendNew, full e mem]
    exact Or.inr (List.mem_map_of_mem inFull)

end

end Store

/-! ## Both kinds of storage -/

namespace Storage

open Store

/-- What a graph holds is listed among the triples of all graphs. -/
theorem mem_triples {s : Storage} {graph : String} {t : Triple} (mem : t ∈ triplesOf s graph) :
    t ∈ triples s := by
  have readable : ∀ e, GraphStore.statements s graph ≠ .error e := by
    intro e unread
    rw [triplesOf, unread] at mem
    cases mem
  have listed : graph ∈ graphs s := by
    by_contra absent
    cases s with
    | memory m =>
        have missing : m.graphs.get? graph = none := OrderedMap.get?_eq_none_iff.2 absent
        refine readable (.graphNotFound graph) ?_
        change m.statements graph = _
        rw [MemoryStore.statements, missing]
    | durable d =>
        have missing : d.graphIds.get? graph = none := OrderedMap.get?_eq_none_iff.2 absent
        exact readable (.graphNotFound graph) (DurableStore.statements_of_absent missing)
  exact List.mem_flatMap.2 ⟨graph, listed, mem⟩

/-- A storage appends the triples of a set with different digests that has all it holds. -/
theorem Attained.appending {s : Storage} (attained : s.Attained) {T : Set Triple}
    (apart : Set.InjOn Triple.digest T) (stored : ∀ t ∈ triples s, t ∈ T) :
    ∃ Good : Storage → Prop, Appending T Good ∧ Good s := by
  cases s with
  | memory m =>
      rcases attained with ⟨ns, default, events, rfl⟩
      refine ⟨_, simulation_memory.appending (MemoryStore.appending apart), _, rfl, ?_⟩
      refine ⟨MemoryStore.indexed_after ns default events, fun graph t mem => stored t ?_⟩
      exact mem_triples (s := memory _) mem
  | durable d =>
      rcases attained with ⟨ns, default, events, rfl⟩
      have shows := DurableStore.Shows.after events (DurableStore.shows_new ns default)
      exact ⟨_, simulation_durable.appending (DurableStore.simulation.appending (Ledger.appending T)),
        _, rfl, _, shows, trivial⟩

theorem Attained.steady {s : Storage} (attained : s.Attained) :
    ∃ Good : Storage → Prop, Steady Good ∧ Good s := by
  cases s with
  | memory m => exact ⟨_, simulation_memory.steady MemoryStore.steady, m, rfl, trivial⟩
  | durable d =>
      rcases attained with ⟨ns, default, events, rfl⟩
      have shows := DurableStore.Shows.after events (DurableStore.shows_new ns default)
      exact ⟨_, simulation_durable.steady (DurableStore.simulation.steady Ledger.steady), _, rfl, _,
        shows, trivial⟩

variable {s : Storage} {draws : Draws} {batch : List Statement} {graph : Option String} {n : Nat}

/-- An accepted addition appends the batches that its statements make. -/
theorem appended_of_accepted (attained : s.Attained)
    (accepted : (Store.add s draws batch graph).result = .ok n)
    (apart : Triple.Apart (triples s ++ normals s draws batch graph)) :
    ∃ batches,
      batchesFrom (namespaces s) (defaultGraph s) graph draws .empty .empty batch = .ok batches ∧
      Appended s (Store.add s draws batch graph).store batches.entries n := by
  let T : Set Triple := { t | t ∈ triples s ++ normals s draws batch graph }
  obtain ⟨Good, appending, good⟩ := attained.appending (T := T)
    (fun t left u right same => apart t left u right same) fun t mem => List.mem_append_left _ mem
  cases made : batchesFrom (namespaces s) (defaultGraph s) graph draws .empty .empty batch with
  | error e =>
      rw [Store.add, made] at accepted
      cases accepted
  | ok batches =>
      cases unknown : firstUnknown s batches.keys with
      | some g =>
          simp only [Store.add, made, unknown] at accepted
          cases accepted
      | none =>
          have written := add_of_batches made unknown
          rw [written] at accepted ⊢
          have known : ∀ e ∈ batches.entries, ∀ x ∈ e.2, x.triple ∈ T := by
            intro e mem x inBatch
            refine List.mem_append_right _ ?_
            rw [normals, made]
            exact List.mem_map_of_mem (List.mem_flatten.2 ⟨e.2, List.mem_map_of_mem mem, inBatch⟩)
          rcases reply : writeBatches s batches.entries with ⟨result, s'⟩
          rw [reply] at accepted
          cases accepted
          exact ⟨batches, rfl,
            (appending.writeBatches batches.entries good batches.keys_nodup known reply).2⟩

/-- What was accepted once is accepted again: its statements are fit, and its graphs are registered
by now. -/
theorem accepted_again {batches : Batches}
    (made : batchesFrom (namespaces s) (defaultGraph s) graph draws .empty .empty batch =
      .ok batches) {s' : Storage} (attained' : s'.Attained)
    (appended : Appended s s' batches.entries n) (draws' : Draws) :
    ∃ batches' m,
      batchesFrom (namespaces s') (defaultGraph s') graph draws' .empty .empty batch =
        .ok batches' ∧ batches'.keys = batches.keys ∧
      (Store.add s' draws' batch graph).result = .ok m := by
  rw [appended.kept.namespaces, appended.kept.defaultGraph]
  have fit : batch.findSome? Statement.fault? = none := by
    cases faults : batch.findSome? Statement.fault? with
    | none => rfl
    | some fault =>
        rw [batchesFrom_of_fault batch faults] at made
        cases made
  obtain ⟨batches', made', -⟩ := @batchesFrom_of_valid (namespaces s) (defaultGraph s) graph draws'
    batch .empty .empty fit
  have keys : batches'.keys = batches.keys := by
    rw [Batches.keys_of_batchesFrom batch made', Batches.keys_of_batchesFrom batch made]
  have registered : ∀ e ∈ batches'.entries, contains s' e.1 = true := by
    intro e mem
    have used : e.1 ∈ batches'.keys := List.mem_map_of_mem mem
    rw [keys] at used
    obtain ⟨e', mem', same⟩ := List.mem_map.1 used
    exact same ▸ appended.registered e' mem'
  have concrete : batches'.Forall fun _ x => x.placeholder? = none :=
    Batches.forall_of_batchesFrom (fun graph r t valid => r.placeholder?_normalize graph valid)
      batch Batches.forall_empty made'
  obtain ⟨Good, steady, good⟩ := attained'.steady
  obtain ⟨m, written⟩ := steady.writeBatches batches'.entries good
    (fun e mem => Or.inl (registered e mem)) concrete
  have allowed : firstUnknown s' batches'.keys = none := by
    rw [firstUnknown, List.find?_eq_none]
    intro g mem
    obtain ⟨e, mem, same⟩ := List.mem_map.1 mem
    rw [← same, registered e mem]
    simp
  refine ⟨batches', m, made', keys, ?_⟩
  rw [add_of_batches ?_ allowed, written]
  rw [appended.kept.namespaces, appended.kept.defaultGraph]
  exact made'

/-- An accepted addition whose labels are drawn fresh stores its statements under one injective
renaming of their blank nodes, none of which becomes a blank node of the storage. If every statement
has a blank node, the same addition with fresh labels stores as many statements again. -/
theorem renamed_of_accepted (attained : s.Attained)
    (accepted : (Store.add s draws batch graph).result = .ok n)
    (fresh : Fresh s draws (labelCount batch))
    (apart : Triple.Apart (triples s ++ normals s draws batch graph)) :
    let s' := (Store.add s draws batch graph).store
    (∃ rename, Renamed s s' draws batch graph rename) ∧
      ((∀ t ∈ batch, t.labels ≠ []) → ∀ draws', Fresh s' draws' (labelCount batch) →
        Triple.Apart (triples s' ++ normals s' draws' batch graph) →
        (Store.add s' draws' batch graph).result = .ok n) := by
  intro s'
  obtain ⟨batches, made, appended⟩ := appended_of_accepted attained accepted apart
  refine ⟨renamed_of_appended made appended fresh, fun labelled draws' fresh' apart' => ?_⟩
  have attained' : s'.Attained := attained.apply (.change (.add draws batch graph))
  obtain ⟨batches', m, made', keys, again⟩ := accepted_again made attained' appended draws'
  obtain ⟨batches'', made'', appended'⟩ := appended_of_accepted attained' again apart'
  obtain rfl : batches' = batches'' := Except.ok.inj (made'.symm.trans made'')
  have first := count_of_labelled made appended fresh mem_triples labelled
  have second := count_of_labelled made' appended' fresh' mem_triples labelled
  have full : fullTriples s' batch graph = fullTriples s batch graph := by
    funext g
    rw [fullTriples, fullTriples, appended.kept.namespaces, appended.kept.defaultGraph]
  rw [again, second, full, keys, first]

/-- Two statements that differ in their blank nodes only, added twice to a storage that has such a
statement already. -/
theorem renamed_of_accepted_sample :
    let first : Draws := fun i => BitVec.ofNat 128 i
    let second : Draws := fun i => BitVec.ofNat 128 (i + 1)
    let third : Draws := fun i => BitVec.ofNat 128 (i + 3)
    let t : Statement := ⟨.blank "a", .named "urn:p", .literal ⟨"x", none, none⟩, none⟩
    let u : Statement := ⟨.blank "b", .named "urn:p", .literal ⟨"x", none, none⟩, none⟩
    let s := durable (Event.after DurableStore.reopenWith (DurableStore.new .standard "urn:d")
      [.change (.add first [u] none)])
    let s' := (Store.add s second [t, u] none).store
    s.Attained ∧ Fresh s second (labelCount [t, u]) ∧
      (∃ rename, Renamed s s' second [t, u] none rename) ∧
      (Store.add s' third [t, u] none).result = .ok 2 := by
  intro first second third t u s s'
  have attained : s.Attained := ⟨_, _, _, rfl⟩
  have accepted : (Store.add s second [t, u] none).result = .ok 2 := by decide +kernel
  have fresh : Fresh s second (labelCount [t, u]) := ⟨by decide +kernel, by decide +kernel⟩
  have apart : Triple.Apart (triples s ++ normals s second [t, u] none) := by decide +kernel
  have fresh' : Fresh s' third (labelCount [t, u]) := ⟨by decide +kernel, by decide +kernel⟩
  have apart' : Triple.Apart (triples s' ++ normals s' third [t, u] none) := by decide +kernel
  obtain ⟨renamed, again⟩ := renamed_of_accepted attained accepted fresh apart
  exact ⟨attained, fresh, renamed, again (by decide +kernel) third fresh' apart'⟩

end Storage

end RdfStore
