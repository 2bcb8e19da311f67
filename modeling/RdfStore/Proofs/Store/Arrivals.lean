import Mathlib.Algebra.BigOperators.Group.Finset.Basic
import RdfStore.Proofs.Store.Union

/-!
# What a successful addition does in memory

An addition brings its statements into normal form one after the other (`Store.normalForms`), and
what arrives at a graph are the normal forms of those that are written to it. When the addition has
succeeded, each of these graphs has what it had and after it what has arrived and is new to it, that
is whose digest the graph did not hold and no earlier arrival has; nothing else has changed but that
the default graph may have been created (`MemoryStore.received_of_added`).

* `MemoryStore.extended_of_writeBatch`: one batch appends what is new and registers at most its graph.
* `MemoryStore.extended_of_writeBatches`: a run of batches for different graphs.
* `MemoryStore.Extended.created`: the default graph is the only one that a run can add.
-/

namespace RdfStore

open Store

/-! ## Writing batches -/

namespace MemoryStore

variable {m m₁ m' : MemoryStore} {graph : String} {batch : List Statement}
  {batches rest : List (String × List Statement)} {e : String × List Statement} {n k : Nat}

/-- What a graph holds, under the digests; a graph that is not registered holds nothing. -/
def held (m : MemoryStore) (graph : String) : OrderedMap Digest Statement :=
  (m.graphs.get? graph).getD .empty

/-- The digests that a graph holds. -/
def digests (m : MemoryStore) (graph : String) : List Digest := (m.held graph).keys

theorem listed_eq (m : MemoryStore) (graph : String) : listed m graph = (m.held graph).values := by
  have read : GraphStore.statements m graph = m.statements graph := rfl
  rw [listed, read, MemoryStore.statements, held]
  cases m.graphs.get? graph <;> rfl

/-- What a later store has of an earlier one and of batches for its graphs. -/
structure Extended (m m' : MemoryStore) (batches : List (String × List Statement)) (n : Nat) :
    Prop where
  namespaces : m'.namespaces = m.namespaces
  defaultGraph : m'.defaultGraph = m.defaultGraph
  united : ∀ e ∈ batches, m'.graphs.get? e.1 = some (unite (m.held e.1) e.2)
  others : ∀ graph ∉ batches.map Prod.fst, m'.graphs.get? graph = m.graphs.get? graph
  graphs : m'.graphs.keys = m.graphs.keys ++
    (batches.map Prod.fst).filter fun graph => decide (graph ∉ m.graphs.keys)
  count : n =
    (batches.map fun e => (newBy Statement.tripleDigest (m.digests e.1) e.2).length).sum

namespace Extended

theorem nil (m : MemoryStore) : Extended m m [] 0 where
  namespaces := rfl
  defaultGraph := rfl
  united _ mem := by cases mem
  others _ _ := rfl
  graphs := (List.append_nil _).symm
  count := rfl

/-- Batches for different graphs one after the other. -/
theorem cons (h : Extended m m₁ [e] n) (h' : Extended m₁ m' rest k)
    (fresh : e.1 ∉ rest.map Prod.fst) : Extended m m' (e :: rest) (n + k) := by
  have unread : ∀ e' ∈ rest, e'.1 ∉ [e].map Prod.fst := by
    intro e' mem same
    rw [List.map_singleton, List.mem_singleton] at same
    exact fresh (same ▸ List.mem_map_of_mem mem)
  have held : ∀ e' ∈ rest, m₁.held e'.1 = m.held e'.1 := by
    intro e' mem
    rw [MemoryStore.held, h.others _ (unread e' mem), MemoryStore.held]
  refine ⟨h'.namespaces.trans h.namespaces, h'.defaultGraph.trans h.defaultGraph, ?_, ?_, ?_, ?_⟩
  · intro e' mem
    rcases List.mem_cons.1 mem with rfl | later
    · rw [h'.others _ fresh]
      exact h.united e' (List.mem_singleton_self e')
    · rw [h'.united e' later, held e' later]
  · intro graph absent
    rw [List.map_cons, List.mem_cons, not_or] at absent
    rw [h'.others graph absent.2]
    exact h.others graph fun same => absent.1 (List.mem_singleton.1 same)
  · have known : ∀ graph ∈ rest.map Prod.fst, graph ∉ m₁.graphs.keys ↔ graph ∉ m.graphs.keys := by
      intro graph mem
      obtain ⟨e', there, rfl⟩ := List.mem_map.1 mem
      rw [← OrderedMap.get?_eq_none_iff, ← OrderedMap.get?_eq_none_iff, h.others _ (unread e' there)]
    rw [h'.graphs, List.filter_congr fun graph mem => decide_eq_decide.2 (known graph mem), h.graphs,
      List.append_assoc, ← List.filter_append]
    rfl
  · rw [h.count, h'.count, List.map_cons, List.map_nil, List.sum_singleton, List.map_cons,
      List.sum_cons]
    refine congrArg (_ + List.sum ·) (List.map_congr_left fun e' mem => ?_)
    rw [digests, digests, held e' mem]

end Extended

/-- One batch that is written is inserted into its graph, registered under its own name. -/
theorem insert_of_writeBatch (written : writeBatch m graph batch = ⟨.ok n, m'⟩) :
    MemoryStore.insert { m with graphs := m.graphs.insertNew graph .empty } graph batch =
      ⟨.ok n, m'⟩ := by
  unfold writeBatch at written
  by_cases registered : m.graphs.contains graph = true
  · have there : GraphStore.contains m graph = true := registered
    rw [if_pos there] at written
    rw [OrderedMap.insertNew, if_pos registered]
    exact written
  · have missing : ¬GraphStore.contains m graph = true := registered
    have unread : m.graphs.get? graph = none :=
      OrderedMap.get?_eq_none_of_contains (Bool.eq_false_of_not_eq_true registered)
    rw [if_neg missing] at written
    have inserted : MemoryStore.insert (m.create graph) graph batch = ⟨.ok n, m'⟩ := written
    -- a graph that was created under another name is still missing
    have named : m.namespaces.extend graph = graph := by
      by_contra other
      have still : (m.create graph).graphs.get? graph = none := by
        rw [MemoryStore.create, OrderedMap.get?_insertNew, if_neg other, unread]
      rw [MemoryStore.insert, still] at inserted
      cases inserted
    rwa [MemoryStore.create, named] at inserted

theorem extended_of_writeBatch (written : writeBatch m graph batch = ⟨.ok n, m'⟩) :
    Extended m m' [(graph, batch)] n := by
  have inserted := insert_of_writeBatch written
  have found : (m.graphs.insertNew graph .empty).get? graph = some (m.held graph) := by
    rw [OrderedMap.get?_insertNew, if_pos rfl, held]
  rw [MemoryStore.insert, found] at inserted
  cases inserted
  have keys : graph ∈ (m.graphs.insertNew graph .empty).keys := OrderedMap.mem_keys_iff.2 ⟨_, found⟩
  refine ⟨rfl, rfl, fun e mem => ?_, fun g absent => ?_, ?_, ?_⟩
  · rw [List.mem_singleton.1 mem, OrderedMap.get?_insert, if_pos rfl]
  · have ne : graph ≠ g := fun same => absent (List.mem_singleton.2 same.symm)
    rw [OrderedMap.get?_insert, if_neg ne, OrderedMap.get?_insertNew, if_neg ne]
  · rw [OrderedMap.keys_insert, if_pos keys, OrderedMap.keys_insertNew, List.map_singleton,
      List.filter_singleton]
    by_cases old : graph ∈ m.graphs.keys <;> simp [old]
  · rw [size_unite, Nat.add_sub_cancel_left]
    rfl

/-- A run of batches for different graphs: by induction, because a batch leaves the graphs of the
later ones as they were. -/
theorem extended_of_writeBatches (batches : List (String × List Statement)) :
    ∀ {m : MemoryStore} {n : Nat}, (batches.map Prod.fst).Nodup →
      writeBatches m batches = ⟨.ok n, m'⟩ → Extended m m' batches n := by
  induction batches with
  | nil =>
      intro m n _ written
      cases written
      exact .nil _
  | cons e rest ih =>
      intro m n nodup written
      obtain ⟨fresh, nodup⟩ := List.nodup_cons.1 nodup
      rcases first : writeBatch m e.1 e.2 with ⟨result, m₁⟩
      cases result with
      | error fault =>
          simp only [writeBatches, first] at written
          cases written
      | ok one =>
          rcases later : writeBatches m₁ rest with ⟨result, m₂⟩
          simp only [writeBatches, first, later, Reply.mk.injEq] at written
          obtain ⟨counted, rfl⟩ := written
          cases result with
          | error fault => cases counted
          | ok others =>
              cases counted
              exact (extended_of_writeBatch first).cons (ih nodup later) fresh

/-! ## Additions -/

/-- What an addition appends to a graph: of what arrives there, the first statement with each digest
that the graph does not hold. -/
def appended (m : MemoryStore) (forms : List (String × Statement)) (graph : String) :
    List Statement :=
  newBy Statement.tripleDigest (m.digests graph) (arriving forms graph)

/-- What a store has become by receiving normal forms. -/
structure Received (m m' : MemoryStore) (forms : List (String × Statement)) (n : Nat) : Prop where
  namespaces : m'.namespaces = m.namespaces
  defaultGraph : m'.defaultGraph = m.defaultGraph
  statements : ∀ graph ∈ forms.map Prod.fst, GraphStore.statements m' graph =
    .ok (listed m graph ++ m.appended forms graph)
  others : ∀ graph ∉ forms.map Prod.fst,
    GraphStore.statements m' graph = GraphStore.statements m graph
  graphs : GraphStore.graphs m' = GraphStore.graphs m ++
    if m.defaultGraph ∈ forms.map Prod.fst ∧ m.defaultGraph ∉ GraphStore.graphs m then
      [m.defaultGraph]
    else []
  count : n = ∑ graph ∈ (forms.map Prod.fst).toFinset, (m.appended forms graph).length

theorem statements_eq_of_get? (same : m'.graphs.get? graph = m.graphs.get? graph) :
    GraphStore.statements m' graph = GraphStore.statements m graph := by
  have read (m : MemoryStore) : GraphStore.statements m graph = m.statements graph := rfl
  rw [read, read, MemoryStore.statements, MemoryStore.statements, same]

/-- The only graph that batches add is the default graph. -/
theorem Extended.created (h : Extended m m' batches n) (nodup : (batches.map Prod.fst).Nodup)
    (allowed : ∀ graph ∈ batches.map Prod.fst, graph ∈ m.graphs.keys ∨ graph = m.defaultGraph) :
    m'.graphs.keys = m.graphs.keys ++
      if m.defaultGraph ∈ batches.map Prod.fst ∧ m.defaultGraph ∉ m.graphs.keys then
        [m.defaultGraph]
      else [] := by
  rw [h.graphs]
  refine congrArg (m.graphs.keys ++ ·) ?_
  have only : ∀ graph ∈ (batches.map Prod.fst).filter fun graph => decide (graph ∉ m.graphs.keys),
      graph = m.defaultGraph := by
    intro graph mem
    obtain ⟨target, new⟩ := List.mem_filter.1 mem
    exact (allowed graph target).resolve_left (of_decide_eq_true new)
  split
  · rename_i new
    have there : m.defaultGraph ∈ (batches.map Prod.fst).filter fun graph =>
        decide (graph ∉ m.graphs.keys) := List.mem_filter.2 ⟨new.1, decide_eq_true new.2⟩
    exact List.perm_singleton.1 ((List.perm_ext_iff_of_nodup (nodup.filter _)
      (List.nodup_singleton _)).2 fun graph =>
        ⟨fun mem => List.mem_singleton.2 (only graph mem), fun mem => List.mem_singleton.1 mem ▸ there⟩)
  · rename_i old
    refine List.eq_nil_iff_forall_not_mem.2 fun graph mem => old ?_
    obtain ⟨target, new⟩ := List.mem_filter.1 mem
    rw [← only graph mem]
    exact ⟨target, of_decide_eq_true new⟩

/-- Batches that hold what arrives at each graph make a store receive it. -/
theorem Extended.received {batches : Batches} {forms : List (String × Statement)}
    (h : Extended m m' batches.entries n)
    (targets : ∀ graph, graph ∈ batches.keys ↔ graph ∈ forms.map Prod.fst)
    (contents : ∀ graph, (batches.get? graph).getD [] = arriving forms graph)
    (allowed : firstUnknown m batches.keys = none) : Received m m' forms n := by
  have batch_eq : ∀ e ∈ batches.entries, e.2 = arriving forms e.1 := by
    intro e mem
    rw [← contents, OrderedMap.mem_entries_iff.1 mem, Option.getD_some]
  refine ⟨h.namespaces, h.defaultGraph, fun graph target => ?_, fun graph other => ?_, ?_, ?_⟩
  · obtain ⟨batch, found⟩ := OrderedMap.mem_keys_iff.1 ((targets graph).2 target)
    have entry := OrderedMap.mem_entries_iff.2 found
    have stored := statements_eq_ok_iff.2 ⟨_, h.united _ entry, values_unite batch _⟩
    have arrived : batch = arriving forms graph := batch_eq _ entry
    rw [listed_eq, appended, digests, ← arrived]
    exact stored
  · exact statements_eq_of_get? (h.others graph fun mem => other ((targets graph).1 mem))
  · have known : ∀ graph ∈ batches.keys, graph ∈ m.graphs.keys ∨ graph = m.defaultGraph :=
      fun graph mem => (firstUnknown_eq_none_iff.1 allowed graph mem).imp_left
        OrderedMap.contains_iff_mem.1
    have created := h.created batches.keys_nodup known
    have target : m.defaultGraph ∈ batches.entries.map Prod.fst ↔
        m.defaultGraph ∈ forms.map Prod.fst := targets _
    simp only [target] at created
    exact created
  · have sums : ∑ graph ∈ (forms.map Prod.fst).toFinset, (m.appended forms graph).length =
        (batches.keys.map fun graph => (m.appended forms graph).length).sum := by
      have nodup : batches.keys.Nodup := batches.keys_nodup
      rw [← List.sum_toFinset _ nodup]
      refine Finset.sum_congr (Finset.ext fun graph => ?_) fun _ _ => rfl
      rw [List.mem_toFinset, List.mem_toFinset, targets]
    rw [sums, h.count, OrderedMap.keys, List.map_map]
    refine congrArg List.sum (List.map_congr_left fun e mem => ?_)
    rw [batch_eq e mem]
    rfl

theorem Indexed.digests_eq (h : m.Indexed) (graph : String) :
    m.digests graph = (listed m graph).map Statement.tripleDigest := by
  have keyed : Keyed (m.held graph) := by
    rw [held]
    cases found : m.graphs.get? graph with
    | none => exact keyed_empty
    | some stored => exact h graph stored found
  rw [digests, keyed.keys_eq, listed_eq]

/-- A successful addition does exactly one thing. To every graph that statements are written to it
appends, in their order, the normal forms that are new to it, the first with each digest. The default
graph is created if it is missing and needed. Nothing else changes, and the number that is answered is
how many statements were appended. Where statements stand under their digests, new are those whose
digest no statement of the graph has. -/
theorem received_of_added {draws : Draws} {statements : List Statement} {explicit : Option String}
    (added : Store.add m draws statements explicit = ⟨.ok n, m'⟩) :
    Received m m' (normalForms m.namespaces m.defaultGraph explicit draws .empty statements) n ∧
      (m.Indexed → ∀ graph, m.digests graph = (listed m graph).map Statement.tripleDigest) := by
  refine ⟨?_, fun indexed => indexed.digests_eq⟩
  unfold Store.add at added
  split at added
  · cases added
  · rename_i batches made
    split at added
    · cases added
    · rename_i allowed
      refine (extended_of_writeBatches batches.entries batches.keys_nodup added).received
        (fun graph => ?_) (fun graph => ?_) allowed
      · rw [Batches.mem_keys_of_batchesFrom statements made, map_fst_normalForms, List.mem_map]
        exact or_iff_right List.not_mem_nil
      · rw [Batches.batch_eq_arriving statements made graph]
        rfl

/-- The first statement is written to the default graph, which is created for it. Of the three for
the other graph one is there already and one comes twice, with the label that the first one has. -/
theorem received_of_added_sample :
    let t : Statement := ⟨.named "s", .named "p", .named "o", some (.named "g")⟩
    let m := (MemoryStore.insert ((MemoryStore.empty .empty "d").create "g") "g" [t]).store
    let statements : List Statement := [⟨.blank "b", .named "p", .named "o", none⟩,
      { t with object := .blank "b" }, t, { t with object := .blank "b" }]
    let draws : Draws := fun _ => 7#128
    let forms := normalForms m.namespaces m.defaultGraph none draws .empty statements
    let fresh : Node := .blank "genid00000000000000000000000000000007"
    ∃ m', Store.add m draws statements none = ⟨.ok 2, m'⟩ ∧ Received m m' forms 2 ∧
      listed m "g" = [t] ∧ (m.appended forms "g").length = 1 ∧
      GraphStore.graphs m' = ["g", "d"] ∧
      GraphStore.statements m' "g" = .ok [t, { t with object := fresh }] ∧
      GraphStore.statements m' "d" = .ok [⟨fresh, .named "p", .named "o", some (.named "d")⟩] := by
  intro t m statements draws forms fresh
  rcases reply : Store.add m draws statements none with ⟨result, m'⟩
  have result_eq : (Store.add m draws statements none).result = .ok 2 := by decide +kernel
  rw [reply] at result_eq
  cases result_eq
  obtain ⟨received, -⟩ := received_of_added reply
  have graphs : GraphStore.graphs (Store.add m draws statements none).store = ["g", "d"] := by
    decide +kernel
  rw [reply] at graphs
  have inG : listed m "g" ++ m.appended forms "g" = [t, { t with object := fresh }] := by
    decide +kernel
  have inD : listed m "d" ++ m.appended forms "d" =
      [⟨fresh, .named "p", .named "o", some (.named "d")⟩] := by decide +kernel
  have stored := received.statements "g" (by decide +kernel)
  have stored' := received.statements "d" (by decide +kernel)
  rw [inG] at stored
  rw [inD] at stored'
  exact ⟨m', rfl, received, by decide +kernel, by decide +kernel, graphs, stored, stored'⟩

end MemoryStore

end RdfStore
