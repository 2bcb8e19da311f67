import RdfStore.Proofs.Store.Appending
import RdfStore.Proofs.Store.Union

/-!
# Stores that grow statement by statement

An addition sorts its statements by graph and writes graph by graph. Without blank nodes every
statement has one normal form (`Store.fullForms`), and writing the batches comes to the same as
writing the normal forms one by one (`Store.putBatch_foldl_push`): the graphs are created in the order
in which they are first used, and each takes its statements in their order.

* `Store.batchesFrom_of_unlabelled`: the batches of statements without blank nodes.
* `Stepwise`: a store that keeps its graphs in a map and adds to them statement by statement, such as
  the store in memory (`MemoryStore.stepwise`) and the ledger (`Ledger.stepwise`).
* `Stepwise.accepted_of_add`: what a successful addition has done to the map, and how its answer counts
  it.
-/

namespace RdfStore

open GraphStore

variable {σ β : Type}

/-! ## Normal forms without blank nodes -/

section Forms

variable {ns : Namespaces} {draws : Draws}

theorem Relabelling.normalizeNode_of_unlabelled {n : Node} (unlabelled : n.label? = none)
    (r : Relabelling) : r.normalizeNode ns draws n = (n.extend ns, r) := by
  cases n with
  | blank label => cases unlabelled
  | named | literal | pattern => rfl

/-- A statement without blank nodes needs no relabelling, and leaves none. -/
theorem Relabelling.normalize_of_unlabelled {t : Statement} (unlabelled : t.labels = [])
    (graph : String) (r : Relabelling) :
    r.normalize ns draws graph t = ((t.extend ns).triple.inGraph graph, r) := by
  have nodes : ∀ n ∈ t.nodes, n.label? = none := fun n mem =>
    Option.toList_eq_nil_iff.1 (List.flatMap_eq_nil_iff.1 unlabelled n mem)
  simp only [Statement.nodes, Triple.nodes, Statement.triple, List.forall_mem_cons] at nodes
  simp only [normalize, normalizeNode_of_unlabelled nodes.1, normalizeNode_of_unlabelled nodes.2.1,
    normalizeNode_of_unlabelled nodes.2.2.1]
  rfl

namespace Store

variable {default : String} {explicit : Option String}

/-- Statements in full, each with the graph that it is written to. -/
def fullForms (ns : Namespaces) (default : String) (explicit : Option String)
    (statements : List Statement) : List (String × Statement) :=
  statements.map fun t =>
    let graph := t.target ns explicit default
    (graph, (t.extend ns).triple.inGraph graph)

theorem map_fst_fullForms (statements : List Statement) :
    (fullForms ns default explicit statements).map Prod.fst =
      statements.map (Statement.target ns explicit default) := by
  rw [fullForms, List.map_map]
  rfl

/-- The statements in full, sorted into batches. -/
def fullBatches [GraphStore σ] (s : σ) (explicit : Option String) (statements : List Statement) :
    Batches :=
  (fullForms (namespaces s) (defaultGraph s) explicit statements).foldl (fun b e => b.push e.1 e.2)
    .empty

theorem faultless_of_add [GraphStore σ] {s : σ} {statements : List Statement} {n : Nat}
    (added : (add s draws statements explicit).result = .ok n) :
    statements.findSome? Statement.fault? = none := by
  cases faults : statements.findSome? Statement.fault? with
  | none => rfl
  | some fault =>
      simp only [add, batchesFrom_of_fault statements faults, reduceCtorEq] at added

/-- The batches of valid statements without blank nodes do not depend on the draws. -/
theorem batchesFrom_of_unlabelled (statements : List Statement) :
    ∀ {batches : Batches} {r : Relabelling}, statements.findSome? Statement.fault? = none →
      (∀ t ∈ statements, t.labels = []) →
      batchesFrom ns default explicit draws batches r statements =
        .ok ((fullForms ns default explicit statements).foldl (fun b e => b.push e.1 e.2)
          batches) := by
  induction statements with
  | nil => intro _ _ _ _; rfl
  | cons t rest ih =>
      intro batches r valid unlabelled
      rw [List.findSome?_eq_none_iff, List.forall_mem_cons] at valid
      obtain ⟨plain, unlabelled⟩ := List.forall_mem_cons.1 unlabelled
      have checked := Statement.check_eq_ok_iff.2 (Statement.fault?_eq_none_iff.1 valid.1)
      rw [Batches.batchesFrom_cons checked]
      dsimp only
      rw [Relabelling.normalize_of_unlabelled plain]
      exact ih (List.findSome?_eq_none_iff.2 valid.2) unlabelled

end Store

end Forms

/-! ## Writing into a map -/

namespace Store

variable (step : β → Statement → β) (void : β)

/-- What stands under a name; nothing is an empty graph. -/
def under (m : OrderedMap String β) (graph : String) : β := (m.get? graph).getD void

/-- One statement written into a graph. -/
def put (m : OrderedMap String β) (e : String × Statement) : OrderedMap String β :=
  m.insert e.1 (step (under void m e.1) e.2)

/-- A batch written into a graph. -/
def putBatch (m : OrderedMap String β) (e : String × List Statement) : OrderedMap String β :=
  m.insert e.1 (e.2.foldl step (under void m e.1))

variable {step void} {m : OrderedMap String β}

theorem under_insert (graph g : String) (b : β) :
    under void (m.insert graph b) g = if graph = g then b else under void m g := by
  rw [under, OrderedMap.get?_insert]
  split <;> rfl

theorem mem_keys_foldl_put {g : String} (forms : List (String × Statement)) :
    ∀ m : OrderedMap String β,
      g ∈ (forms.foldl (put step void) m).keys ↔ g ∈ m.keys ∨ g ∈ forms.map Prod.fst := by
  induction forms with
  | nil => intro m; simp
  | cons e rest ih =>
      intro m
      have one : g ∈ (put step void m e).keys ↔ g ∈ m.keys ∨ g = e.1 := by
        rw [put, OrderedMap.keys_insert]
        split
        · rename_i known
          exact ⟨Or.inl, fun given => given.elim id fun same => same ▸ known⟩
        · rw [List.mem_append, List.mem_singleton]
      rw [List.foldl_cons, ih, one, List.map_cons, List.mem_cons, or_assoc]

/-- After batches for different graphs each graph has what it had and then its batch. -/
theorem get?_foldl_putBatch (g : String) (entries : List (String × List Statement)) :
    ∀ m : OrderedMap String β, (entries.map Prod.fst).Nodup →
      (entries.foldl (putBatch step void) m).get? g =
        match OrderedMap.lookup g entries with
        | some batch => some (batch.foldl step (under void m g))
        | none => m.get? g := by
  induction entries with
  | nil => intro m _; rfl
  | cons e rest ih =>
      intro m nodup
      obtain ⟨fresh, nodup⟩ := List.nodup_cons.1 nodup
      rw [List.foldl_cons, ih _ nodup, OrderedMap.lookup]
      by_cases here : e.1 = g
      · have absent : OrderedMap.lookup g rest = none :=
          OrderedMap.lookup_eq_none_iff.2 (here ▸ fresh)
        rw [absent, if_pos here, putBatch, OrderedMap.get?_insert, if_pos here, here]
      · rw [if_neg here, putBatch, under_insert, if_neg here, OrderedMap.get?_insert, if_neg here]

theorem under_foldl_putBatch (g : String) (batches : Batches) (m : OrderedMap String β) :
    under void (batches.entries.foldl (putBatch step void) m) g =
      ((batches.get? g).getD []).foldl step (under void m g) := by
  have read : OrderedMap.lookup g batches.entries = batches.get? g := rfl
  rw [under, get?_foldl_putBatch g _ m batches.keys_nodup, read]
  cases batches.get? g <;> rfl

/-- The graphs come in the order in which they are first used. -/
theorem keys_foldl_putBatch (entries : List (String × List Statement)) :
    ∀ m : OrderedMap String β, (entries.foldl (putBatch step void) m).keys =
      (entries.map Prod.fst).foldl (fun known g => if g ∈ known then known else known ++ [g])
        m.keys := by
  induction entries with
  | nil => intro m; rfl
  | cons e rest ih =>
      intro m
      rw [List.foldl_cons, ih, putBatch, OrderedMap.keys_insert, List.map_cons, List.foldl_cons]

/-- One statement more in its batch is one statement more in its graph, whatever batches come after:
both maps have the same graphs in the same order, and hold the same in each. -/
theorem putBatch_push (batches : Batches) (e : String × Statement) :
    (batches.push e.1 e.2).entries.foldl (putBatch step void) m =
      put step void (batches.entries.foldl (putBatch step void) m) e := by
  have read (batches : Batches) (g : String) :
      (batches.entries.foldl (putBatch step void) m).get? g =
        match OrderedMap.lookup g batches.entries with
        | some batch => some (batch.foldl step (under void m g))
        | none => m.get? g := get?_foldl_putBatch g batches.entries m batches.keys_nodup
  apply OrderedMap.ext_get?
  · have pushed : (batches.push e.1 e.2).entries.map Prod.fst =
        if e.1 ∈ batches.keys then batches.keys else batches.keys ++ [e.1] :=
      OrderedMap.keys_insert _ _ _
    rw [put, OrderedMap.keys_insert, keys_foldl_putBatch, pushed]
    by_cases known : e.1 ∈ batches.keys
    · obtain ⟨batch, found⟩ := OrderedMap.mem_keys_iff.1 known
      have there := read batches e.1
      rw [show OrderedMap.lookup e.1 batches.entries = some batch from found] at there
      rw [if_pos known, if_pos (OrderedMap.mem_keys_iff.2 ⟨_, there⟩), keys_foldl_putBatch]
      rfl
    · rw [if_neg known, List.foldl_append, keys_foldl_putBatch]
      rfl
  · intro g
    have pushed : OrderedMap.lookup g (batches.push e.1 e.2).entries =
        if e.1 = g then some ((batches.get? e.1).getD [] ++ [e.2]) else batches.get? g :=
      OrderedMap.get?_insert _ _ _ _
    rw [read, pushed, put, OrderedMap.get?_insert]
    by_cases here : e.1 = g
    · rw [if_pos here, if_pos here, under_foldl_putBatch, here]
      exact congrArg some (List.foldl_concat ..)
    · rw [if_neg here, if_neg here, read]
      rfl

/-- Writing batches is writing their statements one by one. -/
theorem putBatch_foldl_push (forms : List (String × Statement)) : ∀ batches : Batches,
    (forms.foldl (fun b e => b.push e.1 e.2) batches).entries.foldl (putBatch step void) m =
      forms.foldl (put step void) (batches.entries.foldl (putBatch step void) m) := by
  induction forms with
  | nil => intro batches; rfl
  | cons e rest ih =>
      intro batches
      rw [List.foldl_cons, ih, putBatch_push, List.foldl_cons]

/-! ### Counting -/

/-- The sizes of all graphs together. -/
def total (size : β → Nat) (m : OrderedMap String β) : Nat := (m.values.map size).sum

theorem sum_replaceIn (size : β → Nat) {graph : String} {held : β} (b : β)
    (entries : List (String × β)) : (entries.map Prod.fst).Nodup →
      OrderedMap.lookup graph entries = some held →
      ((OrderedMap.replaceIn graph b entries).map fun e => size e.2).sum + size held =
        (entries.map fun e => size e.2).sum + size b := by
  induction entries with
  | nil => intro _ found; cases found
  | cons e rest ih =>
      intro nodup found
      obtain ⟨fresh, nodup⟩ := List.nodup_cons.1 nodup
      have step : OrderedMap.replaceIn graph b (e :: rest) =
          (if e.1 = graph then (graph, b) else e) :: OrderedMap.replaceIn graph b rest := rfl
      rw [OrderedMap.lookup] at found
      rw [step, List.map_cons, List.map_cons, List.sum_cons, List.sum_cons]
      by_cases here : e.1 = graph
      · rw [if_pos here] at found
        have others : OrderedMap.replaceIn graph b rest = rest := by
          refine (List.map_congr_left fun e' mem => if_neg ?_).trans (List.map_id rest)
          intro same
          exact fresh (here.trans same.symm ▸ List.mem_map_of_mem mem)
        rw [if_pos here, others, ← Option.some.inj found]
        dsimp only
        omega
      · rw [if_neg here] at found
        have later := ih nodup found
        rw [if_neg here]
        omega

/-- Writing under a name changes the total by what that name gains or loses. -/
theorem total_insert {size : β → Nat} (nothing : size void = 0) (graph : String) (b : β) :
    total size (m.insert graph b) + size (under void m graph) = total size m + size b := by
  rw [under]
  cases found : m.get? graph with
  | none =>
      have absent := OrderedMap.get?_eq_none_iff.1 found
      rw [total, OrderedMap.values, OrderedMap.entries_insert_of_not_mem b absent, List.map_append,
        List.map_append, List.sum_append, Option.getD_none, nothing]
      rfl
  | some held =>
      have mem := OrderedMap.mem_keys_iff.2 ⟨held, found⟩
      rw [total, total, OrderedMap.values, OrderedMap.values, OrderedMap.entries_insert_of_mem b mem,
        Option.getD_some, List.map_map, List.map_map]
      exact sum_replaceIn size b m.entries m.keys_nodup found

end Store

/-! ## Stores that grow statement by statement -/

open Store

/-- What a successful operation has done: it has left a certain map behind, and its answer is by how
much all graphs together have grown. -/
structure Accepted [GraphStore σ] (table : σ → OrderedMap String β) (size : β → Nat) (s s' : σ)
    (written : OrderedMap String β) (n : Nat) : Prop where
  namespaces : namespaces s' = namespaces s
  defaultGraph : defaultGraph s' = defaultGraph s
  stored : table s' = written
  count : total size (table s) + n = total size (table s')

/-- A store that is its prefixes, its default graph and a map of its graphs. A new graph starts from
`void`, an insertion takes one `step` for each statement, and answers by how much the graph has
grown. -/
structure Stepwise [GraphStore σ] (table : σ → OrderedMap String β) (step : β → Statement → β)
    (void : β) (size : β → Nat) : Prop where
  nothing : size void = 0
  contains : ∀ s graph, contains s graph = (table s).contains graph
  ext : ∀ {s t}, table s = table t → namespaces s = namespaces t → defaultGraph s = defaultGraph t →
    s = t
  create : ∀ s graph, ∃ s', create s graph = ⟨.ok (), s'⟩ ∧ namespaces s' = namespaces s ∧
    defaultGraph s' = defaultGraph s ∧
    table s' = (table s).insertNew ((GraphStore.namespaces s).extend graph) void
  insert : ∀ {s s' graph batch n}, insert s graph batch = ⟨.ok n, s'⟩ →
    namespaces s' = namespaces s ∧ defaultGraph s' = defaultGraph s ∧
    ∃ held, (table s).get? graph = some held ∧
      table s' = (table s).insert graph (batch.foldl step held) ∧
      size held + n = size (batch.foldl step held)

namespace Stepwise

variable [GraphStore σ] {table : σ → OrderedMap String β} {step : β → Statement → β} {void : β}
  {size : β → Nat} {s s' : σ} {n : Nat} {draws : Draws} {statements : List Statement}
  {graph : Option String}

theorem accepted_of_writeBatch (stepwise : Stepwise table step void size) {name : String}
    {batch : List Statement} (written : Store.writeBatch s name batch = ⟨.ok n, s'⟩) :
    Accepted table size s s' (putBatch step void (table s) (name, batch)) n := by
  have inserted : namespaces s' = namespaces s ∧ defaultGraph s' = defaultGraph s ∧
      table s' = putBatch step void (table s) (name, batch) ∧
      size (under void (table s) name) + n = size (batch.foldl step (under void (table s) name)) := by
    unfold Store.writeBatch at written
    by_cases registered : GraphStore.contains s name = true
    · rw [if_pos registered] at written
      obtain ⟨prefixes, default, held, found, stored, count⟩ := stepwise.insert written
      have there : under void (table s) name = held := by rw [under, found, Option.getD_some]
      rw [putBatch, there]
      exact ⟨prefixes, default, stored, count⟩
    · obtain ⟨s₁, created, prefixes₁, default₁, registered₁⟩ := stepwise.create s name
      rw [if_neg registered, created] at written
      obtain ⟨prefixes, default, held, found, stored, count⟩ := stepwise.insert written
      have missing : (table s).get? name = none := by
        rw [stepwise.contains] at registered
        exact OrderedMap.get?_eq_none_of_contains (Bool.eq_false_of_not_eq_true registered)
      -- the graph was created under its own name, or it would be missing still
      rw [registered₁, OrderedMap.get?_insertNew, missing] at found
      split at found
      · rename_i fixed
        rw [fixed, missing] at found
        cases found
        have there : under void (table s) name = void := by rw [under, missing, Option.getD_none]
        rw [registered₁, fixed, OrderedMap.insert_insertNew] at stored
        rw [putBatch, there]
        exact ⟨prefixes.trans prefixes₁, default.trans default₁, stored, count⟩
      · cases found
  obtain ⟨prefixes, default, stored, count⟩ := inserted
  refine ⟨prefixes, default, stored, ?_⟩
  have moved := total_insert stepwise.nothing (m := table s) name
    (batch.foldl step (under void (table s) name))
  rw [stored, putBatch]
  dsimp only
  omega

/-- Batches one after the other: by induction, because the answers and the growth add up alike. -/
theorem accepted_of_writeBatches (stepwise : Stepwise table step void size)
    (batches : List (String × List Statement)) :
    ∀ {s s' : σ} {n : Nat}, Store.writeBatches s batches = ⟨.ok n, s'⟩ →
      Accepted table size s s' (batches.foldl (putBatch step void) (table s)) n := by
  induction batches with
  | nil =>
      intro s s' n written
      cases written
      exact ⟨rfl, rfl, rfl, rfl⟩
  | cons e rest ih =>
      intro s s' n written
      rcases first : Store.writeBatch s e.1 e.2 with ⟨result, s₁⟩
      simp only [Store.writeBatches, first] at written
      cases result with
      | error fault => cases written
      | ok k =>
          rcases later : Store.writeBatches s₁ rest with ⟨result, s₂⟩
          dsimp only at written
          rw [later] at written
          cases result with
          | error fault => cases written
          | ok m =>
              cases written
              have one := stepwise.accepted_of_writeBatch first
              have others := ih later
              refine ⟨others.namespaces.trans one.namespaces,
                others.defaultGraph.trans one.defaultGraph, ?_, ?_⟩
              · rw [others.stored, one.stored, List.foldl_cons]
              · have here := one.count
                have there := others.count
                change _ + (k + m) = total size (table s₂)
                omega

/-- A successful addition without blank nodes has written its batches. -/
theorem accepted_of_add (stepwise : Stepwise table step void size)
    (unlabelled : ∀ t ∈ statements, t.labels = [])
    (added : Store.add s draws statements graph = ⟨.ok n, s'⟩) :
    Accepted table size s s'
      ((fullBatches s graph statements).entries.foldl (putBatch step void) (table s)) n := by
  have faultless := faultless_of_add (congrArg Reply.result added)
  simp only [Store.add, Store.batchesFrom_of_unlabelled statements faultless unlabelled] at added
  split at added
  · cases added
  · exact stepwise.accepted_of_writeBatches _ added

/-- After a successful addition each graph that was written to has what it had and then its batch. -/
theorem get?_of_add (stepwise : Stepwise table step void size)
    (unlabelled : ∀ t ∈ statements, t.labels = [])
    (added : Store.add s draws statements graph = ⟨.ok n, s'⟩) {name : String}
    {batch : List Statement} (mem : (name, batch) ∈ (fullBatches s graph statements).entries) :
    (table s').get? name = some (batch.foldl step (under void (table s) name)) := by
  have found : OrderedMap.lookup name (fullBatches s graph statements).entries = some batch :=
    OrderedMap.mem_entries_iff.1 mem
  rw [(stepwise.accepted_of_add unlabelled added).stored,
    get?_foldl_putBatch name _ _ (fullBatches s graph statements).keys_nodup, found]

/-- Which graphs are there after a successful addition. -/
theorem contains_of_add (stepwise : Stepwise table step void size)
    (unlabelled : ∀ t ∈ statements, t.labels = [])
    (added : Store.add s draws statements graph = ⟨.ok n, s'⟩) (name : String) :
    GraphStore.contains s' name = true ↔ GraphStore.contains s name = true ∨
      ∃ t ∈ statements,
        t.target (GraphStore.namespaces s) graph (GraphStore.defaultGraph s) = name := by
  rw [stepwise.contains, stepwise.contains, OrderedMap.contains_iff_mem, OrderedMap.contains_iff_mem,
    (stepwise.accepted_of_add unlabelled added).stored, fullBatches, putBatch_foldl_push,
    mem_keys_foldl_put, map_fst_fullForms, List.mem_map]
  rfl

end Stepwise

/-! ## The representations -/

theorem MemoryStore.stepwise : Stepwise MemoryStore.graphs
    (fun held t => held.insertNew t.tripleDigest t) .empty OrderedMap.size where
  nothing := rfl
  contains _ _ := rfl
  ext {m m'} graphs prefixes default := by
    cases m
    cases m'
    cases graphs
    cases prefixes
    cases default
    rfl
  create m graph := ⟨m.create graph, rfl, rfl, rfl, rfl⟩
  insert {m m' graph batch n} inserted := by
    change m.insert graph batch = ⟨.ok n, m'⟩ at inserted
    unfold MemoryStore.insert at inserted
    cases found : m.graphs.get? graph with
    | none =>
        rw [found] at inserted
        cases inserted
    | some held =>
        rw [found] at inserted
        cases inserted
        refine ⟨rfl, rfl, held, rfl, rfl, ?_⟩
        change held.size + ((unite held batch).size - held.size) = (unite held batch).size
        rw [size_unite]
        omega

theorem Ledger.stepwise : Stepwise Ledger.graphs
    (fun held t => Triple.appendNew held t.triple) [] List.length where
  nothing := rfl
  contains _ _ := rfl
  ext {l l'} graphs prefixes default := by
    cases l
    cases l'
    cases graphs
    cases prefixes
    cases default
    rfl
  create l graph := ⟨_, rfl, rfl, rfl, rfl⟩
  insert {l l' graph batch n} inserted := by
    change l.insert graph batch = ⟨.ok n, l'⟩ at inserted
    unfold Ledger.insert at inserted
    cases found : l.graphs.get? graph with
    | none =>
        rw [found] at inserted
        cases inserted
    | some held =>
        rw [found] at inserted
        dsimp only at inserted
        split at inserted
        · cases inserted
        · cases inserted
          have grown := Triple.length_foldl_appendNew (batch.map Statement.triple) held
          have steps : batch.foldl (fun held t => Triple.appendNew held t.triple) held =
              (batch.map Statement.triple).foldl Triple.appendNew held := by
            rw [List.foldl_map]
          refine ⟨rfl, rfl, held, rfl, by rw [steps], ?_⟩
          rw [steps]
          omega

end RdfStore
