import RdfStore.Proofs.Store.Readback
import RdfStore.Proofs.Store.Stepwise

/-!
# Batching does not matter

Without blank nodes, adding two lists together is adding one after the other, and adding a list again
that has been accepted changes nothing. The first holds in every store that grows statement by
statement and in which writing never fails (`Stepwise.splits`), and then in every store that cannot be
told apart from one (`Simulation.splits`). The second is about the store itself, which a comparison
need not determine, so it is shown for each representation: in memory the digests are there
(`MemoryStore.repeats`), in a database file the triples (`DurableStore.Shows.repeats`).

* `Storage.add_append`: both kinds of storage.
-/

namespace RdfStore

open GraphStore Store

variable {σ τ β : Type}

/-! ## Two additions for one -/

/-- Adding everything at once and adding it in two parts come to the same. -/
structure Reply.Splits [GraphStore σ] (whole first second : Reply σ Nat) : Prop where
  succeeds : (∃ n, whole.result = .ok n) ↔
    (∃ k, first.result = .ok k) ∧ ∃ m, second.result = .ok m
  counts : ∀ n k m, whole.result = .ok n → first.result = .ok k → second.result = .ok m → n = k + m
  graphs : ∀ n, whole.result = .ok n → graphs whole.store = graphs second.store
  statements : ∀ n, whole.result = .ok n → ∀ graph,
    statements whole.store graph = statements second.store graph

namespace Store

/-- Adding two lists at once and one after the other, whatever the draws are. -/
def Splits [GraphStore σ] (s : σ) (A B : List Statement) (graph : Option String) : Prop :=
  ∀ draws draws₁ draws₂, Reply.Splits (add s draws (A ++ B) graph) (add s draws₁ A graph)
    (add (add s draws₁ A graph).store draws₂ B graph)

/-- Adding a list again, whatever the draws are, adds nothing if it was accepted the first time. -/
def Repeats [GraphStore σ] (s : σ) (statements : List Statement) (graph : Option String) : Prop :=
  ∀ draws draws' n s', add s draws statements graph = ⟨.ok n, s'⟩ →
    add s' draws' statements graph = ⟨.ok 0, s'⟩

/-- An addition owes no error if its statements are valid and their graphs are known. -/
theorem refusal?_eq_none_iff [GraphStore σ] {s : σ} {statements : List Statement}
    {graph : Option String} : refusal? s statements graph = none ↔
      (∀ t ∈ statements, t.fault? = none) ∧ ∀ t ∈ statements,
        let target := t.target (namespaces s) graph (defaultGraph s)
        contains s target = true ∨ target = defaultGraph s := by
  unfold refusal?
  cases faults : statements.findSome? Statement.fault? with
  | some fault =>
      refine iff_of_false nofun fun none => ?_
      rw [List.findSome?_eq_none_iff.2 none.1] at faults
      cases faults
  | none =>
      let targets := statements.map (Statement.target (namespaces s) graph (defaultGraph s))
      have known : firstUnknown s targets = none ↔
          ∀ g ∈ targets, contains s g = true ∨ g = defaultGraph s := firstUnknown_eq_none_iff
      rw [List.forall_mem_map] at known
      refine Option.map_eq_none_iff.trans (known.trans ?_)
      exact (and_iff_right (List.findSome?_eq_none_iff.1 faults)).symm

theorem refusal?_append_eq_none_iff [GraphStore σ] {s : σ} {A B : List Statement}
    {graph : Option String} : refusal? s (A ++ B) graph = none ↔
      refusal? s A graph = none ∧ refusal? s B graph = none := by
  simp only [refusal?_eq_none_iff, List.forall_mem_append]
  exact and_and_and_comm

end Store

theorem Steady.ok_iff [GraphStore σ] {Good : σ → Prop} (steady : Steady Good) {s : σ} (good : Good s)
    (fixed : (namespaces s).extend (defaultGraph s) = defaultGraph s) (draws : Draws)
    (statements : List Statement) (graph : Option String) :
    (∃ n, (Store.add s draws statements graph).result = .ok n) ↔
      refusal? s statements graph = none := by
  have settled := steady.add good fixed draws statements graph
  cases owed : refusal? s statements graph with
  | none =>
      rw [owed] at settled
      exact iff_of_true settled rfl
  | some e =>
      rw [owed] at settled
      rw [settled]
      exact iff_of_false nofun nofun

namespace Stepwise

variable [GraphStore σ] {table : σ → OrderedMap String β} {step : β → Statement → β} {void : β}
  {size : β → Nat} {s s₁ s₂ w : σ} {n k m : Nat} {draws draws₁ draws₂ : Draws}
  {A B : List Statement} {graph : Option String}

/-- An addition behind an accepted one owes an error exactly if it did before: what the first one may
create is the default graph, which may be used in any case. -/
theorem refusal?_of_add (stepwise : Stepwise table step void size)
    (unlabelled : ∀ t ∈ A, t.labels = []) (known : refusal? s A graph = none)
    (added : Store.add s draws A graph = ⟨.ok n, s₁⟩) :
    refusal? s₁ B graph = none ↔ refusal? s B graph = none := by
  have accepted := stepwise.accepted_of_add unlabelled added
  have known := (refusal?_eq_none_iff.1 known).2
  rw [refusal?_eq_none_iff, refusal?_eq_none_iff, accepted.namespaces, accepted.defaultGraph]
  refine and_congr_right fun _ => forall₂_congr fun t _ => ?_
  dsimp only
  rw [stepwise.contains_of_add unlabelled added]
  constructor
  · rintro ((old | ⟨u, mem, same⟩) | default)
    · exact Or.inl old
    · exact same ▸ known u mem
    · exact Or.inr default
  · exact Or.imp_left Or.inl

/-- Accepted at once and accepted one after the other, two lists leave the same store. -/
theorem add_of_parts (stepwise : Stepwise table step void size)
    (unlabelled : ∀ t ∈ A ++ B, t.labels = [])
    (whole : Store.add s draws (A ++ B) graph = ⟨.ok n, w⟩)
    (first : Store.add s draws₁ A graph = ⟨.ok k, s₁⟩)
    (second : Store.add s₁ draws₂ B graph = ⟨.ok m, s₂⟩) : n = k + m ∧ w = s₂ := by
  obtain ⟨unlabelledA, unlabelledB⟩ := List.forall_mem_append.1 unlabelled
  have all := stepwise.accepted_of_add unlabelled whole
  have one := stepwise.accepted_of_add unlabelledA first
  have two := stepwise.accepted_of_add unlabelledB second
  have tables : table w = table s₂ := by
    rw [all.stored, two.stored, one.stored, fullBatches, fullBatches, fullBatches,
      putBatch_foldl_push, putBatch_foldl_push, putBatch_foldl_push, one.namespaces,
      one.defaultGraph, fullForms, List.map_append, List.foldl_append]
    rfl
  refine ⟨?_, stepwise.ext tables ?_ ?_⟩
  · have whole := all.count
    have first := one.count
    have second := two.count
    rw [tables] at whole
    omega
  · rw [all.namespaces, two.namespaces, one.namespaces]
  · rw [all.defaultGraph, two.defaultGraph, one.defaultGraph]

/-- Where writing never fails, an addition of two lists splits. -/
theorem splits (stepwise : Stepwise table step void size) (steady : Steady fun _ : σ => True)
    (fixed : (GraphStore.namespaces s).extend (GraphStore.defaultGraph s) =
      GraphStore.defaultGraph s)
    (unlabelled : ∀ t ∈ A ++ B, t.labels = []) : Splits s A B graph := by
  intro draws draws₁ draws₂
  have unlabelledA := (List.forall_mem_append.1 unlabelled).1
  have wholeOk := steady.ok_iff trivial fixed draws (A ++ B) graph
  have firstOk := steady.ok_iff trivial fixed draws₁ A graph
  rcases first : Store.add s draws₁ A graph with ⟨result, s₁⟩
  rw [first] at firstOk
  have secondOk : ∀ k, result = .ok k →
      ((∃ m, (Store.add s₁ draws₂ B graph).result = .ok m) ↔ refusal? s B graph = none) := by
    rintro k rfl
    have accepted := stepwise.accepted_of_add unlabelledA first
    have fixed₁ : (GraphStore.namespaces s₁).extend (GraphStore.defaultGraph s₁) =
        GraphStore.defaultGraph s₁ := by rw [accepted.namespaces, accepted.defaultGraph, fixed]
    rw [steady.ok_iff trivial fixed₁]
    exact stepwise.refusal?_of_add unlabelledA (firstOk.1 ⟨k, rfl⟩) first
  have succeeds : (∃ n, (Store.add s draws (A ++ B) graph).result = .ok n) ↔
      (∃ k, result = .ok k) ∧ ∃ m, (Store.add s₁ draws₂ B graph).result = .ok m := by
    rw [wholeOk, refusal?_append_eq_none_iff, ← firstOk]
    refine and_congr_right fun ok => ?_
    obtain ⟨k, ok⟩ := ok
    exact (secondOk k ok).symm
  have same : ∀ n k m, (Store.add s draws (A ++ B) graph).result = .ok n → result = .ok k →
      (Store.add s₁ draws₂ B graph).result = .ok m →
      n = k + m ∧ (Store.add s draws (A ++ B) graph).store = (Store.add s₁ draws₂ B graph).store := by
    rcases whole : Store.add s draws (A ++ B) graph with ⟨_, w⟩
    rcases second : Store.add s₁ draws₂ B graph with ⟨_, s₂⟩
    rintro n k m rfl rfl rfl
    exact stepwise.add_of_parts unlabelled whole first second
  refine ⟨succeeds, fun n k m whole first second => (same n k m whole first second).1, ?_, ?_⟩
  · intro n whole
    obtain ⟨⟨k, first⟩, m, second⟩ := succeeds.1 ⟨n, whole⟩
    rw [(same n k m whole first second).2]
  · intro n whole g
    obtain ⟨⟨k, first⟩, m, second⟩ := succeeds.1 ⟨n, whole⟩
    rw [(same n k m whole first second).2]

end Stepwise

/-! ## Adding again -/

namespace Store

variable [GraphStore σ] {s : σ}

theorem writeBatches_of_absorbed (entries : List (String × List Statement)) :
    (∀ e ∈ entries, contains s e.1 = true ∧ insert s e.1 e.2 = ⟨.ok 0, s⟩) →
      writeBatches s entries = ⟨.ok 0, s⟩ := by
  induction entries with
  | nil => intro _; rfl
  | cons e rest ih =>
      intro absorbed
      obtain ⟨⟨registered, same⟩, absorbed⟩ := List.forall_mem_cons.1 absorbed
      have here : writeBatch s e.1 e.2 = ⟨.ok 0, s⟩ := by rw [writeBatch, if_pos registered, same]
      simp only [writeBatches, here, ih absorbed]
      rfl

/-- Statements whose batches change nothing change nothing. -/
theorem add_of_absorbed {statements : List Statement} {graph : Option String}
    (faultless : statements.findSome? Statement.fault? = none)
    (unlabelled : ∀ t ∈ statements, t.labels = [])
    (absorbed : ∀ e ∈ (fullBatches s graph statements).entries,
      contains s e.1 = true ∧ insert s e.1 e.2 = ⟨.ok 0, s⟩) (draws : Draws) :
    add s draws statements graph = ⟨.ok 0, s⟩ := by
  have known : firstUnknown s (fullBatches s graph statements).keys = none := by
    rw [firstUnknown_eq_none_iff]
    intro g mem
    obtain ⟨e, entry, rfl⟩ := List.mem_map.1 mem
    exact Or.inl (absorbed e entry).1
  have made : batchesFrom (namespaces s) (defaultGraph s) graph draws .empty .empty statements =
      .ok (fullBatches s graph statements) :=
    batchesFrom_of_unlabelled statements faultless unlabelled
  rw [add_of_batches made known]
  exact writeBatches_of_absorbed _ absorbed

end Store

/-- In memory the digests of what was added are there, so adding it again changes nothing. -/
theorem MemoryStore.repeats (m : MemoryStore) {statements : List Statement} (graph : Option String)
    (unlabelled : ∀ t ∈ statements, t.labels = []) : Repeats m statements graph := by
  intro draws draws' n m' added
  have accepted := stepwise.accepted_of_add unlabelled added
  refine add_of_absorbed (faultless_of_add (congrArg Reply.result added)) unlabelled ?_ draws'
  intro e mem
  rw [fullBatches, accepted.namespaces, accepted.defaultGraph] at mem
  have found := stepwise.get?_of_add unlabelled added mem
  refine ⟨OrderedMap.contains_iff_mem.2 (OrderedMap.mem_keys_iff.2 ⟨_, found⟩), ?_⟩
  exact insert_of_known found fun t here =>
    mem_keys_unite.2 (Or.inr (List.mem_map_of_mem here))

/-- In a database file the triples of what was added are there, so adding it again changes nothing,
not even the counters. -/
theorem DurableStore.Shows.repeats {d : DurableStore} {l : Ledger} (h : DurableStore.Shows d l)
    {statements : List Statement} (graph : Option String)
    (unlabelled : ∀ t ∈ statements, t.labels = []) : Repeats d statements graph := by
  intro draws draws' n d' added
  have agree : Reply.Agree DurableStore.Shows (Store.add d draws statements graph)
      (Store.add l draws statements graph) :=
    DurableStore.simulation.add h fun _ _ _ _ _ _ => trivial
  rcases shown : Store.add l draws statements graph with ⟨result, l'⟩
  rw [added, shown] at agree
  obtain ⟨rfl, h'⟩ := agree
  have accepted := Ledger.stepwise.accepted_of_add unlabelled shown
  refine add_of_absorbed (faultless_of_add (congrArg Reply.result added)) unlabelled ?_ draws'
  intro e mem
  have prefixes : GraphStore.namespaces d' = GraphStore.namespaces l :=
    h'.namespaces.trans accepted.namespaces
  have default : GraphStore.defaultGraph d' = GraphStore.defaultGraph l :=
    h'.defaultGraph.trans accepted.defaultGraph
  rw [fullBatches, prefixes, default] at mem
  have found := Ledger.stepwise.get?_of_add unlabelled shown mem
  have registered : d'.graphIds.contains e.1 = true := by
    rw [h'.graphs.contains, OrderedMap.contains_iff_mem]
    exact OrderedMap.mem_keys_iff.2 ⟨_, found⟩
  obtain ⟨id, here⟩ := OrderedMap.mem_keys_iff.1 (OrderedMap.contains_iff_mem.1 registered)
  refine ⟨registered, h'.sound.insert_of_known here fun t mem => ?_⟩
  rw [h'.graphs.values here found, ← List.foldl_map]
  exact (Triple.mem_foldl_appendNew _ _).2 (Or.inr (List.mem_map_of_mem mem))

/-! ## Transfer -/

namespace Simulation

variable [GraphStore σ] [GraphStore τ] {rel : σ → τ → Prop} {s : σ} {t : τ}

/-- A store that cannot be told apart from one in which an addition splits is like that as well. -/
theorem splits (sim : Simulation rel fun _ _ => True) (h : rel s t) {A B : List Statement}
    {graph : Option String} (splits : Splits t A B graph) : Splits s A B graph := by
  intro draws draws₁ draws₂
  have agree {s : σ} {t : τ} (h : rel s t) (draws : Draws) (statements : List Statement) :
      Reply.Agree rel (Store.add s draws statements graph) (Store.add t draws statements graph) :=
    sim.add h fun _ _ _ _ _ _ => trivial
  have whole := agree h draws (A ++ B)
  have first := agree h draws₁ A
  have second := agree first.store draws₂ B
  obtain ⟨succeeds, counts, graphs, statements⟩ := splits draws draws₁ draws₂
  constructor
  · rw [whole.result, first.result, second.result]
    exact succeeds
  · rw [whole.result, first.result, second.result]
    exact counts
  · rw [whole.result, sim.graphs whole.store, sim.graphs second.store]
    exact graphs
  · intro n ok g
    rw [sim.statements whole.store, sim.statements second.store]
    exact statements n (whole.result ▸ ok) g

/-- The same for adding again, where the other store determines the store. -/
theorem repeats (sim : Simulation rel fun _ _ => True)
    (determined : ∀ {s s' : σ} {t : τ}, rel s t → rel s' t → s = s') (h : rel s t)
    {statements : List Statement} {graph : Option String} (repeats : Repeats t statements graph) :
    Repeats s statements graph := by
  intro draws draws' n s' added
  have agree {s : σ} {t : τ} (h : rel s t) (draws : Draws) :
      Reply.Agree rel (Store.add s draws statements graph) (Store.add t draws statements graph) :=
    sim.add h fun _ _ _ _ _ _ => trivial
  have first := agree h draws
  rcases other : Store.add t draws statements graph with ⟨result, t'⟩
  rw [added, other] at first
  obtain ⟨rfl, h'⟩ := first
  have second := agree h' draws'
  rw [repeats draws draws' n t' other] at second
  rcases again : Store.add s' draws' statements graph with ⟨result, s''⟩
  rw [again] at second
  obtain ⟨rfl, same⟩ := second
  exact congrArg (Reply.mk _) (determined same h')

end Simulation

/-- In every state of a store in memory, and in every state that a history of a database file leads
to, adding two lists without blank nodes at once and adding one after the other come to the same. The
one succeeds exactly if the other does, and then the answers add up and the same graphs are left in
the same order, each with the same statements in the same order. Adding a list again that has just been
accepted adds nothing and leaves the store as it is. -/
theorem Storage.add_append {s : Storage} (reachable : s.Reachable)
    (fixed : (namespaces s).extend (defaultGraph s) = defaultGraph s) {A B : List Statement}
    (unlabelled : ∀ t ∈ A ++ B, t.labels = []) (graph : Option String) :
    Splits s A B graph ∧ Repeats s A graph := by
  have unlabelledA := (List.forall_mem_append.1 unlabelled).1
  cases s with
  | memory m =>
      constructor
      · have splits : Splits m A B graph :=
          MemoryStore.stepwise.splits MemoryStore.steady fixed unlabelled
        exact simulation_memory.splits rfl splits
      · exact simulation_memory.repeats (fun h h' => h.trans h'.symm) rfl
          (m.repeats graph unlabelledA)
  | durable d =>
      rcases reachable with ⟨ns, default, events, rfl⟩
      have shows := DurableStore.Shows.after events (DurableStore.shows_new ns default)
      constructor
      · have fixed' : (Event.after Ledger.reopenWith (.empty ns default) events).namespaces.extend
            (Event.after Ledger.reopenWith (.empty ns default) events).defaultGraph =
              (Event.after Ledger.reopenWith (.empty ns default) events).defaultGraph := by
          rw [← shows.namespaces, ← shows.defaultGraph]
          exact fixed
        have splits : Splits (Event.after Ledger.reopenWith (.empty ns default) events) A B graph :=
          Ledger.stepwise.splits Ledger.steady fixed' unlabelled
        exact simulation_durable.splits rfl (DurableStore.simulation.splits shows splits)
      · exact simulation_durable.repeats (fun h h' => h.trans h'.symm) rfl
          (shows.repeats graph unlabelledA)

/-- The first part creates the default graph, the second writes to both graphs and has one statement
that is new. -/
theorem Storage.add_append_sample :
    let s := Storage.durable (Event.after DurableStore.reopenWith (.new .standard "http://d")
      [.change (.create "http://g"), .reopen .standard "urn:d"])
    let t : Statement := ⟨.named "foaf:a", .named "foaf:name", .literal ⟨"x", none, none⟩, none⟩
    let u : Statement := { t with graph := some (.named "http://g") }
    let A := [u, t]
    let B := [t, u, { u with subject := .named "foaf:b" }]
    let first := Store.add s (fun _ => 0) A none
    let second := Store.add first.store (fun _ => 1) B none
    s.Reachable ∧ (namespaces s).extend (defaultGraph s) = defaultGraph s ∧
      (∀ t ∈ A ++ B, t.labels = []) ∧
      (∃ k m, first.result = .ok k ∧ second.result = .ok m ∧ 3 = k + m) ∧
      graphs (Store.add s (fun _ => 2) (A ++ B) none).store = graphs second.store ∧
      Store.add first.store (fun _ => 1) A none = ⟨.ok 0, first.store⟩ := by
  intro s t u A B first second
  have reachable : s.Reachable := ⟨_, _, _, rfl⟩
  have fixed : (namespaces s).extend (defaultGraph s) = defaultGraph s := by decide +kernel
  have unlabelled : ∀ t ∈ A ++ B, t.labels = [] := by decide
  obtain ⟨splits, repeats⟩ := Storage.add_append reachable fixed unlabelled none
  have whole : (Store.add s (fun _ => 2) (A ++ B) none).result = .ok 3 := by decide +kernel
  have parts := splits (fun _ => 2) (fun _ => 0) (fun _ => 1)
  obtain ⟨⟨k, one⟩, m, two⟩ := parts.succeeds.1 ⟨3, whole⟩
  refine ⟨reachable, fixed, unlabelled, ⟨k, m, one, two, parts.counts 3 k m whole one two⟩,
    parts.graphs 3 whole, ?_⟩
  exact repeats (fun _ => 0) (fun _ => 1) k first.store (congrArg (Reply.mk · first.store) one)

end RdfStore
