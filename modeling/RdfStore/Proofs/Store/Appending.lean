import Mathlib.Data.Finset.Card
import Mathlib.Data.Set.Function
import RdfStore.Proofs.Store.Relabelling
import RdfStore.Proofs.Store.Scan

/-!
# What an addition appends

Writing a batch appends to its graph the triples that the graph does not hold yet, each once and in
the order of the batch, and leaves all other graphs alone. The number that is answered is how many
were appended. `Store.Appended` says this of several batches at once.

* `Appending`: what one creation and one insertion have to do for it.
* `Appending.writeBatches`: a run of batches for different graphs.
* `Tabled`: a store that keeps its graphs in a map, and what writing to the map does to the triples.
* `MemoryStore.appending`, `Ledger.appending`, `Simulation.appending`: the representations do it, the
  store in memory as far as the digests of the triples are apart.
-/

namespace RdfStore

open GraphStore

variable {σ τ : Type}

/-! ## Appending triples to a list -/

namespace Triple

/-- Different triples of a list have different digests. -/
def Apart (ts : List Triple) : Prop := ∀ t ∈ ts, ∀ u ∈ ts, t.digest = u.digest → t = u

instance (ts : List Triple) : Decidable (Apart ts) :=
  inferInstanceAs (Decidable (∀ t ∈ _, ∀ u ∈ _, _ → _))

theorem mem_appendNew {held : List Triple} {t u : Triple} :
    u ∈ appendNew held t ↔ u ∈ held ∨ u = t := by
  unfold appendNew
  split
  · rename_i known
    exact ⟨Or.inl, fun given => given.elim id fun same => same ▸ known⟩
  · rw [List.mem_append, List.mem_singleton]

theorem mem_foldl_appendNew {u : Triple} (new : List Triple) :
    ∀ held, u ∈ new.foldl appendNew held ↔ u ∈ held ∨ u ∈ new := by
  induction new with
  | nil => intro held; simp
  | cons t rest ih =>
      intro held
      rw [List.foldl_cons, ih, mem_appendNew, List.mem_cons, or_assoc]

/-- The list grows by the number of different triples that it did not hold. -/
theorem length_foldl_appendNew (new : List Triple) :
    ∀ held : List Triple, (new.foldl appendNew held).length =
      held.length + (new.toFinset \ held.toFinset).card := by
  induction new with
  | nil => intro held; simp
  | cons t rest ih =>
      intro held
      rw [List.foldl_cons, ih, List.toFinset_cons]
      unfold appendNew
      by_cases known : t ∈ held
      · rw [if_pos known, Finset.insert_sdiff_of_mem _ (List.mem_toFinset.2 known)]
      · have fresh : t ∉ held.toFinset := fun mem => known (List.mem_toFinset.1 mem)
        have grown : (held ++ [t]).toFinset = insert t held.toFinset := by
          rw [List.toFinset_append, List.toFinset_cons, List.toFinset_nil, Finset.union_comm]
          rfl
        have one := Finset.card_erase_add_one
          (Finset.mem_insert_self t (rest.toFinset \ held.toFinset))
        rw [Finset.erase_insert_eq_erase] at one
        rw [if_neg known, grown, List.length_append, List.length_singleton,
          Finset.insert_sdiff_of_notMem _ fresh, Finset.sdiff_insert, ← one]
        omega

end Triple

/-! ## Appending batches to a store -/

namespace Store

variable [GraphStore σ]

/-- The triples of a graph in order; a graph that cannot be read has none. -/
def triplesOf (s : σ) (graph : String) : List Triple :=
  match GraphStore.statements s graph with
  | .ok stored => stored.map Statement.triple
  | .error _ => []

/-- The triples of all graphs. -/
def triples (s : σ) : List Triple := (graphs s).flatMap (triplesOf s)

/-- The triples of a graph after its batch. -/
def grown (s : σ) (e : String × List Statement) : List Triple :=
  (e.2.map Statement.triple).foldl Triple.appendNew (triplesOf s e.1)

/-- What a later store has of an earlier one and of batches that were appended to it. -/
structure Appended (s s' : σ) (batches : List (String × List Statement)) (count : Nat) : Prop where
  kept : Kept s s'
  registered : ∀ e ∈ batches, contains s' e.1 = true
  triples : ∀ e ∈ batches, triplesOf s' e.1 = grown s e
  others : ∀ graph ∉ batches.map Prod.fst, triplesOf s' graph = triplesOf s graph
  count : count = (batches.map fun e => (grown s e).length - (triplesOf s e.1).length).sum

namespace Appended

variable {s s₁ s' : σ} {e : String × List Statement} {rest : List (String × List Statement)}
  {n m : Nat}

theorem nil (s : σ) : Appended s s [] 0 where
  kept := .refl s
  registered _ mem := by cases mem
  triples _ mem := by cases mem
  others _ _ := rfl
  count := rfl

/-- Batches for different graphs one after the other. -/
theorem cons (h : Appended s s₁ [e] n) (h' : Appended s₁ s' rest m)
    (fresh : e.1 ∉ rest.map Prod.fst) : Appended s s' (e :: rest) (n + m) := by
  have apart : ∀ e' ∈ rest, e'.1 ∉ [e].map Prod.fst := by
    intro e' mem same
    rw [List.map_singleton, List.mem_singleton] at same
    exact fresh (same ▸ List.mem_map_of_mem mem)
  have before : ∀ e' ∈ rest, triplesOf s₁ e'.1 = triplesOf s e'.1 :=
    fun e' mem => h.others e'.1 (apart e' mem)
  have alike : ∀ e' ∈ rest, grown s₁ e' = grown s e' := by
    intro e' mem
    rw [grown, grown, before e' mem]
  constructor
  · exact h.kept.trans h'.kept
  · intro e' mem
    rcases List.mem_cons.1 mem with rfl | mem
    · exact h'.kept.contains _ (h.registered _ (List.mem_singleton_self _))
    · exact h'.registered e' mem
  · intro e' mem
    rcases List.mem_cons.1 mem with rfl | mem
    · rw [h'.others _ fresh]
      exact h.triples _ (List.mem_singleton_self _)
    · rw [h'.triples e' mem, alike e' mem]
  · intro graph absent
    rw [List.map_cons, List.mem_cons, not_or] at absent
    rw [h'.others graph absent.2]
    exact h.others graph (by simpa using absent.1)
  · have later : (rest.map fun e' => (grown s₁ e').length - (triplesOf s₁ e'.1).length) =
        rest.map fun e' => (grown s e').length - (triplesOf s e'.1).length := by
      apply List.map_congr_left
      intro e' mem
      rw [alike e' mem, before e' mem]
    rw [h.count, h'.count, later, List.map_singleton, List.sum_singleton, List.map_cons,
      List.sum_cons]

end Appended

end Store

open Store

/-- From good states on, creating a graph appends nothing, and inserting triples of `T` appends
them, both leading to good states. -/
structure Appending [GraphStore σ] (T : Set Triple) (Good : σ → Prop) : Prop where
  create : ∀ {s : σ}, Good s → ∀ graph, ∃ s', create s graph = ⟨.ok (), s'⟩ ∧ Good s' ∧ Kept s s' ∧
    ∀ g, triplesOf s' g = triplesOf s g
  insert : ∀ {s s' : σ}, Good s → ∀ {graph batch n}, (∀ x ∈ batch, x.triple ∈ T) →
    insert s graph batch = ⟨.ok n, s'⟩ → Good s' ∧ Appended s s' [(graph, batch)] n

namespace Appending

variable [GraphStore σ] {T : Set Triple} {Good : σ → Prop} {s s' : σ} {n : Nat}

theorem writeBatch (appending : Appending T Good) (good : Good s) {graph : String}
    {batch : List Statement} (known : ∀ x ∈ batch, x.triple ∈ T)
    (written : Store.writeBatch s graph batch = ⟨.ok n, s'⟩) :
    Good s' ∧ Appended s s' [(graph, batch)] n := by
  unfold Store.writeBatch at written
  by_cases registered : contains s graph = true
  · rw [if_pos registered] at written
    exact appending.insert good known written
  · obtain ⟨s₁, created, good₁, kept, same⟩ := appending.create good graph
    rw [if_neg registered, created] at written
    obtain ⟨good', appended⟩ := appending.insert good₁ known written
    have alike : ∀ e, grown s₁ e = grown s e := by
      intro e
      rw [grown, grown, same]
    refine ⟨good', ⟨kept.trans appended.kept, appended.registered, ?_, ?_, ?_⟩⟩
    · intro e mem
      rw [appended.triples e mem, alike]
    · intro g absent
      rw [appended.others g absent, same]
    · rw [appended.count]
      simp only [alike, same]

/-- Batches for different graphs: by induction, because a batch leaves the graphs of the later ones
alone. -/
theorem writeBatches (appending : Appending T Good) (batches : List (String × List Statement)) :
    ∀ {s s' : σ} {n : Nat}, Good s → (batches.map Prod.fst).Nodup →
      (∀ e ∈ batches, ∀ x ∈ e.2, x.triple ∈ T) →
      Store.writeBatches s batches = ⟨.ok n, s'⟩ → Good s' ∧ Appended s s' batches n := by
  induction batches with
  | nil =>
      intro s s' n good _ _ written
      cases written
      exact ⟨good, .nil s⟩
  | cons e rest ih =>
      intro s s' n good nodup known written
      obtain ⟨fresh, nodup⟩ := List.nodup_cons.1 nodup
      obtain ⟨here, known⟩ := List.forall_mem_cons.1 known
      simp only [Store.writeBatches] at written
      rcases first : Store.writeBatch s e.1 e.2 with ⟨result, s₁⟩
      rw [first] at written
      cases result with
      | error fault => cases written
      | ok m =>
          obtain ⟨good₁, appended⟩ := appending.writeBatch good here first
          rcases later : Store.writeBatches s₁ rest with ⟨result, s₂⟩
          dsimp only at written
          rw [later] at written
          cases result with
          | error fault => cases written
          | ok k =>
              cases written
              obtain ⟨good', appended'⟩ := ih good₁ nodup known later
              exact ⟨good', appended.cons appended' fresh⟩

end Appending

/-! ## The representations append -/

theorem Simulation.triplesOf [GraphStore σ] [GraphStore τ] {rel : σ → τ → Prop}
    {Admits : String → Statement → Prop} (sim : Simulation rel Admits) {s : σ} {t : τ}
    (h : rel s t) (graph : String) : triplesOf s graph = triplesOf t graph := by
  rw [Store.triplesOf, Store.triplesOf, sim.statements h]

/-- A store that cannot be told apart from one that appends does so as well. -/
theorem Simulation.appending [GraphStore σ] [GraphStore τ] {rel : σ → τ → Prop}
    (sim : Simulation rel fun _ _ => True) {T : Set Triple} {Good : τ → Prop}
    (appending : Appending T Good) : Appending T fun s => ∃ t, rel s t ∧ Good t := by
  have same {s : σ} {t : τ} (h : rel s t) := sim.triplesOf h
  constructor
  · intro s good graph
    rcases good with ⟨t, h, good⟩
    obtain ⟨t', created, good', k, alike⟩ := appending.create good graph
    have agree := sim.create h graph
    rcases hs : GraphStore.create s graph with ⟨result, s'⟩
    rw [hs, created] at agree
    obtain ⟨rfl, h'⟩ := agree
    refine ⟨s', rfl, ⟨t', h', good'⟩, sim.kept h h' k, fun g => ?_⟩
    rw [same h', same h, alike]
  · intro s s' good graph batch n known inserted
    rcases good with ⟨t, h, good⟩
    have agree : Reply.Agree rel (GraphStore.insert s graph batch)
        (GraphStore.insert t graph batch) := sim.insert h fun _ _ => trivial
    rw [inserted] at agree
    rcases ht : GraphStore.insert t graph batch with ⟨result, t'⟩
    rw [ht] at agree
    obtain ⟨rfl, h'⟩ := agree
    obtain ⟨good', appended⟩ := appending.insert good known ht
    have alike : ∀ e, grown s e = grown t e := by
      intro e
      rw [grown, grown, same h]
    refine ⟨⟨t', h', good'⟩, sim.kept h h' appended.kept, ?_, ?_, ?_, ?_⟩
    · intro e mem
      rw [sim.contains h']
      exact appended.registered e mem
    · intro e mem
      rw [same h', alike, appended.triples e mem]
    · intro g absent
      rw [same h', same h, appended.others g absent]
    · rw [appended.count]
      simp only [alike, same h]

/-- A store in which one graph has grown by its batch. -/
theorem Store.appended_singleton [GraphStore σ] {s s' : σ} {graph : String}
    {batch : List Statement} (kept : Kept s s') (registered : contains s' graph = true)
    (triples : ∀ g, triplesOf s' g = if graph = g then grown s (graph, batch) else triplesOf s g) :
    Appended s s' [(graph, batch)]
      ((grown s (graph, batch)).length - (triplesOf s graph).length) where
  kept := kept
  registered e mem := List.mem_singleton.1 mem ▸ registered
  triples e mem := by
    rw [List.mem_singleton.1 mem, triples, if_pos rfl]
  others g absent := by
    rw [List.map_singleton, List.mem_singleton] at absent
    rw [triples, if_neg (Ne.symm absent)]
  count := by rw [List.map_singleton, List.sum_singleton]

/-! ## Triples in a map -/

/-- A store whose graphs are the keys of a map, and whose triples are read off the values. -/
structure Tabled [GraphStore σ] {β : Type} (table : σ → OrderedMap String β)
    (read : β → List Triple) : Prop where
  contains : ∀ s graph, contains s graph = (table s).contains graph
  triples : ∀ s graph, triplesOf s graph = (((table s).get? graph).map read).getD []

namespace Tabled

variable [GraphStore σ] {β : Type} {table : σ → OrderedMap String β} {read : β → List Triple}
  {s s' : σ} {graph : String} {b : β}

/-- Registering an empty graph. -/
theorem triplesOf_insertNew (tabled : Tabled table read)
    (written : table s' = (table s).insertNew graph b) (empty : read b = []) (g : String) :
    triplesOf s' g = triplesOf s g := by
  rw [tabled.triples, tabled.triples, written, OrderedMap.get?_insertNew]
  split
  · rename_i same
    rw [same]
    cases (table s).get? g with
    | none => exact empty
    | some held => rfl
  · rfl

theorem triplesOf_insert (tabled : Tabled table read)
    (written : table s' = (table s).insert graph b) (g : String) :
    triplesOf s' g = if graph = g then read b else triplesOf s g := by
  rw [tabled.triples, tabled.triples, written, OrderedMap.get?_insert]
  split <;> rfl

theorem triplesOf_erase (tabled : Tabled table read)
    (erased : table s' = (table s).erase graph) (g : String) :
    triplesOf s' g = if graph = g then [] else triplesOf s g := by
  rw [tabled.triples, tabled.triples, erased, OrderedMap.get?_erase]
  split <;> rfl

end Tabled

namespace Ledger

/-- What is read from a graph is what is kept under its name. -/
theorem statements_eq_ok_iff {l : Ledger} {graph : String} {stored : List Statement} :
    GraphStore.statements l graph = .ok stored ↔
      ∃ held, l.graphs.get? graph = some held ∧ held.map (Triple.inGraph graph) = stored := by
  change l.statements graph = .ok stored ↔ _
  rw [Ledger.statements]
  cases l.graphs.get? graph with
  | none => simp
  | some held => simp

theorem triplesOf_eq (l : Ledger) (graph : String) :
    triplesOf l graph = (l.graphs.get? graph).getD [] := by
  have read : GraphStore.statements l graph = l.statements graph := rfl
  rw [triplesOf, read, Ledger.statements]
  cases l.graphs.get? graph with
  | none => rfl
  | some held =>
      dsimp only
      rw [List.map_map, Option.getD_some]
      exact List.map_id' held

theorem tabled : Tabled Ledger.graphs id := by
  refine ⟨fun _ _ => rfl, fun l graph => ?_⟩
  rw [triplesOf_eq, Option.map_id, id]

theorem appending (T : Set Triple) : Appending T fun _ : Ledger => True where
  create {l} _ graph :=
    ⟨_, rfl, trivial, ⟨rfl, rfl, fun _ => OrderedMap.contains_insertNew⟩,
      tabled.triplesOf_insertNew rfl rfl⟩
  insert {l l'} _ graph batch n _ inserted := by
    refine ⟨trivial, ?_⟩
    change l.insert graph batch = ⟨.ok n, l'⟩ at inserted
    unfold Ledger.insert at inserted
    cases found : l.graphs.get? graph with
    | none =>
        rw [found] at inserted
        cases inserted
    | some held =>
        rw [found] at inserted
        have before : triplesOf l graph = held := by rw [triplesOf_eq, found, Option.getD_some]
        cases concrete : batch.findSome? Statement.placeholder? with
        | some name =>
            rw [concrete] at inserted
            cases inserted
        | none =>
            rw [concrete] at inserted
            cases inserted
            rw [← before]
            exact Store.appended_singleton ⟨rfl, rfl, fun _ => OrderedMap.contains_insert⟩
              OrderedMap.contains_insert_self (tabled.triplesOf_insert rfl)

end Ledger

/-! ## Digests apart in memory -/

namespace MemoryStore

variable {T : Set Triple}

/-- What is read from a graph is what is kept under its name. -/
theorem statements_eq_ok_iff {m : MemoryStore} {graph : String} {stored : List Statement} :
    GraphStore.statements m graph = .ok stored ↔
      ∃ held, m.graphs.get? graph = some held ∧ held.values = stored := by
  change m.statements graph = .ok stored ↔ _
  rw [MemoryStore.statements]
  cases m.graphs.get? graph with
  | none => simp
  | some held => simp

theorem triplesOf_eq (m : MemoryStore) (graph : String) :
    triplesOf m graph =
      ((m.graphs.get? graph).map fun held => held.values.map Statement.triple).getD [] := by
  have read : GraphStore.statements m graph = m.statements graph := rfl
  rw [triplesOf, read, MemoryStore.statements]
  cases m.graphs.get? graph with
  | none => rfl
  | some held => rfl

theorem tabled : Tabled MemoryStore.graphs fun held => held.values.map Statement.triple :=
  ⟨fun _ _ => rfl, triplesOf_eq⟩

/-- One statement more under its digest is one triple more, unless the triple is there: this is
where digests must be apart. -/
theorem triples_insertNew {held : OrderedMap Digest Statement} (keyed : Store.Keyed held)
    (apart : Set.InjOn Triple.digest T) (within : ∀ t ∈ held.values.map Statement.triple, t ∈ T)
    {x : Statement} (known : x.triple ∈ T) :
    (held.insertNew x.tripleDigest x).values.map Statement.triple =
      Triple.appendNew (held.values.map Statement.triple) x.triple := by
  have digests : held.keys = (held.values.map Statement.triple).map Triple.digest := by
    rw [keyed.keys_eq, List.map_map]
    refine List.map_congr_left fun t _ => ?_
    rw [Function.comp_apply, Statement.tripleDigest_eq]
  have present : x.tripleDigest ∈ held.keys ↔ x.triple ∈ held.values.map Statement.triple := by
    rw [digests, Statement.tripleDigest_eq, List.mem_map]
    constructor
    · intro given
      rcases given with ⟨t, mem, same⟩
      exact apart (within t mem) known same ▸ mem
    · intro mem
      exact ⟨x.triple, mem, rfl⟩
  unfold OrderedMap.insertNew Triple.appendNew
  by_cases mem : x.triple ∈ held.values.map Statement.triple
  · rw [if_pos (OrderedMap.contains_iff_mem.2 (present.2 mem)), if_pos mem]
  · have absent : x.tripleDigest ∉ held.keys := fun key => mem (present.1 key)
    rw [if_neg fun key => absent (OrderedMap.contains_iff_mem.1 key), if_neg mem,
      OrderedMap.values, OrderedMap.entries_insert_of_not_mem x absent, List.map_append,
      List.map_append]
    rfl

theorem triples_unite (apart : Set.InjOn Triple.digest T) (batch : List Statement) :
    ∀ {held : OrderedMap Digest Statement}, Store.Keyed held →
      (∀ t ∈ held.values.map Statement.triple, t ∈ T) → (∀ x ∈ batch, x.triple ∈ T) →
      (Store.unite held batch).values.map Statement.triple =
        (batch.map Statement.triple).foldl Triple.appendNew (held.values.map Statement.triple) := by
  induction batch with
  | nil => intro held _ _ _; rfl
  | cons x rest ih =>
      intro held keyed within known
      obtain ⟨here, known⟩ := List.forall_mem_cons.1 known
      have one := triples_insertNew keyed apart within here
      have within' : ∀ t ∈ (held.insertNew x.tripleDigest x).values.map Statement.triple, t ∈ T := by
        intro t mem
        rw [one, Triple.mem_appendNew] at mem
        exact mem.elim (within t) fun same => same ▸ here
      have more := ih (keyed.insertNew x) within' known
      rw [one] at more
      exact more

/-- Statements under their digests, with triples of `T` only. -/
structure Within (T : Set Triple) (m : MemoryStore) : Prop where
  indexed : m.Indexed
  triples : ∀ graph, ∀ t ∈ triplesOf m graph, t ∈ T

/-- While the digests of `T` are apart, the store in memory appends triples of `T`. -/
theorem appending (apart : Set.InjOn Triple.digest T) : Appending T (Within T) where
  create {m} within graph := by
    have same : ∀ g, triplesOf (m.create graph) g = triplesOf m g :=
      tabled.triplesOf_insertNew rfl rfl
    refine ⟨m.create graph, rfl, ⟨within.indexed.create graph, fun g t mem => ?_⟩,
      ⟨rfl, rfl, fun _ => OrderedMap.contains_insertNew⟩, same⟩
    rw [same] at mem
    exact within.triples g t mem
  insert {m m'} within graph batch n known inserted := by
    change m.insert graph batch = ⟨.ok n, m'⟩ at inserted
    unfold MemoryStore.insert at inserted
    cases found : m.graphs.get? graph with
    | none =>
        rw [found] at inserted
        cases inserted
    | some held =>
        rw [found] at inserted
        cases inserted
        have keyed := within.indexed graph held found
        have before : triplesOf m graph = held.values.map Statement.triple := by
          rw [triplesOf_eq, found]
          rfl
        have after := triples_unite apart batch keyed (before ▸ within.triples graph) known
        have sizes (h : OrderedMap Digest Statement) :
            (h.values.map Statement.triple).length = h.size := by
          rw [List.length_map, OrderedMap.values, List.length_map]
          rfl
        have united : (Store.unite held batch).values.map Statement.triple =
            grown m (graph, batch) := by
          rw [after, grown, before]
        have count : (Store.unite held batch).size - held.size =
            (grown m (graph, batch)).length - (triplesOf m graph).length := by
          rw [← united, before, sizes, sizes]
        have written : (⟨m.graphs.insert graph (Store.unite held batch), m.namespaces,
            m.defaultGraph⟩ : MemoryStore).graphs = m.graphs.insert graph _ := rfl
        have triples := tabled.triplesOf_insert written
        rw [united] at triples
        refine ⟨⟨within.indexed.insert (keyed.unite batch), fun g t mem => ?_⟩, ?_⟩
        · rw [triples] at mem
          split at mem
          · rw [grown, Triple.mem_foldl_appendNew] at mem
            rcases mem with old | new
            · exact within.triples graph t old
            · obtain ⟨x, given, rfl⟩ := List.mem_map.1 new
              exact known x given
          · exact within.triples g t mem
        · rw [count]
          exact Store.appended_singleton ⟨rfl, rfl, fun _ => OrderedMap.contains_insert⟩
            OrderedMap.contains_insert_self triples

end MemoryStore

end RdfStore
