import RdfStore.Proofs.Query.Plan
import RdfStore.Proofs.Store.Union

/-!
# Queries are monotone

A store that has grown (`Store.Grown`) registers every graph that it registered before and holds in
it every triple that it held before, whatever else it holds, in whatever order. A query that
succeeds before succeeds afterwards, and no row is lost (`Storage.rows_of_grown`): no matcher looks
for the absence of a triple or for its place.

Creating graphs and adding statements make a store grow, whether they succeed or fail; dropping
graphs and deleting statements make it grow the other way round (`Growing.adds`, `Growing.deletes`).
-/

namespace RdfStore

open GraphStore

variable {σ τ : Type}

/-! ## Growing -/

namespace Store

/-- A later store has all graphs and triples of an earlier one. -/
structure Grown [GraphStore σ] (s s' : σ) : Prop extends Kept s s' where
  held : ∀ graph, GraphStore.contains s graph = true → triplesOf s graph ⊆ triplesOf s' graph

namespace Grown

variable [GraphStore σ] {s s' s'' : σ}

theorem refl (s : σ) : Grown s s := ⟨.refl s, fun _ _ => List.Subset.refl _⟩

theorem trans (h : Grown s s') (h' : Grown s' s'') : Grown s s'' where
  toKept := h.toKept.trans h'.toKept
  held graph there :=
    List.Subset.trans (h.held graph there) (h'.held graph (h.contains graph there))

/-- All that is stored before is stored afterwards, and in the same graph. -/
theorem triplesOf_subset (h : Grown s s') (readable : Readable s) (graph : String) :
    triplesOf s graph ⊆ triplesOf s' graph := by
  cases there : contains s graph with
  | true => exact h.held graph there
  | false =>
      rw [triplesOf_eq_map, readable.listed_eq_nil there]
      exact List.nil_subset _

theorem triples_subset (h : Grown s s') (readable : Readable s) (readable' : Readable s') :
    triples s ⊆ triples s' := by
  intro t mem
  obtain ⟨graph, -, here⟩ := List.mem_flatMap.1 mem
  exact readable'.triplesOf_subset graph (h.triplesOf_subset readable graph here)

end Grown

/-! ## Rows -/

section

variable [GraphStore σ] {s s' : σ}

/-- A query that succeeds succeeds after the store has grown, and gives every row at least as
often. -/
theorem query_of_grown (grown : Grown s s') (readable : Readable s) (readable' : Readable s')
    (apart : Triple.Apart (triples s')) (texts : Triple.TextsApart (triples s')) {text : String}
    {solutions : Query.Solutions} (answered : query s text none = .ok solutions) :
    ∃ solutions', query s' text none = .ok solutions' ∧
      solutions'.selected = solutions.selected ∧
      List.Subperm solutions.rows solutions'.rows := by
  have stored := grown.triples_subset readable readable'
  have earlier : Triple.Apart (triples s) :=
    fun t here u there => apart t (stored here) u (stored there)
  cases prepared : Query.Plan.prepare text (namespaces s) (defaultGraph s) with
  | error fault =>
      rw [query, prepared] at answered
      cases answered
  | ok plan =>
      have prepared' := prepared
      rw [← grown.namespaces, ← grown.defaultGraph] at prepared'
      rw [query_eq readable prepared] at answered
      rw [query_eq readable' prepared']
      cases unknown : firstUnknown s plan.graphs with
      | some graph =>
          rw [unknown] at answered
          cases answered
      | none =>
          rw [unknown] at answered
          cases answered
          have known : firstUnknown s' plan.graphs = none := by
            rw [firstUnknown_eq_none_iff] at unknown ⊢
            intro graph mem
            rw [grown.defaultGraph]
            exact (unknown graph mem).imp_left (grown.contains graph)
          rw [known]
          refine ⟨_, rfl, rfl, ?_⟩
          refine Query.Plan.rowsOver_subperm (Query.Plan.names_nodup prepared)
            (unionTriples_nodup s plan.graphs) ?_ ?_
          · intro t mem
            rw [mem_unionTriples readable earlier] at mem
            rw [mem_unionTriples readable' apart]
            obtain ⟨graph, target, here⟩ := mem
            exact ⟨graph, target, grown.triplesOf_subset readable graph here⟩
          · have within : unionTriples s' plan.graphs ⊆ triples s' := by
              intro t mem
              obtain ⟨graph, -, here⟩ := (mem_unionTriples readable' apart).1 mem
              exact readable'.triplesOf_subset graph here
            exact fun t here u there => texts t (within here) u (within there)

end

end Store

open Store

/-! ## Changes -/

/-- A change that creates a graph or adds statements. -/
def Change.Adds : Change → Prop
  | create _ | add _ _ _ => True
  | drop _ | delete _ _ | remove _ _ => False

/-- A change that drops a graph or deletes statements. -/
def Change.Deletes : Change → Prop
  | create _ | add _ _ _ => False
  | drop _ | delete _ _ | remove _ _ => True

/-- Creation and insertion make a store grow, dropping and removal make it grow the other way
round. -/
structure Growing (σ : Type) [GraphStore σ] : Prop where
  create : ∀ (s : σ) graph, Grown s (create s graph).store
  insert : ∀ (s : σ) graph batch, Grown s (insert s graph batch).store
  drop : ∀ (s : σ) graph, Grown (drop s graph).store s
  remove : ∀ (s : σ) graph pattern, Grown (remove s graph pattern).store s

namespace Growing

variable [GraphStore σ]

theorem removeFrom (growing : Growing σ) (pattern : Statement) (graphs : List String) :
    ∀ s : σ, Grown (Store.removeFrom pattern s graphs).store s := by
  induction graphs with
  | nil => exact .refl
  | cons graph rest ih =>
      intro s
      have removed := growing.remove s graph pattern
      simp only [Store.removeFrom]
      rcases made : GraphStore.remove s graph pattern with ⟨result, s'⟩
      rw [made] at removed
      cases result with
      | error e => exact removed
      | ok count => exact (ih s').trans removed

/-- All that was stored before stays so while only creations and insertions follow. -/
theorem invariant (growing : Growing σ) (s : σ) :
    Invariant (fun _ _ => True) (fun _ => False) fun s' : σ => Grown s s' where
  create {s'} h graph := h.trans (growing.create s' graph)
  insert {s'} h {graph batch} _ := h.trans (growing.insert s' graph batch)
  remove _ _ _ impossible := impossible.elim

theorem adds (growing : Growing σ) (s : σ) {c : Change} (adds : c.Adds) :
    Grown s (c.run s).store := by
  cases c with
  | create graph => exact growing.create s graph
  | add draws statements graph =>
      exact (growing.invariant s).add (.refl s) fun _ _ _ _ => trivial
  | drop | delete | remove => exact adds.elim

theorem deletes (growing : Growing σ) (s : σ) {c : Change} (deletes : c.Deletes) :
    Grown (c.run s).store s := by
  cases c with
  | create | add => exact deletes.elim
  | drop graph => exact growing.drop s graph
  | remove graph pattern => exact growing.remove s graph pattern
  | delete pattern graph =>
      change Grown (Store.delete s pattern graph).store s
      unfold Store.delete
      split
      · exact .refl s
      · exact growing.removeFrom _ _ s

end Growing

/-! ## Graphs in a map -/

/-- Under each key of a map, another map has a value from which at least the same triples are
read. -/
def OrderedMap.Covered {β : Type} (read : β → List Triple) (m m' : OrderedMap String β) : Prop :=
  ∀ k b, m.get? k = some b → ∃ b', m'.get? k = some b' ∧ read b ⊆ read b'

namespace OrderedMap.Covered

variable {β : Type} {read : β → List Triple} {m : OrderedMap String β} {k : String} {b c : β}

theorem insertNew (read : β → List Triple) (m : OrderedMap String β) (k : String) (b : β) :
    Covered read m (m.insertNew k b) := by
  intro k' b' found
  refine ⟨b', ?_, List.Subset.refl _⟩
  rw [get?_insertNew]
  split
  · rename_i same
    rw [same, found, Option.getD_some]
  · exact found

theorem erase (read : β → List Triple) (m : OrderedMap String β) (k : String) :
    Covered read (m.erase k) m := by
  intro k' b' found
  rw [get?_erase] at found
  split at found
  · cases found
  · exact ⟨b', found, List.Subset.refl _⟩

/-- Writing a value with more triples under a known key. -/
theorem insert (old : m.get? k = some b) (more : read b ⊆ read c) :
    Covered read m (m.insert k c) := by
  intro k' b' found
  rw [get?_insert]
  split
  · rename_i same
    rw [← same, old] at found
    cases found
    exact ⟨c, rfl, more⟩
  · exact ⟨b', found, List.Subset.refl _⟩

/-- Writing a value with fewer triples under a known key. -/
theorem of_insert (old : m.get? k = some b) (fewer : read c ⊆ read b) :
    Covered read (m.insert k c) m := by
  intro k' b' found
  rw [get?_insert] at found
  split at found
  · rename_i same
    cases found
    exact ⟨b, same ▸ old, fewer⟩
  · exact ⟨b', found, List.Subset.refl _⟩

end OrderedMap.Covered

/-- A store that keeps its graphs in a map grows with the map. -/
theorem Tabled.grown [GraphStore σ] {β : Type} {table : σ → OrderedMap String β}
    {read : β → List Triple} (tabled : Tabled table read) {s s' : σ}
    (namespaces : namespaces s' = namespaces s) (defaultGraph : defaultGraph s' = defaultGraph s)
    (covered : OrderedMap.Covered read (table s) (table s')) : Grown s s' := by
  have present : ∀ {graph}, GraphStore.contains s graph = true →
      ∃ b, (table s).get? graph = some b := by
    intro graph there
    rw [tabled.contains, OrderedMap.contains_iff_mem] at there
    exact OrderedMap.mem_keys_iff.1 there
  refine ⟨⟨namespaces, defaultGraph, fun graph there => ?_⟩, fun graph there => ?_⟩
  · obtain ⟨b, found⟩ := present there
    obtain ⟨b', found', -⟩ := covered graph b found
    rw [tabled.contains, OrderedMap.contains_iff_mem]
    exact OrderedMap.mem_keys_iff.2 ⟨b', found'⟩
  · obtain ⟨b, found⟩ := present there
    obtain ⟨b', found', more⟩ := covered graph b found
    rw [tabled.triples, tabled.triples, found, found']
    exact more

theorem MemoryStore.growing : Growing MemoryStore where
  create s graph := tabled.grown rfl rfl (.insertNew _ s.graphs (s.namespaces.extend graph) .empty)
  insert s graph batch := by
    change Grown s (s.insert graph batch).store
    unfold MemoryStore.insert
    cases found : s.graphs.get? graph with
    | none => exact .refl s
    | some held =>
        have more := List.map_subset Statement.triple (values_prefix_unite batch held).subset
        exact tabled.grown rfl rfl (.insert found more)
  drop s graph := tabled.grown rfl rfl (.erase _ s.graphs (s.namespaces.extend graph))
  remove s graph pattern := by
    change Grown (s.remove graph pattern).store s
    unfold MemoryStore.remove
    cases found : s.graphs.get? graph with
    | none => exact .refl s
    | some held =>
        have fewer : (held.filter fun _ t => !t.fits pattern).values ⊆ held.values :=
          List.map_subset Prod.snd (List.filter_subset_self _)
        exact tabled.grown rfl rfl (.of_insert found (List.map_subset Statement.triple fewer))

theorem Ledger.growing : Growing Ledger where
  create l graph := tabled.grown rfl rfl (.insertNew _ l.graphs (l.namespaces.extend graph) [])
  insert l graph batch := by
    change Grown l (l.insert graph batch).store
    unfold Ledger.insert
    cases found : l.graphs.get? graph with
    | none => exact .refl l
    | some held =>
        cases batch.findSome? Statement.placeholder? with
        | some name => exact .refl l
        | none =>
            have more : held ⊆ (batch.map Statement.triple).foldl Triple.appendNew held :=
              fun t mem => (Triple.mem_foldl_appendNew _ held).2 (Or.inl mem)
            exact tabled.grown rfl rfl (.insert found more)
  drop l graph := tabled.grown rfl rfl (.erase _ l.graphs (l.namespaces.extend graph))
  remove l graph pattern := by
    change Grown (l.remove graph pattern).store l
    unfold Ledger.remove
    cases found : l.graphs.get? graph with
    | none => exact .refl l
    | some held => exact tabled.grown rfl rfl (.of_insert found (List.filter_subset_self _))

/-! ## Both kinds of storage -/

theorem Simulation.grown [GraphStore σ] [GraphStore τ] {rel : σ → τ → Prop}
    {Admits : String → Statement → Prop} (sim : Simulation rel Admits) {s s' : σ} {t t' : τ}
    (h : rel s t) (h' : rel s' t') (grown : Grown t t') : Grown s s' where
  toKept := sim.kept h h' grown.toKept
  held graph there := by
    rw [sim.contains h] at there
    rw [sim.triplesOf h, sim.triplesOf h']
    exact grown.held graph there

namespace Storage

theorem Reachable.grown {s : Storage} (reachable : s.Reachable) (c : Change) :
    (c.Adds → Grown s (c.run s).store) ∧ (c.Deletes → Grown (c.run s).store s) := by
  have admitted (ns : Namespaces) (default : String) :=
    c.admitted_of_forall (fun _ _ => trivial) ns default
  cases s with
  | memory m =>
      have sim := simulation_memory
      have after := (sim.change (s := memory m) (t := m) rfl (admitted _ _)).store
      exact ⟨fun adds => sim.grown rfl after (MemoryStore.growing.adds m adds),
        fun deletes => sim.grown after rfl (MemoryStore.growing.deletes m deletes)⟩
  | durable d =>
      rcases reachable with ⟨ns, default, events, shown⟩
      have shows := DurableStore.Shows.after events (DurableStore.shows_new ns default)
      rw [← shown] at shows
      have ledger := DurableStore.simulation
      have sim := simulation_durable
      have below := (ledger.change shows (admitted _ _)).store
      have after := (sim.change (s := durable d) (t := d) rfl (admitted _ _)).store
      exact ⟨fun adds => sim.grown rfl after (ledger.grown shows below (Ledger.growing.adds _ adds)),
        fun deletes =>
          sim.grown after rfl (ledger.grown below shows (Ledger.growing.deletes _ deletes))⟩

/-- A query that succeeds succeeds in every storage that has grown from this one, and gives every row
at least as often. A storage grows by creating graphs and adding statements, and it has grown from
what is left after graphs are dropped and statements deleted. -/
theorem rows_of_grown {s : Storage} (reachable : s.Reachable) :
    (∀ {s' : Storage}, s'.Reachable → Grown s s' → Triple.Apart (triples s') →
      Triple.TextsApart (triples s') → ∀ {text : String} {solutions : Query.Solutions},
        Store.query s text none = .ok solutions →
        ∃ solutions', Store.query s' text none = .ok solutions' ∧
          solutions'.selected = solutions.selected ∧
          List.Subperm solutions.rows solutions'.rows) ∧
    ∀ c : Change, (c.Adds → Grown s (c.run s).store) ∧ (c.Deletes → Grown (c.run s).store s) :=
  ⟨fun reachable' grown apart texts _ _ answered =>
      query_of_grown grown reachable.readable reachable'.readable apart texts answered,
    reachable.grown⟩

/-- A query with two patterns over two graphs, before and after an addition to the first. One of the
added triples is in the second already. -/
theorem rows_of_grown_sample :
    let t : Statement := ⟨.named "a", .named "p", .literal ⟨"x", none, none⟩, none⟩
    let u : Statement := ⟨.named "a", .named "q", .named "b", none⟩
    let v : Statement := ⟨.named "a", .named "r", .named "b", none⟩
    let s := durable (Event.after DurableStore.reopenWith (DurableStore.new .empty "d")
      [.change (.add (fun _ => 0) [t, u] none), .change (.create "g")])
    let c : Change := .add (fun _ => 0) [u, v] (some "g")
    let s' := (c.run s).store
    let text := "SELECT * FROM <g> FROM <d> \x7b ?s ?p ?o . ?s <q> <b> \x7d"
    s.Reachable ∧ s'.Reachable ∧ Grown s s' ∧ Triple.Apart (triples s') ∧
      Triple.TextsApart (triples s') ∧
      ∃ solutions solutions', Store.query s text none = .ok solutions ∧
        Store.query s' text none = .ok solutions' ∧ solutions.rows.length = 2 ∧
        List.Subperm solutions.rows solutions'.rows := by
  intro t u v s c s' text
  have reachable : s.Reachable := ⟨_, _, _, rfl⟩
  have reachable' : s'.Reachable := reachable.apply (.change c)
  have apart : Triple.Apart (triples s') := by decide +kernel
  have texts : Triple.TextsApart (triples s') := by decide +kernel
  have read : Query.parse text = .ok
      { graphs := ["g", "d"],
        patterns := [⟨.variable "s", .variable "p", .variable "o"⟩,
          ⟨.variable "s", .uri "q", .uri "b"⟩] } := by cbv
  let plan : Query.Plan :=
    ⟨.empty, .constrained "s" "p" "o" ⟨"q", .uri "b"⟩, ["s", "p", "o"], none, ["g", "d"], false⟩
  have prepared : Query.Plan.prepare text (namespaces s) (defaultGraph s) = .ok plan := by
    have prefixes : namespaces s = .empty := Namespaces.ext (by decide +kernel)
    have default : defaultGraph s = "d" := by decide +kernel
    rw [prefixes, default, Query.Plan.prepare, read]
    rfl
  have known : firstUnknown s plan.graphs = none := by decide +kernel
  obtain ⟨solutions, solved⟩ : ∃ solutions : Query.Solutions,
      solutions = ⟨plan.selected, plan.rowsOver (unionTriples s plan.graphs)⟩ := ⟨_, rfl⟩
  have answered : Store.query s text none = .ok solutions := by
    rw [query_eq reachable.readable prepared, known, solved]
  have two : solutions.rows.length = 2 := by
    rw [solved]
    decide +kernel
  obtain ⟨rows, changes⟩ := rows_of_grown reachable
  have grown : Grown s s' := (changes c).1 trivial
  obtain ⟨solutions', answered', -, more⟩ := rows reachable' grown apart texts answered
  exact ⟨reachable, reachable', grown, apart, texts, solutions, solutions', answered, answered', two,
    more⟩

end Storage

end RdfStore
