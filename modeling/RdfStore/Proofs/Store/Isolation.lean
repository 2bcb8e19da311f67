import Mathlib.Data.List.Nodup
import RdfStore.Proofs.Store.Addition
import RdfStore.Proofs.Store.Invariant

/-!
# Graphs are isolated from each other

Whatever happens to one graph leaves the others alone, although in a database file all graphs share
one table of quads and one table of values, and removing quads is followed by a collection of
values. `Event.Spares` says of each kind of event when it has nothing to do with a graph, and
`Untouched` what the graph keeps then: it stays registered, it holds the same statements in the same
order, and the graphs that are listed before and after stand in the same relative order.

The argument is made where graphs do lie apart, in a map from their names (`Shelved`): writing under
one name is not seen under another. Additions and deletions are runs of such writes, so what one of
them keeps is an `Invariant`. A database file shows a ledger, and what a ledger keeps it keeps too.

* `Shelved.untouched`, `Shelved.statements_of_sparesAll`: one event and a run of events, for a store
  that keeps its graphs in a map.
* `Storage.untouched_of_spares`, `Storage.statements_of_sparesAll`: the same for both kinds of storage.
-/

namespace RdfStore

open GraphStore

variable {σ τ : Type}

/-! ## Having nothing to do with a graph -/

/-- An event that is not about a graph. Creating graphs never is, and opening a store again is not
either. -/
def Event.Spares [GraphStore σ] (s : σ) (graph : String) : Event → Prop
  | change (.create _) => True
  | change (.drop g) => (namespaces s).extend g ≠ graph
  | change (.add _ statements g) =>
    ∀ t ∈ statements, t.target (namespaces s) g (defaultGraph s) ≠ graph
  | change (.delete pattern g) =>
    ∀ targets, Store.patternTargets s pattern g = .ok targets → graph ∉ targets
  | change (.remove g _) => g ≠ graph
  | insert g _ => g ≠ graph
  | reopen _ _ => True

/-- A run of events none of which is about a graph. -/
def Event.SparesAll [GraphStore σ] (reopened : Namespaces → String → σ → σ) (graph : String) :
    σ → List Event → Prop
  | _, [] => True
  | s, e :: rest => e.Spares s graph ∧ SparesAll reopened graph (e.apply reopened s) rest

/-- What a later store keeps of a graph, and of the order of all graphs. -/
structure Untouched [GraphStore σ] (graph : String) (s s' : σ) : Prop where
  registered : contains s' graph = true
  statements : GraphStore.statements s' graph = GraphStore.statements s graph
  order : (graphs s').filter (fun g => decide (g ∈ graphs s)) =
    (graphs s).filter fun g => decide (g ∈ graphs s')

/-! ## Order -/

section Order

variable {α : Type} [DecidableEq α] {l l' : List α}

theorem filter_mem_of_prefix (nodup : l'.Nodup) (front : l <+: l') :
    (l'.filter fun a => decide (a ∈ l)) = l.filter fun a => decide (a ∈ l') := by
  obtain ⟨new, rfl⟩ := front
  have fresh : ∀ a ∈ new, a ∉ l := fun a here there =>
    (List.nodup_append.1 nodup).2.2 a there a here rfl
  have none : (new.filter fun a => decide (a ∈ l)) = [] := by
    rw [List.filter_eq_nil_iff]
    intro a mem
    rw [decide_eq_true_iff]
    exact fresh a mem
  rw [List.filter_append, none, List.append_nil]
  apply List.filter_congr
  intro a mem
  simp only [mem, List.mem_append, true_or]

theorem filter_mem_filter (p : α → Bool) :
    ((l.filter p).filter fun a => decide (a ∈ l)) = l.filter fun a => decide (a ∈ l.filter p) := by
  rw [List.filter_filter]
  apply List.filter_congr
  intro a mem
  simp only [mem, List.mem_filter, true_and, decide_true, Bool.true_and, Bool.decide_eq_true]

end Order

/-! ## Graphs in a map -/

/-- A store that keeps its graphs in a map from their names, and writes to it under one name at a
time. -/
structure Shelved [GraphStore σ] {β : Type} (table : σ → OrderedMap String β) : Prop where
  graphs : ∀ s, graphs s = (table s).keys
  contains : ∀ s graph, contains s graph = (table s).contains graph
  statements : ∀ {s s' : σ} {graph}, (table s').get? graph = (table s).get? graph →
    statements s' graph = statements s graph
  create : ∀ s graph, ∃ b,
    table (create s graph).store = (table s).insertNew ((namespaces s).extend graph) b
  drop : ∀ s graph, table (drop s graph).store = (table s).erase ((namespaces s).extend graph)
  insert : ∀ s graph batch, table (insert s graph batch).store = table s ∨
    graph ∈ (table s).keys ∧ ∃ b, table (insert s graph batch).store = (table s).insert graph b
  remove : ∀ s graph pattern, table (remove s graph pattern).store = table s ∨
    graph ∈ (table s).keys ∧ ∃ b, table (remove s graph pattern).store = (table s).insert graph b

/-- What a map keeps of a key while other keys are written: the value, and the keys in front. -/
structure OrderedMap.Keeps {β : Type} (a : String) (m m' : OrderedMap String β) : Prop where
  value : m'.get? a = m.get? a
  keys : m.keys <+: m'.keys

namespace OrderedMap.Keeps

variable {β : Type} {a k : String} {b : β} {m m' m'' : OrderedMap String β}

theorem refl (a : String) (m : OrderedMap String β) : Keeps a m m := ⟨rfl, List.prefix_rfl⟩

theorem trans (h : Keeps a m m') (h' : Keeps a m' m'') : Keeps a m m'' :=
  ⟨h'.value.trans h.value, h.keys.trans h'.keys⟩

theorem insert (ne : k ≠ a) : Keeps a m (m.insert k b) := by
  constructor
  · rw [get?_insert, if_neg ne]
  · rw [keys_insert]
    split
    · exact List.prefix_rfl
    · exact List.prefix_append _ _

/-- Adding a key is no write to a key that is there. -/
theorem insertNew (present : a ∈ m.keys) : Keeps a m (m.insertNew k b) := by
  unfold OrderedMap.insertNew
  by_cases known : m.contains k = true
  · rw [if_pos known]
    exact refl a m
  · have ne : k ≠ a := fun same => known (contains_iff_mem.2 (same ▸ present))
    rw [if_neg known]
    exact insert ne

end OrderedMap.Keeps

namespace Shelved

variable [GraphStore σ] {β : Type} {table : σ → OrderedMap String β} {s s' : σ} {graph : String}

/-- A write that is allowed by its graph's name keeps every other graph. -/
theorem keeps_of_write {m m' : OrderedMap String β} {g : String} (ne : g ≠ graph)
    (written : m' = m ∨ g ∈ m.keys ∧ ∃ b, m' = m.insert g b) : OrderedMap.Keeps graph m m' := by
  rcases written with rfl | ⟨-, b, rfl⟩
  · exact .refl graph m'
  · exact .insert ne

/-- All that is written to other graphs keeps a registered graph. -/
theorem invariant (shelved : Shelved table) (present : graph ∈ (table s).keys) :
    Invariant (fun g _ => g ≠ graph) (fun g => g ≠ graph)
      fun s' : σ => OrderedMap.Keeps graph (table s) (table s') where
  create {s'} h g := by
    obtain ⟨b, created⟩ := shelved.create s' g
    rw [created]
    exact h.trans (.insertNew (h.keys.subset present))
  insert {s'} h {g batch} ne := h.trans (keeps_of_write ne (shelved.insert s' g batch))
  remove {s'} h {g} pattern ne := h.trans (keeps_of_write ne (shelved.remove s' g pattern))

theorem untouched_of_keeps (shelved : Shelved table) (present : graph ∈ (table s).keys)
    (kept : OrderedMap.Keeps graph (table s) (table s')) : Untouched graph s s' where
  registered := by
    rw [shelved.contains, OrderedMap.contains_iff_mem]
    exact kept.keys.subset present
  statements := shelved.statements kept.value
  order := by
    rw [shelved.graphs, shelved.graphs]
    exact filter_mem_of_prefix (table s').keys_nodup kept.keys

/-- An event that is not about a registered graph leaves it untouched. -/
theorem untouched (shelved : Shelved table) {reopened : Namespaces → String → σ → σ}
    (again : ∀ ns default s, table (reopened ns default s) = table s)
    (registered : GraphStore.contains s graph = true) {e : Event} (spares : e.Spares s graph) :
    Untouched graph s (e.apply reopened s) := by
  have present : graph ∈ (table s).keys := by
    rw [shelved.contains, OrderedMap.contains_iff_mem] at registered
    exact registered
  have inv := shelved.invariant present
  have here : OrderedMap.Keeps graph (table s) (table s) := .refl graph _
  cases e with
  | insert g batch => exact shelved.untouched_of_keeps present (inv.insert here spares)
  | reopen ns default =>
      have same : OrderedMap.Keeps graph (table s) (table (reopened ns default s)) := by
        rw [again]
        exact here
      exact shelved.untouched_of_keeps present same
  | change c =>
      cases c with
      | create g => exact shelved.untouched_of_keeps present (inv.create here g)
      | remove g pattern => exact shelved.untouched_of_keeps present (inv.remove here pattern spares)
      | add draws statements g =>
          refine shelved.untouched_of_keeps present (inv.add here ?_)
          intro batches made e mem same
          have used : e.1 ∈ batches.keys := List.mem_map_of_mem mem
          rcases (Store.Batches.mem_keys_of_batchesFrom statements made).1 used with old | new
          · cases old
          · obtain ⟨t, given, target⟩ := new
            exact spares t given (target.trans same)
      | delete pattern g =>
          refine shelved.untouched_of_keeps present (inv.delete here ?_)
          intro targets read target mem same
          exact spares targets read (same ▸ mem)
      | drop g =>
          have ne : (namespaces s).extend g ≠ graph := spares
          have dropped := shelved.drop s g
          change Untouched graph s (GraphStore.drop s g).store
          refine ⟨?_, shelved.statements ?_, ?_⟩
          · rw [shelved.contains, dropped, OrderedMap.contains_iff_mem, OrderedMap.keys_erase,
              List.mem_filter]
            exact ⟨present, by simp [Ne.symm ne]⟩
          · rw [dropped, OrderedMap.get?_erase, if_neg ne]
          · rw [shelved.graphs, shelved.graphs, dropped, OrderedMap.keys_erase]
            exact filter_mem_filter _

/-- A run of events none of which is about a registered graph leaves the graph's statements as they
were: by induction, because each event leaves the graph registered. -/
theorem statements_of_sparesAll (shelved : Shelved table) {reopened : Namespaces → String → σ → σ}
    (again : ∀ ns default s, table (reopened ns default s) = table s) (events : List Event) :
    ∀ {s : σ}, GraphStore.contains s graph = true → Event.SparesAll reopened graph s events →
      GraphStore.contains (Event.after reopened s events) graph = true ∧
        GraphStore.statements (Event.after reopened s events) graph =
          GraphStore.statements s graph := by
  induction events with
  | nil => intro s registered _; exact ⟨registered, rfl⟩
  | cons e rest ih =>
      intro s registered spares
      have kept := shelved.untouched again registered spares.1
      obtain ⟨still, same⟩ := ih kept.registered spares.2
      exact ⟨still, same.trans kept.statements⟩

end Shelved

theorem MemoryStore.shelved : Shelved MemoryStore.graphs where
  graphs _ := rfl
  contains _ _ := rfl
  statements {s s' graph} same := by
    change MemoryStore.statements s' graph = MemoryStore.statements s graph
    rw [MemoryStore.statements, MemoryStore.statements, same]
  create _ _ := ⟨_, rfl⟩
  drop _ _ := rfl
  insert s graph batch := by
    change (MemoryStore.insert s graph batch).store.graphs = _ ∨ _ ∧ ∃ b, (MemoryStore.insert s graph batch).store.graphs = _
    unfold MemoryStore.insert
    cases found : s.graphs.get? graph with
    | none => exact Or.inl rfl
    | some held => exact Or.inr ⟨OrderedMap.mem_keys_iff.2 ⟨held, found⟩, _, rfl⟩
  remove s graph pattern := by
    change (MemoryStore.remove s graph pattern).store.graphs = _ ∨ _ ∧ ∃ b, (MemoryStore.remove s graph pattern).store.graphs = _
    unfold MemoryStore.remove
    cases found : s.graphs.get? graph with
    | none => exact Or.inl rfl
    | some held => exact Or.inr ⟨OrderedMap.mem_keys_iff.2 ⟨held, found⟩, _, rfl⟩

theorem Ledger.shelved : Shelved Ledger.graphs where
  graphs _ := rfl
  contains _ _ := rfl
  statements {l l' graph} same := by
    change Ledger.statements l' graph = Ledger.statements l graph
    rw [Ledger.statements, Ledger.statements, same]
  create _ _ := ⟨_, rfl⟩
  drop _ _ := rfl
  insert l graph batch := by
    change (Ledger.insert l graph batch).store.graphs = _ ∨ _ ∧ ∃ b, (Ledger.insert l graph batch).store.graphs = _
    unfold Ledger.insert
    cases found : l.graphs.get? graph with
    | none => exact Or.inl rfl
    | some held =>
        cases batch.findSome? Statement.placeholder? with
        | some name => exact Or.inl rfl
        | none => exact Or.inr ⟨OrderedMap.mem_keys_iff.2 ⟨held, found⟩, _, rfl⟩
  remove l graph pattern := by
    change (Ledger.remove l graph pattern).store.graphs = _ ∨ _ ∧ ∃ b, (Ledger.remove l graph pattern).store.graphs = _
    unfold Ledger.remove
    cases found : l.graphs.get? graph with
    | none => exact Or.inl rfl
    | some held => exact Or.inr ⟨OrderedMap.mem_keys_iff.2 ⟨held, found⟩, _, rfl⟩

/-! ## Seen through a simulation -/

namespace Simulation

variable [GraphStore σ] [GraphStore τ] {rel : σ → τ → Prop} {Admits : String → Statement → Prop}
  {s s' : σ} {t t' : τ} {graph : String}

theorem spares_iff (sim : Simulation rel Admits) (h : rel s t) (e : Event) :
    e.Spares s graph ↔ e.Spares t graph := by
  cases e with
  | insert | reopen => exact Iff.rfl
  | change c =>
      cases c with
      | create | remove => exact Iff.rfl
      | drop g => simp only [Event.Spares, sim.namespaces h]
      | add draws statements g => simp only [Event.Spares, sim.namespaces h, sim.defaultGraph h]
      | delete pattern g => simp only [Event.Spares, sim.patternTargets h]

theorem statements_of_eq (sim : Simulation rel Admits) (h : rel s t) (h' : rel s' t')
    (kept : GraphStore.contains t' graph = true ∧
      GraphStore.statements t' graph = GraphStore.statements t graph) :
    GraphStore.contains s' graph = true ∧
      GraphStore.statements s' graph = GraphStore.statements s graph := by
  rw [sim.contains h', sim.statements h', sim.statements h]
  exact kept

theorem sparesAll_iff {rel : σ → τ → Prop} (sim : Simulation rel fun _ _ => True)
    {f : Namespaces → String → σ → σ} {g : Namespaces → String → τ → τ}
    (reopened : ∀ {s t}, rel s t → ∀ ns default, rel (f ns default s) (g ns default t))
    (events : List Event) :
    ∀ {s : σ} {t : τ}, rel s t →
      (Event.SparesAll f graph s events ↔ Event.SparesAll g graph t events) := by
  induction events with
  | nil => intro s t _; exact Iff.rfl
  | cons e rest ih =>
      intro s t h
      exact and_congr (sim.spares_iff h e) (ih (sim.apply reopened h e))

theorem untouched (sim : Simulation rel Admits) (h : rel s t) (h' : rel s' t')
    (kept : Untouched graph t t') : Untouched graph s s' where
  registered := (sim.contains h' graph).trans kept.registered
  statements := by rw [sim.statements h', sim.statements h, kept.statements]
  order := by
    rw [sim.graphs h, sim.graphs h']
    exact kept.order

end Simulation

/-! ## Both kinds of storage -/

/-- The store in memory with other prefixes and another default graph. -/
def MemoryStore.reopenWith (namespaces : Namespaces) (defaultGraph : String) (s : MemoryStore) :
    MemoryStore :=
  { s with namespaces := namespaces, defaultGraph := defaultGraph }

namespace Storage

/-- A storage with other prefixes and another default graph; a database file is closed and opened
again for it. -/
def reopenWith (namespaces : Namespaces) (defaultGraph : String) : Storage → Storage
  | memory s => memory (s.reopenWith namespaces defaultGraph)
  | durable s => durable (s.reopenWith namespaces defaultGraph)

theorem apply_memory (m : MemoryStore) (e : Event) :
    e.apply reopenWith (memory m) = memory (e.apply MemoryStore.reopenWith m) :=
  simulation_memory.apply (fun h _ _ => h ▸ rfl) rfl e

theorem apply_durable (d : DurableStore) (e : Event) :
    e.apply reopenWith (durable d) = durable (e.apply DurableStore.reopenWith d) :=
  simulation_durable.apply (fun h _ _ => h ▸ rfl) rfl e

theorem Reachable.apply {s : Storage} (reachable : s.Reachable) (e : Event) :
    (e.apply reopenWith s).Reachable := by
  cases s with
  | memory m =>
      rw [apply_memory]
      trivial
  | durable d =>
      rcases reachable with ⟨ns, default, events, rfl⟩
      rw [apply_durable]
      exact ⟨ns, default, events ++ [e], (Event.after_concat _ _ events e).symm⟩

/-- An event that is not about a registered graph leaves it untouched, whether the event succeeds or
fails, and whatever values the graph shares with others. -/
theorem untouched_of_spares {s : Storage} (reachable : s.Reachable) {graph : String}
    (registered : contains s graph = true) {e : Event} (spares : e.Spares s graph) :
    Untouched graph s (e.apply reopenWith s) := by
  cases s with
  | memory m =>
      have again : ∀ ns default m, (MemoryStore.reopenWith ns default m).graphs = m.graphs :=
        fun _ _ _ => rfl
      have kept := MemoryStore.shelved.untouched again registered
        ((simulation_memory.spares_iff rfl e).1 spares)
      exact simulation_memory.untouched rfl (apply_memory m e) kept
  | durable d =>
      rcases reachable with ⟨ns, default, events, rfl⟩
      have shows := DurableStore.Shows.after events (DurableStore.shows_new ns default)
      have sim := DurableStore.simulation
      have there := (sim.contains shows graph).symm.trans registered
      have spares' := (sim.spares_iff shows e).1 ((simulation_durable.spares_iff rfl e).1 spares)
      have again : ∀ ns default l, (Ledger.reopenWith ns default l).graphs = l.graphs :=
        fun _ _ _ => rfl
      have kept := Ledger.shelved.untouched again there spares'
      exact simulation_durable.untouched rfl (apply_durable _ e)
        (sim.untouched shows (shows.apply e) kept)

/-- Two graphs that hold the same statement, one of which is dropped. -/
theorem untouched_sample :
    let t : Statement := ⟨.named "http://a", .named "foaf:knows", .blank "b", none⟩
    let s := durable (Event.after DurableStore.reopenWith (DurableStore.new .standard "urn:d")
      [.insert "http://h" [t], .change (.create "http://g"), .change (.create "http://h"),
        .insert "http://g" [t], .insert "http://h" [t]])
    let e : Event := .change (.drop "http://g")
    s.Reachable ∧ contains s "http://h" = true ∧ e.Spares s "http://h" ∧
      Untouched "http://h" s (e.apply reopenWith s) := by
  intro t s e
  have reachable : s.Reachable := ⟨_, _, _, rfl⟩
  have registered : contains s "http://h" = true := by decide +kernel
  have spares : e.Spares s "http://h" := by
    change (namespaces s).extend "http://g" ≠ "http://h"
    decide +kernel
  exact ⟨reachable, registered, spares, untouched_of_spares reachable registered spares⟩

/-- A run of events that are not about a registered graph, each in the state that it meets, leaves
the graph's statements as they were. -/
theorem statements_of_sparesAll {s : Storage} (reachable : s.Reachable) {graph : String}
    (registered : contains s graph = true) {events : List Event}
    (spares : Event.SparesAll reopenWith graph s events) :
    contains (Event.after reopenWith s events) graph = true ∧
      GraphStore.statements (Event.after reopenWith s events) graph =
        GraphStore.statements s graph := by
  cases s with
  | memory m =>
      have again : ∀ ns default m, (MemoryStore.reopenWith ns default m).graphs = m.graphs :=
        fun _ _ _ => rfl
      have reopened {s : Storage} {m : MemoryStore} (h : s = memory m) (ns : Namespaces)
          (default : String) : s.reopenWith ns default = memory (m.reopenWith ns default) := h ▸ rfl
      have spares' := (simulation_memory.sparesAll_iff reopened events rfl).1 spares
      exact simulation_memory.statements_of_eq rfl (simulation_memory.after reopened events rfl)
        (MemoryStore.shelved.statements_of_sparesAll again events registered spares')
  | durable d =>
      rcases reachable with ⟨ns, default, earlier, rfl⟩
      have shows := DurableStore.Shows.after earlier (DurableStore.shows_new ns default)
      have sim := DurableStore.simulation
      have there := (sim.contains shows graph).symm.trans registered
      have again : ∀ ns default l, (Ledger.reopenWith ns default l).graphs = l.graphs :=
        fun _ _ _ => rfl
      have reopened {s : Storage} {d : DurableStore} (h : s = durable d) (ns : Namespaces)
          (default : String) : s.reopenWith ns default = durable (d.reopenWith ns default) := h ▸ rfl
      have spares' := (simulation_durable.sparesAll_iff reopened events rfl).1 spares
      have spares'' := (sim.sparesAll_iff DurableStore.Shows.reopenWith events shows).1 spares'
      have kept := Ledger.shelved.statements_of_sparesAll again events there spares''
      exact simulation_durable.statements_of_eq rfl (simulation_durable.after reopened events rfl)
        (sim.statements_of_eq shows (shows.after events) kept)

end Storage

end RdfStore
