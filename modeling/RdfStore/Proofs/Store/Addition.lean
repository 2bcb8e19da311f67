import RdfStore.Proofs.Store.Batches
import RdfStore.Proofs.Store.Reachable
import RdfStore.Session

/-!
# Additions are refused as a whole

An addition is checked before anything is written. What it answers is therefore settled by the
statements, their graphs and the registered graphs alone (`Store.refusal?`): the fault of the first
unfit statement, else the first graph that is neither registered nor the default graph, else a
number. The writing that follows goes graph by graph without a way back, so a refusal leaves the
store alone only because writing cannot fail any more.

* `Steady`: creating a graph and inserting concrete statements into a registered graph never fail.
* `Steady.writeBatches`: so writing batches never fails, for any mix of graphs.
* `Storage.add_settled`: the answer of an addition, for both kinds of storage.

The default graph is created under its extended name, so its name must be one that extension leaves
alone; otherwise the last step does fail.
-/

namespace RdfStore

open GraphStore

variable {σ τ : Type}

/-! ## What an addition should answer -/

/-- The fault that checking a statement finds. -/
def Statement.fault? (t : Statement) : Option StatementFault :=
  match t.check with
  | .error fault => some fault
  | .ok () => none

theorem Statement.fault?_eq_none_iff {t : Statement} : t.fault? = none ↔ t.Valid := by
  rw [← check_eq_ok_iff, fault?]
  cases t.check with
  | error fault => simp
  | ok u => simp

/-- The error that an addition owes its caller, if any: the first unfit statement goes before the
first unknown graph, both in order of appearance. -/
def Store.refusal? [GraphStore σ] (s : σ) (statements : List Statement) (graph : Option String) :
    Option Error :=
  match statements.findSome? Statement.fault? with
  | some fault => some (.statement fault)
  | none =>
    let targets := statements.map (Statement.target (namespaces s) graph (defaultGraph s))
    (targets.find? fun g => decide (g ≠ defaultGraph s) && !contains s g).map .graphNotFound

/-! ## Batches keep the order of the targets -/

/-- What was looked at before need not be looked at again. -/
theorem find?_append_cons_of_mem {α : Type} {l : List α} {a : α} (mem : a ∈ l) (p : α → Bool)
    (rest : List α) : (l ++ a :: rest).find? p = (l ++ rest).find? p := by
  rw [List.find?_append, List.find?_append]
  cases found : l.find? p with
  | some b => rfl
  | none =>
      have fails : ¬p a = true := List.find?_eq_none.1 found a mem
      rw [List.find?_cons_of_neg fails]

namespace Store

variable {ns : Namespaces} {default : String} {explicit : Option String} {draws : Draws}

theorem batchesFrom_of_fault {fault : StatementFault} (statements : List Statement) :
    ∀ {batches : Batches} {r : Relabelling}, statements.findSome? Statement.fault? = some fault →
      batchesFrom ns default explicit draws batches r statements = .error (.statement fault) := by
  induction statements with
  | nil => intro _ _ found; cases found
  | cons t rest ih =>
      intro batches r found
      rw [List.findSome?_cons] at found
      unfold batchesFrom
      cases checked : t.check with
      | error e =>
          have here : t.fault? = some e := by rw [Statement.fault?, checked]
          rw [here] at found
          cases found
          rfl
      | ok u =>
          have here : t.fault? = none := by rw [Statement.fault?, checked]
          rw [here] at found
          exact ih found

/-- Looking for a graph among the batches is looking for it among the targets: a batch stands
where its graph is first used. -/
theorem batchesFrom_of_valid (statements : List Statement) :
    ∀ {batches : Batches} {r : Relabelling}, statements.findSome? Statement.fault? = none →
      ∃ result, batchesFrom ns default explicit draws batches r statements = .ok result ∧
        ∀ p, result.keys.find? p =
          (batches.keys ++ statements.map (Statement.target ns explicit default)).find? p := by
  induction statements with
  | nil =>
      intro batches r _
      refine ⟨batches, rfl, fun p => ?_⟩
      rw [List.map_nil, List.append_nil]
  | cons t rest ih =>
      intro batches r none
      rw [List.findSome?_eq_none_iff, List.forall_mem_cons] at none
      have valid : t.check = .ok () :=
        Statement.check_eq_ok_iff.2 (Statement.fault?_eq_none_iff.1 none.1)
      let graph := t.target ns explicit default
      let pushed := batches.push graph (r.normalize ns draws graph t).1
      obtain ⟨result, made, keys⟩ :=
        @ih pushed (r.normalize ns draws graph t).2 (List.findSome?_eq_none_iff.2 none.2)
      refine ⟨result, ?_, fun p => ?_⟩
      · unfold batchesFrom
        rw [valid]
        exact made
      · have pushedKeys : pushed.keys =
            if graph ∈ batches.keys then batches.keys else batches.keys ++ [graph] :=
          OrderedMap.keys_insert _ _ _
        rw [keys, pushedKeys, List.map_cons]
        by_cases known : graph ∈ batches.keys
        · rw [if_pos known, find?_append_cons_of_mem known]
        · rw [if_neg known, List.append_assoc, List.singleton_append]

end Store

/-! ## Writing the batches -/

namespace Store

variable [GraphStore σ] {s : σ}

theorem add_of_batches {draws : Draws} {statements : List Statement} {graph : Option String}
    {batches : Batches}
    (made : batchesFrom (namespaces s) (defaultGraph s) graph draws .empty .empty statements =
      .ok batches)
    (allowed : firstUnknown s batches.keys = none) :
    add s draws statements graph = writeBatches s batches.entries := by
  simp only [add, made, allowed]

theorem writeBatches_singleton (s : σ) (graph : String) (batch : List Statement) :
    writeBatches s [(graph, batch)] = writeBatch s graph batch := by
  unfold writeBatches
  rcases writeBatch s graph batch with ⟨result, s'⟩
  cases result with
  | error e => rfl
  | ok n => rfl

end Store

/-! ## Writing never fails -/

/-- What a later store keeps of an earlier one while batches are written. -/
structure Kept [GraphStore σ] (s s' : σ) : Prop where
  namespaces : namespaces s' = namespaces s
  defaultGraph : defaultGraph s' = defaultGraph s
  contains : ∀ graph, contains s graph = true → contains s' graph = true

/-- A graph that can be written to: it is registered, or it is the default graph under a name that is
in full already, and is created when it is needed. -/
def Ready [GraphStore σ] (s : σ) (graph : String) : Prop :=
  contains s graph = true ∨
    graph = defaultGraph s ∧ (namespaces s).extend (defaultGraph s) = defaultGraph s

namespace Kept

variable [GraphStore σ] {s s' s'' : σ}

theorem refl (s : σ) : Kept s s := ⟨rfl, rfl, fun _ => id⟩

theorem trans (h : Kept s s') (h' : Kept s' s'') : Kept s s'' :=
  ⟨h'.namespaces.trans h.namespaces, h'.defaultGraph.trans h.defaultGraph,
    fun graph there => h'.contains graph (h.contains graph there)⟩

theorem ready (kept : Kept s s') {graph : String} (h : Ready s graph) : Ready s' graph := by
  rw [Ready, kept.namespaces, kept.defaultGraph]
  exact h.imp_left (kept.contains graph)

end Kept

/-- From good states on, creating a graph and inserting concrete statements into a registered graph
succeed and lead to good states. -/
structure Steady [GraphStore σ] (Good : σ → Prop) : Prop where
  create : ∀ {s : σ}, Good s → ∀ graph, ∃ s', create s graph = ⟨.ok (), s'⟩ ∧ Good s' ∧
    Kept s s' ∧ contains s' ((namespaces s).extend graph) = true
  insert : ∀ {s : σ}, Good s → ∀ {graph batch}, contains s graph = true →
    (∀ x ∈ batch, x.placeholder? = none) →
      ∃ n s', insert s graph batch = ⟨.ok n, s'⟩ ∧ Good s' ∧ Kept s s'

namespace Steady

variable [GraphStore σ] {Good : σ → Prop} {s : σ}

/-- One batch for a graph that can be written to. -/
theorem writeBatch (steady : Steady Good) (good : Good s) {graph : String}
    {batch : List Statement} (ready : Ready s graph)
    (concrete : ∀ x ∈ batch, x.placeholder? = none) :
    ∃ n s', Store.writeBatch s graph batch = ⟨.ok n, s'⟩ ∧ Good s' ∧ Kept s s' := by
  unfold Store.writeBatch
  by_cases registered : contains s graph = true
  · rw [if_pos registered]
    exact steady.insert good registered concrete
  · obtain ⟨isDefault, fixed⟩ := ready.resolve_left registered
    obtain ⟨s₁, created, good₁, kept₁, present⟩ := steady.create good graph
    rw [isDefault, fixed, ← isDefault] at present
    obtain ⟨n, s₂, inserted, good₂, kept₂⟩ := steady.insert good₁ present concrete
    refine ⟨n, s₂, ?_, good₂, kept₁.trans kept₂⟩
    rw [if_neg registered, created]
    exact inserted

/-- Batches for graphs that can be written to, in any order: by induction, because each batch keeps
the graphs that the later ones need. -/
theorem writeBatches (steady : Steady Good) (batches : List (String × List Statement)) :
    ∀ {s : σ}, Good s → (∀ e ∈ batches, Ready s e.1) →
      (∀ e ∈ batches, ∀ x ∈ e.2, x.placeholder? = none) →
      ∃ n, (Store.writeBatches s batches).result = .ok n := by
  induction batches with
  | nil => intro s _ _ _; exact ⟨0, rfl⟩
  | cons e rest ih =>
      intro s good ready concrete
      obtain ⟨here, ready⟩ := List.forall_mem_cons.1 ready
      obtain ⟨fit, concrete⟩ := List.forall_mem_cons.1 concrete
      obtain ⟨n, s', written, good', kept⟩ := steady.writeBatch good here fit
      obtain ⟨m, later⟩ := ih good' (fun e' mem => kept.ready (ready e' mem)) concrete
      refine ⟨n + m, ?_⟩
      simp only [Store.writeBatches, written, later]
      rfl

/-- The answer of an addition: the error that it owes, with the store as it was, or a number. -/
theorem add (steady : Steady Good) (good : Good s)
    (fixed : (namespaces s).extend (defaultGraph s) = defaultGraph s) (draws : Draws)
    (statements : List Statement) (graph : Option String) :
    match Store.refusal? s statements graph with
    | some e => Store.add s draws statements graph = ⟨.error e, s⟩
    | none => ∃ n, (Store.add s draws statements graph).result = .ok n := by
  cases faults : statements.findSome? Statement.fault? with
  | some fault =>
      have owed : Store.refusal? s statements graph = some (.statement fault) := by
        rw [Store.refusal?, faults]
      rw [owed]
      simp only [Store.add, Store.batchesFrom_of_fault statements faults]
  | none =>
      obtain ⟨batches, made, keys⟩ :=
        @Store.batchesFrom_of_valid (namespaces s) (defaultGraph s) graph draws statements
          .empty .empty faults
      have owed : Store.refusal? s statements graph =
          (Store.firstUnknown s batches.keys).map .graphNotFound := by
        simp only [Store.refusal?, faults, Store.firstUnknown, keys]
        rfl
      rw [owed]
      cases unknown : Store.firstUnknown s batches.keys with
      | some g => simp only [Store.add, made, unknown, Option.map_some]
      | none =>
          have written := Store.add_of_batches made unknown
          rw [Store.firstUnknown, List.find?_eq_none] at unknown
          have ready : ∀ e ∈ batches.entries, Ready s e.1 := by
            intro e mem
            have passes := unknown e.1 (List.mem_map_of_mem mem)
            simp only [Bool.and_eq_true, decide_eq_true_iff, Bool.not_eq_true', not_and,
              Bool.not_eq_false] at passes
            by_cases isDefault : e.1 = defaultGraph s
            · exact Or.inr ⟨isDefault, fixed⟩
            · exact Or.inl (passes isDefault)
          have concrete : batches.Forall fun _ x => x.placeholder? = none :=
            Store.Batches.forall_of_batchesFrom
              (fun graph r t valid => r.placeholder?_normalize graph valid)
              statements Store.Batches.forall_empty made
          obtain ⟨n, ok⟩ := steady.writeBatches batches.entries good ready concrete
          exact ⟨n, (congrArg Reply.result written).trans ok⟩

end Steady

/-! ## The representations are steady -/

/-- What one side keeps the other keeps. -/
theorem Simulation.kept [GraphStore σ] [GraphStore τ] {rel : σ → τ → Prop}
    {Admits : String → Statement → Prop} (sim : Simulation rel Admits) {s s' : σ} {t t' : τ}
    (h : rel s t) (h' : rel s' t') (k : Kept t t') : Kept s s' where
  namespaces := by rw [sim.namespaces h, sim.namespaces h', k.namespaces]
  defaultGraph := by rw [sim.defaultGraph h, sim.defaultGraph h', k.defaultGraph]
  contains graph there := by
    rw [sim.contains h] at there
    rw [sim.contains h']
    exact k.contains graph there

/-- A store that cannot be told apart from a steady one is steady. -/
theorem Simulation.steady [GraphStore σ] [GraphStore τ] {rel : σ → τ → Prop}
    (sim : Simulation rel fun _ _ => True) {Good : τ → Prop} (steady : Steady Good) :
    Steady fun s => ∃ t, rel s t ∧ Good t := by
  constructor
  · intro s good graph
    rcases good with ⟨t, h, good⟩
    obtain ⟨t', created, good', k, present⟩ := steady.create good graph
    have agree := sim.create h graph
    rcases hs : GraphStore.create s graph with ⟨result, s'⟩
    rw [hs, created] at agree
    obtain ⟨rfl, h'⟩ := agree
    refine ⟨s', rfl, ⟨t', h', good'⟩, sim.kept h h' k, ?_⟩
    rw [sim.namespaces h, sim.contains h']
    exact present
  · intro s good graph batch registered concrete
    rcases good with ⟨t, h, good⟩
    rw [sim.contains h] at registered
    obtain ⟨n, t', inserted, good', k⟩ := steady.insert good registered concrete
    have agree : Reply.Agree rel (GraphStore.insert s graph batch)
        (GraphStore.insert t graph batch) := sim.insert h fun _ _ => trivial
    rcases hs : GraphStore.insert s graph batch with ⟨result, s'⟩
    rw [hs, inserted] at agree
    obtain ⟨rfl, h'⟩ := agree
    exact ⟨n, s', rfl, ⟨t', h', good'⟩, sim.kept h h' k⟩

section Maps

variable {β : Type} {m : OrderedMap String β} {a k : String} {b : β}

theorem OrderedMap.contains_insertNew_self : (m.insertNew a b).contains a = true := by
  rw [contains_iff_mem, keys_insertNew]
  split
  · assumption
  · exact List.mem_append_right _ (List.mem_singleton_self a)

theorem OrderedMap.contains_insertNew (h : m.contains k = true) :
    (m.insertNew a b).contains k = true := by
  rw [contains_iff_mem] at h ⊢
  rw [keys_insertNew]
  split
  · exact h
  · exact List.mem_append_left _ h

theorem OrderedMap.contains_insert_self : (m.insert a b).contains a = true := by
  rw [← isSome_get?, get?_insert, if_pos rfl]
  rfl

theorem OrderedMap.contains_insert (h : m.contains k = true) :
    (m.insert a b).contains k = true := by
  rw [contains_iff_mem] at h ⊢
  rw [keys_insert]
  split
  · exact h
  · exact List.mem_append_left _ h

end Maps

theorem MemoryStore.steady : Steady fun _ : MemoryStore => True where
  create {s} _ graph :=
    ⟨s.create graph, rfl, trivial, ⟨rfl, rfl, fun _ => OrderedMap.contains_insertNew⟩,
      OrderedMap.contains_insertNew_self⟩
  insert {s} _ graph batch registered _ := by
    obtain ⟨held, found⟩ := OrderedMap.mem_keys_iff.1 (OrderedMap.contains_iff_mem.1 registered)
    change ∃ n s', MemoryStore.insert s graph batch = _ ∧ _
    unfold MemoryStore.insert
    rw [found]
    exact ⟨_, _, rfl, trivial, rfl, rfl, fun _ => OrderedMap.contains_insert⟩

theorem Ledger.steady : Steady fun _ : Ledger => True where
  create {l} _ graph :=
    ⟨{ l with graphs := l.graphs.insertNew (l.namespaces.extend graph) [] }, rfl, trivial,
      ⟨rfl, rfl, fun _ => OrderedMap.contains_insertNew⟩, OrderedMap.contains_insertNew_self⟩
  insert {l} _ graph batch registered concrete := by
    obtain ⟨held, found⟩ := OrderedMap.mem_keys_iff.1 (OrderedMap.contains_iff_mem.1 registered)
    change ∃ n l', Ledger.insert l graph batch = _ ∧ _
    unfold Ledger.insert
    rw [found, List.findSome?_eq_none_iff.2 concrete]
    exact ⟨_, _, rfl, trivial, rfl, rfl, fun _ => OrderedMap.contains_insert⟩

/-! ## Both kinds of storage -/

namespace Storage

theorem simulation_memory :
    Simulation (fun s m => s = Storage.memory m) fun _ _ => True where
  namespaces h := h ▸ rfl
  defaultGraph h := h ▸ rfl
  graphs h := h ▸ rfl
  contains h _ := h ▸ rfl
  statements h _ := h ▸ rfl
  create h _ := h ▸ ⟨rfl, rfl⟩
  drop h _ := h ▸ ⟨rfl, rfl⟩
  insert h _ _ _ := h ▸ ⟨rfl, rfl⟩
  remove h _ _ := h ▸ ⟨rfl, rfl⟩

theorem simulation_durable :
    Simulation (fun s d => s = Storage.durable d) fun _ _ => True where
  namespaces h := h ▸ rfl
  defaultGraph h := h ▸ rfl
  graphs h := h ▸ rfl
  contains h _ := h ▸ rfl
  statements h _ := h ▸ rfl
  create h _ := h ▸ ⟨rfl, rfl⟩
  drop h _ := h ▸ ⟨rfl, rfl⟩
  insert h _ _ _ := h ▸ ⟨rfl, rfl⟩
  remove h _ _ := h ▸ ⟨rfl, rfl⟩

/-- A store in memory in any state, or a store in a database file in a state that some history leads
to from a new file. -/
def Reachable : Storage → Prop
  | memory _ => True
  | durable s => ∃ ns default events,
      s = Event.after DurableStore.reopenWith (DurableStore.new ns default) events

/-- Adding statements to a store in memory or to one in a database file answers the error that it
owes, and then the store is as it was, or else a number. -/
theorem add_settled {s : Storage} (reachable : s.Reachable)
    (fixed : (namespaces s).extend (defaultGraph s) = defaultGraph s) (draws : Draws)
    (statements : List Statement) (graph : Option String) :
    match Store.refusal? s statements graph with
    | some e => Store.add s draws statements graph = ⟨.error e, s⟩
    | none => ∃ n, (Store.add s draws statements graph).result = .ok n := by
  cases s with
  | memory m =>
      have steady := simulation_memory.steady MemoryStore.steady
      exact steady.add ⟨m, rfl, trivial⟩ fixed draws statements graph
  | durable d =>
      rcases reachable with ⟨ns, default, events, rfl⟩
      have steady := simulation_durable.steady (DurableStore.simulation.steady Ledger.steady)
      have shows := DurableStore.Shows.after events (DurableStore.shows_new ns default)
      exact steady.add ⟨_, rfl, _, shows, trivial⟩ fixed draws statements graph

/-- One batch for the absent default graph, one for a registered graph and one for an unknown graph:
nothing is created and nothing is written. -/
theorem add_settled_sample :
    let s := durable (Event.after DurableStore.reopenWith (DurableStore.new .standard "http://d")
      [.change (.create "http://g"), .reopen .standard "urn:d"])
    let t : Statement := ⟨.blank "b", .named "foaf:name", .literal ⟨"x", none, none⟩, none⟩
    let batch := [t, { t with graph := some (.named "http://g") },
      { t with graph := some (.named "foaf:h") }]
    s.Reachable ∧ (namespaces s).extend (defaultGraph s) = defaultGraph s ∧
      Store.add s (fun _ => 7#128) batch none =
        ⟨.error (.graphNotFound "http://xmlns.com/foaf/0.1/h"), s⟩ := by
  intro s t batch
  have reachable : s.Reachable := ⟨_, _, _, rfl⟩
  have fixed : (namespaces s).extend (defaultGraph s) = defaultGraph s := by decide +kernel
  have settled := add_settled reachable fixed (fun _ => 7#128) batch none
  have owed : Store.refusal? s batch none =
      some (.graphNotFound "http://xmlns.com/foaf/0.1/h") := by decide +kernel
  rw [owed] at settled
  exact ⟨reachable, fixed, settled⟩

end Storage

end RdfStore
