import RdfStore.Proofs.Store.History

/-!
# Simulations between representations

A relation between the states of two representations is a `Simulation` when every primitive
answers alike on related stores and leaves related stores behind. The operations that callers use
are built from the primitives once for all representations, so they then agree as well, and with
them every history.

Insertion may be restricted to statements that the relation `Admits` for a graph. Additions only
insert normal forms, so it is enough to know that every normal form of a history is admitted.

* `Simulation.add`, `Simulation.delete`, `Simulation.query`: the composed operations agree.
* `Simulation.change`, `Simulation.ask`: one step of a history.
* `Simulation.replay`: whole histories give the same answers.
* `Simulation.through`: two simulations of one representation make a simulation between the two.
-/

namespace RdfStore

open GraphStore

variable {σ τ : Type}

/-- Two replies agree: the same result, and related stores afterwards. -/
structure Reply.Agree {α : Type} (rel : σ → τ → Prop) (r : Reply σ α) (q : Reply τ α) : Prop where
  result : r.result = q.result
  store : rel r.store q.store

theorem Reply.Agree.map {α β : Type} {rel : σ → τ → Prop} {r : Reply σ α} {q : Reply τ α}
    (f : α → β) (h : r.Agree rel q) : (r.map f).Agree rel (q.map f) :=
  ⟨congrArg (Except.map f) h.result, h.store⟩

/-- Related stores cannot be told apart by the primitives, which keep them related. -/
structure Simulation [GraphStore σ] [GraphStore τ] (rel : σ → τ → Prop)
    (Admits : String → Statement → Prop) : Prop where
  namespaces : ∀ {s t}, rel s t → namespaces s = namespaces t
  defaultGraph : ∀ {s t}, rel s t → defaultGraph s = defaultGraph t
  graphs : ∀ {s t}, rel s t → graphs s = graphs t
  contains : ∀ {s t}, rel s t → ∀ graph, contains s graph = contains t graph
  statements : ∀ {s t}, rel s t → ∀ graph, statements s graph = statements t graph
  create : ∀ {s t}, rel s t → ∀ graph, (create s graph).Agree rel (create t graph)
  drop : ∀ {s t}, rel s t → ∀ graph, (drop s graph).Agree rel (drop t graph)
  insert : ∀ {s t}, rel s t → ∀ {graph batch}, (∀ x ∈ batch, Admits graph x) →
    (insert s graph batch).Agree rel (insert t graph batch)
  remove : ∀ {s t}, rel s t → ∀ graph pattern,
    (remove s graph pattern).Agree rel (remove t graph pattern)

namespace Simulation

variable [GraphStore σ] [GraphStore τ] {rel : σ → τ → Prop} {Admits : String → Statement → Prop}
  {s : σ} {t : τ}

/-! ## Adding -/

theorem firstUnknown (sim : Simulation rel Admits) (h : rel s t) (graphs : List String) :
    Store.firstUnknown s graphs = Store.firstUnknown t graphs := by
  unfold Store.firstUnknown
  rw [sim.defaultGraph h]
  congr 1
  funext graph
  rw [sim.contains h]

theorem writeBatch (sim : Simulation rel Admits) (h : rel s t) {graph : String}
    {batch : List Statement} (admitted : ∀ x ∈ batch, Admits graph x) :
    (Store.writeBatch s graph batch).Agree rel (Store.writeBatch t graph batch) := by
  unfold Store.writeBatch
  rw [sim.contains h]
  split
  · exact sim.insert h admitted
  · have created := sim.create h graph
    rcases hs : GraphStore.create s graph with ⟨result, s'⟩
    rcases ht : GraphStore.create t graph with ⟨result', t'⟩
    rw [hs, ht] at created
    obtain ⟨rfl, h'⟩ := created
    cases result with
    | error e => exact ⟨rfl, h'⟩
    | ok u => exact sim.insert h' admitted

theorem writeBatches (sim : Simulation rel Admits) (batches : List (String × List Statement)) :
    ∀ {s : σ} {t : τ}, rel s t → (∀ e ∈ batches, ∀ x ∈ e.2, Admits e.1 x) →
      (Store.writeBatches s batches).Agree rel (Store.writeBatches t batches) := by
  induction batches with
  | nil => intro s t h _; exact ⟨rfl, h⟩
  | cons e rest ih =>
      intro s t h admitted
      have written := sim.writeBatch h (admitted e List.mem_cons_self)
      simp only [Store.writeBatches]
      rcases hs : Store.writeBatch s e.1 e.2 with ⟨result, s'⟩
      rcases ht : Store.writeBatch t e.1 e.2 with ⟨result', t'⟩
      rw [hs, ht] at written
      obtain ⟨rfl, h'⟩ := written
      cases result with
      | error e => exact ⟨rfl, h'⟩
      | ok count =>
          have later := ih h' fun e mem => admitted e (List.mem_cons_of_mem _ mem)
          exact ⟨congrArg (Except.map (count + ·)) later.result, later.store⟩

/-- Adding agrees if every batch that the statements make is admitted. -/
theorem add (sim : Simulation rel Admits) (h : rel s t) {draws : Draws}
    {statements : List Statement} {graph : Option String}
    (admitted : ∀ batches,
      Store.batchesFrom (GraphStore.namespaces t) (GraphStore.defaultGraph t) graph draws .empty
        .empty statements = .ok batches →
      ∀ e ∈ batches.entries, ∀ x ∈ e.2, Admits e.1 x) :
    (Store.add s draws statements graph).Agree rel (Store.add t draws statements graph) := by
  unfold Store.add
  rw [sim.namespaces h, sim.defaultGraph h]
  split
  · exact ⟨rfl, h⟩
  · rename_i batches read
    rw [sim.firstUnknown h]
    split
    · exact ⟨rfl, h⟩
    · exact sim.writeBatches batches.entries h (admitted batches read)

/-! ## Patterns -/

theorem patternTargets (sim : Simulation rel Admits) (h : rel s t) (pattern : Statement)
    (graph : Option String) :
    Store.patternTargets s pattern graph = Store.patternTargets t pattern graph := by
  unfold Store.patternTargets Store.patternGraph
  simp only [sim.namespaces h, sim.defaultGraph h, sim.graphs h, sim.contains h]

theorem removeFrom (sim : Simulation rel Admits) (pattern : Statement) (graphs : List String) :
    ∀ {s : σ} {t : τ}, rel s t →
      (Store.removeFrom pattern s graphs).Agree rel (Store.removeFrom pattern t graphs) := by
  induction graphs with
  | nil => intro s t h; exact ⟨rfl, h⟩
  | cons graph rest ih =>
      intro s t h
      have removed := sim.remove h graph pattern
      simp only [Store.removeFrom]
      rcases hs : GraphStore.remove s graph pattern with ⟨result, s'⟩
      rcases ht : GraphStore.remove t graph pattern with ⟨result', t'⟩
      rw [hs, ht] at removed
      obtain ⟨rfl, h'⟩ := removed
      cases result with
      | error e => exact ⟨rfl, h'⟩
      | ok count =>
          have later := ih h'
          exact ⟨congrArg (Except.map (count + ·)) later.result, later.store⟩

theorem delete (sim : Simulation rel Admits) (h : rel s t) (pattern : Statement)
    (graph : Option String) :
    (Store.delete s pattern graph).Agree rel (Store.delete t pattern graph) := by
  unfold Store.delete
  rw [sim.patternTargets h, sim.namespaces h]
  split
  · exact ⟨rfl, h⟩
  · exact sim.removeFrom _ _ h

/-! ## Reading -/

theorem count (sim : Simulation rel Admits) (h : rel s t) (graph : Option String) :
    Store.count s graph = Store.count t graph := by
  unfold Store.count
  simp only [sim.namespaces h, sim.defaultGraph h, sim.contains h, sim.statements h]

theorem unionOf (sim : Simulation rel Admits) (h : rel s t) (graphs : List String) :
    ∀ known, Store.unionOf s known graphs = Store.unionOf t known graphs := by
  induction graphs with
  | nil => intro known; rfl
  | cons graph rest ih =>
      intro known
      simp only [Store.unionOf, sim.contains h, sim.statements h, sim.defaultGraph h, ih]

theorem query (sim : Simulation rel Admits) (h : rel s t) (text : String) (limit : Option Nat) :
    Store.query s text limit = Store.query t text limit := by
  unfold Store.query
  simp only [sim.namespaces h, sim.defaultGraph h, sim.unionOf h]

/-! ## Histories -/

/-- Related stores answer every question alike. -/
theorem ask (sim : Simulation rel Admits) (h : rel s t) (q : Question) : q.ask s = q.ask t := by
  cases q with
  | graphs => simp only [Question.ask, sim.graphs h]
  | contains graph => simp only [Question.ask, sim.contains h]
  | statements graph => simp only [Question.ask, sim.statements h]
  | count graph => simp only [Question.ask, sim.count h]
  | targets pattern graph => simp only [Question.ask, sim.patternTargets h]
  | query text limit => simp only [Question.ask, sim.query h]

end Simulation

/-- Every normal form that a change hands to a store is admitted for its graph. -/
def Change.Admitted (Admits : String → Statement → Prop) (namespaces : Namespaces)
    (defaultGraph : String) : Change → Prop
  | add draws statements graph =>
    ∀ batches, Store.batchesFrom namespaces defaultGraph graph draws .empty .empty statements
        = .ok batches →
      ∀ e ∈ batches.entries, ∀ x ∈ e.2, Admits e.1 x
  | _ => True

theorem Change.admitted_of_forall {Admits : String → Statement → Prop}
    (all : ∀ graph x, Admits graph x) (namespaces : Namespaces) (defaultGraph : String)
    (c : Change) : c.Admitted Admits namespaces defaultGraph := by
  cases c with
  | add draws statements graph => exact fun _ _ e _ x _ => all e.1 x
  | create | drop | delete | remove => trivial

namespace Simulation

variable [GraphStore σ] [GraphStore τ] {rel : σ → τ → Prop} {Admits : String → Statement → Prop}
  {s : σ} {t : τ}

/-- Related stores reply alike to every admitted change, and stay related. -/
theorem change (sim : Simulation rel Admits) (h : rel s t) {c : Change}
    (admitted : c.Admitted Admits (GraphStore.namespaces t) (GraphStore.defaultGraph t)) :
    (c.run s).Agree rel (c.run t) := by
  cases c with
  | create graph => exact (sim.create h graph).map _
  | drop graph => exact (sim.drop h graph).map _
  | add draws statements graph => exact (sim.add h admitted).map _
  | delete pattern graph => exact (sim.delete h pattern graph).map _
  | remove graph pattern => exact (sim.remove h graph pattern).map _

/-- Histories whose changes are admitted give the same answers on related stores and leave related
stores behind, wherever the stores are closed and opened again. -/
theorem replay (sim : Simulation rel Admits) {namespaces : Namespaces} {defaultGraph : String}
    (fixed : ∀ {s t}, rel s t →
      GraphStore.namespaces t = namespaces ∧ GraphStore.defaultGraph t = defaultGraph)
    {f : σ → σ} {g : τ → τ} (reopened : ∀ {s t}, rel s t → rel (f s) (g t)) (turns : List Turn) :
    ∀ {s t}, rel s t →
      (∀ c, .change c ∈ turns → c.Admitted Admits namespaces defaultGraph) →
      (Turn.replay f s turns).1 = (Turn.replay g t turns).1 ∧
        rel (Turn.replay f s turns).2 (Turn.replay g t turns).2 := by
  induction turns with
  | nil => intro s t h _; exact ⟨rfl, h⟩
  | cons turn rest ih =>
      intro s t h admitted
      have taken : (turn.take f s).Agree rel (turn.take g t) := by
        cases turn with
        | change c =>
            obtain ⟨hn, hd⟩ := fixed h
            have here := admitted c List.mem_cons_self
            rw [← hn, ← hd] at here
            exact sim.change h here
        | ask q => exact ⟨sim.ask h q, h⟩
        | reopen => exact ⟨rfl, reopened h⟩
      obtain ⟨answers, related⟩ :=
        ih taken.store fun c mem => admitted c (List.mem_cons_of_mem _ mem)
      simp only [Turn.replay]
      exact ⟨congr (congrArg _ taken.result) answers, related⟩

/-- Two representations that are both compared with a third are compared with each other. -/
theorem through {υ : Type} [GraphStore υ] {other : υ → τ → Prop}
    (sim : Simulation rel Admits) (sim' : Simulation other fun _ _ => True) :
    Simulation (fun (s : σ) (u : υ) => ∃ t, rel s t ∧ other u t) Admits := by
  have join {α : Type} {r : Reply σ α} {q : Reply υ α} {p : Reply τ α}
      (here : r.Agree rel p) (there : q.Agree other p) :
      r.Agree (fun s u => ∃ t, rel s t ∧ other u t) q :=
    ⟨here.result.trans there.result.symm, p.store, here.store, there.store⟩
  constructor
  · intro s u shared
    rcases shared with ⟨t, h, h'⟩
    exact (sim.namespaces h).trans (sim'.namespaces h').symm
  · intro s u shared
    rcases shared with ⟨t, h, h'⟩
    exact (sim.defaultGraph h).trans (sim'.defaultGraph h').symm
  · intro s u shared
    rcases shared with ⟨t, h, h'⟩
    exact (sim.graphs h).trans (sim'.graphs h').symm
  · intro s u shared graph
    rcases shared with ⟨t, h, h'⟩
    exact (sim.contains h graph).trans (sim'.contains h' graph).symm
  · intro s u shared graph
    rcases shared with ⟨t, h, h'⟩
    exact (sim.statements h graph).trans (sim'.statements h' graph).symm
  · intro s u shared graph
    rcases shared with ⟨t, h, h'⟩
    exact join (sim.create h graph) (sim'.create h' graph)
  · intro s u shared graph
    rcases shared with ⟨t, h, h'⟩
    exact join (sim.drop h graph) (sim'.drop h' graph)
  · intro s u shared graph batch admitted
    rcases shared with ⟨t, h, h'⟩
    exact join (sim.insert h admitted) (sim'.insert h' fun _ _ => trivial)
  · intro s u shared graph pattern
    rcases shared with ⟨t, h, h'⟩
    exact join (sim.remove h graph pattern) (sim'.remove h' graph pattern)

end Simulation

end RdfStore
