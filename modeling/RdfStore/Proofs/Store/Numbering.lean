import RdfStore.Proofs.Store.Atomicity

/-!
# Numbers are given once

The counters of a store in a database file are kept three times: at hand, in the tables and in an
insertion under way. Only a successful insertion moves those of values and quads, by as many as it
has stored. Removing and collecting gives no number back, nor does a refused insertion, nor opening
the file again. So a number that is below its counter and not in use is never in use again, and what
is inserted later has higher numbers and is listed behind.

* `Insertion.Numbered`: what interning and adding do to the numbers; one lemma for each step, and the
  list by induction.
* `DurableStore.Sound.next_of_insert`: how far an insertion moves the counters.
* `DurableStore.Later`: what every event keeps of the numbers that were given before it.
* `DurableStore.numbers_never_reused`: the counters and the numbers, over every history.
-/

namespace RdfStore

open GraphStore

/-! ## The nodes that are stored -/

theorem StoredValue.toNode_injective : Function.Injective StoredValue.toNode := by
  intro v w same
  have values : (.ok v : Except StatementFault StoredValue) = .ok w := by
    rw [← ofNode_toNode v, ← ofNode_toNode w, same]
  exact Except.ok.inj values

namespace Tables

/-- The nodes that have a value number. -/
def nodes (t : Tables) : Finset Node := (t.values.rows.map fun row => row.2.toNode).toFinset

theorem mem_nodes {t : Tables} {n : Node} :
    n ∈ t.nodes ↔ ∃ id v, t.values.get? id = some v ∧ v.toNode = n := by
  simp only [nodes, List.mem_toFinset, List.mem_map, Prod.exists, Table.mem_rows_iff]

end Tables

namespace Insertion

variable {d d' d'' : Insertion} {new new' : List Node} {graph : Nat}

/-! ## One insertion -/

/-- A later state that has given one number to each node of a list that had none, and one to each
quad that was added, all from the counters on. -/
structure Numbered (new : List Node) (d d' : Insertion) : Prop where
  nodes : d'.tables.nodes = d.tables.nodes ∪ new.toFinset
  nextValue : d'.nextValue + d.tables.nodes.card = d.nextValue + d'.tables.nodes.card
  nextQuad : d'.nextQuad + d.added = d.nextQuad + d'.added
  added : d.added ≤ d'.added
  graphs : d'.tables.graphs = d.tables.graphs
  values : ∀ id v, d'.tables.values.get? id = some v → id < d.nextValue →
    d.tables.values.get? id = some v
  quads : ∀ n q, d'.tables.quads.get? n = some q → n < d.nextQuad →
    d.tables.quads.get? n = some q

namespace Numbered

theorem refl (d : Insertion) : Numbered [] d d where
  nodes := (Finset.union_empty _).symm
  nextValue := rfl
  nextQuad := rfl
  added := Nat.le_refl _
  graphs := rfl
  values _ _ found _ := found
  quads _ _ found _ := found

theorem nextValue_le (h : Numbered new d d') : d.nextValue ≤ d'.nextValue := by
  have more : d.tables.nodes.card ≤ d'.tables.nodes.card := by
    rw [h.nodes]
    exact Finset.card_le_card Finset.subset_union_left
  have moved := h.nextValue
  omega

theorem nextQuad_le (h : Numbered new d d') : d.nextQuad ≤ d'.nextQuad := by
  have moved := h.nextQuad
  have more := h.added
  omega

theorem trans (h : Numbered new d d') (h' : Numbered new' d' d'') :
    Numbered (new ++ new') d d'' where
  nodes := by rw [h'.nodes, h.nodes, List.toFinset_append, Finset.union_assoc]
  nextValue := by
    have first := h.nextValue
    have second := h'.nextValue
    omega
  nextQuad := by
    have first := h.nextQuad
    have second := h'.nextQuad
    omega
  added := Nat.le_trans h.added h'.added
  graphs := h'.graphs.trans h.graphs
  values id v found below :=
    h.values id v (h'.values id v found (Nat.lt_of_lt_of_le below h.nextValue_le)) below
  quads n q found below :=
    h.quads n q (h'.quads n q found (Nat.lt_of_lt_of_le below h.nextQuad_le)) below

/-- The counter of values moves by the number of different nodes of the list that had no number. -/
theorem nextValue_eq (h : Numbered new d d') :
    d'.nextValue = d.nextValue + (new.toFinset \ d.tables.nodes).card := by
  have moved := h.nextValue
  have parts := Finset.card_sdiff_add_card new.toFinset d.tables.nodes
  rw [h.nodes, Finset.union_comm, ← parts] at moved
  omega

end Numbered

/-- A value that is not indexed takes the number of the counter, any other keeps its own. -/
theorem numbered_intern (h : d.tables.Integrity d.next) (v : StoredValue) :
    Numbered [v.toNode] d (d.intern v).2 := by
  unfold intern
  cases indexed : d.tables.valueIndex.get? v with
  | some id =>
      have known : v.toNode ∈ d.tables.nodes :=
        Tables.mem_nodes.2 ⟨id, v, (h.values id v).2 indexed, rfl⟩
      have same : d.tables.nodes = d.tables.nodes ∪ [v.toNode].toFinset := by
        rw [List.toFinset_cons, List.toFinset_nil, Finset.union_insert, Finset.union_empty,
          Finset.insert_eq_of_mem known]
      exact { Numbered.refl d with nodes := same }
  | none =>
      have unknown : v.toNode ∉ d.tables.nodes := by
        intro known
        obtain ⟨id, w, found, same⟩ := Tables.mem_nodes.1 known
        rw [StoredValue.toNode_injective same, h.values, indexed] at found
        cases found
      have rows : (d.tables.values.insert d.nextValue v).rows =
          d.tables.values.rows ++ [(d.nextValue, v)] := by
        apply Table.rows_insert_of_lt
        intro id mem
        obtain ⟨w, found⟩ := Table.mem_keys_iff.1 mem
        exact h.valueBound id w found
      have nodes : ((d.tables.values.insert d.nextValue v).rows.map
          fun row => row.2.toNode).toFinset = d.tables.nodes ∪ [v.toNode].toFinset := by
        rw [rows, List.map_append, List.toFinset_append]
        rfl
      have one : (d.tables.nodes ∪ [v.toNode].toFinset).card = d.tables.nodes.card + 1 := by
        rw [List.toFinset_cons, List.toFinset_nil, Finset.union_insert, Finset.union_empty,
          Finset.card_insert_of_notMem unknown]
      refine ⟨nodes, ?_, rfl, Nat.le_refl _, rfl, ?_, fun _ _ found _ => found⟩
      · change d.nextValue + 1 + _ = d.nextValue + Finset.card (List.toFinset _)
        rw [nodes, one]
        omega
      · intro id w found below
        have found : (d.tables.values.insert d.nextValue v).get? id = some w := found
        rwa [Table.get?_insert, if_neg (Nat.ne_of_gt below)] at found

theorem numbered_internNode (h : d.tables.Integrity d.next) {n : Node} {id : Nat}
    (made : d.internNode n = .ok (id, d')) : d'.tables.Integrity d'.next ∧ Numbered [n] d d' := by
  unfold internNode at made
  cases value : StoredValue.ofNode n with
  | error fault =>
      rw [value] at made
      cases made
  | ok v =>
      rw [value] at made
      have interned : d.intern v = (id, d') := Except.ok.inj made
      obtain ⟨_, _, same, integrity, -⟩ := intern_spec h v
      have numbered := numbered_intern h v
      rw [interned] at same numbered
      cases same
      rw [StoredValue.toNode_of_ofNode value] at numbered
      exact ⟨integrity, numbered⟩

/-- A quad that is not indexed takes the number of the counter, and no node gets one. -/
theorem numbered_addQuad (h : d.tables.Integrity d.next) (q : Quad) :
    Numbered [] d (d.addQuad q) := by
  cases indexed : d.tables.quadIndex.get? q with
  | some n => rw [addQuad_of_indexed indexed]; exact .refl d
  | none =>
      rw [addQuad_of_not_indexed indexed]
      refine ⟨(Finset.union_empty _).symm, rfl, ?_, Nat.le_succ _, rfl, fun _ _ found _ => found, ?_⟩
      · dsimp only
        omega
      · intro n r found below
        rcases (get?_insert_nextQuad h q).1 found with old | ⟨here, -⟩
        · exact old
        · exact (Nat.ne_of_lt below here).elim

theorem numbered_addStatement (h : d.tables.Integrity d.next) {t : Statement}
    (made : d.addStatement graph t = .ok d') : Numbered t.nodes d d' := by
  unfold addStatement at made
  obtain ⟨⟨s, d₁⟩, first, made⟩ := Except.bind_eq_ok_iff.1 made
  obtain ⟨⟨p, d₂⟩, second, made⟩ := Except.bind_eq_ok_iff.1 made
  obtain ⟨⟨o, d₃⟩, third, made⟩ := Except.bind_eq_ok_iff.1 made
  obtain rfl := Except.ok.inj made
  obtain ⟨integrity₁, subject⟩ := numbered_internNode h first
  obtain ⟨integrity₂, predicate⟩ := numbered_internNode integrity₁ second
  obtain ⟨integrity₃, object⟩ := numbered_internNode integrity₂ third
  exact ((subject.trans predicate).trans object).trans (numbered_addQuad integrity₃ _)

/-- A whole list: by induction, because each statement leaves tables that fit together. -/
theorem numbered_addStatements (batch : List Statement) :
    ∀ {d : Insertion}, d.Sound → (∃ name, d.tables.graphs.get? name = some graph) →
      d.addStatements graph batch = .ok d' → Numbered (batch.flatMap Statement.nodes) d d' := by
  induction batch with
  | nil =>
      intro d _ _ made
      cases made
      exact .refl _
  | cons t rest ih =>
      intro d sound registered made
      cases placeholder : t.placeholder? with
      | some name =>
          have refused := addStatement_of_placeholder sound.integrity graph placeholder
          simp only [addStatements, refused, reduceCtorEq] at made
      | none =>
          obtain ⟨d₁, first, sound₁, appended⟩ :=
            addStatement_of_concrete sound registered placeholder
          simp only [addStatements, first] at made
          have later := ih sound₁ (appended.graphs ▸ registered) made
          exact (numbered_addStatement sound.integrity first).trans later

end Insertion

namespace DurableStore

/-! ## What moves the counters -/

namespace Sound

variable {s t : DurableStore} {graph : String} {batch : List Statement} {n : Nat}

/-- A sound store shows the ledger of its own triples. -/
theorem shows (h : s.Sound) :
    Shows s ⟨s.graphIds.mapValues s.tables.triples, s.namespaces, s.defaultGraph⟩ := by
  refine ⟨h, rfl, rfl, (OrderedMap.keys_mapValues _ _).symm, ?_⟩
  intro name id triples found there
  rw [OrderedMap.get?_mapValues, found] at there
  exact Option.some.inj there

theorem create (h : s.Sound) (graph : String) : (s.create graph).Sound :=
  (h.shows.create graph).store.sound

theorem drop (h : s.Sound) (graph : String) : (s.drop graph).Sound :=
  (h.shows.drop graph).store.sound

theorem insert (h : s.Sound) (graph : String) (batch : List Statement) :
    (s.insert graph batch).store.Sound := (h.shows.insert graph batch).store.sound

theorem remove (h : s.Sound) (graph : String) (pattern : Statement) :
    (s.remove graph pattern).store.Sound := (h.shows.remove graph pattern).store.sound

/-- A successful insertion has numbered what it stored. -/
theorem numbered_insert (h : s.Sound) (inserted : s.insert graph batch = ⟨.ok n, t⟩) :
    ∃ done : Insertion, n = done.added ∧
      t = { s with
        tables := done.finish
        next := { s.next with value := done.nextValue, quad := done.nextQuad } } ∧
      Insertion.Numbered (batch.flatMap Statement.nodes) ⟨s.tables, s.next.value, s.next.quad, 0⟩
        done := by
  cases found : s.graphIds.get? graph with
  | none =>
      rw [DurableStore.insert, found] at inserted
      cases inserted
  | some id =>
      cases placeholder : batch.findSome? Statement.placeholder? with
      | some name =>
          rw [h.insert_of_placeholder found placeholder] at inserted
          cases inserted
      | none =>
          obtain ⟨done, added, -, -, written⟩ := h.insert_of_concrete found placeholder
          obtain ⟨result, store⟩ := Reply.mk.inj (written.symm.trans inserted)
          exact ⟨done, (Except.ok.inj result).symm, store.symm,
            Insertion.numbered_addStatements batch h.insertion ⟨graph, h.registered found⟩ added⟩

/-- A successful insertion moves the counter of quads by its answer, and that of values by the number
of different nodes of its list that were not stored. -/
theorem next_of_insert (h : s.Sound) (inserted : s.insert graph batch = ⟨.ok n, t⟩) :
    t.next = { s.next with
      value := s.next.value + ((batch.flatMap Statement.nodes).toFinset \ s.tables.nodes).card
      quad := s.next.quad + n } := by
  obtain ⟨done, rfl, rfl, numbered⟩ := h.numbered_insert inserted
  have quad := numbered.nextQuad
  dsimp only at quad ⊢
  rw [numbered.nextValue_eq, ← quad]
  rfl

end Sound

/-- A refused insertion leaves the store as it was. -/
theorem store_of_insert_error {s : DurableStore} {graph : String} {batch : List Statement}
    {e : Error} : (s.insert graph batch).result = .error e → (s.insert graph batch).store = s := by
  unfold DurableStore.insert
  split
  · exact fun _ => rfl
  · split
    · exact fun _ => rfl
    · exact fun refused => nomatch refused

/-- The counters of values and quads stand as they did. -/
structure Unmoved (s t : DurableStore) : Prop where
  value : t.next.value = s.next.value
  quad : t.next.quad = s.next.quad

namespace Unmoved

variable {s t u : DurableStore}

theorem of_eq (same : t.next = s.next) : Unmoved s t :=
  ⟨congrArg Counters.value same, congrArg Counters.quad same⟩

theorem trans (h : Unmoved s t) (h' : Unmoved t u) : Unmoved s u :=
  ⟨h'.value.trans h.value, h'.quad.trans h.quad⟩

theorem create (s : DurableStore) (graph : String) : Unmoved s (s.create graph) := by
  unfold DurableStore.create
  dsimp only
  split <;> exact ⟨rfl, rfl⟩

theorem drop (s : DurableStore) (graph : String) : Unmoved s (s.drop graph) := by
  unfold DurableStore.drop
  dsimp only
  split <;> exact ⟨rfl, rfl⟩

theorem remove (s : DurableStore) (graph : String) (pattern : Statement) :
    Unmoved s (s.remove graph pattern).store := by
  unfold DurableStore.remove
  split
  · exact ⟨rfl, rfl⟩
  · split <;> exact ⟨rfl, rfl⟩

theorem reopenWith (h : s.Sound) (ns : Namespaces) (default : String) :
    Unmoved s (s.reopenWith ns default) := .of_eq h.counters

end Unmoved

end DurableStore

namespace Event

/-- An insertion or an addition. -/
def Stores : Event → Prop
  | insert _ _ | change (.add _ _ _) => True
  | _ => False

/-- The creation of a graph or an insertion. -/
def Writes : Event → Prop
  | insert _ _ | change (.create _) => True
  | _ => False

/-- An addition does what some creations and insertions do one after the other. -/
theorem exists_writes_of_add {σ : Type} [GraphStore σ] (reopened : Namespaces → String → σ → σ)
    (s : σ) (draws : Draws) (statements : List Statement) (graph : Option String) :
    ∃ steps : List Event, (∀ e ∈ steps, e.Writes) ∧
      (Store.add s draws statements graph).store = Event.after reopened s steps := by
  have step : ∀ {t : σ} (e : Event), e.Writes →
      (∃ steps : List Event, (∀ e ∈ steps, e.Writes) ∧ t = Event.after reopened s steps) →
      ∃ steps : List Event, (∀ e ∈ steps, e.Writes) ∧
        e.apply reopened t = Event.after reopened s steps := by
    intro t e writes before
    obtain ⟨steps, all, rfl⟩ := before
    refine ⟨steps ++ [e], ?_, (Event.after_concat reopened s steps e).symm⟩
    intro e' mem
    rcases List.mem_append.1 mem with old | last
    · exact all e' old
    · exact List.mem_singleton.1 last ▸ writes
  have inv : Invariant (fun _ _ => True) (fun _ => False) fun t : σ =>
      ∃ steps : List Event, (∀ e ∈ steps, e.Writes) ∧ t = Event.after reopened s steps :=
    { create := fun {_} h graph => step (.change (.create graph)) trivial h
      insert := fun {_} h {graph batch} _ => step (.insert graph batch) trivial h
      remove := fun _ _ _ no => no.elim }
  exact inv.add ⟨[], fun _ mem => (List.not_mem_nil mem).elim, rfl⟩ fun _ _ _ _ => trivial

end Event

namespace DurableStore

/-- An event that stores nothing moves neither counter. -/
theorem Sound.unmoved {s : DurableStore} (h : s.Sound) {e : Event} (stores : ¬e.Stores) :
    Unmoved s (e.apply DurableStore.reopenWith s) := by
  have inv : Invariant (fun _ _ => False) (fun _ => True) fun t : DurableStore =>
      t.Sound ∧ Unmoved s t :=
    { create := fun {t} h graph => ⟨h.1.create graph, h.2.trans (.create t graph)⟩
      insert := fun _ _ _ no => no.elim
      remove := fun {t} h {graph} pattern _ =>
        ⟨h.1.remove graph pattern, h.2.trans (.remove t graph pattern)⟩ }
  have within : e.Within (fun _ _ => False) (fun _ => True) s := by
    cases e with
    | insert => exact (stores trivial).elim
    | reopen => trivial
    | change c =>
        cases c with
        | add => exact (stores trivial).elim
        | create | drop | remove => trivial
        | delete => exact fun _ _ _ _ => trivial
  refine (inv.apply ?_ ?_ ⟨h, ⟨rfl, rfl⟩⟩ within).2
  · exact fun {t} h graph => ⟨h.1.drop graph, h.2.trans (.drop t graph)⟩
  · exact fun h ns default =>
      ⟨h.1.reopenWith ns default, h.2.trans (.reopenWith h.1 ns default)⟩

/-! ## What stays of the numbers -/

/-- A later store: the counters have not gone back, and under a number that was given before stands
what stood there, or nothing. -/
structure Later (s t : DurableStore) : Prop where
  nextGraph : s.next.graph ≤ t.next.graph
  nextValue : s.next.value ≤ t.next.value
  nextQuad : s.next.quad ≤ t.next.quad
  graphs : ∀ name id, id < s.next.graph → t.tables.graphs.get? name = some id →
    s.tables.graphs.get? name = some id
  values : ∀ id v, id < s.next.value → t.tables.values.get? id = some v →
    s.tables.values.get? id = some v
  quads : ∀ n q, n < s.next.quad → t.tables.quads.get? n = some q →
    s.tables.quads.get? n = some q

namespace Later

variable {s t u : DurableStore}

theorem refl (s : DurableStore) : Later s s :=
  ⟨Nat.le_refl _, Nat.le_refl _, Nat.le_refl _, fun _ _ _ h => h, fun _ _ _ h => h,
    fun _ _ _ h => h⟩

theorem trans (h : Later s t) (h' : Later t u) : Later s u where
  nextGraph := Nat.le_trans h.nextGraph h'.nextGraph
  nextValue := Nat.le_trans h.nextValue h'.nextValue
  nextQuad := Nat.le_trans h.nextQuad h'.nextQuad
  graphs name id below found := h.graphs name id below
    (h'.graphs name id (Nat.lt_of_lt_of_le below h.nextGraph) found)
  values id v below found := h.values id v below
    (h'.values id v (Nat.lt_of_lt_of_le below h.nextValue) found)
  quads n q below found := h.quads n q below
    (h'.quads n q (Nat.lt_of_lt_of_le below h.nextQuad) found)

/-- Taking rows away and then collecting values, with the counters as they are. -/
theorem collect {tables : Tables} (graphIds : OrderedMap String Nat)
    (graphs : ∀ name id, tables.graphs.get? name = some id → s.tables.graphs.get? name = some id)
    (values : tables.values = s.tables.values)
    (quads : ∀ n q, tables.quads.get? n = some q → s.tables.quads.get? n = some q) :
    Later s { s with tables := tables.collect, graphIds := graphIds } where
  nextGraph := Nat.le_refl _
  nextValue := Nat.le_refl _
  nextQuad := Nat.le_refl _
  graphs name id _ found := by
    rw [Tables.graphs_collect] at found
    exact graphs name id found
  values id v _ found := by
    rw [← values]
    exact (Tables.get?_values_collect.1 found).1
  quads n q _ found := by
    rw [Tables.quads_collect] at found
    exact quads n q found

/-- A new graph takes the number of the counter. -/
theorem create (s : DurableStore) (graph : String) : Later s (s.create graph) := by
  unfold DurableStore.create
  dsimp only
  split
  · exact .refl s
  · refine ⟨Nat.le_succ _, Nat.le_refl _, Nat.le_refl _, ?_, fun _ _ _ h => h, fun _ _ _ h => h⟩
    intro name id below found
    dsimp only at found
    rw [Table.get?_insert] at found
    split at found
    · cases found
      exact (Nat.lt_irrefl _ below).elim
    · exact found

theorem drop (s : DurableStore) (graph : String) : Later s (s.drop graph) := by
  unfold DurableStore.drop
  dsimp only
  split
  · exact .refl s
  · rename_i id _
    rw [Tables.eraseQuads_rowsOf]
    refine .collect _ ?_ (Tables.values_removeQuads _ _) ?_
    · intro name other found
      dsimp only at found
      rw [Table.get?_erase] at found
      split at found
      · cases found
      · rwa [Tables.prune, Tables.graphs_removeQuads] at found
    · exact fun n q found => (Tables.get?_quads_removeQuads.1 found).1

theorem remove (h : s.Sound) (graph : String) (pattern : Statement) :
    Later s (s.remove graph pattern).store := by
  unfold DurableStore.remove
  split
  · exact .refl s
  · rename_i id _
    have fitting := h.integrity.fittingRows pattern (s.tables.rowsOf id)
      fun row mem => (Tables.mem_rowsOf.1 mem).1
    split
    · exact .refl s
    · exact .refl s
    · rename_i doomed _ found
      rw [fitting] at found
      obtain rfl := Except.ok.inj found
      rw [Tables.eraseQuads_filter_rowsOf]
      refine .collect s.graphIds ?_ (Tables.values_removeQuads _ _) ?_
      · exact fun name other found => Tables.graphs_removeQuads s.tables _ ▸ found
      · exact fun n q found => (Tables.get?_quads_removeQuads.1 found).1

theorem insert (h : s.Sound) (graph : String) (batch : List Statement) :
    Later s (s.insert graph batch).store := by
  rcases inserted : s.insert graph batch with ⟨result, t⟩
  cases result with
  | error e =>
      have same := store_of_insert_error (congrArg Reply.result inserted)
      rw [inserted] at same
      exact same ▸ .refl s
  | ok n =>
      obtain ⟨done, -, rfl, numbered⟩ := h.numbered_insert inserted
      refine ⟨Nat.le_refl _, numbered.nextValue_le, numbered.nextQuad_le, ?_, ?_, ?_⟩
      · exact fun name id _ found => numbered.graphs ▸ found
      · exact fun id v below found => numbered.values id v found below
      · exact fun n q below found => numbered.quads n q found below

theorem reopenWith (h : s.Sound) (ns : Namespaces) (default : String) :
    Later s (s.reopenWith ns default) := by
  rw [DurableStore.reopenWith, h.load_eq]
  exact ⟨Nat.le_refl _, Nat.le_refl _, Nat.le_refl _, fun _ _ _ h => h, fun _ _ _ h => h,
    fun _ _ _ h => h⟩

/-- A history makes a later store of a sound one. -/
theorem after (h : s.Sound) (events : List Event) :
    (Event.after DurableStore.reopenWith s events).Sound ∧
      Later s (Event.after DurableStore.reopenWith s events) := by
  have inv : Invariant (fun _ _ => True) (fun _ => True) fun t : DurableStore =>
      t.Sound ∧ Later s t :=
    { create := fun {t} h graph => ⟨h.1.create graph, h.2.trans (.create t graph)⟩
      insert := fun {_} h {graph batch} _ =>
        ⟨h.1.insert graph batch, h.2.trans (.insert h.1 graph batch)⟩
      remove := fun {_} h {graph} pattern _ =>
        ⟨h.1.remove graph pattern, h.2.trans (.remove h.1 graph pattern)⟩ }
  refine inv.after ?_ ?_ events ⟨h, .refl s⟩
  · exact fun {t} h graph => ⟨h.1.drop graph, h.2.trans (.drop t graph)⟩
  · exact fun h ns default =>
      ⟨h.1.reopenWith ns default, h.2.trans (.reopenWith h.1 ns default)⟩

end Later

/-! ## Listing by number -/

/-- The statements of a graph with the numbers of their quads, in the order in which they are
listed. -/
def numbered (s : DurableStore) (graph : String) : List (Nat × Statement) :=
  match s.graphIds.get? graph with
  | none => []
  | some id => (s.tables.rowsOf id).map fun row => (row.1, (s.tables.read row.2).inGraph graph)

theorem mem_numbered {s : DurableStore} {graph : String} {n : Nat} {x : Statement} :
    (n, x) ∈ s.numbered graph ↔ ∃ q, s.graphIds.get? graph = some q.graph ∧
      s.tables.quads.get? n = some q ∧ (s.tables.read q).inGraph graph = x := by
  unfold numbered
  cases found : s.graphIds.get? graph with
  | none => simp
  | some id =>
      simp only [List.mem_map, Prod.exists, Tables.mem_rowsOf, Prod.mk.injEq, Option.some.injEq]
      constructor
      · rintro ⟨n, q, ⟨there, lies⟩, rfl, reads⟩
        exact ⟨q, lies.symm, there, reads⟩
      · rintro ⟨q, lies, there, reads⟩
        exact ⟨n, q, ⟨there, lies.symm⟩, rfl, reads⟩

/-- The numbers ascend. -/
theorem numbered_ascending (s : DurableStore) (graph : String) :
    (s.numbered graph).Pairwise fun a b => a.1 < b.1 := by
  unfold numbered
  split
  · exact .nil
  · exact List.pairwise_map.2 (s.tables.quads.ascending.sublist List.filter_sublist)

theorem Sound.statements_eq_numbered {s : DurableStore} (h : s.Sound) {graph : String}
    {found : List Statement} (read : s.statements graph = .ok found) :
    found = (s.numbered graph).map Prod.snd := by
  cases registered : s.graphIds.get? graph with
  | none => cases (statements_of_absent registered).symm.trans read
  | some id =>
      rw [h.statements_eq registered] at read
      rw [← Except.ok.inj read, numbered, registered, Tables.triples, List.map_map, List.map_map]
      rfl

/-- What ascends can be cut at every number. -/
theorem exists_cut_of_ascending {α : Type} (bound : Nat) (l : List (Nat × α)) :
    (l.Pairwise fun a b => a.1 < b.1) →
      ∃ low high, l = low ++ high ∧ (∀ e ∈ low, e.1 < bound) ∧ ∀ e ∈ high, bound ≤ e.1 := by
  induction l with
  | nil => exact fun _ => ⟨[], [], rfl, nofun, nofun⟩
  | cons e rest ih =>
      intro ascending
      obtain ⟨above, ascending⟩ := List.pairwise_cons.1 ascending
      by_cases below : e.1 < bound
      · obtain ⟨low, high, rfl, small, large⟩ := ih ascending
        exact ⟨e :: low, high, rfl, List.forall_mem_cons.2 ⟨below, small⟩, large⟩
      · have reached := Nat.le_of_not_lt below
        refine ⟨[], e :: rest, rfl, nofun, List.forall_mem_cons.2 ⟨reached, fun e' mem => ?_⟩⟩
        exact Nat.le_trans reached (Nat.le_of_lt (above e' mem))

/-- What a later store still lists under a number that was given before was listed under it, in the
same graph. -/
theorem Later.mem_numbered {s t : DurableStore} (later : Later s t) (h : s.Sound) (h' : t.Sound)
    {graph : String} {n : Nat} {x : Statement} (below : n < s.next.quad)
    (listed : (n, x) ∈ t.numbered graph) : (n, x) ∈ s.numbered graph := by
  obtain ⟨q, lies, found, rfl⟩ := DurableStore.mem_numbered.1 listed
  have before := later.quads n q below found
  obtain ⟨name, registered⟩ := h.integrity.registered n q before
  have same := later.graphs graph q.graph (h.integrity.graphBound name q.graph registered)
    (h'.registered lies)
  refine DurableStore.mem_numbered.2 ⟨q, (h.mirrored graph).trans same, before, ?_⟩
  refine congrArg (Triple.inGraph graph) (Tables.read_congr fun id refers => ?_)
  obtain ⟨v, stored⟩ := h'.integrity.closed n q found id refers
  obtain ⟨w, old⟩ := h.integrity.closed n q before id refers
  rw [stored, later.values id v (h.integrity.valueBound id w old) stored]

/-- A later store lists first what is left of the statements that were listed, in their old order, and
then what was inserted since. -/
theorem Later.numbered {s t : DurableStore} (later : Later s t) (h : s.Sound) (h' : t.Sound)
    (graph : String) :
    ∃ kept new, t.numbered graph = kept ++ new ∧ kept.Sublist (s.numbered graph) ∧
      ∀ e ∈ new, s.next.quad ≤ e.1 := by
  have ascending := t.numbered_ascending graph
  obtain ⟨kept, new, split, below, above⟩ := exists_cut_of_ascending s.next.quad _ ascending
  refine ⟨kept, new, split, ?_, above⟩
  have ascends : kept.Pairwise fun a b => a.1 < b.1 := by
    rw [split] at ascending
    exact (List.pairwise_append.1 ascending).1
  have within : kept ⊆ s.numbered graph := by
    intro e mem
    rcases e with ⟨n, x⟩
    exact later.mem_numbered h h' (below _ mem) (split ▸ List.mem_append_left new mem)
  have once : kept.Nodup := by
    refine ascends.imp ?_
    intro a b lt same
    exact Nat.lt_irrefl b.1 (same ▸ lt)
  have antisymm : Std.Antisymm fun a b : Nat × Statement => a.1 < b.1 :=
    ⟨fun _ _ lt gt => (Nat.lt_asymm lt gt).elim⟩
  exact List.sublist_of_subperm_of_pairwise (once.subperm within) ascends
    (s.numbered_ascending graph)

/-! ## Over every history -/

/-- What the operations of a store do to the counters of values and quads. -/
structure Counting (s : DurableStore) : Prop where
  /-- They move when an insertion succeeds, by the new nodes of the list and by the answer. -/
  insert : ∀ graph batch n t, s.insert graph batch = ⟨.ok n, t⟩ → t.next = { s.next with
    value := s.next.value + ((batch.flatMap Statement.nodes).toFinset \ s.tables.nodes).card
    quad := s.next.quad + n }
  /-- A refused insertion leaves everything as it was. -/
  refused : ∀ graph batch e, (s.insert graph batch).result = .error e →
    (s.insert graph batch).store = s
  /-- An addition moves them by its insertions only. -/
  add : ∀ draws statements graph, ∃ steps : List Event, (∀ e ∈ steps, e.Writes) ∧
    (Store.add s draws statements graph).store = Event.after DurableStore.reopenWith s steps
  /-- No other event moves them. -/
  unmoved : ∀ e : Event, ¬e.Stores → Unmoved s (e.apply DurableStore.reopenWith s)

/-- After every history only insertions move the counters, by what they store. However the history
goes on, with removals, collections, refusals and reopenings, the counters in the file are those at
hand and have not gone back, and a value, a quad or a graph under a number that was given before is
the one that had it then. So no number that has become free is given again, and every graph lists
what is left of its earlier statements in front of what was inserted later. -/
theorem numbers_never_reused (ns : Namespaces) (default : String) (events later : List Event) :
    let s := Event.after DurableStore.reopenWith (new ns default) events
    let t := Event.after DurableStore.reopenWith s later
    Counting s ∧ Later s t ∧ t.tables.counters = t.next ∧
      ∀ graph found, statements t graph = .ok found →
        found = (t.numbered graph).map Prod.snd ∧
        ∃ kept new, t.numbered graph = kept ++ new ∧ kept.Sublist (s.numbered graph) ∧
          (∀ e ∈ kept, e.1 < s.next.quad) ∧ ∀ e ∈ new, s.next.quad ≤ e.1 := by
  intro s t
  have sound : s.Sound := .after ns default events
  obtain ⟨sound', since⟩ := Later.after sound later
  refine ⟨⟨?_, ?_, ?_, ?_⟩, since, sound'.counters, ?_⟩
  · exact fun _ _ _ _ => sound.next_of_insert
  · exact fun _ _ _ => store_of_insert_error
  · exact Event.exists_writes_of_add DurableStore.reopenWith s
  · exact fun _ => sound.unmoved
  · intro graph found read
    refine ⟨sound'.statements_eq_numbered read, ?_⟩
    obtain ⟨kept, new, split, old, above⟩ := since.numbered sound sound' graph
    refine ⟨kept, new, split, old, fun e mem => ?_, above⟩
    rcases e with ⟨n, x⟩
    obtain ⟨q, -, stored, -⟩ := mem_numbered.1 (old.subset mem)
    exact sound.integrity.quadBound n q stored

/-- The same statement again after its removal takes new numbers. -/
example :
    let t : Statement := ⟨.named "urn:a", .named "urn:p", .named "urn:b", none⟩
    let s := Event.after DurableStore.reopenWith (new .standard "urn:d")
      [.change (.create "urn:g"), .insert "urn:g" [t], .change (.remove "urn:g" t),
        .reopen .standard "urn:d", .insert "urn:g" [t, t]]
    s.next = ⟨1, 6, 2⟩ ∧ (s.numbered "urn:g").map Prod.fst = [1] := by decide +kernel

end DurableStore

end RdfStore
