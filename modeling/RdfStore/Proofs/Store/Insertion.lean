import RdfStore.Proofs.Store.Tables

/-!
# Insertion appends new triples

An insertion interns the three nodes of a statement and then adds a quad unless it is there.
Interning may store values that no quad refers to yet, so the tables are `Compact` only between
statements. They are again after each one: a quad that is found was over values that were stored
before, and a quad that is new refers to all values that are.

* `Insertion.intern_spec`: interning one value.
* `Insertion.addStatement_of_concrete`: one statement appends its triple, unless it is there.
* `Insertion.addStatements_of_concrete`, `Insertion.addStatements_of_placeholder`: a whole list is
  appended, or refused for its first placeholder.
-/

namespace RdfStore

theorem StoredValue.ofNode_of_placeholder {n : Node} {name : Option String}
    (h : n.placeholder? = some name) : ofNode n = .error (.notStorable name) := by
  cases n <;> cases h
  rfl

theorem StoredValue.exists_ofNode {n : Node} (h : n.placeholder? = none) :
    ∃ v, ofNode n = .ok v ∧ v.toNode = n := by
  cases n with
  | pattern name => cases h
  | named uri => exact ⟨_, rfl, rfl⟩
  | literal l => exact ⟨_, rfl, rfl⟩
  | blank label => exact ⟨_, rfl, rfl⟩

namespace Insertion

/-- The counters that the insertion will write. -/
def next (d : Insertion) : Counters :=
  { d.tables.counters with value := d.nextValue, quad := d.nextQuad }

/-! ## Interning -/

/-- A later state that has more values, the new ones under some of the numbers `ids`. Everything
else is as it was. -/
structure Grows (ids : List Nat) (d d' : Insertion) : Prop where
  kept : ∀ j w, d.tables.values.get? j = some w → d'.tables.values.get? j = some w
  fresh : ∀ j w, d'.tables.values.get? j = some w →
    j ∈ ids ∨ d.tables.values.get? j = some w
  graphs : d'.tables.graphs = d.tables.graphs
  quads : d'.tables.quads = d.tables.quads
  quadIndex : d'.tables.quadIndex = d.tables.quadIndex
  counters : d'.tables.counters = d.tables.counters
  nextQuad : d'.nextQuad = d.nextQuad
  added : d'.added = d.added

namespace Grows

variable {ids ids' : List Nat} {d d' d'' : Insertion}

theorem refl (ids : List Nat) (d : Insertion) : Grows ids d d :=
  ⟨fun _ _ h => h, fun _ _ h => Or.inr h, rfl, rfl, rfl, rfl, rfl, rfl⟩

theorem trans (h : Grows ids d d') (h' : Grows ids' d' d'') : Grows (ids ++ ids') d d'' where
  kept j w found := h'.kept j w (h.kept j w found)
  fresh j w found := by
    rcases h'.fresh j w found with mem | found
    · exact Or.inl (List.mem_append_right _ mem)
    · rcases h.fresh j w found with mem | found
      · exact Or.inl (List.mem_append_left _ mem)
      · exact Or.inr found
  graphs := h'.graphs.trans h.graphs
  quads := h'.quads.trans h.quads
  quadIndex := h'.quadIndex.trans h.quadIndex
  counters := h'.counters.trans h.counters
  nextQuad := h'.nextQuad.trans h.nextQuad
  added := h'.added.trans h.added

/-- Values that are kept read as before. -/
theorem nodeAt (h : Grows ids d d') {j : Nat} {w : StoredValue}
    (found : d.tables.values.get? j = some w) : d'.tables.nodeAt j = d.tables.nodeAt j :=
  Tables.nodeAt_congr ((h.kept j w found).trans found.symm)

/-- The triples of every graph are as they were. -/
theorem triples (h : Grows ids d d') (integrity : d.tables.Integrity d.next) (graph : Nat) :
    d'.tables.triples graph = d.tables.triples graph := by
  rw [Tables.triples, Tables.triples, Tables.rowsOf, Tables.rowsOf, h.quads]
  apply List.map_congr_left
  intro row mem
  rcases row with ⟨n, q⟩
  have found := (Tables.mem_rowsOf.1 mem).1
  apply Tables.read_congr
  intro id refers
  obtain ⟨v, stored⟩ := integrity.closed n q found id refers
  exact (h.kept id v stored).trans stored.symm

end Grows

/-- Interning a value answers a number under which it is then stored. -/
theorem intern_spec {d : Insertion} (h : d.tables.Integrity d.next) (v : StoredValue) :
    ∃ id d', d.intern v = (id, d') ∧ d'.tables.Integrity d'.next ∧ Grows [id] d d' ∧
      d'.tables.values.get? id = some v := by
  unfold intern
  cases indexed : d.tables.valueIndex.get? v with
  | some id => exact ⟨id, d, rfl, h, .refl _ d, (h.values id v).2 indexed⟩
  | none =>
      -- the new number is the counter, so no stored value has it
      have keyFresh : d.tables.values.get? d.nextValue = none := by
        cases taken : d.tables.values.get? d.nextValue with
        | none => rfl
        | some w => exact (Nat.lt_irrefl _ (h.valueBound _ w taken)).elim
      have old : ∀ {j w}, d.tables.values.get? j = some w →
          (d.tables.values.insert d.nextValue v).get? j = some w := by
        intro j w found
        have ne : d.nextValue ≠ j := by
          intro same
          subst same
          rw [found] at keyFresh
          cases keyFresh
        rw [Table.get?_insert, if_neg ne]
        exact found
      have new : ∀ {j w}, (d.tables.values.insert d.nextValue v).get? j = some w →
          j = d.nextValue ∨ d.tables.values.get? j = some w := by
        intro j w found
        rw [Table.get?_insert] at found
        by_cases eq : d.nextValue = j
        · exact Or.inl eq.symm
        · rw [if_neg eq] at found
          exact Or.inr found
      refine ⟨_, _, rfl, ?_, ?_, ?_⟩
      · refine ⟨h.values.insert keyFresh indexed, h.quads, ?_, h.registered, h.graphs,
          h.graphBound, ?_, h.quadBound⟩
        · intro n q found id refers
          obtain ⟨w, stored⟩ := h.closed n q found id refers
          exact ⟨w, old stored⟩
        · intro j w found
          rcases new found with rfl | found
          · exact Nat.lt_succ_self _
          · exact Nat.lt_succ_of_lt (h.valueBound j w found)
      · refine ⟨fun _ _ => old, ?_, rfl, rfl, rfl, rfl, rfl, rfl⟩
        intro j w found
        exact (new found).imp_left List.mem_singleton.2
      · rw [Table.get?_insert, if_pos rfl]

/-- Interning a node that is no placeholder. -/
theorem internNode_of_concrete {d : Insertion} (h : d.tables.Integrity d.next) {n : Node}
    (concrete : n.placeholder? = none) :
    ∃ id d', d.internNode n = .ok (id, d') ∧ d'.tables.Integrity d'.next ∧ Grows [id] d d' ∧
      (∃ v, d'.tables.values.get? id = some v) ∧ d'.tables.nodeAt id = n := by
  obtain ⟨v, isValue, back⟩ := StoredValue.exists_ofNode concrete
  obtain ⟨id, d', interned, integrity, grows, found⟩ := intern_spec h v
  refine ⟨id, d', ?_, integrity, grows, ⟨v, found⟩, ?_⟩
  · rw [internNode, isValue]
    exact congrArg Except.ok interned
  · rw [Tables.nodeAt, found]
    exact back

theorem internNode_of_placeholder (d : Insertion) {n : Node} {name : Option String}
    (h : n.placeholder? = some name) :
    d.internNode n = .error (.statement (.notStorable name)) := by
  rw [internNode, StoredValue.ofNode_of_placeholder h]

/-- The numbers of a statement without placeholders. -/
theorem addStatement_eq {d : Insertion} (h : d.tables.Integrity d.next) (graph : Nat)
    {x : Statement} (concrete : x.placeholder? = none) :
    ∃ q d', d.addStatement graph x = .ok (d'.addQuad q) ∧ q.graph = graph ∧
      d'.tables.Integrity d'.next ∧ Grows q.values d d' ∧
      (∀ id ∈ q.values, ∃ v, d'.tables.values.get? id = some v) ∧
      d'.tables.read q = x.triple := by
  simp only [Statement.placeholder?, Statement.nodes, Triple.nodes, Statement.triple,
    List.findSome?_eq_none_iff, List.forall_mem_cons] at concrete
  obtain ⟨subjectOk, predicateOk, objectOk, -⟩ := concrete
  obtain ⟨s, d₁, first, h₁, grows₁, ⟨v, sFound⟩, sNode⟩ := internNode_of_concrete h subjectOk
  obtain ⟨p, d₂, second, h₂, grows₂, ⟨w, pFound⟩, pNode⟩ := internNode_of_concrete h₁ predicateOk
  obtain ⟨o, d₃, third, h₃, grows₃, ⟨u, oFound⟩, oNode⟩ := internNode_of_concrete h₂ objectOk
  have grows₂₃ := grows₂.trans grows₃
  refine ⟨⟨graph, s, p, o⟩, d₃, ?_, rfl, h₃, grows₁.trans grows₂₃, ?_, ?_⟩
  · unfold addStatement
    rw [first]
    change ((d₁.internNode x.predicate).bind _) = _
    rw [second]
    change ((d₂.internNode x.object).bind _) = _
    rw [third]
    rfl
  · simp only [Quad.values, List.forall_mem_cons]
    exact ⟨⟨v, grows₂₃.kept s v sFound⟩, ⟨w, grows₃.kept p w pFound⟩, ⟨u, oFound⟩,
      fun _ mem => by cases mem⟩
  · simp only [Tables.read, Statement.triple, Triple.mk.injEq]
    exact ⟨(grows₂₃.nodeAt sFound).trans sNode, (grows₃.nodeAt pFound).trans pNode, oNode⟩

/-- A statement with a placeholder is refused for its first one. -/
theorem addStatement_of_placeholder {d : Insertion} (h : d.tables.Integrity d.next) (graph : Nat)
    {x : Statement} {name : Option String} (placeholder : x.placeholder? = some name) :
    d.addStatement graph x = .error (.statement (.notStorable name)) := by
  simp only [Statement.placeholder?, Statement.nodes, Triple.nodes, Statement.triple,
    List.findSome?_cons, List.findSome?_nil] at placeholder
  unfold addStatement
  cases subject : x.subject.placeholder? with
  | some other =>
      rw [subject] at placeholder
      cases placeholder
      rw [internNode_of_placeholder d subject]
      rfl
  | none =>
      obtain ⟨s, d₁, first, h₁, -⟩ := internNode_of_concrete h subject
      rw [subject] at placeholder
      rw [first]
      change ((d₁.internNode x.predicate).bind _) = _
      cases predicate : x.predicate.placeholder? with
      | some other =>
          rw [predicate] at placeholder
          cases placeholder
          rw [internNode_of_placeholder d₁ predicate]
          rfl
      | none =>
          obtain ⟨p, d₂, second, -⟩ := internNode_of_concrete h₁ predicate
          rw [predicate] at placeholder
          rw [second]
          change ((d₂.internNode x.object).bind _) = _
          cases object : x.object.placeholder? with
          | some other =>
              rw [object] at placeholder
              cases placeholder
              rw [internNode_of_placeholder d₂ object]
              rfl
          | none =>
              rw [object] at placeholder
              cases placeholder

/-! ## Adding one quad -/

/-- A later state in which the triples of a batch have been appended to one graph, each unless it
was there. -/
structure Appended (graph : Nat) (batch : List Triple) (d d' : Insertion) : Prop where
  graphs : d'.tables.graphs = d.tables.graphs
  counters : d'.tables.counters = d.tables.counters
  triples : d'.tables.triples graph = batch.foldl Triple.appendNew (d.tables.triples graph)
  others : ∀ other, other ≠ graph → d'.tables.triples other = d.tables.triples other
  added : d'.added + (d.tables.triples graph).length = d.added + (d'.tables.triples graph).length

namespace Appended

variable {graph : Nat} {batch batch' : List Triple} {d d' d'' : Insertion}

theorem nil (graph : Nat) (d : Insertion) : Appended graph [] d d :=
  ⟨rfl, rfl, rfl, fun _ _ => rfl, rfl⟩

theorem append (h : Appended graph batch d d') (h' : Appended graph batch' d' d'') :
    Appended graph (batch ++ batch') d d'' where
  graphs := h'.graphs.trans h.graphs
  counters := h'.counters.trans h.counters
  triples := by rw [h'.triples, h.triples, List.foldl_append]
  others other ne := (h'.others other ne).trans (h.others other ne)
  added := by
    have first := h.added
    have second := h'.added
    omega

/-- Growing the values first makes no difference. -/
theorem of_grows {ids : List Nat} (grows : Grows ids d d') (integrity : d.tables.Integrity d.next)
    (h : Appended graph batch d' d'') : Appended graph batch d d'' where
  graphs := h.graphs.trans grows.graphs
  counters := h.counters.trans grows.counters
  triples := by rw [h.triples, grows.triples integrity]
  others other ne := (h.others other ne).trans (grows.triples integrity other)
  added := by
    have after := h.added
    rw [grows.triples integrity, grows.added] at after
    exact after

end Appended

section AddQuad

variable {d : Insertion} {q : Quad}

theorem addQuad_of_indexed {n : Nat} (indexed : d.tables.quadIndex.get? q = some n) :
    d.addQuad q = d := by
  rw [addQuad, indexed]

theorem addQuad_of_not_indexed (absent : d.tables.quadIndex.get? q = none) :
    d.addQuad q =
      { d with
        tables :=
          { d.tables with
            quads := d.tables.quads.insert d.nextQuad q
            quadIndex := d.tables.quadIndex.insert q d.nextQuad }
        nextQuad := d.nextQuad + 1
        added := d.added + 1 } := by
  rw [addQuad, absent]

/-- The number of a new quad is above all others, so its row goes to the end. -/
theorem rows_insert_nextQuad (h : d.tables.Integrity d.next) (q : Quad) :
    (d.tables.quads.insert d.nextQuad q).rows = d.tables.quads.rows ++ [(d.nextQuad, q)] := by
  apply Table.rows_insert_of_lt
  intro n mem
  obtain ⟨r, found⟩ := Table.mem_keys_iff.1 mem
  exact h.quadBound n r found

theorem get?_insert_nextQuad (h : d.tables.Integrity d.next) (q : Quad) {n : Nat} {r : Quad} :
    (d.tables.quads.insert d.nextQuad q).get? n = some r ↔
      d.tables.quads.get? n = some r ∨ n = d.nextQuad ∧ r = q := by
  rw [← Table.mem_rows_iff, rows_insert_nextQuad h, List.mem_append, Table.mem_rows_iff,
    List.mem_singleton, Prod.mk.injEq]

theorem integrity_addQuad (h : d.tables.Integrity d.next)
    (stored : ∀ id ∈ q.values, ∃ v, d.tables.values.get? id = some v)
    (registered : ∃ name, d.tables.graphs.get? name = some q.graph) :
    (d.addQuad q).tables.Integrity (d.addQuad q).next := by
  cases indexed : d.tables.quadIndex.get? q with
  | some n => rw [addQuad_of_indexed indexed]; exact h
  | none =>
      rw [addQuad_of_not_indexed indexed]
      have keyFresh : d.tables.quads.get? d.nextQuad = none := by
        cases taken : d.tables.quads.get? d.nextQuad with
        | none => rfl
        | some r => exact (Nat.lt_irrefl _ (h.quadBound _ r taken)).elim
      refine ⟨h.values, h.quads.insert keyFresh indexed, ?_, ?_, h.graphs, h.graphBound,
        h.valueBound, ?_⟩
      · intro n r found
        rcases (get?_insert_nextQuad h q).1 found with found | ⟨-, rfl⟩
        · exact h.closed n r found
        · exact stored
      · intro n r found
        rcases (get?_insert_nextQuad h q).1 found with found | ⟨-, rfl⟩
        · exact h.registered n r found
        · exact registered
      · intro n r found
        rcases (get?_insert_nextQuad h q).1 found with found | ⟨rfl, -⟩
        · exact Nat.lt_succ_of_lt (h.quadBound n r found)
        · exact Nat.lt_succ_self _

/-- The triple of a quad is appended to its graph unless the graph holds it already. -/
theorem appended_addQuad (h : d.tables.Integrity d.next)
    (stored : ∀ id ∈ q.values, ∃ v, d.tables.values.get? id = some v) :
    Appended q.graph [d.tables.read q] d (d.addQuad q) := by
  have present := h.indexed_iff stored
  cases indexed : d.tables.quadIndex.get? q with
  | some n =>
      rw [addQuad_of_indexed indexed]
      refine ⟨rfl, rfl, ?_, fun _ _ => rfl, rfl⟩
      rw [List.foldl_cons, List.foldl_nil, Triple.appendNew, if_pos (present.1 ⟨n, indexed⟩)]
  | none =>
      have absent : d.tables.read q ∉ d.tables.triples q.graph := fun mem => by
        obtain ⟨n, found⟩ := present.2 mem
        rw [indexed] at found
        cases found
      rw [addQuad_of_not_indexed indexed]
      have rows := rows_insert_nextQuad h q
      have here : ((d.tables.quads.insert d.nextQuad q).rows.filter
          fun row => decide (row.2.graph = q.graph)) =
            d.tables.rowsOf q.graph ++ [(d.nextQuad, q)] := by
        rw [rows, List.filter_append, Tables.rowsOf]
        simp
      refine ⟨rfl, rfl, ?_, ?_, ?_⟩
      · rw [List.foldl_cons, List.foldl_nil, Triple.appendNew, if_neg absent]
        change List.map _ (List.filter _ _) = _
        rw [here, List.map_append]
        rfl
      · intro other ne
        have elsewhere : ((d.tables.quads.insert d.nextQuad q).rows.filter
            fun row => decide (row.2.graph = other)) = d.tables.rowsOf other := by
          rw [rows, List.filter_append, Tables.rowsOf]
          simp [Ne.symm ne]
        change List.map _ (List.filter _ _) = _
        rw [elsewhere]
        rfl
      · change d.added + 1 + _ = d.added + (List.map _ (List.filter _ _)).length
        rw [here, Tables.triples, List.length_map, List.length_map, List.length_append,
          List.length_singleton]
        omega

/-- Adding the quad for which values were interned leaves no value without a quad. -/
theorem compact_addQuad {d₀ : Insertion} (h₀ : d₀.tables.Integrity d₀.next)
    (compact : d₀.tables.Compact) (grows : Grows q.values d₀ d) (h : d.tables.Integrity d.next) :
    (d.addQuad q).tables.Compact := by
  intro id v found
  cases indexed : d.tables.quadIndex.get? q with
  | some n =>
      rw [addQuad_of_indexed indexed] at found ⊢
      have before : d₀.tables.quads.get? n = some q :=
        (h₀.quads n q).2 (grows.quadIndex ▸ indexed)
      have old : ∃ w, d₀.tables.values.get? id = some w := by
        rcases grows.fresh id v found with refers | old
        · exact h₀.closed n q before id refers
        · exact ⟨v, old⟩
      obtain ⟨w, old⟩ := old
      obtain ⟨m, r, there, refers⟩ := Tables.isReferenced_iff.1 (compact id w old)
      exact Tables.isReferenced_iff.2 ⟨m, r, grows.quads ▸ there, refers⟩
  | none =>
      rw [addQuad_of_not_indexed indexed] at found ⊢
      rcases grows.fresh id v found with refers | old
      · exact Tables.isReferenced_iff.2
          ⟨d.nextQuad, q, (get?_insert_nextQuad h q).2 (Or.inr ⟨rfl, rfl⟩), refers⟩
      · obtain ⟨m, r, there, refers⟩ := Tables.isReferenced_iff.1 (compact id v old)
        exact Tables.isReferenced_iff.2
          ⟨m, r, (get?_insert_nextQuad h q).2 (Or.inl (grows.quads ▸ there)), refers⟩

end AddQuad

/-! ## Adding statements -/

/-- Between two statements the tables fit together and every value is referred to. -/
structure Sound (d : Insertion) : Prop where
  integrity : d.tables.Integrity d.next
  compact : d.tables.Compact

/-- A statement without placeholders is appended to its graph unless it is there. -/
theorem addStatement_of_concrete {d : Insertion} (sound : d.Sound) {graph : Nat}
    (registered : ∃ name, d.tables.graphs.get? name = some graph) {x : Statement}
    (concrete : x.placeholder? = none) :
    ∃ d', d.addStatement graph x = .ok d' ∧ d'.Sound ∧ Appended graph [x.triple] d d' := by
  obtain ⟨q, d', added, rfl, integrity, grows, stored, reads⟩ :=
    addStatement_eq sound.integrity graph concrete
  have registered' : ∃ name, d'.tables.graphs.get? name = some q.graph := by
    rw [grows.graphs]
    exact registered
  refine ⟨d'.addQuad q, added, ⟨?_, ?_⟩, ?_⟩
  · exact integrity_addQuad integrity stored registered'
  · exact compact_addQuad sound.integrity sound.compact grows integrity
  · rw [← reads]
    exact (appended_addQuad integrity stored).of_grows grows sound.integrity

/-- A list without placeholders is appended to its graph, first to last. -/
theorem addStatements_of_concrete {graph : Nat} (batch : List Statement) :
    ∀ {d : Insertion}, d.Sound → (∃ name, d.tables.graphs.get? name = some graph) →
      batch.findSome? Statement.placeholder? = none →
      ∃ d', d.addStatements graph batch = .ok d' ∧ d'.Sound ∧
        Appended graph (batch.map Statement.triple) d d' := by
  induction batch with
  | nil => intro d sound _ _; exact ⟨d, rfl, sound, .nil graph d⟩
  | cons x rest ih =>
      intro d sound registered concrete
      rw [List.findSome?_eq_none_iff, List.forall_mem_cons] at concrete
      obtain ⟨d₁, first, sound₁, appended₁⟩ :=
        addStatement_of_concrete sound registered concrete.1
      obtain ⟨d₂, later, sound₂, appended₂⟩ :=
        ih sound₁ (appended₁.graphs ▸ registered) (List.findSome?_eq_none_iff.2 concrete.2)
      refine ⟨d₂, ?_, sound₂, appended₁.append appended₂⟩
      simp only [addStatements, first, later]

/-- A list with a placeholder is refused for the first one. -/
theorem addStatements_of_placeholder {graph : Nat} {name : Option String}
    (batch : List Statement) :
    ∀ {d : Insertion}, d.Sound → (∃ name, d.tables.graphs.get? name = some graph) →
      batch.findSome? Statement.placeholder? = some name →
      d.addStatements graph batch = .error (.statement (.notStorable name)) := by
  induction batch with
  | nil => intro d _ _ found; cases found
  | cons x rest ih =>
      intro d sound registered found
      rw [List.findSome?_cons] at found
      cases placeholder : x.placeholder? with
      | some other =>
          rw [placeholder] at found
          cases found
          simp only [addStatements, addStatement_of_placeholder sound.integrity graph placeholder]
      | none =>
          rw [placeholder] at found
          obtain ⟨d₁, first, sound₁, appended₁⟩ :=
            addStatement_of_concrete sound registered placeholder
          simp only [addStatements, first]
          exact ih sound₁ (appended₁.graphs ▸ registered) found

end Insertion

end RdfStore
