import RdfStore.Proofs.OrderedMap
import RdfStore.Proofs.Query.Assignment
import RdfStore.Proofs.Query.Solutions
import RdfStore.Proofs.Store.Ledger

/-!
# Rows of triples

A plan looks at the triples of the statements that it runs over, never at their graphs, so its rows
are a matter of triples (`Plan.rows_run`). They are monotone: of two lists that hold no triple twice,
the one with more triples gives every row at least as often (`Plan.rowsOver_subperm`), and two lists
with the same triples give the same rows up to order (`Plan.rowsOver_perm`).

Two facts carry this. The meaning of patterns is monotone in the statements around
(`Answers.mono`), and every matcher picks the statements that answer its patterns. And a row shows
the nodes at fixed positions (`Plan.rowOf_eq`), so with DISTINCT, where rows are told apart by the
texts of their nodes, it is the texts of different nodes that must differ.
-/

namespace RdfStore

/-! ## Statements without their graphs -/

namespace Triple

/-- The statement that a triple makes without a graph. -/
def statement (t : Triple) : Statement := ⟨t.subject, t.predicate, t.object, none⟩

/-- Different nodes of some triples have different canonical texts. -/
def TextsApart (ts : List Triple) : Prop :=
  ∀ t ∈ ts, ∀ u ∈ ts, ∀ n ∈ t.nodes, ∀ m ∈ u.nodes, n.text = m.text → n = m

instance (ts : List Triple) : Decidable (TextsApart ts) :=
  inferInstanceAs (Decidable (∀ t ∈ _, ∀ u ∈ _, ∀ n ∈ _, ∀ m ∈ _, _ → _))

theorem statement_injective : Function.Injective statement := by
  intro t u same
  cases t
  cases u
  cases same
  rfl

end Triple

/-- The statement without its graph. -/
def Statement.ungraphed (t : Statement) : Statement := t.triple.statement

theorem Statement.nodeAt_ungraphed (t : Statement) (position : Position) :
    t.ungraphed.nodeAt position = t.nodeAt position := by
  cases position <;> rfl

namespace Query

/-! ## Matching -/

theorem Answers.mono {ns : Namespaces} {ts us : List Statement} (sub : ts ⊆ us) {t : Statement}
    {patterns : List TriplePattern} (h : Answers ns ts t patterns) : Answers ns us t patterns := by
  cases patterns with
  | nil => exact h
  | cons first further =>
      obtain ⟨σ, here, later⟩ := h
      refine ⟨σ, here, fun p mem => ?_⟩
      obtain ⟨u, known, fits⟩ := later p mem
      exact ⟨u, sub known, fits⟩

namespace Shape

variable {ns : Namespaces} {shape : Shape}

/-- A matcher picks statements in their order. -/
theorem matching_sublist (shape : Shape) (ts : List Statement) :
    List.Sublist (shape.matching ns ts) ts := by
  cases shape with
  | allStatements => exact List.Sublist.refl ts
  | bySubjectUri | bySubjectBlank | subjectsByPredicateObject | constrained | doublyConstrained =>
      exact List.filter_sublist

open Classical in
theorem matching_subset (different : shape.names.Nodup) {ts us : List Statement} (sub : ts ⊆ us) :
    shape.matching ns ts ⊆ shape.matching ns us := by
  rw [matching_eq_filter different, matching_eq_filter different]
  intro t mem
  rw [List.mem_filter, decide_eq_true_iff] at mem ⊢
  exact ⟨sub mem.1, mem.2.mono sub⟩

theorem subjectsOf_ungraphed (c : Constraint) (ts : List Statement) :
    subjectsOf ns c (ts.map Statement.ungraphed) = subjectsOf ns c ts := by
  rw [subjectsOf, subjectsOf, List.filter_map, List.map_map]
  rfl

/-- Picking statements does not look at their graphs. -/
theorem matching_ungraphed (shape : Shape) (ts : List Statement) :
    shape.matching ns (ts.map Statement.ungraphed) =
      (shape.matching ns ts).map Statement.ungraphed := by
  cases shape with
  | allStatements => rfl
  | bySubjectUri | bySubjectBlank | subjectsByPredicateObject =>
      simp only [matching, List.filter_map]
      rfl
  | constrained | doublyConstrained =>
      simp only [matching, List.filter_map, subjectsOf_ungraphed]
      rfl

end Shape

namespace Plan

variable {plan : Plan}

/-! ## Rows -/

/-- The variables of a row with the positions that their nodes are taken from. -/
def columns (plan : Plan) : OrderedMap String Position :=
  .ofList (plan.selected.filterMap fun name =>
    ((OrderedMap.ofList plan.shape.bindings).get? name).map fun position => (name, position))

/-- A row shows the nodes of its statement at the positions of its columns. -/
theorem rowOf_eq (plan : Plan) (t : Statement) : plan.rowOf t = plan.columns.mapValues t.nodeAt := by
  have bound : plan.shape.bind t = (OrderedMap.ofList plan.shape.bindings).mapValues t.nodeAt :=
    (OrderedMap.mapValues_ofList t.nodeAt plan.shape.bindings).symm
  rw [columns, OrderedMap.mapValues_ofList, List.map_filterMap, rowOf, project, bound]
  simp only [OrderedMap.get?_mapValues, Option.map_map]
  rfl

theorem rowOf_ungraphed (plan : Plan) (t : Statement) :
    plan.rowOf t.ungraphed = plan.rowOf t := by
  have nodes : t.ungraphed.nodeAt = t.nodeAt := funext t.nodeAt_ungraphed
  rw [rowOf_eq, rowOf_eq, nodes]

theorem accepts_ungraphed (plan : Plan) (t : Statement) :
    plan.accepts t.ungraphed = plan.accepts t := by
  simp only [accepts, Filter.accepts, Statement.nodeAt_ungraphed]

theorem collect_ungraphed (plan : Plan) (ts : List Statement) :
    ∀ seen room, plan.collect seen room (ts.map Statement.ungraphed) =
      plan.collect seen room ts := by
  induction ts with
  | nil => intro seen room; rfl
  | cons t rest ih =>
      intro seen room
      rcases room with _ | _ | room
      · simp only [List.map_cons, collect, accepts_ungraphed, rowOf_ungraphed, ih]
      · rfl
      · simp only [List.map_cons, collect, accepts_ungraphed, rowOf_ungraphed, ih]

theorem run_ungraphed (plan : Plan) (ts : List Statement) (limit : Option Nat) :
    plan.run (ts.map Statement.ungraphed) limit = plan.run ts limit := by
  rw [run, run, Shape.matching_ungraphed, collect_ungraphed]

/-- All rows of a plan over a list of triples. -/
def rowsOver (plan : Plan) (ts : List Triple) : List Row :=
  (plan.run (ts.map Triple.statement) none).rows

/-- The rows over some statements are the rows over their triples. -/
theorem rows_run (plan : Plan) (ts : List Statement) :
    (plan.run ts none).rows = plan.rowsOver (ts.map Statement.triple) := by
  have ungraphed : ts.map Statement.ungraphed = (ts.map Statement.triple).map Triple.statement :=
    List.map_map.symm
  rw [← plan.run_ungraphed ts none, ungraphed, rowsOver]

/-- Which graphs a plan looks at is no matter of its rows. -/
theorem rowsOver_graphs (plan : Plan) (graphs : List String) (ts : List Triple) :
    rowsOver { plan with graphs := graphs } ts = plan.rowsOver ts := by
  simp only [rowsOver, run]
  apply collect_congr
  · rfl
  · exact fun _ _ => rfl
  · exact fun _ _ => rfl

/-! ## Telling rows apart -/

/-- Two rows with the same texts are the same row, if different nodes have different texts. -/
theorem rowOf_eq_of_rowKey {ts : List Triple} (texts : Triple.TextsApart ts) {t u : Triple}
    (here : t ∈ ts) (there : u ∈ ts)
    (same : rowKey (plan.rowOf t.statement) = rowKey (plan.rowOf u.statement)) :
    plan.rowOf t.statement = plan.rowOf u.statement := by
  simp only [rowKey, OrderedMap.values, rowOf_eq, OrderedMap.entries_mapValues, List.map_map,
    List.map_inj_left, Function.comp_apply] at same
  rw [rowOf_eq, rowOf_eq]
  apply OrderedMap.ext
  rw [OrderedMap.entries_mapValues, OrderedMap.entries_mapValues]
  apply List.map_congr_left
  intro column mem
  have node : t.statement.nodeAt column.2 = u.statement.nodeAt column.2 :=
    texts t here u there _ (t.statement.nodeAt_mem_nodes _) _ (u.statement.nodeAt_mem_nodes _)
      (same column mem)
  rw [node]

/-- What DISTINCT keeps of the rows of some statements, given the keys of the rows before. -/
structure Distinguished (plan : Plan) (seen : List (List String)) (ts : List Statement)
    (rows : List Row) : Prop where
  made : ∀ row ∈ rows, ∃ t ∈ ts, plan.accepts t = true ∧ row = plan.rowOf t
  fresh : ∀ row ∈ rows, rowKey row ∉ seen
  keys_nodup : (rows.map rowKey).Nodup
  complete : ∀ t ∈ ts, plan.accepts t = true →
    rowKey (plan.rowOf t) ∈ seen ∨ rowKey (plan.rowOf t) ∈ rows.map rowKey

namespace Distinguished

variable {seen : List (List String)} {t : Statement} {ts : List Statement} {rows : List Row}

theorem nil (plan : Plan) (seen : List (List String)) : Distinguished plan seen [] [] where
  made _ mem := by cases mem
  fresh _ mem := by cases mem
  keys_nodup := List.nodup_nil
  complete _ mem := by cases mem

/-- A statement that makes no row, or one whose key was there before. -/
theorem skip (h : Distinguished plan seen ts rows)
    (known : plan.accepts t = true → rowKey (plan.rowOf t) ∈ seen) :
    Distinguished plan seen (t :: ts) rows where
  made row mem := by
    obtain ⟨u, there, made⟩ := h.made row mem
    exact ⟨u, List.mem_cons_of_mem _ there, made⟩
  fresh := h.fresh
  keys_nodup := h.keys_nodup
  complete u mem accepted := by
    rcases List.mem_cons.1 mem with rfl | mem
    · exact Or.inl (known accepted)
    · exact h.complete u mem accepted

/-- A statement that makes a row with a new key. -/
theorem cons (accepted : plan.accepts t = true) (new : rowKey (plan.rowOf t) ∉ seen)
    (h : Distinguished plan (rowKey (plan.rowOf t) :: seen) ts rows) :
    Distinguished plan seen (t :: ts) (plan.rowOf t :: rows) where
  made row mem := by
    rcases List.mem_cons.1 mem with rfl | mem
    · exact ⟨t, List.mem_cons_self, accepted, rfl⟩
    · obtain ⟨u, there, made⟩ := h.made row mem
      exact ⟨u, List.mem_cons_of_mem _ there, made⟩
  fresh row mem := by
    rcases List.mem_cons.1 mem with rfl | mem
    · exact new
    · exact fun old => h.fresh row mem (List.mem_cons_of_mem _ old)
  keys_nodup := by
    refine List.nodup_cons.2 ⟨fun again => ?_, h.keys_nodup⟩
    obtain ⟨row, mem, same⟩ := List.mem_map.1 again
    exact h.fresh row mem (same ▸ List.mem_cons_self)
  complete u mem accepted' := by
    rw [List.map_cons, List.mem_cons]
    rcases List.mem_cons.1 mem with rfl | mem
    · exact Or.inr (Or.inl rfl)
    · rcases h.complete u mem accepted' with old | made
      · exact (List.mem_cons.1 old).elim (Or.inr ∘ Or.inl) Or.inl
      · exact Or.inr (Or.inr made)

end Distinguished

theorem collect_distinguished (distinct : plan.distinct = true) (ts : List Statement) :
    ∀ seen, Distinguished plan seen ts (plan.collect seen none ts) := by
  induction ts with
  | nil => intro seen; exact .nil plan seen
  | cons t rest ih =>
      intro seen
      unfold collect
      simp only [distinct, Bool.true_and, List.contains_iff_mem, Option.map_none]
      split
      · rename_i accepted
        split
        · rename_i old
          exact (ih seen).skip fun _ => old
        · rename_i new
          exact .cons accepted new (ih _)
      · rename_i refused
        exact (ih seen).skip fun accepted => absurd accepted refused

/-! ## More triples, more rows -/

variable {ts us : List Triple}

theorem matching_statement_subset (different : plan.shape.names.Nodup) (sub : ts ⊆ us) :
    plan.shape.matching plan.namespaces (ts.map Triple.statement) ⊆
      plan.shape.matching plan.namespaces (us.map Triple.statement) :=
  Shape.matching_subset different (List.map_subset _ sub)

theorem mem_of_mem_matching {t : Statement}
    (mem : t ∈ plan.shape.matching plan.namespaces (ts.map Triple.statement)) :
    ∃ u ∈ ts, u.statement = t :=
  List.mem_map.1 ((Shape.matching_sublist _ _).subset mem)

/-- More triples give every row at least as often; with DISTINCT they give every row. -/
theorem rowsOver_subperm (different : plan.shape.names.Nodup) (nodup : ts.Nodup) (sub : ts ⊆ us)
    (texts : Triple.TextsApart us) : List.Subperm (plan.rowsOver ts) (plan.rowsOver us) := by
  have grown := matching_statement_subset different sub
  cases distinct : plan.distinct with
  | false =>
      have once : (plan.shape.matching plan.namespaces (ts.map Triple.statement)).Nodup :=
        (nodup.map Triple.statement_injective).sublist (Shape.matching_sublist _ _)
      simp only [rowsOver, run, collect_eq_map_filter distinct]
      obtain ⟨part, perm, sublist⟩ := (once.subperm grown).filter plan.accepts
      exact ⟨part.map plan.rowOf, perm.map plan.rowOf, sublist.map plan.rowOf⟩
  | true =>
      have first := collect_distinguished distinct
        (plan.shape.matching plan.namespaces (ts.map Triple.statement)) []
      have second := collect_distinguished distinct
        (plan.shape.matching plan.namespaces (us.map Triple.statement)) []
      refine (List.Nodup.of_map rowKey first.keys_nodup).subperm fun row mem => ?_
      obtain ⟨x, matched, accepted, rfl⟩ := first.made row mem
      -- the second run has a row with this key, and such a row is the same
      have made := (second.complete x (grown matched) accepted).resolve_left List.not_mem_nil
      obtain ⟨row', mem', same⟩ := List.mem_map.1 made
      obtain ⟨y, matched', -, rfl⟩ := second.made row' mem'
      obtain ⟨t, here, rfl⟩ := mem_of_mem_matching (grown matched)
      obtain ⟨u, there, rfl⟩ := mem_of_mem_matching matched'
      exact rowOf_eq_of_rowKey texts there here same ▸ mem'

/-- The same triples in another order give the same rows in another order. -/
theorem rowsOver_perm (different : plan.shape.names.Nodup) (nodup : ts.Nodup) (nodup' : us.Nodup)
    (same : ∀ t, t ∈ ts ↔ t ∈ us) (texts : Triple.TextsApart us) :
    (plan.rowsOver ts).Perm (plan.rowsOver us) := by
  have sub : ts ⊆ us := fun t => (same t).1
  have sub' : us ⊆ ts := fun t => (same t).2
  have texts' : Triple.TextsApart ts := fun t here u there => texts t (sub here) u (sub there)
  exact (rowsOver_subperm different nodup sub texts).antisymm
    (rowsOver_subperm different nodup' sub' texts')

end Plan

end Query

end RdfStore
