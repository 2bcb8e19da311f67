import RdfStore.Proofs.Query.Pipeline

/-!
# The variables of a plan

Three parts of a plan name variables: the shape binds them to positions, the projection selects some
of them, and the filter tests one. A query becomes a plan only if they fit together (`Plan.Scoped`):
the variables of the shape are different, and what is selected or tested is bound. So it makes no
difference that a row looks its variables up in the map of all bindings, whereas the filter goes to a
position: both see the same node, and no selected variable is left out of a row.

* `Plan.Reports`: a row that shows a statement.
* `Plan.scope_of_prepare`: every row of every run shows a statement, in the order of the statements.
-/

namespace RdfStore.Query.Plan

variable {text : String} {store : Namespaces} {default : String} {plan : Plan} {t : Statement}

/-! ## Scope -/

/-- The variables of the shape are different, the selected ones are among them, and the filter has one
of those with its position. -/
structure Scoped (plan : Plan) : Prop where
  different : plan.shape.names.Nodup
  selected : ∀ name ∈ plan.selected, ∃ position, plan.shape.positionOf name = some position
  filter : ∀ f ∈ plan.filter,
    f.name ∈ plan.selected ∧ plan.shape.positionOf f.name = some f.position

theorem bound_of_select {shape : Shape} {projection : Projection} {selected : List String}
    (h : select shape projection = .ok selected) {name : String} (mem : name ∈ selected) :
    ∃ position, shape.positionOf name = some position := by
  rw [← Option.ne_none_iff_exists']
  cases projection with
  | all =>
      cases h
      exact fun absent => OrderedMap.lookup_eq_none_iff.1 absent mem
  | listed names =>
      rw [select] at h
      split at h
      · cases h
      · rename_i all
        cases h
        exact fun absent => List.find?_eq_none.1 all name mem (Option.isNone_iff_eq_none.2 absent)

theorem scoped_of_prepare (h : prepare text store default = .ok plan) : Scoped plan := by
  obtain ⟨q, -, planned⟩ := prepare_eq_ok h
  obtain ⟨-, chosen, filters, -⟩ := ofSelect_eq_ok planned
  refine ⟨names_nodup h, fun _ mem => bound_of_select chosen mem, fun f mem => ?_⟩
  rw [Option.mem_def.1 mem] at filters
  generalize q.filter = asked at filters
  cases filters with
  | some resolved =>
      obtain ⟨-, -, bound, listed⟩ := fields_of_resolve resolved
      exact ⟨listed, bound⟩

/-! ## Rows -/

/-- A row that shows a statement: it has the selected variables in the order in which they are first
selected, and each has the node at its position. The filter's variable has a node that the filter
accepts. -/
structure Reports (plan : Plan) (t : Statement) (row : Row) : Prop where
  keys : row.keys = firstsBy id plan.selected
  nodes : ∀ name ∈ plan.selected, ∃ position,
    plan.shape.positionOf name = some position ∧ row.get? name = some (t.nodeAt position)
  filtered : ∀ f ∈ plan.filter, ∃ uri,
    row.get? f.name = some (.named uri) ∧ plan.namespaces.extend uri ∈ f.uris

namespace Scoped

/-- No selected variable is missing in what a statement binds. -/
theorem get?_bind (h : Scoped plan) (t : Statement) {name : String}
    (mem : name ∈ plan.selected) : ∃ position,
      plan.shape.positionOf name = some position ∧
        (plan.shape.bind t).get? name = some (t.nodeAt position) := by
  obtain ⟨position, bound⟩ := h.selected name mem
  refine ⟨position, bound, ?_⟩
  rw [Shape.get?_bind h.different, bound, Option.map_some]

/-- The entries that a row is made of: one for each selected variable. -/
theorem map_fst_entries (h : Scoped plan) (t : Statement) :
    (plan.selected.filterMap fun name =>
      ((plan.shape.bind t).get? name).map fun node => (name, node)).map Prod.fst =
        plan.selected := by
  rw [List.map_filterMap]
  refine (List.filterMap_congr fun name mem => ?_).trans (List.filterMap_some)
  obtain ⟨position, -, found⟩ := h.get?_bind t mem
  rw [found]
  rfl

theorem keys_rowOf (h : Scoped plan) (t : Statement) :
    (plan.rowOf t).keys = firstsBy id plan.selected := by
  rw [rowOf, project, OrderedMap.keys_ofList, h.map_fst_entries]

theorem get?_rowOf (h : Scoped plan) (t : Statement) {name : String}
    (mem : name ∈ plan.selected) :
    (plan.rowOf t).get? name = (plan.shape.bind t).get? name := by
  rw [rowOf, project]
  apply OrderedMap.get?_ofList
  · intro e made
    obtain ⟨name, -, made⟩ := List.mem_filterMap.1 made
    obtain ⟨node, found, rfl⟩ := Option.map_eq_some_iff.1 made
    exact found
  · rwa [h.map_fst_entries]

theorem reports (h : Scoped plan) (accepted : plan.accepts t = true) :
    Reports plan t (plan.rowOf t) where
  keys := h.keys_rowOf t
  nodes name mem := by
    rw [h.get?_rowOf t mem]
    exact h.get?_bind t mem
  filtered f mem := by
    obtain ⟨listed, bound⟩ := h.filter f mem
    obtain ⟨position, bound', found⟩ := h.get?_bind t listed
    obtain rfl := Option.some.inj (bound.symm.trans bound')
    rw [accepts, Option.mem_def.1 mem] at accepted
    obtain ⟨uri, here, asked⟩ := (Option.any_eq_true _ _).1 accepted
    refine ⟨uri, ?_, List.contains_iff_mem.1 asked⟩
    rw [h.get?_rowOf t listed, found]
    cases node : t.nodeAt f.position with
    | named uri' =>
        rw [node] at here
        rw [Option.some.inj here]
    | blank | literal | pattern =>
        rw [node] at here
        cases here

end Scoped

/-- The rows of a run are made of statements that match and are accepted, in their order. -/
theorem exists_rows_eq_map (plan : Plan) (statements : List Statement) (limit : Option Nat) :
    ∃ picked, List.Sublist picked (plan.shape.matching plan.namespaces statements) ∧
      (∀ t ∈ picked, plan.accepts t = true) ∧
      (plan.run statements limit).rows = picked.map plan.rowOf := by
  have sublist := (atMost_sublist limit _).trans (plan.kept_sublist []
    (((plan.shape.matching plan.namespaces statements).filter plan.accepts).map plan.rowOf))
  rw [← collect_eq] at sublist
  obtain ⟨picked, part, rows⟩ := List.sublist_map_iff.1 sublist
  exact ⟨picked, part.trans List.filter_sublist,
    fun t mem => (List.mem_filter.1 (part.subset mem)).2, rows⟩

/-- Of every query that becomes a plan, the variables fit together: none is bound twice, and what is
selected or tested is bound. Every row of every run shows one of the matching statements, in their
order, with all selected variables and the node that the filter has accepted. -/
theorem scope_of_prepare (h : prepare text store default = .ok plan) :
    Scoped plan ∧
      (∀ t, ∀ name ∈ plan.selected, ((plan.shape.bind t).get? name).isSome) ∧
      ∀ statements limit, ∃ picked,
        List.Sublist picked (plan.shape.matching plan.namespaces statements) ∧
          List.Forall₂ (Reports plan) picked (plan.run statements limit).rows := by
  have fits := scoped_of_prepare h
  refine ⟨fits, fun t name mem => ?_, fun statements limit => ?_⟩
  · obtain ⟨position, -, found⟩ := fits.get?_bind t mem
    rw [found, Option.isSome_some]
  · obtain ⟨picked, part, accepted, rows⟩ := exists_rows_eq_map plan statements limit
    refine ⟨picked, part, ?_⟩
    rw [rows, List.forall₂_map_right_iff, List.forall₂_same]
    exact fun t mem => fits.reports (accepted t mem)

/-- The selection names one variable twice, and the row has it once. -/
theorem scope_of_prepare_sample :
    let text := "SELECT ?o ?s ?o \x7b ?s ?p ?o \x7d FILTER (?o = <c>)"
    let plan : Plan := ⟨.empty, .allStatements "s" "p" "o", ["o", "s", "o"],
      some ⟨"o", .object, ["c"]⟩, ["urn:d"], false⟩
    let t : Statement := ⟨.named "a", .named "b", .named "c", none⟩
    let statements := [t, { t with object := .blank "c" }, { t with subject := .blank "a" }]
    prepare text .empty "urn:d" = .ok plan ∧ Scoped plan ∧
      (∃ picked, List.Sublist picked statements ∧
        List.Forall₂ (Reports plan) picked (plan.run statements none).rows) ∧
      (plan.run statements none).rows.map OrderedMap.entries =
        [[("o", .named "c"), ("s", .named "a")], [("o", .named "c"), ("s", .blank "a")]] := by
  intro text plan t statements
  have read : parse text = .ok {
      projection := .listed ["o", "s", "o"]
      patterns := [⟨.variable "s", .variable "p", .variable "o"⟩]
      filter := some [⟨"o", "c"⟩] } := by cbv
  have prepared : prepare text .empty "urn:d" = .ok plan := by
    rw [prepare, read]
    rfl
  obtain ⟨fits, -, rows⟩ := scope_of_prepare prepared
  exact ⟨prepared, fits, rows statements none, by decide +kernel⟩

end RdfStore.Query.Plan
