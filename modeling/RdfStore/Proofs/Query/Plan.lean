import RdfStore.Proofs.Query.Assignment
import RdfStore.Proofs.Query.Solutions

/-!
# What a plan has of its query

A query's prefixes and graphs have a small part in its plan: they decide under which prefixes it
runs, and over which graphs. Shape, selection and filter do not depend on the graphs, and on the
prefixes only as far as the filter's URIs do (`Plan.ofSelect_with`). What counts of the graphs is
which graphs they are, and not in what order, how often or how spelled they are named
(`Query.SameGraphs`).

* `Plan.names_nodup`: the variables of a plan are different.
* `Reads`: a text that is read as clauses, and what becomes of it.
* `Plan.mem_targets`: the graphs that a plan looks at.
-/

namespace RdfStore.Query

/-! ## Texts that are read -/

/-- A text that is read as clauses: it has no other form, and it follows the grammar. -/
structure Reads (text : String) (c : Clauses) : Prop where
  form : ∀ keyword, formOf text.toList ≠ .other keyword
  grammar : Grammar.clauses text.toList = some c

theorem Reads.parse_eq {text : String} {c : Clauses} (h : Reads text c) :
    parse text = c.toSelect := by
  unfold parse
  rw [h.grammar]
  split
  · rename_i keyword found
    exact absurd found (h.form keyword)
  · rfl
  · rfl

namespace Clauses

theorem toSelect_graphs (c : Clauses) (graphs : List String) :
    { c with graphs := graphs }.toSelect =
      c.toSelect.map fun q => { q with graphs := graphs } := by
  unfold toSelect
  dsimp only
  cases soleFilter c.innerFilter c.outerFilter with
  | error fault => rfl
  | ok filter =>
      dsimp only
      split <;> rfl

/-- A query has the prefixes and graphs of its clauses. -/
theorem fields_of_toSelect {c : Clauses} {q : Select} (h : c.toSelect = .ok q) :
    q.prefixes = c.prefixes ∧ q.graphs = c.graphs := by
  unfold toSelect at h
  split at h
  · cases h
  · split at h
    · cases h
    · cases h
      exact ⟨rfl, rfl⟩

end Clauses

/-! ## Sets of graphs -/

section

variable {ns : Namespaces} {us vs ws : List String}

/-- Only the full forms of URIs decide which are listed. -/
theorem extendAll_eq_foldl (ns : Namespaces) (us : List String) :
    extendAll ns us = (us.map ns.extend).foldl
      (fun known full => if known.contains full then known else known ++ [full]) [] := by
  rw [List.foldl_map]
  rfl

theorem extendAll_congr {ms : Namespaces} (same : us.map ns.extend = us.map ms.extend) :
    extendAll ns us = extendAll ms us := by
  rw [extendAll_eq_foldl, extendAll_eq_foldl, same]

theorem mem_extendAll {full : String} : full ∈ extendAll ns us ↔ full ∈ us.map ns.extend := by
  have grown (fulls : List String) : ∀ known : List String, full ∈ fulls.foldl
      (fun known full => if known.contains full then known else known ++ [full]) known ↔
        full ∈ known ∨ full ∈ fulls := by
    induction fulls with
    | nil => intro known; simp
    | cons first rest ih =>
        intro known
        rw [List.foldl_cons, ih, List.mem_cons, ← or_assoc]
        refine or_congr_left ?_
        split
        · rename_i old
          rw [List.contains_iff_mem] at old
          exact ⟨Or.inl, fun given => given.elim id fun same => same ▸ old⟩
        · rw [List.mem_append, List.mem_singleton]
  rw [extendAll_eq_foldl, grown]
  exact or_iff_right List.not_mem_nil

/-- Two lists that name the same graphs. -/
def SameGraphs (ns : Namespaces) (us vs : List String) : Prop :=
  ∀ graph, graph ∈ us.map ns.extend ↔ graph ∈ vs.map ns.extend

namespace SameGraphs

theorem symm (h : SameGraphs ns us vs) : SameGraphs ns vs us := fun graph => (h graph).symm

theorem trans (h : SameGraphs ns us vs) (h' : SameGraphs ns vs ws) : SameGraphs ns us ws :=
  fun graph => (h graph).trans (h' graph)

theorem of_perm (perm : us.Perm vs) : SameGraphs ns us vs :=
  fun _ => (perm.map ns.extend).mem_iff

theorem of_repeated {u : String} (mem : u ∈ us) : SameGraphs ns us (u :: us) := by
  intro graph
  rw [List.map_cons, List.mem_cons]
  exact ⟨Or.inr, fun given => given.elim (fun same => same ▸ List.mem_map_of_mem mem) id⟩

theorem of_respelled (h : List.Forall₂ (fun u v => ns.extend u = ns.extend v) us vs) :
    SameGraphs ns us vs := by
  have full : us.map ns.extend = vs.map ns.extend := by
    rw [← List.forall₂_eq_eq_eq, List.forall₂_map_left_iff, List.forall₂_map_right_iff]
    exact h
  intro graph
  rw [full]

theorem eq_nil (h : SameGraphs ns us vs) (none : us = []) : vs = [] := by
  subst none
  cases vs with
  | nil => rfl
  | cons v rest => cases (h (ns.extend v)).2 (List.mem_map_of_mem List.mem_cons_self)

end SameGraphs

end

/-! ## Plans -/

namespace Plan

section

variable {ns : Namespaces} {default graph : String} {us vs : List String}

/-- The targets are the graphs that are named, or else the default graph. -/
theorem mem_targets :
    graph ∈ targets ns default us ↔ graph ∈ us.map ns.extend ∨ us = [] ∧ graph = default := by
  cases us with
  | nil => simp [targets, extendAll]
  | cons first rest =>
      have named : ns.extend first ∈ extendAll ns (first :: rest) :=
        mem_extendAll.2 (List.mem_map_of_mem List.mem_cons_self)
      rw [← mem_extendAll, targets]
      split
      · rename_i none
        rw [none] at named
        cases named
      · rename_i all
        rw [all]
        simp

theorem mem_targets_of_sameGraphs (same : SameGraphs ns us vs) :
    graph ∈ targets ns default us ↔ graph ∈ targets ns default vs := by
  have empty : us = [] ↔ vs = [] := ⟨same.eq_nil, same.symm.eq_nil⟩
  rw [mem_targets, mem_targets, same graph, empty]

end

/-- Queries that differ in prefixes and graphs only, and whose filters ask for the same, have plans
that differ in prefixes and graphs only, or are refused alike. -/
theorem ofSelect_with (q : Select) (prefixes : List (String × String)) (graphs : List String)
    (store : Namespaces) (filters : ∀ comparisons ∈ q.filter, ∀ shape selected,
      Filter.resolve (store.addAll prefixes) shape selected comparisons =
        Filter.resolve (store.addAll q.prefixes) shape selected comparisons)
    (default : String) :
    ofSelect { q with prefixes := prefixes, graphs := graphs } store default =
      (ofSelect q store default).map fun plan =>
        { plan with
          namespaces := store.addAll prefixes
          graphs := targets (store.addAll prefixes) default graphs } := by
  unfold ofSelect
  dsimp only [Select.namespaces, bind, Except.bind, pure, Except.pure]
  cases (Shape.classify q.patterns).mapError Fault.shape with
  | error fault => rfl
  | ok shape =>
      dsimp only
      cases select shape q.projection with
      | error fault => rfl
      | ok selected =>
          dsimp only
          cases asked : q.filter with
          | none => rfl
          | some comparisons =>
              dsimp only
              rw [filters comparisons asked]
              cases Filter.resolve (store.addAll q.prefixes) shape selected comparisons <;> rfl

/-- Every stage on the way from a query to its plan. -/
theorem ofSelect_eq_ok {q : Select} {store : Namespaces} {default : String} {plan : Plan}
    (h : ofSelect q store default = .ok plan) :
    Shape.classify q.patterns = .ok plan.shape ∧
      select plan.shape q.projection = .ok plan.selected ∧
      Option.Rel (fun comparisons f =>
        Filter.resolve (q.namespaces store) plan.shape plan.selected comparisons = .ok f)
        q.filter plan.filter ∧
      plan.namespaces = q.namespaces store ∧
      plan.graphs = targets (q.namespaces store) default q.graphs ∧
      plan.distinct = q.distinct := by
  unfold ofSelect at h
  obtain ⟨shape, recognised, h⟩ := Except.bind_eq_ok_iff.1 h
  obtain ⟨selected, chosen, h⟩ := Except.bind_eq_ok_iff.1 h
  have classified := Except.mapError_eq_ok_iff.1 recognised
  dsimp only at h
  split at h
  · rename_i unfiltered
    obtain ⟨filter, none, h⟩ := Except.bind_eq_ok_iff.1 h
    cases none
    cases h
    refine ⟨classified, chosen, ?_, rfl, rfl, rfl⟩
    rw [unfiltered]
    exact .none
  · rename_i comparisons asked
    obtain ⟨filter, resolved, h⟩ := Except.bind_eq_ok_iff.1 h
    obtain ⟨f, found, rfl⟩ := Except.map_eq_ok_iff.1 resolved
    cases h
    refine ⟨classified, chosen, ?_, rfl, rfl, rfl⟩
    rw [asked]
    exact .some found

/-- What a plan has of the query that it was made from. -/
structure Made (q : Select) (store : Namespaces) (default : String) (plan : Plan) : Prop where
  shape : Shape.classify q.patterns = .ok plan.shape
  namespaces : plan.namespaces = q.namespaces store
  graphs : plan.graphs = targets (q.namespaces store) default q.graphs
  filter : ∀ f ∈ plan.filter, ∃ comparisons ∈ q.filter,
    f.uris = extendAll (q.namespaces store) (comparisons.map Comparison.uri)

/-- The filter of a list of comparisons has their one variable, which is selected, its position and
their URIs. -/
theorem fields_of_resolve {ns : Namespaces} {shape : Shape} {selected : List String}
    {comparisons : List Comparison} {f : Filter}
    (h : Filter.resolve ns shape selected comparisons = .ok f) :
    f.uris = extendAll ns (comparisons.map Comparison.uri) ∧
      (∀ c ∈ comparisons, c.name = f.name) ∧
      shape.positionOf f.name = some f.position ∧ f.name ∈ selected := by
  unfold Filter.resolve at h
  split at h
  · cases h
  · rename_i first rest
    split at h
    · cases h
    · rename_i single
      split at h
      · cases h
      · rename_i position bound
        split at h
        · rename_i listed
          cases h
          simp only [List.any_eq_true, decide_eq_true_iff, not_exists, not_and,
            Decidable.not_not] at single
          exact ⟨rfl, List.forall_mem_cons.2 ⟨rfl, single⟩, bound, List.contains_iff_mem.1 listed⟩
        · cases h

theorem made_of_ofSelect {q : Select} {store : Namespaces} {default : String} {plan : Plan}
    (h : ofSelect q store default = .ok plan) : Made q store default plan := by
  obtain ⟨shape, -, filters, namespaces, graphs, -⟩ := ofSelect_eq_ok h
  refine ⟨shape, namespaces, graphs, fun f mem => ?_⟩
  rw [Option.mem_def.1 mem] at filters
  generalize q.filter = asked at filters ⊢
  cases filters with
  | some resolved => exact ⟨_, rfl, (fields_of_resolve resolved).1⟩

theorem prepare_eq_ok {text : String} {store : Namespaces} {default : String} {plan : Plan}
    (h : prepare text store default = .ok plan) :
    ∃ q, parse text = .ok q ∧ ofSelect q store default = .ok plan :=
  Except.bind_eq_ok_iff.1 h

/-- The variables of a plan are different. -/
theorem names_nodup {text : String} {store : Namespaces} {default : String} {plan : Plan}
    (h : prepare text store default = .ok plan) : plan.shape.names.Nodup := by
  obtain ⟨q, -, planned⟩ := prepare_eq_ok h
  exact (Shape.classify_eq_ok (made_of_ofSelect planned).shape).2

variable {text text' : String} {c : Clauses} {store : Namespaces} {default : String}

theorem graphs_of_prepare (read : Reads text c) {plan : Plan}
    (h : prepare text store default = .ok plan) :
    plan.graphs = targets (store.addAll c.prefixes) default c.graphs := by
  obtain ⟨q, parsed, planned⟩ := prepare_eq_ok h
  obtain ⟨prefixes, graphs⟩ := Clauses.fields_of_toSelect (read.parse_eq.symm.trans parsed)
  rw [(made_of_ofSelect planned).graphs, Select.namespaces, prefixes, graphs]

/-- Texts that are read alike but for their FROM clauses have plans that differ in their graphs
only, or are refused alike. -/
theorem prepare_graphs {graphs : List String} (read : Reads text c)
    (read' : Reads text' { c with graphs := graphs }) (store : Namespaces) (default : String) :
    prepare text' store default = (prepare text store default).map fun plan =>
      { plan with graphs := targets (store.addAll c.prefixes) default graphs } := by
  unfold prepare
  rw [read.parse_eq, read'.parse_eq, c.toSelect_graphs]
  cases made : c.toSelect with
  | error fault => rfl
  | ok q =>
      obtain ⟨prefixes, -⟩ := Clauses.fields_of_toSelect made
      have moved := ofSelect_with q q.prefixes graphs store (fun _ _ _ _ => rfl) default
      change ofSelect { q with graphs := graphs } store default =
        (ofSelect q store default).map _
      rw [moved]
      cases planned : ofSelect q store default with
      | error fault => rfl
      | ok plan =>
          have namespaces := (made_of_ofSelect planned).namespaces
          rw [Select.namespaces] at namespaces
          simp only [Except.map, ← prefixes, ← namespaces]

end Plan

end RdfStore.Query
