import RdfStore.Proofs.OrderedMap
import RdfStore.Proofs.Query.Plan

/-!
# The answer stage by stage

A query can be answered one stage after the other: take the matching statements, keep those that
satisfy the filter, make a row of each, with DISTINCT leave out the rows whose texts an earlier row
has (`Select.answer`), and cut the list off at the limit. A plan does it in one pass that stops as soon
as it has enough rows, and comes to the same (`Plan.rows_eq_answer`). So the limit counts the rows that
are answered, and more room only adds rows at the end.

The stages are said in terms of the query as written: the filter is the disjunction of its
comparisons, and a row has the nodes at the positions of the selected variables.
-/

namespace RdfStore.Query

/-! ## The stages -/

/-- Whether the variable of a comparison is bound to a node with the comparison's URI, both in
full. -/
def Comparison.holds (ns : Namespaces) (shape : Shape) (t : Statement) (c : Comparison) : Bool :=
  (shape.positionOf c.name).any fun position =>
    (t.nodeAt position).uri?.any fun uri => decide (ns.extend uri = ns.extend c.uri)

namespace Select

/-- Whether a statement satisfies the filter, if there is one. -/
def admits (q : Select) (ns : Namespaces) (shape : Shape) (t : Statement) : Bool :=
  q.filter.all fun comparisons => comparisons.any (Comparison.holds ns shape t)

/-- The variables that a query selects. -/
def names (q : Select) (shape : Shape) : List String :=
  match q.projection with
  | .all => shape.names
  | .listed names => names

/-- The row of a statement: the selected variables with the nodes at their positions. -/
def rowOf (q : Select) (shape : Shape) (t : Statement) : Row :=
  .ofList ((q.names shape).filterMap fun name =>
    (shape.positionOf name).map fun position => (name, t.nodeAt position))

/-- All rows of a query, whose patterns have a shape, over some statements. -/
def answer (q : Select) (store : Namespaces) (shape : Shape) (statements : List Statement) :
    List Row :=
  let ns := q.namespaces store
  let matched := shape.matching ns statements
  let rows := (matched.filter (q.admits ns shape)).map (q.rowOf shape)
  if q.distinct then firstsBy Plan.rowKey rows else rows

end Select

/-! ## What a plan has of the stages -/

theorem Shape.get?_bind {shape : Shape} (different : shape.names.Nodup) (t : Statement)
    (name : String) : (shape.bind t).get? name = (shape.positionOf name).map t.nodeAt := by
  let bound := shape.bindings.map fun b => (b.1, t.nodeAt b.2)
  have keys : bound.map Prod.fst = shape.names := by
    rw [List.map_map]
    rfl
  have entries : (shape.bind t).entries = bound :=
    OrderedMap.entries_foldl_insert bound .empty (keys.symm ▸ different)
  rw [OrderedMap.get?, entries, positionOf]
  exact OrderedMap.lookup_map t.nodeAt name shape.bindings

/-- A filter that is resolved accepts what satisfies one of its comparisons. -/
theorem Filter.accepts_of_resolve {ns : Namespaces} {shape : Shape} {selected : List String}
    {comparisons : List Comparison} {f : Filter}
    (resolved : Filter.resolve ns shape selected comparisons = .ok f) (t : Statement) :
    f.accepts ns t = comparisons.any (Comparison.holds ns shape t) := by
  obtain ⟨uris, single, bound, -⟩ := Plan.fields_of_resolve resolved
  -- all comparisons have one variable, and the filter has its position
  have positions : ∀ c ∈ comparisons, shape.positionOf c.name = some f.position := by
    intro c mem
    rw [single c mem, bound]
  rw [Bool.eq_iff_iff, List.any_eq_true, Filter.accepts, uris, Option.any_eq_true]
  simp only [List.contains_iff_mem, mem_extendAll, List.mem_map]
  constructor
  · rintro ⟨uri, here, _, ⟨c, mem, rfl⟩, same⟩
    refine ⟨c, mem, ?_⟩
    rw [Comparison.holds, positions c mem, Option.any_some, here, Option.any_some,
      decide_eq_true_iff, same]
  · rintro ⟨c, mem, holds⟩
    rw [Comparison.holds, positions c mem, Option.any_some, Option.any_eq_true] at holds
    obtain ⟨uri, here, same⟩ := holds
    exact ⟨uri, here, _, ⟨c, mem, rfl⟩, (of_decide_eq_true same).symm⟩

namespace Plan

variable {q : Select} {store : Namespaces} {default : String} {plan : Plan}

theorem select_eq_names {shape : Shape} {selected : List String}
    (h : select shape q.projection = .ok selected) : selected = q.names shape := by
  unfold Select.names
  cases asked : q.projection with
  | all =>
      rw [asked] at h
      cases h
      rfl
  | listed names =>
      rw [asked, select] at h
      split at h
      · cases h
      · cases h
        rfl

/-- How a plan answers what its query asks for. -/
structure Serves (q : Select) (store : Namespaces) (plan : Plan) : Prop where
  selected : plan.selected = q.names plan.shape
  distinct : plan.distinct = q.distinct
  accepts : ∀ t, plan.accepts t = q.admits (q.namespaces store) plan.shape t

theorem serves_of_ofSelect (h : ofSelect q store default = .ok plan) : Serves q store plan := by
  obtain ⟨-, chosen, filters, namespaces, -, distinct⟩ := ofSelect_eq_ok h
  refine ⟨select_eq_names chosen, distinct, fun t => ?_⟩
  rw [Plan.accepts, Select.admits, namespaces]
  generalize q.filter = asked at filters ⊢
  generalize plan.filter = filter at filters ⊢
  cases filters with
  | none => rfl
  | some resolved => exact Filter.accepts_of_resolve resolved t

theorem Serves.rowOf (serves : Serves q store plan) (different : plan.shape.names.Nodup)
    (t : Statement) : plan.rowOf t = q.rowOf plan.shape t := by
  rw [Plan.rowOf, project, Select.rowOf, serves.selected]
  refine congrArg OrderedMap.ofList (List.filterMap_congr fun name _ => ?_)
  rw [Shape.get?_bind different, Option.map_map]
  rfl

/-! ## One pass -/

theorem prefix_atMost {α : Type} {n : Nat} {limit : Option Nat} (larger : ∀ m ∈ limit, n ≤ m)
    (l : List α) : atMost (some n) l <+: atMost limit l := by
  cases limit with
  | none => exact List.take_prefix n l
  | some m => exact List.take_prefix_take_left (larger m rfl)

/-- The rows of a plan are the first rows of its query's answer, as many as the limit allows, and a
larger limit only adds rows at the end. -/
theorem rows_eq_answer {text : String} (h : prepare text store default = .ok plan) :
    ∃ q, parse text = .ok q ∧ Shape.classify q.patterns = .ok plan.shape ∧
      (∀ statements limit, (plan.run statements limit).rows =
        atMost limit (q.answer store plan.shape statements)) ∧
      ∀ statements n limit, (∀ m ∈ limit, n ≤ m) →
        (plan.run statements (some n)).rows <+: (plan.run statements limit).rows := by
  obtain ⟨q, parsed, planned⟩ := prepare_eq_ok h
  have made := made_of_ofSelect planned
  have serves := serves_of_ofSelect planned
  have rows : ∀ statements limit, (plan.run statements limit).rows =
      atMost limit (q.answer store plan.shape statements) := by
    intro statements limit
    have accepts : plan.accepts = q.admits (q.namespaces store) plan.shape :=
      funext serves.accepts
    have rowOf : plan.rowOf = q.rowOf plan.shape := funext (serves.rowOf (names_nodup h))
    have all (rows : List Row) :
        plan.kept [] rows = if q.distinct then firstsBy rowKey rows else rows := by
      rw [kept, newBy_of_nothing_known, serves.distinct]
    rw [run, collect_eq, all, accepts, rowOf, made.namespaces]
    rfl
  refine ⟨q, parsed, made.shape, rows, fun statements n limit larger => ?_⟩
  rw [rows, rows]
  exact prefix_atMost larger _

/-- Of four statements one fails the filter and one repeats a row, so two rows remain. -/
theorem rows_eq_answer_sample :
    let text := "SELECT DISTINCT ?o \x7b ?s ?p ?o \x7d FILTER (?o = a:b || ?o = <c>)"
    let store := Namespaces.empty.add "a" "http://a/"
    let q : Select := {
      projection := .listed ["o"]
      distinct := true
      patterns := [⟨.variable "s", .variable "p", .variable "o"⟩]
      filter := some [⟨"o", "a:b"⟩, ⟨"o", "c"⟩] }
    let plan : Plan := ⟨store, .allStatements "s" "p" "o", ["o"],
      some ⟨"o", .object, ["http://a/b", "c"]⟩, ["urn:d"], true⟩
    let t : Statement := ⟨.named "s", .named "p", .named "a:b", none⟩
    let statements := [t, { t with object := .literal ⟨"c", none, none⟩ },
      { t with subject := .blank "s" }, { t with object := .named "c" }]
    prepare text store "urn:d" = .ok plan ∧
      (plan.run statements (some 1)).rows =
        atMost (some 1) (q.answer store plan.shape statements) ∧
      (plan.run statements (some 1)).rows <+: (plan.run statements (some 5)).rows ∧
      (q.answer store plan.shape statements).map OrderedMap.entries =
        [[("o", .named "a:b")], [("o", .named "c")]] := by
  intro text store q plan t statements
  have read : parse text = .ok q := by cbv
  have prepared : prepare text store "urn:d" = .ok plan := by
    rw [prepare, read]
    rfl
  obtain ⟨q', parsed, -, rows, more⟩ := rows_eq_answer prepared
  obtain rfl : q = q' := Except.ok.inj (read.symm.trans parsed)
  have larger : ∀ m ∈ some 5, 1 ≤ m := by decide
  exact ⟨prepared, rows statements (some 1), more statements 1 (some 5) larger, by decide +kernel⟩

end Plan

end RdfStore.Query
