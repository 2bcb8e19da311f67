import Mathlib
import RdfStore.Proofs.Firsts
import RdfStore.Store

/-!
# The rows that a plan collects

A plan goes through the matching statements once. What it collects are the rows of the statements that
pass the filter, with DISTINCT the first with each key, cut off at the limit (`Plan.collect_eq`).
Without DISTINCT and without a limit every such statement makes a row
(`Plan.collect_eq_map_filter`). The query for everything is the simplest example: it lists the
statements of the default graph (`Store.query_everything`).
-/

namespace RdfStore

namespace Query

/-- The first members of a list, as many as a limit allows. -/
def atMost {α : Type} (limit : Option Nat) (l : List α) : List α := limit.elim l l.take

theorem atMost_zero {α : Type} (l : List α) : atMost (some 0) l = [] := rfl

theorem atMost_cons {α : Type} {room : Option Nat} (some : room ≠ some 0) (a : α) (l : List α) :
    atMost room (a :: l) = a :: atMost (room.map (· - 1)) l := by
  rcases room with _ | _ | room
  · rfl
  · exact absurd rfl some
  · rfl

theorem atMost_sublist {α : Type} (limit : Option Nat) (l : List α) :
    List.Sublist (atMost limit l) l := by
  cases limit with
  | none => exact List.Sublist.refl l
  | some n => exact List.take_sublist n l

/-- The rows that a plan keeps of its rows in order, given the keys of the rows before: all of them, or
with DISTINCT those with new keys. -/
def Plan.kept (plan : Plan) (seen : List (List String)) (rows : List Row) : List Row :=
  if plan.distinct then newBy rowKey seen rows else rows

theorem Plan.kept_cons (plan : Plan) (seen : List (List String)) (row : Row) (rows : List Row) :
    plan.kept seen (row :: rows) =
      if plan.distinct && seen.contains (rowKey row) then plan.kept seen rows
      else row :: plan.kept (rowKey row :: seen) rows := by
  unfold kept
  cases plan.distinct with
  | false => rfl
  | true =>
      by_cases old : rowKey row ∈ seen
      · simp only [if_true, Bool.true_and, List.contains_iff_mem, if_pos old, newBy_cons_of_mem old]
      · simp only [if_true, Bool.true_and, List.contains_iff_mem, if_neg old,
          newBy_cons_of_not_mem old]

theorem Plan.kept_sublist (plan : Plan) (seen : List (List String)) (rows : List Row) :
    List.Sublist (plan.kept seen rows) rows := by
  unfold kept
  split
  · exact newBy_sublist rowKey seen rows
  · exact List.Sublist.refl rows

/-- One step of a collection that still has room. -/
theorem Plan.collect_cons (plan : Plan) (seen : List (List String)) {room : Option Nat}
    (some : room ≠ some 0) (t : Statement) (rest : List Statement) :
    plan.collect seen room (t :: rest) =
      if plan.accepts t then
        if plan.distinct && seen.contains (rowKey (plan.rowOf t)) then plan.collect seen room rest
        else
          plan.rowOf t :: plan.collect (rowKey (plan.rowOf t) :: seen) (room.map (· - 1)) rest
      else plan.collect seen room rest := by
  rcases room with _ | _ | room
  · rfl
  · exact absurd rfl some
  · rfl

theorem Plan.collect_zero (plan : Plan) (seen : List (List String)) (statements : List Statement) :
    plan.collect seen (some 0) statements = [] := by
  cases statements <;> rfl

/-- Collecting row by row comes to the same as making all rows, keeping those that are new, and then
cutting off what exceeds the limit: by induction, for any keys that have been seen and any room that
is left. -/
theorem Plan.collect_eq (plan : Plan) (statements : List Statement) :
    ∀ seen room, plan.collect seen room statements =
      atMost room (plan.kept seen ((statements.filter plan.accepts).map plan.rowOf)) := by
  induction statements with
  | nil =>
      intro seen room
      have none : plan.kept seen [] = [] := by
        rw [kept, newBy_nil, ite_self]
      rw [List.filter_nil, List.map_nil, none]
      rcases room with _ | _ | room <;> rfl
  | cons t rest ih =>
      intro seen room
      by_cases full : room = some 0
      · rw [full, collect_zero, atMost_zero]
      · rw [collect_cons plan seen full]
        by_cases accepted : plan.accepts t = true
        · rw [if_pos accepted, List.filter_cons_of_pos accepted, List.map_cons, kept_cons]
          split
          · exact ih seen room
          · rw [atMost_cons full, ih]
        · rw [if_neg accepted, List.filter_cons_of_neg accepted, ih]

theorem Plan.collect_eq_map_filter {plan : Plan} (distinct : plan.distinct = false)
    (statements : List Statement) (seen : List (List String)) :
    plan.collect seen none statements = (statements.filter plan.accepts).map plan.rowOf := by
  have all (rows : List Row) : plan.kept seen rows = rows := by
    rw [kept, distinct, if_neg Bool.false_ne_true]
  rw [collect_eq, all]
  rfl

theorem Plan.collect_eq_map {plan : Plan} (filter : plan.filter = none)
    (distinct : plan.distinct = false) (statements : List Statement) :
    ∀ seen, plan.collect seen none statements = statements.map plan.rowOf := by
  intro seen
  have all : ∀ t ∈ statements, plan.accepts t = true := fun t _ => by rw [accepts, filter]
  rw [collect_eq_map_filter distinct, List.filter_eq_self.2 all]

/-- Two plans that accept the same statements and make the same rows of them collect alike. -/
theorem Plan.collect_congr {plan plan' : Plan} (distinct : plan.distinct = plan'.distinct)
    (statements : List Statement) :
    (∀ t ∈ statements, plan.accepts t = plan'.accepts t) →
    (∀ t ∈ statements, plan.rowOf t = plan'.rowOf t) →
    ∀ seen room, plan.collect seen room statements = plan'.collect seen room statements := by
  induction statements with
  | nil => intro _ _ seen room; rfl
  | cons t rest ih =>
      intro accepts rows seen room
      obtain ⟨accepted, accepts⟩ := List.forall_mem_cons.1 accepts
      obtain ⟨row, rows⟩ := List.forall_mem_cons.1 rows
      rcases room with _ | _ | room
      · simp only [collect, accepted, row, distinct, ih accepts rows]
      · rfl
      · simp only [collect, accepted, row, distinct, ih accepts rows]

/-- The query for all statements of the default graph. -/
def everything : String := "SELECT * WHERE \x7b ?s ?p ?o \x7d"

/-- Its plan. -/
def Plan.everything (ns : Namespaces) (default : String) : Plan :=
  ⟨ns, .allStatements "s" "p" "o", ["s", "p", "o"], none, [default], false⟩

theorem Plan.prepare_everything (ns : Namespaces) (default : String) :
    Plan.prepare Query.everything ns default = .ok (.everything ns default) := by
  have read : parse Query.everything =
      .ok { patterns := [⟨.variable "s", .variable "p", .variable "o"⟩] } := by cbv
  unfold Plan.prepare
  rw [read]
  rfl

theorem Plan.entries_rowOf_everything (ns : Namespaces) (default : String) (t : Statement) :
    ((Plan.everything ns default).rowOf t).entries =
      [("s", t.subject), ("p", t.predicate), ("o", t.object)] := rfl

end Query

namespace Store

open GraphStore

/-- The query for everything answers one row for each statement of the default graph, in order. -/
theorem query_everything {σ : Type} [GraphStore σ] {s : σ} {union : OrderedMap Digest Statement}
    (united : unionOf s .empty [defaultGraph s] = .ok union) :
    ∃ solutions, query s Query.everything none = .ok solutions ∧
      solutions.rows.map OrderedMap.entries =
        union.values.map fun t => [("s", t.subject), ("p", t.predicate), ("o", t.object)] := by
  let plan := Query.Plan.everything (namespaces s) (defaultGraph s)
  refine ⟨plan.run union.values none, ?_, ?_⟩
  · have graphs : plan.graphs = [defaultGraph s] := rfl
    rw [query, Query.Plan.prepare_everything]
    dsimp only
    rw [graphs, united]
  · change (plan.collect [] none union.values).map OrderedMap.entries = _
    rw [Query.Plan.collect_eq_map rfl rfl, List.map_map]
    exact List.map_congr_left fun t _ =>
      Query.Plan.entries_rowOf_everything (namespaces s) (defaultGraph s) t

end Store

end RdfStore
