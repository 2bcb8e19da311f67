import RdfStore.Proofs.Query.Plan
import RdfStore.Proofs.Store.Union

/-!
# The graphs of a query form a set

The FROM clauses of a query name the graphs whose union it runs over. In what order they stand, how
often a graph is named and how its name is spelled only decides in what order the rows come
(`Storage.query_of_sameGraphs`): the rows are those over the triples of all graphs, each triple
once, and a graph that is missing is missing in every order.

This is said of texts that are read as clauses. For a text that the grammar rejects, the spelling of
a graph can change the refusal, because the search for unsupported keywords looks into prefixed
names (`Storage.keyword_in_graph`).
-/

namespace RdfStore

open GraphStore Store

/-- Two refusals of a query for one fault, or for graphs that are missing. -/
inductive Error.Unanswered : Error → Error → Prop
  | query (fault : Query.Fault) : Unanswered (.query fault) (.query fault)
  | missing (graph graph' : String) : Unanswered (.graphNotFound graph) (.graphNotFound graph')

/-- The same variables, and the same rows up to order. -/
structure Query.Solutions.Reordered (a b : Query.Solutions) : Prop where
  selected : a.selected = b.selected
  rows : a.rows.Perm b.rows

namespace Store

variable {σ : Type} [GraphStore σ] {s : σ} {text text' : String} {plan : Query.Plan}

/-- The rows of a query are those over any list of its graphs' triples that has each once. -/
theorem rows_perm_of_triples (readable : Readable s) (apart : Triple.Apart (triples s))
    (texts : Triple.TextsApart (triples s))
    (prepared : Query.Plan.prepare text (namespaces s) (defaultGraph s) = .ok plan)
    {ts : List Triple} (nodup : ts.Nodup)
    (union : ∀ t, t ∈ ts ↔ ∃ graph ∈ plan.graphs, t ∈ triplesOf s graph) :
    (plan.rowsOver (unionTriples s plan.graphs)).Perm (plan.rowsOver ts) := by
  have stored : ts ⊆ triples s := by
    intro t mem
    obtain ⟨graph, -, here⟩ := (union t).1 mem
    exact readable.triplesOf_subset graph here
  refine Query.Plan.rowsOver_perm (Query.Plan.names_nodup prepared)
    (unionTriples_nodup s plan.graphs) nodup (fun t => ?_)
    fun t here u there => texts t (stored here) u (stored there)
  rw [mem_unionTriples readable apart, union]

/-- Two plans that differ in their graphs only, of which both name the same, answer alike. -/
theorem query_of_plans (readable : Readable s) (apart : Triple.Apart (triples s))
    (texts : Triple.TextsApart (triples s)) {graphs : List String}
    (prepared : Query.Plan.prepare text (namespaces s) (defaultGraph s) = .ok plan)
    (prepared' : Query.Plan.prepare text' (namespaces s) (defaultGraph s) =
      .ok { plan with graphs := graphs })
    (same : ∀ graph, graph ∈ plan.graphs ↔ graph ∈ graphs) :
    Except.Related Error.Unanswered Query.Solutions.Reordered (query s text none)
      (query s text' none) := by
  have known : firstUnknown s plan.graphs = none ↔ firstUnknown s graphs = none := by
    simp only [firstUnknown_eq_none_iff, same]
  rw [query_eq readable prepared, query_eq readable prepared']
  dsimp only
  cases unknown : firstUnknown s plan.graphs with
  | some graph =>
      cases unknown' : firstUnknown s graphs with
      | some graph' => exact .error (.missing graph graph')
      | none => cases unknown.symm.trans (known.2 unknown')
  | none =>
      rw [known.1 unknown]
      refine .ok ⟨rfl, ?_⟩
      dsimp only
      rw [plan.rowsOver_graphs graphs]
      refine rows_perm_of_triples readable apart texts prepared (unionTriples_nodup s graphs) ?_
      intro t
      simp only [mem_unionTriples readable apart, same]

end Store

namespace Storage

/-- Two texts that are read alike but for their FROM clauses, which name the same graphs, are both
refused, for the same fault or for a missing graph, or they have the same rows up to order. The rows
are those over any list that has each triple of the graphs once. -/
theorem query_of_sameGraphs {s : Storage} (reachable : s.Reachable)
    (apart : Triple.Apart (triples s)) (texts : Triple.TextsApart (triples s))
    {text text' : String} {c : Query.Clauses} {graphs : List String} (read : Query.Reads text c)
    (read' : Query.Reads text' { c with graphs := graphs })
    (same : Query.SameGraphs ((namespaces s).addAll c.prefixes) c.graphs graphs) :
    Except.Related Error.Unanswered Query.Solutions.Reordered (Store.query s text none)
        (Store.query s text' none) ∧
      ∀ solutions, Store.query s text none = .ok solutions →
        ∃ plan, Query.Plan.prepare text (namespaces s) (defaultGraph s) = .ok plan ∧
          ∀ ts : List Triple, ts.Nodup →
            (∀ t, t ∈ ts ↔ ∃ graph ∈ Query.Plan.targets ((namespaces s).addAll c.prefixes)
              (defaultGraph s) c.graphs, t ∈ triplesOf s graph) →
            solutions.selected = plan.selected ∧ solutions.rows.Perm (plan.rowsOver ts) := by
  have readable := reachable.readable
  have moved := Query.Plan.prepare_graphs read read' (namespaces s) (defaultGraph s)
  cases prepared : Query.Plan.prepare text (namespaces s) (defaultGraph s) with
  | error fault =>
      rw [prepared] at moved
      have refused : Store.query s text none = .error (.query fault) := by
        rw [Store.query, prepared]
      have refused' : Store.query s text' none = .error (.query fault) := by
        rw [Store.query, moved]
        rfl
      rw [refused, refused']
      exact ⟨.error (.query fault), fun _ answered => by cases answered⟩
  | ok plan =>
      rw [prepared] at moved
      have targets := Query.Plan.graphs_of_prepare read prepared
      refine ⟨query_of_plans readable apart texts prepared moved fun graph => ?_, ?_⟩
      · rw [targets]
        exact Query.Plan.mem_targets_of_sameGraphs same
      · intro solutions answered
        refine ⟨plan, rfl, fun ts nodup union => ?_⟩
        rw [← targets] at union
        rw [query_eq readable prepared] at answered
        split at answered
        · cases answered
        · cases answered
          exact ⟨rfl, rows_perm_of_triples readable apart texts prepared nodup union⟩

/-- Two graphs that share a statement, named in either order, one of them twice. -/
theorem query_of_sameGraphs_sample :
    let t : Statement := ⟨.named "urn:a", .named "urn:p", .literal ⟨"x", none, none⟩, none⟩
    let u : Statement := ⟨.named "urn:b", .named "urn:p", .literal ⟨"x", none, none⟩, none⟩
    let s := durable (Event.after DurableStore.reopenWith
      (DurableStore.new (Namespaces.empty.add "e" "urn:") "urn:d")
      [.change (.create "e:g"), .change (.create "e:h"),
        .change (.add (fun _ => 0) [t, u] (some "e:g")),
        .change (.add (fun _ => 0) [u] (some "e:h"))])
    let text := "SELECT * FROM e:g FROM e:h \x7b ?s e:p \"x\" \x7d"
    let text' := "SELECT * FROM e:h FROM <urn:g> FROM e:g \x7b ?s e:p \"x\" \x7d"
    let c : Query.Clauses := ⟨[], false, .all, ["e:g", "e:h"],
      [⟨.variable "s", .uri "e:p", .literal ⟨"x", none, none⟩⟩], none, none⟩
    let graphs := ["e:h", "urn:g", "e:g"]
    s.Reachable ∧ Triple.Apart (triples s) ∧ Triple.TextsApart (triples s) ∧
      Query.Reads text c ∧ Query.Reads text' { c with graphs := graphs } ∧
      Query.SameGraphs ((namespaces s).addAll c.prefixes) c.graphs graphs ∧
      Except.Related Error.Unanswered Query.Solutions.Reordered (Store.query s text none)
        (Store.query s text' none) := by
  intro t u s text text' c graphs
  have reachable : s.Reachable := ⟨_, _, _, rfl⟩
  have apart : Triple.Apart (triples s) := by decide +kernel
  have texts : Triple.TextsApart (triples s) := by decide +kernel
  have selects : Query.formOf text.toList = .select := by cbv
  have selects' : Query.formOf text'.toList = .select := by cbv
  have read : Query.Reads text c := by
    refine ⟨fun keyword other => ?_, by cbv⟩
    rw [selects] at other
    cases other
  have read' : Query.Reads text' { c with graphs := graphs } := by
    refine ⟨fun keyword other => ?_, by cbv⟩
    rw [selects'] at other
    cases other
  have same : Query.SameGraphs ((namespaces s).addAll c.prefixes) c.graphs graphs := by
    have full : c.graphs.map ((namespaces s).addAll c.prefixes).extend =
        ["urn:g", "urn:h"] := by decide +kernel
    have full' : graphs.map ((namespaces s).addAll c.prefixes).extend =
        ["urn:h", "urn:g", "urn:g"] := by decide +kernel
    intro graph
    rw [full, full']
    simp [or_comm]
  exact ⟨reachable, apart, texts, read, read', same,
    (query_of_sameGraphs reachable apart texts read read' same).1⟩

/-- Two texts that no grammar accepts differ in the spelling of a graph only, and are refused for
different faults. -/
theorem keyword_in_graph :
    let s := memory (.empty .standard "urn:d")
    Store.query s "SELECT * FROM <ex:union> WHERE \x7b ?s ?p \x7d" none =
        .error (.query (.malformed .grammar)) ∧
      Store.query s "SELECT * FROM ex:union WHERE \x7b ?s ?p \x7d" none =
        .error (.query (.unsupported (.keyword "UNION"))) := by
  intro s
  have left : Query.parse "SELECT * FROM <ex:union> WHERE \x7b ?s ?p \x7d" =
      .error (.malformed .grammar) := by cbv
  have right : Query.parse "SELECT * FROM ex:union WHERE \x7b ?s ?p \x7d" =
      .error (.unsupported (.keyword "UNION")) := by cbv
  constructor
  · simp only [Store.query, Query.Plan.prepare, left]
    rfl
  · simp only [Store.query, Query.Plan.prepare, right]
    rfl

end Storage

end RdfStore
