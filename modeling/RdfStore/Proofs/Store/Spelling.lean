import Mathlib
import RdfStore.Proofs.Query.Spelling
import RdfStore.Session

/-!
# Spellings in calls

Calls that differ only in how their URIs are spelled have the same results and leave the same
store, whatever prefixes the store has and whatever it holds (`Storage.same_of_respelled`). URIs
are brought in full at different moments: before they are stored, before they are matched with what
is stored, and on both sides while a query is matched.

A pattern whose graph is a literal is refused, and the refusal quotes the literal as it is written.
This is the one place where the spelling shows (`Storage.quoted_as_written`).
-/

namespace RdfStore

open GraphStore PatternSearch

/-- Two errors of one kind with the same wording. -/
inductive Error.Alike : Error → Error → Prop
  | same (e : Error) : Alike e e
  | query {f g : Query.Fault} : f.Alike g → Alike (.query f) (.query g)

theorem Error.Alike.message {e e' : Error} (h : e.Alike e') : e.message = e'.message := by
  cases h with
  | same => rfl
  | query alike => exact alike.message

/-- Two errors that are the same, or that refuse the literals which two patterns have for a
graph. -/
inductive Error.Quoting (p q : Statement) : Error → Error → Prop
  | same (e : Error) : Quoting p q e e
  | literals {l m : Literal} : p.graph = some (.literal l) → q.graph = some (.literal m) →
      Quoting p q (.statement (.graphNotSelectable (.literal l)))
        (.statement (.graphNotSelectable (.literal m)))

namespace Store

variable {σ : Type} [GraphStore σ]

/-! ## Additions -/

theorem batchesFrom_eq {ns : Namespaces} {ts us : List Statement}
    (h : List.Forall₂ (Statement.Respelled ns) ts us) {graph graph' : Option String}
    (given : Option.Rel ns.Respelled graph graph') (default : String) (draws : Draws) :
    (∀ t ∈ ts, t.Valid) → (∀ u ∈ us, u.Valid) → ∀ batches r,
      batchesFrom ns default graph draws batches r ts =
        batchesFrom ns default graph' draws batches r us := by
  induction h with
  | nil => intro _ _ batches r; rfl
  | @cons t u ts us same rest ih =>
      intro valid valid' batches r
      obtain ⟨here, valid⟩ := List.forall_mem_cons.1 valid
      obtain ⟨here', valid'⟩ := List.forall_mem_cons.1 valid'
      simp only [batchesFrom, Statement.check_eq_ok_iff.2 here, Statement.check_eq_ok_iff.2 here',
        same.target given, same.normalize]
      exact ih valid valid' _ _

theorem add_eq (s : σ) (draws : Draws) {ts us : List Statement} (valid : ∀ t ∈ ts, t.Valid)
    (valid' : ∀ u ∈ us, u.Valid)
    (h : List.Forall₂ (Statement.Respelled (namespaces s)) ts us) {graph graph' : Option String}
    (given : Option.Rel (namespaces s).Respelled graph graph') :
    add s draws ts graph = add s draws us graph' := by
  unfold add
  rw [batchesFrom_eq h given _ _ valid valid']

/-! ## Patterns -/

section

variable {s : σ} {p q : Statement} {graph graph' : Option String}

theorem patternGraph_related (h : p.Respelled (namespaces s) q)
    (given : Option.Rel (namespaces s).Respelled graph graph') :
    Except.Related (Error.Quoting p q) Eq (patternGraph s p graph) (patternGraph s q graph') := by
  cases given with
  | some same => exact .ok (congrArg some same)
  | none =>
      rcases p with ⟨subject, predicate, object, own⟩
      rcases q with ⟨subject', predicate', object', own'⟩
      rcases h with ⟨-, -, -, h⟩
      dsimp only at h
      cases h with
      | none => exact .ok rfl
      | some same =>
          cases same with
          | named same => exact .ok (congrArg some same)
          | literal => exact .error (.literals rfl rfl)
          | blank label => exact .error (.same _)
          | pattern => exact .ok rfl

theorem patternTargets_related (h : p.Respelled (namespaces s) q)
    (given : Option.Rel (namespaces s).Respelled graph graph') :
    Except.Related (Error.Quoting p q) Eq (patternTargets s p graph)
      (patternTargets s q graph') := by
  have related := patternGraph_related h given
  unfold patternTargets
  generalize patternGraph s p graph = x at related ⊢
  generalize patternGraph s q graph' = y at related ⊢
  cases related with
  | error quoting => exact .error quoting
  | ok same =>
      subst same
      exact .refl .same _

theorem delete_related (h : p.Respelled (namespaces s) q)
    (given : Option.Rel (namespaces s).Respelled graph graph') :
    Except.Related (Error.Quoting p q) Eq (delete s p graph).result (delete s q graph').result ∧
      (delete s p graph).store = (delete s q graph').store := by
  have related := patternTargets_related h given
  unfold delete
  generalize patternTargets s p graph = x at related ⊢
  generalize patternTargets s q graph' = y at related ⊢
  cases related with
  | error quoting => exact ⟨.error quoting, rfl⟩
  | ok same =>
      subst same
      rw [Statement.respelled_iff.1 h]
      exact ⟨.refl .same _, rfl⟩

end

/-! ## Queries -/

theorem query_related (s : σ) {text text' : String} {q r : Query.Select}
    (read : Query.parse text = .ok q) (read' : Query.parse text' = .ok r)
    (h : q.Respelled (q.namespaces (namespaces s)) r) (limit : Option Nat) :
    Except.Related Error.Alike Eq (query s text limit) (query s text' limit) := by
  have plans : Except.Related Query.Fault.Alike Query.Plan.Respelled
      (Query.Plan.prepare text (namespaces s) (defaultGraph s))
      (Query.Plan.prepare text' (namespaces s) (defaultGraph s)) := by
    unfold Query.Plan.prepare
    rw [read, read']
    exact Query.Plan.ofSelect_related h (defaultGraph s)
  unfold query
  generalize Query.Plan.prepare text (namespaces s) (defaultGraph s) = x at plans ⊢
  generalize Query.Plan.prepare text' (namespaces s) (defaultGraph s) = y at plans ⊢
  cases plans with
  | error alike => exact .error (.query alike)
  | @ok plan plan' same =>
      have graphs : plan'.graphs = plan.graphs := by rw [same.rest]
      dsimp only
      rw [graphs]
      cases unionOf s .empty plan.graphs with
      | error e => exact .error (.same e)
      | ok union => exact .ok (same.run union.values limit)

end Store

/-! ## Searches -/

theorem MemoryStore.matching_related {s : MemoryStore} {p q : Statement}
    {graph graph' : Option String} (h : p.Respelled s.namespaces q)
    (given : Option.Rel s.namespaces.Respelled graph graph') :
    Except.Related (Error.Quoting p q) Eq (s.matching p graph) (s.matching q graph') ∧
      Except.Related (Error.Quoting p q) Eq (s.hasMatching p graph) (s.hasMatching q graph') := by
  have targets := Store.patternTargets_related (s := s) h given
  unfold MemoryStore.matching MemoryStore.hasMatching
  rw [Statement.respelled_iff.1 h]
  constructor
  · refine targets.map ?_
    intro ts us same
    rw [same]
  · refine targets.map ?_
    intro ts us same
    rw [same]

namespace Storage

/-- Calls that differ only in the spelling of URIs are the same calls. Additions of valid statements
have one reply. Deletions and searches have one reply as well, except that a literal in place of the
graph is refused as it is written. Queries have the same solutions or are refused in the same
words. -/
theorem same_of_respelled (s : Storage) :
    (∀ (draws : Draws) {ts us : List Statement} {graph graph' : Option String},
      (∀ t ∈ ts, t.Valid) → (∀ u ∈ us, u.Valid) →
        List.Forall₂ (Statement.Respelled (namespaces s)) ts us →
        Option.Rel (namespaces s).Respelled graph graph' →
        Store.add s draws ts graph = Store.add s draws us graph') ∧
    (∀ {p q : Statement} {graph graph' : Option String}, p.Respelled (namespaces s) q →
      Option.Rel (namespaces s).Respelled graph graph' →
        Except.Related (Error.Quoting p q) Eq (Store.delete s p graph).result
          (Store.delete s q graph').result ∧
        (Store.delete s p graph).store = (Store.delete s q graph').store ∧
        Except.Related (Error.Quoting p q) Eq (matching s p graph) (matching s q graph') ∧
        Except.Related (Error.Quoting p q) Eq (hasMatching s p graph) (hasMatching s q graph')) ∧
    ∀ {text text' : String} {q r : Query.Select} (limit : Option Nat),
      Query.parse text = .ok q → Query.parse text' = .ok r →
        q.Respelled (q.namespaces (namespaces s)) r →
        Except.Related Error.Alike Eq (Store.query s text limit) (Store.query s text' limit) := by
  refine ⟨fun draws _ _ _ _ valid valid' h given => Store.add_eq s draws valid valid' h given, ?_,
    fun limit read read' h => Store.query_related s read read' h limit⟩
  intro p q graph graph' h given
  obtain ⟨results, stores⟩ := Store.delete_related h given
  refine ⟨results, stores, ?_⟩
  cases s with
  | memory m => exact MemoryStore.matching_related h given
  | durable d => exact ⟨.refl .same _, .refl .same _⟩

/-- An addition, and in the store that it leaves the deletion of what was added and a query that has
an answer, each with short and with full URIs. -/
theorem same_of_respelled_sample :
    let t : Statement :=
      ⟨.named "http://a", .named "foaf:age", .literal ⟨"1", some "xsd:integer", none⟩, none⟩
    let u : Statement :=
      ⟨.named "http://a", .named "http://xmlns.com/foaf/0.1/age",
        .literal ⟨"1", some "http://www.w3.org/2001/XMLSchema#integer", none⟩, none⟩
    let v : Statement := ⟨.named "http://b", .named "foaf:age", .named "foaf:g", none⟩
    let full := "http://xmlns.com/foaf/0.1/g"
    let text := "SELECT * WHERE \x7b ?s <foaf:age> <foaf:g> \x7d"
    let text' := "SELECT * WHERE \x7b ?s <http://xmlns.com/foaf/0.1/age> <foaf:g> \x7d"
    let m := (MemoryStore.empty .standard "urn:d").create "foaf:g"
    let s := memory (Store.add m (fun _ => 0) [v] none).store
    let s' := (Store.add s (fun _ => 0) [t] (some "foaf:g")).store
    (t.Valid ∧ u.Valid ∧ t.Respelled (namespaces s) u) ∧
      (Store.add s (fun _ => 0) [t] (some "foaf:g")).result = .ok 1 ∧
      Store.add s (fun _ => 0) [t] (some "foaf:g") = Store.add s (fun _ => 0) [u] (some full) ∧
      (Store.delete s' t (some "foaf:g")).result = .ok 1 ∧
      Except.Related (Error.Quoting t u) Eq (Store.delete s' t (some "foaf:g")).result
        (Store.delete s' u (some full)).result ∧
      (Store.query s' text none).toOption.map (fun found => found.count) = some 1 ∧
      Except.Related Error.Alike Eq (Store.query s' text none) (Store.query s' text' none) := by
  intro t u v full text text' m s s'
  have valid : t.Valid := by decide
  have valid' : u.Valid := by decide
  have prefixes : namespaces s = .standard := Namespaces.ext (by decide +kernel)
  have prefixes' : namespaces s' = .standard := Namespaces.ext (by decide +kernel)
  have same : t.Respelled .standard u := by decide +kernel
  have graphs : Namespaces.standard.Respelled "foaf:g" full := by
    unfold Namespaces.Respelled
    decide +kernel
  let p : Query.TriplePattern := ⟨.variable "s", .uri "foaf:age", .uri "foaf:g"⟩
  let q : Query.TriplePattern := ⟨.variable "s", .uri "http://xmlns.com/foaf/0.1/age", .uri "foaf:g"⟩
  have read : Query.parse text = .ok { patterns := [p] } := by cbv
  have read' : Query.parse text' = .ok { patterns := [q] } := by cbv
  have ages : Namespaces.standard.Respelled "foaf:age" "http://xmlns.com/foaf/0.1/age" := by
    unfold Namespaces.Respelled
    decide +kernel
  have queries : Query.Select.Respelled .standard { patterns := [p] } { patterns := [q] } :=
    ⟨rfl, .nil, rfl, rfl, .cons ⟨.variable "s", .uri ages, .uri rfl⟩ .nil, .none⟩
  obtain ⟨additions, -, -⟩ := same_of_respelled s
  obtain ⟨-, patterns, answers⟩ := same_of_respelled s'
  rw [prefixes] at additions
  rw [prefixes'] at patterns
  refine ⟨⟨valid, valid', prefixes ▸ same⟩, by decide +kernel, ?_, by decide +kernel, ?_, ?_, ?_⟩
  · exact additions _ (List.forall_mem_singleton.2 valid) (List.forall_mem_singleton.2 valid')
      (.cons same .nil) (.some graphs)
  · exact (patterns same (.some graphs)).1
  · simp only [Store.query, Query.Plan.prepare, read]
    decide +kernel
  · refine answers none read read' ?_
    rw [prefixes']
    exact queries

/-- Two patterns for which the graph is one literal with two spellings of its datatype. Both
deletions are refused, in different words. -/
theorem quoted_as_written :
    let short : Literal := ⟨"g", some "xsd:string", none⟩
    let full : Literal := ⟨"g", some "http://www.w3.org/2001/XMLSchema#string", none⟩
    let p : Statement := ⟨.pattern none, .pattern none, .pattern none, some (.literal short)⟩
    let q : Statement := ⟨.pattern none, .pattern none, .pattern none, some (.literal full)⟩
    let s := memory (.empty .standard "urn:d")
    p.Respelled (namespaces s) q ∧
      (Store.delete s p none).result = .error (.statement (.graphNotSelectable (.literal short))) ∧
      (Store.delete s q none).result = .error (.statement (.graphNotSelectable (.literal full))) ∧
      (Error.statement (.graphNotSelectable (.literal short))).message ≠
        (Error.statement (.graphNotSelectable (.literal full))).message := by
  intro short full p q s
  have same : p.Respelled (namespaces s) q := by
    change p.Respelled Namespaces.standard q
    decide +kernel
  exact ⟨same, rfl, rfl, by decide +kernel⟩

end Storage

end RdfStore
