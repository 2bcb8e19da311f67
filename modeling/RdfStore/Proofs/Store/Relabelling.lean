import Mathlib.Data.List.Nodup
import RdfStore.Proofs.Store.Batches

/-!
# One relabelling for a whole addition

The labels of an addition are replaced one by one while its statements are sorted into batches, so
each statement is brought into normal form by the relabelling that the statements before it have
left (`Store.normalForms`). A relabelling only grows, and keeps what it has replaced
(`Relabelling.Grows`). All normal forms are therefore made by the last one
(`Store.normalForms_relabelled`). The batch of a graph is what arrives there
(`Store.Batches.batch_eq_arriving`), so every batch is its graph's statements renamed by one function
(`Store.Batches.relabelled`).

Which graphs have a batch, and in which order, depends on the targets of the statements alone
(`Store.Batches.keys_of_batchesFrom`).
-/

namespace RdfStore

/-! ## Renaming labels -/

/-- A node with its label renamed. -/
def Node.relabel (rename : String → String) : Node → Node
  | .blank label => .blank (rename label)
  | n => n

/-- A triple with its labels renamed. -/
def Triple.relabel (rename : String → String) (t : Triple) : Triple :=
  ⟨t.subject.relabel rename, t.predicate.relabel rename, t.object.relabel rename⟩

/-- The labels of a triple's blank nodes. -/
def Triple.labels (t : Triple) : List String := t.nodes.flatMap fun n => n.label?.toList

/-- The labels of a statement's blank nodes; the graph is not looked at. -/
def Statement.labels (t : Statement) : List String := t.triple.labels

theorem Node.label?_eq_some_iff {n : Node} {label : String} :
    n.label? = some label ↔ n = .blank label := by
  cases n <;> simp [Node.label?]

theorem Node.label?_extend (ns : Namespaces) (n : Node) : (n.extend ns).label? = n.label? := by
  cases n <;> rfl

theorem Triple.mem_labels_iff {t : Triple} {label : String} :
    label ∈ t.labels ↔ .blank label ∈ t.nodes := by
  simp only [labels, List.mem_flatMap, Option.mem_toList, Node.label?_eq_some_iff, exists_eq_right]

theorem Statement.labels_extend (ns : Namespaces) (t : Statement) :
    (t.extend ns).triple.labels = t.labels := by
  simp only [Statement.labels, Triple.labels, Triple.nodes, Statement.triple, Statement.extend,
    List.flatMap_cons, Node.label?_extend]

theorem Triple.mem_labels_relabel {rename : String → String} {t : Triple} {label : String}
    (mem : label ∈ t.labels) : rename label ∈ (t.relabel rename).labels := by
  rw [mem_labels_iff] at mem ⊢
  have nodes : (t.relabel rename).nodes = t.nodes.map (Node.relabel rename) := rfl
  rw [nodes]
  exact List.mem_map_of_mem mem

/-- A renaming that keeps labels apart keeps nodes apart. -/
theorem Node.relabel_injOn {rename : String → String} {L : List String}
    (apart : ∀ a ∈ L, ∀ b ∈ L, rename a = rename b → a = b) {n m : Node}
    (left : ∀ a, n = .blank a → a ∈ L) (right : ∀ b, m = .blank b → b ∈ L)
    (same : n.relabel rename = m.relabel rename) : n = m := by
  cases n with
  | blank a =>
      cases m with
      | blank b => exact congrArg Node.blank (apart a (left a rfl) b (right b rfl) (Node.blank.inj same))
      | named | literal | pattern => cases same
  | named | literal | pattern =>
      cases m with
      | blank => cases same
      | named | literal | pattern => exact same

/-- A renaming that keeps labels apart keeps triples apart. -/
theorem Triple.relabel_injOn {rename : String → String} {L : List String}
    (apart : ∀ a ∈ L, ∀ b ∈ L, rename a = rename b → a = b) {t u : Triple}
    (left : t.labels ⊆ L) (right : u.labels ⊆ L)
    (same : t.relabel rename = u.relabel rename) : t = u := by
  have known : ∀ {v : Triple}, v.labels ⊆ L → ∀ n ∈ v.nodes, ∀ a, n = .blank a → a ∈ L := by
    intro v sub n mem a eq
    exact sub (mem_labels_iff.2 (eq ▸ mem))
  have node : ∀ {n m : Node}, n ∈ t.nodes → m ∈ u.nodes → n.relabel rename = m.relabel rename →
      n = m := fun here there => Node.relabel_injOn apart (known left _ here) (known right _ there)
  rcases t with ⟨s, p, o⟩
  rcases u with ⟨s', p', o'⟩
  obtain ⟨subject, predicate, object⟩ := Triple.mk.inj same
  rw [Triple.mk.injEq]
  exact ⟨node (by simp [nodes]) (by simp [nodes]) subject,
    node (by simp [nodes]) (by simp [nodes]) predicate,
    node (by simp [nodes]) (by simp [nodes]) object⟩

/-! ## Growing relabellings -/

namespace Relabelling

/-- What a relabelling makes of a label; one that it does not know stays. -/
def rename (r : Relabelling) (label : String) : String := (r.table.get? label).getD label

/-- The labels that were handed out are the first draws, in order. -/
def Drawn (draws : Draws) (r : Relabelling) : Prop :=
  r.table.values = (List.range r.size).map fun i => generatedLabel (draws i)

/-- A later state of a relabelling, which has met some labels more. -/
structure Grows (draws : Draws) (labels : List String) (r r' : Relabelling) : Prop where
  kept : ∀ {a b}, r.table.get? a = some b → r'.table.get? a = some b
  known : ∀ a, a ∈ r'.table.keys ↔ a ∈ r.table.keys ∨ a ∈ labels
  drawn : r.Drawn draws → r'.Drawn draws

variable {ns : Namespaces} {draws : Draws} {labels labels' : List String}
  {r r' r'' R : Relabelling}

theorem Grows.refl (draws : Draws) (r : Relabelling) : Grows draws [] r r :=
  ⟨id, fun a => by simp, id⟩

theorem Grows.trans (h : Grows draws labels r r') (h' : Grows draws labels' r' r'') :
    Grows draws (labels ++ labels') r r'' where
  kept found := h'.kept (h.kept found)
  known a := by rw [h'.known, h.known, List.mem_append, or_assoc]
  drawn start := h'.drawn (h.drawn start)

theorem grows_resolve (draws : Draws) (r : Relabelling) (label : String) :
    Grows draws [label] r (r.resolve draws label).2 := by
  unfold resolve
  cases found : r.table.get? label with
  | some generated =>
      have mem : label ∈ r.table.keys := OrderedMap.mem_keys_iff.2 ⟨generated, found⟩
      refine ⟨id, fun a => ?_, id⟩
      rw [List.mem_singleton]
      exact ⟨Or.inl, fun given => given.elim id fun same => same ▸ mem⟩
  | none =>
      have absent : label ∉ r.table.keys := OrderedMap.get?_eq_none_iff.1 found
      refine ⟨?_, ?_, ?_⟩
      · intro a b known
        have ne : label ≠ a := by
          intro same
          rw [same, known] at found
          cases found
        rw [OrderedMap.get?_insert, if_neg ne]
        exact known
      · intro a
        rw [OrderedMap.keys_insert, if_neg absent, List.mem_append]
      · intro drawn
        unfold Drawn size OrderedMap.size OrderedMap.values
        dsimp only
        rw [OrderedMap.entries_insert_of_not_mem _ absent, List.map_append, List.length_append,
          List.length_singleton, List.range_succ, List.map_append]
        exact congrArg (· ++ _) drawn

theorem grows_normalizeNode (r : Relabelling) (n : Node) :
    Grows draws n.label?.toList r (r.normalizeNode ns draws n).2 := by
  cases n with
  | blank label => exact grows_resolve draws r label
  | named | literal | pattern => exact .refl draws r

theorem grows_normalize (graph : String) (r : Relabelling) (t : Statement) :
    Grows draws t.labels r (r.normalize ns draws graph t).2 := by
  have labels : t.labels =
      t.subject.label?.toList ++ (t.predicate.label?.toList ++ t.object.label?.toList) := by
    simp only [Statement.labels, Triple.labels, Triple.nodes, Statement.triple, List.flatMap_cons,
      List.flatMap_nil, List.append_nil]
  rw [labels]
  exact (grows_normalizeNode _ _).trans ((grows_normalizeNode _ _).trans (grows_normalizeNode _ _))

/-! ## Normal forms by the last relabelling -/

theorem resolve_eq {label : String} (later : Grows draws labels (r.resolve draws label).2 R) :
    (r.resolve draws label).1 = R.rename label := by
  have found : (r.resolve draws label).2.table.get? label = some (r.resolve draws label).1 := by
    unfold resolve
    cases known : r.table.get? label with
    | some generated => exact known
    | none =>
        dsimp only
        rw [OrderedMap.get?_insert, if_pos rfl]
  rw [rename, later.kept found, Option.getD_some]

theorem normalizeNode_eq {n : Node} (later : Grows draws labels (r.normalizeNode ns draws n).2 R) :
    (r.normalizeNode ns draws n).1 = (n.extend ns).relabel R.rename := by
  cases n with
  | blank label => exact congrArg Node.blank (resolve_eq later)
  | named | literal | pattern => rfl

/-- A normal form is the full form renamed by any later relabelling. -/
theorem normalize_eq {graph : String} {t : Statement}
    (later : Grows draws labels (r.normalize ns draws graph t).2 R) :
    (r.normalize ns draws graph t).1 =
      ((t.extend ns).triple.relabel R.rename).inGraph graph := by
  let s := r.normalizeNode ns draws t.subject
  let p := s.2.normalizeNode ns draws t.predicate
  let o := p.2.normalizeNode ns draws t.object
  have afterObject : Grows draws labels o.2 R := later
  have afterPredicate := (grows_normalizeNode p.2 t.object).trans afterObject
  have afterSubject := (grows_normalizeNode s.2 t.predicate).trans afterPredicate
  have object : o.1 = (t.object.extend ns).relabel R.rename := normalizeNode_eq afterObject
  have predicate : p.1 = (t.predicate.extend ns).relabel R.rename := normalizeNode_eq afterPredicate
  have subject : s.1 = (t.subject.extend ns).relabel R.rename := normalizeNode_eq afterSubject
  change (⟨s.1, p.1, o.1, some (.named graph)⟩ : Statement) = _
  rw [subject, predicate, object]
  rfl

end Relabelling

/-! ## Normal forms in order -/

namespace Store

variable {ns : Namespaces} {default : String} {explicit : Option String} {draws : Draws}

/-- The normal forms of statements, each with the graph that it is written to. -/
def normalForms (ns : Namespaces) (default : String) (explicit : Option String) (draws : Draws) :
    Relabelling → List Statement → List (String × Statement)
  | _, [] => []
  | r, t :: rest =>
    let graph := t.target ns explicit default
    let (normal, r) := r.normalize ns draws graph t
    (graph, normal) :: normalForms ns default explicit draws r rest

/-- What is written to a graph, in order. -/
def arriving (forms : List (String × Statement)) (graph : String) : List Statement :=
  (forms.filter fun e => decide (e.1 = graph)).map Prod.snd

theorem map_fst_normalForms (statements : List Statement) :
    ∀ r : Relabelling, (normalForms ns default explicit draws r statements).map Prod.fst =
      statements.map (Statement.target ns explicit default) := by
  induction statements with
  | nil => intro r; rfl
  | cons t rest ih => intro r; exact congrArg (t.target ns explicit default :: ·) (ih _)

/-- All normal forms are renamed by the relabelling at the end: by induction, because it has grown
from each one on the way. -/
theorem normalForms_relabelled (statements : List Statement) :
    ∀ r : Relabelling, ∃ R, Relabelling.Grows draws (statements.flatMap Statement.labels) r R ∧
      normalForms ns default explicit draws r statements = statements.map fun t =>
        let graph := t.target ns explicit default
        (graph, ((t.extend ns).triple.relabel R.rename).inGraph graph) := by
  induction statements with
  | nil => exact fun r => ⟨r, .refl draws r, rfl⟩
  | cons t rest ih =>
      intro r
      let graph := t.target ns explicit default
      obtain ⟨R, grows, forms⟩ := ih (r.normalize ns draws graph t).2
      refine ⟨R, (Relabelling.grows_normalize _ r t).trans grows, ?_⟩
      have here : (r.normalize ns draws graph t).1 =
          ((t.extend ns).triple.relabel R.rename).inGraph graph := Relabelling.normalize_eq grows
      exact congrArg₂ (fun normal forms => (graph, normal) :: forms) here forms

theorem arriving_cons (e : String × Statement) (forms : List (String × Statement)) (graph : String) :
    arriving (e :: forms) graph = (if e.1 = graph then [e.2] else []) ++ arriving forms graph := by
  rw [arriving, List.filter_cons]
  by_cases here : e.1 = graph
  · rw [if_pos (decide_eq_true here), if_pos here]
    rfl
  · rw [if_neg (fun yes => here (of_decide_eq_true yes)), if_neg here]
    rfl

/-- What arrives at a graph are the forms, made for this graph, of the statements written to it. -/
theorem arriving_map (target : Statement → String) (form : String → Statement → Statement)
    (statements : List Statement) (graph : String) :
    arriving (statements.map fun t => (target t, form (target t) t)) graph =
      (statements.filter fun t => decide (target t = graph)).map (form graph) := by
  rw [arriving, List.filter_map, List.map_map]
  refine List.map_congr_left fun t mem => ?_
  have here : target t = graph := of_decide_eq_true (List.mem_filter.1 mem).2
  exact congrArg (form · t) here

end Store

/-! ## Batches -/

namespace Store.Batches

variable {ns : Namespaces} {default : String} {explicit : Option String} {draws : Draws}

/-- The step for a statement that passes the check. -/
theorem batchesFrom_cons {t : Statement} (valid : t.check = .ok ()) (batches : Batches)
    (r : Relabelling) (rest : List Statement) :
    batchesFrom ns default explicit draws batches r (t :: rest) =
      let graph := t.target ns explicit default
      batchesFrom ns default explicit draws (batches.push graph (r.normalize ns draws graph t).1)
        (r.normalize ns draws graph t).2 rest := by
  rw [batchesFrom, valid]

theorem getD_get?_push (batches : Batches) (graph g : String) (x : Statement) :
    ((batches.push graph x).get? g).getD [] =
      (batches.get? g).getD [] ++ if graph = g then [x] else [] := by
  rw [push, OrderedMap.get?_insert]
  split
  · rename_i same
    rw [same, Option.getD_some]
  · rw [List.append_nil]

/-- The batch of a graph grows by what arrives at it. -/
theorem batch_eq_arriving (statements : List Statement) :
    ∀ {batches result : Batches} {r : Relabelling},
      batchesFrom ns default explicit draws batches r statements = .ok result →
      ∀ graph, (result.get? graph).getD [] = (batches.get? graph).getD [] ++
        arriving (normalForms ns default explicit draws r statements) graph := by
  induction statements with
  | nil =>
      intro batches result r made graph
      cases made
      exact (List.append_nil _).symm
  | cons t rest ih =>
      intro batches result r made graph
      cases checked : t.check with
      | error fault =>
          rw [batchesFrom, checked] at made
          cases made
      | ok =>
          rw [batchesFrom_cons checked] at made
          rw [ih made, getD_get?_push, normalForms, arriving_cons, List.append_assoc]

/-- The batch of a graph is what is written to it, renamed by one relabelling. -/
theorem relabelled (statements : List Statement) {batches result : Batches} {r : Relabelling}
    (made : batchesFrom ns default explicit draws batches r statements = .ok result) :
    ∃ R, Relabelling.Grows draws (statements.flatMap Statement.labels) r R ∧
      ∀ g, (result.get? g).getD [] = (batches.get? g).getD [] ++
        (statements.filter fun t => decide (t.target ns explicit default = g)).map
          fun t => ((t.extend ns).triple.relabel R.rename).inGraph g := by
  obtain ⟨R, grows, forms⟩ := normalForms_relabelled statements r
  refine ⟨R, grows, fun g => ?_⟩
  rw [batch_eq_arriving statements made, forms]
  exact congrArg (_ ++ ·) (arriving_map _
    (fun graph t => ((t.extend ns).triple.relabel R.rename).inGraph graph) statements g)

/-- The graphs of the batches stand in the order in which statements are first written to them. -/
theorem keys_of_batchesFrom (statements : List Statement) :
    ∀ {batches result : Batches} {r : Relabelling},
      batchesFrom ns default explicit draws batches r statements = .ok result →
      result.keys = (statements.map (Statement.target ns explicit default)).foldl
        (fun known g => if g ∈ known then known else known ++ [g]) batches.keys := by
  induction statements with
  | nil =>
      intro batches result r made
      cases made
      rfl
  | cons t rest ih =>
      intro batches result r made
      cases checked : t.check with
      | error fault =>
          rw [batchesFrom, checked] at made
          cases made
      | ok =>
          rw [batchesFrom_cons checked] at made
          rw [ih made, push, OrderedMap.keys_insert]
          rfl

end Store.Batches

end RdfStore
