import RdfStore.Proofs.Query.Declaration
import RdfStore.Proofs.Query.RoundTrip
import RdfStore.Proofs.Store.Stored

/-!
# What is stored is found by writing it down

The canonical text of a node is how a query writes it (`Node.written_term`), so the texts of a stored
statement's nodes can be put into a query: one asks for the subjects with its predicate and object,
one for the predicates and objects of its subject. Both are read as they are meant, because reading
inverts writing (`parse_written`). A term matches the node that it was made of under whatever
prefixes, and the union of graphs loses no triple, so both answer the statement's row
(`Storage.found_of_stored`).
-/

namespace RdfStore

open GraphStore

/-! ## Nodes as terms -/

/-- The term that asks for a node. -/
def Node.term : Node → Query.Term
  | named uri => .uri uri
  | literal l => .literal l
  | blank label => .blank label
  | pattern name => .variable (name.getD "")

/-- A query writes the term of a node as the canonical text of the node. -/
theorem Node.written_term (n : Node) : Query.Written.term n.term = n.text.toList := by
  cases n with
  | literal l => rfl
  | named uri =>
      rw [text, String.toList_append, String.toList_append]
      rfl
  | blank label =>
      rw [text, String.toList_append]
      rfl
  | pattern name =>
      rw [text, patternText, String.toList_append]
      rfl

namespace Query

theorem SameText.refl (a : String) : SameText a a := sameLetters_iff.1 (decide_eq_true rfl)

theorem LiteralMatches.refl (ns : Namespaces) (l : Literal) : LiteralMatches ns l l :=
  ⟨rfl, fun tag found => ⟨tag, found, .refl tag⟩, fun uri found => ⟨uri, found, rfl⟩⟩

/-- The term of a node matches it. -/
theorem matches_term {n : Node} (concrete : n.isConcrete = true) (ns : Namespaces)
    (σ : Assignment) : n.term.Matches ns σ n := by
  cases n with
  | named uri => exact ⟨uri, rfl, rfl⟩
  | literal l => exact ⟨l, rfl, .refl ns l⟩
  | blank label => exact ⟨label, rfl, .refl label⟩
  | pattern name => cases concrete

/-! ## Queries with one pattern -/

/-- The query that selects some variables of one pattern. -/
def Select.single (names : List String) (pattern : TriplePattern) : Select where
  projection := .listed names
  patterns := [pattern]

theorem written_single (names : List String) (pattern : TriplePattern) :
    (Select.single names pattern).written .plain =
      "SELECT ".toList ++ (Written.projection (.listed names) ++ (" WHERE \x7b ".toList ++
        (Written.triple pattern ++ " \x7d".toList))) := by
  have patterns : Written.patterns (Select.single names pattern).patterns =
      Written.triple pattern := rfl
  unfold Select.written
  rw [patterns]
  dsimp only [Layout.plain]
  simp only [List.append_assoc]
  rfl

theorem Select.writable_single {names : List String} {pattern : TriplePattern}
    (selected : names ≠ [] ∧ ∀ name ∈ names, IsName name) (writable : pattern.Writable) :
    (Select.single names pattern).Writable where
  prefixes _ mem := by cases mem
  graphs _ mem := by cases mem
  projection := selected
  patterns_ne_nil := List.cons_ne_nil _ _
  patterns := List.forall_mem_singleton.2 writable
  filter := trivial

/-- A named predicate and an object that is not blank are recognised. -/
theorem Shape.ofSingle_subjects {predicate object : Node} (named : ∃ uri, predicate = .named uri)
    (concrete : object.isConcrete = true) (labelled : ∀ label, object ≠ .blank label) :
    ∃ shape, ofSingle ⟨.variable "s", predicate.term, object.term⟩ = .ok shape ∧
      shape.bindings = [("s", .subject)] := by
  obtain ⟨uri, rfl⟩ := named
  cases object with
  | named text => exact ⟨.subjectsByPredicateObject "s" ⟨uri, .uri text⟩, rfl, rfl⟩
  | literal l => exact ⟨.subjectsByPredicateObject "s" ⟨uri, .literal l⟩, rfl, rfl⟩
  | blank label => exact absurd rfl (labelled label)
  | pattern name => cases concrete

/-- A subject that is not a literal is recognised. -/
theorem Shape.ofSingle_properties {subject : Node} (concrete : subject.isConcrete = true)
    (valued : ∀ l, subject ≠ .literal l) :
    ∃ shape, ofSingle ⟨subject.term, .variable "p", .variable "o"⟩ = .ok shape ∧
      shape.bindings = [("p", .predicate), ("o", .object)] := by
  cases subject with
  | named text => exact ⟨.bySubjectUri text "p" "o", rfl, rfl⟩
  | literal l => exact absurd rfl (valued l)
  | blank label => exact ⟨.bySubjectBlank label "p" "o", rfl, rfl⟩
  | pattern name => cases concrete

/-- The plan of a query with one pattern looks at the default graph and has no filter. -/
theorem Plan.ofSelect_single {names : List String} {pattern : TriplePattern} {shape : Shape}
    (recognised : Shape.ofSingle pattern = .ok shape)
    (bound : ∀ name ∈ names, (shape.positionOf name).isSome = true) (ns : Namespaces)
    (default : String) :
    ofSelect (.single names pattern) ns default =
      .ok ⟨ns, shape, names, none, [default], false⟩ := by
  have classified : Shape.classify (Select.single names pattern).patterns = .ok shape := recognised
  have selected : select shape (Select.single names pattern).projection = .ok names := by
    have all : (names.find? fun name => (shape.positionOf name).isNone) = none := by
      rw [List.find?_eq_none]
      intro name mem
      rw [Option.isNone_iff_eq_none, ← Option.not_isSome_iff_eq_none, bound name mem]
      exact fun yes => yes rfl
    simp only [Select.single, select, all]
  unfold ofSelect
  rw [classified]
  simp only [Except.mapError, bind, Except.bind, selected]
  rfl

/-- A triple that answers the patterns of a plan without filter and DISTINCT has its row. -/
theorem Plan.rowOf_mem_rowsOver {plan : Plan} (filter : plan.filter = none)
    (distinct : plan.distinct = false) (different : plan.shape.names.Nodup) {ts : List Triple}
    {t : Triple} (mem : t ∈ ts)
    (answers : Answers plan.namespaces (ts.map Triple.statement) t.statement plan.shape.patterns) :
    plan.rowOf t.statement ∈ plan.rowsOver ts := by
  classical
  have matched : t.statement ∈ plan.shape.matching plan.namespaces (ts.map Triple.statement) := by
    rw [Shape.matching_eq_filter different, List.mem_filter, decide_eq_true_iff]
    exact ⟨List.mem_map_of_mem mem, answers⟩
  simp only [rowsOver, run, collect_eq_map filter distinct]
  exact List.mem_map_of_mem matched

end Query

/-- A triple of the default graph that a single pattern matches has its row in the answer. -/
theorem Store.row_of_single {σ : Type} [GraphStore σ] {s : σ} (readable : Readable s)
    (apart : Triple.Apart (triples s)) {names : List String} {pattern : Query.TriplePattern}
    {shape : Query.Shape} (selected : names ≠ [] ∧ ∀ name ∈ names, Query.IsName name)
    (writable : pattern.Writable) (recognised : Query.Shape.ofSingle pattern = .ok shape)
    (bound : ∀ name ∈ names, (shape.positionOf name).isSome = true)
    {t : Triple} (stored : t ∈ triplesOf s (defaultGraph s)) {σ : Query.Assignment}
    (fits : pattern.Matches (namespaces s) σ t.statement) :
    ∃ solutions,
      query s (String.ofList ((Query.Select.single names pattern).written .plain)) none =
        .ok solutions ∧
      Query.Plan.project names (shape.bind t.statement) ∈ solutions.rows := by
  let plan : Query.Plan := ⟨namespaces s, shape, names, none, [defaultGraph s], false⟩
  have prepared : Query.Plan.prepare
      (String.ofList ((Query.Select.single names pattern).written .plain)) (namespaces s)
      (defaultGraph s) = .ok plan := by
    rw [Query.Plan.prepare, Query.parse_written .plain (Query.Select.writable_single selected writable)]
    exact Query.Plan.ofSelect_single recognised bound (namespaces s) (defaultGraph s)
  have known : firstUnknown s plan.graphs = none :=
    firstUnknown_eq_none_iff.2 (List.forall_mem_singleton.2 (Or.inr rfl))
  have united : t ∈ unionTriples s plan.graphs :=
    (mem_unionTriples readable apart).2 ⟨_, List.mem_singleton_self _, stored⟩
  obtain ⟨patterns, different⟩ := Query.Shape.ofSingle_eq_ok recognised
  refine ⟨⟨names, plan.rowsOver (unionTriples s plan.graphs)⟩, ?_, ?_⟩
  · rw [query_eq readable prepared, known]
  · refine Query.Plan.rowOf_mem_rowsOver rfl rfl different united ?_
    change Query.Answers _ _ _ shape.patterns
    rw [← patterns]
    exact ⟨σ, fits, fun _ mem => by cases mem⟩

/-! ## Finding a stored statement -/

/-- A triple whose URIs can be written, and the object of which can be if it is a literal. -/
structure Triple.Writable (t : Triple) : Prop where
  uris : ∀ uri ∈ t.uris, Query.IsUri uri
  literal : ∀ l, t.object = .literal l → Query.LiteralWritable l

/-- A node can be written as a term if what it consists of can. -/
theorem Node.writable_term {n : Node} (concrete : n.isConcrete = true)
    (uris : ∀ uri ∈ n.uris, Query.IsUri uri) (labels : ∀ label, n = .blank label → Query.IsLabel label)
    (literals : ∀ l, n = .literal l → Query.LiteralWritable l) : n.term.Writable := by
  cases n with
  | named uri => exact uris uri (List.mem_singleton_self uri)
  | literal l => exact literals l rfl
  | blank label => exact labels label rfl
  | pattern name => cases concrete

namespace Query

/-- The text that asks for the subjects with a predicate and an object. -/
def subjectsText (predicate object : Node) : String :=
  "SELECT ?s WHERE \x7b ?s " ++ predicate.text ++ " " ++ object.text ++ " \x7d"

/-- The text that asks for the predicates and objects of a subject. -/
def propertiesText (subject : Node) : String :=
  "SELECT ?p ?o WHERE \x7b " ++ subject.text ++ " ?p ?o \x7d"

theorem subjectsText_eq (predicate object : Node) :
    subjectsText predicate object = String.ofList
      ((Select.single ["s"] ⟨.variable "s", predicate.term, object.term⟩).written .plain) := by
  rw [← String.toList_inj, String.toList_ofList, written_single]
  unfold subjectsText
  simp only [Written.triple, Node.written_term, String.toList_append, List.append_assoc,
    List.cons_append]
  -- only what stands between the nodes is compared by computation
  generalize predicate.text.toList = first
  generalize object.text.toList = second
  rfl

theorem propertiesText_eq (subject : Node) :
    propertiesText subject = String.ofList
      ((Select.single ["p", "o"] ⟨subject.term, .variable "p", .variable "o"⟩).written .plain) := by
  rw [← String.toList_inj, String.toList_ofList, written_single]
  unfold propertiesText
  simp only [Written.triple, Node.written_term, String.toList_append, List.append_assoc,
    List.cons_append]
  generalize subject.text.toList = first
  rfl

end Query

section

open Query Store

variable {t : Triple}

/-- The terms of a stored triple can be written, except for a literal that is not its object. -/
theorem Triple.Normal.writable_term (normal : t.Normal) (writable : t.Writable) {n : Node}
    (mem : n ∈ t.nodes) (literals : ∀ l, n = .literal l → LiteralWritable l) : n.term.Writable :=
  Node.writable_term (normal.concrete n mem)
    (fun uri occurs => writable.uris uri (List.mem_flatMap.2 ⟨n, mem, occurs⟩))
    (fun label same => normal.labels label (mem_labels_iff.2 (same ▸ mem))) literals

variable {σ : Type} [GraphStore σ] {s : σ}

/-- A stored triple is found by its predicate and object. -/
theorem Store.row_of_subjectsText (readable : Readable s) (apart : Triple.Apart (triples s))
    (stored : t ∈ triplesOf s (defaultGraph s)) (normal : t.Normal) (writable : t.Writable)
    (labelled : ∀ label, t.object ≠ .blank label) :
    ∃ solutions, query s (subjectsText t.predicate t.object) none = .ok solutions ∧
      ∃ row ∈ solutions.rows, row.entries = [("s", t.subject)] := by
  have predicate : t.predicate ∈ t.nodes := t.statement.nodeAt_mem_nodes .predicate
  have object : t.object ∈ t.nodes := t.statement.nodeAt_mem_nodes .object
  have concrete := normal.concrete t.object object
  obtain ⟨uri, named⟩ := normal.predicate
  obtain ⟨shape, recognised, bindings⟩ := Shape.ofSingle_subjects ⟨uri, named⟩ concrete labelled
  have name : IsName "s" := by decide
  have term : t.predicate.term.Writable := normal.writable_term writable predicate fun l same => by
    cases named.symm.trans same
  have term' : t.object.term.Writable := normal.writable_term writable object writable.literal
  have pattern : TriplePattern.Writable ⟨.variable "s", t.predicate.term, t.object.term⟩ :=
    ⟨name, term, term'⟩
  have bound : (shape.positionOf "s").isSome = true := by
    rw [Shape.positionOf, bindings]
    rfl
  have fits : TriplePattern.Matches (namespaces s) (fun _ => t.subject)
      ⟨.variable "s", t.predicate.term, t.object.term⟩ t.statement :=
    ⟨rfl, matches_term (normal.concrete t.predicate predicate) _ _, matches_term concrete _ _⟩
  obtain ⟨solutions, answered, found⟩ := row_of_single readable apart
    ⟨List.cons_ne_nil _ _, List.forall_mem_singleton.2 name⟩ pattern recognised
    (List.forall_mem_singleton.2 bound) stored fits
  rw [← subjectsText_eq] at answered
  refine ⟨solutions, answered, _, found, ?_⟩
  rw [Shape.bind, bindings]
  rfl

/-- A stored triple is found by its subject. -/
theorem Store.row_of_propertiesText (readable : Readable s) (apart : Triple.Apart (triples s))
    (stored : t ∈ triplesOf s (defaultGraph s)) (normal : t.Normal) (writable : t.Writable)
    (resource : ∀ l, t.subject ≠ .literal l) :
    ∃ solutions, query s (propertiesText t.subject) none = .ok solutions ∧
      ∃ row ∈ solutions.rows, row.entries = [("p", t.predicate), ("o", t.object)] := by
  have subject : t.subject ∈ t.nodes := t.statement.nodeAt_mem_nodes .subject
  have concrete := normal.concrete t.subject subject
  obtain ⟨shape, recognised, bindings⟩ := Shape.ofSingle_properties concrete resource
  have names : IsName "p" ∧ IsName "o" := by decide
  have term : t.subject.term.Writable := normal.writable_term writable subject fun l same =>
    absurd same (resource l)
  have pattern : TriplePattern.Writable ⟨t.subject.term, .variable "p", .variable "o"⟩ :=
    ⟨term, names.1, names.2⟩
  have bound : (shape.positionOf "p").isSome = true ∧ (shape.positionOf "o").isSome = true := by
    rw [Shape.positionOf, Shape.positionOf, bindings]
    exact ⟨rfl, rfl⟩
  have different : ["s", "p", "o"].Nodup := by decide
  obtain ⟨τ, -, first, second⟩ :=
    Shape.exists_assignment different t.subject t.predicate t.object
  have fits : TriplePattern.Matches (namespaces s) τ
      ⟨t.subject.term, .variable "p", .variable "o"⟩ t.statement :=
    ⟨matches_term concrete _ _, first.symm, second.symm⟩
  obtain ⟨solutions, answered, found⟩ := row_of_single readable apart
    ⟨List.cons_ne_nil _ _, List.forall_mem_cons.2 ⟨names.1, List.forall_mem_singleton.2 names.2⟩⟩
    pattern recognised (List.forall_mem_cons.2 ⟨bound.1, List.forall_mem_singleton.2 bound.2⟩)
    stored fits
  rw [← propertiesText_eq] at answered
  refine ⟨solutions, answered, _, found, ?_⟩
  rw [Shape.bind, bindings]
  rfl

end

namespace Storage

open Store

/-- Every statement of the default graph is found by writing down its nodes: by predicate and object
if the object is not blank, and by its subject if that is not a literal. -/
theorem found_of_stored {s : Storage} (regular : s.Regular) (apart : Triple.Apart (triples s))
    {stored : List Statement} (read : GraphStore.statements s (defaultGraph s) = .ok stored)
    {t : Statement} (mem : t ∈ stored) (writable : t.triple.Writable) :
    ((∀ label, t.object ≠ .blank label) →
      ∃ solutions, Store.query s (Query.subjectsText t.predicate t.object) none = .ok solutions ∧
        ∃ row ∈ solutions.rows, row.entries = [("s", t.subject)]) ∧
    ((∀ l, t.subject ≠ .literal l) →
      ∃ solutions, Store.query s (Query.propertiesText t.subject) none = .ok solutions ∧
        ∃ row ∈ solutions.rows, row.entries = [("p", t.predicate), ("o", t.object)]) := by
  have readable := regular.reachable.readable
  have held : t.triple ∈ triplesOf s (defaultGraph s) := by
    rw [triplesOf, read]
    exact List.mem_map_of_mem mem
  have normal := regular.normal _ _ held
  exact ⟨row_of_subjectsText readable apart held normal writable,
    row_of_propertiesText readable apart held normal writable⟩

/-- A statement about a blank node whose value has the marks of comments, strings and patterns. -/
theorem found_of_stored_sample :
    let value : Node := .literal ⟨"\" # \\\n\x7d <", none, some "en-GB"⟩
    let x : Statement := ⟨.blank "b", .named "ex:p", value, none⟩
    let s := durable (Event.after DurableStore.reopenWith
      (DurableStore.new (Namespaces.empty.add "ex" "http://x/#") "d")
      [.change (.add (fun _ => 0) [x] none)])
    let t : Statement :=
      ⟨.blank (generatedLabel 0), .named "http://x/#p", value, some (.named "d")⟩
    s.Regular ∧ Triple.Apart (triples s) ∧
      GraphStore.statements s (defaultGraph s) = .ok [t] ∧ t.triple.Writable ∧
      (∃ solutions,
        Store.query s (Query.subjectsText (.named "http://x/#p") value) none = .ok solutions ∧
          ∃ row ∈ solutions.rows, row.entries = [("s", t.subject)]) ∧
      ∃ solutions,
        Store.query s (Query.propertiesText (.blank (generatedLabel 0))) none = .ok solutions ∧
          ∃ row ∈ solutions.rows, row.entries = [("p", t.predicate), ("o", t.object)] := by
  intro value x s t
  have addition : (Event.change (.add (fun _ => 0) [x] none)).Regular := trivial
  have regular : s.Regular := ⟨_, _, _, List.forall_mem_singleton.2 addition, rfl⟩
  have apart : Triple.Apart (triples s) := by decide +kernel
  have read : GraphStore.statements s (defaultGraph s) = .ok [t] := by decide +kernel
  have tag : Query.IsTag "en-GB" := ⟨['e', 'n'], [['G', 'B']], rfl, by decide, by decide⟩
  have uris : ∀ uri ∈ ["http://x/#p"], Query.IsUri uri := List.forall_mem_singleton.2 (by decide)
  have writable : t.triple.Writable :=
    ⟨uris, by rintro l ⟨⟩; exact ⟨Or.inr rfl, by rintro _ ⟨⟩; exact tag, by rintro _ ⟨⟩⟩⟩
  obtain ⟨subjects, properties⟩ :=
    found_of_stored regular apart read (List.mem_singleton_self t) writable
  exact ⟨regular, apart, read, writable, subjects (fun label same => by cases same),
    properties (fun l same => by cases same)⟩

end Storage

end RdfStore
