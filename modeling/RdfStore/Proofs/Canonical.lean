import RdfStore.Proofs.Query.Rows
import RdfStore.Proofs.Query.Token

/-!
# The canonical form identifies a statement

A canonical form is a row of texts with a space between any two, although the value of a literal may
hold spaces, quotes and whatever looks like another node. It can be read in one way only: a node's
text shows by its first character of which kind the node is, and then where it ends
(`Node.text_append_inj`). So statements with one canonical form are equal
(`Statement.canonical_eq_iff`).

This asks little of the names in the nodes, because each must only be free of the characters that end
it (`Node.Legible`). The names that the query language knows are (`Node.legible_of_names`).
-/

namespace RdfStore

/-! ## Texts that end where they should -/

/-- A text without certain characters. -/
def Free (stops : List Char) (text : String) : Prop := ∀ c ∈ text.toList, c ∉ stops

instance (stops : List Char) (text : String) : Decidable (Free stops text) :=
  List.decidableBAll _ text.toList

theorem Free.of_class {p : Char → Bool} {stops : List Char} {text : String}
    (all : ∀ c ∈ text.toList, p c = true) (apart : ∀ c ∈ stops, p c = false) : Free stops text := by
  intro c mem stop
  cases (all c mem).symm.trans (apart c stop)

section Reading

variable {stops : List Char} {text text' : String} {rest rest' : List Char}

/-- A text that ends at the first of certain characters is the longest front without them. -/
theorem Free.takeWhile_append (free : Free stops text) (stop : ∀ c ∈ rest.head?, c ∈ stops) :
    (text.toList ++ rest).takeWhile (fun c => decide (c ∉ stops)) = text.toList := by
  have ended : rest.takeWhile (fun c => decide (c ∉ stops)) = [] := by
    cases rest with
    | nil => rfl
    | cons c more => rw [List.takeWhile_cons_of_neg (by simp [stop c rfl])]
  rw [List.takeWhile_append_of_pos fun c mem => decide_eq_true (free c mem), ended, List.append_nil]

theorem Free.append_inj (free : Free stops text) (free' : Free stops text')
    (stop : ∀ c ∈ rest.head?, c ∈ stops) (stop' : ∀ c ∈ rest'.head?, c ∈ stops)
    (same : text.toList ++ rest = text'.toList ++ rest') : text = text' ∧ rest = rest' := by
  have texts : text.toList = text'.toList := by
    rw [← free.takeWhile_append stop, same, free'.takeWhile_append stop']
  rw [texts] at same
  exact ⟨String.toList_inj.1 texts, List.append_cancel_left same⟩

/-- A value ends at the quote behind its escaped form. -/
theorem escape_append_inj {value value' : List Char}
    (same : Text.escape value ++ '"' :: rest = Text.escape value' ++ '"' :: rest') :
    value = value' ∧ rest = rest' := by
  have read := Query.Token.quotedBody_escape value rest
  rw [same, Query.Token.quotedBody_escape] at read
  obtain ⟨escaped, quoted⟩ := Prod.mk.inj read
  have back := congrArg Text.unescape escaped
  rw [Text.unescape_escape, Text.unescape_escape] at back
  exact ⟨back.symm, (List.cons.inj quoted).2.symm⟩

/-- A URI ends at its closing bracket. -/
theorem uri_append_inj (free : Free ['>'] text) (free' : Free ['>'] text')
    (same : text.toList ++ '>' :: rest = text'.toList ++ '>' :: rest') :
    text = text' ∧ rest = rest' := by
  have stop (rest : List Char) : ∀ c ∈ ('>' :: rest).head?, c ∈ ['>'] := by
    intro c mem
    cases mem
    exact List.mem_singleton_self _
  obtain ⟨texts, rests⟩ := free.append_inj free' (stop rest) (stop rest') same
  exact ⟨texts, (List.cons.inj rests).2⟩

end Reading

/-! ## Literals -/

/-- A literal whose language and datatype, as far as it has them, are free of what ends them. -/
structure Literal.Legible (l : Literal) : Prop where
  language : ∀ tag ∈ l.language, Free [' ', '^'] tag
  datatype : ∀ type ∈ l.datatype, Free ['>'] type

/-- The text is over, or a space follows. -/
def Breaks (rest : List Char) : Prop := ∀ c ∈ rest.head?, c = ' '

theorem breaks_nil : Breaks [] := fun _ mem => by cases mem

theorem breaks_space (rest : List Char) : Breaks (' ' :: rest) := fun _ mem => by cases mem; rfl

namespace Literal

/-- The language behind a literal's value. -/
def languageText : Option String → List Char
  | some language => '@' :: language.toList
  | none => []

/-- The datatype behind a literal's language. -/
def datatypeText : Option String → List Char
  | some datatype => '^' :: '^' :: '<' :: (datatype.toList ++ ['>'])
  | none => []

theorem qualifier_eq (l : Literal) :
    Query.Token.qualifier l = languageText l.language ++ datatypeText l.datatype := by
  rcases l with ⟨value, datatype, language⟩
  cases language <;> cases datatype <;> rfl

variable {o o' : Option String} {rest rest' : List Char}

theorem head_datatypeText (o : Option String) (breaks : Breaks rest) :
    ∀ c ∈ (datatypeText o ++ rest).head?, c ∈ [' ', '^'] := by
  intro c mem
  cases o with
  | none => exact breaks c mem ▸ List.mem_cons_self
  | some datatype =>
      cases mem
      exact List.mem_cons_of_mem _ (List.mem_singleton_self _)

theorem datatypeText_append_inj (free : ∀ type ∈ o, Free ['>'] type)
    (free' : ∀ type ∈ o', Free ['>'] type) (breaks : Breaks rest) (breaks' : Breaks rest')
    (same : datatypeText o ++ rest = datatypeText o' ++ rest') : o = o' ∧ rest = rest' := by
  -- a datatype starts with another character than a space
  have starts (type : String) (more : List Char) : ¬Breaks (datatypeText (some type) ++ more) :=
    fun breaks => absurd (breaks '^' rfl) (by decide)
  cases o with
  | none =>
      cases o' with
      | none => exact ⟨rfl, same⟩
      | some type' => exact (starts type' rest' (same ▸ breaks)).elim
  | some type =>
      cases o' with
      | none => exact (starts type rest (same ▸ breaks')).elim
      | some type' =>
          simp only [datatypeText, List.cons_append, List.append_assoc, List.nil_append,
            List.cons.injEq, true_and] at same
          obtain ⟨types, rests⟩ := uri_append_inj (free type rfl) (free' type' rfl) same
          exact ⟨congrArg some types, rests⟩

theorem languageText_append_inj (free : ∀ tag ∈ o, Free [' ', '^'] tag)
    (free' : ∀ tag ∈ o', Free [' ', '^'] tag) (stop : ∀ c ∈ rest.head?, c ∈ [' ', '^'])
    (stop' : ∀ c ∈ rest'.head?, c ∈ [' ', '^'])
    (same : languageText o ++ rest = languageText o' ++ rest') : o = o' ∧ rest = rest' := by
  -- a language starts with a character that ends none
  have starts (tag : String) (more : List Char) :
      ¬∀ c ∈ (languageText (some tag) ++ more).head?, c ∈ [' ', '^'] :=
    fun stop => absurd (stop '@' rfl) (by decide)
  cases o with
  | none =>
      cases o' with
      | none => exact ⟨rfl, same⟩
      | some tag' => exact (starts tag' rest' (same ▸ stop)).elim
  | some tag =>
      cases o' with
      | none => exact (starts tag rest (same ▸ stop')).elim
      | some tag' =>
          obtain ⟨tags, rests⟩ :=
            (free tag rfl).append_inj (free' tag' rfl) stop stop' (List.cons.inj same).2
          exact ⟨congrArg some tags, rests⟩

theorem qualifier_append_inj {l l' : Literal} (legible : l.Legible) (legible' : l'.Legible)
    (breaks : Breaks rest) (breaks' : Breaks rest')
    (same : Query.Token.qualifier l ++ rest = Query.Token.qualifier l' ++ rest') :
    l.language = l'.language ∧ l.datatype = l'.datatype ∧ rest = rest' := by
  rw [qualifier_eq, qualifier_eq, List.append_assoc, List.append_assoc] at same
  obtain ⟨languages, same⟩ := languageText_append_inj legible.language legible'.language
    (head_datatypeText _ breaks) (head_datatypeText _ breaks') same
  exact ⟨languages, datatypeText_append_inj legible.datatype legible'.datatype breaks breaks' same⟩

end Literal

/-! ## Nodes -/

/-- A language tag is made of characters of labels. -/
theorem Query.IsTag.isLabelChar {tag : String} (h : Query.IsTag tag) :
    ∀ c ∈ tag.toList, Query.Token.isLabelChar c = true := by
  obtain ⟨main, subs, chars, ⟨-, letters⟩, parts⟩ := h
  intro c mem
  rw [chars, List.mem_append, List.mem_flatMap] at mem
  rcases mem with first | ⟨sub, inside, here⟩
  · simp [Query.Token.isLabelChar, Char.isAlphanum, letters c first]
  · rcases List.mem_cons.1 here with rfl | later
    · rfl
    · simp [Query.Token.isLabelChar, (parts sub inside).2 c later]

namespace Node

/-- A node whose name is free of the characters that end it. Placeholders have no place in
statements. -/
def Legible : Node → Prop
  | named uri => Free ['>'] uri
  | literal l => l.Legible
  | blank label => Free [' '] label
  | pattern _ => False

/-- Nodes with the names that the query language knows are legible, whatever values their literals
have. -/
theorem legible_of_names {n : Node} (concrete : n.isConcrete = true)
    (uris : ∀ uri ∈ n.uri?, Query.IsUri uri)
    (labels : ∀ label ∈ n.label?, ∀ c ∈ label.toList, Query.Token.isLabelChar c = true)
    (languages : ∀ l ∈ n.literal?, ∀ tag ∈ l.language, Query.IsTag tag)
    (datatypes : ∀ l ∈ n.literal?, ∀ type ∈ l.datatype, Query.IsUri type) : n.Legible := by
  have free {uri : String} (h : Query.IsUri uri) : Free ['>'] uri :=
    .of_class h (List.forall_mem_singleton.2 rfl)
  cases n with
  | named uri => exact free (uris uri rfl)
  | literal l =>
      refine ⟨fun tag given => ?_, fun type given => free (datatypes l rfl type given)⟩
      have apart : ∀ c ∈ [' ', '^'], Query.Token.isLabelChar c = false :=
        List.forall_mem_cons.2 ⟨rfl, List.forall_mem_singleton.2 rfl⟩
      exact .of_class (languages l rfl tag given).isLabelChar apart
  | blank label => exact .of_class (labels label rfl) (List.forall_mem_singleton.2 rfl)
  | pattern name => cases concrete

/-- The character that a node's text starts with. -/
def sign : Node → Char
  | named _ => '<'
  | literal _ => '"'
  | blank _ => '_'
  | pattern _ => '?'

/-- What follows the first character of a node's text. -/
def body : Node → List Char
  | named uri => uri.toList ++ ['>']
  | literal l => Text.escape l.value.toList ++ '"' :: Query.Token.qualifier l
  | blank label => ':' :: label.toList
  | pattern name => (name.getD "").toList

theorem toList_text (n : Node) : n.text.toList = n.sign :: n.body := by
  cases n with
  | literal l => exact Query.Token.literal_text l
  | named | blank | pattern => simp [text, patternText, sign, body]

theorem body_append_inj {n m : Node} {rest rest' : List Char} (legible : n.Legible)
    (legible' : m.Legible) (breaks : Breaks rest) (breaks' : Breaks rest') (kind : n.sign = m.sign)
    (same : n.body ++ rest = m.body ++ rest') : n = m ∧ rest = rest' := by
  cases n with
  | named uri =>
      cases m with
      | named uri' =>
          simp only [body, List.append_assoc, List.singleton_append] at same
          obtain ⟨uris, rests⟩ := uri_append_inj legible legible' same
          exact ⟨congrArg named uris, rests⟩
      | literal | blank | pattern => cases kind
  | literal l =>
      cases m with
      | literal l' =>
          simp only [body, List.append_assoc, List.cons_append] at same
          obtain ⟨values, same⟩ := escape_append_inj same
          obtain ⟨languages, datatypes, rests⟩ :=
            Literal.qualifier_append_inj legible legible' breaks breaks' same
          refine ⟨congrArg literal ?_, rests⟩
          rw [Literal.mk.injEq]
          exact ⟨String.toList_inj.1 values, datatypes, languages⟩
      | named | blank | pattern => cases kind
  | blank label =>
      cases m with
      | blank label' =>
          have stop {rest : List Char} (breaks : Breaks rest) : ∀ c ∈ rest.head?, c ∈ [' '] :=
            fun c mem => breaks c mem ▸ List.mem_singleton_self _
          obtain ⟨labels, rests⟩ := Free.append_inj legible legible' (stop breaks) (stop breaks')
            (List.cons.inj same).2
          exact ⟨congrArg blank labels, rests⟩
      | named | literal | pattern => cases kind
  | pattern name => exact legible.elim

/-- The text of a node at the front of a row determines the node and the rest of the row. -/
theorem text_append_inj {n m : Node} {rest rest' : List Char} (legible : n.Legible)
    (legible' : m.Legible) (breaks : Breaks rest) (breaks' : Breaks rest')
    (same : n.text.toList ++ rest = m.text.toList ++ rest') : n = m ∧ rest = rest' := by
  rw [toList_text, toList_text, List.cons_append, List.cons_append] at same
  obtain ⟨kind, bodies⟩ := List.cons.inj same
  exact body_append_inj legible legible' breaks breaks' kind bodies

theorem text_inj {n m : Node} (legible : n.Legible) (legible' : m.Legible)
    (same : n.text = m.text) : n = m :=
  (text_append_inj legible legible' breaks_nil breaks_nil
    (congrArg (fun text => text.toList ++ []) same)).1

end Node

/-- Triples of legible nodes have their texts apart. -/
theorem Triple.textsApart_of_legible {ts : List Triple}
    (legible : ∀ t ∈ ts, ∀ n ∈ t.nodes, n.Legible) : Triple.TextsApart ts :=
  fun t here u there n left m right => Node.text_inj (legible t here n left) (legible u there m right)

/-! ## Statements -/

namespace Statement

/-- A statement of legible nodes, its graph included. -/
structure Legible (t : Statement) : Prop where
  subject : t.subject.Legible
  predicate : t.predicate.Legible
  object : t.object.Legible
  graph : ∀ graph ∈ t.graph, graph.Legible

/-- The graph in a canonical form. -/
def graphText : Option Node → List Char
  | some graph => ' ' :: graph.text.toList
  | none => []

theorem toList_canonical (t : Statement) (withGraph : Bool) :
    (t.canonical withGraph).toList = t.subject.text.toList ++ ' ' :: (t.predicate.text.toList ++
      ' ' :: (t.object.text.toList ++ graphText (if withGraph then t.graph else none))) := by
  rcases t with ⟨s, p, o, graph⟩
  cases withGraph <;> cases graph <;> simp [canonical, graphText]

theorem breaks_graphText (graph : Option Node) : Breaks (graphText graph) := by
  cases graph with
  | none => exact breaks_nil
  | some graph => exact breaks_space _

theorem graphText_inj {g g' : Option Node} (legible : ∀ graph ∈ g, graph.Legible)
    (legible' : ∀ graph ∈ g', graph.Legible) (same : graphText g = graphText g') : g = g' := by
  cases g with
  | none =>
      cases g' with
      | none => rfl
      | some graph' => cases same
  | some graph =>
      cases g' with
      | none => cases same
      | some graph' =>
          exact congrArg some (Node.text_inj (legible graph rfl) (legible' graph' rfl)
            (String.toList_inj.1 (List.cons.inj same).2))

theorem triple_of_canonical {t u : Statement} (legible : t.Legible) (legible' : u.Legible)
    {withGraph : Bool} (same : t.canonical withGraph = u.canonical withGraph) :
    t.triple = u.triple ∧ graphText (if withGraph then t.graph else none) =
      graphText (if withGraph then u.graph else none) := by
  have rows := congrArg String.toList same
  rw [toList_canonical, toList_canonical] at rows
  obtain ⟨subject, rows⟩ := Node.text_append_inj legible.subject legible'.subject
    (breaks_space _) (breaks_space _) rows
  obtain ⟨predicate, rows⟩ := Node.text_append_inj legible.predicate legible'.predicate
    (breaks_space _) (breaks_space _) (List.cons.inj rows).2
  obtain ⟨object, graphs⟩ := Node.text_append_inj legible.object legible'.object
    (breaks_graphText _) (breaks_graphText _) (List.cons.inj rows).2
  refine ⟨?_, graphs⟩
  rw [triple, triple, subject, predicate, object]

/-- Legible statements have one canonical form with the graph only if they are equal, graphs
included, and one without the graph only if their subjects, predicates and objects are. -/
theorem canonical_eq_iff {t u : Statement} (legible : t.Legible) (legible' : u.Legible) :
    (t.canonical true = u.canonical true ↔ t = u) ∧
      (t.canonical false = u.canonical false ↔ t.triple = u.triple) := by
  refine ⟨⟨fun same => ?_, congrArg (canonical · true)⟩, fun same => ?_, fun same => ?_⟩
  · obtain ⟨triples, graphs⟩ := triple_of_canonical legible legible' same
    have graph := graphText_inj legible.graph legible'.graph graphs
    rcases t with ⟨s, p, o, g⟩
    rcases u with ⟨s', p', o', g'⟩
    cases triples
    cases graph
    rfl
  · exact (triple_of_canonical legible legible' same).1
  · rcases t with ⟨s, p, o, g⟩
    rcases u with ⟨s', p', o', g'⟩
    cases same
    rfl

/-- The first two would share a canonical form if the quotes in a value were not escaped. The third
has the triple of the first. -/
theorem canonical_eq_iff_sample :
    let tagged (value : String) : Node := .literal ⟨value, none, some "en-GB"⟩
    let t : Statement := ⟨.blank "b-1", .named "p", tagged "x\" \"y", none⟩
    let u : Statement := { t with object := .literal ⟨"x", none, none⟩, graph := some (tagged "y") }
    let v : Statement := { t with graph := some (.named "g") }
    t.Legible ∧ u.Legible ∧ v.Legible ∧ t.canonical true ≠ u.canonical true ∧
      t.canonical true ≠ v.canonical true ∧ t.canonical false = v.canonical false := by
  intro tagged t u v
  have tag : Query.IsTag "en-GB" := ⟨['e', 'n'], [['G', 'B']], rfl, by decide, by decide⟩
  have languages : ∀ name ∈ some "en-GB", Query.IsTag name := by
    rintro _ ⟨⟩
    exact tag
  have uris (uri : String) (h : Query.IsUri uri) : (Node.named uri).Legible :=
    Node.legible_of_names rfl (by rintro _ ⟨⟩; exact h) nofun nofun nofun
  have known : Query.IsLabel "b-1" := by decide
  have label : (Node.blank "b-1").Legible :=
    Node.legible_of_names rfl nofun (by rintro _ ⟨⟩; exact known.2) nofun nofun
  have values (value : String) : (tagged value).Legible :=
    Node.legible_of_names rfl nofun nofun (by rintro _ ⟨⟩; exact languages) (by rintro _ ⟨⟩; nofun)
  have plain : (Node.literal ⟨"x", none, none⟩).Legible :=
    Node.legible_of_names rfl nofun nofun (by rintro _ ⟨⟩; nofun) (by rintro _ ⟨⟩; nofun)
  have predicate := uris "p" (by decide)
  have graph := uris "g" (by decide)
  have legible : t.Legible := ⟨label, predicate, values _, nofun⟩
  have legible' : u.Legible := ⟨label, predicate, plain, by rintro _ ⟨⟩; exact values "y"⟩
  have legible'' : v.Legible := ⟨label, predicate, values _, by rintro _ ⟨⟩; exact graph⟩
  refine ⟨legible, legible', legible'', fun same => ?_, fun same => ?_, ?_⟩
  · exact absurd ((canonical_eq_iff legible legible').1.1 same) (by decide)
  · exact absurd ((canonical_eq_iff legible legible'').1.1 same) (by decide)
  · exact (canonical_eq_iff legible legible'').2.2 rfl

end Statement

end RdfStore
