import RdfStore.Proofs.Query.Token
import RdfStore.Query.Grammar

/-!
# Clauses are read back as they were written

The grammar on the written form of each clause. A repetition whose items stand behind one space each
is read to its end (`many_written`), so what has to be shown for a clause is what one item gives and
that the text behind the last item is not taken for another.
-/

namespace RdfStore.Query

open Text (Scan mark)
open Token (skip skip_space skip_uri mark_self Ends)

namespace Grammar

/-! ## Repetitions -/

section Repetition

variable {α ι : Type} {part : Scan α}

theorem manyUpTo_stop {text : List Char} (n : Nat) (stop : part (skip text) = none) :
    manyUpTo part n text = ([], text) := by
  cases n with
  | zero => rfl
  | succ n => rw [manyUpTo, stop]

theorem manyUpTo_step {first : α} {text rest : List Char} (n : Nat)
    (read : part (skip text) = some (first, rest)) :
    manyUpTo part (n + 1) text =
      (first :: (manyUpTo part n rest).1, (manyUpTo part n rest).2) := by
  rw [manyUpTo, read]

/-- Items with a space in front of each. -/
def spaced (body : ι → List Char) (items : List ι) : List Char :=
  items.flatMap fun i => ' ' :: body i

theorem spaced_cons (body : ι → List Char) (i : ι) (items : List ι) (rest : List Char) :
    spaced body (i :: items) ++ rest = ' ' :: (body i ++ (spaced body items ++ rest)) := by
  rw [spaced, List.flatMap_cons, List.append_assoc]
  rfl

theorem ends_spaced (body : ι → List Char) (items : List ι) {rest : List Char}
    (ends : Ends rest) : Ends (spaced body items ++ rest) := by
  cases items with
  | nil => exact ends
  | cons i items =>
      rw [spaced_cons]
      exact Token.ends_space _

theorem length_le_spaced (body : ι → List Char) (items : List ι) :
    items.length ≤ (spaced body items).length := by
  induction items with
  | nil => exact Nat.le_refl _
  | cons i items ih =>
      have split := congrArg List.length (spaced_cons body i items [])
      simp only [List.append_nil, List.length_cons, List.length_append] at split ⊢
      omega

theorem manyUpTo_written {body : ι → List Char} {value : ι → α} {items : List ι}
    {rest : List Char}
    (read : ∀ i ∈ items, ∀ tail, Ends tail → part (skip (body i ++ tail)) = some (value i, tail))
    (ends : Ends rest) (stop : part (skip rest) = none) {n : Nat} (fuel : items.length ≤ n) :
    manyUpTo part n (spaced body items ++ rest) = (items.map value, rest) := by
  induction items generalizing n with
  | nil => exact manyUpTo_stop n stop
  | cons i items ih =>
      obtain ⟨first, others⟩ := List.forall_mem_cons.1 read
      obtain ⟨m, rfl⟩ : ∃ m, n = m + 1 := ⟨n - 1, by simp only [List.length_cons] at fuel; omega⟩
      have more := ih others (Nat.le_of_succ_le_succ fuel)
      have one : part (skip (' ' :: (body i ++ (spaced body items ++ rest)))) =
          some (value i, spaced body items ++ rest) :=
        first _ (ends_spaced body items ends)
      rw [spaced_cons, manyUpTo_step m one, more, List.map_cons]

/-- A repetition reads all its items: the length of the text is fuel enough. -/
theorem many_written {body : ι → List Char} {value : ι → α} {items : List ι} {rest : List Char}
    (read : ∀ i ∈ items, ∀ tail, Ends tail → part (skip (body i ++ tail)) = some (value i, tail))
    (ends : Ends rest) (stop : part (skip rest) = none) :
    many part (spaced body items ++ rest) = (items.map value, rest) := by
  refine manyUpTo_written read ends stop ?_
  have enough := length_le_spaced body items
  rw [List.length_append]
  omega

theorem optional_some {found : α} {text rest : List Char}
    (read : part (skip text) = some (found, rest)) : optional part text = (some found, rest) := by
  rw [optional, read]

theorem optional_none {text : List Char} (stop : part (skip text) = none) :
    optional part text = (none, text) := by
  rw [optional, stop]

end Repetition

/-- Pieces after the first stand behind the separator. -/
theorem separated_cons (separator piece : List Char) (pieces : List (List Char)) :
    Written.separated separator (piece :: pieces) =
      piece ++ pieces.flatMap (separator ++ ·) := by
  induction pieces generalizing piece with
  | nil => exact (List.append_nil piece).symm
  | cons next pieces ih =>
      rw [Written.separated, ih, List.flatMap_cons, List.append_assoc, List.append_assoc]
      intro eq
      cases eq

/-! ## Clauses in front of the group -/

/-- A PREFIX declaration without the space behind it. -/
def declaration (entry : String × String) : List Char :=
  "PREFIX ".toList ++ entry.1.toList ++ ':' :: ' ' :: Written.uri entry.2

theorem skip_prefixName {name : String} (rest : List Char) (h : IsPrefix name) :
    skip (name.toList ++ ':' :: rest) = name.toList ++ ':' :: rest := by
  cases chars : name.toList with
  | nil => rfl
  | cons c others =>
      have label : Token.isLabelChar c = true :=
        h.isLabelChar c (by rw [chars]; exact List.mem_cons_self)
      have space : ¬Token.isSpace c = true := by
        intro space
        simp only [Token.isSpace, Bool.or_eq_true, decide_eq_true_eq] at space
        rcases space with ((rfl | rfl) | rfl) | rfl <;> exact absurd label (by decide)
      have hash : c ≠ '#' := by
        rintro rfl
        exact absurd label (by decide)
      rw [List.cons_append, skip, Token.skipFrom, if_neg space, if_neg hash]

theorem prefixDecl_written {entry : String × String} (rest : List Char)
    (name : IsPrefix entry.1) (uri : IsUri entry.2) :
    prefixDecl (skip (declaration entry ++ rest)) = some (entry, rest) := by
  have shape : declaration entry ++ rest =
      "PREFIX ".toList ++ (entry.1.toList ++ ':' :: ' ' :: (Written.uri entry.2 ++ rest)) := by
    unfold declaration
    rw [List.append_assoc, List.append_assoc, List.cons_append, List.cons_append]
  have start (text : List Char) : skip ("PREFIX ".toList ++ text) = "PREFIX ".toList ++ text := rfl
  have word (text : List Char) :
      Token.keyword "PREFIX".toList ("PREFIX ".toList ++ text) = some (' ' :: text) := rfl
  rw [shape, start, prefixDecl, word]
  simp only [Option.bind_eq_bind, Option.bind_some, skip_space, skip_prefixName _ name,
    Token.prefixName_written _ name, skip_uri, Token.uri_written rest uri, Option.pure_def]

theorem prefixes_cons (entry : String × String) (entries : List (String × String))
    (rest : List Char) : Written.prefixes (entry :: entries) ++ rest =
      declaration entry ++ ' ' :: (Written.prefixes entries ++ rest) := by
  rw [Written.prefixes, List.flatMap_cons]
  change declaration entry ++ [' '] ++ Written.prefixes entries ++ rest = _
  rw [List.append_assoc, List.append_assoc]
  rfl

theorem prefixes_spaced (entries : List (String × String)) (rest : List Char) :
    ' ' :: (Written.prefixes entries ++ rest) = spaced declaration entries ++ ' ' :: rest := by
  induction entries with
  | nil => rw [Written.prefixes, spaced, List.flatMap_nil, List.flatMap_nil]; rfl
  | cons entry entries ih => rw [spaced_cons, prefixes_cons, ih]

/-- The declarations are read to their end, and at most the space behind the last one is left. -/
theorem prefixes_written {entries : List (String × String)} (rest : List Char)
    (h : ∀ entry ∈ entries, IsPrefix entry.1 ∧ IsUri entry.2)
    (stop : prefixDecl (skip rest) = none) :
    ∃ left, many prefixDecl (Written.prefixes entries ++ rest) = (entries, left) ∧
      skip left = skip rest := by
  cases entries with
  | nil => exact ⟨rest, manyUpTo_stop _ stop, rfl⟩
  | cons entry entries =>
      obtain ⟨⟨name, uri⟩, others⟩ := List.forall_mem_cons.1 h
      have read : ∀ next ∈ entries, ∀ tail, Ends tail →
          prefixDecl (skip (declaration next ++ tail)) = some (id next, tail) :=
        fun next mem tail _ => prefixDecl_written tail (others next mem).1 (others next mem).2
      have first := prefixDecl_written (spaced declaration entries ++ ' ' :: rest) name uri
      have fuel : ∃ n, (declaration entry ++ (spaced declaration entries ++ ' ' :: rest)).length =
          n + 1 ∧ entries.length ≤ n := by
        have enough := length_le_spaced declaration entries
        refine ⟨_, rfl, ?_⟩
        simp
        omega
      obtain ⟨n, length, enough⟩ := fuel
      have more := manyUpTo_written read (Token.ends_space rest) stop enough
      refine ⟨' ' :: rest, ?_, rfl⟩
      rw [prefixes_cons, prefixes_spaced, many, length, manyUpTo_step n first, more, List.map_id]

theorem fromClause_written {graph : String} (rest : List Char) (h : IsUri graph) :
    fromClause (skip ("FROM ".toList ++ Written.uri graph ++ rest)) = some (graph, rest) :=
  Token.anyUri_written rest h

theorem triple_written {p : TriplePattern} {rest : List Char} (h : p.Writable) (ends : Ends rest) :
    triple (Written.triple p ++ rest) = some (p, rest) := by
  have subject := Token.term_written h.subject
    (Token.ends_space (Written.term p.predicate ++ ' ' :: (Written.term p.object ++ rest)))
  have predicate := Token.term_written h.predicate
    (Token.ends_space (Written.term p.object ++ rest))
  have object := Token.term_written h.object ends
  have shape : Written.triple p ++ rest = Written.term p.subject ++
      ' ' :: (Written.term p.predicate ++ ' ' :: (Written.term p.object ++ rest)) := by
    simp [Written.triple]
  rw [shape, triple, subject]
  simp only [Option.bind_eq_bind, Option.bind_some, skip_space, Token.skip_term, predicate, object,
    Option.pure_def]

theorem skip_triple (p : TriplePattern) (rest : List Char) :
    skip (Written.triple p ++ rest) = Written.triple p ++ rest := by
  rw [Written.triple, List.append_assoc, List.append_assoc]
  exact Token.skip_term p.subject _

/-! ## The projection and the graphs -/

theorem variables_written {names : List String} {rest : List Char}
    (h : ∀ name ∈ names, IsName name) (ends : Ends rest)
    (stop : Token.variable (skip rest) = none) :
    many Token.variable (spaced Written.variable names ++ rest) = (names, rest) := by
  have read : ∀ name ∈ names, ∀ tail, Ends tail →
      Token.variable (skip (Written.variable name ++ tail)) = some (id name, tail) :=
    fun name mem tail ends => Token.variable_written (h name mem) ends
  have all := many_written read ends stop
  rwa [List.map_id] at all

theorem projection_written {p : Projection} {rest : List Char} (h : p.Writable)
    (ends : Ends rest) (stop : Token.variable (skip rest) = none) :
    projection (skip (Written.projection p ++ rest)) = some (p, rest) := by
  cases p with
  | all => rfl
  | listed names =>
      obtain ⟨filled, named⟩ := h
      cases names with
      | nil => exact absurd rfl filled
      | cons first more =>
          obtain ⟨firstNamed, othersNamed⟩ := List.forall_mem_cons.1 named
          have shape : Written.projection (.listed (first :: more)) ++ rest =
              Written.variable first ++ (spaced Written.variable more ++ rest) := by
            rw [Written.projection, List.map_cons, separated_cons, List.flatMap_map,
              List.append_assoc]
            rfl
          have one := Token.variable_written firstNamed
            (ends_spaced Written.variable more ends)
          have others := variables_written othersNamed ends stop
          have skips (tail : List Char) : skip (Written.variable first ++ tail) =
              Written.variable first ++ tail := rfl
          have mismatch (tail : List Char) : mark '*' (Written.variable first ++ tail) = none := rfl
          rw [shape, skips, projection, mismatch, one]
          simp only [Option.bind_eq_bind, Option.bind_some, others, Option.pure_def]

theorem graphs_written {graphs : List String} {rest : List Char}
    (h : ∀ graph ∈ graphs, IsUri graph) (ends : Ends rest)
    (stop : fromClause (skip rest) = none) :
    many fromClause (Written.graphs graphs ++ rest) = (graphs, rest) := by
  have read : ∀ graph ∈ graphs, ∀ tail, Ends tail →
      fromClause (skip ("FROM ".toList ++ Written.uri graph ++ tail)) = some (id graph, tail) :=
    fun graph mem tail _ => fromClause_written tail (h graph mem)
  have all := many_written read ends stop
  rwa [List.map_id] at all

/-! ## The group -/

/-- A pattern after the first, without the space in front. -/
def furtherPattern (p : TriplePattern) : List Char := '.' :: ' ' :: Written.triple p

theorem furtherTriple_written {p : TriplePattern} {rest : List Char} (h : p.Writable)
    (ends : Ends rest) : furtherTriple (skip (furtherPattern p ++ rest)) = some (p, rest) := by
  have start : skip (furtherPattern p ++ rest) = '.' :: ' ' :: (Written.triple p ++ rest) := rfl
  rw [start, furtherTriple, mark_self]
  simp only [Option.bind_eq_bind, Option.bind_some, skip_space, skip_triple]
  exact triple_written h ends

theorem triples_written {found : List TriplePattern} {rest : List Char}
    (filled : found ≠ []) (writable : ∀ p ∈ found, p.Writable) (ends : Ends rest)
    (stop : mark '.' (skip rest) = none) :
    triples (skip (Written.patterns found ++ rest)) = some (found, rest) := by
  cases found with
  | nil => exact absurd rfl filled
  | cons first more =>
      obtain ⟨firstWritable, othersWritable⟩ := List.forall_mem_cons.1 writable
      have shape : Written.patterns (first :: more) ++ rest =
          Written.triple first ++ (spaced furtherPattern more ++ rest) := by
        rw [Written.patterns, List.map_cons, separated_cons, List.flatMap_map, List.append_assoc]
        rfl
      have one := triple_written firstWritable (ends_spaced furtherPattern more ends)
      have read : ∀ p ∈ more, ∀ tail, Ends tail →
          furtherTriple (skip (furtherPattern p ++ tail)) = some (id p, tail) :=
        fun p mem tail ends => furtherTriple_written (othersWritable p mem) ends
      have noFurther : furtherTriple (skip rest) = none := by
        rw [furtherTriple, stop]
        rfl
      have others := many_written read ends noFurther
      rw [shape, skip_triple, triples, one]
      simp only [Option.bind_eq_bind, Option.bind_some, others, List.map_id, stop,
        Option.getD_none, Option.pure_def]

/-! ## The filter -/

theorem equation_written {c : Comparison} (rest : List Char) (h : c.Writable) :
    equation (Written.comparison 0 c ++ rest) = some (c, rest) := by
  have shape : Written.comparison 0 c ++ rest =
      Written.variable c.name ++ ' ' :: '=' :: ' ' :: (Written.uri c.uri ++ rest) := by
    simp [Written.comparison]
  have name := Token.variable_written h.name
    (Token.ends_space ('=' :: ' ' :: (Written.uri c.uri ++ rest)))
  have equals (tail : List Char) : mark '=' (skip ('=' :: tail)) = some tail := rfl
  rw [shape, equation, name]
  simp only [Option.bind_eq_bind, Option.bind_some, equals, skip_space, skip_uri,
    Token.anyUri_written rest h.uri, Option.pure_def]

theorem comparison_succ (brackets : Nat) (c : Comparison) (rest : List Char) :
    Written.comparison (brackets + 1) c ++ rest =
      '(' :: (Written.comparison brackets c ++ ')' :: rest) := by
  rw [Written.comparison, List.replicate_succ, List.replicate_succ']
  simp only [Written.comparison, List.append_assoc, List.cons_append, List.nil_append]

theorem skip_comparison (brackets : Nat) (c : Comparison) (rest : List Char) :
    skip (Written.comparison brackets c ++ rest) = Written.comparison brackets c ++ rest := by
  cases brackets <;> rfl

theorem comparisonUpTo_written {c : Comparison} (h : c.Writable) {brackets fuel : Nat}
    (enough : brackets ≤ fuel) (rest : List Char) :
    comparisonUpTo fuel (Written.comparison brackets c ++ rest) = some (c, rest) := by
  induction brackets generalizing fuel rest with
  | zero =>
      have bare (tail : List Char) : mark '(' (Written.comparison 0 c ++ tail) = none := rfl
      cases fuel with
      | zero => exact equation_written rest h
      | succ fuel => rw [comparisonUpTo, bare]; exact equation_written rest h
  | succ brackets ih =>
      obtain ⟨fuel, rfl⟩ : ∃ n, fuel = n + 1 := ⟨fuel - 1, by omega⟩
      have inner := ih (Nat.le_of_succ_le_succ enough) (')' :: rest)
      have closed : mark ')' (skip (')' :: rest)) = some rest := rfl
      rw [comparison_succ, comparisonUpTo, mark_self]
      simp only [skip_comparison, inner, Option.bind_eq_bind, Option.bind_some, closed,
        Option.pure_def]

theorem comparison_written {c : Comparison} (h : c.Writable) (brackets : Nat) (rest : List Char) :
    comparison (Written.comparison brackets c ++ rest) = some (c, rest) := by
  refine comparisonUpTo_written h ?_ rest
  simp only [Written.comparison, List.length_append, List.length_replicate]
  omega

theorem comparisons_eq_map (brackets : Nat → Nat) (n : Nat) (found : List Comparison) :
    Written.comparisons brackets n found =
      (found.zipIdx n).map fun entry => Written.comparison (brackets entry.2) entry.1 := by
  induction found generalizing n with
  | nil => rfl
  | cons c found ih => rw [Written.comparisons, ih, List.zipIdx_cons, List.map_cons]

/-- A comparison after the first, without the space in front. -/
def furtherBody (brackets : Nat → Nat) (entry : Comparison × Nat) : List Char :=
  '|' :: '|' :: ' ' :: Written.comparison (brackets entry.2) entry.1

theorem furtherComparison_written {brackets : Nat → Nat} {entry : Comparison × Nat}
    (h : entry.1.Writable) (rest : List Char) :
    furtherComparison (skip (furtherBody brackets entry ++ rest)) = some (entry.1, rest) := by
  have start : skip (furtherBody brackets entry ++ rest) =
      '|' :: '|' :: ' ' :: (Written.comparison (brackets entry.2) entry.1 ++ rest) := rfl
  rw [start, furtherComparison, mark_self]
  simp only [Option.bind_eq_bind, Option.bind_some, mark_self, skip_space, skip_comparison]
  exact comparison_written h _ rest

theorem filter_written {found : List Comparison} (brackets : Nat → Nat)
    (h : FilterWritable (some found)) (rest : List Char) :
    filter (skip (Written.filter brackets (some found) ++ rest)) = some (found, rest) := by
  obtain ⟨filled, writable⟩ := h
  cases found with
  | nil => exact absurd rfl filled
  | cons first more =>
      obtain ⟨firstWritable, othersWritable⟩ := List.forall_mem_cons.1 writable
      have shape : Written.filter brackets (some (first :: more)) ++ rest =
          ' ' :: ("FILTER".toList ++ ' ' :: '(' :: (Written.comparison (brackets 0) first ++
            (spaced (furtherBody brackets) (more.zipIdx 1) ++ ')' :: rest))) := by
        change " FILTER (".toList ++ Written.separated " || ".toList
          (Written.comparisons brackets 0 (first :: more)) ++ [')'] ++ rest = _
        rw [comparisons_eq_map, List.zipIdx_cons, List.map_cons, separated_cons, List.flatMap_map,
          List.append_assoc, List.append_assoc, List.append_assoc]
        rfl
      have read : ∀ entry ∈ more.zipIdx 1, ∀ tail, Ends tail →
          furtherComparison (skip (furtherBody brackets entry ++ tail)) = some (entry.1, tail) := by
        intro entry mem tail _
        have writable : entry.1.Writable := othersWritable _ (List.fst_mem_of_mem_zipIdx mem)
        exact furtherComparison_written writable tail
      have others := many_written read (Token.ends_bracket rest) rfl
      have firsts : (more.zipIdx 1).map Prod.fst = more := List.zipIdx_map_fst 1 more
      have start (text : List Char) :
          skip (' ' :: ("FILTER".toList ++ text)) = "FILTER".toList ++ text := rfl
      have word (text : List Char) :
          Token.keyword "FILTER".toList ("FILTER".toList ++ text) = some text := rfl
      have opened (text : List Char) : mark '(' (skip (' ' :: '(' :: text)) = some text := rfl
      have closed : mark ')' (skip (')' :: rest)) = some rest := rfl
      rw [shape, start, filter, word]
      simp only [Option.bind_eq_bind, Option.bind_some, opened, skip_comparison,
        comparison_written firstWritable, others, firsts, closed, Option.pure_def]

theorem optional_filter_written {found : Option (List Comparison)} (brackets : Nat → Nat)
    (h : FilterWritable found) {rest : List Char} (stop : filter (skip rest) = none) :
    optional filter (Written.filter brackets found ++ rest) = (found, rest) := by
  cases found with
  | none => exact optional_none stop
  | some found => exact optional_some (filter_written brackets h rest)

/-! ## The group and the query -/

/-- What stands behind the patterns is not taken for a further one. -/
theorem filter_behind_patterns (brackets : Nat → Nat) (found : Option (List Comparison))
    (rest : List Char) : Ends (Written.filter brackets found ++ ' ' :: '\x7d' :: rest) ∧
      mark '.' (skip (Written.filter brackets found ++ ' ' :: '\x7d' :: rest)) = none := by
  cases found with
  | none => exact ⟨Token.ends_space _, rfl⟩
  | some found => exact ⟨Token.ends_space _, rfl⟩

theorem group_written {patterns : List TriplePattern} {inner : Option (List Comparison)}
    (brackets : Nat → Nat) (filled : patterns ≠ []) (writable : ∀ p ∈ patterns, p.Writable)
    (filters : FilterWritable inner) (rest : List Char) :
    group ('\x7b' :: ' ' :: (Written.patterns patterns ++
      (Written.filter brackets inner ++ ' ' :: '\x7d' :: rest))) =
        some ((patterns, inner), rest) := by
  obtain ⟨ends, stop⟩ := filter_behind_patterns brackets inner rest
  have read : optional triples (' ' :: (Written.patterns patterns ++
      (Written.filter brackets inner ++ ' ' :: '\x7d' :: rest))) =
        (some patterns, Written.filter brackets inner ++ ' ' :: '\x7d' :: rest) := by
    refine optional_some ?_
    rw [skip_space]
    exact triples_written filled writable ends stop
  have filtered : optional filter (Written.filter brackets inner ++ ' ' :: '\x7d' :: rest) =
      (inner, ' ' :: '\x7d' :: rest) := optional_filter_written brackets filters rfl
  have closed : mark '\x7d' (skip (' ' :: '\x7d' :: rest)) = some rest := rfl
  rw [group, mark_self]
  simp only [Option.bind_eq_bind, Option.bind_some, read, filtered, closed, Option.getD_some,
    Option.pure_def]

theorem distinct_written {p : Projection} (distinct : Bool) (h : p.Writable) (rest : List Char) :
    optional (fun text => (Token.keyword "DISTINCT".toList text).map ((), ·))
        (' ' :: ((if distinct then "DISTINCT ".toList else []) ++
          (Written.projection p ++ rest))) =
      (if distinct then some () else none, ' ' :: (Written.projection p ++ rest)) := by
  cases distinct with
  | true => rfl
  | false =>
      refine optional_none ?_
      cases p with
      | all => rfl
      | listed names =>
          cases names with
          | nil => exact absurd rfl h.1
          | cons first more =>
              rw [skip_space, Written.projection, List.map_cons, separated_cons]
              rfl

/-- The filter that a layout puts inside the braces. -/
def innerFilter (layout : Layout) (filter : Option (List Comparison)) : Option (List Comparison) :=
  if layout.filterBehind then none else filter

/-- The filter that a layout puts behind the braces. -/
def outerFilter (layout : Layout) (filter : Option (List Comparison)) : Option (List Comparison) :=
  if layout.filterBehind then filter else none

theorem innerFilter_writable {filter : Option (List Comparison)} (layout : Layout)
    (h : FilterWritable filter) : FilterWritable (innerFilter layout filter) := by
  unfold innerFilter
  split
  · trivial
  · exact h

theorem outerFilter_writable {filter : Option (List Comparison)} (layout : Layout)
    (h : FilterWritable filter) : FilterWritable (outerFilter layout filter) := by
  unfold outerFilter
  split
  · exact h
  · trivial

/-- The written form, token by token. -/
theorem written_eq (q : Select) (layout : Layout) : q.written layout =
    Written.prefixes q.prefixes ++ ("SELECT".toList ++ ' ' ::
      ((if q.distinct then "DISTINCT ".toList else []) ++ (Written.projection q.projection ++
        (Written.graphs q.graphs ++ ' ' :: ("WHERE".toList ++ ' ' :: '\x7b' :: ' ' ::
          (Written.patterns q.patterns ++
            (Written.filter layout.brackets (innerFilter layout q.filter) ++ ' ' :: '\x7d' ::
              Written.filter layout.brackets (outerFilter layout q.filter)))))))) := by
  have inner : Written.filter layout.brackets (innerFilter layout q.filter) =
      if layout.filterBehind then [] else Written.filter layout.brackets q.filter := by
    unfold innerFilter
    split <;> rfl
  have outer : Written.filter layout.brackets (outerFilter layout q.filter) =
      if layout.filterBehind then Written.filter layout.brackets q.filter else [] := by
    unfold outerFilter
    split <;> rfl
  rw [inner, outer]
  unfold Select.written
  simp only [List.append_assoc]
  rfl

/-- The graphs are behind the projection, and they are not taken for a further variable. -/
theorem graphs_behind_projection (graphs : List String) (rest : List Char) :
    Ends (Written.graphs graphs ++ ' ' :: ("WHERE".toList ++ rest)) ∧
      Token.variable (skip (Written.graphs graphs ++ ' ' :: ("WHERE".toList ++ rest))) = none := by
  cases graphs with
  | nil => exact ⟨Token.ends_space _, rfl⟩
  | cons graph graphs => exact ⟨Token.ends_space _, rfl⟩

/-- The grammar reads the written form of a query as the clauses it was written from. -/
theorem clauses_written {q : Select} (layout : Layout) (h : q.Writable) :
    clauses (q.written layout) = some
      ⟨q.prefixes, q.distinct, q.projection, q.graphs, q.patterns,
        innerFilter layout q.filter, outerFilter layout q.filter⟩ := by
  rw [written_eq]
  generalize outer : Written.filter layout.brackets (outerFilter layout q.filter) = last
  generalize body : '\x7b' :: ' ' :: (Written.patterns q.patterns ++
    (Written.filter layout.brackets (innerFilter layout q.filter) ++ ' ' :: '\x7d' :: last)) = text
  have outerRead : optional filter last = (outerFilter layout q.filter, []) := by
    have writable := outerFilter_writable layout h.filter
    have read : optional filter (Written.filter layout.brackets (outerFilter layout q.filter) ++ [])
        = (outerFilter layout q.filter, []) := optional_filter_written layout.brackets writable rfl
    rwa [outer, List.append_nil] at read
  have groupRead : group (skip (' ' :: text)) =
      some ((q.patterns, innerFilter layout q.filter), last) := by
    have read := group_written layout.brackets h.patterns_ne_nil h.patterns
      (innerFilter_writable layout h.filter) last
    subst body
    exact read
  have whereRead : (Token.keyword "WHERE".toList
      (skip (' ' :: ("WHERE".toList ++ ' ' :: text)))).getD
        (' ' :: ("WHERE".toList ++ ' ' :: text)) = ' ' :: text := rfl
  have graphsRead : many fromClause (Written.graphs q.graphs ++ ' ' ::
      ("WHERE".toList ++ ' ' :: text)) = (q.graphs, ' ' :: ("WHERE".toList ++ ' ' :: text)) :=
    graphs_written h.graphs (Token.ends_space _) rfl
  obtain ⟨ends, stop⟩ := graphs_behind_projection q.graphs (' ' :: text)
  have projectionRead := projection_written h.projection ends stop
  have distinctRead := distinct_written q.distinct h.projection
    (Written.graphs q.graphs ++ ' ' :: ("WHERE".toList ++ ' ' :: text))
  obtain ⟨left, prefixesRead, leftSkip⟩ := prefixes_written ("SELECT".toList ++ ' ' ::
    ((if q.distinct then "DISTINCT ".toList else []) ++ (Written.projection q.projection ++
      (Written.graphs q.graphs ++ ' ' :: ("WHERE".toList ++ ' ' :: text))))) h.prefixes rfl
  have selectRead (tail : List Char) :
      Token.keyword "SELECT".toList (skip ("SELECT".toList ++ tail)) = some tail := rfl
  have isSome : (if q.distinct then some () else none).isSome = q.distinct := by
    cases q.distinct <;> rfl
  rw [clauses, prefixesRead]
  simp only [leftSkip, selectRead, Option.bind_eq_bind, Option.bind_some, distinctRead]
  rw [skip_space, projectionRead]
  simp only [Option.bind_some, graphsRead, whereRead, groupRead, outerRead, isSome]
  rfl

end Grammar

end RdfStore.Query
