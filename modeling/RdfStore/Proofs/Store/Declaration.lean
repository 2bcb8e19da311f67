import RdfStore.Proofs.Query.Declaration
import RdfStore.Proofs.Query.Prologue
import RdfStore.Proofs.Store.Union

/-!
# Declaring a prefix that nothing uses

A PREFIX declaration whose name no URI of the query starts with is not used by the query. It is used
all the same for the stored URIs that start with it, because both sides of a comparison are extended.
So it does not change the answer as long as it makes no stored URI equal or unequal to one that the
query compares it with (`Store.query_of_declared`). In a store that holds `mailto:` addresses,
declaring `mailto` can add rows to an answer, and a comment inside a declaration can hide SELECT
(`Store.declaration_matches_stored`). How a text is read with a declaration more is said in
`RdfStore.Proofs.Query.Prologue`.
-/

namespace RdfStore.Store

open GraphStore Query

variable {σ : Type} [GraphStore σ]

/-- Two texts that are read as one query, the second with one more prefix, have the same answer if no
URI of the query starts with the name of that prefix, and if each stored URI that does compares with
the URIs of the patterns and the filter as it does without. -/
theorem query_of_prefixes (s : σ) {text text' : String} {q : Select}
    {before after : List (String × String)} {name uri : String} (read : parse text = .ok q)
    (declared : q.prefixes = before ++ after)
    (read' : parse text' = .ok { q with prefixes := before ++ (name, uri) :: after })
    (unwritten : ∀ u ∈ q.constants ++ q.graphs, Namespaces.nameOf? u ≠ some name)
    (unaffected : ∀ graph ∈ Plan.targets (q.namespaces (namespaces s)) (defaultGraph s) q.graphs,
      ∀ t ∈ triplesOf s graph, ∀ x ∈ t.uris, Namespaces.nameOf? x = some name →
        ∀ u ∈ q.constants,
          ((namespaces s).addAll (before ++ (name, uri) :: after)).extend x =
              (q.namespaces (namespaces s)).extend u ↔
            (q.namespaces (namespaces s)).extend x = (q.namespaces (namespaces s)).extend u)
    (limit : Option Nat) : query s text' limit = query s text limit := by
  have same {u : String} (free : Namespaces.nameOf? u ≠ some name) :
      ((namespaces s).addAll (before ++ (name, uri) :: after)).extend u =
        (q.namespaces (namespaces s)).extend u := by
    rw [Select.namespaces, declared]
    exact (namespaces s).extend_declared before after free
  have constants : ∀ u ∈ q.constants,
      ((namespaces s).addAll (before ++ (name, uri) :: after)).extend u =
        (q.namespaces (namespaces s)).extend u :=
    fun u mem => same (unwritten u (List.mem_append_left _ mem))
  have prepared : Plan.prepare text (namespaces s) (defaultGraph s) =
      Plan.ofSelect q (namespaces s) (defaultGraph s) := by
    rw [Plan.prepare, read]
    rfl
  have prepared' : Plan.prepare text' (namespaces s) (defaultGraph s) =
      (Plan.ofSelect q (namespaces s) (defaultGraph s)).map fun plan =>
        { plan with namespaces := (namespaces s).addAll (before ++ (name, uri) :: after) } := by
    rw [Plan.prepare, read']
    exact Plan.ofSelect_declared declared unwritten (namespaces s) (defaultGraph s)
  rw [query, query, prepared, prepared']
  cases planned : Plan.ofSelect q (namespaces s) (defaultGraph s) with
  | error fault => rfl
  | ok plan =>
      have made := Plan.made_of_ofSelect planned
      dsimp only [Except.map]
      cases united : unionOf s .empty plan.graphs with
      | error e => rfl
      | ok union =>
          -- What the union holds is stored in a graph of the query, where the hypothesis speaks of it.
          have compares : ∀ t ∈ union.values, Compares plan.namespaces
              ((namespaces s).addAll (before ++ (name, uri) :: after)) q.constants t.triple.uris := by
            intro t mem u written x stored
            rw [made.namespaces, constants u written]
            by_cases starts : Namespaces.nameOf? x = some name
            · rcases mem_of_unionOf _ united t mem with none | there
              · cases none
              · obtain ⟨graph, target, here⟩ := there
                exact unaffected graph (made.graphs ▸ target) t.triple here x stored starts u written
            · rw [same starts]
          rw [← made.namespaces] at constants
          exact congrArg Except.ok (Plan.run_congr made constants compares limit)

/-- A declaration that is put in front of a query text, or behind pieces that stand there, does not
change what the query answers, with or without a limit, if none of the query's URIs starts with its
name, and if each stored URI that does is, with the declaration, the same as a URI of the patterns or
the filter exactly if it is so without. The text may only be refused for another form, and that takes
a comment in front of SELECT that is not quiet. -/
theorem query_of_declared (s : σ) {text text' : String} {q : Select} {before added : List Piece}
    {rest : List Char} {name uri : String} (read : parse text = .ok q)
    (split : text.toList = preamble before ++ rest)
    (split' : text'.toList = preamble (before ++ added) ++ rest)
    (grammatical : ∀ p ∈ before ++ added, p.Read) (one : declaredEntries added = [(name, uri)])
    (fresh : ∀ e ∈ q.prefixes, e.1 ≠ name)
    (unwritten : ∀ u ∈ q.constants ++ q.graphs, Namespaces.nameOf? u ≠ some name)
    (unaffected : ∀ graph ∈ Plan.targets (q.namespaces (namespaces s)) (defaultGraph s) q.graphs,
      ∀ t ∈ triplesOf s graph, ∀ x ∈ t.uris, Namespaces.nameOf? x = some name →
        ∀ u ∈ q.constants,
          ((q.namespaces (namespaces s)).add name uri).extend x =
              (q.namespaces (namespaces s)).extend u ↔
            (q.namespaces (namespaces s)).extend x = (q.namespaces (namespaces s)).extend u) :
    (∀ (after : List Piece) (word more : List Char), rest = preamble after ++ (word ++ more) →
        word.map Char.toUpper = "SELECT".toList →
        (∀ p ∈ before ++ added ++ after, p.WellFormed ∧ p.Quiet) →
        ∀ keyword, parse text' ≠ .error (.form keyword)) ∧
      ((∀ keyword, parse text' ≠ .error (.form keyword)) →
        ∀ limit, query s text' limit = query s text limit) := by
  refine ⟨?_, fun accepted limit => ?_⟩
  · intro after word more behind upper quiet keyword
    have front : text'.toList = preamble (before ++ added ++ after) ++ (word ++ more) := by
      rw [split', behind, preamble_append _ after, List.append_assoc]
    rw [ne_eq, parse_eq_form_iff, front]
    exact formOf_select (fun p mem => (quiet p mem).1) (fun p mem => (quiet p mem).2) upper keyword
  obtain ⟨after, declared, read'⟩ := parse_inserted read split split' grammatical accepted
  rw [one, List.singleton_append] at read'
  refine query_of_prefixes s read declared read' unwritten ?_ limit
  intro graph target t stored x own starts u written
  have later : ∀ e ∈ after, e.1 ≠ name :=
    fun e mem => fresh e (declared ▸ List.mem_append_right _ mem)
  rw [(namespaces s).extend_declared_last _ later, ← declared]
  exact unaffected graph target t stored x own starts u written

/-- A store with an address, asked for other URIs with and without a declaration that concerns
addresses. It stands behind the query's own declaration, and the comment in it has a second `#`. -/
theorem query_of_declared_sample :
    let address : Statement := ⟨.named "urn:a", .named "urn:p", .named "mailto:x", none⟩
    let other : Statement := ⟨.named "urn:b", .named "urn:p", .named "urn:y", none⟩
    let s := (add (MemoryStore.empty .standard "urn:d") (fun _ => 0) [address, other] none).store
    let text := "PREFIX u: <urn:> SELECT * \x7b ?s u:p u:y \x7d"
    let text' := "PREFIX u: <urn:> pReFiX # a # b\r\nmailto: <urn:>\nSELECT * \x7b ?s u:p u:y \x7d"
    let q : Select :=
      { prefixes := [("u", "urn:")], patterns := [⟨.variable "s", .uri "u:p", .uri "u:y"⟩] }
    parse text = .ok q ∧
      (∃ t ∈ triplesOf s "urn:d", ∃ x ∈ t.uris, Namespaces.nameOf? x = some "mailto") ∧
      (query s text none).toOption.map (fun found => found.count) = some 1 ∧
      query s text' none = query s text none := by
  intro address other s text text' q
  let own : Declaration := ⟨"PREFIX".toList, [.blank ' '], "u", [.blank ' '], "urn:"⟩
  let more : Declaration := ⟨"pReFiX".toList, [.blank ' ', .comment " a # b".toList .returnFeed],
    "mailto", [.blank ' '], "urn:"⟩
  let before : List Piece := [.declaration own, .filler (.blank ' ')]
  let added : List Piece := [.declaration more, .filler (.blank '\n')]
  let rest := "SELECT * \x7b ?s u:p u:y \x7d".toList
  have read : parse text = .ok q := by cbv
  have split : text.toList = preamble before ++ rest := by decide +kernel
  have split' : text'.toList = preamble (before ++ added) ++ rest := by decide +kernel
  have formed : own.WellFormed := ⟨by decide, by decide, by decide, by decide, by decide⟩
  have formed' : more.WellFormed := ⟨by decide, by decide, by decide, by decide, by decide⟩
  have grammatical : ∀ p ∈ before ++ added, p.Read := by
    simp only [before, added, List.cons_append, List.nil_append, List.forall_mem_cons]
    exact ⟨⟨formed, by decide⟩, Filler.Read.piece rfl, ⟨formed', by decide⟩,
      Filler.Read.piece rfl, List.forall_mem_nil _⟩
  have quiet : ∀ p ∈ before ++ added, p.Quiet := by
    simp only [before, added, List.cons_append, List.nil_append, List.forall_mem_cons, Piece.Quiet]
    exact ⟨by decide, trivial, by decide, trivial, List.forall_mem_nil _⟩
  have unwritten : ∀ u ∈ q.constants ++ q.graphs, Namespaces.nameOf? u ≠ some "mailto" := by
    decide +kernel
  have unaffected : ∀ graph ∈ Plan.targets (q.namespaces (namespaces s)) (defaultGraph s) q.graphs,
      ∀ t ∈ triplesOf s graph, ∀ x ∈ t.uris, Namespaces.nameOf? x = some "mailto" →
        ∀ u ∈ q.constants,
          ((q.namespaces (namespaces s)).add "mailto" "urn:").extend x =
              (q.namespaces (namespaces s)).extend u ↔
            (q.namespaces (namespaces s)).extend x = (q.namespaces (namespaces s)).extend u := by
    decide +kernel
  obtain ⟨accepted, same⟩ :=
    query_of_declared s read split split' grammatical rfl (by decide) unwritten unaffected
  have keyword : ∀ keyword, parse text' ≠ .error (.form keyword) := by
    refine accepted [] "SELECT".toList " * \x7b ?s u:p u:y \x7d".toList (by decide) (by decide) ?_
    rw [List.append_nil]
    exact fun p mem => ⟨(grammatical p mem).formed, quiet p mem⟩
  refine ⟨read, by decide +kernel, ?_, same keyword none⟩
  simp only [query, Plan.prepare, read]
  decide +kernel

/-- A declaration that the query does not use makes a stored address equal to one of the query's
URIs, and adds a row. Another one has a comment, of which the form check keeps a front with a bracket
and the keyword of another form, and the query is refused. -/
theorem declaration_matches_stored :
    let t : Statement := ⟨.named "urn:a", .named "urn:p", .named "mailto:x", none⟩
    let s := (add (MemoryStore.empty .standard "urn:d") (fun _ => 0) [t] none).store
    let q : Select := { patterns := [⟨.variable "s", .uri "urn:p", .uri "urn:x"⟩] }
    let text := "SELECT * \x7b ?s <urn:p> <urn:x> \x7d"
    let text' := "PREFIX mailto: <urn:> SELECT * \x7b ?s <urn:p> <urn:x> \x7d"
    let commented := "PREFIX a: # > ASK #\n<http://x/> SELECT * \x7b ?s <urn:p> <urn:x> \x7d"
    parse text = .ok q ∧ parse text' = .ok { q with prefixes := [("mailto", "urn:")] } ∧
      (namespaces s).get? "mailto" = none ∧
      (∀ u ∈ q.constants ++ q.graphs, Namespaces.nameOf? u ≠ some "mailto") ∧
      (query s text none).toOption.map (fun found => found.count) = some 0 ∧
      (query s text' none).toOption.map (fun found => found.count) = some 1 ∧
      (namespaces s).get? "a" = none ∧
      (∀ u ∈ q.constants ++ q.graphs, Namespaces.nameOf? u ≠ some "a") ∧
      (Grammar.clauses commented.toList).isSome ∧
      (query s commented none).toOption.map (fun found => found.count) = none := by
  intro t s q text text' commented
  have read : parse text = .ok q := by cbv
  have read' : parse text' = .ok { q with prefixes := [("mailto", "urn:")] } := by cbv
  have refused : parse commented = .error (.form "ASK") := by
    rw [parse_eq_form_iff]
    decide +kernel
  refine ⟨read, read', by decide +kernel, by decide +kernel, ?_, ?_, by decide +kernel,
    by decide +kernel, by decide +kernel, ?_⟩
  · simp only [query, Plan.prepare, read]
    decide +kernel
  · simp only [query, Plan.prepare, read']
    decide +kernel
  · simp only [query, Plan.prepare, refused]
    decide +kernel

end RdfStore.Store
