import RdfStore.Proofs.Query.Form
import RdfStore.Query.Parse

/-!
# Reading inverts writing

A query that can be written down is read back as itself, wherever the layout puts the filter and
however many brackets it puts around the comparisons. The form check lets the text through
(`formOf_written`), the grammar finds the clauses (`Grammar.clauses_written`), and of the two places
for a filter the layout fills only one.
-/

namespace RdfStore.Query

/-- A layout fills at most one of the two places for a filter. -/
theorem soleFilter_layout (layout : Layout) (filter : Option (List Comparison)) :
    soleFilter (Grammar.innerFilter layout filter) (Grammar.outerFilter layout filter) =
      .ok filter := by
  unfold Grammar.innerFilter Grammar.outerFilter
  cases layout.filterBehind with
  | false => cases filter <;> rfl
  | true => rfl

theorem toSelect_layout {q : Select} (layout : Layout) (h : q.Writable) :
    Clauses.toSelect ⟨q.prefixes, q.distinct, q.projection, q.graphs, q.patterns,
      Grammar.innerFilter layout q.filter, Grammar.outerFilter layout q.filter⟩ = .ok q := by
  unfold Clauses.toSelect
  rw [soleFilter_layout]
  exact if_neg h.patterns_ne_nil

/-- Reading the written form of a query gives the query. -/
theorem parse_written {q : Select} (layout : Layout) (h : q.Writable) :
    parse (String.ofList (q.written layout)) = .ok q := by
  have form := formOf_written layout h
  have clauses := Grammar.clauses_written layout h
  unfold parse
  rw [String.toList_ofList, form, clauses]
  exact toSelect_layout layout h

/-- A query with every clause: URIs and values hold the marks of comments, brackets and keywords. -/
def sampleQuery : Select where
  prefixes := [("ex", "http://x/#"), ("", "ASK")]
  graphs := ["ex:g#1", "http://g"]
  projection := .listed ["s", "1_a"]
  distinct := true
  patterns :=
    [⟨.variable "s", .uri "a#b", .literal ⟨"\"\\#>\x7d WHERE\n", none, some "en-GB-1"⟩⟩,
      ⟨.blank "b-1", .variable "p", .literal ⟨"1", some "xsd:int#", none⟩⟩]
  filter := some [⟨"p", "ex:q"⟩, ⟨"s", ""⟩]

theorem parse_written_sampleQuery : sampleQuery.Writable ∧
    parse (String.ofList (sampleQuery.written ⟨true, fun n => n + 1⟩)) = .ok sampleQuery := by
  have tag : IsTag "en-GB-1" :=
    ⟨['e', 'n'], [['G', 'B'], ['1']], rfl, by decide, by decide⟩
  have tagged : LiteralWritable ⟨"\"\\#>\x7d WHERE\n", none, some "en-GB-1"⟩ :=
    ⟨Or.inr rfl, by rintro _ ⟨⟩; exact tag, by rintro _ ⟨⟩⟩
  have typed : LiteralWritable ⟨"1", some "xsd:int#", none⟩ :=
    ⟨Or.inl rfl, by rintro _ ⟨⟩, by rintro _ ⟨⟩; decide⟩
  have first : IsName "s" ∧ IsUri "a#b" := by decide
  have second : IsLabel "b-1" ∧ IsName "p" := by decide
  have filter : ∀ c ∈ [Comparison.mk "p" "ex:q", ⟨"s", ""⟩], IsName c.name ∧ IsUri c.uri := by
    decide
  have writable : sampleQuery.Writable :=
    { prefixes := by decide
      graphs := by decide
      projection := ⟨by decide, by decide⟩
      patterns_ne_nil := by decide
      patterns := List.forall_mem_cons.2 ⟨⟨first.1, first.2, tagged⟩,
        List.forall_mem_singleton.2 ⟨second.1, second.2, typed⟩⟩
      filter := ⟨by decide, fun c mem => ⟨(filter c mem).1, (filter c mem).2⟩⟩ }
  exact ⟨writable, parse_written ⟨true, fun n => n + 1⟩ writable⟩

example : String.ofList (sampleQuery.written ⟨true, fun n => n + 1⟩) =
    "PREFIX ex: <http://x/#> PREFIX : <ASK> SELECT DISTINCT ?s ?1_a " ++
      "FROM <ex:g#1> FROM <http://g> " ++
      "WHERE \x7b ?s <a#b> \"\\\"\\\\#>\x7d WHERE\\n\"@en-GB-1 . " ++
      "_:b-1 ?p \"1\"^^<xsd:int#> \x7d FILTER ((?p = <ex:q>) || ((?s = <>)))" := by decide +kernel

end RdfStore.Query
