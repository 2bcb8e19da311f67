import RdfStore.Proofs.Query.Plan
import RdfStore.Proofs.Query.Rows

/-!
# One more prefix

A PREFIX declaration is used for the URIs that start with its name and a colon, on both sides of a
comparison: for those that are written in the query and for those that are stored. If no written URI
starts with the name, then all that a declaration can do is to change how stored URIs compare with
written ones. `Compares` says of two registries that they compare two lists of URIs alike, and then
patterns have the same answers under both (`Answers.congr`), the same statements pass the filter
(`Plan.accepts_congr`), and a plan has the same solutions (`Plan.run_congr`).
-/

namespace RdfStore

/-! ## Registries -/

namespace Namespaces

/-- The name that a URI would be extended by: what stands in front of its first colon, unless `//`
follows. -/
def nameOf? (uri : String) : Option String :=
  match Text.cut? [':'] uri.toList with
  | none => none
  | some (name, rest) =>
    if (Text.stripFront? ['/', '/'] rest).isSome then none else some (String.ofList name)

variable {ns ms : Namespaces} {name uri : String}

/-- Only the entry for a URI's name decides what the URI is extended to. -/
theorem extend_congr (same : ∀ n, nameOf? uri = some n → ns.get? n = ms.get? n) :
    ns.extend uri = ms.extend uri := by
  have split : ns.split? uri = ms.split? uri := by
    unfold nameOf? at same
    unfold split?
    cases cut : Text.cut? [':'] uri.toList with
    | none => rfl
    | some parts =>
        rcases parts with ⟨front, rest⟩
        rw [cut] at same
        dsimp only at same ⊢
        split
        · rfl
        · rename_i free
          rw [if_neg free] at same
          rw [same _ rfl]
  rw [extend, extend, split]

theorem get?_add (ns : Namespaces) (name uri n : String) :
    (ns.add name uri).get? n = if name = n then some uri else ns.get? n :=
  OrderedMap.get?_insert _ _ _ _

theorem addAll_append (ns : Namespaces) (entries more : List (String × String)) :
    ns.addAll (entries ++ more) = (ns.addAll entries).addAll more :=
  List.foldl_append

theorem get?_addAll_congr (entries : List (String × String)) :
    ∀ {ns ms : Namespaces}, ns.get? name = ms.get? name →
      (ns.addAll entries).get? name = (ms.addAll entries).get? name := by
  induction entries with
  | nil => exact id
  | cons e rest ih =>
      intro ns ms same
      refine ih ?_
      rw [get?_add, get?_add, same]

theorem get?_addAll_of_ne {entries : List (String × String)} (fresh : ∀ e ∈ entries, e.1 ≠ name) :
    ∀ ns : Namespaces, (ns.addAll entries).get? name = ns.get? name := by
  induction entries with
  | nil => exact fun _ => rfl
  | cons e rest ih =>
      intro ns
      obtain ⟨first, others⟩ := List.forall_mem_cons.1 fresh
      refine (ih others (ns.add e.1 e.2)).trans ?_
      rw [get?_add, if_neg first]

/-- One more declaration changes nothing for other names, wherever it stands. -/
theorem get?_addAll_declared (before after : List (String × String)) {n : String} (ne : name ≠ n) :
    (ns.addAll (before ++ (name, uri) :: after)).get? n = (ns.addAll (before ++ after)).get? n := by
  rw [addAll_append, addAll_append]
  have other : ((ns.addAll before).add name uri).get? n = (ns.addAll before).get? n := by
    rw [get?_add, if_neg ne]
  exact get?_addAll_congr after other

/-- A declaration of a name that none of the later ones declares may stand behind them. -/
theorem extend_declared_last (ns : Namespaces) (before : List (String × String))
    {after : List (String × String)} (fresh : ∀ e ∈ after, e.1 ≠ name) (x : String) :
    (ns.addAll (before ++ (name, uri) :: after)).extend x =
      ((ns.addAll (before ++ after)).add name uri).extend x := by
  refine extend_congr fun n _ => ?_
  rw [get?_add]
  split
  · rename_i same
    subst same
    have there : ((ns.addAll before).addAll ((name, uri) :: after)).get? name =
        ((ns.addAll before).add name uri).get? name := get?_addAll_of_ne fresh _
    rw [addAll_append, there, get?_add, if_pos rfl]
  · rename_i other
    exact get?_addAll_declared before after other

/-- A URI that does not start with the declared name is extended as before. -/
theorem extend_declared (ns : Namespaces) (before after : List (String × String)) {x : String}
    (free : nameOf? x ≠ some name) :
    (ns.addAll (before ++ (name, uri) :: after)).extend x = (ns.addAll (before ++ after)).extend x :=
  extend_congr fun _ named =>
    get?_addAll_declared before after fun same => free (same ▸ named)

end Namespaces

/-! ## URIs in nodes and in queries -/

/-- The URIs of a node: its own, or a literal's datatype. -/
def Node.uris : Node → List String
  | named uri => [uri]
  | literal l => l.datatype.toList
  | _ => []

theorem Node.mem_uris_of_uri? {n : Node} {uri : String} (named : n.uri? = some uri) :
    uri ∈ n.uris := by
  cases n with
  | named u =>
      cases named
      exact List.mem_singleton_self uri
  | literal | blank | pattern => cases named

/-- The URIs of a triple. -/
def Triple.uris (t : Triple) : List String := t.nodes.flatMap Node.uris

namespace Query

/-- The URIs of a term: its own, or a literal's datatype. -/
def Term.uris : Term → List String
  | uri text => [text]
  | literal l => l.datatype.toList
  | _ => []

/-- The URIs of a pattern. -/
def TriplePattern.uris (p : TriplePattern) : List String :=
  p.subject.uris ++ p.predicate.uris ++ p.object.uris

/-- The URIs that a query compares with stored ones. -/
def Select.constants (q : Select) : List String :=
  q.patterns.flatMap TriplePattern.uris ++ (q.filter.getD []).map Comparison.uri

/-! ## Registries that compare alike -/

/-- Under two registries the same of some stored URIs are the same in full as a written one. -/
def Compares (ns ms : Namespaces) (written stored : List String) : Prop :=
  ∀ u ∈ written, ∀ x ∈ stored, ms.extend x = ms.extend u ↔ ns.extend x = ns.extend u

theorem Compares.mono {ns ms : Namespaces} {written written' stored stored' : List String}
    (h : Compares ns ms written stored) (fewer : written' ⊆ written) (fewer' : stored' ⊆ stored) :
    Compares ns ms written' stored' :=
  fun u mem x mem' => h u (fewer mem) x (fewer' mem')

section

variable {ns ms : Namespaces} {σ : Assignment}

theorem LiteralMatches.congr {written stored : Literal}
    (h : Compares ns ms written.datatype.toList stored.datatype.toList) :
    LiteralMatches ms written stored ↔ LiteralMatches ns written stored := by
  have datatypes : (∀ uri, written.datatype = some uri →
        ∃ uri', stored.datatype = some uri' ∧ ms.extend uri' = ms.extend uri) ↔
      ∀ uri, written.datatype = some uri →
        ∃ uri', stored.datatype = some uri' ∧ ns.extend uri' = ns.extend uri := by
    refine forall₂_congr fun uri asked => exists_congr fun uri' => and_congr_right fun found => ?_
    exact h uri (Option.mem_toList.2 asked) uri' (Option.mem_toList.2 found)
  constructor
  · intro given
    exact ⟨given.value, given.language, datatypes.1 given.datatype⟩
  · intro given
    exact ⟨given.value, given.language, datatypes.2 given.datatype⟩

theorem Term.Matches.congr {t : Term} {n : Node} (h : Compares ns ms t.uris n.uris) :
    t.Matches ms σ n ↔ t.Matches ns σ n := by
  cases t with
  | «variable» | blank => exact Iff.rfl
  | uri written =>
      refine exists_congr fun stored => and_congr_right fun named => ?_
      subst named
      exact h written (List.mem_singleton_self _) stored (List.mem_singleton_self _)
  | literal written =>
      refine exists_congr fun stored => and_congr_right fun literal => ?_
      subst literal
      exact LiteralMatches.congr h

theorem TriplePattern.Matches.congr {p : TriplePattern} {t : Statement}
    (h : Compares ns ms p.uris t.triple.uris) : p.Matches ms σ t ↔ p.Matches ns σ t := by
  have stored {n : Node} (mem : n ∈ t.nodes) : n.uris ⊆ t.triple.uris :=
    fun x here => List.mem_flatMap.2 ⟨n, mem, here⟩
  have subject : p.subject.Matches ms σ t.subject ↔ p.subject.Matches ns σ t.subject :=
    Term.Matches.congr (h.mono (fun u mem => List.mem_append_left _ (List.mem_append_left _ mem))
      (stored List.mem_cons_self))
  have predicate : p.predicate.Matches ms σ t.predicate ↔ p.predicate.Matches ns σ t.predicate :=
    Term.Matches.congr (h.mono (fun u mem => List.mem_append_left _ (List.mem_append_right _ mem))
      (stored (List.mem_cons_of_mem _ List.mem_cons_self)))
  have object : p.object.Matches ms σ t.object ↔ p.object.Matches ns σ t.object :=
    Term.Matches.congr (h.mono (fun u mem => List.mem_append_right _ mem)
      (stored (List.mem_cons_of_mem _ (List.mem_cons_of_mem _ List.mem_cons_self))))
  constructor
  · intro given
    exact ⟨subject.1 given.subject, predicate.1 given.predicate, object.1 given.object⟩
  · intro given
    exact ⟨subject.2 given.subject, predicate.2 given.predicate, object.2 given.object⟩

variable {written : List String} {ts : List Statement}

/-- The same statements answer patterns under registries that compare alike. -/
theorem Answers.congr {patterns : List TriplePattern}
    (within : patterns.flatMap TriplePattern.uris ⊆ written)
    (h : ∀ t ∈ ts, Compares ns ms written t.triple.uris) {t : Statement} (mem : t ∈ ts) :
    Answers ms ts t patterns ↔ Answers ns ts t patterns := by
  cases patterns with
  | nil => exact Iff.rfl
  | cons first further =>
      have uris {p : TriplePattern} (there : p ∈ first :: further) : p.uris ⊆ written :=
        fun u here => within (List.mem_flatMap.2 ⟨p, there, here⟩)
      refine exists_congr fun σ => and_congr ?_ ?_
      · exact TriplePattern.Matches.congr
          ((h t mem).mono (uris List.mem_cons_self) (List.Subset.refl _))
      · refine forall₂_congr fun p there => exists_congr fun u => and_congr_right fun known => ?_
        exact TriplePattern.Matches.congr
          ((h u known).mono (uris (List.mem_cons_of_mem _ there)) (List.Subset.refl _))

open Classical in
theorem Shape.matching_congr {shape : Shape} (different : shape.names.Nodup)
    (within : shape.patterns.flatMap TriplePattern.uris ⊆ written)
    (h : ∀ t ∈ ts, Compares ns ms written t.triple.uris) :
    shape.matching ms ts = shape.matching ns ts := by
  rw [matching_eq_filter different, matching_eq_filter different]
  apply List.filter_congr
  intro t mem
  rw [decide_eq_decide]
  exact Answers.congr within h mem

end

/-! ## Plans -/

theorem Filter.resolve_congr {ns ms : Namespaces} {comparisons : List Comparison}
    (same : ∀ u ∈ comparisons.map Comparison.uri, ms.extend u = ns.extend u) (shape : Shape)
    (selected : List String) :
    resolve ms shape selected comparisons = resolve ns shape selected comparisons := by
  cases comparisons with
  | nil => rfl
  | cons first rest =>
      have uris := extendAll_congr (List.map_congr_left same)
      simp only [resolve, uris]

namespace Plan

variable {q : Select} {store ms : Namespaces} {default : String} {plan : Plan}

/-- The same statements pass the filter under registries that compare alike. -/
theorem accepts_congr (made : Made q store default plan)
    (written : ∀ u ∈ q.constants, ms.extend u = plan.namespaces.extend u) {t : Statement}
    (h : Compares plan.namespaces ms q.constants t.triple.uris) :
    accepts { plan with namespaces := ms } t = plan.accepts t := by
  unfold accepts
  dsimp only
  cases asked : plan.filter with
  | none => rfl
  | some f =>
      obtain ⟨comparisons, given, uris⟩ := made.filter f asked
      have constant {u : String} (mem : u ∈ comparisons.map Comparison.uri) : u ∈ q.constants := by
        refine List.mem_append_right _ ?_
        rw [Option.mem_def.1 given]
        exact mem
      dsimp only
      unfold Filter.accepts
      cases named : (t.nodeAt f.position).uri? with
      | none => rfl
      | some x =>
          have stored : x ∈ t.triple.uris :=
            List.mem_flatMap.2 ⟨_, t.nodeAt_mem_nodes f.position, Node.mem_uris_of_uri? named⟩
          have asks (full : String) : full ∈ f.uris ↔
              ∃ u ∈ comparisons.map Comparison.uri, plan.namespaces.extend u = full := by
            rw [uris, ← made.namespaces, mem_extendAll, List.mem_map]
          rw [Option.any_some, Option.any_some, Bool.eq_iff_iff, List.contains_iff_mem,
            List.contains_iff_mem, asks, asks]
          refine exists_congr fun u => and_congr_right fun mem => ?_
          have alike := h u (constant mem) x stored
          rw [written u (constant mem)] at alike
          exact eq_comm.trans (alike.trans eq_comm)

/-- A plan has the same solutions under another registry that extends the query's URIs alike and
compares them alike with those that are stored. -/
theorem run_congr (made : Made q store default plan)
    (written : ∀ u ∈ q.constants, ms.extend u = plan.namespaces.extend u) {ts : List Statement}
    (h : ∀ t ∈ ts, Compares plan.namespaces ms q.constants t.triple.uris) (limit : Option Nat) :
    run { plan with namespaces := ms } ts limit = plan.run ts limit := by
  obtain ⟨patterns, different⟩ := Shape.classify_eq_ok made.shape
  have within : plan.shape.patterns.flatMap TriplePattern.uris ⊆ q.constants :=
    fun u mem => List.mem_append_left _ (patterns ▸ mem)
  have matched := Shape.matching_congr different within h
  have sub : plan.shape.matching plan.namespaces ts ⊆ ts :=
    (Shape.matching_sublist plan.shape ts).subset
  simp only [run, matched]
  congr 1
  apply collect_congr
  · rfl
  · exact fun t mem => accepts_congr made written (h t (sub mem))
  · exact fun _ _ => rfl

/-- A query with one more declaration, whose name none of its URIs starts with, has a plan that
differs in its registry only, or is refused alike. -/
theorem ofSelect_declared {before after : List (String × String)} {name uri : String}
    (declared : q.prefixes = before ++ after)
    (unwritten : ∀ u ∈ q.constants ++ q.graphs, Namespaces.nameOf? u ≠ some name)
    (store : Namespaces) (default : String) :
    ofSelect { q with prefixes := before ++ (name, uri) :: after } store default =
      (ofSelect q store default).map fun plan =>
        { plan with namespaces := store.addAll (before ++ (name, uri) :: after) } := by
  have same {u : String} (mem : u ∈ q.constants ++ q.graphs) :
      (store.addAll (before ++ (name, uri) :: after)).extend u = (store.addAll q.prefixes).extend u :=
    declared ▸ store.extend_declared before after (unwritten u mem)
  have filters : ∀ comparisons ∈ q.filter, ∀ shape selected,
      Filter.resolve (store.addAll (before ++ (name, uri) :: after)) shape selected comparisons =
        Filter.resolve (store.addAll q.prefixes) shape selected comparisons := by
    intro comparisons asked shape selected
    refine Filter.resolve_congr (fun u mem => same (List.mem_append_left _ ?_)) shape selected
    refine List.mem_append_right _ ?_
    rw [Option.mem_def.1 asked]
    exact mem
  have targets : targets (store.addAll (before ++ (name, uri) :: after)) default q.graphs =
      targets (q.namespaces store) default q.graphs := by
    unfold Plan.targets
    rw [extendAll_congr (List.map_congr_left fun u mem => same (List.mem_append_right _ mem))]
    rfl
  rw [ofSelect_with q _ q.graphs store filters default, targets]
  cases planned : ofSelect q store default with
  | error fault => rfl
  | ok plan =>
      dsimp only [Except.map]
      rw [← (made_of_ofSelect planned).graphs]

end Plan

end Query

end RdfStore
