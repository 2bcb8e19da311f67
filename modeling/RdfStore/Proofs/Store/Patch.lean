import RdfStore.Proofs.Store.Plain
import RdfStore.Statement.Diff

/-!
# A difference is a patch

Take two collections of plain statements and a graph in memory that holds what adding the left one
puts there. Deleting the statements that only the left one has and then adding those that only the
right one has (`StatementDiff.patch`) leaves the graph with the digests of the right one
(`MemoryStore.patched_of_diff`). The difference goes by digests and keeps the first statement with
each, addition does the same, and so every deletion meets exactly the statement that is stored.

* `MemoryStore.replay_deletions`: a run of deletions takes away one statement each.
* `MemoryStore.take_add`: an addition of statements with new digests keeps all of them.
-/

namespace RdfStore

open GraphStore Store

/-! ## Histories in parts -/

theorem Turn.replay_append {σ : Type} [GraphStore σ] (reopened : σ → σ) (later : List Turn)
    (turns : List Turn) :
    ∀ s : σ, replay reopened s (turns ++ later) =
      ((replay reopened s turns).1 ++ (replay reopened (replay reopened s turns).2 later).1,
        (replay reopened (replay reopened s turns).2 later).2) := by
  induction turns with
  | nil => intro s; rfl
  | cons turn rest ih =>
      intro s
      simp only [List.cons_append, replay, ih]

/-! ## Differences by triple digest -/

/-- Taking some members out of a list without repetitions leaves the others. -/
theorem diff_filter_of_nodup {α : Type} [DecidableEq α] {l : List α} (nodup : l.Nodup)
    (p : α → Bool) : l.diff (l.filter p) = l.filter fun a => !p a := by
  rw [nodup.sdiff_eq_filter]
  refine List.filter_congr fun a mem => ?_
  cases here : p a <;> simp [here, mem]

theorem Statement.tripleDigest_inGraph (t : Statement) (graph : String) :
    (t.triple.inGraph graph).tripleDigest = t.tripleDigest := by
  rw [tripleDigest_eq, tripleDigest_eq t]
  rfl

theorem Statement.map_tripleDigest_inGraph (statements : List Statement) (graph : String) :
    (statements.map fun t => t.triple.inGraph graph).map tripleDigest =
      statements.map tripleDigest := by
  rw [List.map_map]
  refine List.map_congr_left fun t _ => ?_
  rw [Function.comp_apply, tripleDigest_inGraph]

/-- Uniting statements that have been moved to another graph. -/
theorem Store.unite_mapValues {f : Statement → Statement}
    (same : ∀ t, (f t).tripleDigest = t.tripleDigest) (statements : List Statement) :
    ∀ m : OrderedMap Digest Statement,
      unite (m.mapValues f) (statements.map f) = (unite m statements).mapValues f := by
  induction statements with
  | nil => intro m; rfl
  | cons t rest ih =>
      intro m
      have step : unite (m.mapValues f) ((t :: rest).map f) =
          unite ((m.mapValues f).insertNew (f t).tripleDigest (f t)) (rest.map f) := rfl
      rw [step, same, ← OrderedMap.mapValues_insertNew, ih]
      rfl

theorem Store.mem_keys_unite_empty {digest : Digest} {statements : List Statement} :
    digest ∈ (unite .empty statements).keys ↔ digest ∈ statements.map Statement.tripleDigest :=
  mem_keys_unite.trans (or_iff_right List.not_mem_nil)

/-- The keys of one map that another has as well, and then those that only the other has. -/
theorem OrderedMap.keys_exchanged {α β : Type} [DecidableEq α] (m n : OrderedMap α β) :
    (m.keys.filter n.contains ++ n.keys.filter fun a => !m.contains a).Nodup ∧
      ∀ a, a ∈ m.keys.filter n.contains ++ n.keys.filter (fun a => !m.contains a) ↔ a ∈ n.keys := by
  have shared : ∀ a, a ∈ m.keys.filter n.contains ↔ a ∈ m.keys ∧ a ∈ n.keys := by
    intro a
    rw [List.mem_filter, contains_iff_mem]
  have new : ∀ a, a ∈ n.keys.filter (fun a => !m.contains a) ↔ a ∈ n.keys ∧ a ∉ m.keys := by
    intro a
    rw [List.mem_filter, Bool.not_eq_true', ← Bool.not_eq_true, contains_iff_mem]
  constructor
  · have parts := List.Nodup.filter n.contains m.keys_nodup
    refine List.nodup_append.2 ⟨parts, List.Nodup.filter _ n.keys_nodup, ?_⟩
    rintro a here b there rfl
    exact ((new a).1 there).2 ((shared a).1 here).1
  · intro a
    rw [List.mem_append, shared, new]
    tauto

namespace StatementDiff

theorem index_eq_unite (statements : List Statement) :
    index false statements = unite .empty statements := by
  unfold index unite Statement.tripleDigest
  rfl

theorem between_eq (left right : List Statement) :
    between false left right =
      ⟨only (unite .empty left) (unite .empty right),
        only (unite .empty right) (unite .empty left)⟩ := by
  rw [between, index_eq_unite, index_eq_unite]

theorem only_eq {here there : OrderedMap Digest Statement} (keyed : Keyed here) :
    only here there = here.values.filter fun t => !there.contains t.tripleDigest := by
  rw [only, OrderedMap.values, OrderedMap.values, List.filter_map]
  refine congrArg (List.map Prod.snd) (List.filter_congr fun e mem => ?_)
  rw [Function.comp_apply, keyed e mem]

theorem map_tripleDigest_only {here there : OrderedMap Digest Statement} (keyed : Keyed here) :
    (only here there).map Statement.tripleDigest =
      here.keys.filter fun digest => !there.contains digest := by
  rw [only_eq keyed, keyed.keys_eq, List.filter_map]
  rfl

theorem only_subset (left : List Statement) (there : OrderedMap Digest Statement) :
    only (unite .empty left) there ⊆ left := by
  rw [only_eq (keyed_empty.unite left)]
  intro t mem
  exact (values_unite_sublist left .empty).subset (List.mem_filter.1 mem).1

/-- The turns that delete what only the left collection has from a graph, one by one, and then add
what only the right one has. -/
def patch (d : StatementDiff) (draws : Draws) (graph : String) : List Turn :=
  d.onlyLeft.map (fun t => .change (.delete t (some graph))) ++
    [.change (.add draws d.onlyRight (some graph))]

end StatementDiff

/-! ## Plain statements in memory -/

namespace MemoryStore

variable {m : MemoryStore} {graph : String} {held : OrderedMap Digest Statement}
  {batch : List Statement}

/-- Adding plain statements to a graph inserts their triples, also if there are none. -/
theorem add_eq_insert (found : m.graphs.get? graph = some held)
    (fixed : m.namespaces.extend graph = graph) (plain : ∀ t ∈ batch, t.Plain m.namespaces)
    (draws : Draws) :
    Store.add m draws batch (some graph) =
      m.insert graph (batch.map fun t => t.triple.inGraph graph) := by
  cases batch with
  | nil =>
      have nothing : m.insert graph [] = ⟨.ok 0, m⟩ :=
        insert_of_known found fun _ mem => by cases mem
      exact nothing.symm
  | cons t rest =>
      have registered : contains m graph = true :=
        m.readable.contains_of_read (statements_eq_ok_iff.2 ⟨held, found, rfl⟩)
      exact add_of_plain (List.cons_ne_nil t rest) plain (fun _ _ => fixed) registered

/-- A graph of a store holds exactly what adding some statements puts into an empty one. -/
def Filled (graph : String) (statements : List Statement) (m : MemoryStore) : Prop :=
  ∃ (m₀ : MemoryStore) (draws : Draws), m₀.namespaces = m.namespaces ∧
    m₀.graphs.get? graph = some .empty ∧
    m.graphs.get? graph = (Store.add m₀ draws statements (some graph)).store.graphs.get? graph

/-- An addition keeps the first statement with each digest. -/
theorem Filled.get? (filled : m.Filled graph batch) (fixed : m.namespaces.extend graph = graph)
    (plain : ∀ t ∈ batch, t.Plain m.namespaces) :
    m.graphs.get? graph =
      some ((unite .empty batch).mapValues fun t => t.triple.inGraph graph) := by
  obtain ⟨m₀, draws, prefixes, void, same⟩ := filled
  rw [← prefixes] at fixed plain
  rw [same, add_eq_insert void fixed plain, insert, void]
  change (m₀.graphs.insert graph _).get? graph = _
  rw [OrderedMap.get?_insert, if_pos rfl]
  exact congrArg some
    (unite_mapValues (fun t => t.tripleDigest_inGraph graph) batch .empty)

/-- Adding plain statements with new digests, each once, keeps all of them. -/
theorem take_add (found : m.graphs.get? graph = some held)
    (fixed : m.namespaces.extend graph = graph) (plain : ∀ t ∈ batch, t.Plain m.namespaces)
    (nodup : (held.keys ++ batch.map Statement.tripleDigest).Nodup) (draws : Draws) :
    ∃ m', Turn.take id m (.change (.add draws batch (some graph))) =
        ⟨.ok (.number batch.length), m'⟩ ∧
      AltersOnly graph m m' ∧
      GraphStore.statements m' graph =
        .ok (held.values ++ batch.map fun t => t.triple.inGraph graph) := by
  let placed := batch.map fun t => t.triple.inGraph graph
  have digests : placed.map Statement.tripleDigest = batch.map Statement.tripleDigest :=
    Statement.map_tripleDigest_inGraph batch graph
  have values : (unite held placed).values = held.values ++ placed :=
    values_unite_of_nodup (digests.symm ▸ nodup)
  have count : (unite held placed).size - held.size = batch.length := by
    rw [size_unite, newBy_of_nodup (digests.symm ▸ nodup), Nat.add_sub_cancel_left]
    exact List.length_map _
  refine ⟨{ m with graphs := m.graphs.insert graph (unite held placed) }, ?_, ?_, ?_⟩
  · change Reply.map Answer.number (Store.add m draws batch (some graph)) = _
    rw [add_eq_insert found fixed plain, insert, found, ← count]
    rfl
  · exact shelved.altersOnly_insert (OrderedMap.mem_keys_iff.2 ⟨held, found⟩) rfl
  · refine statements_eq_ok_iff.2 ⟨unite held placed, ?_, values⟩
    rw [OrderedMap.get?_insert, if_pos rfl]

/-! ## Deleting one by one -/

/-- A later store that differs in a graph of which some statements are left. -/
structure Reduced (graph : String) (left : List Statement) (m m' : MemoryStore) : Prop where
  namespaces : m'.namespaces = m.namespaces
  alters : AltersOnly graph m m'
  read : GraphStore.statements m' graph = .ok left
  entries : ∀ P, m.Entries P → m'.Entries P

/-- Deleting by a plain statement takes away the stored one with its nodes. -/
theorem take_delete {stored : List Statement} {p : Statement}
    (fixed : m.namespaces.extend graph = graph)
    (read : GraphStore.statements m graph = .ok stored) (nodup : stored.Nodup)
    (placed : ∀ t ∈ stored, t.graph = some (.named graph)) (plain : p.Plain m.namespaces)
    (mem : p.triple.inGraph graph ∈ stored) :
    ∃ m', Turn.take id m (.change (.delete p (some graph))) = ⟨.ok (.number 1), m'⟩ ∧
      Reduced graph (stored.erase (p.triple.inGraph graph)) m m' := by
  have registered := m.readable.contains_of_read read
  have selects : patternGraph m p (some graph) = .ok (some graph) :=
    congrArg (fun g => Except.ok (some g)) fixed
  have concrete : ∀ n ∈ p.nodes, n.isConcrete = true := fun n occurs =>
    Node.isConcrete_of_storable (plain.valid.storable n occurs)
  obtain ⟨m', deleted, alters, left⟩ :=
    m.removing.delete read nodup placed registered selects concrete plain.full mem
  have taken : Turn.take id m (.change (.delete p (some graph))) = ⟨.ok (.number 1), m'⟩ := by
    change Reply.map Answer.number (Store.delete m p (some graph)) = _
    rw [deleted]
    rfl
  refine ⟨m', taken, ?_, alters, left, fun P h => ?_⟩
  · have kept := growing.namespaces_run m (.delete p (some graph))
    change namespaces (Turn.take id m (.change (.delete p (some graph)))).store = _ at kept
    rwa [taken] at kept
  · have kept : (Store.delete m p (some graph)).store.Entries P :=
      (entries_invariant P).delete h fun _ _ _ _ => trivial
    rwa [deleted] at kept

/-- Deleting by some of the stored statements, each once, takes away one statement every time: by
induction, because the others are still stored. -/
theorem replay_deletions (patterns : List Statement) :
    ∀ {m : MemoryStore} {stored : List Statement}, m.namespaces.extend graph = graph →
      GraphStore.statements m graph = .ok stored → stored.Nodup →
      (∀ t ∈ stored, t.graph = some (.named graph)) →
      (∀ p ∈ patterns, p.Plain m.namespaces ∧ p.triple.inGraph graph ∈ stored) →
      (patterns.map fun p => p.triple.inGraph graph).Nodup →
      ∃ m', Turn.replay id m (patterns.map fun p => .change (.delete p (some graph))) =
          (patterns.map fun _ => .ok (.number 1), m') ∧
        Reduced graph (stored.diff (patterns.map fun p => p.triple.inGraph graph)) m m' := by
  induction patterns with
  | nil =>
      intro m stored _ read _ _ _ _
      exact ⟨m, rfl, rfl, .refl graph m, read, fun _ => id⟩
  | cons p rest ih =>
      intro m stored fixed read nodup placed present apart
      obtain ⟨⟨plain, mem⟩, present⟩ := List.forall_mem_cons.1 present
      obtain ⟨absent, apart⟩ := List.nodup_cons.1 apart
      obtain ⟨m₁, first, reduced⟩ := take_delete fixed read nodup placed plain mem
      have present : ∀ q ∈ rest, q.Plain m₁.namespaces ∧
          q.triple.inGraph graph ∈ stored.erase (p.triple.inGraph graph) := by
        intro q here
        obtain ⟨plain, mem⟩ := present q here
        rw [reduced.namespaces, nodup.mem_erase_iff]
        exact ⟨plain, fun same => absent (List.mem_map.2 ⟨q, here, same⟩), mem⟩
      obtain ⟨m', later, reduced'⟩ := ih (reduced.namespaces ▸ fixed) reduced.read (nodup.erase _)
        (fun t here => placed t (List.mem_of_mem_erase here)) present apart
      refine ⟨m', ?_, reduced'.namespaces.trans reduced.namespaces,
        reduced.alters.trans reduced'.alters, ?_,
        fun P h => reduced'.entries P (reduced.entries P h)⟩
      · simp only [List.map_cons, Turn.replay, first, later]
      · rw [reduced'.read, List.map_cons, List.diff_cons]

/-! ## The patched graph -/

/-- Deleting from a graph what its collection has and another has not: the digests that are left are
those that both have. -/
theorem replay_only {old new : OrderedMap Digest Statement} (keyed : Keyed old)
    (fixed : m.namespaces.extend graph = graph)
    (found : m.graphs.get? graph = some (old.mapValues fun t => t.triple.inGraph graph))
    (plain : ∀ t ∈ StatementDiff.only old new, t.Plain m.namespaces) :
    ∃ m' held,
      Turn.replay id m
          ((StatementDiff.only old new).map fun t => .change (.delete t (some graph))) =
        ((StatementDiff.only old new).map fun _ => .ok (.number 1), m') ∧
      m'.namespaces = m.namespaces ∧ AltersOnly graph m m' ∧
      m'.graphs.get? graph = some held ∧ Keyed held ∧
      held.keys = old.keys.filter new.contains := by
  let stored := old.values.map fun t => t.triple.inGraph graph
  let doomed : Statement → Bool := fun x => !new.contains x.tripleDigest
  have read : GraphStore.statements m graph = .ok stored :=
    statements_eq_ok_iff.2 ⟨_, found, OrderedMap.values_mapValues _ old⟩
  have digests : stored.map Statement.tripleDigest = old.keys :=
    (Statement.map_tripleDigest_inGraph _ _).trans keyed.keys_eq.symm
  have nodup : stored.Nodup := List.Nodup.of_map Statement.tripleDigest (digests ▸ old.keys_nodup)
  -- what is deleted is picked by digest, so it may as well be picked where it is stored
  have moved : (StatementDiff.only old new).map (fun t => t.triple.inGraph graph) =
      stored.filter doomed := by
    rw [StatementDiff.only_eq keyed, List.filter_map]
    refine congrArg (List.map _) (List.filter_congr fun t _ => ?_)
    simp only [doomed, Function.comp_apply, Statement.tripleDigest_inGraph]
  have present : ∀ p ∈ StatementDiff.only old new,
      p.Plain m.namespaces ∧ p.triple.inGraph graph ∈ stored := by
    intro p mem
    have here : p.triple.inGraph graph ∈ stored.filter doomed := moved ▸ List.mem_map_of_mem mem
    exact ⟨plain p mem, (List.mem_filter.1 here).1⟩
  have placed : ∀ t ∈ stored, t.graph = some (.named graph) := by
    intro t mem
    obtain ⟨u, -, rfl⟩ := List.mem_map.1 mem
    rfl
  obtain ⟨m', deleted, reduced⟩ :=
    replay_deletions _ fixed read nodup placed present (moved ▸ nodup.filter doomed)
  obtain ⟨held, found', values⟩ := statements_eq_ok_iff.1 reduced.read
  have keyed' : Keyed held := by
    refine fun e mem => reduced.entries (fun g digest x => g = graph → digest = x.tripleDigest) ?_
      graph held found' e mem rfl
    rintro g other there e mem rfl
    obtain rfl := Option.some.inj (found.symm.trans there)
    obtain ⟨⟨digest, t⟩, here, rfl⟩ := List.mem_map.1 mem
    exact (keyed _ here).trans (t.tripleDigest_inGraph g).symm
  have shared : old.keys.filter new.contains =
      (stored.filter fun x => new.contains x.tripleDigest).map Statement.tripleDigest := by
    rw [← digests, List.filter_map]
    rfl
  refine ⟨m', held, deleted, reduced.namespaces, reduced.alters, found', keyed', ?_⟩
  rw [keyed'.keys_eq, values, moved, diff_filter_of_nodup nodup, shared]
  simp only [doomed, Bool.not_not]

/-- A graph that holds what adding plain statements puts into an empty one, patched by the
difference to other plain statements: each deletion takes away one statement, the addition inserts
all that it is given, and then the graph has exactly the digests of the others. Nothing else
changes. -/
theorem patched_of_diff {left right : List Statement} (fixed : m.namespaces.extend graph = graph)
    (plainLeft : ∀ t ∈ left, t.Plain m.namespaces) (plainRight : ∀ t ∈ right, t.Plain m.namespaces)
    (filled : m.Filled graph left) (draws : Draws) :
    let d := StatementDiff.between false left right
    ∃ m' stored, Turn.replay id m (d.patch draws graph) =
        (d.onlyLeft.map (fun _ => .ok (.number 1)) ++ [.ok (.number d.onlyRight.length)], m') ∧
      AltersOnly graph m m' ∧ GraphStore.statements m' graph = .ok stored ∧
      (stored.map Statement.tripleDigest).Nodup ∧
      ∀ digest, digest ∈ stored.map Statement.tripleDigest ↔
        digest ∈ right.map Statement.tripleDigest := by
  intro d
  let old := unite .empty left
  let new := unite .empty right
  have onlyLeft : d.onlyLeft = StatementDiff.only old new :=
    congrArg StatementDiff.onlyLeft (StatementDiff.between_eq left right)
  have onlyRight : d.onlyRight = StatementDiff.only new old :=
    congrArg StatementDiff.onlyRight (StatementDiff.between_eq left right)
  have doomed : ∀ t ∈ StatementDiff.only old new, t.Plain m.namespaces :=
    fun t mem => plainLeft t (StatementDiff.only_subset left new mem)
  have start : m.graphs.get? graph = some (old.mapValues fun t => t.triple.inGraph graph) :=
    filled.get? fixed plainLeft
  have oldKeyed : Keyed old := keyed_empty.unite left
  obtain ⟨m₁, held, deleted, prefixes, alters, found, keyed, keys⟩ :=
    replay_only oldKeyed fixed start doomed
  have fresh : d.onlyRight.map Statement.tripleDigest =
      new.keys.filter fun digest => !old.contains digest := by
    rw [onlyRight, StatementDiff.map_tripleDigest_only (keyed_empty.unite right)]
  obtain ⟨nodup, exchanged⟩ := OrderedMap.keys_exchanged old new
  rw [← keys, ← fresh] at nodup
  have plain : ∀ t ∈ d.onlyRight, t.Plain m₁.namespaces := fun t mem =>
    prefixes ▸ plainRight t (StatementDiff.only_subset right old (onlyRight ▸ mem))
  obtain ⟨m', added, alters', read⟩ := take_add found (prefixes ▸ fixed) plain nodup draws
  have digests : (held.values ++ d.onlyRight.map fun t => t.triple.inGraph graph).map
      Statement.tripleDigest = held.keys ++ d.onlyRight.map Statement.tripleDigest := by
    rw [List.map_append, ← keyed.keys_eq, Statement.map_tripleDigest_inGraph]
  refine ⟨m', _, ?_, alters.trans alters', read, digests ▸ nodup, fun digest => ?_⟩
  · rw [StatementDiff.patch, Turn.replay_append, onlyLeft, deleted]
    simp only [Turn.replay, added]
  · rw [digests, keys, fresh, exchanged]
    exact mem_keys_unite_empty

/-- A repeated statement goes, a new one comes, and one that both collections have stays. -/
theorem patched_of_diff_sample :
    let t : Statement := ⟨.named "http://a", .named "http://p", .literal ⟨"x", none, none⟩, none⟩
    let u : Statement := { t with subject := .named "http://b" }
    let v : Statement := { t with subject := .named "http://c", graph := some (.named "urn:h") }
    let graphs := (OrderedMap.empty.insert "urn:h" (unite .empty [v])).insert "urn:g" .empty
    let m₀ : MemoryStore := ⟨graphs, .standard, "urn:d"⟩
    let m := (Store.add m₀ (fun _ => 0) [t, u, t] (some "urn:g")).store
    m.Filled "urn:g" [t, u, t] ∧
      ∃ m' stored, Turn.replay id m [.change (.delete t (some "urn:g")),
            .change (.add (fun _ => 0) [v] (some "urn:g"))] =
          ([.ok (.number 1), .ok (.number 1)], m') ∧
        AltersOnly "urn:g" m m' ∧ GraphStore.statements m' "urn:g" = .ok stored ∧
        ∀ digest, digest ∈ stored.map Statement.tripleDigest ↔
          digest ∈ [v, u].map Statement.tripleDigest := by
  intro t u v graphs m₀ m
  have prefixes : m.namespaces = .standard :=
    growing.namespaces_run m₀ (.add (fun _ => 0) [t, u, t] (some "urn:g"))
  have void : m₀.graphs.get? "urn:g" = some .empty := by
    change (OrderedMap.insert _ "urn:g" _).get? "urn:g" = _
    rw [OrderedMap.get?_insert, if_pos rfl]
  have filled : m.Filled "urn:g" [t, u, t] := ⟨m₀, fun _ => 0, prefixes.symm, void, rfl⟩
  have fixed : Namespaces.standard.extend "urn:g" = "urn:g" := by decide +kernel
  have plainLeft : ∀ x ∈ [t, u, t], x.Plain .standard := by decide +kernel
  have plainRight : ∀ x ∈ [v, u], x.Plain .standard := by decide +kernel
  have patched := patched_of_diff (prefixes ▸ fixed) (prefixes ▸ plainLeft) (prefixes ▸ plainRight)
    filled fun _ => 0
  have difference : StatementDiff.between false [t, u, t] [v, u] = ⟨[t], [v]⟩ := by decide +kernel
  rw [difference] at patched
  obtain ⟨m', stored, replayed, alters, read, -, digests⟩ := patched
  exact ⟨filled, m', stored, replayed, alters, read, digests⟩

end MemoryStore

end RdfStore
