import RdfStore.Proofs.Store.DefaultGraph
import RdfStore.Proofs.Store.Isolation

/-!
# Counting, scanning and querying the default graph

The number of statements, the list of statements and the rows of the query for everything are three
ways to look at the default graph. The first two go by what the store holds. The query first unites
the statements under their triple digests, so it lists one row for each digest: as many rows as
statements exactly if no two different statements of the graph share a digest
(`Storage.rows_of_defaultGraph`).

In memory that is always so, because statements are kept under their digests there
(`MemoryStore.Indexed`). In a database file they are told apart by their nodes, and different nodes
may have one canonical text (`Storage.literals_share_row`).
-/

namespace RdfStore

open GraphStore

/-! ## Three looks at the default graph -/

namespace Store

/-- Different statements have different digests. -/
def Apart (statements : List Statement) : Prop :=
  ∀ t ∈ statements, ∀ u ∈ statements, t.tripleDigest = u.tripleDigest → t = u

instance (statements : List Statement) : Decidable (Apart statements) :=
  inferInstanceAs (Decidable (∀ t ∈ _, ∀ u ∈ _, _ → _))

variable {σ : Type} [GraphStore σ] {s : σ}

/-- Some statements are what the default graph holds; a graph that is not registered holds none. -/
structure HoldsByDefault (s : σ) (stored : List Statement) : Prop where
  held : contains s (defaultGraph s) = true →
    GraphStore.statements s (defaultGraph s) = .ok stored
  missing : contains s (defaultGraph s) = false → stored = []

theorem exists_holdsByDefault {P : List Statement → Prop}
    (readable : ∀ graph, contains s graph = true →
      ∃ stored, GraphStore.statements s graph = .ok stored ∧ P stored)
    (nothing : P []) : ∃ stored, HoldsByDefault s stored ∧ P stored := by
  cases there : contains s (defaultGraph s) with
  | true =>
      obtain ⟨stored, read, holds⟩ := readable _ there
      exact ⟨stored, ⟨fun _ => read, fun absent => nomatch there.symm.trans absent⟩, holds⟩
  | false =>
      exact ⟨[], ⟨fun present => (nomatch there.symm.trans present), fun _ => rfl⟩, nothing⟩

theorem HoldsByDefault.count {stored : List Statement} (h : HoldsByDefault s stored) :
    Store.count s none = .ok stored.length := by
  unfold Store.count
  cases there : contains s (defaultGraph s) with
  | true =>
      simp only [there, if_true, h.held there]
      rfl
  | false =>
      simp only [there, h.missing there]
      rfl

theorem HoldsByDefault.unionOf {stored : List Statement} (h : HoldsByDefault s stored) :
    Store.unionOf s .empty [defaultGraph s] = .ok (unite .empty stored) := by
  unfold Store.unionOf
  cases there : contains s (defaultGraph s) with
  | true =>
      rw [if_pos rfl, h.held there]
      rfl
  | false =>
      rw [if_neg Bool.false_ne_true, if_pos rfl, h.missing there]
      rfl

/-- The query for everything answers a row for the first statement with each digest. It answers one
for every statement exactly if the statements are apart. -/
theorem HoldsByDefault.rows {stored : List Statement} (h : HoldsByDefault s stored)
    (nodup : stored.Nodup) :
    ∃ solutions, Store.query s Query.everything none = .ok solutions ∧
      solutions.rows.map OrderedMap.entries =
        (unite .empty stored).values.map
          (fun t => [("s", t.subject), ("p", t.predicate), ("o", t.object)]) ∧
      (solutions.count = stored.length ↔ Apart stored) ∧
      (Apart stored → (unite .empty stored).values = stored) := by
  obtain ⟨solutions, answered, rows⟩ := query_everything h.unionOf
  have apart : (stored.map Statement.tripleDigest).Nodup ↔ Apart stored :=
    List.nodup_map_iff_inj_on nodup
  have count : solutions.count = (unite .empty stored).values.length := by
    have lengths := congrArg List.length rows
    rw [List.length_map, List.length_map] at lengths
    exact lengths
  have part := values_unite_sublist stored .empty
  refine ⟨solutions, answered, rows, ?_, fun h => values_unite_eq_iff.2 (apart.2 h)⟩
  rw [count, ← apart, ← values_unite_eq_iff]
  exact ⟨fun same => part.eq_of_length same, congrArg List.length⟩

end Store

/-! ## Statements under their digests in memory -/

namespace MemoryStore

/-- Inserting statements whose digests are there changes nothing. -/
theorem insert_of_known {s : MemoryStore} {graph : String} {held : OrderedMap Digest Statement}
    {batch : List Statement} (found : s.graphs.get? graph = some held)
    (known : ∀ t ∈ batch, t.tripleDigest ∈ held.keys) : s.insert graph batch = ⟨.ok 0, s⟩ := by
  rw [MemoryStore.insert, found]
  dsimp only
  rw [Store.unite_of_known known, OrderedMap.insert_of_get? found, Nat.sub_self]

/-- Every statement has a property, together with its graph and the digest that it stands under. -/
def Entries (P : String → Digest → Statement → Prop) (s : MemoryStore) : Prop :=
  ∀ graph held, s.graphs.get? graph = some held → ∀ e ∈ held.entries, P graph e.1 e.2

namespace Entries

variable {P : String → Digest → Statement → Prop} {s : MemoryStore}

/-- Writing a graph whose statements have the property. -/
theorem insert (h : s.Entries P) {graph : String} {held : OrderedMap Digest Statement}
    (new : ∀ e ∈ held.entries, P graph e.1 e.2) :
    Entries P { s with graphs := s.graphs.insert graph held } := by
  intro g other found
  change (s.graphs.insert graph held).get? g = some other at found
  rw [OrderedMap.get?_insert] at found
  split at found
  · rename_i same
    cases found
    exact same ▸ new
  · exact h g other found

theorem create (h : s.Entries P) (graph : String) : (s.create graph).Entries P := by
  unfold MemoryStore.create OrderedMap.insertNew
  split
  · exact h
  · exact h.insert fun _ mem => by cases mem

theorem drop (h : s.Entries P) (graph : String) : (s.drop graph).Entries P := by
  intro g held found
  change (s.graphs.erase _).get? g = some held at found
  rw [OrderedMap.get?_erase] at found
  split at found
  · cases found
  · exact h g held found

end Entries

/-- A property of all entries is kept if whatever is inserted has it. -/
theorem entries_invariant (P : String → Digest → Statement → Prop) :
    Invariant (fun graph batch => ∀ x ∈ batch, P graph x.tripleDigest x) (fun _ => True)
      (Entries P) where
  create h graph := h.create graph
  insert {s} h {graph batch} handed := by
    change (s.insert graph batch).store.Entries P
    unfold MemoryStore.insert
    cases found : s.graphs.get? graph with
    | none => exact h
    | some held =>
        refine h.insert fun e mem => ?_
        rcases Store.mem_entries_unite batch mem with old | ⟨x, given, rfl⟩
        · exact h graph held found e old
        · dsimp only
          exact handed x given
  remove {s} h {graph} pattern _ := by
    change (s.remove graph pattern).store.Entries P
    unfold MemoryStore.remove
    cases found : s.graphs.get? graph with
    | none => exact h
    | some held => exact h.insert fun e mem => h graph held found e (List.mem_filter.1 mem).1

/-- Every statement stands under its triple digest, in every graph. -/
def Indexed (s : MemoryStore) : Prop :=
  ∀ graph held, s.graphs.get? graph = some held → Store.Keyed held

namespace Indexed

variable {s : MemoryStore}

/-- Writing a graph whose statements stand under their digests. -/
theorem insert (h : s.Indexed) {graph : String} {held : OrderedMap Digest Statement}
    (keyed : Store.Keyed held) : Indexed { s with graphs := s.graphs.insert graph held } :=
  Entries.insert (P := fun _ digest x => digest = x.tripleDigest) h keyed

theorem create (h : s.Indexed) (graph : String) : (s.create graph).Indexed :=
  Entries.create (P := fun _ digest x => digest = x.tripleDigest) h graph

end Indexed

/-- After every history the statements stand under their digests. -/
theorem indexed_after (ns : Namespaces) (default : String) (events : List Event) :
    (Event.after reopenWith (empty ns default) events).Indexed :=
  have again : ∀ {s : MemoryStore}, s.Indexed → ∀ ns default, (s.reopenWith ns default).Indexed :=
    fun h _ _ => h
  have start : (empty ns default).Indexed := fun _ _ found => by cases found
  (entries_invariant fun _ digest x => digest = x.tripleDigest).after_within
    (fun h graph => h.drop graph) again events
    (fun e _ s => e.within_of_forall (fun _ _ _ _ => rfl) (fun _ => trivial) s) start

/-- Every registered graph can be read, and its statements have different digests. -/
theorem Indexed.readable {s : MemoryStore} (h : s.Indexed) (graph : String)
    (registered : GraphStore.contains s graph = true) :
    ∃ stored, GraphStore.statements s graph = .ok stored ∧
      (stored.map Statement.tripleDigest).Nodup := by
  obtain ⟨held, found⟩ := OrderedMap.mem_keys_iff.1 (OrderedMap.contains_iff_mem.1 registered)
  refine ⟨held.values, ?_, (h graph held found).digests_nodup⟩
  change MemoryStore.statements s graph = _
  rw [MemoryStore.statements, found]

end MemoryStore

/-! ## Different statements in a database file -/

/-- A graph holds no triple twice. -/
theorem Tables.Integrity.triples_nodup {t : Tables} {next : Counters} (h : t.Integrity next)
    (graph : Nat) : (t.triples graph).Nodup := by
  refine List.Nodup.map_on ?_ (t.quads.rows_nodup.sublist List.filter_sublist)
  intro row here row' there same
  rcases row with ⟨n, q⟩
  rcases row' with ⟨m, r⟩
  obtain ⟨found, lies⟩ := Tables.mem_rowsOf.1 here
  obtain ⟨found', lies'⟩ := Tables.mem_rowsOf.1 there
  obtain rfl : q = r :=
    h.read_injective (lies.trans lies'.symm) (h.closed n q found) (h.closed m r found') same
  rw [h.quads.key_unique found found']

theorem Triple.inGraph_injective (graph : String) : Function.Injective (Triple.inGraph graph) := by
  intro t u same
  cases t
  cases u
  cases same
  rfl

/-- Every registered graph can be read, and no two of its statements are the same. -/
theorem DurableStore.Sound.readable {s : DurableStore} (h : s.Sound) (graph : String)
    (registered : GraphStore.contains s graph = true) :
    ∃ stored, GraphStore.statements s graph = .ok stored ∧ stored.Nodup := by
  obtain ⟨id, found⟩ := OrderedMap.mem_keys_iff.1 (OrderedMap.contains_iff_mem.1 registered)
  exact ⟨_, h.statements_eq found,
    (h.integrity.triples_nodup id).map (Triple.inGraph_injective graph)⟩

/-! ## Both kinds of storage -/

namespace Storage

/-- A storage of either kind in a state that some history leads to from an empty one. -/
def Attained : Storage → Prop
  | memory m => ∃ ns default events,
      m = Event.after MemoryStore.reopenWith (MemoryStore.empty ns default) events
  | durable s => ∃ ns default events,
      s = Event.after DurableStore.reopenWith (DurableStore.new ns default) events

theorem Attained.apply {s : Storage} (attained : s.Attained) (e : Event) :
    (e.apply reopenWith s).Attained := by
  cases s with
  | memory m =>
      rcases attained with ⟨ns, default, events, rfl⟩
      rw [apply_memory]
      exact ⟨ns, default, events ++ [e], (Event.after_concat _ _ events e).symm⟩
  | durable d =>
      rcases attained with ⟨ns, default, events, rfl⟩
      rw [apply_durable]
      exact ⟨ns, default, events ++ [e], (Event.after_concat _ _ events e).symm⟩

/-- The number of statements is the length of the list of statements, and the query for everything
lists the first statement with each digest. The rows are as many as the statements exactly if no two
different statements of the default graph share a digest, and then they are the statements in
order. In memory that is always so. -/
theorem rows_of_defaultGraph {s : Storage} (attained : s.Attained) :
    ∃ stored solutions, Store.HoldsByDefault s stored ∧
      Store.count s none = .ok stored.length ∧
      Store.query s Query.everything none = .ok solutions ∧
      solutions.rows.map OrderedMap.entries =
        (Store.unite .empty stored).values.map
          (fun t => [("s", t.subject), ("p", t.predicate), ("o", t.object)]) ∧
      (solutions.count = stored.length ↔ Store.Apart stored) ∧
      (Store.Apart stored → (Store.unite .empty stored).values = stored) ∧
      ∀ m, s = memory m → Store.Apart stored := by
  cases s with
  | memory m =>
      rcases attained with ⟨ns, default, events, rfl⟩
      have indexed := MemoryStore.indexed_after ns default events
      obtain ⟨stored, holds, digests⟩ := Store.exists_holdsByDefault indexed.readable List.nodup_nil
      have holds : Store.HoldsByDefault (memory _) stored := ⟨holds.held, holds.missing⟩
      have nodup := List.Nodup.of_map Statement.tripleDigest digests
      obtain ⟨solutions, answered, rows, count, all⟩ := holds.rows nodup
      exact ⟨stored, solutions, holds, holds.count, answered, rows, count, all,
        fun _ _ => (List.nodup_map_iff_inj_on nodup).1 digests⟩
  | durable d =>
      rcases attained with ⟨ns, default, events, rfl⟩
      have sound := DurableStore.Sound.after ns default events
      obtain ⟨stored, holds, nodup⟩ := Store.exists_holdsByDefault sound.readable List.nodup_nil
      have holds : Store.HoldsByDefault (durable _) stored := ⟨holds.held, holds.missing⟩
      obtain ⟨solutions, answered, rows, count, all⟩ := holds.rows nodup
      exact ⟨stored, solutions, holds, holds.count, answered, rows, count, all,
        fun _ h => nomatch h⟩

/-- A database file after an addition, a deletion and another addition. -/
theorem rows_of_defaultGraph_sample :
    let t : Statement := ⟨.named "http://a", .named "foaf:name", .literal ⟨"a", none, none⟩, none⟩
    let u : Statement := ⟨.named "http://a", .named "foaf:name", .literal ⟨"b", none, none⟩, none⟩
    let s := durable (Event.after DurableStore.reopenWith (DurableStore.new .standard "urn:d")
      [.change (.add (fun _ => 0) [t, u] none), .change (.delete t none),
        .change (.add (fun _ => 0) [u, t] none)])
    s.Attained ∧ ∃ stored solutions, Store.HoldsByDefault s stored ∧
      Store.count s none = .ok stored.length ∧
      Store.query s Query.everything none = .ok solutions ∧
      (solutions.count = stored.length ↔ Store.Apart stored) := by
  intro t u s
  have attained : s.Attained := ⟨_, _, _, rfl⟩
  obtain ⟨stored, solutions, holds, count, answered, -, rows, -⟩ := rows_of_defaultGraph attained
  exact ⟨attained, stored, solutions, holds, count, answered, rows⟩

/-- Two literals with one canonical text, the language tag of the second being written like the
datatype of the first. A database file holds both statements, and the query shows one row. -/
theorem literals_share_row :
    let tagged : Literal := ⟨"x", some "http://d", some "en"⟩
    let odd : Literal := ⟨"x", none, some "en^^<http://d>"⟩
    let t : Statement := ⟨.named "http://a", .named "http://p", .literal tagged, none⟩
    let u : Statement := ⟨.named "http://a", .named "http://p", .literal odd, none⟩
    let s := durable (Event.after DurableStore.reopenWith (DurableStore.new .standard "urn:d")
      [.change (.add (fun _ => 0) [t, u] none)])
    s.Attained ∧ Store.count s none = .ok 2 ∧
      (GraphStore.statements s "urn:d").map List.length = .ok 2 ∧
      ∃ solutions, Store.query s Query.everything none = .ok solutions ∧ solutions.count = 1 := by
  intro tagged odd t u s
  let x : Statement := { t with graph := some (.named "urn:d") }
  let y : Statement := { u with graph := some (.named "urn:d") }
  have holds : Store.HoldsByDefault s [x, y] := by
    have there : contains s (defaultGraph s) = true := by decide +kernel
    have read : GraphStore.statements s (defaultGraph s) = .ok [x, y] := by decide +kernel
    exact ⟨fun _ => read, fun absent => nomatch there.symm.trans absent⟩
  have same : y.tripleDigest = x.tripleDigest := by
    have texts : y.canonical false = x.canonical false := by decide +kernel
    rw [Statement.tripleDigest, Statement.digest, texts, ← Statement.digest, ← Statement.tripleDigest]
  have first : (Store.unite .empty [x, y]).values = [x] := Store.values_unite_pair same
  obtain ⟨solutions, answered, rows, -⟩ := holds.rows (by decide +kernel)
  refine ⟨⟨_, _, _, rfl⟩, holds.count, ?_, solutions, answered, ?_⟩
  · have read : GraphStore.statements s "urn:d" = .ok [x, y] := by decide +kernel
    rw [read]
    rfl
  · have lengths := congrArg List.length rows
    rw [first, List.length_map] at lengths
    exact lengths

end Storage

end RdfStore
