import RdfStore.Proofs.Query.Writable
import RdfStore.Proofs.Store.BlankNodes
import RdfStore.Proofs.Store.Monotone

/-!
# What is stored is in normal form

An addition brings its statements into normal form: no node is a placeholder, the predicate has a
URI, and the label of a blank node is a generated one, which can be written in a query
(`Triple.Normal`). No primitive stores a triple that it is not handed (`Sourced`), so the same holds
of all that a store ever holds, provided that primitive insertions are handed normal forms only
(`Storage.Regular.normal`).
-/

namespace RdfStore

open GraphStore Store

variable {σ τ : Type}

/-! ## Normal forms -/

/-- A triple as an addition stores it. -/
structure Triple.Normal (t : Triple) : Prop where
  concrete : ∀ n ∈ t.nodes, n.isConcrete = true
  predicate : ∃ uri, t.predicate = .named uri
  labels : ∀ label ∈ t.labels, Query.IsLabel label

/-- The digits that generated labels are written with. -/
def hexAlphabet : List Char := "0123456789abcdef".toList

theorem hexDigit_mem (n : Nat) : Digest.hexDigit n ∈ hexAlphabet := by
  rw [Digest.hexDigit, List.getD_eq_getElem?_getD]
  cases found : "0123456789abcdef".toList[n]? with
  | none => exact List.mem_cons_self
  | some c => exact List.mem_of_getElem? found

theorem length_hexDigits (count : Nat) : ∀ n, (hexDigits count n).length = count := by
  induction count with
  | zero => intro n; rfl
  | succ count ih => intro n; rw [hexDigits, List.length_append, ih, List.length_singleton]

theorem mem_hexAlphabet {c : Char} (count : Nat) :
    ∀ {n : Nat}, c ∈ hexDigits count n → c ∈ hexAlphabet := by
  induction count with
  | zero => intro n mem; cases mem
  | succ count ih =>
      intro n mem
      rcases List.mem_append.1 mem with front | last
      · exact ih front
      · exact List.mem_singleton.1 last ▸ hexDigit_mem (n % 16)

/-- Generated labels can be written. -/
theorem isLabel_generatedLabel (draw : BitVec 128) : Query.IsLabel (generatedLabel draw) := by
  have chars : (generatedLabel draw).toList = "genid".toList ++ hexDigits 32 draw.toNat := by
    rw [generatedLabel, String.toList_append]
    exact congrArg _ String.toList_ofList
  have word : Query.IsLabel "genid" := by decide
  have digits : ∀ c ∈ hexAlphabet, Query.Token.isLabelChar c = true :=
    List.all_eq_true.1 (by decide)
  refine ⟨fun none => ?_, fun c mem => ?_⟩
  · rw [chars] at none
    cases none
  · rw [chars, List.mem_append] at mem
    exact mem.elim (word.2 c) fun digit => digits c (mem_hexAlphabet 32 digit)

theorem Node.isConcrete_of_storable {n : Node} (h : n.Storable) : n.isConcrete = true := by
  cases n with
  | pattern name => exact h.elim
  | named | literal | blank => rfl

theorem Node.isConcrete_full (ns : Namespaces) (rename : String → String) (n : Node) :
    ((n.extend ns).relabel rename).isConcrete = n.isConcrete := by
  cases n <;> rfl

theorem Triple.exists_of_mem_labels_relabel {rename : String → String} {t : Triple} {label : String}
    (mem : label ∈ (t.relabel rename).labels) : ∃ a ∈ t.labels, rename a = label := by
  have nodes : (t.relabel rename).nodes = t.nodes.map (Node.relabel rename) := rfl
  rw [mem_labels_iff, nodes] at mem
  obtain ⟨n, here, same⟩ := List.mem_map.1 mem
  cases n with
  | blank a => exact ⟨a, mem_labels_iff.2 here, Node.blank.inj same⟩
  | named | literal | pattern => cases same

/-- The nodes of a statement in full and with its labels renamed. -/
theorem Statement.nodes_full (ns : Namespaces) (rename : String → String) (t : Statement) :
    ((t.extend ns).triple.relabel rename).nodes =
      t.nodes.map fun n => (n.extend ns).relabel rename := rfl

theorem Statement.Valid.storable {t : Statement} (valid : t.Valid) :
    ∀ n ∈ t.nodes, n.Storable :=
  List.forall_mem_cons.2 ⟨valid.subject, List.forall_mem_cons.2
    ⟨valid.predicate.storable, List.forall_mem_singleton.2 valid.object⟩⟩

/-- A valid statement in full and with labels that can be written is in normal form. -/
theorem Statement.Valid.normal {t : Statement} (valid : t.Valid) (ns : Namespaces)
    {rename : String → String} (labels : ∀ a ∈ t.labels, Query.IsLabel (rename a)) :
    ((t.extend ns).triple.relabel rename).Normal where
  concrete n mem := by
    rw [Statement.nodes_full] at mem
    obtain ⟨m, here, rfl⟩ := List.mem_map.1 mem
    rw [Node.isConcrete_full]
    exact Node.isConcrete_of_storable (valid.storable m here)
  predicate := by
    obtain ⟨uri, named, -⟩ := valid.predicate
    refine ⟨ns.extend uri, ?_⟩
    change (t.predicate.extend ns).relabel rename = _
    rw [named]
    rfl
  labels label mem := by
    obtain ⟨a, here, rfl⟩ := Triple.exists_of_mem_labels_relabel mem
    rw [Statement.labels_extend] at here
    exact labels a here

/-- Batches are made of valid statements only. -/
theorem Store.valid_of_batchesFrom {ns : Namespaces} {default : String} {explicit : Option String}
    {draws : Draws} {statements : List Statement} {batches result : Batches} {r : Relabelling}
    (made : batchesFrom ns default explicit draws batches r statements = .ok result) :
    ∀ t ∈ statements, t.Valid := by
  cases found : statements.findSome? Statement.fault? with
  | some fault =>
      rw [batchesFrom_of_fault statements found] at made
      cases made
  | none =>
      intro t mem
      exact Statement.fault?_eq_none_iff.1 (List.findSome?_eq_none_iff.1 found t mem)

/-- A triple that an addition makes of one of some statements: the statement is valid, its URIs are
in full, and its labels are generated ones. -/
def Triple.MadeOf (ns : Namespaces) (statements : List Statement) (t : Triple) : Prop :=
  ∃ x ∈ statements, x.Valid ∧ ∃ rename : String → String,
    (∀ a ∈ x.labels, ∃ draw, rename a = generatedLabel draw) ∧
      (x.extend ns).triple.relabel rename = t

theorem Triple.MadeOf.mono {ns : Namespaces} {statements statements' : List Statement} {t : Triple}
    (h : t.MadeOf ns statements) (more : statements ⊆ statements') : t.MadeOf ns statements' := by
  obtain ⟨x, given, made⟩ := h
  exact ⟨x, more given, made⟩

theorem Triple.MadeOf.normal {ns : Namespaces} {statements : List Statement} {t : Triple}
    (h : t.MadeOf ns statements) : t.Normal := by
  obtain ⟨x, -, valid, rename, generated, rfl⟩ := h
  refine valid.normal ns fun a here => ?_
  obtain ⟨draw, same⟩ := generated a here
  rw [same]
  exact isLabel_generatedLabel draw

/-- All that an addition hands to a store lies in its graph and is made of the added statements. -/
theorem Store.madeOf_of_batchesFrom [GraphStore σ] {s : σ} {draws : Draws} {batch : List Statement}
    {graph : Option String} {batches : Batches}
    (made : batchesFrom (namespaces s) (defaultGraph s) graph draws .empty .empty batch =
      .ok batches) :
    ∀ e ∈ batches.entries, ∀ x ∈ e.2,
      x.graph = some (.named e.1) ∧ x.triple.MadeOf (namespaces s) batch := by
  intro e mem x inBatch
  have placed : batches.Forall fun g x => x.graph = some (.named g) :=
    Batches.forall_of_batchesFrom (fun _ _ _ _ => rfl) batch Batches.forall_empty made
  refine ⟨placed e mem x inBatch, ?_⟩
  obtain ⟨R, grows, triples⟩ := triples_of_batches made
  have handed : x.triple ∈ e.2.map Statement.triple := List.mem_map_of_mem inBatch
  rw [triples e mem] at handed
  obtain ⟨u, full, same⟩ := List.mem_map.1 handed
  obtain ⟨t, given, rfl⟩ := mem_fullTriples full
  refine ⟨t, given, valid_of_batchesFrom made t given, R.rename, fun a here => ?_, same⟩
  obtain ⟨i, -, drawn⟩ := Relabelling.rename_drawn grows (List.mem_flatMap.2 ⟨t, given, here⟩)
  exact ⟨draws i, drawn⟩

/-! ## Where triples come from -/

/-- A store whose primitives store nothing that they are not handed. -/
structure Sourced (σ : Type) [GraphStore σ] : Prop where
  create : ∀ (s : σ) graph g, triplesOf (create s graph).store g ⊆ triplesOf s g
  drop : ∀ (s : σ) graph g, triplesOf (drop s graph).store g ⊆ triplesOf s g
  insert : ∀ (s : σ) graph batch g,
    triplesOf (insert s graph batch).store g ⊆ triplesOf s g ++ batch.map Statement.triple
  remove : ∀ (s : σ) graph pattern g, triplesOf (remove s graph pattern).store g ⊆ triplesOf s g

namespace Tabled

variable [GraphStore σ] {β : Type} {table : σ → OrderedMap String β} {read : β → List Triple}
  {s s' : σ} {graph : String} {b c : β} {new : List Triple}

theorem triplesOf_insert_subset (tabled : Tabled table read) (old : (table s).get? graph = some b)
    (written : table s' = (table s).insert graph c) (part : read c ⊆ read b ++ new) (g : String) :
    triplesOf s' g ⊆ triplesOf s g ++ new := by
  rw [tabled.triplesOf_insert written]
  split
  · rename_i same
    rw [← same, tabled.triples, old]
    exact part
  · exact List.subset_append_left _ _

theorem triplesOf_insert_subset_self (tabled : Tabled table read)
    (old : (table s).get? graph = some b) (written : table s' = (table s).insert graph c)
    (part : read c ⊆ read b) (g : String) : triplesOf s' g ⊆ triplesOf s g := by
  have within : read c ⊆ read b ++ [] := by rwa [List.append_nil]
  have grown := tabled.triplesOf_insert_subset old written within g
  rwa [List.append_nil] at grown

theorem triplesOf_erase_subset (tabled : Tabled table read)
    (erased : table s' = (table s).erase graph) (g : String) : triplesOf s' g ⊆ triplesOf s g := by
  rw [tabled.triplesOf_erase erased]
  split
  · exact List.nil_subset _
  · exact List.Subset.refl _

end Tabled

theorem MemoryStore.sourced : Sourced MemoryStore where
  create s graph g := by
    have same : triplesOf (s.create graph) g = triplesOf s g := tabled.triplesOf_insertNew rfl rfl g
    exact same ▸ List.Subset.refl _
  drop s graph := tabled.triplesOf_erase_subset rfl
  insert s graph batch := by
    change ∀ g, triplesOf (s.insert graph batch).store g ⊆ _
    unfold MemoryStore.insert
    cases found : s.graphs.get? graph with
    | none => exact fun g => List.subset_append_left _ _
    | some held =>
        have part := List.map_subset Statement.triple (values_unite_sublist batch held).subset
        rw [List.map_append] at part
        exact tabled.triplesOf_insert_subset found rfl part
  remove s graph pattern := by
    change ∀ g, triplesOf (s.remove graph pattern).store g ⊆ _
    unfold MemoryStore.remove
    cases found : s.graphs.get? graph with
    | none => exact fun g => List.Subset.refl _
    | some held =>
        have fewer : (held.filter fun _ t => !t.fits pattern).values ⊆ held.values :=
          List.map_subset Prod.snd (List.filter_subset_self _)
        exact tabled.triplesOf_insert_subset_self found rfl
          (List.map_subset Statement.triple fewer)

theorem Ledger.sourced : Sourced Ledger where
  create l graph g := by
    have same : triplesOf (create l graph).store g = triplesOf l g :=
      tabled.triplesOf_insertNew rfl rfl g
    exact same ▸ List.Subset.refl _
  drop l graph := tabled.triplesOf_erase_subset rfl
  insert l graph batch := by
    change ∀ g, triplesOf (l.insert graph batch).store g ⊆ _
    unfold Ledger.insert
    cases found : l.graphs.get? graph with
    | none => exact fun g => List.subset_append_left _ _
    | some held =>
        cases batch.findSome? Statement.placeholder? with
        | some name => exact fun g => List.subset_append_left _ _
        | none =>
            refine tabled.triplesOf_insert_subset found rfl fun t mem => ?_
            rw [List.mem_append]
            exact (Triple.mem_foldl_appendNew _ held).1 mem
  remove l graph pattern := by
    change ∀ g, triplesOf (l.remove graph pattern).store g ⊆ _
    unfold Ledger.remove
    cases found : l.graphs.get? graph with
    | none => exact fun g => List.Subset.refl _
    | some held => exact tabled.triplesOf_insert_subset_self found rfl (List.filter_subset_self _)

/-! ## Histories -/

/-- All triples that a store holds have a property. -/
def Store.Only [GraphStore σ] (P : Triple → Prop) (s : σ) : Prop :=
  ∀ graph, ∀ t ∈ triplesOf s graph, P t

/-- A property of all triples is kept if whatever is inserted has it. -/
theorem Sourced.invariant [GraphStore σ] (sourced : Sourced σ) (P : Triple → Prop) :
    Invariant (fun _ batch => ∀ x ∈ batch, P x.triple) (fun _ => True)
      fun s : σ => Only P s where
  create {s} h graph g t mem := h g t (sourced.create s graph g mem)
  insert {s} h {graph batch} handed g t mem := by
    rcases List.mem_append.1 (sourced.insert s graph batch g mem) with old | new
    · exact h g t old
    · obtain ⟨x, given, rfl⟩ := List.mem_map.1 new
      exact handed x given
  remove {s} h {graph} pattern _ g t mem := h g t (sourced.remove s graph pattern g mem)

/-- An event that hands a store normal forms only: any change, because additions make them, and the
primitive insertion of normal forms. -/
def Event.Regular : Event → Prop
  | insert _ statements => ∀ x ∈ statements, x.triple.Normal
  | change _ | reopen _ _ => True

theorem Event.Regular.within [GraphStore σ] {e : Event} (regular : e.Regular) (s : σ) :
    e.Within (fun _ batch => ∀ x ∈ batch, x.triple.Normal) (fun _ => True) s := by
  cases e with
  | insert graph batch => exact regular
  | reopen => trivial
  | change c =>
      cases c with
      | create | drop | remove => trivial
      | add draws statements graph =>
          exact fun batches made e mem x inBatch =>
            (madeOf_of_batchesFrom made e mem x inBatch).2.normal
      | delete pattern graph => exact fun _ _ _ _ => trivial

/-- After a history of regular events all triples are in normal form, if they are before. -/
theorem Sourced.normal_after [GraphStore σ] (sourced : Sourced σ)
    {reopened : Namespaces → String → σ → σ}
    (again : ∀ ns default s g, triplesOf (reopened ns default s) g = triplesOf s g)
    {events : List Event} (regular : ∀ e ∈ events, e.Regular) {s : σ} (start : Only Triple.Normal s) :
    Only Triple.Normal (Event.after reopened s events) := by
  refine (sourced.invariant Triple.Normal).after_within ?_ ?_ events
    (fun e mem s => (regular e mem).within s) start
  · exact fun {s} h graph g t mem => h g t (sourced.drop s graph g mem)
  · exact fun {s} h ns default g t mem => h g t (again ns default s g ▸ mem)

/-! ## Both kinds of storage -/

namespace Storage

/-- A storage of either kind in a state that some history of regular events leads to from an empty
one. -/
def Regular : Storage → Prop
  | memory m => ∃ ns default events, (∀ e ∈ events, e.Regular) ∧
      m = Event.after MemoryStore.reopenWith (MemoryStore.empty ns default) events
  | durable d => ∃ ns default events, (∀ e ∈ events, e.Regular) ∧
      d = Event.after DurableStore.reopenWith (DurableStore.new ns default) events

theorem Regular.reachable {s : Storage} (regular : s.Regular) : s.Reachable := by
  cases s with
  | memory m => trivial
  | durable d =>
      rcases regular with ⟨ns, default, events, -, reached⟩
      exact ⟨ns, default, events, reached⟩

/-- All that a storage holds is in normal form. -/
theorem Regular.normal {s : Storage} (regular : s.Regular) : Only Triple.Normal s := by
  cases s with
  | memory m =>
      rcases regular with ⟨ns, default, events, regular, rfl⟩
      have start : Only Triple.Normal (MemoryStore.empty ns default) :=
        fun graph t mem => by cases mem
      have again : ∀ ns default (m : MemoryStore) g,
          triplesOf (m.reopenWith ns default) g = triplesOf m g := fun _ _ _ _ => rfl
      exact MemoryStore.sourced.normal_after again regular start
  | durable d =>
      rcases regular with ⟨ns, default, events, regular, rfl⟩
      have shows := DurableStore.Shows.after events (DurableStore.shows_new ns default)
      have start : Only Triple.Normal (Ledger.empty ns default) := fun graph t mem => by cases mem
      have again : ∀ ns default (l : Ledger) g,
          triplesOf (l.reopenWith ns default) g = triplesOf l g := fun _ _ _ _ => rfl
      have held := Ledger.sourced.normal_after again regular start
      intro graph t mem
      refine held graph t ?_
      rw [← DurableStore.simulation.triplesOf shows]
      exact mem

end Storage

end RdfStore
