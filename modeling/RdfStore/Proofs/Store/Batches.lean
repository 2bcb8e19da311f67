import RdfStore.Proofs.OrderedMap
import RdfStore.Proofs.Store.Ledger

/-!
# What an addition hands to a store

An addition checks its statements, brings them into normal form and sorts them into one batch for
each graph. What holds of the normal form of every valid statement therefore holds of everything in
the batches (`Store.Batches.forall_of_batchesFrom`), in particular that it lies in the graph of its
batch and has no placeholder. There is a batch for each graph that some statement is written to, and
no other (`Store.Batches.mem_keys_of_batchesFrom`).
-/

namespace RdfStore

/-! ## Normal forms have no placeholder -/

theorem Node.placeholder?_of_storable {n : Node} (h : n.Storable) : n.placeholder? = none := by
  cases n with
  | pattern name => exact h.elim
  | named | literal | blank => rfl

theorem Node.Addressable.storable {n : Node} (h : n.Addressable) : n.Storable := by
  obtain ⟨uri, rfl, present⟩ := h
  exact present

namespace Relabelling

variable {ns : Namespaces} {draws : Draws}

theorem placeholder?_normalizeNode (r : Relabelling) (n : Node) :
    (r.normalizeNode ns draws n).1.placeholder? = n.placeholder? := by
  cases n <;> rfl

/-- The normal form of a valid statement has no placeholder. -/
theorem placeholder?_normalize (graph : String) (r : Relabelling) {t : Statement}
    (valid : t.Valid) : (r.normalize ns draws graph t).1.placeholder? = none := by
  have subject := Node.placeholder?_of_storable valid.subject
  have predicate := Node.placeholder?_of_storable valid.predicate.storable
  have object := Node.placeholder?_of_storable valid.object
  simp only [normalize, Statement.placeholder?, Statement.nodes, Triple.nodes, Statement.triple,
    List.findSome?_eq_none_iff, List.forall_mem_cons, placeholder?_normalizeNode]
  exact ⟨subject, predicate, object, fun _ mem => by cases mem⟩

end Relabelling

/-! ## Batches -/

namespace Store

/-- Every statement in the batches has a property, together with the graph of its batch. -/
def Batches.Forall (P : String → Statement → Prop) (batches : Batches) : Prop :=
  ∀ e ∈ batches.entries, ∀ x ∈ e.2, P e.1 x

namespace Batches

variable {P : String → Statement → Prop} {batches : Batches}

theorem forall_empty : Batches.Forall P .empty := fun _ mem => by cases mem

theorem Forall.push (h : batches.Forall P) {graph : String} {t : Statement} (new : P graph t) :
    (batches.push graph t).Forall P := by
  intro entry mem x inBatch
  rcases entry with ⟨g, batch⟩
  have found := OrderedMap.mem_entries_iff.1 mem
  rw [Batches.push, OrderedMap.get?_insert] at found
  by_cases eq : graph = g
  · rw [if_pos eq] at found
    cases found
    rcases List.mem_append.1 inBatch with old | last
    · cases before : batches.get? graph with
      | none =>
          rw [before] at old
          cases old
      | some held =>
          rw [before] at old
          exact eq ▸ h _ (OrderedMap.mem_entries_iff.2 before) x old
    · rw [List.mem_singleton.1 last]
      exact eq ▸ new
  · rw [if_neg eq] at found
    exact h _ (OrderedMap.mem_entries_iff.2 found) x inBatch

/-- What holds of every normal form of a valid statement holds of all batches. -/
theorem forall_of_batchesFrom {ns : Namespaces} {default : String} {explicit : Option String}
    {draws : Draws}
    (normal : ∀ (graph : String) (r : Relabelling) (t : Statement), t.Valid →
      P graph (r.normalize ns draws graph t).1)
    (statements : List Statement) :
    ∀ {batches result : Batches} {r : Relabelling}, batches.Forall P →
      batchesFrom ns default explicit draws batches r statements = .ok result →
      result.Forall P := by
  induction statements with
  | nil =>
      intro batches result r h made
      cases made
      exact h
  | cons t rest ih =>
      intro batches result r h made
      unfold batchesFrom at made
      split at made
      · cases made
      · rename_i ok
        have valid := Statement.check_eq_ok_iff.1 ok
        exact ih (h.push (normal (t.target ns explicit default) r t valid)) made

/-- The graphs of the batches are the targets of the statements. -/
theorem mem_keys_of_batchesFrom {ns : Namespaces} {default : String} {explicit : Option String}
    {draws : Draws} {graph : String} (statements : List Statement) :
    ∀ {batches result : Batches} {r : Relabelling},
      batchesFrom ns default explicit draws batches r statements = .ok result →
      (graph ∈ result.keys ↔
        graph ∈ batches.keys ∨ ∃ t ∈ statements, t.target ns explicit default = graph) := by
  induction statements with
  | nil =>
      intro batches result r made
      cases made
      simp
  | cons t rest ih =>
      intro batches result r made
      unfold batchesFrom at made
      split at made
      · cases made
      · have pushed (normal : Statement) :
            graph ∈ (batches.push (t.target ns explicit default) normal).keys ↔
              graph ∈ batches.keys ∨ t.target ns explicit default = graph := by
          rw [push, OrderedMap.keys_insert]
          split
          · rename_i known
            exact ⟨Or.inl, fun given => given.elim id fun same => same ▸ known⟩
          · rw [List.mem_append, List.mem_singleton, @eq_comm _ graph]
        rw [ih made, pushed, List.exists_mem_cons_iff, or_assoc]

end Batches

end Store

end RdfStore
