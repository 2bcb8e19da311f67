import RdfStore.Proofs.OrderedMap
import RdfStore.Statement.Diff

/-!
# Differences of collections

The index of a collection has the first statement with each digest, in the order of the collection
(`StatementDiff.entries_index`), so what one index has and another lacks are the statements whose
digest is new to the other collection, the first with each digest (`StatementDiff.only_index`). Digests
are taken with or without graphs throughout.

* `StatementDiff.ordered_set_difference`: both sides of a difference, and what follows for the
  difference the other way, for an empty difference and for the difference to nothing.
-/

namespace RdfStore.StatementDiff

variable {withGraph : Bool} {left right statements : List Statement}

theorem entries_index (withGraph : Bool) (statements : List Statement) :
    (index withGraph statements).entries =
      (firstsBy (·.digest withGraph) statements).map fun t => (t.digest withGraph, t) := by
  rw [← newBy_of_nothing_known]
  exact OrderedMap.entries_foldl_insertNew (·.digest withGraph) statements .empty

/-- An index knows the digests of its collection. -/
theorem contains_index {digest : Digest} :
    (index withGraph statements).contains digest = true ↔
      digest ∈ statements.map (·.digest withGraph) := by
  have keys := OrderedMap.keys_foldl_insertNew (·.digest withGraph) statements .empty
  rw [OrderedMap.contains_iff_mem, index, keys]
  exact mem_keys_newBy.trans (or_iff_right List.not_mem_nil)

/-- What the index of one collection has and that of another lacks. -/
theorem only_index (left right : List Statement) :
    only (index withGraph left) (index withGraph right) =
      newBy (·.digest withGraph) (right.map (·.digest withGraph)) left := by
  let missing : Digest → Bool := fun digest => !(index withGraph right).contains digest
  have picked : only (index withGraph left) (index withGraph right) =
      (firstsBy (·.digest withGraph) left).filter fun t => missing (t.digest withGraph) := by
    change ((index withGraph left).entries.filter fun e => missing e.1).map Prod.snd = _
    rw [entries_index, List.filter_map, List.map_map]
    exact List.map_id _
  rw [picked, ← newBy_of_nothing_known, filter_newBy, newBy_of_nothing_known, newBy]
  refine congrArg _ (List.filter_congr fun t _ => ?_)
  rw [Bool.eq_iff_iff, decide_eq_true_iff, ← contains_index, Bool.not_eq_true', Bool.not_eq_true]

/-- The difference of two collections is an ordered set difference: on each side stand the statements
whose digest the other collection does not have, the first with each digest, in the order of their
collection. So the difference the other way is the reversed one, a difference is empty exactly if both
collections have the same digests, and the difference to nothing is the collection without its later
repetitions. -/
theorem ordered_set_difference (withGraph : Bool) (left right : List Statement) :
    let digest (t : Statement) : Digest := t.digest withGraph
    (between withGraph left right).onlyLeft = newBy digest (right.map digest) left ∧
      (between withGraph left right).onlyRight = newBy digest (left.map digest) right ∧
      between withGraph right left = (between withGraph left right).reversed ∧
      ((between withGraph left right).isEmpty = true ↔
        ∀ d, d ∈ left.map digest ↔ d ∈ right.map digest) ∧
      between withGraph left [] = ⟨firstsBy digest left, []⟩ := by
  intro digest
  have onlyLeft : (between withGraph left right).onlyLeft = newBy digest (right.map digest) left :=
    only_index left right
  have onlyRight : (between withGraph left right).onlyRight = newBy digest (left.map digest) right :=
    only_index right left
  refine ⟨onlyLeft, onlyRight, rfl, ?_, ?_⟩
  · have within (l k : List Statement) :
        newBy digest (k.map digest) l = [] ↔ ∀ d ∈ l.map digest, d ∈ k.map digest :=
      newBy_eq_nil_iff.trans List.forall_mem_map.symm
    rw [isEmpty, Bool.and_eq_true, List.isEmpty_iff, List.isEmpty_iff, onlyLeft, onlyRight, within,
      within]
    exact ⟨fun both d => ⟨both.1 d, both.2 d⟩, fun same => ⟨fun d => (same d).1, fun d => (same d).2⟩⟩
  · have nothing : between withGraph left [] =
        ⟨newBy digest [] left, newBy digest (left.map digest) []⟩ :=
      congrArg₂ StatementDiff.mk (only_index left []) (only_index [] left)
    rw [nothing, newBy_of_nothing_known, newBy_nil]

end RdfStore.StatementDiff
