import Mathlib.Data.List.Basic

/-!
# First occurrences

Where the members of a list are told apart by a key, `firstsBy` keeps the first member with each key
and `newBy` those of them whose key is not known already. A loop that remembers the keys it has met
computes the latter step by step: a member with a known key is passed over
(`newBy_cons_of_mem`), and one with a new key is kept and its key remembered
(`newBy_cons_of_not_mem`).
-/

namespace RdfStore

variable {α κ : Type} [DecidableEq κ] {key : α → κ} {known : List κ} {a : α} {l : List α}

/-- The members of a list whose key no earlier member has. -/
def firstsBy (key : α → κ) (l : List α) : List α :=
  l.eraseDupsBy fun a b => decide (key a = key b)

/-- The members of a list whose key neither is known nor belongs to an earlier member. -/
def newBy (key : α → κ) (known : List κ) (l : List α) : List α :=
  firstsBy key (l.filter fun a => decide (key a ∉ known))

theorem firstsBy_cons (key : α → κ) (a : α) (l : List α) :
    firstsBy key (a :: l) = a :: firstsBy key (l.filter fun b => decide (key b ≠ key a)) := by
  rw [firstsBy, List.eraseDupsBy_cons]
  refine congrArg (fun rest => a :: firstsBy key rest) (List.filter_congr fun b _ => ?_)
  by_cases same : key b = key a <;> simp [same]

theorem newBy_nil (key : α → κ) (known : List κ) : newBy key known [] = [] := rfl

theorem newBy_of_nothing_known (key : α → κ) (l : List α) : newBy key [] l = firstsBy key l := by
  have all : l.filter (fun a => decide (key a ∉ ([] : List κ))) = l :=
    List.filter_eq_self.2 fun a _ => decide_eq_true List.not_mem_nil
  rw [newBy, all]

theorem newBy_cons_of_mem (old : key a ∈ known) : newBy key known (a :: l) = newBy key known l := by
  rw [newBy, List.filter_cons_of_neg (by simpa using old), newBy]

theorem newBy_cons_of_not_mem (new : key a ∉ known) :
    newBy key known (a :: l) = a :: newBy key (key a :: known) l := by
  rw [newBy, List.filter_cons_of_pos (by simpa using new), firstsBy_cons, newBy, List.filter_filter]
  refine congrArg (fun rest => a :: firstsBy key rest) (List.filter_congr fun b _ => ?_)
  simp [List.mem_cons, not_or]

theorem newBy_sublist (key : α → κ) (known : List κ) (l : List α) :
    List.Sublist (newBy key known l) l := by
  induction l generalizing known with
  | nil => exact List.Sublist.refl _
  | cons a rest ih =>
      by_cases old : key a ∈ known
      · rw [newBy_cons_of_mem old]
        exact (ih known).cons a
      · rw [newBy_cons_of_not_mem old]
        exact (ih (key a :: known)).cons_cons a

/-- A key that no member has need not be known. -/
theorem newBy_cons_known {k : κ} (other : ∀ a ∈ l, key a ≠ k) :
    newBy key (k :: known) l = newBy key known l := by
  rw [newBy, newBy]
  refine congrArg _ (List.filter_congr fun a mem => ?_)
  rw [decide_eq_decide, List.mem_cons, not_or]
  exact and_iff_right (other a mem)

/-- Picking members by their keys leaves the first with each key that is picked. -/
theorem filter_newBy (p : κ → Bool) (l : List α) :
    (newBy key known l).filter (fun a => p (key a)) =
      newBy key known (l.filter fun a => p (key a)) := by
  induction l generalizing known with
  | nil => rfl
  | cons a rest ih =>
      by_cases old : key a ∈ known
      · rw [newBy_cons_of_mem old, ih, List.filter_cons]
        split
        · rw [newBy_cons_of_mem old]
        · rfl
      · rw [newBy_cons_of_not_mem old, List.filter_cons, List.filter_cons, ih]
        split
        · rw [newBy_cons_of_not_mem old]
        · rename_i rejected
          refine newBy_cons_known fun b mem same => rejected ?_
          rw [← same]
          exact (List.mem_filter.1 mem).2

theorem newBy_of_known (old : ∀ a ∈ l, key a ∈ known) : newBy key known l = [] := by
  rw [newBy, List.filter_eq_nil_iff.2 fun a mem => by simpa using old a mem]
  rfl

theorem newBy_of_nodup (nodup : (known ++ l.map key).Nodup) : newBy key known l = l := by
  induction l generalizing known with
  | nil => exact newBy_nil key known
  | cons a rest ih =>
      rw [List.map_cons, List.perm_middle.nodup_iff] at nodup
      have new : key a ∉ known := fun old =>
        (List.nodup_cons.1 nodup).1 (List.mem_append_left _ old)
      rw [newBy_cons_of_not_mem new, ih nodup]

/-- Together with the known keys, those of the new members are the keys of all members. -/
theorem mem_keys_newBy {k : κ} :
    k ∈ known ++ (newBy key known l).map key ↔ k ∈ known ∨ k ∈ l.map key := by
  induction l generalizing known with
  | nil => simp [newBy_nil]
  | cons a rest ih =>
      rw [List.map_cons, List.mem_cons]
      by_cases old : key a ∈ known
      · have known_of_eq : k = key a → k ∈ known := fun same => same ▸ old
        rw [newBy_cons_of_mem old, ih]
        tauto
      · have later := @ih (key a :: known)
        rw [List.cons_append, List.mem_cons, List.mem_cons] at later
        rw [newBy_cons_of_not_mem old, List.map_cons, List.mem_append, List.mem_cons]
        rw [List.mem_append] at later
        tauto

/-- Nothing is new exactly if all keys are known. -/
theorem newBy_eq_nil_iff : newBy key known l = [] ↔ ∀ a ∈ l, key a ∈ known := by
  refine ⟨fun nothing a mem => ?_, newBy_of_known⟩
  have keys := (@mem_keys_newBy _ _ _ key known l (key a)).2 (Or.inr (List.mem_map_of_mem mem))
  rwa [nothing, List.map_nil, List.append_nil] at keys

/-- Only which members have the same key matters, not what the keys are. -/
theorem firstsBy_congr {κ' : Type} [DecidableEq κ'] {key' : α → κ'} :
    (l : List α) → (∀ a ∈ l, ∀ b ∈ l, key a = key b ↔ key' a = key' b) →
      firstsBy key l = firstsBy key' l
  | [], _ => rfl
  | a :: rest, same => by
      have later : rest.filter (fun b => decide (key b ≠ key a)) =
          rest.filter fun b => decide (key' b ≠ key' a) :=
        List.filter_congr fun b mem => decide_eq_decide.2
          (not_congr (same b (List.mem_cons_of_mem a mem) a List.mem_cons_self))
      have kept : rest.filter (fun b => decide (key' b ≠ key' a)) ⊆ a :: rest :=
        fun b mem => List.mem_cons_of_mem a (List.mem_of_mem_filter mem)
      have shorter := List.length_filter_le (fun b => decide (key' b ≠ key' a)) rest
      rw [firstsBy_cons, firstsBy_cons, later]
      exact congrArg (a :: ·)
        (firstsBy_congr _ fun b mem c mem' => same b (kept mem) c (kept mem'))
  termination_by l => l.length
  decreasing_by exact Nat.lt_succ_of_le shorter

/-- Only which keys are known matters, not in which order. -/
theorem newBy_congr {known' : List κ} (same : ∀ k, k ∈ known ↔ k ∈ known') (l : List α) :
    newBy key known l = newBy key known' l := by
  rw [newBy, newBy]
  exact congrArg _ (List.filter_congr fun a _ => by rw [decide_eq_decide, same])

theorem newBy_concat (key : α → κ) (known : List κ) (k : κ) (l : List α) :
    newBy key (known ++ [k]) l = newBy key (k :: known) l :=
  newBy_congr (fun c => by rw [List.mem_append, List.mem_singleton, List.mem_cons, or_comm]) l

end RdfStore
