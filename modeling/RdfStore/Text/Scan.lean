/-!
# Scanning

A scanner looks at the front of a text and returns what it read and the rest, or nothing.
-/

namespace RdfStore.Text

/-- What stands in front of a text, and the rest. -/
abbrev Scan (α : Type) := List Char → Option (α × List Char)

/-- At least one character of a class, as many as there are. -/
def run (p : Char → Bool) : Scan (List Char)
  | [] => none
  | c :: text => if p c then some (c :: text.takeWhile p, text.dropWhile p) else none

/-- One given character. -/
def mark (d : Char) : List Char → Option (List Char)
  | [] => none
  | c :: text => if c = d then some text else none

theorem of_mem_takeWhile {p : Char → Bool} {text : List Char} {c : Char}
    (mem : c ∈ text.takeWhile p) : p c = true := by
  induction text with
  | nil => simp at mem
  | cons d text ih =>
    by_cases h : p d = true
    · simp only [List.takeWhile_cons, h, if_true, List.mem_cons] at mem
      exact mem.elim (fun eq => eq ▸ h) ih
    · simp [h] at mem

theorem of_mem_head?_dropWhile {p : Char → Bool} {text : List Char} {c : Char}
    (mem : c ∈ (text.dropWhile p).head?) : p c = false := by
  induction text with
  | nil => simp at mem
  | cons d text ih =>
    by_cases h : p d = true
    · simp only [List.dropWhile_cons, h, if_true] at mem
      exact ih mem
    · simp [h] at mem
      exact mem ▸ Bool.eq_false_iff.2 h

/-- What a run reads is not empty, belongs to the class, and is not continued by the rest. -/
theorem run_eq_some {p : Char → Bool} {text found rest : List Char}
    (h : run p text = some (found, rest)) :
    text = found ++ rest ∧ found ≠ [] ∧ (∀ c ∈ found, p c = true) ∧
      ∀ c ∈ rest.head?, p c = false := by
  cases text with
  | nil => simp [run] at h
  | cons c text =>
    simp only [run] at h
    split at h
    · rename_i hc
      simp only [Option.some.injEq, Prod.mk.injEq] at h
      obtain ⟨rfl, rfl⟩ := h
      refine ⟨by simp, by simp, ?_, fun _ => of_mem_head?_dropWhile⟩
      intro d mem
      exact (List.mem_cons.1 mem).elim (fun eq => eq ▸ hc) of_mem_takeWhile
    · simp at h

end RdfStore.Text
