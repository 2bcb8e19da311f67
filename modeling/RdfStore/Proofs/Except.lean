/-!
# Steps that may fail

* `Except.bind_eq_ok_iff`: two steps succeed together exactly if the first does, and the second
  does on its result.
* `Except.outcome_iff`: a run that is known to succeed in some cases and to fail in all others
  succeeds exactly in these and fails exactly in those.
* `Except.mapM_eq_ok`: a step that succeeds on every member of a list succeeds on the list.
* `Except.Related`: two runs of steps that fail together, with related errors, or else come to
  related results.
-/

namespace RdfStore.Except

variable {ε α β : Type}

theorem bind_eq_ok_iff {x : Except ε α} {f : α → Except ε β} {b : β} :
    (x >>= f) = .ok b ↔ ∃ a, x = .ok a ∧ f a = .ok b := by
  cases x with
  | error e =>
      constructor
      · intro h
        cases h
      · intro given
        rcases given with ⟨a, h, -⟩
        cases h
  | ok a =>
      constructor
      · exact fun h => ⟨a, rfl, h⟩
      · intro given
        rcases given with ⟨a', h, later⟩
        cases h
        exact later

theorem map_eq_ok_iff {x : Except ε α} {f : α → β} {b : β} :
    x.map f = .ok b ↔ ∃ a, x = .ok a ∧ f a = b := by
  cases x <;> simp [Except.map]

theorem mapError_eq_ok_iff {δ : Type} {x : Except ε α} {f : ε → δ} {a : α} :
    x.mapError f = .ok a ↔ x = .ok a := by
  cases x with
  | ok b =>
      change Except.ok b = .ok a ↔ _
      rw [Except.ok.injEq, Except.ok.injEq]
  | error => exact iff_of_false nofun nofun

theorem mapM_eq_ok {f : α → Except ε β} {g : α → β} (l : List α) :
    (∀ a ∈ l, f a = .ok (g a)) → l.mapM f = .ok (l.map g) := by
  induction l with
  | nil => intro _; rfl
  | cons a rest ih =>
      intro all
      rw [List.mapM_cons, all a List.mem_cons_self,
        ih fun b mem => all b (List.mem_cons_of_mem _ mem)]
      rfl

/-- Cases in which a run succeeds and cases in which it fails, where there are no others, are all
cases in which it does. -/
theorem outcome_iff {x : Except ε α} {P : α → Prop} {Q : ε → Prop} (succeeds : ∀ a, P a → x = .ok a)
    (fails : ∀ e, Q e → x = .error e) (total : (∃ a, P a) ∨ ∃ e, Q e) :
    (∀ a, x = .ok a ↔ P a) ∧ ∀ e, x = .error e ↔ Q e := by
  rcases total with ⟨a, p⟩ | ⟨e, q⟩
  · have run := succeeds a p
    refine ⟨fun b => ⟨fun h => ?_, succeeds b⟩, fun e => ⟨fun h => ?_, fails e⟩⟩
    · cases run.symm.trans h
      exact p
    · cases run.symm.trans h
  · have run := fails e q
    refine ⟨fun a => ⟨fun h => ?_, succeeds a⟩, fun e' => ⟨fun h => ?_, fails e'⟩⟩
    · cases run.symm.trans h
    · cases run.symm.trans h
      exact q

/-! ## Two runs -/

variable {α' β' : Type} {E : ε → ε → Prop} {R : α → α' → Prop} {S : β → β' → Prop}

/-- Related values, or related errors. -/
inductive Related (E : ε → ε → Prop) (R : α → α' → Prop) : Except ε α → Except ε α' → Prop
  | ok {a : α} {a' : α'} : R a a' → Related E R (.ok a) (.ok a')
  | error {e e' : ε} : E e e' → Related E R (.error e) (.error e')

namespace Related

theorem refl (same : ∀ e, E e e) (x : Except ε α) : Related E Eq x x := by
  cases x with
  | error e => exact .error (same e)
  | ok a => exact .ok rfl

theorem bind {x : Except ε α} {y : Except ε α'} (h : Related E R x y) {f : α → Except ε β}
    {g : α' → Except ε β'} (next : ∀ a a', R a a' → Related E S (f a) (g a')) :
    Related E S (x >>= f) (y >>= g) := by
  cases h with
  | error related => exact .error related
  | ok related => exact next _ _ related

theorem map {x : Except ε α} {y : Except ε α'} (h : Related E R x y) {f : α → β} {g : α' → β'}
    (next : ∀ a a', R a a' → S (f a) (g a')) : Related E S (x.map f) (y.map g) := by
  cases h with
  | error related => exact .error related
  | ok related => exact .ok (next _ _ related)

theorem mapError {δ : Type} {D : δ → δ → Prop} {x : Except ε α} {y : Except ε α'}
    (h : Related E R x y) {f : ε → δ} (next : ∀ e e', E e e' → D (f e) (f e')) :
    Related D R (x.mapError f) (y.mapError f) := by
  cases h with
  | error related => exact .error (next _ _ related)
  | ok related => exact .ok related

end Related

end RdfStore.Except
