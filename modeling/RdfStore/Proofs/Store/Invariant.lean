import RdfStore.Proofs.Store.Simulation

/-!
# What writing keeps

Additions and deletions are runs of three primitives: creating a graph, inserting a batch and
removing by pattern. A property of stores that these keep is kept by the composed operations, and
with them by every history.

Insertions and removals may be restricted. An `Invariant` needs to survive only the insertion of
batches that are `Insertable` into their graph and only removals from `Removable` graphs, and then
it survives every operation that stays within these bounds.

* `Invariant.add`, `Invariant.delete`: the composed operations.
* `Invariant.apply`: one event within the bounds (`Event.Within`).
* `Invariant.after_within`, `Invariant.after`: whole histories.
* `Simulation.apply`, `Simulation.after`: two representations that agree on the primitives agree on
  every event and every history.
-/

namespace RdfStore

open GraphStore

variable {σ τ : Type}

/-- A property that the primitives keep, insertion and removal within bounds. -/
structure Invariant [GraphStore σ] (Insertable : String → List Statement → Prop)
    (Removable : String → Prop) (P : σ → Prop) : Prop where
  create : ∀ {s : σ}, P s → ∀ graph, P (create s graph).store
  insert : ∀ {s : σ}, P s → ∀ {graph batch}, Insertable graph batch →
    P (insert s graph batch).store
  remove : ∀ {s : σ}, P s → ∀ {graph} pattern, Removable graph →
    P (remove s graph pattern).store

/-- An event that inserts only batches that may be inserted and removes only from graphs that allow
it, in the state that it meets. -/
def Event.Within [GraphStore σ] (Insertable : String → List Statement → Prop)
    (Removable : String → Prop) (s : σ) : Event → Prop
  | change (.add draws statements graph) => ∀ batches,
    Store.batchesFrom (namespaces s) (defaultGraph s) graph draws .empty .empty statements =
      .ok batches →
    ∀ e ∈ batches.entries, Insertable e.1 e.2
  | change (.delete pattern graph) => ∀ targets,
    Store.patternTargets s pattern graph = .ok targets → ∀ target ∈ targets, Removable target
  | change (.remove graph _) => Removable graph
  | insert graph batch => Insertable graph batch
  | change (.create _) | change (.drop _) | reopen _ _ => True

theorem Event.within_of_forall [GraphStore σ] {Insertable : String → List Statement → Prop}
    {Removable : String → Prop} (insertable : ∀ graph batch, Insertable graph batch)
    (removable : ∀ graph, Removable graph) (s : σ) (e : Event) :
    e.Within Insertable Removable s := by
  cases e with
  | insert graph batch => exact insertable graph batch
  | reopen => trivial
  | change c =>
      cases c with
      | create | drop => trivial
      | add draws statements graph => exact fun _ _ e _ => insertable e.1 e.2
      | delete pattern graph => exact fun _ _ target _ => removable target
      | remove graph pattern => exact removable graph

namespace Invariant

variable [GraphStore σ] {Insertable : String → List Statement → Prop} {Removable : String → Prop}
  {P : σ → Prop} {s : σ}

theorem writeBatch (inv : Invariant Insertable Removable P) (h : P s) {graph : String}
    {batch : List Statement} (allowed : Insertable graph batch) :
    P (Store.writeBatch s graph batch).store := by
  unfold Store.writeBatch
  split
  · exact inv.insert h allowed
  · have created := inv.create h graph
    rcases made : GraphStore.create s graph with ⟨result, s'⟩
    rw [made] at created
    cases result with
    | error e => exact created
    | ok u => exact inv.insert created allowed

theorem writeBatches (inv : Invariant Insertable Removable P)
    (batches : List (String × List Statement)) :
    ∀ {s : σ}, P s → (∀ e ∈ batches, Insertable e.1 e.2) →
      P (Store.writeBatches s batches).store := by
  induction batches with
  | nil => intro s h _; exact h
  | cons e rest ih =>
      intro s h allowed
      obtain ⟨here, allowed⟩ := List.forall_mem_cons.1 allowed
      have written := inv.writeBatch h here
      simp only [Store.writeBatches]
      rcases made : Store.writeBatch s e.1 e.2 with ⟨result, s'⟩
      rw [made] at written
      cases result with
      | error e => exact written
      | ok count => exact ih written allowed

/-- An addition keeps the property if every batch that the statements make may be inserted. -/
theorem add (inv : Invariant Insertable Removable P) (h : P s) {draws : Draws}
    {statements : List Statement} {graph : Option String}
    (allowed : ∀ batches,
      Store.batchesFrom (namespaces s) (defaultGraph s) graph draws .empty .empty statements =
        .ok batches →
      ∀ e ∈ batches.entries, Insertable e.1 e.2) :
    P (Store.add s draws statements graph).store := by
  unfold Store.add
  split
  · exact h
  · rename_i batches read
    split
    · exact h
    · exact inv.writeBatches batches.entries h (allowed batches read)

theorem removeFrom (inv : Invariant Insertable Removable P) (pattern : Statement)
    (graphs : List String) :
    ∀ {s : σ}, P s → (∀ graph ∈ graphs, Removable graph) →
      P (Store.removeFrom pattern s graphs).store := by
  induction graphs with
  | nil => intro s h _; exact h
  | cons graph rest ih =>
      intro s h allowed
      obtain ⟨here, allowed⟩ := List.forall_mem_cons.1 allowed
      have removed := inv.remove h pattern here
      simp only [Store.removeFrom]
      rcases made : GraphStore.remove s graph pattern with ⟨result, s'⟩
      rw [made] at removed
      cases result with
      | error e => exact removed
      | ok count => exact ih removed allowed

/-- A deletion keeps the property if removal is allowed from every graph that it looks at. -/
theorem delete (inv : Invariant Insertable Removable P) (h : P s) {pattern : Statement}
    {graph : Option String}
    (allowed : ∀ targets, Store.patternTargets s pattern graph = .ok targets →
      ∀ target ∈ targets, Removable target) :
    P (Store.delete s pattern graph).store := by
  unfold Store.delete
  split
  · exact h
  · rename_i targets read
    exact inv.removeFrom _ targets h (allowed targets read)

/-- An event within the bounds keeps a property that dropping a graph and opening the store again
keep as well. -/
theorem apply (inv : Invariant Insertable Removable P)
    (drop : ∀ {s : σ}, P s → ∀ graph, P (GraphStore.drop s graph).store)
    {reopened : Namespaces → String → σ → σ}
    (again : ∀ {s : σ}, P s → ∀ ns default, P (reopened ns default s)) (h : P s) {e : Event}
    (within : e.Within Insertable Removable s) : P (e.apply reopened s) := by
  cases e with
  | change c =>
      cases c with
      | create graph => exact inv.create h graph
      | drop graph => exact drop h graph
      | add draws statements graph => exact inv.add h within
      | delete pattern graph => exact inv.delete h within
      | remove graph pattern => exact inv.remove h pattern within
  | insert graph batch => exact inv.insert h within
  | reopen ns default => exact again h ns default

/-- Such a property holds after every history of events that are within the bounds wherever they
happen. -/
theorem after_within (inv : Invariant Insertable Removable P)
    (drop : ∀ {s : σ}, P s → ∀ graph, P (GraphStore.drop s graph).store)
    {reopened : Namespaces → String → σ → σ}
    (again : ∀ {s : σ}, P s → ∀ ns default, P (reopened ns default s)) (events : List Event) :
    (∀ e ∈ events, ∀ s : σ, e.Within Insertable Removable s) →
      ∀ {s : σ}, P s → P (Event.after reopened s events) := by
  induction events with
  | nil => intro _ s h; exact h
  | cons e rest ih =>
      intro within s h
      obtain ⟨here, within⟩ := List.forall_mem_cons.1 within
      exact ih within (inv.apply drop again h (here s))

/-- A property without bounds holds after every history. -/
theorem after (inv : Invariant (fun _ _ => True) (fun _ => True) P)
    (drop : ∀ {s : σ}, P s → ∀ graph, P (GraphStore.drop s graph).store)
    {reopened : Namespaces → String → σ → σ}
    (again : ∀ {s : σ}, P s → ∀ ns default, P (reopened ns default s)) (events : List Event) :
    ∀ {s : σ}, P s → P (Event.after reopened s events) :=
  inv.after_within drop again events fun e _ s =>
    e.within_of_forall (fun _ _ => trivial) (fun _ => trivial) s

end Invariant

/-- Related stores stay related through every event, if opening them again keeps them so. -/
theorem Simulation.apply [GraphStore σ] [GraphStore τ] {rel : σ → τ → Prop}
    (sim : Simulation rel fun _ _ => True) {f : Namespaces → String → σ → σ}
    {g : Namespaces → String → τ → τ}
    (reopened : ∀ {s t}, rel s t → ∀ ns default, rel (f ns default s) (g ns default t))
    {s : σ} {t : τ} (h : rel s t) (e : Event) : rel (e.apply f s) (e.apply g t) := by
  cases e with
  | change c => exact (sim.change h (c.admitted_of_forall (fun _ _ => trivial) _ _)).store
  | insert graph batch => exact (sim.insert h fun _ _ => trivial).store
  | reopen ns default => exact reopened h ns default

/-- Related stores stay related through every history. -/
theorem Simulation.after [GraphStore σ] [GraphStore τ] {rel : σ → τ → Prop}
    (sim : Simulation rel fun _ _ => True) {f : Namespaces → String → σ → σ}
    {g : Namespaces → String → τ → τ}
    (reopened : ∀ {s t}, rel s t → ∀ ns default, rel (f ns default s) (g ns default t))
    (events : List Event) :
    ∀ {s : σ} {t : τ}, rel s t → rel (Event.after f s events) (Event.after g t events) := by
  induction events with
  | nil => intro s t h; exact h
  | cons e rest ih => intro s t h; exact ih (sim.apply reopened h e)

end RdfStore
