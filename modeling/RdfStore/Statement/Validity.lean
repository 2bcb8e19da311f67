import RdfStore.Statement
import RdfStore.Statement.Fault

/-!
# Statements fit for storage

A statement can be stored if no position holds a placeholder, no named node lacks its URI, and
predicate and graph are named nodes. `Statement.Valid` says so in one line per position;
`Statement.check` finds the first fault, looking at subject, predicate and object, then at the
kind of the predicate, then at the graph. `check_eq_ok_iff` ties the two.
-/

namespace RdfStore

/-- A node that may be stored: neither a placeholder nor a named node without URI. -/
def Node.Storable : Node → Prop
  | .pattern _ => False
  | .named uri => uri ≠ ""
  | _ => True

/-- A named node with a URI. -/
def Node.Addressable (n : Node) : Prop := ∃ uri, n = .named uri ∧ uri ≠ ""

namespace Statement

/-- A statement that may be stored. -/
structure Valid (t : Statement) : Prop where
  subject : t.subject.Storable
  predicate : t.predicate.Addressable
  object : t.object.Storable
  graph : ∀ g, t.graph = some g → g.Addressable

/-- The fault of a node that must be concrete. -/
def checkNode (role : Role) : Node → Except StatementFault Unit
  | .pattern name => .error (.placeholder role name)
  | .named uri => if uri = "" then .error (.emptyUri role) else .ok ()
  | _ => .ok ()

/-- The fault of a node that must be a named node with a URI. -/
def checkNamed (fault : Node → StatementFault) : Node → Except StatementFault Unit
  | .named _ => .ok ()
  | node => .error (fault node)

/-- The first fault of a statement. -/
def check (t : Statement) : Except StatementFault Unit := do
  checkNode .subject t.subject
  checkNode .predicate t.predicate
  checkNode .object t.object
  checkNamed .predicateNotNamed t.predicate
  match t.graph with
  | none => .ok ()
  | some graph =>
    checkNode .graph graph
    checkNamed .graphNotNamed graph

theorem checkNode_eq_ok_iff {role : Role} {n : Node} : checkNode role n = .ok () ↔ n.Storable := by
  cases n with
  | named uri => by_cases h : uri = "" <;> simp [checkNode, Node.Storable, h]
  | literal l => simp [checkNode, Node.Storable]
  | blank label => simp [checkNode, Node.Storable]
  | pattern name => simp [checkNode, Node.Storable]

theorem checkNamed_eq_ok_iff {fault : Node → StatementFault} {n : Node} :
    checkNamed fault n = .ok () ↔ ∃ uri, n = .named uri := by
  cases n <;> simp [checkNamed]

theorem addressable_iff {n : Node} : n.Addressable ↔ n.Storable ∧ ∃ uri, n = .named uri := by
  cases n <;> simp [Node.Addressable, Node.Storable]

/-- A unit-valued step followed by another succeeds when both do. -/
theorem bind_eq_ok_iff {ε : Type} {x y : Except ε Unit} :
    (x >>= fun _ => y) = .ok () ↔ x = .ok () ∧ y = .ok () := by
  cases x with
  | error e => exact ⟨fun h => (nomatch h), fun h => (nomatch h.1)⟩
  | ok u => exact ⟨fun h => ⟨rfl, h⟩, fun h => h.2⟩

/-- Checking passes exactly the valid statements. -/
theorem check_eq_ok_iff {t : Statement} : t.check = .ok () ↔ t.Valid := by
  unfold check
  rw [bind_eq_ok_iff, bind_eq_ok_iff, bind_eq_ok_iff, bind_eq_ok_iff]
  cases hg : t.graph with
  | none =>
    simp only [checkNode_eq_ok_iff, checkNamed_eq_ok_iff]
    constructor
    · rintro ⟨s, p, o, named, -⟩
      exact ⟨s, addressable_iff.2 ⟨p, named⟩, o, fun g h => by rw [hg] at h; cases h⟩
    · intro v
      have p := addressable_iff.1 v.predicate
      exact ⟨v.subject, p.1, v.object, p.2, trivial⟩
  | some graph =>
    simp only [bind_eq_ok_iff, checkNode_eq_ok_iff, checkNamed_eq_ok_iff]
    constructor
    · rintro ⟨s, p, o, named, g, gNamed⟩
      refine ⟨s, addressable_iff.2 ⟨p, named⟩, o, ?_⟩
      intro g' h
      rw [hg] at h
      cases h
      exact addressable_iff.2 ⟨g, gNamed⟩
    · intro v
      have p := addressable_iff.1 v.predicate
      have g := addressable_iff.1 (v.graph graph hg)
      exact ⟨v.subject, p.1, v.object, p.2, g.1, g.2⟩

instance : DecidablePred Valid := fun t =>
  match h : t.check with
  | .ok () => isTrue (check_eq_ok_iff.1 h)
  | .error _ => isFalse fun valid => by rw [check_eq_ok_iff.2 valid] at h; cases h

end Statement

end RdfStore
