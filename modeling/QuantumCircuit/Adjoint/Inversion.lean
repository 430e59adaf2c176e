import QuantumCircuit.Adjoint.Table
import QuantumCircuit.Circuit.Basic

/-!
# Inversion

The inverse of a circuit is its operations in the opposite order, each replaced by
its adjoint.  An adjoint acts on the same targets.  Its name changes only under a rule
that names another gate, which then gets the marks that the rule does not cover, and
its parameter only under the rule that negates it.

Inverting reports a warning for every operation that a lenient table takes to be its
own inverse.  A strict table fails at the first such operation instead, the last of
the circuit.
-/

namespace QuantumCircuit

set_option autoImplicit false

/-! ## Results with warnings -/

/-- A result and the warnings given on the way to it, in the order they were given. -/
structure Reported (α : Type) where
  warnings : List String
  result : Except Error α

namespace Reported

variable {α β : Type}

/-- A result without warnings. -/
def ok (a : α) : Reported α := ⟨[], .ok a⟩

/-- A failure without warnings. -/
def fail (e : Error) : Reported α := ⟨[], .error e⟩

/-- Changes the result and keeps the warnings. -/
def map (f : α → β) (r : Reported α) : Reported β := ⟨r.warnings, r.result.map f⟩

/-- Goes on with a result; a failure ends the computation but keeps its warnings. -/
def andThen (r : Reported α) (next : α → Reported β) : Reported β :=
  match r.result with
  | .ok a => ⟨r.warnings ++ (next a).warnings, (next a).result⟩
  | .error e => ⟨r.warnings, .error e⟩

end Reported

/-! ## Adjoints of operations -/

/-- The adjoint of an operation under a rule that leaves `marks` marks uncovered. -/
def AdjointRule.apply (rule : AdjointRule) (marks : Nat) (op : Operation) : Operation :=
  match rule with
  | .selfInverse => op
  | .named target => { op with gate := withMarks target marks }
  | .negateParameter => { op with parameter := op.parameter.map Binary64.negate }

namespace AdjointTable

/-- **The adjoint of an operation.** -/
def adjoint (t : AdjointTable) (op : Operation) : Reported Operation :=
  match t.resolve op.gate with
  | some (rule, marks) => .ok (rule.apply marks op)
  | none =>
    match t.policy with
    | .lenient => ⟨[op.gate], .ok op⟩
    | .strict => .fail (.unknownAdjoint op.gate)

/-- The adjoints of operations in the given order. -/
def adjoints (t : AdjointTable) : List Operation → Reported (List Operation)
  | [] => .ok []
  | op :: rest => (t.adjoint op).andThen fun a => (t.adjoints rest).map (a :: ·)

end AdjointTable

/-! ## Inverses of circuits -/

namespace Circuit

/-- **The inverse of a circuit.** -/
def inverted (c : Circuit) (t : AdjointTable) : Reported Circuit :=
  (t.adjoints c.operations.reverse).map Circuit.mk

/-- Inversion in place: a circuit that cannot be inverted stays as it is. -/
def invert (c : Circuit) (t : AdjointTable) : Circuit × Reported Unit :=
  let inverse := c.inverted t
  (inverse.result.toOption.getD c, inverse.map fun _ => ())

end Circuit

end QuantumCircuit
