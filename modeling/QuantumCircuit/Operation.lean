import QuantumCircuit.Binary64.Text
import QuantumCircuit.Error
import QuantumCircuit.Text.Join

/-!
# Operations

An operation applies a gate to a list of targets, in that order, and may carry a
numeric parameter.  The gate name is any non-empty text, the target list is not
empty (a target may occur twice), and the parameter is finite: `Operation.Valid`.

Operations are asked for as drafts.  `Draft.build` checks a draft and is the only
place where an operation comes into being from parts; a draft with several faults is
rejected for its name before its targets, and for its targets before its parameter.
-/

namespace QuantumCircuit

set_option autoImplicit false

/-- A gate on targets, with or without a parameter. -/
structure Operation where
  gate : String
  targets : List UInt32
  parameter : Option Binary64
  deriving DecidableEq

namespace Operation

/-- What every operation of a circuit satisfies. -/
structure Valid (op : Operation) : Prop where
  gate_ne_empty : op.gate ≠ ""
  targets_ne_nil : op.targets ≠ []
  parameter_finite : ∀ x ∈ op.parameter, x.isFinite = true

/-! ## Drafts -/

/-- The parts of an operation, not yet checked. -/
structure Draft where
  gate : String
  targets : List UInt32
  parameter : Option Binary64
  deriving DecidableEq

/-- **The checked operation of a draft**, or the first fault of the draft. -/
def Draft.build (d : Draft) : Except InvalidOperation Operation :=
  if d.gate = "" then .error (.about d.gate .emptyGate)
  else if d.targets = [] then .error (.about d.gate .noTargets)
  else if d.parameter.any fun x => !x.isFinite then .error (.about d.gate .nonFiniteParameter)
  else .ok ⟨d.gate, d.targets, d.parameter⟩

/-! ## Comparison -/

/-- Equality of parameters as numbers, under which zero equals negative zero. -/
def sameParameter : Option Binary64 → Option Binary64 → Bool
  | none, none => true
  | some x, some y => x.numericallyEqual y
  | _, _ => false

/-- Equality of operations with parameters compared as numbers. -/
def equivalent (a b : Operation) : Bool :=
  a.gate == b.gate && a.targets == b.targets && sameParameter a.parameter b.parameter

/-! ## Text forms -/

/-- The canonical form `GATE(t,…,t)`, without the parameter. -/
def canonicalChars (op : Operation) : List Char :=
  op.gate.toList ++ '(' :: (joinWith ',' (op.targets.map fun t => Nat.toDigits 10 t.toNat) ++ [')'])

/-- The parameter in brackets, if there is one. -/
def parameterChars : Option Binary64 → List Char
  | none => []
  | some x => '[' :: (x.plainNumeral.chars ++ [']'])

/-- The extended form `GATE(t,…,t)[parameter]`. -/
def extendedChars (op : Operation) : List Char :=
  op.canonicalChars ++ parameterChars op.parameter

/-- The text by which an operation is displayed. -/
def display (op : Operation) : String := String.ofList op.canonicalChars

end Operation

end QuantumCircuit
