import Std.Data.ExtTreeMap
import QuantumCircuit.Operation

/-!
# Adjoint tables

A table tells how to invert gates by name: a gate is its own inverse, is inverted by
another gate, or is inverted by the opposite parameter.  A policy decides about the
gates without a rule.

The name of a gate may end in dagger marks.  A marked name without a rule of its own
follows the rule of the longest registered name that is left after taking marks off
its end; `resolve` finds that rule and counts the marks taken off.  The empty name is
never reached, and no table made here has a rule for it (`Valid`).
-/

namespace QuantumCircuit

set_option autoImplicit false

/-! ## Marks -/

/-- The mark that makes a gate name that of the inverse gate. -/
def daggerMark : Char := '\x27'

/-- A gate name with `n` further dagger marks. -/
def withMarks (gate : String) (n : Nat) : String :=
  gate ++ String.ofList (List.replicate n daggerMark)

/-! ## Rules and tables -/

/-- How a gate is inverted. -/
inductive AdjointRule where
  | selfInverse
  | named (target : String)
  | negateParameter
  deriving DecidableEq

/-- What becomes of a gate without a rule: it is taken to be its own inverse, with a
warning, or it cannot be inverted. -/
inductive AdjointPolicy where
  | lenient
  | strict
  deriving DecidableEq

/-- Rules by gate name, and what becomes of the other gates. -/
structure AdjointTable where
  rules : Std.ExtTreeMap String AdjointRule
  policy : AdjointPolicy
  deriving DecidableEq

namespace AdjointTable

/-- What every table built by this library satisfies. -/
structure Valid (t : AdjointTable) : Prop where
  no_rule_for_empty : t.rules[""]? = none
  no_rule_names_empty : ∀ gate : String, t.rules[gate]? ≠ some (.named "")

/-- The lenient table without rules. -/
def empty : AdjointTable := ⟨∅, .lenient⟩

/-- The same rules under another policy. -/
def withPolicy (t : AdjointTable) (policy : AdjointPolicy) : AdjointTable :=
  { t with policy := policy }

/-! ## The standard gates -/

/-- The standard gates that are their own inverse. -/
def standardSelfInverse : List String :=
  ["I", "ID", "H", "X", "Y", "Z", "CNOT", "CX", "CY", "CZ", "CH", "SWAP", "CCX", "TOFFOLI",
    "CSWAP", "FREDKIN"]

/-- The standard gates that are inverse to each other. -/
def standardPairs : List (String × String) := [("S", "SDG"), ("T", "TDG"), ("SX", "SXDG")]

/-- The standard gates that are inverted by negating the parameter. -/
def standardRotations : List String :=
  ["RX", "RY", "RZ", "P", "PHASE", "U1", "CRX", "CRY", "CRZ", "CP", "RXX", "RYY", "RZZ"]

/-- The rules of the standard gates; every pair is registered in both directions. -/
def standardRules : List (String × AdjointRule) :=
  standardSelfInverse.map (·, .selfInverse)
    ++ standardPairs.flatMap (fun (a, b) => [(a, .named b), (b, .named a)])
    ++ standardRotations.map (·, .negateParameter)

/-- The lenient table of the standard gates. -/
def standard : AdjointTable := ⟨.ofList standardRules, .lenient⟩

/-- A table is standard unless it is described. -/
instance : Inhabited AdjointTable := ⟨standard⟩

/-! ## Changing rules -/

/-- Registers a rule, and returns the rule the gate had before. -/
def insert (t : AdjointTable) (gate : String) (rule : AdjointRule) :
    Except InvalidOperation (Option AdjointRule × AdjointTable) :=
  if gate = "" then .error (.about gate .ruleForEmptyGate)
  else if rule = .named "" then .error (.about gate .ruleNamesEmptyGate)
  else .ok (t.rules[gate]?, { t with rules := t.rules.insert gate rule })

/-- Registers two gates as inverse to each other. -/
def insertPair (t : AdjointTable) (a b : String) : Except InvalidOperation AdjointTable :=
  match t.insert a (.named b) with
  | .error e => .error e
  | .ok (_, t) => (t.insert b (.named a)).map (·.2)

/-- The rule of a gate and the table without it. -/
def remove (t : AdjointTable) (gate : String) : Option AdjointRule × AdjointTable :=
  (t.rules[gate]?, { t with rules := t.rules.erase gate })

/-! ## Looking up rules -/

/-- The rule registered for exactly this name. -/
def rule? (t : AdjointTable) (gate : String) : Option AdjointRule := t.rules[gate]?

/-- Whether a rule is registered for exactly this name. -/
def contains (t : AdjointTable) (gate : String) : Bool := (t.rule? gate).isSome

/-- Whether exactly this name is registered as its own inverse. -/
def isSelfInverse (t : AdjointTable) (gate : String) : Bool :=
  t.rule? gate == some .selfInverse

/-- How many rules are registered. -/
def size (t : AdjointTable) : Nat := t.rules.size

/-- The rule found by taking marks off the end of a reversed name, with the number of
marks taken off, counted on from `taken`. -/
def resolveReversed (t : AdjointTable) : List Char → (taken : Nat) → Option (AdjointRule × Nat)
  | [], taken => (t.rule? "").map (·, taken)
  | c :: base, taken =>
    match t.rule? (String.ofList (c :: base).reverse) with
    | some rule => some (rule, taken)
    | none => if c = daggerMark ∧ base ≠ [] then t.resolveReversed base (taken + 1) else none

/-- **The rule that governs a gate**, and how many marks of its name the rule does not
cover. -/
def resolve (t : AdjointTable) (gate : String) : Option (AdjointRule × Nat) :=
  t.resolveReversed gate.toList.reverse 0

end AdjointTable

end QuantumCircuit
