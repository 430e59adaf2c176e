import QuantumCircuit.Adjoint.Table
import QuantumCircuit.Text.WhiteSpace

/-!
# Configurations

A configuration describes an adjoint table: the policy, whether the standard rules are
left out, and three kinds of additional rules.  Pairs are kept by their first name, in
the order of code points.

Rules are registered in the order self-inverse, negated parameter, pairs, and a later
rule for a name replaces an earlier one.  A configuration is accepted if no name in it
is empty and no name is in both lists (`validate`); registering the rules of an accepted
one cannot fail.
-/

namespace QuantumCircuit

set_option autoImplicit false

/-- A description of an adjoint table: its policy, and rules over the standard ones or
over none. -/
structure Config where
  policy : AdjointPolicy
  noDefaults : Bool
  selfInverse : List String
  negateParameter : List String
  pairs : Std.ExtTreeMap String String
  deriving DecidableEq

namespace Config

/-- The configuration of the standard table. -/
def default : Config := ⟨.lenient, false, [], [], ∅⟩

/-- A configuration describes the standard table unless it says otherwise. -/
instance : Inhabited Config := ⟨default⟩

/-! ## Acceptance -/

/-- All gate names of a configuration. -/
def names (c : Config) : List String :=
  c.selfInverse ++ c.negateParameter ++ c.pairs.toList.map (·.1) ++ c.pairs.toList.map (·.2)

/-- What speaks against a configuration.  An empty name outranks a name in both lists,
and of those the first self-inverse one is reported. -/
def objection? (c : Config) : Option Objection :=
  if "" ∈ c.names then some .emptyName
  else (c.selfInverse.find? fun gate => gate ∈ c.negateParameter).map .listedTwice

/-- Whether a configuration is accepted. -/
def validate (c : Config) : Except ConfigError Unit :=
  match c.objection? with
  | some objection => .error (.validation objection)
  | none => .ok ()

/-! ## The table of a configuration -/

/-- Registers one rule for several gates. -/
def registerAll (rule : AdjointRule) (t : AdjointTable) :
    List String → Except InvalidOperation AdjointTable
  | [] => .ok t
  | gate :: rest =>
    match t.insert gate rule with
    | .error e => .error e
    | .ok (_, t) => registerAll rule t rest

/-- Registers several pairs. -/
def registerPairs (t : AdjointTable) :
    List (String × String) → Except InvalidOperation AdjointTable
  | [] => .ok t
  | (a, b) :: rest =>
    match t.insertPair a b with
    | .error e => .error e
    | .ok t => registerPairs t rest

/-- Registers all rules of a configuration over those of `t`. -/
def register (c : Config) (t : AdjointTable) : Except InvalidOperation AdjointTable := do
  let t ← registerAll .selfInverse t c.selfInverse
  let t ← registerAll .negateParameter t c.negateParameter
  registerPairs t c.pairs.toList

/-- **The adjoint table that a configuration describes.** -/
def adjointTable (c : Config) : Except ConfigError AdjointTable := do
  c.validate
  let start := if c.noDefaults then AdjointTable.empty else AdjointTable.standard
  match c.register (start.withPolicy c.policy) with
  | .ok t => return t
  | .error e => throw (.validation (.rejectedRule e))

/-! ## Policy words -/

/-- The policy with exactly this name. -/
def policyNamed? (name : String) : Option AdjointPolicy :=
  if name = "strict" then some .strict
  else if name = "lenient" then some .lenient
  else none

/-- The name by which a policy is written. -/
def policyName : AdjointPolicy → String
  | .strict => "strict"
  | .lenient => "lenient"

/-- A word as it is compared with the names of the policies. -/
def policyWord (text : String) : String :=
  String.ofList ((trimChars text.toList).map Char.toLower)

/-- The policy that a text names, in any ASCII letter case and with white space around. -/
def readPolicy (text : String) : Except ConfigError AdjointPolicy :=
  match policyNamed? (policyWord text) with
  | some policy => .ok policy
  | none => .error (.validation (.unknownPolicy (policyWord text)))

end Config

end QuantumCircuit
