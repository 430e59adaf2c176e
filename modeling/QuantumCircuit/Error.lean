/-!
# What can go wrong

Errors are kept as causes, and their wording is in one function per type.  An
operation can be rejected, a gate can lack an adjoint, and a configuration can fail
to be found, read or accepted.  The errors of the configuration are errors of the
library under the same wording.
-/

namespace QuantumCircuit

set_option autoImplicit false

/-! ## Rejected operations and rules -/

/-- Why an operation or an adjoint rule is rejected. -/
inductive Rejection where
  | emptyGate
  | noTargets
  | nonFiniteParameter
  | ruleForEmptyGate
  | ruleNamesEmptyGate
  | other (text : String)
  deriving DecidableEq

/-- The wording of a reason. -/
def Rejection.message : Rejection → String
  | .emptyGate => "gate name must not be empty"
  | .noTargets => "targets must not be empty"
  | .nonFiniteParameter => "parameter must be a finite number"
  | .ruleForEmptyGate => "adjoint rule registered for an empty gate name"
  | .ruleNamesEmptyGate => "adjoint rule names an empty gate"
  | .other text => text

/-- A rejection, with the gate it concerns unless that gate has no name. -/
structure InvalidOperation where
  gate : Option String
  reason : Rejection
  deriving DecidableEq

namespace InvalidOperation

/-- The rejection of something about `gate`; the empty name is not reported. -/
def about (gate : String) (reason : Rejection) : InvalidOperation :=
  ⟨if gate = "" then none else some gate, reason⟩

/-- The wording of a rejection, which shows the gate if it is known. -/
def message (e : InvalidOperation) : String :=
  match e.gate with
  | some gate => "Invalid operation (gate: " ++ gate ++ "): " ++ e.reason.message
  | none => "Invalid operation: " ++ e.reason.message

end InvalidOperation

/-! ## Configurations that cannot be used -/

/-- Why the text of a configuration file cannot be had. -/
inductive FileFailure where
  | notFound
  | notUnicode
  | other (text : String)
  deriving DecidableEq

/-- The wording of a failure to read a file. -/
def FileFailure.message : FileFailure → String
  | .notFound => "No such file or directory (os error 2)"
  | .notUnicode => "stream did not contain valid UTF-8"
  | .other text => text

/-- Why a configuration is not accepted. -/
inductive Objection where
  | emptyName
  | listedTwice (gate : String)
  | unknownPolicy (word : String)
  | rejectedRule (e : InvalidOperation)
  | other (text : String)
  deriving DecidableEq

/-- The wording of an objection. -/
def Objection.message : Objection → String
  | .emptyName => "gate names in adjoint rules must not be empty"
  | .listedTwice gate =>
    "gate " ++ gate ++ " is listed as both self_inverse and negate_parameter"
  | .unknownPolicy word => "Invalid adjoint policy: " ++ word
  | .rejectedRule e => e.message
  | .other text => text

/-- Why there is no configuration: its file, its text, or what it says. -/
inductive ConfigError where
  | io (failure : FileFailure)
  | parse (detail : String)
  | validation (objection : Objection)
  deriving DecidableEq

/-- The wording of an error of a configuration, under the name of its kind. -/
def ConfigError.message : ConfigError → String
  | .io failure => "IO error: " ++ failure.message
  | .parse detail => "Parse error: " ++ detail
  | .validation objection => "Validation error: " ++ objection.message

/-! ## All errors -/

/-- All errors of the library. -/
inductive Error where
  | invalidOperation (e : InvalidOperation)
  | unknownAdjoint (gate : String)
  | render (detail : String)
  | config (e : ConfigError)
  deriving DecidableEq

/-- The wording of an error; an error of a configuration keeps its own. -/
def Error.message : Error → String
  | .invalidOperation e => e.message
  | .unknownAdjoint gate => "No adjoint known for gate '" ++ gate ++ "'"
  | .render detail => "Render error: " ++ detail
  | .config e => e.message

end QuantumCircuit
