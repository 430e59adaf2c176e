import QuantumCircuit.Config.Basic

/-!
# Fields of configurations

Every notation for configurations gives values to the same five fields by name.  The
fields come in any order, one that is missing has its default, and neither another name
nor a field that comes twice is accepted.  What a value means is up to the notation, which
provides a reader for each kind of field.
-/

namespace QuantumCircuit.Config

set_option autoImplicit false

/-- How a notation with values in `α` reads each kind of field. -/
structure FieldReader (α : Type) where
  policy : α → Option AdjointPolicy
  flag : α → Option Bool
  names : α → Option (List String)
  pairs : α → Option (Std.ExtTreeMap String String)

/-- The fields of a configuration that have been read. -/
structure Fields where
  policy : Option AdjointPolicy
  noDefaults : Option Bool
  selfInverse : Option (List String)
  negateParameter : Option (List String)
  pairs : Option (Std.ExtTreeMap String String)

namespace Fields

/-- No field has been read. -/
def none : Fields := ⟨.none, .none, .none, .none, .none⟩

/-- The configuration with defaults for the fields that have not been read. -/
def toConfig (f : Fields) : Config where
  policy := f.policy.getD default.policy
  noDefaults := f.noDefaults.getD default.noDefaults
  selfInverse := f.selfInverse.getD default.selfInverse
  negateParameter := f.negateParameter.getD default.negateParameter
  pairs := f.pairs.getD default.pairs

variable {α : Type}

/-- Reads one more field, which must not have been read before. -/
def read? (r : FieldReader α) (f : Fields) (name : String) (value : α) : Option Fields :=
  if name = "policy" then
    if f.policy.isSome then .none else (r.policy value).map ({ f with policy := some · })
  else if name = "no_defaults" then
    if f.noDefaults.isSome then .none else (r.flag value).map ({ f with noDefaults := some · })
  else if name = "self_inverse" then
    if f.selfInverse.isSome then .none else (r.names value).map ({ f with selfInverse := some · })
  else if name = "negate_parameter" then
    if f.negateParameter.isSome then .none
    else (r.names value).map ({ f with negateParameter := some · })
  else if name = "pairs" then
    if f.pairs.isSome then .none else (r.pairs value).map ({ f with pairs := some · })
  else .none

/-- Reads named values in the order in which they are written.  A value without a name is
a fault. -/
def readAll? (r : FieldReader α) (f : Fields) : List (Option String × α) → Option Fields
  | [] => some f
  | (.none, _) :: _ => .none
  | (some name, value) :: rest =>
    match f.read? r name value with
    | .none => .none
    | some f => f.readAll? r rest

end Fields

/-- The names of the fields, in their order. -/
def fieldNames : List String :=
  ["policy", "no_defaults", "self_inverse", "negate_parameter", "pairs"]

/-- The configuration with the given values of fields. -/
def ofFields? {α : Type} (r : FieldReader α) (values : List (Option String × α)) : Option Config :=
  (Fields.none.readAll? r values).map Fields.toConfig

end QuantumCircuit.Config
