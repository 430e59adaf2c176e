import QuantumCircuit.Config.Fields
import QuantumCircuit.Json.Document
import QuantumCircuit.Json.Text

/-!
# Configurations as JSON

A configuration is written as an object of its five fields, the pairs as an object in
the order of code points.

Reading accepts an object of fields, or an array of the values of the first few fields.
Of a pair that is written twice the last one counts.  Reading does not judge the names.
-/

namespace QuantumCircuit.Config

set_option autoImplicit false

/-! ## Writing -/

/-- Names as an array of texts. -/
def namesJson (names : List String) : Json := .array (names.map Json.text)

/-- Pairs as an object, in the order of their first names. -/
def pairsJson (pairs : Std.ExtTreeMap String String) : Json :=
  .object (pairs.toList.map fun (a, b) => (some a, Json.text b))

/-- The value that writes a configuration, with all five fields. -/
def toJson (c : Config) : Json :=
  .object
    [(some "policy", .text (policyName c.policy)),
     (some "no_defaults", .bool c.noDefaults),
     (some "self_inverse", namesJson c.selfInverse),
     (some "negate_parameter", namesJson c.negateParameter),
     (some "pairs", pairsJson c.pairs)]

/-! ## Reading fields -/

/-- A policy is its name, or an object with a null under its name. -/
def policyOfJson? : Json → Option AdjointPolicy
  | .string (some name) => policyNamed? name
  | .object [(some name, .null)] => policyNamed? name
  | _ => none

/-- A flag is a truth value. -/
def flagOfJson? : Json → Option Bool
  | .bool b => some b
  | _ => none

/-- A name is a string that stands for a text. -/
def nameOfJson? : Json → Option String
  | .string s => s
  | _ => none

/-- Names are an array in which every item is a name. -/
def namesOfJson? : Json → Option (List String)
  | .array items => items.mapM nameOfJson?
  | _ => none

/-- Puts pairs into a map, a later one over an earlier one. -/
def pairsOfMembers? (pairs : Std.ExtTreeMap String String) :
    List (JsonString × Json) → Option (Std.ExtTreeMap String String)
  | [] => some pairs
  | (some a, .string (some b)) :: rest => pairsOfMembers? (pairs.insert a b) rest
  | _ => none

/-- Pairs are an object in which every key and every value is a text. -/
def pairsOfJson? : Json → Option (Std.ExtTreeMap String String)
  | .object members => pairsOfMembers? ∅ members
  | _ => none

/-! ## Reading configurations -/

/-- How JSON writes each kind of field. -/
def jsonReader : FieldReader Json := ⟨policyOfJson?, flagOfJson?, namesOfJson?, pairsOfJson?⟩

/-- The configuration that a value writes. -/
def ofJson? : Json → Option Config
  | .object members => ofFields? jsonReader members
  | .array values =>
    if values.length ≤ fieldNames.length then
      ofFields? jsonReader ((fieldNames.map some).zip values)
    else none
  | _ => none

/-- **The configuration that a JSON text writes.** -/
def ofJsonText? (text : String) : Option Config := (Json.ofText? text).bind ofJson?

end QuantumCircuit.Config
