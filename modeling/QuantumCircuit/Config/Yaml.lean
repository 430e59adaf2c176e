import QuantumCircuit.Config.Fields
import QuantumCircuit.Yaml.Node

/-!
# Configurations as YAML

A configuration document is a mapping from field names to values; an empty one describes
the default configuration.  Any scalar is a name, whatever it looks like, and an empty plain
scalar is an empty list or an empty map.  The flag must be a plain scalar.  A policy is its
name, or a local tag of that name on an empty or null plain scalar.

Unlike the JSON form, what is read is judged at once.
-/

namespace QuantumCircuit.Config

set_option autoImplicit false

open Yaml (Document Node Style Tag)

/-! ## Reading scalars -/

/-- Whether the text of a plain scalar is null or empty. -/
def isNullText (text : String) : Bool := ["", "~", "null", "Null", "NULL"].contains text

/-- The name in a local tag, which begins with an exclamation mark.  The mark alone is its
own name, and bytes that are not a text have none. -/
def localName? : Option Tag → Option String
  | some (0x21 :: name) => if name = [] then some "!" else String.fromUTF8? ⟨name.toArray⟩
  | _ => none

/-- A policy is a scalar with its name, or an empty one with the name in a local tag. -/
def policyOfNode? : Node → Option AdjointPolicy
  | .scalar _ tag style text =>
    match localName? tag with
    | some name => if style = .plain && isNullText text then policyNamed? name else none
    | none => policyNamed? text
  | _ => none

/-- A truth value in one of three letter cases. -/
def flagOfText? (text : String) : Option Bool :=
  if text = "true" ∨ text = "True" ∨ text = "TRUE" then some true
  else if text = "false" ∨ text = "False" ∨ text = "FALSE" then some false
  else none

/-- A flag is a plain scalar, or a literal block that is tagged as a truth value. -/
def flagOfNode? : Node → Option Bool
  | .scalar _ tag style text =>
    if style = .plain ∨ style = .literal ∧ tag = some (Tag.ofString "tag:yaml.org,2002:bool") then
      flagOfText? text
    else none
  | _ => none

/-- A name is the text of a scalar in any style, whatever it looks like. -/
def nameOfNode? : Node → Option String
  | .scalar _ _ _ text => some text
  | _ => none

/-! ## Reading collections

The parts of a collection may be aliases, so these readers need the document. -/

/-- Names are a sequence of scalars, or an empty plain scalar. -/
def namesOfNode? (d : Document) : Node → Option (List String)
  | .sequence _ items => items.mapM fun item => (d.follow? item).bind nameOfNode?
  | .scalar _ _ .plain "" => some []
  | _ => none

/-- Puts pairs into a map, a later one over an earlier one. -/
def pairsOfEntries? (d : Document) (pairs : Std.ExtTreeMap String String) :
    List (Node × Node) → Option (Std.ExtTreeMap String String)
  | [] => some pairs
  | (key, value) :: rest => do
    let a ← nameOfNode? (← d.follow? key)
    let b ← nameOfNode? (← d.follow? value)
    pairsOfEntries? d (pairs.insert a b) rest

/-- Pairs are a mapping of scalars to scalars, or an empty plain scalar. -/
def pairsOfNode? (d : Document) : Node → Option (Std.ExtTreeMap String String)
  | .mapping _ entries => pairsOfEntries? d ∅ entries
  | .scalar _ _ .plain "" => some ∅
  | _ => none

/-! ## Reading configurations -/

/-- The readers of the values of fields in a document. -/
def nodeReader (d : Document) : FieldReader Node where
  policy node := (d.follow? node).bind policyOfNode?
  flag node := (d.follow? node).bind flagOfNode?
  names node := (d.follow? node).bind (namesOfNode? d)
  pairs node := (d.follow? node).bind (pairsOfNode? d)

/-- The entries of a mapping with their names; only a scalar is a name. -/
def namedEntries (d : Document) (entries : List (Node × Node)) : List (Option String × Node) :=
  entries.map fun (key, value) => ((d.follow? key).bind nameOfNode?, value)

/-- The configuration of a document, or the default one where there is none. -/
def ofDocument? : Option Document → Option Config
  | none => some default
  | some d =>
    match d.root with
    | .mapping _ entries => ofFields? (nodeReader d) (namedEntries d entries)
    | .scalar _ _ .plain "" => some default
    | _ => none

/-- **The configuration that a YAML text writes**, if it is accepted. -/
def ofYamlText (text : String) : Except ConfigError Config :=
  match (Document.ofText? text).bind ofDocument? with
  | none => .error (.parse "the text is not a configuration document")
  | some c => c.validate.map fun _ => c

end QuantumCircuit.Config
