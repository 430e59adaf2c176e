import QuantumCircuit.Config.Yaml

/-!
# Loading configurations

A configuration comes from a file and from an environment variable that holds the name
of a policy.  The file is read first and its faults come first; a variable that is set
then replaces the policy and nothing else.  A variable whose value is not Unicode text
counts as unset.
-/

namespace QuantumCircuit

set_option autoImplicit false

/-- What is found at the path of a configuration file. -/
inductive ConfigFile where
  | missing
  | holding (bytes : ByteArray)

namespace Config

/-- The configuration in a file. -/
def ofFile : ConfigFile → Except ConfigError Config
  | .missing => .error (.io .notFound)
  | .holding bytes =>
    match String.fromUTF8? bytes with
    | none => .error (.io .notUnicode)
    | some text => ofYamlText text

/-- The text of the variable, if it counts as set. -/
def settingText? (setting : Option ByteArray) : Option String :=
  setting.bind String.fromUTF8?

/-- Replaces the policy by the one that the variable names, if it is set. -/
def override (c : Config) (setting : Option ByteArray) : Except ConfigError Config :=
  match settingText? setting with
  | none => .ok c
  | some text => (readPolicy text).map fun policy => { c with policy := policy }

/-- The configuration that the variable alone describes. -/
def ofVariable (setting : Option ByteArray) : Except ConfigError Config :=
  default.override setting

/-- **The configuration of a file, if one is given, under the variable.** -/
def load (file : Option ConfigFile) (setting : Option ByteArray) :
    Except ConfigError Config := do
  let c ← match file with
    | some file => ofFile file
    | none => .ok default
  let c ← c.override setting
  c.validate
  return c

end Config

end QuantumCircuit
