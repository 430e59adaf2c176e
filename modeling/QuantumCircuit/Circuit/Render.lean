import QuantumCircuit.Circuit.Json

/-!
# Texts of circuits

A circuit has a canonical text with one line for each operation and an extended one
that shows the parameters as well.  Lines are separated, so the text of the empty
circuit is empty and no text ends in a separator.  The other texts are the compact and
the pretty JSON of the circuit.
-/

namespace QuantumCircuit

set_option autoImplicit false

namespace Circuit

/-- The canonical forms of the operations, with a line break between any two. -/
def canonicalChars (c : Circuit) : List Char :=
  joinWith '\n' (c.operations.map Operation.canonicalChars)

/-- The extended forms of the operations, with a line break between any two. -/
def extendedChars (c : Circuit) : List Char :=
  joinWith '\n' (c.operations.map Operation.extendedChars)

/-- The canonical text, which is also how a circuit is displayed. -/
def canonicalText (c : Circuit) : String := String.ofList c.canonicalChars

/-- The text that shows the parameters too. -/
def extendedText (c : Circuit) : String := String.ofList c.extendedChars

end Circuit

/-- A way to turn circuits into text. -/
inductive Renderer where
  | canonical
  | extended
  | json (pretty : Bool)
  deriving DecidableEq

namespace Renderer

/-- The name of a way of rendering; the two forms of JSON share one. -/
def name : Renderer → String
  | .canonical => "canonical"
  | .extended => "extended"
  | .json _ => "json"

/-- **The text of a circuit**, in one of four forms. -/
def render (c : Circuit) : Renderer → String
  | .canonical => c.canonicalText
  | .extended => c.extendedText
  | .json false => c.toJson.compact
  | .json true => c.toJson.pretty

end Renderer

end QuantumCircuit
