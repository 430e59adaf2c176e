import QuantumCircuit.Json.Value
import QuantumCircuit.Text.Hex

/-!
# Writing JSON

The compact form of a value is its tokens without anything between them.  The pretty
form puts every item and member on a line of its own, two spaces further in than the
bracket around it, and writes a space after a colon; empty brackets stay together.

In string literals only the quotation mark, the backslash and the control characters
below the space are escaped, five of them by a letter.
-/

namespace QuantumCircuit.Json

set_option autoImplicit false

/-! ## String literals -/

/-- One character of a string literal. -/
def escapedChar (c : Char) : List Char :=
  if c = '"' then ['\\', '"']
  else if c = '\\' then ['\\', '\\']
  else if c = '\x08' then ['\\', 'b']
  else if c = '\x0c' then ['\\', 'f']
  else if c = '\n' then ['\\', 'n']
  else if c = '\r' then ['\\', 'r']
  else if c = '\t' then ['\\', 't']
  else if c.toNat < 0x20 then
    ['\\', 'u', '0', '0', hexDigit (c.toNat / 16), hexDigit c.toNat]
  else [c]

/-- A string literal.  One that stands for no text is half a surrogate pair. -/
def stringChars : JsonString → List Char
  | some s => '"' :: (s.toList.flatMap escapedChar ++ ['"'])
  | none => ['"', '\\', 'u', 'd', '8', '0', '0', '"']

/-- The characters that write a token; a fault writes none. -/
def Token.chars : Token → List Char
  | .openBrace => ['{']
  | .closeBrace => ['}']
  | .openBracket => ['[']
  | .closeBracket => [']']
  | .comma => [',']
  | .colon => [':']
  | .null => ['n', 'u', 'l', 'l']
  | .bool true => ['t', 'r', 'u', 'e']
  | .bool false => ['f', 'a', 'l', 's', 'e']
  | .number n => n.chars
  | .string s => stringChars s
  | .fault => []

/-! ## The two forms -/

/-- The form without blanks. -/
def compactChars (j : Json) : List Char := j.tokens.flatMap Token.chars

/-- The start of a line at a depth of nesting. -/
def newLine (depth : Nat) : List Char := '\n' :: List.replicate (2 * depth) ' '

mutual
/-- The form with a line for every item and member; `depth` brackets are around it. -/
def prettyChars (depth : Nat) : Json → List Char
  | .array [] => ['[', ']']
  | .array (item :: items) =>
    '[' :: (newLine (depth + 1) ++ (prettyChars (depth + 1) item
      ++ (prettyItems depth items ++ (newLine depth ++ [']']))))
  | .object [] => ['{', '}']
  | .object ((key, value) :: members) =>
    '{' :: (newLine (depth + 1) ++ (stringChars key ++ (':' :: ' ' :: (prettyChars (depth + 1) value
      ++ (prettyMembers depth members ++ (newLine depth ++ ['}']))))))
  | .null => Token.chars .null
  | .bool b => Token.chars (.bool b)
  | .number n => n.chars
  | .string s => stringChars s

/-- The items after the first, each after a comma on a line of its own. -/
def prettyItems (depth : Nat) : List Json → List Char
  | [] => []
  | item :: items =>
    ',' :: (newLine (depth + 1) ++ (prettyChars (depth + 1) item ++ prettyItems depth items))

/-- The members after the first, each after a comma on a line of its own. -/
def prettyMembers (depth : Nat) : List (JsonString × Json) → List Char
  | [] => []
  | (key, value) :: members =>
    ',' :: (newLine (depth + 1) ++ (stringChars key
      ++ (':' :: ' ' :: (prettyChars (depth + 1) value ++ prettyMembers depth members))))
end

/-- The text without blanks. -/
def compact (j : Json) : String := String.ofList j.compactChars

/-- The text with a line for every item and member. -/
def pretty (j : Json) : String := String.ofList (j.prettyChars 0)

end QuantumCircuit.Json
