import QuantumCircuit.Decimal.Numeral

/-!
# JSON values and tokens

A JSON value keeps its numbers as they are written and its object members in the
order and the number in which they are written.  A string literal may have an escape
for half of a surrogate pair without the other half.  Such a literal is JSON, but it
stands for no text, so strings and keys are optional texts and `none` is a literal of
that kind.

Every value is a row of tokens (`Json.tokens`).  Reading goes through them: a text is
cut into tokens first, and values are built from tokens.
-/

namespace QuantumCircuit

set_option autoImplicit false

/-- What a string literal stands for, if it stands for a text. -/
abbrev JsonString := Option String

/-- The values of JSON, as they are written. -/
inductive Json where
  | null
  | bool (b : Bool)
  | number (n : Numeral)
  | string (s : JsonString)
  | array (items : List Json)
  | object (members : List (JsonString × Json))

namespace Json

/-! ## Tokens -/

/-- The tokens of JSON; `fault` stands where a text has none. -/
inductive Token where
  | openBrace
  | closeBrace
  | openBracket
  | closeBracket
  | comma
  | colon
  | null
  | bool (b : Bool)
  | number (n : Numeral)
  | string (s : JsonString)
  | fault
  deriving DecidableEq

mutual
/-- The tokens that write a value. -/
def tokens : Json → List Token
  | .null => [.null]
  | .bool b => [.bool b]
  | .number n => [.number n]
  | .string s => [.string s]
  | .array [] => [.openBracket, .closeBracket]
  | .array (item :: items) =>
    .openBracket :: (tokens item ++ (itemTokens items ++ [.closeBracket]))
  | .object [] => [.openBrace, .closeBrace]
  | .object ((key, value) :: members) =>
    .openBrace :: .string key :: .colon :: (tokens value ++ (memberTokens members ++ [.closeBrace]))

/-- The tokens of the items after the first. -/
def itemTokens : List Json → List Token
  | [] => []
  | item :: items => .comma :: (tokens item ++ itemTokens items)

/-- The tokens of the members after the first. -/
def memberTokens : List (JsonString × Json) → List Token
  | [] => []
  | (key, value) :: members =>
    .comma :: .string key :: .colon :: (tokens value ++ memberTokens members)
end

/-- A string value that stands for a text. -/
def text (s : String) : Json := .string (some s)

end Json

end QuantumCircuit
