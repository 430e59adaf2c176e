import QuantumCircuit.Binary64.Shortest
import QuantumCircuit.Decimal.Notation

/-!
# Texts of double-precision numbers

A number has two written forms, both with the fewest digits that read back.  The
plain form never has an exponent and shows a whole number without a point.  The JSON
form always shows a point in positional notation, and changes to scientific notation
below 10⁻⁵ and from 10¹⁶ on.

`ofText?` reads a number as people write it: with any sign, with leading zeros, with
a point on either end, or as the name of an infinity or of what is no number.
-/

namespace QuantumCircuit.Binary64

set_option autoImplicit false

/-! ## Writing -/

/-- The plain form.  Of two equally near digit strings the larger one is written. -/
def plainNumeral (x : Binary64) : Numeral :=
  .positional 0 x.negative (shortest .awayFromZero x.magnitude)

/-- The JSON form.  Of two equally near digit strings the even one is written. -/
def jsonNumeral (x : Binary64) : Numeral :=
  let d := shortest .toEven x.magnitude
  if -5 ≤ Numeral.leadingExponent d ∧ Numeral.leadingExponent d ≤ 15 then
    .positional 1 x.negative d
  else
    .scientific x.negative d

/-! ## Reading -/

/-- The number nearest to what a numeral writes. -/
def ofNumeral (n : Numeral) : Binary64 := ofDecimal n.negative n.value

/-- Reads an unsigned number in digits, with a digit on at least one side of the point. -/
def readUnsigned? (cs : List Char) : Option Decimal :=
  let (whole, cs) := readDigits cs
  let (fraction, cs) := match cs with
    | '.' :: rest => readDigits rest
    | cs => ([], cs)
  if whole = [] ∧ fraction = [] then none
  else
    match Numeral.readExponent? cs with
    | some (exponent, []) => some (Numeral.mk false (digitsValue 0 whole) fraction exponent).value
    | _ => none

/-- Reads a number, an infinity or the name of what is no number, in any letter case. -/
def ofText? (text : String) : Option Binary64 :=
  let (negative, cs) := match text.toList with
    | '-' :: rest => (true, rest)
    | '+' :: rest => (false, rest)
    | cs => (false, cs)
  let name := String.ofList (cs.map Char.toLower)
  if name = "inf" ∨ name = "infinity" then some (infinity negative)
  else if name = "nan" then some (notANumber negative)
  else (readUnsigned? cs).map (ofDecimal negative)

end QuantumCircuit.Binary64
