import QuantumCircuit.Decimal.Numeral

/-!
# Positional and scientific notation

A decimal is written positionally, with as many places as it needs, or
scientifically, with one digit before the point and a power of ten.  Both are
numerals with the value of the decimal.
-/

namespace QuantumCircuit.Numeral

set_option autoImplicit false

/-- Positional notation with at least `leastPlaces` digits after the point. -/
def positional (leastPlaces : Nat) (negative : Bool) (d : Decimal) : Numeral :=
  let places := (-d.exponent).toNat
  let digits := d.digits * Nat.pow 10 (d.exponent.toNat + (leastPlaces - places))
  let places := max places leastPlaces
  ⟨negative, digits / Nat.pow 10 places, lastDigits places digits, none⟩

/-- The power of ten of the leading digit. -/
def leadingExponent (d : Decimal) : Int :=
  d.exponent + ((Nat.toDigits 10 d.digits).length - 1 : Nat)

/-- Scientific notation; a single digit is written without a point. -/
def scientific (negative : Bool) (d : Decimal) : Numeral :=
  let places := (Nat.toDigits 10 d.digits).length - 1
  ⟨negative, d.digits / Nat.pow 10 places, lastDigits places d.digits, some (leadingExponent d)⟩

end QuantumCircuit.Numeral
