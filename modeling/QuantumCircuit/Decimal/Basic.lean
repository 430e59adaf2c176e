/-!
# Decimal fractions

A decimal fraction is a whole number of units of a power of ten.  The same fraction
has many such forms; `normalize` picks the one whose last digit is not zero, and
for zero the one whose exponent is zero.
-/

namespace QuantumCircuit

set_option autoImplicit false

/-- The non-negative number `digits * 10 ^ exponent`. -/
structure Decimal where
  digits : Nat
  exponent : Int
  deriving DecidableEq

namespace Decimal

/-- The upper part of the fraction as a quotient of natural numbers. -/
def numerator (d : Decimal) : Nat := d.digits * Nat.pow 10 d.exponent.toNat

/-- The lower part of the fraction as a quotient of natural numbers. -/
def denominator (d : Decimal) : Nat := Nat.pow 10 (-d.exponent).toNat

/-- Moves trailing zeros of the digits into the exponent. -/
def dropZeros (digits : Nat) (exponent : Int) : Decimal :=
  if digits ≠ 0 ∧ digits % 10 = 0 then dropZeros (digits / 10) (exponent + 1)
  else ⟨digits, exponent⟩
termination_by digits

/-- The form of the fraction whose digits do not end in zero. -/
def normalize (d : Decimal) : Decimal :=
  if d.digits = 0 then ⟨0, 0⟩ else dropZeros d.digits d.exponent

end Decimal

end QuantumCircuit
