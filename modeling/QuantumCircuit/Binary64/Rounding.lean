import QuantumCircuit.Binary64.Basic
import QuantumCircuit.Decimal.Basic

/-!
# Rounding a fraction to double precision

A non-negative fraction rounds to the nearest magnitude, and a fraction half way
between two magnitudes to the even one.  So it rounds to at most `k` exactly when
it does not pass the middle between `k` and `k + 1`, which is one comparison of
integers (`roundsBelow`).  The nearest magnitude is the least `k` of that kind, and
`least` finds it by fixing one binary digit after the other, from the top.

Past the middle between the largest finite number and the next power of two the
result is infinity, so the search is cut off there.
-/

namespace QuantumCircuit.Binary64

set_option autoImplicit false

/-! ## The nearest magnitude -/

/-- Whether `numerator / denominator` rounds to magnitude `k` or a smaller one. -/
def roundsBelow (numerator denominator k : Nat) : Bool :=
  if k % 2 = 0 then
    numerator * Nat.pow 2 1075 ≤ denominator * (scaled k + scaled (k + 1))
  else
    numerator * Nat.pow 2 1075 < denominator * (scaled k + scaled (k + 1))

/-- The least number from `low` on, among the next `2 ^ bits`, at which a monotone
test holds; the last of them if it holds at none. -/
def least (test : Nat → Bool) : (bits low : Nat) → Nat
  | 0, low => low
  | bits + 1, low =>
    if test (low + Nat.pow 2 bits - 1) then least test bits low
    else least test bits (low + Nat.pow 2 bits)

/-- The magnitude nearest to `numerator / denominator`. -/
def nearest (numerator denominator : Nat) : Nat :=
  min (least (roundsBelow numerator denominator) 63 0) infiniteMagnitude

/-! ## Rounding decimals -/

/-- The magnitude nearest to a decimal.  Decimals from 10⁴⁰⁰ on round to infinity and
those below 10⁻⁴⁰⁰ to zero, whatever their digits, so their powers of ten are never
computed. -/
def nearestDecimal (d : Decimal) : Nat :=
  if d.digits = 0 then 0
  else if 400 < d.exponent then infiniteMagnitude
  else if d.exponent < -(d.digits.log2 + 400 : Nat) then 0
  else nearest d.numerator d.denominator

theorem nearest_lt (numerator denominator : Nat) : nearest numerator denominator < Nat.pow 2 63 :=
  Nat.lt_of_le_of_lt (Nat.min_le_right _ _) infiniteMagnitude_lt

theorem nearestDecimal_lt (d : Decimal) : nearestDecimal d < Nat.pow 2 63 := by
  unfold nearestDecimal
  split
  · decide
  · split
    · exact infiniteMagnitude_lt
    · split
      · decide
      · exact nearest_lt _ _

/-- The double-precision number nearest to a signed decimal. -/
def ofDecimal (negative : Bool) (d : Decimal) : Binary64 :=
  ⟨negative, nearestDecimal d, nearestDecimal_lt d⟩

/-- Whether a decimal rounds to magnitude `k`. -/
def roundsTo (d : Decimal) (k : Nat) : Bool :=
  roundsBelow d.numerator d.denominator k
    && (k == 0 || !roundsBelow d.numerator d.denominator (k - 1))

end QuantumCircuit.Binary64
