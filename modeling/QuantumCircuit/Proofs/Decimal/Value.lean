import QuantumCircuit.Decimal.Notation
import QuantumCircuit.Proofs.Decimal.Numeral

/-!
# Decimals with the same value

Rounding looks at a decimal only as the quotient of its numerator and its denominator.  Two
decimals have the same value when these quotients are equal, which multiplying out states with
natural numbers.  Everything that moves zeros between the digits and the exponent is one shift
of that kind: normalization and both notations keep the value.
-/

namespace QuantumCircuit

set_option autoImplicit false

/-- The definitions write powers in full. -/
theorem natPow_eq (base exponent : Nat) : Nat.pow base exponent = base ^ exponent := rfl

namespace Decimal

theorem numerator_eq (d : Decimal) : d.numerator = d.digits * 10 ^ d.exponent.toNat := rfl

theorem denominator_eq (d : Decimal) : d.denominator = 10 ^ (-d.exponent).toNat := rfl

/-- Two forms of one number. -/
def Same (d e : Decimal) : Prop := d.numerator * e.denominator = e.numerator * d.denominator

theorem denominator_pos (d : Decimal) : 0 < d.denominator := Nat.pow_pos (by decide)

theorem Same.refl (d : Decimal) : d.Same d := rfl

theorem Same.symm {d e : Decimal} (same : d.Same e) : e.Same d := Eq.symm same

theorem Same.trans {d e f : Decimal} (left : d.Same e) (right : e.Same f) : d.Same f := by
  refine Nat.eq_of_mul_eq_mul_right e.denominator_pos ?_
  calc d.numerator * f.denominator * e.denominator
      = d.numerator * e.denominator * f.denominator := Nat.mul_right_comm _ _ _
    _ = e.numerator * d.denominator * f.denominator := by rw [left]
    _ = e.numerator * f.denominator * d.denominator := Nat.mul_right_comm _ _ _
    _ = f.numerator * e.denominator * d.denominator := by rw [right]
    _ = f.numerator * d.denominator * e.denominator := Nat.mul_right_comm _ _ _

/-- Zeros at the end of the digits make up for a lower exponent. -/
theorem same_shift (digits zeros : Nat) (exponent : Int) :
    Same ⟨digits * 10 ^ zeros, exponent - zeros⟩ ⟨digits, exponent⟩ := by
  have powers : zeros + ((exponent - zeros).toNat + (-exponent).toNat)
      = exponent.toNat + (-(exponent - zeros)).toNat := by omega
  simp only [Same, numerator_eq, denominator_eq]
  rw [Nat.mul_assoc, Nat.mul_assoc, Nat.mul_assoc, ← Nat.pow_add, ← Nat.pow_add, ← Nat.pow_add,
    powers]

/-! ## Normalization -/

theorem same_dropZeros (digits : Nat) (exponent : Int) :
    (dropZeros digits exponent).Same ⟨digits, exponent⟩ := by
  induction digits, exponent using dropZeros.induct with
  | case1 digits exponent zeros ih =>
      have shift := same_shift (digits / 10) 1 (exponent + 1)
      have tens : digits / 10 * 10 ^ 1 = digits := by omega
      have back : exponent + 1 - (1 : Nat) = exponent := by omega
      rw [tens, back] at shift
      rw [dropZeros, if_pos zeros]
      exact ih.trans shift.symm
  | case2 digits exponent last =>
      rw [dropZeros, if_neg last]
      exact .refl _

theorem same_normalize (d : Decimal) : d.normalize.Same d := by
  unfold normalize
  split
  · rename_i zero
    simp [Same, numerator_eq, zero]
  · exact same_dropZeros d.digits d.exponent

end Decimal

namespace Numeral

/-! ## Notations -/

theorem value_positional (leastPlaces : Nat) (negative : Bool) (d : Decimal) :
    (positional leastPlaces negative d).value.Same d := by
  obtain ⟨digits, exponent⟩ := d
  have shift := Decimal.same_shift digits
    (exponent.toNat + (leastPlaces - (-exponent).toNat)) exponent
  have places : exponent - (exponent.toNat + (leastPlaces - (-exponent).toNat) : Nat)
      = 0 - (max (-exponent).toNat leastPlaces : Nat) := by omega
  rw [places] at shift
  simpa only [positional, value, natPow_eq, digitsValue_div_lastDigits, length_lastDigits,
    Option.getD_none] using shift

theorem value_scientific (negative : Bool) (d : Decimal) : (scientific negative d).value = d := by
  simp [scientific, value, digitsValue_div_lastDigits, leadingExponent]

end Numeral

end QuantumCircuit
