import QuantumCircuit.Binary64.Text
import QuantumCircuit.Proofs.Binary64.Rounding

/-!
# Written numbers are read back

The shortest decimal for a magnitude rounds to it: a candidate of a grid was tested before it
was taken, and the exact expansion lies between the two middles around the magnitude.  Both
written forms have the value of that decimal and keep the sign, so reading either gives back
the number itself, negative zero and subnormal numbers among them.
-/

namespace QuantumCircuit.Binary64

set_option autoImplicit false

/-! ## The shortest decimal rounds -/

/-- A multiple of a negative power of two is compared with the middles as a whole number. -/
theorem numerator_fives {digits m places unit : Nat} {exponent : Int}
    (fives : digits = m * 5 ^ places) (below : exponent = -(places : Int))
    (next : unit = places + 1) :
    Decimal.numerator ⟨digits, exponent⟩ * 2 ^ unit
      = Decimal.denominator ⟨digits, exponent⟩ * (m + m) := by
  subst fives below next
  have whole : (-(places : Int)).toNat = 0 := by omega
  have back : (- -(places : Int)).toNat = places := by omega
  have tens : 10 ^ places = 2 ^ places * 5 ^ places := Nat.mul_pow 2 5 places
  simp only [Decimal.numerator_eq, Decimal.denominator_eq, whole, back, tens, Nat.pow_zero,
    Nat.mul_one]
  rw [Nat.pow_succ, ← Nat.mul_two m, Nat.mul_comm m (5 ^ places),
    Nat.mul_comm (2 ^ places) (5 ^ places), Nat.mul_mul_mul_comm]

theorem exactDigits_compare (k : Nat) :
    Decimal.numerator ⟨exactDigits k, -1074⟩ * 2 ^ 1075
      = Decimal.denominator ⟨exactDigits k, -1074⟩ * (scaled k + scaled k) := by
  have fives : exactDigits k = scaled k * 5 ^ 1074 := by
    unfold exactDigits
    -- as a variable the exponent is not evaluated
    generalize 1074 = places
    rfl
  have lowest : (-1074 : Int) = -((1074 : Nat) : Int) := rfl
  have unit : 1075 = 1074 + 1 := rfl
  have compared := numerator_fives fives lowest unit
  exact compared

theorem roundsTo_exact (k : Nat) : roundsTo ⟨exactDigits k, -1074⟩ k = true := by
  have exact_value := exactDigits_compare k
  rw [roundsTo_iff]
  constructor
  · refine .of_lt ?_
    rw [exact_value]
    exact Nat.mul_lt_mul_of_pos_left (Nat.add_lt_add_left (scaled_lt_succ k) _)
      (Decimal.denominator_pos _)
  · intro j lt atMost
    have below : middle j < scaled k + scaled k :=
      Nat.add_lt_add_of_lt_of_le (scaled_strictMono lt) (scaled_strictMono.monotone lt)
    have reached := atMost.le
    rw [exact_value] at reached
    exact absurd reached
      (Nat.not_le.mpr (Nat.mul_lt_mul_of_pos_left below (Decimal.denominator_pos _)))

theorem roundsTo_onGrid {tie : TieRule} {k dropped : Nat} {d : Decimal}
    (found : onGrid? tie k dropped = some d) : roundsTo d k = true := by
  simp only [onGrid?] at found
  split at found
  · rename_i lower upper
    split at found <;> cases found
    · exact lower
    · exact upper
  · rename_i lower _
    cases found
    exact lower
  · rename_i _ upper
    cases found
    exact upper
  · cases found

/-- **The shortest decimal for a magnitude rounds to it.** -/
theorem roundsTo_shortest (tie : TieRule) (k : Nat) : roundsTo (shortest tie k) k = true := by
  unfold shortest
  dsimp only
  rw [roundsTo_congr (Decimal.same_normalize _)]
  cases grids : (List.range 17).findSome? fun i =>
      onGrid? tie k ((Nat.toDigits 10 (exactDigits k)).length - (i + 1)) with
  | none => exact roundsTo_exact k
  | some d =>
      obtain ⟨i, _, found⟩ := List.exists_of_findSome?_eq_some grids
      exact roundsTo_onGrid found

/-! ## Both forms are read back -/

theorem ofNumeral_of_shortest {x : Binary64} (finite : x.isFinite = true) (tie : TieRule)
    {n : Numeral} (sign : n.negative = x.negative)
    (same : n.value.Same (shortest tie x.magnitude)) : ofNumeral n = x := by
  have rounds : roundsTo n.value x.magnitude = true := by
    rw [roundsTo_congr same]
    exact roundsTo_shortest tie x.magnitude
  have nearest := nearestDecimal_of_roundsTo rounds (of_decide_eq_true finite)
  obtain ⟨negative, magnitude, magnitude_lt⟩ := x
  simp only [ofNumeral, ofDecimal, nearest, sign]

/-- **The JSON form of a finite number is read as that number**, in either notation. -/
theorem ofNumeral_jsonNumeral {x : Binary64} (finite : x.isFinite = true) :
    ofNumeral x.jsonNumeral = x := by
  unfold jsonNumeral
  dsimp only
  split
  · exact ofNumeral_of_shortest finite _ rfl (Numeral.value_positional _ _ _)
  · refine ofNumeral_of_shortest finite .toEven rfl ?_
    rw [Numeral.value_scientific]
    exact .refl _

/-- The plain form of a finite number is read as that number. -/
theorem ofNumeral_plainNumeral {x : Binary64} (finite : x.isFinite = true) :
    ofNumeral x.plainNumeral = x :=
  ofNumeral_of_shortest finite _ rfl (Numeral.value_positional _ _ _)

/-! ## The characters of the plain form -/

theorem mem_plainNumeral {x : Binary64} {c : Char} (member : c ∈ x.plainNumeral.chars) :
    c.isDigit = true ∨ c = '-' ∨ c = '.' :=
  Numeral.mem_chars rfl member

/-- Finite numbers with the same plain form are the same, sign of zero included. -/
theorem plainNumeral_inj {x y : Binary64} (finite_x : x.isFinite = true)
    (finite_y : y.isFinite = true) : x.plainNumeral.chars = y.plainNumeral.chars ↔ x = y := by
  rw [Numeral.chars_inj]
  constructor
  · intro same
    rw [← ofNumeral_plainNumeral finite_x, same, ofNumeral_plainNumeral finite_y]
  · rintro rfl
    rfl

theorem zero_lt : 0 < Nat.pow 2 63 := by decide

/-- Zero of the given sign; the two differ in their plain forms too. -/
def zero (negative : Bool) : Binary64 := ⟨negative, 0, zero_lt⟩

end QuantumCircuit.Binary64
