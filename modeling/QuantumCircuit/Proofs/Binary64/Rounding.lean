import Mathlib.Order.Monotone.Basic
import QuantumCircuit.Binary64.Rounding
import QuantumCircuit.Proofs.Decimal.Value

/-!
# What rounding returns

The magnitudes increase, so the numbers that round to at most `k` are those below a middle
that increases with `k`.  The test is therefore monotone, the search finds the least `k` that
passes it, and a decimal is rounded to every finite magnitude that the test singles out
(`nearestDecimal_of_roundsTo`).  The cut-offs at both ends agree with the test.

Whether a decimal rounds to a magnitude depends on its value and not on how its zeros are
written (`roundsTo_congr`).
-/

namespace QuantumCircuit.Binary64

set_option autoImplicit false

/-! ## Magnitudes increase -/

theorem scaled_eq (k : Nat) :
    scaled k = if k < 2 ^ 52 then k else (2 ^ 52 + k % 2 ^ 52) * 2 ^ (k / 2 ^ 52 - 1) := rfl

theorem scaled_normal (exponent fraction : Nat) (small : fraction < 2 ^ 52) :
    scaled ((exponent + 1) * 2 ^ 52 + fraction) = (2 ^ 52 + fraction) * 2 ^ exponent := by
  have normal : ¬ (exponent + 1) * 2 ^ 52 + fraction < 2 ^ 52 := by omega
  have above : ((exponent + 1) * 2 ^ 52 + fraction) / 2 ^ 52 = exponent + 1 := by omega
  have below : ((exponent + 1) * 2 ^ 52 + fraction) % 2 ^ 52 = fraction := by omega
  rw [scaled_eq, if_neg normal, above, below, Nat.add_sub_cancel]

/-- The magnitudes whose fraction is zero are the powers of two. -/
theorem scaled_power (exponent : Nat) : scaled ((exponent + 1) * 2 ^ 52) = 2 ^ (52 + exponent) := by
  rw [Nat.pow_add, ← Nat.add_zero ((exponent + 1) * 2 ^ 52), scaled_normal exponent 0 (by decide),
    Nat.add_zero (2 ^ 52)]

theorem scaled_lt_succ (k : Nat) : scaled k < scaled (k + 1) := by
  rcases Nat.lt_or_ge k (2 ^ 52) with subnormal | normal
  · rcases Nat.lt_or_ge (k + 1) (2 ^ 52) with next | last
    · rw [scaled_eq, scaled_eq, if_pos subnormal, if_pos next]
      omega
    · obtain rfl : k = 2 ^ 52 - 1 := by omega
      decide
  · obtain ⟨exponent, fraction, small, rfl⟩ :
        ∃ exponent fraction, fraction < 2 ^ 52 ∧ k = (exponent + 1) * 2 ^ 52 + fraction :=
      ⟨k / 2 ^ 52 - 1, k % 2 ^ 52, Nat.mod_lt _ (by decide), by omega⟩
    have power : 0 < 2 ^ exponent := Nat.pow_pos (by decide)
    rw [scaled_normal exponent fraction small]
    rcases Nat.lt_or_ge (fraction + 1) (2 ^ 52) with next | last
    · rw [Nat.add_assoc, scaled_normal exponent (fraction + 1) next]
      exact Nat.mul_lt_mul_of_pos_right (by omega) power
    · have carry : (exponent + 1) * 2 ^ 52 + fraction + 1 = (exponent + 1 + 1) * 2 ^ 52 + 0 := by
        omega
      rw [carry, scaled_normal (exponent + 1) 0 (by decide), Nat.pow_succ 2 exponent,
        Nat.mul_comm (2 ^ exponent), ← Nat.mul_assoc]
      exact Nat.mul_lt_mul_of_pos_right (by omega) power

theorem scaled_strictMono : StrictMono scaled := strictMono_nat_of_lt_succ scaled_lt_succ

/-! ## Middles between magnitudes -/

/-- The middle between a magnitude and the next one, in units half as large. -/
def middle (k : Nat) : Nat := scaled k + scaled (k + 1)

theorem middle_strictMono : StrictMono middle :=
  strictMono_nat_of_lt_succ fun k => Nat.add_lt_add (scaled_lt_succ k) (scaled_lt_succ (k + 1))

/-- A decimal that rounds to magnitude `k` or a smaller one. -/
def AtMost (d : Decimal) (k : Nat) : Prop := roundsBelow d.numerator d.denominator k = true

variable {d e : Decimal} {i j k : Nat}

theorem atMost_iff :
    AtMost d k ↔ if k % 2 = 0 then d.numerator * 2 ^ 1075 ≤ d.denominator * middle k
      else d.numerator * 2 ^ 1075 < d.denominator * middle k := by
  unfold AtMost roundsBelow middle
  -- as a variable the exponent is not evaluated
  generalize 1075 = unit
  split <;> exact decide_eq_true_iff

theorem AtMost.le (atMost : AtMost d k) : d.numerator * 2 ^ 1075 ≤ d.denominator * middle k := by
  rw [atMost_iff] at atMost
  split at atMost
  · exact atMost
  · exact Nat.le_of_lt atMost

theorem AtMost.of_lt (below : d.numerator * 2 ^ 1075 < d.denominator * middle k) :
    AtMost d k := by
  rw [atMost_iff]
  split
  · exact Nat.le_of_lt below
  · exact below

theorem AtMost.mono (atMost : AtMost d i) (le : i ≤ j) : AtMost d j := by
  rcases Nat.eq_or_lt_of_le le with rfl | lt
  · exact atMost
  · have wider := Nat.mul_lt_mul_of_pos_left (middle_strictMono lt) d.denominator_pos
    exact .of_lt (Nat.lt_of_le_of_lt atMost.le wider)

/-- A comparison of a decimal with a multiple of a unit depends on its value only. -/
theorem compare_congr (same : d.Same e) (unit m : Nat) :
    (d.numerator * unit ≤ d.denominator * m ↔ e.numerator * unit ≤ e.denominator * m) ∧
      (d.numerator * unit < d.denominator * m ↔ e.numerator * unit < e.denominator * m) := by
  have scaled_d : e.denominator * (d.numerator * unit)
      = d.denominator * (e.numerator * unit) := by
    calc e.denominator * (d.numerator * unit) = d.numerator * e.denominator * unit := by
          rw [← Nat.mul_assoc, Nat.mul_comm e.denominator]
      _ = e.numerator * d.denominator * unit := by rw [same]
      _ = d.denominator * (e.numerator * unit) := by
          rw [← Nat.mul_assoc, Nat.mul_comm e.numerator]
  have crossed : e.denominator * (d.denominator * m) = d.denominator * (e.denominator * m) :=
    Nat.mul_left_comm _ _ _
  constructor
  · rw [← Nat.mul_le_mul_left_iff e.denominator_pos, scaled_d, crossed,
      Nat.mul_le_mul_left_iff d.denominator_pos]
  · rw [← Nat.mul_lt_mul_left e.denominator_pos, scaled_d, crossed,
      Nat.mul_lt_mul_left d.denominator_pos]

theorem atMost_congr (same : d.Same e) : AtMost d k ↔ AtMost e k := by
  rw [atMost_iff, atMost_iff]
  split
  · exact (compare_congr same _ _).1
  · exact (compare_congr same _ _).2

theorem roundsTo_iff : roundsTo d k = true ↔ AtMost d k ∧ ∀ j < k, ¬ AtMost d j := by
  rw [roundsTo, Bool.and_eq_true, Bool.or_eq_true, beq_iff_eq, Bool.not_eq_true',
    ← Bool.not_eq_true]
  refine and_congr_right fun _ => ⟨?_, ?_⟩
  · rintro (rfl | above) j lt
    · exact absurd lt (Nat.not_lt_zero j)
    · exact fun atMost => above (atMost.mono (by omega))
  · intro least
    rcases Nat.eq_zero_or_pos k with zero | pos
    · exact .inl zero
    · exact .inr (least (k - 1) (by omega))

theorem roundsTo_congr (same : d.Same e) : roundsTo d k = roundsTo e k := by
  rw [Bool.eq_iff_iff, roundsTo_iff, roundsTo_iff]
  simp only [atMost_congr same]

/-! ## The search -/

/-- A monotone test that holds at `k` and not before is found to hold at `k`. -/
theorem least_eq {test : Nat → Bool} (monotone : ∀ i j, i ≤ j → test i = true → test j = true)
    (holds : test k = true) (first : ∀ j < k, ¬ test j = true) (bits low : Nat)
    (above : low ≤ k) (below : k < low + 2 ^ bits) : least test bits low = k := by
  induction bits generalizing low with
  | zero =>
      rw [least]
      omega
  | succ bits ih =>
      have halves : 2 ^ (bits + 1) = 2 ^ bits + 2 ^ bits := by
        rw [Nat.pow_succ, Nat.mul_two]
      have power : 0 < 2 ^ bits := Nat.pow_pos (by decide)
      rw [least]
      split
      · rename_i lower
        have inside : k ≤ low + 2 ^ bits - 1 := Nat.not_lt.mp fun lt => first _ lt lower
        exact ih low above (by omega)
      · rename_i upper
        have outside : ¬ k ≤ low + 2 ^ bits - 1 := fun le => upper (monotone _ _ le holds)
        exact ih (low + 2 ^ bits) (by omega) (by omega)

theorem nearest_of_roundsTo (rounds : roundsTo d k = true) (finite : k < infiniteMagnitude) :
    nearest d.numerator d.denominator = k := by
  obtain ⟨atMost, first⟩ := roundsTo_iff.mp rounds
  have monotone (i j : Nat) (le : i ≤ j) (below : AtMost d i) : AtMost d j := below.mono le
  have bounded : k < 0 + 2 ^ 63 := by
    rw [Nat.zero_add]
    exact Nat.lt_trans finite infiniteMagnitude_lt
  have found := least_eq monotone atMost first 63 0 (Nat.zero_le k) bounded
  rw [nearest, found]
  exact Nat.min_eq_left (Nat.le_of_lt finite)

/-! ## The cut-offs -/

/-- The middles between finite magnitudes stay below the power of two after the last of them. -/
theorem middle_lt (finite : k < infiniteMagnitude) :
    middle k < scaled infiniteMagnitude + scaled infiniteMagnitude :=
  Nat.add_lt_add_of_lt_of_le (scaled_strictMono finite)
    (scaled_strictMono.monotone (Nat.succ_le_of_lt finite))

theorem two_pow_le_ten_pow (n : Nat) : 2 ^ (3 * n) ≤ 10 ^ n := by
  rw [Nat.pow_mul]
  exact Nat.pow_le_pow_left (by decide) n

theorem double_le_of_ten_pow_le {tens m : Nat} (large : 10 ^ tens ≤ m) (bits unit : Nat)
    (places : bits + 1 ≤ 3 * tens + unit) : 2 ^ bits + 2 ^ bits ≤ m * 2 ^ unit := by
  calc 2 ^ bits + 2 ^ bits = 2 ^ (bits + 1) := (Nat.two_pow_succ bits).symm
    _ ≤ 2 ^ (3 * tens + unit) := Nat.pow_le_pow_right (by decide) places
    _ = 2 ^ (3 * tens) * 2 ^ unit := Nat.pow_add 2 _ _
    _ ≤ m * 2 ^ unit := Nat.mul_le_mul_right _ (Nat.le_trans (two_pow_le_ten_pow tens) large)

theorem mul_two_pow_lt_ten_pow {m bits tens : Nat} (small : m < 2 ^ bits) (unit : Nat)
    (places : bits + unit ≤ 3 * tens) : m * 2 ^ unit < 10 ^ tens := by
  calc m * 2 ^ unit < 2 ^ bits * 2 ^ unit :=
        Nat.mul_lt_mul_of_pos_right small (Nat.pow_pos (by decide))
    _ = 2 ^ (bits + unit) := (Nat.pow_add 2 _ _).symm
    _ ≤ 2 ^ (3 * tens) := Nat.pow_le_pow_right (by decide) places
    _ ≤ 10 ^ tens := two_pow_le_ten_pow tens

theorem not_atMost_of_large (digits : d.digits ≠ 0) (large : 400 < d.exponent)
    (finite : k < infiniteMagnitude) : ¬ AtMost d k := by
  intro atMost
  have whole : d.denominator = 1 := by
    have none : (-d.exponent).toNat = 0 := by omega
    rw [Decimal.denominator_eq, none, Nat.pow_zero]
  have infinite : scaled infiniteMagnitude = 2 ^ (52 + 2046) := scaled_power 2046
  have passed : 10 ^ d.exponent.toNat ≤ d.numerator :=
    Nat.le_mul_of_pos_left _ (Nat.pos_of_ne_zero digits)
  have beyond := double_le_of_ten_pow_le passed (52 + 2046) 1075 (by omega)
  have reached := atMost.le
  rw [← infinite] at beyond
  rw [whole, Nat.one_mul] at reached
  exact absurd (middle_lt finite) (Nat.not_lt.mpr (Nat.le_trans beyond reached))

theorem atMost_of_small (small : d.exponent < -(d.digits.log2 + 400 : Nat)) : AtMost d 0 := by
  have plain : d.numerator = d.digits := by
    have none : d.exponent.toNat = 0 := by omega
    rw [Decimal.numerator_eq, none, Nat.pow_zero, Nat.mul_one]
  have unit : middle 0 = 1 := by decide
  have below := mul_two_pow_lt_ten_pow (Nat.lt_log2_self (n := d.digits)) 1075
    (show d.digits.log2 + 1 + 1075 ≤ 3 * (-d.exponent).toNat by omega)
  refine .of_lt ?_
  rw [plain, unit, Nat.mul_one]
  exact below

/-- **A decimal is rounded to the magnitude that the test singles out.** -/
theorem nearestDecimal_of_roundsTo (rounds : roundsTo d k = true)
    (finite : k < infiniteMagnitude) : nearestDecimal d = k := by
  obtain ⟨atMost, first⟩ := roundsTo_iff.mp rounds
  have zero_of_atMost (below : AtMost d 0) : 0 = k := by
    rcases Nat.eq_zero_or_pos k with zero | pos
    · exact zero.symm
    · exact absurd below (first 0 pos)
  unfold nearestDecimal
  split
  · rename_i zero
    refine zero_of_atMost (.of_lt ?_)
    rw [Decimal.numerator, zero]
    generalize 2 ^ 1075 = unit
    rw [Nat.zero_mul, Nat.zero_mul]
    exact Nat.mul_pos d.denominator_pos (by decide)
  · rename_i digits
    split
    · rename_i large
      exact absurd atMost (not_atMost_of_large digits large finite)
    · split
      · rename_i small
        exact zero_of_atMost (atMost_of_small small)
      · exact nearest_of_roundsTo rounds finite

end QuantumCircuit.Binary64
