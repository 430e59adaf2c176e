/-!
# Double-precision numbers

A double-precision number is a sign and a magnitude.  The magnitude is a place in
one increasing list that starts 0, 2⁻¹⁰⁷⁴, 2 · 2⁻¹⁰⁷⁴, …, runs through the
subnormal and the normal numbers, reaches infinity at place 2047 · 2⁵² and ends in
the encodings that are not numbers.  It is what the 63 low bits of the encoding
count, so two values are equal as Lean terms exactly when their encodings are the
same word.  In particular zero and negative zero are different values here; the
comparison that identifies them is `numericallyEqual`.

Finite magnitudes have a value, which `scaled` gives as a natural number of units
of 2⁻¹⁰⁷⁴.  No arithmetic on rounded numbers is needed anywhere: reading and
writing decimals works with these exact integers.  Powers are written `Nat.pow`, which
is the same term whether or not algebra is imported beside these definitions.
-/

namespace QuantumCircuit

set_option autoImplicit false

/-- A double-precision number, or an infinity, or an encoding that is no number. -/
structure Binary64 where
  negative : Bool
  magnitude : Nat
  magnitude_lt : magnitude < Nat.pow 2 63
  deriving DecidableEq

namespace Binary64

/-! ## Magnitudes and the values they stand for -/

/-- The place of infinity in the list of magnitudes. -/
def infiniteMagnitude : Nat := 2047 * Nat.pow 2 52

/-- The value of a magnitude in units of 2⁻¹⁰⁷⁴.  The low 52 bits are a fraction and
the bits above them an exponent; only the lowest exponent has no leading one. -/
def scaled (k : Nat) : Nat :=
  if k < Nat.pow 2 52 then k
  else (Nat.pow 2 52 + k % Nat.pow 2 52) * Nat.pow 2 (k / Nat.pow 2 52 - 1)

theorem infiniteMagnitude_lt : infiniteMagnitude < Nat.pow 2 63 := by decide

/-! ## Special values -/

/-- The infinity of the given sign. -/
def infinity (negative : Bool) : Binary64 :=
  ⟨negative, infiniteMagnitude, infiniteMagnitude_lt⟩

/-- The quiet encoding that is no number. -/
def notANumber (negative : Bool) : Binary64 :=
  ⟨negative, infiniteMagnitude + Nat.pow 2 51, by decide⟩

/-- Whether a magnitude comes before infinity. -/
def isFinite (x : Binary64) : Bool := x.magnitude < infiniteMagnitude

/-- Whether a magnitude comes after infinity. -/
def isNaN (x : Binary64) : Bool := infiniteMagnitude < x.magnitude

/-! ## Sign, encoding and comparison -/

/-- The number with the opposite sign; zero changes its sign too. -/
def negate (x : Binary64) : Binary64 := { x with negative := !x.negative }

/-- The 64-bit encoding: the sign above the 63 bits of the magnitude. -/
def encoding (x : Binary64) : Nat := (if x.negative then Nat.pow 2 63 else 0) + x.magnitude

/-- Equality of values: the two zeros are equal, and what is no number differs even
from itself. -/
def numericallyEqual (x y : Binary64) : Bool :=
  !x.isNaN && !y.isNaN && (x == y || x.magnitude == 0 && y.magnitude == 0)

@[simp] theorem negate_negate (x : Binary64) : x.negate.negate = x := by
  simp [negate]

@[simp] theorem isFinite_negate (x : Binary64) : x.negate.isFinite = x.isFinite := rfl

theorem encoding_injective {x y : Binary64} (h : x.encoding = y.encoding) : x = y := by
  obtain ⟨sx, mx, hx⟩ := x
  obtain ⟨sy, my, hy⟩ := y
  have boundX : mx < 0x8000000000000000 := hx
  have boundY : my < 0x8000000000000000 := hy
  have same : (if sx then 0x8000000000000000 else 0) + mx
      = (if sy then 0x8000000000000000 else 0) + my := h
  cases sx <;> cases sy <;> simp at same ⊢ <;> omega

end Binary64

end QuantumCircuit
