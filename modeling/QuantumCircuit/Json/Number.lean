import QuantumCircuit.Binary64.Text

/-!
# Reading the numbers of JSON

JSON fixes how numbers are written, not how exactly they are read.  A reader may round
once, to the nearest double-precision number.  It may also round on the way, first the
digits and then their quotient by a power of ten, and then some numerals are read as a
neighbour of the nearest number.  A numeral beyond the largest finite number is read by
neither.

So whatever reads numbers from JSON takes the reader as a parameter.  That a reader
rounds correctly is said where it is needed (`NumberReader.RoundsCorrectly`); `nearest`
is a reader that does.
-/

namespace QuantumCircuit.Json

set_option autoImplicit false

/-- A way to read the numbers of JSON: the number that a numeral is read as, if it is read. -/
structure NumberReader where
  read? : Numeral → Option Binary64

namespace NumberReader

/-- Reads a numeral as the nearest number, and not at all if that is infinite. -/
def nearest : NumberReader where
  read? n :=
    let x := Binary64.ofNumeral n
    if x.isFinite then some x else none

/-- **Correct rounding**: a numeral with a finite nearest number is read as that number. -/
def RoundsCorrectly (numbers : NumberReader) : Prop :=
  ∀ n, (Binary64.ofNumeral n).isFinite = true → numbers.read? n = some (Binary64.ofNumeral n)

theorem nearest_eq_some_iff {n : Numeral} {x : Binary64} :
    nearest.read? n = some x ↔ Binary64.ofNumeral n = x ∧ x.isFinite = true := by
  simp only [nearest, Option.ite_none_right_eq_some, Option.some.injEq]
  constructor
  · rintro ⟨finite, rfl⟩
    exact ⟨rfl, finite⟩
  · rintro ⟨rfl, finite⟩
    exact ⟨finite, rfl⟩

theorem nearest_roundsCorrectly : nearest.RoundsCorrectly :=
  fun _ finite => nearest_eq_some_iff.mpr ⟨rfl, finite⟩

end NumberReader

end QuantumCircuit.Json
