import QuantumCircuit.Binary64.Rounding

/-!
# The fewest digits that read back

Among the decimals that round to a given magnitude, `shortest` returns one with the
fewest digits, and of those the nearest to the exact value.  With `n` digits only
the two neighbours of the exact value on the grid of `n`-digit decimals matter: if
any point of the grid lies in the interval that rounds to the magnitude, so does
one of them.  The grids are tried from the coarsest to the finest.

Seventeen digits always suffice.  The exact expansion, which is finite because 2⁻¹⁰⁷⁴
is 5¹⁰⁷⁴ · 10⁻¹⁰⁷⁴, stands in for the case that no grid answers, so that what is
returned rounds to the magnitude whatever the grids do.
-/

namespace QuantumCircuit.Binary64

set_option autoImplicit false

/-- Which of two equally near decimals of the same length is written. -/
inductive TieRule where
  | toEven
  | awayFromZero
  deriving DecidableEq

/-- The value of a magnitude in units of 10⁻¹⁰⁷⁴. -/
def exactDigits (k : Nat) : Nat := scaled k * Nat.pow 5 1074

/-- Whether the lower of two neighbouring grid points is written when both round to
the number: `rest` is the distance to the lower one on a grid of width `width`. -/
def TieRule.takesLower (tie : TieRule) (below rest width : Nat) : Bool :=
  if 2 * rest = width then
    match tie with
    | .toEven => below % 2 == 0
    | .awayFromZero => false
  else 2 * rest < width

/-- The best decimal for magnitude `k` on the grid of multiples of
`10 ^ (dropped - 1074)`, if one of them rounds to it. -/
def onGrid? (tie : TieRule) (k dropped : Nat) : Option Decimal :=
  let width := Nat.pow 10 dropped
  let below := exactDigits k / width
  let rest := exactDigits k % width
  let lower : Decimal := ⟨below, dropped - 1074⟩
  let upper : Decimal := ⟨below + 1, dropped - 1074⟩
  match roundsTo lower k, roundsTo upper k with
  | true, true => some (if tie.takesLower below rest width then lower else upper)
  | true, false => some lower
  | false, true => some upper
  | false, false => none

/-- **The shortest decimal that rounds to a magnitude.** -/
def shortest (tie : TieRule) (k : Nat) : Decimal :=
  let size := (Nat.toDigits 10 (exactDigits k)).length
  let found := (List.range 17).findSome? fun i => onGrid? tie k (size - (i + 1))
  (found.getD ⟨exactDigits k, -1074⟩).normalize

end QuantumCircuit.Binary64
