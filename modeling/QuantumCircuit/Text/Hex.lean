/-!
# Hexadecimal digits

Escapes in texts write the code of a character with hexadecimal digits.  They are written
in lower case and read in either case.
-/

namespace QuantumCircuit

set_option autoImplicit false

/-- The last hexadecimal digit of a number. -/
def hexDigit (n : Nat) : Char := Nat.digitChar (n % 16)

/-- The value of a hexadecimal digit. -/
def hexValue? (c : Char) : Option Nat :=
  if '0' ≤ c ∧ c ≤ '9' then some (c.toNat - '0'.toNat)
  else if 'a' ≤ c ∧ c ≤ 'f' then some (c.toNat - 'a'.toNat + 10)
  else if 'A' ≤ c ∧ c ≤ 'F' then some (c.toNat - 'A'.toNat + 10)
  else none

end QuantumCircuit
