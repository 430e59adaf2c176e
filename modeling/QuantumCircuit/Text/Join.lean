/-!
# Rows with a separator

`joinWith` writes the members of a list one after the other with a separator between
neighbours and none at the ends.  Target lists and circuit texts are such rows.
-/

namespace QuantumCircuit

set_option autoImplicit false

/-- The members of a list with a separator between neighbours. -/
def joinWith (separator : Char) : List (List Char) → List Char
  | [] => []
  | [x] => x
  | x :: y :: rest => x ++ separator :: joinWith separator (y :: rest)

end QuantumCircuit
