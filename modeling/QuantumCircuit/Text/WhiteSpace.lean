/-!
# White space and letter case

`isWhiteSpace` is the Unicode property White_Space, which has twenty-five members.
Trimming takes them off both ends of a text.  `Char.toLower` changes the case of ASCII
letters and of nothing else, which is all that the policy words need.
-/

namespace QuantumCircuit

set_option autoImplicit false

/-- The ranges of the Unicode property White_Space. -/
def whiteSpaceRanges : List (Nat × Nat) :=
  [(0x09, 0x0d), (0x20, 0x20), (0x85, 0x85), (0xa0, 0xa0), (0x1680, 0x1680), (0x2000, 0x200a),
    (0x2028, 0x2029), (0x202f, 0x202f), (0x205f, 0x205f), (0x3000, 0x3000)]

/-- Whether a character has the Unicode property White_Space. -/
def isWhiteSpace (c : Char) : Bool :=
  whiteSpaceRanges.any fun (first, last) => first ≤ c.toNat && c.toNat ≤ last

/-- A text without the white space at its ends. -/
def trimChars (cs : List Char) : List Char :=
  ((cs.dropWhile isWhiteSpace).reverse.dropWhile isWhiteSpace).reverse

end QuantumCircuit
