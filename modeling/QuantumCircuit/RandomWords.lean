/-!
# Drawing from random words

A random source is a list of 64-bit words, followed by zeros without end.  A number
below `n` is drawn by multiplying a word with `n` and taking what overflows the word.
The low part of the product tells whether the word is one of those that would favour
some numbers; such a word is dropped and the next one taken.

The word zero is never dropped, so a draw ends at the latest with the first word past
the list.
-/

namespace QuantumCircuit

set_option autoImplicit false

/-- A drawn number, the words left, and how many words were taken. -/
structure Draw where
  value : Nat
  rest : List UInt64
  taken : Nat

namespace Draw

/-- Draws below `n` with words cut to numbers below `range`, accepting a word when the
low part of its product is at most `zone`. -/
def below (range zone n : Nat) : List UInt64 → Draw
  | [] => ⟨0, [], 1⟩
  | word :: rest =>
    let product := word.toNat % range * n
    if product % range ≤ zone then ⟨product / range, rest, 1⟩
    else
      let draw := below range zone n rest
      { draw with taken := draw.taken + 1 }

/-- A place in a sequence of `n` members, drawn from whole words. -/
def index (n : Nat) (words : List UInt64) : Draw :=
  below UInt64.size (n * Nat.pow 2 (63 - n.log2) - 1) n words

/-- One of three cases, drawn from the low halves of the words. -/
def ofThree (words : List UInt64) : Draw := below UInt32.size (UInt32.size - 2) 3 words

end Draw

end QuantumCircuit
