import QuantumCircuit.Decimal.Basic

/-!
# Numerals

A numeral is a number as it is written: a sign, a whole part, the digits after the
point and a power of ten.  It keeps what the value forgets, so that a reader can
tell `0` from `-0`, `0.0` and `0e0`.

`Numeral.chars` writes a numeral and `Numeral.read?` reads the longest one at the
front of a text.  A numeral that is read has no superfluous zero at the front, at
least one digit on each side of a point and at least one in an exponent; that is the
notation of JSON numbers.
-/

namespace QuantumCircuit

set_option autoImplicit false

/-! ## Digits -/

/-- The value of a decimal digit. -/
def digit? (c : Char) : Option (Fin 10) :=
  if h : '0'.val ≤ c.val ∧ c.val ≤ '9'.val then
    some ⟨(c.val - '0'.val).toNat, by
      obtain ⟨h₀, h₉⟩ := h
      have h₀ : '0'.val.toNat ≤ c.val.toNat := UInt32.le_iff_toNat_le.mp h₀
      have h₉ : c.val.toNat ≤ '9'.val.toNat := UInt32.le_iff_toNat_le.mp h₉
      rw [UInt32.toNat_sub_of_le _ _ (UInt32.le_iff_toNat_le.mpr h₀)]
      change c.val.toNat - 48 < 10
      change c.val.toNat ≤ 57 at h₉
      omega⟩
  else none

/-- The character that writes a digit. -/
def digitChar (d : Fin 10) : Char := Nat.digitChar d.val

/-- Reads digits up to the first character that is none. -/
def readDigits : List Char → List (Fin 10) × List Char
  | [] => ([], [])
  | c :: rest =>
    match digit? c with
    | some d => (d :: (readDigits rest).1, (readDigits rest).2)
    | none => ([], c :: rest)

/-- The number that a row of digits writes, after the number already read. -/
def digitsValue (before : Nat) : List (Fin 10) → Nat
  | [] => before
  | d :: rest => digitsValue (10 * before + d.val) rest

/-- The last `places` digits of a number, padded with zeros. -/
def lastDigits : (places : Nat) → Nat → List (Fin 10)
  | 0, _ => []
  | places + 1, n => lastDigits places (n / 10) ++ [⟨n % 10, Nat.mod_lt _ (by decide)⟩]

/-! ## Numerals and their values -/

/-- A number as it is written; `whole` is in front of the point, and an exponent may be
missing. -/
structure Numeral where
  negative : Bool
  whole : Nat
  fraction : List (Fin 10)
  exponent : Option Int
  deriving DecidableEq

namespace Numeral

/-- The numeral of a natural number. -/
def ofNat (n : Nat) : Numeral := ⟨false, n, [], none⟩

/-- The value without its sign. -/
def value (n : Numeral) : Decimal :=
  ⟨digitsValue n.whole n.fraction, n.exponent.getD 0 - n.fraction.length⟩

/-- The natural number that a numeral writes with digits alone. -/
def toNat? (n : Numeral) : Option Nat :=
  if n.negative = false ∧ n.fraction = [] ∧ n.exponent = none then some n.whole else none

/-! ## Writing -/

/-- The exponent, always with a sign, or nothing. -/
def exponentChars : Option Int → List Char
  | none => []
  | some (.ofNat e) => 'e' :: '+' :: Nat.toDigits 10 e
  | some (.negSucc e) => 'e' :: '-' :: Nat.toDigits 10 (e + 1)

/-- The point with the digits after it, or nothing where there are none. -/
def fractionChars : List (Fin 10) → List Char
  | [] => []
  | ds => '.' :: ds.map digitChar

/-- The characters that write a numeral. -/
def chars (n : Numeral) : List Char :=
  (if n.negative then ['-'] else []) ++ Nat.toDigits 10 n.whole
    ++ fractionChars n.fraction ++ exponentChars n.exponent

/-! ## Reading -/

/-- Reads a minus sign, if there is one. -/
def readSign : List Char → Bool × List Char
  | '-' :: rest => (true, rest)
  | cs => (false, cs)

/-- A whole part is a single zero, or starts with another digit. -/
def readWhole? (cs : List Char) : Option (Nat × List Char) :=
  match cs with
  | '0' :: rest => some (0, rest)
  | cs =>
    match readDigits cs with
    | ([], _) => none
    | (ds, rest) => some (digitsValue 0 ds, rest)

/-- Reads a point with at least one digit after it, if there is a point. -/
def readFraction? : List Char → Option (List (Fin 10) × List Char)
  | '.' :: rest =>
    match readDigits rest with
    | ([], _) => none
    | (ds, rest) => some (ds, rest)
  | cs => some ([], cs)

/-- The sign and the digits of an exponent. -/
def readExponentDigits? (cs : List Char) : Option (Int × List Char) :=
  let (negative, cs) := match cs with
    | '-' :: rest => (true, rest)
    | '+' :: rest => (false, rest)
    | cs => (false, cs)
  match readDigits cs with
  | ([], _) => none
  | (ds, rest) =>
    let e : Int := digitsValue 0 ds
    some (if negative then -e else e, rest)

/-- Reads an exponent, if there is one, after a letter in either case. -/
def readExponent? (cs : List Char) : Option (Option Int × List Char) :=
  match cs with
  | 'e' :: rest | 'E' :: rest => (readExponentDigits? rest).map fun (e, rest) => (some e, rest)
  | cs => some (none, cs)

/-- Reads a numeral and returns what follows it. -/
def read? (cs : List Char) : Option (Numeral × List Char) := do
  let (negative, cs) := readSign cs
  let (whole, cs) ← readWhole? cs
  let (fraction, cs) ← readFraction? cs
  let (exponent, cs) ← readExponent? cs
  return (⟨negative, whole, fraction, exponent⟩, cs)

/-! ## A numeral takes characters -/

theorem length_readDigits (cs : List Char) :
    (readDigits cs).1.length + (readDigits cs).2.length = cs.length := by
  induction cs with
  | nil => rfl
  | cons c rest ih =>
    unfold readDigits
    cases digit? c with
    | none => simp
    | some d =>
      simp only [List.length_cons]
      omega

theorem length_readSign (cs : List Char) : (readSign cs).2.length ≤ cs.length := by
  unfold readSign
  split <;> simp

theorem length_readWhole {cs rest : List Char} {n : Nat} (h : readWhole? cs = some (n, rest)) :
    rest.length < cs.length := by
  unfold readWhole? at h
  split at h
  · simp_all
  · have total := length_readDigits cs
    split at h
    · simp at h
    · rename_i ds _ hne hd
      simp only [Option.some.injEq, Prod.mk.injEq] at h
      obtain ⟨_, rfl⟩ := h
      rw [hd] at total
      have := List.length_pos_iff.mpr hne
      dsimp only at total
      omega

theorem length_readFraction {cs rest : List Char} {ds : List (Fin 10)}
    (h : readFraction? cs = some (ds, rest)) : rest.length ≤ cs.length := by
  unfold readFraction? at h
  split at h
  · rename_i tail
    have total := length_readDigits tail
    split at h
    · simp at h
    · rename_i hd
      simp only [Option.some.injEq, Prod.mk.injEq] at h
      obtain ⟨_, rfl⟩ := h
      rw [hd] at total
      dsimp only [List.length_cons] at total ⊢
      omega
  · simp_all

theorem length_readExponentDigits {cs rest : List Char} {e : Int}
    (h : readExponentDigits? cs = some (e, rest)) : rest.length ≤ cs.length := by
  unfold readExponentDigits? at h
  split at h
  rename_i negative tail hs
  have shorter : tail.length ≤ cs.length := by
    split at hs <;> simp_all
  have total := length_readDigits tail
  split at h
  · simp at h
  · rename_i hd
    simp only [Option.some.injEq, Prod.mk.injEq] at h
    obtain ⟨_, rfl⟩ := h
    rw [hd] at total
    dsimp only at total
    omega

theorem length_readExponent {cs rest : List Char} {e : Option Int}
    (h : readExponent? cs = some (e, rest)) : rest.length ≤ cs.length := by
  unfold readExponent? at h
  split at h
  case h_3 => simp_all
  all_goals
    simp only [Option.map_eq_some_iff, Prod.mk.injEq] at h
    obtain ⟨⟨_, _⟩, hr, _, rfl⟩ := h
    have := length_readExponentDigits hr
    dsimp only [List.length_cons] at this ⊢
    omega

theorem length_read {cs rest : List Char} {n : Numeral} (h : read? cs = some (n, rest)) :
    rest.length < cs.length := by
  unfold read? at h
  simp only [bind, Option.bind_eq_some_iff, pure, Option.some.injEq, Prod.mk.injEq] at h
  obtain ⟨⟨_, _⟩, hw, ⟨_, _⟩, hf, ⟨_, _⟩, he, _, rfl⟩ := h
  have h₁ := length_readSign cs
  have h₂ := length_readWhole hw
  have h₃ := length_readFraction hf
  have h₄ := length_readExponent he
  dsimp only at h₂ h₃ h₄ ⊢
  omega

end Numeral

end QuantumCircuit
