import Mathlib.Algebra.Group.Nat.Defs
import QuantumCircuit.Decimal.Numeral

/-!
# Reading numerals back

A numeral that is written and followed by something that cannot belong to it is read as
itself, and what follows is left over (`Numeral.read?_chars`).  This holds for every numeral,
with or without a fraction and an exponent, so it covers positional and scientific notation
at once.
-/

namespace QuantumCircuit

set_option autoImplicit false

/-! ## Digits -/

@[simp] theorem digit?_digitChar (d : Fin 10) : digit? (digitChar d) = some d := by
  revert d
  decide

theorem digitsValue_concat (before : Nat) (ds : List (Fin 10)) (d : Fin 10) :
    digitsValue before (ds ++ [d]) = 10 * digitsValue before ds + d.val := by
  induction ds generalizing before with
  | nil => rfl
  | cons e ds ih => exact ih (10 * before + e.val)

@[simp] theorem length_lastDigits (places n : Nat) : (lastDigits places n).length = places := by
  induction places generalizing n with
  | zero => rfl
  | succ places ih => simp [lastDigits, ih]

theorem digitsValue_lastDigits (before places n : Nat) :
    digitsValue before (lastDigits places n) = before * 10 ^ places + n % 10 ^ places := by
  induction places generalizing n with
  | zero => simp [lastDigits, digitsValue, Nat.mod_one]
  | succ places ih =>
      rw [lastDigits, digitsValue_concat, ih, Nat.mul_add, Nat.mul_left_comm, Nat.pow_succ',
        Nat.mod_mul, Nat.add_assoc, Nat.add_comm (n % 10)]

/-- The digits of a number in front of its last `places` ones, and these. -/
theorem digitsValue_div_lastDigits (places n : Nat) :
    digitsValue (n / 10 ^ places) (lastDigits places n) = n := by
  rw [digitsValue_lastDigits, Nat.mul_comm]
  exact Nat.div_add_mod n (10 ^ places)

theorem toDigits_eq_lastDigits (n : Nat) :
    Nat.toDigits 10 n = (lastDigits (Nat.toDigits 10 n).length n).map digitChar := by
  induction n using Nat.strongRecOn with
  | ind n ih =>
      rcases Nat.lt_or_ge n 10 with small | large
      · rw [Nat.toDigits_of_lt_base small]
        simp [lastDigits, digitChar, Nat.mod_eq_of_lt small]
      · rw [Nat.toDigits_of_base_le (by decide) large, List.length_append, List.length_singleton,
          lastDigits, List.map_append, ← ih (n / 10) (by omega)]
        rfl

theorem digitsValue_toDigits (n : Nat) :
    digitsValue 0 (lastDigits (Nat.toDigits 10 n).length n) = n := by
  rw [digitsValue_lastDigits, Nat.zero_mul, Nat.zero_add]
  exact Nat.mod_eq_of_lt
    ((Nat.length_toDigits_le_iff (by decide) Nat.length_toDigits_pos).mp (Nat.le_refl _))

theorem lastDigits_toDigits_ne_nil (n : Nat) :
    lastDigits (Nat.toDigits 10 n).length n ≠ [] := by
  rw [← List.length_pos_iff, length_lastDigits]
  exact Nat.length_toDigits_pos

/-- A positive number starts with a digit other than zero. -/
theorem toDigits_eq_cons {n : Nat} (pos : 0 < n) :
    ∃ d : Fin 10, d ≠ 0 ∧ ∃ cs, Nat.toDigits 10 n = digitChar d :: cs := by
  induction n using Nat.strongRecOn with
  | ind n ih =>
      rcases Nat.lt_or_ge n 10 with small | large
      · refine ⟨⟨n, small⟩, ?_, [], Nat.toDigits_of_lt_base small⟩
        exact fun zero => Nat.ne_of_gt pos (congrArg Fin.val zero)
      · obtain ⟨d, nonzero, cs, first⟩ := ih (n / 10) (by omega) (by omega)
        refine ⟨d, nonzero, cs ++ [Nat.digitChar (n % 10)], ?_⟩
        rw [Nat.toDigits_of_base_le (by decide) large, first]
        rfl

theorem toDigits_inj {m n : Nat} : Nat.toDigits 10 m = Nat.toDigits 10 n ↔ m = n := by
  constructor
  · intro same
    rw [← Nat.ofDigitChars_ten_toDigits (n := m), same, Nat.ofDigitChars_ten_toDigits]
  · rintro rfl
    rfl

/-! ## Where digits and numerals stop -/

/-- A text whose first character, if it has one, is not of the given kind. -/
def Stops (continues : Char → Bool) (rest : List Char) : Prop :=
  ∀ c ∈ rest.head?, continues c = false

/-- Whether a character is read as a digit. -/
def isDigit (c : Char) : Bool := (digit? c).isSome

/-- The characters that may follow the whole part of a numeral, apart from its exponent. -/
def continuesWhole (c : Char) : Bool := isDigit c || c == '.'

/-- The characters that may follow the front of a numeral. -/
def continuesNumeral (c : Char) : Bool := continuesWhole c || c == 'e' || c == 'E'

theorem Stops.cons {continues : Char → Bool} {c : Char} (stops : continues c = false)
    (rest : List Char) : Stops continues (c :: rest) := by
  intro d first
  cases first
  exact stops

theorem Stops.whole {rest : List Char} (stops : Stops continuesNumeral rest) :
    Stops continuesWhole rest := by
  intro c first
  have outside := stops c first
  simp only [continuesNumeral, Bool.or_eq_false_iff] at outside
  exact outside.1.1

theorem Stops.digit {rest : List Char} (stops : Stops continuesWhole rest) :
    Stops isDigit rest := by
  intro c first
  have outside := stops c first
  simp only [continuesWhole, Bool.or_eq_false_iff] at outside
  exact outside.1

theorem readDigits_of_stops {rest : List Char} (stops : Stops isDigit rest) :
    readDigits rest = ([], rest) := by
  cases rest with
  | nil => rfl
  | cons c rest =>
      have none : digit? c = none := by
        simpa [isDigit] using stops c rfl
      simp [readDigits, none]

/-- **Written digits are read back.** -/
theorem readDigits_append (ds : List (Fin 10)) {rest : List Char} (stops : Stops isDigit rest) :
    readDigits (ds.map digitChar ++ rest) = (ds, rest) := by
  induction ds with
  | nil => exact readDigits_of_stops stops
  | cons d ds ih => simp [readDigits, ih]

theorem readDigits_toDigits (n : Nat) {rest : List Char} (stops : Stops isDigit rest) :
    readDigits (Nat.toDigits 10 n ++ rest)
      = (lastDigits (Nat.toDigits 10 n).length n, rest) := by
  rw [toDigits_eq_lastDigits, readDigits_append _ stops, ← toDigits_eq_lastDigits]

namespace Numeral

/-! ## The parts of a numeral -/

theorem readWhole?_toDigits (n : Nat) {rest : List Char} (stops : Stops isDigit rest) :
    readWhole? (Nat.toDigits 10 n ++ rest) = some (n, rest) := by
  rcases Nat.eq_zero_or_pos n with rfl | pos
  · rfl
  · obtain ⟨d, nonzero, cs, first⟩ := toDigits_eq_cons pos
    have not_zero : digitChar d ≠ '0' := fun zero =>
      nonzero (Option.some.inj ((digit?_digitChar d).symm.trans (congrArg digit? zero)))
    have digits := readDigits_toDigits n stops
    unfold readWhole?
    split
    · rename_i zero
      rw [first] at zero
      exact absurd (List.cons.inj zero).1 not_zero
    · rw [digits]
      split
      · rename_i empty
        exact absurd (congrArg Prod.fst empty) (lastDigits_toDigits_ne_nil n)
      · rename_i parts
        cases parts
        rw [digitsValue_toDigits]

theorem readFraction?_fractionChars (ds : List (Fin 10)) {rest : List Char}
    (stops : Stops continuesWhole rest) :
    readFraction? (fractionChars ds ++ rest) = some (ds, rest) := by
  cases ds with
  | nil =>
      cases rest with
      | nil => rfl
      | cons c rest =>
          have not_point : c ≠ '.' := by
            rintro rfl
            exact absurd (stops '.' rfl) (by decide)
          unfold readFraction?
          split
          · rename_i point
            exact absurd (List.cons.inj point).1 not_point
          · rfl
  | cons d ds =>
      show readFraction? ('.' :: ((d :: ds).map digitChar ++ rest)) = some (d :: ds, rest)
      rw [readFraction?, readDigits_append (d :: ds) stops.digit]

theorem readExponentDigits?_toDigits (n : Nat) {rest : List Char} (stops : Stops isDigit rest) :
    readExponentDigits? ('+' :: (Nat.toDigits 10 n ++ rest)) = some ((n : Int), rest) ∧
      readExponentDigits? ('-' :: (Nat.toDigits 10 n ++ rest)) = some (-(n : Int), rest) := by
  have digits := readDigits_toDigits n stops
  have value := digitsValue_toDigits n
  have nonempty := lastDigits_toDigits_ne_nil n
  generalize lastDigits (Nat.toDigits 10 n).length n = ds at digits value nonempty
  cases ds with
  | nil => exact absurd rfl nonempty
  | cons d ds => constructor <;> simp [readExponentDigits?, digits, value]

theorem readExponent?_exponentChars (e : Option Int) {rest : List Char}
    (stops : Stops continuesNumeral rest) :
    readExponent? (exponentChars e ++ rest) = some (e, rest) := by
  have digits (n : Nat) := readExponentDigits?_toDigits n stops.whole.digit
  rcases e with _ | n | n
  · cases rest with
    | nil => rfl
    | cons c rest =>
        have not_exponent : c ≠ 'e' ∧ c ≠ 'E' := by
          constructor <;> rintro rfl
          · exact absurd (stops 'e' rfl) (by decide)
          · exact absurd (stops 'E' rfl) (by decide)
        unfold readExponent?
        split
        · rename_i lower
          exact absurd (List.cons.inj lower).1 not_exponent.1
        · rename_i upper
          exact absurd (List.cons.inj upper).1 not_exponent.2
        · rfl
  · show readExponent? ('e' :: '+' :: (Nat.toDigits 10 n ++ rest)) = _
    simp [readExponent?, (digits n).1]
  · show readExponent? ('e' :: '-' :: (Nat.toDigits 10 (n + 1) ++ rest)) = _
    simp only [readExponent?, (digits (n + 1)).2]
    rfl

theorem stops_exponentChars (e : Option Int) {rest : List Char}
    (stops : Stops continuesNumeral rest) :
    Stops continuesWhole (exponentChars e ++ rest) := by
  rcases e with _ | _ | _
  · exact stops.whole
  · exact .cons (by decide) _
  · exact .cons (by decide) _

theorem stops_fractionChars (ds : List (Fin 10)) {rest : List Char}
    (stops : Stops continuesWhole rest) : Stops isDigit (fractionChars ds ++ rest) := by
  cases ds with
  | nil => exact stops.digit
  | cons d ds => exact .cons (by decide) _

/-! ## Whole numerals -/

/-- A numeral starts with its sign or with a digit. -/
theorem chars_eq_cons (n : Numeral) :
    ∃ c cs, n.chars = c :: cs ∧ (c = '-' ∧ n.negative = true ∨
      isDigit c = true ∧ n.negative = false) := by
  obtain ⟨negative, whole, fraction, exponent⟩ := n
  cases negative with
  | true => exact ⟨'-', _, rfl, .inl ⟨rfl, rfl⟩⟩
  | false =>
      rcases Nat.eq_zero_or_pos whole with rfl | pos
      · exact ⟨'0', fractionChars fraction ++ exponentChars exponent, by simp [chars],
          .inr ⟨by decide, rfl⟩⟩
      · obtain ⟨d, _, cs, first⟩ := toDigits_eq_cons pos
        refine ⟨digitChar d, cs ++ fractionChars fraction ++ exponentChars exponent, ?_,
          .inr ⟨by simp [isDigit], rfl⟩⟩
        simp [chars, first]

theorem readSign_chars (n : Numeral) (rest : List Char) :
    readSign (n.chars ++ rest) = (n.negative, Nat.toDigits 10 n.whole
      ++ (fractionChars n.fraction ++ (exponentChars n.exponent ++ rest))) := by
  obtain ⟨c, cs, first, sign | digit⟩ := chars_eq_cons n
  · simp [chars, sign.2, readSign]
  · have not_minus : c ≠ '-' := by
      rintro rfl
      exact absurd digit.1 (by decide)
    unfold readSign
    split
    · rename_i minus
      rw [first] at minus
      exact absurd (List.cons.inj minus).1 not_minus
    · simp [chars, digit.2]

/-- **Every numeral is read back** from its characters, whatever follows them, unless it goes
on like a numeral. -/
theorem read?_chars (n : Numeral) {rest : List Char} (stops : Stops continuesNumeral rest) :
    read? (n.chars ++ rest) = some (n, rest) := by
  have whole_stops := stops_exponentChars n.exponent stops
  have whole := readWhole?_toDigits n.whole (stops_fractionChars n.fraction whole_stops)
  have fraction := readFraction?_fractionChars n.fraction whole_stops
  have exponent := readExponent?_exponentChars n.exponent stops
  simp [read?, readSign_chars, whole, fraction, exponent]

@[simp] theorem toNat?_ofNat (n : Nat) : (ofNat n).toNat? = some n := rfl

/-! ## Numerals with the same characters -/

theorem chars_inj {m n : Numeral} : m.chars = n.chars ↔ m = n := by
  constructor
  · intro same
    have read (n : Numeral) : read? (n.chars ++ []) = some (n, []) :=
      read?_chars n fun _ first => nomatch first
    have both := read m
    rw [same, read n] at both
    exact (Prod.mk.inj (Option.some.inj both)).1.symm
  · rintro rfl
    rfl

/-! ## The characters of numerals -/

/-- A numeral without an exponent has only digits, the sign and the point in it. -/
theorem mem_chars {n : Numeral} (positional : n.exponent = none) {c : Char}
    (member : c ∈ n.chars) : c.isDigit = true ∨ c = '-' ∨ c = '.' := by
  obtain ⟨negative, whole, fraction, exponent⟩ := n
  subst positional
  rw [chars, exponentChars, List.append_nil, List.mem_append, List.mem_append] at member
  rcases member with (sign | digit) | fractional
  · split at sign
    · exact .inr (.inl (List.mem_singleton.mp sign))
    · cases sign
  · exact .inl (Nat.isDigit_of_mem_toDigits (by decide) (by decide) digit)
  · cases fraction with
    | nil => cases fractional
    | cons d ds =>
        change c ∈ '.' :: (d :: ds).map digitChar at fractional
        rcases List.mem_cons.mp fractional with point | digit
        · exact .inr (.inr point)
        · obtain ⟨e, _, rfl⟩ := List.mem_map.mp digit
          exact .inl (by simp [digitChar])

end Numeral

end QuantumCircuit
