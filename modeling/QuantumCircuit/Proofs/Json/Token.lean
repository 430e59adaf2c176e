import QuantumCircuit.Json.Text
import QuantumCircuit.Json.Token
import QuantumCircuit.Proofs.Decimal.Numeral

/-!
# Cutting written JSON into its tokens

A text spells a row of tokens out if it is their characters with blanks between them, and no
number runs into what follows it (`Spelled`).  Cutting such a text gives back the tokens
(`Spelled.lex_eq`).  The compact and the pretty form of every value are of this kind, so both
are cut into the tokens of the value.

String literals need no condition: the closing quotation mark ends them, and every character,
escaped or not, is one piece of the literal again.
-/

namespace QuantumCircuit

set_option autoImplicit false

@[simp] theorem hexValue?_hexDigit (n : Nat) : hexValue? (hexDigit n) = some (n % 16) := by
  have digits : ∀ d : Fin 16, hexValue? (Nat.digitChar d.val) = some d.val := by decide
  exact digits ⟨n % 16, Nat.mod_lt n (by decide)⟩

namespace Json

/-! ## String literals -/

/-- The effect of one more character on what is read of a literal. -/
def putChar (c : Char) (read : Option (List Piece × List Char)) :
    Option (List Piece × List Char) :=
  read.map fun (pieces, rest) => (.char c :: pieces, rest)

theorem readPieces?_named {e c : Char} (named : unescape? e = some c) (cs : List Char) :
    readPieces? ('\\' :: e :: cs) = putChar c (readPieces? cs) := by
  have not_unicode : e ≠ 'u' := by
    rintro rfl
    cases named
  rw [readPieces?.eq_def]
  split
  all_goals rename_i shape
  · cases shape
  · cases shape
  · cases shape
    exact absurd rfl not_unicode
  · cases shape
    cases readPieces? cs <;> simp [putChar, named]
  · rename_i escape
    cases shape
    exact absurd rfl (escape e cs rfl)

theorem readPieces?_control {c : Char} (control : c.toNat < 0x20) (cs : List Char) :
    readPieces? ('\\' :: 'u' :: '0' :: '0' :: hexDigit (c.toNat / 16) :: hexDigit c.toNat :: cs)
      = putChar c (readPieces? cs) := by
  have code : c.toNat / 16 % 16 * 16 + c.toNat % 16 = c.toNat := by omega
  have zero : hexValue? '0' = some 0 := by decide
  have piece : hexPiece? '0' '0' (hexDigit (c.toNat / 16)) (hexDigit c.toNat) = some (.char c) := by
    have outside : ¬ (0xd800 ≤ c.toNat ∧ c.toNat < 0xe000) := by omega
    simp [hexPiece?, zero, code, outside]
  cases following : readPieces? cs <;> simp [readPieces?, piece, following, putChar]

theorem readPieces?_plain {c : Char} (quote : c ≠ '"') (backslash : c ≠ '\\')
    (plain : ¬ c.toNat < 0x20) (cs : List Char) :
    readPieces? (c :: cs) = putChar c (readPieces? cs) := by
  rw [readPieces?.eq_def]
  split
  all_goals rename_i shape
  · cases shape
  · cases shape
    exact absurd rfl quote
  · cases shape
    exact absurd rfl backslash
  · cases shape
    exact absurd rfl backslash
  · cases shape
    rw [if_neg plain]
    cases readPieces? cs <;> rfl

/-- **A written character is one piece**, escaped or not. -/
theorem readPieces?_escapedChar (c : Char) (cs : List Char) :
    readPieces? (escapedChar c ++ cs) = putChar c (readPieces? cs) := by
  unfold escapedChar
  by_cases quote : c = '"'
  · subst c
    exact readPieces?_named rfl cs
  by_cases backslash : c = '\\'
  · subst c
    exact readPieces?_named rfl cs
  rw [if_neg quote, if_neg backslash]
  -- the five control characters that have a letter
  repeat
    split
    · subst c
      exact readPieces?_named rfl cs
  split
  · rename_i control
    exact readPieces?_control control cs
  · rename_i plain
    exact readPieces?_plain quote backslash plain cs

theorem readPieces?_escaped (s rest : List Char) :
    readPieces? (s.flatMap escapedChar ++ '"' :: rest) = some (s.map .char, rest) := by
  induction s with
  | nil => rfl
  | cons c s ih =>
      rw [List.flatMap_cons, List.append_assoc, readPieces?_escapedChar, ih]
      rfl

theorem assemble?_chars (s : List Char) : assemble? (s.map .char) = some s := by
  induction s with
  | nil => rfl
  | cons c s ih => simp [assemble?, ih]

/-- **Every string literal is read back**, half a surrogate pair too. -/
theorem readToken?_stringChars (s : JsonString) (rest : List Char) :
    readToken? (stringChars s ++ rest) = some (.string s, rest) := by
  cases s with
  | none =>
      have half : hexPiece? 'd' '8' '0' '0' = some (.surrogate 0xd800) := by decide
      simp [stringChars, readToken?, readString?, readPieces?, half, assemble?]
  | some s =>
      have pieces := readPieces?_escaped s.toList rest
      simp [stringChars, readToken?, readString?, pieces, assemble?_chars]

/-! ## Tokens -/

theorem readToken?_numeral (n : Numeral) {rest : List Char} (stops : Stops continuesNumeral rest) :
    readToken? (n.chars ++ rest) = some (.number n, rest) := by
  have starts {c : Char} {cs : List Char} (shape : n.chars ++ rest = c :: cs) :
      c = '-' ∨ isDigit c = true := by
    obtain ⟨d, ds, first, sign | digit⟩ := n.chars_eq_cons <;> rw [first] at shape <;>
      obtain rfl := (List.cons.inj shape).1
    · exact .inl sign.1
    · exact .inr digit.1
  unfold readToken?
  split
  case h_11 => rw [Numeral.read?_chars n stops, Option.map_some]
  all_goals
    rename_i shape
    exact absurd (starts shape) (by decide)

/-- What may follow a token: a number must not go on. -/
def Token.Ends (t : Token) (rest : List Char) : Prop :=
  ∀ n, t = .number n → Stops continuesNumeral rest

/-- **Every token is read back** from its characters. -/
theorem readToken?_chars {t : Token} (present : t ≠ .fault) {rest : List Char}
    (ends : t.Ends rest) : readToken? (t.chars ++ rest) = some (t, rest) := by
  cases t with
  | number n => exact readToken?_numeral n (ends n rfl)
  | string s => exact readToken?_stringChars s rest
  | bool b => cases b <;> rfl
  | fault => exact absurd rfl present
  | _ => rfl

/-- No token starts with a blank. -/
theorem chars_eq_cons {t : Token} (present : t ≠ .fault) :
    ∃ c cs, t.chars = c :: cs ∧ isBlank c = false := by
  cases t with
  | number n =>
      obtain ⟨c, cs, first, sign | digit⟩ := n.chars_eq_cons
      · exact ⟨c, cs, first, sign.1 ▸ by decide⟩
      · refine ⟨c, cs, first, Bool.eq_false_iff.mpr ?_⟩
        intro blank
        simp only [isBlank, Bool.or_eq_true, beq_iff_eq] at blank
        rcases blank with ((rfl | rfl) | rfl) | rfl <;> exact absurd digit.1 (by decide)
  | string s => cases s <;> exact ⟨'"', _, rfl, by decide⟩
  | bool b => cases b <;> exact ⟨_, _, rfl, by decide⟩
  | fault => exact absurd rfl present
  | _ => exact ⟨_, _, rfl, by decide⟩

/-! ## Rows of tokens -/

/-- The characters of a row of tokens, with blanks between them. -/
inductive Spelled : List Token → List Char → Prop where
  | nil : Spelled [] []
  | blank {ts : List Token} {c : Char} {cs : List Char} :
      isBlank c = true → Spelled ts cs → Spelled ts (c :: cs)
  | token {t : Token} {ts : List Token} {cs : List Char} :
      t ≠ .fault → t.Ends cs → Spelled ts cs → Spelled (t :: ts) (t.chars ++ cs)

theorem lex_blank {c : Char} (blank : isBlank c = true) (cs : List Char) :
    lex (c :: cs) = lex cs := by
  rw [lex.eq_def (c :: cs), lex.eq_def cs, List.dropWhile_cons_of_pos blank]

theorem lex_token {t : Token} (present : t ≠ .fault) {rest : List Char} (ends : t.Ends rest) :
    lex (t.chars ++ rest) = t :: lex rest := by
  obtain ⟨c, cs, first, visible⟩ := chars_eq_cons present
  have unchanged : (t.chars ++ rest).dropWhile isBlank = t.chars ++ rest := by
    rw [first, List.cons_append, List.dropWhile_cons_of_neg (by simp [visible])]
  have nonempty : t.chars ++ rest ≠ [] := by simp [first]
  rw [lex, unchanged, if_neg nonempty]
  split
  · rename_i none
    rw [readToken?_chars present ends] at none
    cases none
  · rename_i read
    rw [readToken?_chars present ends] at read
    cases read
    rfl

/-- **Cutting a text gives back the tokens that it spells.** -/
theorem Spelled.lex_eq {ts : List Token} {cs : List Char} (spelled : Spelled ts cs) :
    lex cs = ts := by
  induction spelled with
  | nil => rw [lex]; rfl
  | blank blank _ ih => rw [lex_blank blank, ih]
  | token present ends _ ih => rw [lex_token present ends, ih]

end Json

end QuantumCircuit
