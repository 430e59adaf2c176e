import QuantumCircuit.Json.Value
import QuantumCircuit.Text.Hex

/-!
# Cutting a text into JSON tokens

`lex` cuts a text into tokens and drops the blanks between them.  Where no token can
be read it puts one `fault` and stops, so the tokens before a fault are those of the
text before it and can still be judged first.

Every token takes at least one character; that is why cutting ends
(`length_readToken`).
-/

namespace QuantumCircuit.Json

set_option autoImplicit false

/-! ## String literals -/

/-- A piece of a string literal: a character, or half of a surrogate pair. -/
inductive Piece where
  | char (c : Char)
  | surrogate (code : Nat)
  deriving DecidableEq

/-- The piece written by four hexadecimal digits. -/
def hexPiece? (a b c d : Char) : Option Piece := do
  let code :=
    ((← hexValue? a) * 16 + (← hexValue? b)) * 256 + (← hexValue? c) * 16 + (← hexValue? d)
  return if 0xd800 ≤ code ∧ code < 0xe000 then .surrogate code else .char (Char.ofNat code)

/-- The character written by a backslash and another character. -/
def unescape? : Char → Option Char
  | '"' => some '"'
  | '\\' => some '\\'
  | '/' => some '/'
  | 'b' => some '\x08'
  | 'f' => some '\x0c'
  | 'n' => some '\n'
  | 'r' => some '\r'
  | 't' => some '\t'
  | _ => none

/-- Reads a string literal after its opening quotation mark. -/
def readPieces? : List Char → Option (List Piece × List Char)
  | [] => none
  | '"' :: rest => some ([], rest)
  | '\\' :: 'u' :: a :: b :: c :: d :: rest => do
    let piece ← hexPiece? a b c d
    let (pieces, rest) ← readPieces? rest
    return (piece :: pieces, rest)
  | '\\' :: e :: rest => do
    let c ← unescape? e
    let (pieces, rest) ← readPieces? rest
    return (.char c :: pieces, rest)
  | c :: rest =>
    if c.toNat < 0x20 then none
    else do
      let (pieces, rest) ← readPieces? rest
      return (.char c :: pieces, rest)

/-- The text of a literal; the halves of surrogate pairs must meet. -/
def assemble? : List Piece → Option (List Char)
  | [] => some []
  | .char c :: rest => (assemble? rest).map (c :: ·)
  | .surrogate high :: .surrogate low :: rest =>
    if high < 0xdc00 ∧ 0xdc00 ≤ low then
      (assemble? rest).map (Char.ofNat (0x10000 + (high - 0xd800) * 0x400 + (low - 0xdc00)) :: ·)
    else none
  | .surrogate _ :: _ => none

/-- Reads a string after its opening quotation mark; it need not stand for a text. -/
def readString? (cs : List Char) : Option (Token × List Char) :=
  (readPieces? cs).map fun (pieces, rest) => (.string ((assemble? pieces).map String.ofList), rest)

/-! ## Tokens -/

/-- The blanks of JSON. -/
def isBlank (c : Char) : Bool := c == ' ' || c == '\n' || c == '\r' || c == '\t'

/-- Reads the token at the front of a text that does not start with a blank. -/
def readToken? : List Char → Option (Token × List Char)
  | '{' :: rest => some (.openBrace, rest)
  | '}' :: rest => some (.closeBrace, rest)
  | '[' :: rest => some (.openBracket, rest)
  | ']' :: rest => some (.closeBracket, rest)
  | ',' :: rest => some (.comma, rest)
  | ':' :: rest => some (.colon, rest)
  | 'n' :: 'u' :: 'l' :: 'l' :: rest => some (.null, rest)
  | 't' :: 'r' :: 'u' :: 'e' :: rest => some (.bool true, rest)
  | 'f' :: 'a' :: 'l' :: 's' :: 'e' :: rest => some (.bool false, rest)
  | '"' :: rest => readString? rest
  | cs => (Numeral.read? cs).map fun (n, rest) => (.number n, rest)

/-! ## Tokens take characters -/

theorem length_readPieces {cs rest : List Char} {pieces : List Piece}
    (h : readPieces? cs = some (pieces, rest)) : rest.length < cs.length := by
  fun_induction readPieces? cs generalizing pieces with
  | case1 => simp at h
  | case2 => simp_all
  | case3 a b c d cs ih =>
    simp only [bind, Option.bind_eq_some_iff, pure, Option.some.injEq, Prod.mk.injEq] at h
    obtain ⟨_, _, ⟨_, _⟩, hr, _, rfl⟩ := h
    have := ih hr
    dsimp only [List.length_cons] at this ⊢
    omega
  | case4 e cs _ ih =>
    simp only [bind, Option.bind_eq_some_iff, pure, Option.some.injEq, Prod.mk.injEq] at h
    obtain ⟨_, _, ⟨_, _⟩, hr, _, rfl⟩ := h
    have := ih hr
    dsimp only [List.length_cons] at this ⊢
    omega
  | case5 => simp at h
  | case6 c cs _ _ _ _ ih =>
    simp only [bind, Option.bind_eq_some_iff, pure, Option.some.injEq, Prod.mk.injEq] at h
    obtain ⟨⟨_, _⟩, hr, _, rfl⟩ := h
    have := ih hr
    dsimp only [List.length_cons] at this ⊢
    omega

theorem length_readToken {cs rest : List Char} {t : Token}
    (h : readToken? cs = some (t, rest)) : rest.length < cs.length := by
  unfold readToken? at h
  split at h
  case h_10 =>
    simp only [readString?, Option.map_eq_some_iff, Prod.mk.injEq] at h
    obtain ⟨⟨_, _⟩, hr, _, rfl⟩ := h
    have := length_readPieces hr
    dsimp only [List.length_cons] at this ⊢
    omega
  case h_11 =>
    simp only [Option.map_eq_some_iff, Prod.mk.injEq] at h
    obtain ⟨⟨_, _⟩, hr, _, rfl⟩ := h
    exact Numeral.length_read hr
  all_goals
    simp only [Option.some.injEq, Prod.mk.injEq] at h
    obtain ⟨_, rfl⟩ := h
    simp only [List.length_cons]
    omega

/-- **The tokens of a text.** -/
def lex (cs : List Char) : List Token :=
  if cs.dropWhile isBlank = [] then []
  else
    match _taken : readToken? (cs.dropWhile isBlank) with
    | none => [.fault]
    | some (t, rest) => t :: lex rest
termination_by cs.length
decreasing_by
  exact Nat.lt_of_lt_of_le (length_readToken ‹_›) (List.dropWhile_sublist isBlank).length_le

end QuantumCircuit.Json
