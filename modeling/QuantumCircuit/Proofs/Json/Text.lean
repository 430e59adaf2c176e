import QuantumCircuit.Proofs.Json.Token

/-!
# Both forms of a value spell out its tokens

In the compact form a number is followed by a comma or a closing bracket, in the pretty form
also by the start of a line.  None of them continues a numeral, so both forms spell the tokens
of the value, whatever the depth of nesting, and are cut into them.
-/

namespace QuantumCircuit.Json

set_option autoImplicit false

/-- The token of one character that is a mark. -/
def Token.mark? : Token → Option Char
  | .openBrace => some '{'
  | .closeBrace => some '}'
  | .openBracket => some '['
  | .closeBracket => some ']'
  | .comma => some ','
  | .colon => some ':'
  | _ => none

/-- A text that spells a row of tokens and may follow a number. -/
structure Follows (ts : List Token) (cs : List Char) : Prop where
  spelled : Spelled ts cs
  stops : Stops continuesNumeral cs

variable {ts : List Token} {cs : List Char}

theorem Follows.nil : Follows [] [] := ⟨.nil, fun _ first => nomatch first⟩

theorem Spelled.number (n : Numeral) (next : Follows ts cs) :
    Spelled (.number n :: ts) (n.chars ++ cs) :=
  .token nofun (fun _ _ => next.stops) next.spelled

/-- A token that is no number may stand before anything. -/
theorem Spelled.word (t : Token) (present : t ≠ .fault) (word : ∀ n, t ≠ .number n)
    (next : Spelled ts cs) : Spelled (t :: ts) (t.chars ++ cs) :=
  .token present (fun n number => absurd number (word n)) next

/-- A mark may also stand after anything. -/
theorem Follows.mark (t : Token) {c : Char} (mark : t.mark? = some c) (next : Spelled ts cs) :
    Follows (t :: ts) (c :: cs) := by
  have written : t.chars = [c] := by
    cases t <;> cases mark <;> rfl
  have present : t ≠ .fault := by
    rintro rfl
    cases mark
  have word : ∀ n, t ≠ .number n := by
    rintro n rfl
    cases mark
  have outside : continuesNumeral c = false := by
    cases t <;> cases mark <;> decide
  have spelled := next.word t present word
  rw [written] at spelled
  exact ⟨spelled, .cons outside cs⟩

theorem Spelled.mark (t : Token) {c : Char} (mark : t.mark? = some c) (next : Spelled ts cs) :
    Spelled (t :: ts) (c :: cs) :=
  (Follows.mark t mark next).spelled

theorem Spelled.string (s : JsonString) (next : Spelled ts cs) :
    Spelled (.string s :: ts) (stringChars s ++ cs) :=
  next.word (.string s) nofun nofun

/-! ## Blanks -/

theorem Spelled.space (next : Spelled ts cs) : Spelled ts (' ' :: cs) := .blank (by decide) next

theorem Follows.newLine (depth : Nat) (next : Spelled ts cs) :
    Follows ts (newLine depth ++ cs) := by
  refine ⟨.blank (by decide) ?_, .cons (by decide) _⟩
  induction 2 * depth with
  | zero => exact next
  | succ n ih => exact ih.space

/-! ## The compact form -/

mutual
theorem Follows.compact (j : Json) {ts : List Token} {cs : List Char} (next : Follows ts cs) :
    Spelled (j.tokens ++ ts) (j.tokens.flatMap Token.chars ++ cs) := by
  cases j with
  | null => exact next.spelled.word .null nofun nofun
  | bool b => simpa [tokens] using next.spelled.word (.bool b) nofun nofun
  | number n => simpa [tokens, Token.chars] using Spelled.number n next
  | string s => simpa [tokens, Token.chars] using next.spelled.string s
  | array items =>
      cases items with
      | nil => exact (next.spelled.mark .closeBracket rfl).mark .openBracket rfl
      | cons item items =>
          have rest := Follows.compactItems items (.mark .closeBracket rfl next.spelled)
          have first := Follows.compact item rest
          simpa [tokens, Token.chars] using first.mark .openBracket rfl
  | object members =>
      cases members with
      | nil => exact (next.spelled.mark .closeBrace rfl).mark .openBrace rfl
      | cons member members =>
          obtain ⟨key, value⟩ := member
          have rest := Follows.compactMembers members (.mark .closeBrace rfl next.spelled)
          have first := ((Follows.compact value rest).mark .colon rfl).string key
          simpa [tokens, Token.chars] using first.mark .openBrace rfl

theorem Follows.compactItems (items : List Json) {ts : List Token} {cs : List Char}
    (next : Follows ts cs) :
    Follows (itemTokens items ++ ts) ((itemTokens items).flatMap Token.chars ++ cs) := by
  cases items with
  | nil => exact next
  | cons item items =>
      have rest := Follows.compactItems items next
      have first := Follows.compact item rest
      simpa [itemTokens, Token.chars] using Follows.mark .comma rfl first

theorem Follows.compactMembers (members : List (JsonString × Json)) {ts : List Token}
    {cs : List Char} (next : Follows ts cs) :
    Follows (memberTokens members ++ ts) ((memberTokens members).flatMap Token.chars ++ cs) := by
  cases members with
  | nil => exact next
  | cons member members =>
      obtain ⟨key, value⟩ := member
      have rest := Follows.compactMembers members next
      have first := ((Follows.compact value rest).mark .colon rfl).string key
      simpa [memberTokens, Token.chars] using Follows.mark .comma rfl first
end

/-! ## The pretty form -/

mutual
theorem Follows.pretty (depth : Nat) (j : Json) {ts : List Token} {cs : List Char}
    (next : Follows ts cs) : Spelled (j.tokens ++ ts) (j.prettyChars depth ++ cs) := by
  cases j with
  | null => exact next.spelled.word .null nofun nofun
  | bool b => exact next.spelled.word (.bool b) nofun nofun
  | number n => exact .number n next
  | string s => exact next.spelled.string s
  | array items =>
      cases items with
      | nil => exact (next.spelled.mark .closeBracket rfl).mark .openBracket rfl
      | cons item items =>
          have close := Follows.newLine depth (next.spelled.mark .closeBracket rfl)
          have rest := Follows.prettyItems depth items close
          have first := Follows.newLine (depth + 1) (Follows.pretty (depth + 1) item rest)
          simpa [tokens, prettyChars] using first.spelled.mark .openBracket rfl
  | object members =>
      cases members with
      | nil => exact (next.spelled.mark .closeBrace rfl).mark .openBrace rfl
      | cons member members =>
          obtain ⟨key, value⟩ := member
          have close := Follows.newLine depth (next.spelled.mark .closeBrace rfl)
          have rest := Follows.prettyMembers depth members close
          have after := (Follows.pretty (depth + 1) value rest).space.mark .colon rfl
          have first := Follows.newLine (depth + 1) (after.string key)
          simpa [tokens, prettyChars] using first.spelled.mark .openBrace rfl

theorem Follows.prettyItems (depth : Nat) (items : List Json) {ts : List Token} {cs : List Char}
    (next : Follows ts cs) : Follows (itemTokens items ++ ts) (prettyItems depth items ++ cs) := by
  cases items with
  | nil => exact next
  | cons item items =>
      have rest := Follows.prettyItems depth items next
      have first := Follows.newLine (depth + 1) (Follows.pretty (depth + 1) item rest)
      simpa [itemTokens, Json.prettyItems] using Follows.mark .comma rfl first.spelled

theorem Follows.prettyMembers (depth : Nat) (members : List (JsonString × Json))
    {ts : List Token} {cs : List Char} (next : Follows ts cs) :
    Follows (memberTokens members ++ ts) (prettyMembers depth members ++ cs) := by
  cases members with
  | nil => exact next
  | cons member members =>
      obtain ⟨key, value⟩ := member
      have rest := Follows.prettyMembers depth members next
      have after := (Follows.pretty (depth + 1) value rest).space.mark .colon rfl
      have first := Follows.newLine (depth + 1) (after.string key)
      simpa [memberTokens, Json.prettyMembers] using Follows.mark .comma rfl first.spelled
end

/-! ## Cutting -/

/-- **The compact form is cut into the tokens of the value.** -/
theorem lex_compact (j : Json) : lex j.compact.toList = j.tokens := by
  have spelled := Follows.nil.compact j
  rw [List.append_nil, List.append_nil] at spelled
  rw [compact, String.toList_ofList]
  exact spelled.lex_eq

/-- **The pretty form is cut into the tokens of the value.** -/
theorem lex_pretty (j : Json) : lex j.pretty.toList = j.tokens := by
  have spelled := Follows.nil.pretty 0 j
  rw [List.append_nil, List.append_nil] at spelled
  rw [pretty, String.toList_ofList]
  exact spelled.lex_eq

end QuantumCircuit.Json
