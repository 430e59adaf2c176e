import QuantumCircuit.Json.Document
import QuantumCircuit.Proofs.Json.Text

/-!
# Values are built back from their tokens

Started where a value may stand, the machine takes exactly the tokens of the value and puts the
value into the innermost open bracket, whatever is open around it and whatever follows
(`State.run_tokens`).  So the value at the front of a row of tokens is found without looking
further, the items of an array are found one after the other, and every value is read back
from its compact and its pretty form.
-/

namespace QuantumCircuit.Json

set_option autoImplicit false

/-! ## The machine -/

/-- Inside a new bracket any value may stand first; its tokens do not close the bracket. -/
theorem State.run_firstItem (j : Json) (outer : List Frame) (rest : List Token) :
    State.run (.firstItem outer) (j.tokens ++ rest)
      = State.run (.value (.array [] :: outer)) (j.tokens ++ rest) := by
  cases j with
  | array items => cases items <;> rfl
  | object members => cases members <;> rfl
  | _ => rfl

theorem State.run_start {t : Token} {s : State} {outer : List Frame} (rest : List Token)
    (start : State.start outer t = some s) :
    State.run (.value outer) (t :: rest) = State.run s rest := by
  simp [State.run, State.next, start]

mutual
/-- **The machine takes the tokens of a value and no more.** -/
theorem State.run_tokens (j : Json) (outer : List Frame) (rest : List Token) :
    State.run (.value outer) (j.tokens ++ rest) = State.run (.fill outer j) rest := by
  cases j with
  | null => exact State.run_start rest rfl
  | bool b => exact State.run_start rest rfl
  | number n => exact State.run_start rest rfl
  | string s => exact State.run_start rest rfl
  | array items =>
      cases items with
      | nil => rfl
      | cons item items =>
          have shape : (Json.array (item :: items)).tokens ++ rest
              = .openBracket :: (item.tokens ++ (itemTokens items ++ .closeBracket :: rest)) := by
            simp [tokens]
          rw [shape, State.run_start _ rfl, State.run_firstItem, State.run_tokens item]
          exact State.run_itemTokens items outer [item] rest
  | object members =>
      cases members with
      | nil => rfl
      | cons member members =>
          obtain ⟨key, value⟩ := member
          have shape : (Json.object ((key, value) :: members)).tokens ++ rest
              = .openBrace :: .string key :: .colon
                :: (value.tokens ++ (memberTokens members ++ .closeBrace :: rest)) := by
            simp [tokens]
          rw [shape, State.run_start _ rfl]
          show State.run (.value (.object [] key :: outer)) _ = _
          rw [State.run_tokens value]
          exact State.run_memberTokens members outer [(key, value)] rest

theorem State.run_itemTokens (items : List Json) (outer : List Frame) (read : List Json)
    (rest : List Token) :
    State.run (.nextItem outer read) (itemTokens items ++ .closeBracket :: rest)
      = State.run (.fill outer (.array (read.reverse ++ items))) rest := by
  cases items with
  | nil =>
      rw [List.append_nil]
      rfl
  | cons item items =>
      have shape : itemTokens (item :: items) ++ .closeBracket :: rest
          = .comma :: (item.tokens ++ (itemTokens items ++ .closeBracket :: rest)) := by
        simp [itemTokens]
      rw [shape]
      show State.run (.value (.array read :: outer)) _ = _
      rw [State.run_tokens item]
      show State.run (.nextItem outer (item :: read)) _ = _
      rw [State.run_itemTokens items, List.reverse_cons, List.append_assoc, List.singleton_append]

theorem State.run_memberTokens (members : List (JsonString × Json)) (outer : List Frame)
    (read : List (JsonString × Json)) (rest : List Token) :
    State.run (.nextMember outer read) (memberTokens members ++ .closeBrace :: rest)
      = State.run (.fill outer (.object (read.reverse ++ members))) rest := by
  cases members with
  | nil =>
      rw [List.append_nil]
      rfl
  | cons member members =>
      obtain ⟨key, value⟩ := member
      have shape : memberTokens ((key, value) :: members) ++ .closeBrace :: rest
          = .comma :: .string key :: .colon
            :: (value.tokens ++ (memberTokens members ++ .closeBrace :: rest)) := by
        simp [memberTokens]
      rw [shape]
      show State.run (.value (.object read key :: outer)) _ = _
      rw [State.run_tokens value]
      show State.run (.nextMember outer ((key, value) :: read)) _ = _
      rw [State.run_memberTokens members, List.reverse_cons, List.append_assoc,
        List.singleton_append]
end

/-! ## Values and arrays -/

/-- **A value is found at the front of its tokens**, whatever follows. -/
theorem readValue?_tokens (j : Json) (rest : List Token) :
    readValue? (j.tokens ++ rest) = some (j, rest) := by
  rw [readValue?, State.run_tokens, State.fill, State.run]

theorem readItemsFrom_last {ts : List Token} {item : Json}
    (read : readValue? ts = some (item, [.closeBracket])) : readItemsFrom ts = ([item], true) := by
  rw [readItemsFrom.eq_def]
  split <;> rename_i found
  · cases read.symm.trans found
  · cases read.symm.trans found
    rfl
  · cases read.symm.trans found
  · rename_i last _
    cases read.symm.trans found
    exact absurd rfl last

theorem readItemsFrom_next {ts rest : List Token} {item : Json}
    (read : readValue? ts = some (item, .comma :: rest)) :
    readItemsFrom ts = (item :: (readItemsFrom rest).1, (readItemsFrom rest).2) := by
  rw [readItemsFrom.eq_def]
  split <;> rename_i found
  · cases read.symm.trans found
  · cases read.symm.trans found
  · cases read.symm.trans found
    rfl
  · rename_i next
    cases read.symm.trans found
    exact absurd rfl (next rest)

theorem readItemsFrom_tokens (item : Json) (items : List Json) :
    readItemsFrom (item.tokens ++ (itemTokens items ++ [.closeBracket]))
      = (item :: items, true) := by
  induction items generalizing item with
  | nil => exact readItemsFrom_last (readValue?_tokens item [.closeBracket])
  | cons next items ih =>
      have shape : itemTokens (next :: items) ++ [.closeBracket]
          = .comma :: (next.tokens ++ (itemTokens items ++ [.closeBracket])) := by
        simp [itemTokens]
      rw [shape, readItemsFrom_next (readValue?_tokens item _), ih]

/-- No value is written by a closing bracket alone. -/
theorem tokens_ne_closeBracket (j : Json) (rest : List Token) :
    j.tokens ++ rest ≠ [.closeBracket] := by
  intro same
  have read := readValue?_tokens j rest
  rw [same] at read
  cases read

/-- **The items of an array are found one after the other.** -/
theorem readItems_tokens (items : List Json) :
    readItems (Json.array items).tokens = (items, true) := by
  cases items with
  | nil => rfl
  | cons item items =>
      have shape : (Json.array (item :: items)).tokens
          = .openBracket :: (item.tokens ++ (itemTokens items ++ [.closeBracket])) := by
        simp [tokens]
      rw [shape, readItems.eq_def]
      split
      · rename_i empty
        exact absurd (List.cons.inj empty).2 (tokens_ne_closeBracket item _)
      · rename_i nonempty
        cases nonempty
        exact readItemsFrom_tokens item items
      · rename_i open_bracket
        exact absurd rfl (open_bracket _)

/-! ## Texts -/

theorem ofText?_of_lex {text : String} {j : Json} (written : lex text.toList = j.tokens) :
    ofText? text = some j := by
  have read := readValue?_tokens j []
  rw [List.append_nil] at read
  rw [ofText?, written, read]

/-- **Every value is read back from its compact form.** -/
theorem ofText?_compact (j : Json) : ofText? j.compact = some j := ofText?_of_lex (lex_compact j)

/-- **Every value is read back from its pretty form.** -/
theorem ofText?_pretty (j : Json) : ofText? j.pretty = some j := ofText?_of_lex (lex_pretty j)

end QuantumCircuit.Json
