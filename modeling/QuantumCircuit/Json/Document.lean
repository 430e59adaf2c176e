import QuantumCircuit.Json.Token

/-!
# Building values from tokens

A value is built by a machine that takes one token after the other.  Its state says
what may come next and keeps the arrays and objects that are still open, innermost
first (`State.next`).  The machine stops as soon as a value is complete, so a value at
the front of a row of tokens can be read without looking at what follows it
(`readValue?`).

An array whose items are judged one by one is read by `readItems`.  It returns the
items that are complete before the first fault, if there is one, and whether the tokens
were that array and nothing else.
-/

namespace QuantumCircuit.Json

set_option autoImplicit false

/-! ## The machine -/

/-- An open bracket and what it holds so far, latest first.  An open object waits for
the value of a key. -/
inductive Frame where
  | array (items : List Json)
  | object (members : List (JsonString × Json)) (key : JsonString)

/-- What has been built, and what may come next. -/
inductive State where
  | done (value : Json)
  | value (outer : List Frame)
  | firstItem (outer : List Frame)
  | nextItem (outer : List Frame) (items : List Json)
  | firstKey (outer : List Frame)
  | key (outer : List Frame) (members : List (JsonString × Json))
  | colon (outer : List Frame) (members : List (JsonString × Json)) (key : JsonString)
  | nextMember (outer : List Frame) (members : List (JsonString × Json))

/-- Puts a complete value into the innermost open bracket. -/
def State.fill : List Frame → Json → State
  | [], v => .done v
  | .array items :: outer, v => .nextItem outer (v :: items)
  | .object members k :: outer, v => .nextMember outer ((k, v) :: members)

/-- A token where a value must start. -/
def State.start (outer : List Frame) : Token → Option State
  | .null => some (fill outer .null)
  | .bool b => some (fill outer (.bool b))
  | .number n => some (fill outer (.number n))
  | .string s => some (fill outer (.string s))
  | .openBracket => some (.firstItem outer)
  | .openBrace => some (.firstKey outer)
  | _ => none

/-- **One step of the machine.** -/
def State.next : State → Token → Option State
  | .value outer, t => start outer t
  | .firstItem outer, .closeBracket => some (fill outer (.array []))
  | .firstItem outer, t => start (.array [] :: outer) t
  | .nextItem outer items, .comma => some (.value (.array items :: outer))
  | .nextItem outer items, .closeBracket => some (fill outer (.array items.reverse))
  | .firstKey outer, .closeBrace => some (fill outer (.object []))
  | .firstKey outer, .string k => some (.colon outer [] k)
  | .key outer members, .string k => some (.colon outer members k)
  | .colon outer members k, .colon => some (.value (.object members k :: outer))
  | .nextMember outer members, .comma => some (.key outer members)
  | .nextMember outer members, .closeBrace => some (fill outer (.object members.reverse))
  | _, _ => none

/-- Runs the machine until a value is complete. -/
def State.run : State → List Token → Option (Json × List Token)
  | .done v, rest => some (v, rest)
  | _, [] => none
  | s, t :: rest =>
    match s.next t with
    | none => none
    | some s => run s rest

/-! ## Values and arrays -/

/-- Reads the value at the front of a row of tokens. -/
def readValue? (ts : List Token) : Option (Json × List Token) := State.run (.value []) ts

theorem State.length_run {s : State} {ts rest : List Token} {v : Json}
    (h : s.run ts = some (v, rest)) : rest.length ≤ ts.length := by
  fun_induction State.run s ts with
  | case1 => simp_all
  | case2 => simp at h
  | case3 => simp at h
  | case4 _ _ _ _ _ _ ih =>
    have := ih h
    simp only [List.length_cons]
    omega

theorem length_readValue {ts rest : List Token} {v : Json}
    (h : readValue? ts = some (v, rest)) : rest.length < ts.length := by
  cases ts with
  | nil => simp [readValue?, State.run] at h
  | cons t ts =>
    unfold readValue? State.run at h
    split at h
    · simp at h
    · have := State.length_run h
      simp only [List.length_cons]
      omega

/-- Reads items where one must follow, up to the end of their array. -/
def readItemsFrom (ts : List Token) : List Json × Bool :=
  match _read : readValue? ts with
  | none => ([], false)
  | some (item, [.closeBracket]) => ([item], true)
  | some (item, .comma :: rest) =>
    let (items, complete) := readItemsFrom rest
    (item :: items, complete)
  | some (item, _) => ([item], false)
termination_by ts.length
decreasing_by
  have := length_readValue ‹_›
  simp only [List.length_cons] at this
  omega

/-- **The complete items of an array**, and whether the tokens are just that array. -/
def readItems : List Token → List Json × Bool
  | [.openBracket, .closeBracket] => ([], true)
  | .openBracket :: ts => readItemsFrom ts
  | _ => ([], false)

/-- The value that a text writes, if it writes just one. -/
def ofText? (text : String) : Option Json :=
  match readValue? (lex text.toList) with
  | some (v, []) => some v
  | _ => none

end QuantumCircuit.Json
