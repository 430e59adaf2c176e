import QuantumCircuit.Circuit.Basic
import QuantumCircuit.Json.Document
import QuantumCircuit.Json.Number
import QuantumCircuit.Json.Text

/-!
# Circuits as JSON

A circuit is written as an array of objects with the members `gate`, `targets` and
`parameter`, in this order; an operation without a parameter has a null.

Reading accepts more.  The members of an object may come in any order and others may
stand among them, which are ignored, but none of the three may come twice; the
parameter may be left out.  An array of the two or three values in place of an object
is read too.  Every operation is checked like any draft as soon as it has been read,
so a rejected operation is reported before a fault that comes after it in the text.

How exactly a parameter is read is left to the reader of numbers, which everything here
takes as a parameter.
-/

namespace QuantumCircuit

set_option autoImplicit false

/-- Why a JSON text is not read: it is malformed or has the wrong shape, or an
operation in it is rejected. -/
inductive Json.ReadError where
  | malformed
  | rejected (e : InvalidOperation)
  deriving DecidableEq

/-! ## Writing -/

namespace Operation

/-- The value that writes a parameter. -/
def parameterJson : Option Binary64 → Json
  | none => .null
  | some x => .number x.jsonNumeral

/-- The value that writes an operation. -/
def toJson (op : Operation) : Json :=
  .object
    [(some "gate", .text op.gate),
     (some "targets", .array (op.targets.map fun t => .number (.ofNat t.toNat))),
     (some "parameter", parameterJson op.parameter)]

end Operation

/-- The value that writes a circuit. -/
def Circuit.toJson (c : Circuit) : Json := .array (c.operations.map Operation.toJson)

/-! ## Reading drafts -/

namespace Operation

/-- A gate name is a text. -/
def gateOfJson? : Json → Option String
  | .string s => s
  | _ => none

/-- A target is a numeral in digits alone that is small enough. -/
def targetOfJson? : Json → Option UInt32
  | .number n =>
    match n.toNat? with
    | some t => if t < UInt32.size then some (.ofNat t) else none
    | none => none
  | _ => none

/-- Targets are an array in which every item is a target. -/
def targetsOfJson? : Json → Option (List UInt32)
  | .array items => items.mapM targetOfJson?
  | _ => none

/-- A parameter is null or a numeral that the reader of numbers reads. -/
def parameterOfJson? (numbers : Json.NumberReader) : Json → Option (Option Binary64)
  | .null => some none
  | .number n => (numbers.read? n).map some
  | _ => none

/-- The members of a draft that have been read. -/
structure DraftMembers where
  gate : Option String
  targets : Option (List UInt32)
  parameter : Option (Option Binary64)

namespace DraftMembers

/-- No member has been read. -/
def none : DraftMembers := ⟨.none, .none, .none⟩

/-- Reads one more member.  A member of a draft must not come twice. -/
def read? (numbers : Json.NumberReader) (m : DraftMembers) : JsonString × Json → Option DraftMembers
  | (.none, _) => .none
  | (some key, value) =>
    if key = "gate" then
      if m.gate.isSome then .none else (gateOfJson? value).map ({ m with gate := some · })
    else if key = "targets" then
      if m.targets.isSome then .none
      else (targetsOfJson? value).map ({ m with targets := some · })
    else if key = "parameter" then
      if m.parameter.isSome then .none
      else (parameterOfJson? numbers value).map ({ m with parameter := some · })
    else some m

/-- Reads members in the order in which they are written. -/
def readAll? (numbers : Json.NumberReader) (m : DraftMembers) :
    List (JsonString × Json) → Option DraftMembers
  | [] => some m
  | member :: rest =>
    match m.read? numbers member with
    | .none => .none
    | some m => m.readAll? numbers rest

/-- The draft, if its gate and targets have been read. -/
def toDraft? (m : DraftMembers) : Option Draft :=
  match m.gate, m.targets with
  | some gate, some targets => some ⟨gate, targets, m.parameter.getD .none⟩
  | _, _ => .none

end DraftMembers

/-- The draft of one row of values: gate, targets and an optional parameter. -/
def draftOfValues? (numbers : Json.NumberReader) (gate targets : Json) (parameter : Option Json) :
    Option Draft := do
  let gate ← gateOfJson? gate
  let targets ← targetsOfJson? targets
  let parameter ← match parameter with
    | some parameter => parameterOfJson? numbers parameter
    | none => some none
  return ⟨gate, targets, parameter⟩

/-- The draft that a value writes. -/
def Draft.ofJson? (numbers : Json.NumberReader) : Json → Option Draft
  | .object members => (DraftMembers.none.readAll? numbers members).bind DraftMembers.toDraft?
  | .array [gate, targets] => draftOfValues? numbers gate targets none
  | .array [gate, targets, parameter] => draftOfValues? numbers gate targets (some parameter)
  | _ => none

/-! ## Reading operations and circuits -/

/-- The operation that a value writes. -/
def ofJson (numbers : Json.NumberReader) (j : Json) : Except Json.ReadError Operation :=
  match Draft.ofJson? numbers j with
  | none => .error .malformed
  | some d =>
    match d.build with
    | .ok op => .ok op
    | .error e => .error (.rejected e)

/-- The operations that values write, up to the first that is not read. -/
def ofJsonItems (numbers : Json.NumberReader) : List Json → Except Json.ReadError (List Operation)
  | [] => .ok []
  | j :: rest =>
    match ofJson numbers j with
    | .error e => .error e
    | .ok op => (ofJsonItems numbers rest).map (op :: ·)

/-- **The operation that a JSON text writes.** -/
def ofJsonText (text : String) (numbers : Json.NumberReader := .nearest) :
    Except Json.ReadError Operation :=
  match Json.readValue? (Json.lex text.toList) with
  | none => .error .malformed
  | some (j, rest) =>
    match ofJson numbers j with
    | .error e => .error e
    | .ok op => if rest = [] then .ok op else .error .malformed

end Operation

/-- **The circuit that a JSON text writes.** -/
def Circuit.ofJsonText (text : String) (numbers : Json.NumberReader := .nearest) :
    Except Json.ReadError Circuit :=
  let (items, complete) := Json.readItems (Json.lex text.toList)
  match Operation.ofJsonItems numbers items with
  | .error e => .error e
  | .ok ops => if complete then .ok ⟨ops⟩ else .error .malformed

end QuantumCircuit
