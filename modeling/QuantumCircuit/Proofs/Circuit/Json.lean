import QuantumCircuit.Circuit.Render
import QuantumCircuit.Proofs.Binary64.Text
import QuantumCircuit.Proofs.Json.Document
import QuantumCircuit.Proofs.Validity

/-!
# Circuits are read back from their JSON

What is written of an operation is a draft of it, member by member: the gate as a literal, each
target as a numeral, a parameter as a numeral that rounds to it and no parameter as null.  The
draft of a valid operation passes its checks, so the operation is read back, and with the
array around them all operations of a circuit are, from the compact and from the pretty text.

The numeral that is written for a parameter is only sure to be read as that parameter by a reader
that rounds correctly, so this is assumed of the reader of numbers throughout.
-/

namespace QuantumCircuit

set_option autoImplicit false

variable {numbers : Json.NumberReader}

/-- With correct rounding the numeral that is written for a finite number is read as that number. -/
theorem Json.NumberReader.RoundsCorrectly.read_jsonNumeral (correct : numbers.RoundsCorrectly)
    {x : Binary64} (finite : x.isFinite = true) : numbers.read? x.jsonNumeral = some x := by
  have nearest := Binary64.ofNumeral_jsonNumeral finite
  rw [correct _ (nearest.symm ▸ finite), nearest]

namespace Operation

/-! ## Members -/

theorem targetOfJson?_number (t : UInt32) :
    targetOfJson? (.number (.ofNat t.toNat)) = some t := by
  rw [targetOfJson?, Numeral.toNat?_ofNat]
  exact (if_pos t.toNat_lt).trans (congrArg some (UInt32.ofNat_toNat))

theorem targetsOfJson?_numbers (targets : List UInt32) :
    targetsOfJson? (.array (targets.map fun t => .number (.ofNat t.toNat))) = some targets := by
  rw [targetsOfJson?]
  induction targets with
  | nil => rfl
  | cons t targets ih => simp [targetOfJson?_number, ih]

section RoundsCorrectly

variable (correct : numbers.RoundsCorrectly)
include correct

/-- A parameter is read back, and the missing one is told from every number. -/
theorem parameterOfJson?_parameterJson {parameter : Option Binary64}
    (finite : ∀ x ∈ parameter, x.isFinite = true) :
    parameterOfJson? numbers (parameterJson parameter) = some parameter := by
  cases parameter with
  | none => rfl
  | some x =>
      rw [parameterJson, parameterOfJson?, correct.read_jsonNumeral (finite x rfl), Option.map_some]

/-! ## Operations -/

variable {op : Operation}

/-- What is written of an operation is a draft with its parts. -/
theorem Draft.ofJson?_toJson (finite : ∀ x ∈ op.parameter, x.isFinite = true) :
    Draft.ofJson? numbers op.toJson = some ⟨op.gate, op.targets, op.parameter⟩ := by
  have gate : gateOfJson? (.text op.gate) = some op.gate := rfl
  have targets := targetsOfJson?_numbers op.targets
  have parameter := parameterOfJson?_parameterJson correct finite
  simp [toJson, Draft.ofJson?, DraftMembers.readAll?, DraftMembers.read?, DraftMembers.none,
    DraftMembers.toDraft?, gate, targets, parameter]

/-- **A valid operation is read back** from its value. -/
theorem ofJson_toJson (valid : op.Valid) : ofJson numbers op.toJson = .ok op := by
  rw [ofJson, Draft.ofJson?_toJson correct valid.parameter_finite]
  dsimp only
  rw [valid_iff_build.mp valid]

theorem ofJsonItems_toJson {ops : List Operation} (valid : ∀ op ∈ ops, op.Valid) :
    ofJsonItems numbers (ops.map toJson) = .ok ops := by
  induction ops with
  | nil => rfl
  | cons op ops ih =>
      obtain ⟨first, others⟩ := List.forall_mem_cons.mp valid
      rw [List.map_cons, ofJsonItems, ofJson_toJson correct first]
      dsimp only
      rw [ih others]
      rfl

end RoundsCorrectly

end Operation

namespace Circuit

/-! ## Circuits -/

variable {c : Circuit}

theorem ofJsonText_of_lex (correct : numbers.RoundsCorrectly) (valid : c.Valid) {text : String}
    (written : Json.lex text.toList = c.toJson.tokens) : ofJsonText text numbers = .ok c := by
  have items := Json.readItems_tokens (c.operations.map Operation.toJson)
  rw [ofJsonText, written, toJson, items]
  dsimp only
  rw [Operation.ofJsonItems_toJson correct valid]
  rfl

/-- **Reading JSON undoes writing it**, if numbers are read with correct rounding.  Every valid
circuit is read back from its compact and from its pretty text: the same operations in the same
order, with the same gate names, targets and parameters, these down to the sign of zero. -/
theorem ofJsonText_render (correct : numbers.RoundsCorrectly) (valid : c.Valid) (pretty : Bool) :
    ofJsonText (Renderer.render c (.json pretty)) numbers = .ok c := by
  cases pretty with
  | false => exact ofJsonText_of_lex correct valid (Json.lex_compact c.toJson)
  | true => exact ofJsonText_of_lex correct valid (Json.lex_pretty c.toJson)

/-- A gate name that needs escapes and a repeated target; the highest target; negative zero,
the smallest and the largest number, and no parameter. -/
def delicate : Circuit :=
  ⟨[⟨"\"\\\n\x01é𝄞", [0, 0], some ⟨true, 0, by decide⟩⟩,
    ⟨"RX", [4294967295], some ⟨false, 1, by decide⟩⟩,
    ⟨"RY", [1], some ⟨true, Binary64.infiniteMagnitude - 1, by decide⟩⟩,
    ⟨"H", [2], none⟩]⟩

theorem delicate_read_back :
    Json.NumberReader.nearest.RoundsCorrectly ∧ delicate.Valid ∧
      ofJsonText (Renderer.render delicate (.json false)) .nearest = .ok delicate ∧
      ofJsonText (Renderer.render delicate (.json true)) .nearest = .ok delicate := by
  have correct := Json.NumberReader.nearest_roundsCorrectly
  have valid : delicate.Valid := by decide
  exact ⟨correct, valid, ofJsonText_render correct valid false,
    ofJsonText_render correct valid true⟩

end Circuit

end QuantumCircuit
