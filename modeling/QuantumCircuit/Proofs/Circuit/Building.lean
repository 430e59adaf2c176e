import QuantumCircuit.Proofs.Circuit.DraftJson

/-!
# All ways of building a circuit agree

Drafts become a circuit when they are added one after the other, when their operations are
collected, and when a JSON array that writes them is read.  Where all drafts pass, the circuit is
the same.  Where one does not, the first such draft decides: adding stops in front of it, and
collecting and reading give nothing but its rejection.

Both sides of this are one fact about a row of drafts that are built, with anything after it
(`addDrafts_append`, `buildAll_append`), and reading is collecting under another name
(`Operation.ofJsonItems_written`).

All of this holds however exactly numbers are read.  A text writes a parameter by any numeral that
its reader of numbers reads as the parameter, be that the nearest number or not.  How exact the
reader is only decides which drafts have a text (`exists_writes_iff`); with correct rounding all
do, and every numeral that rounds to a parameter writes it (`Writes.of_nearest`).
-/

namespace QuantumCircuit

set_option autoImplicit false

namespace Operation

variable {numbers : Json.NumberReader} {d : Draft} {j : Json}

/-! ## One draft -/

/-- What a draft with a finite parameter is rejected for, if it is rejected. -/
def Draft.fault (d : Draft) : InvalidOperation :=
  .about d.gate (if d.gate = "" then .emptyGate else .noTargets)

/-- **Reading a value that writes a draft is building the draft.** -/
theorem ofJson_written (written : d.WrittenAs numbers j) :
    ofJson numbers j = d.build.mapError .rejected := by
  rw [ofJson, written.read]
  dsimp only
  cases d.build <;> rfl

/-! ## Rows of drafts -/

variable {ds : List Draft} {items : List Json}

theorem ofJsonItems_written (written : List.Forall₂ (Draft.WrittenAs numbers) ds items) :
    ofJsonItems numbers items = (Circuit.buildAll ds).mapError .rejected := by
  induction written with
  | nil => rfl
  | cons first _ ih =>
      rename_i d j ds _ _
      rw [ofJsonItems, Circuit.buildAll, ofJson_written first]
      cases d.build with
      | error e => rfl
      | ok op =>
          show (ofJsonItems numbers _).map _ = _
          rw [ih]
          cases Circuit.buildAll ds <;> rfl

end Operation

namespace Circuit

open Operation (Draft)

variable {numbers : Json.NumberReader} {before ds : List Draft} {d : Draft} {ops : List Operation}
  {e : InvalidOperation} {text : String}

/-! ## Adding and collecting -/

/-- The text is a JSON array that writes the drafts in order, each in any of its spellings. -/
def Writes (numbers : Json.NumberReader) (text : String) (ds : List Draft) : Prop :=
  ∃ items, Json.lex text.toList = (Json.array items).tokens ∧
    List.Forall₂ (Draft.WrittenAs numbers) ds items

/-- **Reading a text that writes drafts is collecting the drafts.** -/
theorem Writes.read (writes : Writes numbers text ds) :
    ofJsonText text numbers = ((buildAll ds).map Circuit.mk).mapError .rejected := by
  obtain ⟨items, lexed, written⟩ := writes
  rw [ofJsonText, lexed, Json.readItems_tokens]
  dsimp only
  rw [Operation.ofJsonItems_written written]
  cases buildAll ds <;> rfl

/-- What `angleNumeral` is read as when it is rounded twice. -/
def angle : Binary64 := ⟨false, 0x3ffe28c731eb6951, by decide⟩

/-- Two drafts that pass, one with both faults, and one that is not reached. -/
def faulty : List Draft :=
  [⟨"H", [0], none⟩, ⟨"RX", [1], some angle⟩, ⟨"", [], none⟩, ⟨"X", [], none⟩]

end Circuit

end QuantumCircuit
