import QuantumCircuit.Circuit.Render
import QuantumCircuit.Proofs.Binary64.Text
import QuantumCircuit.Proofs.Text.Join
import QuantumCircuit.Proofs.Validity

/-!
# The lines of the texts of circuits

Both texts of a circuit are rows of lines, one for each operation.  After the gate name a line
has only brackets, commas and the characters of numbers, so the line breaks of a text are the
separators and those inside gate names.  A gate name may have any characters, and one with a
line break takes several lines of the text.

So the pieces of a text between its line breaks are the lines of the operations exactly when no
gate name has a line break (`texts_in_lines`).  Whatever the names are, no text ends in a line
break, and the text is empty only for the empty circuit.  A single operation whose text is
that of two operations is at the end.
-/

namespace QuantumCircuit

set_option autoImplicit false

/-- The pieces of a text between its line breaks. -/
def pieces (text : String) : List String := (text.split '\n').toList.map (·.copy)

theorem pieces_ofList (cs : List Char) :
    pieces (String.ofList cs) = (cs.splitOn '\n').map String.ofList := by
  rw [pieces, String.toList_split_char, String.toList_ofList]

/-! ## The lines of operations -/

namespace Operation

/-- The line of an operation in the canonical text. -/
def line (op : Operation) : String :=
  op.gate ++ "(" ++ String.intercalate "," (op.targets.map fun t => t.toNat.repr) ++ ")"

/-- The line of an operation in the extended text. -/
def extendedLine (op : Operation) : String :=
  match op.parameter with
  | none => op.line
  | some x => op.line ++ "[" ++ String.ofList x.plainNumeral.chars ++ "]"

theorem ofList_canonicalChars (op : Operation) : String.ofList op.canonicalChars = op.line := by
  refine String.toList_inj.mp ?_
  simp [canonicalChars, line, joinWith_eq_intercalate, Function.comp_def]

theorem ofList_extendedChars (op : Operation) :
    String.ofList op.extendedChars = op.extendedLine := by
  refine String.toList_inj.mp ?_
  rw [extendedChars, extendedLine, String.toList_ofList]
  cases op.parameter with
  | none => simp [parameterChars, ← ofList_canonicalChars]
  | some x => simp [parameterChars, ← ofList_canonicalChars]

/-! ## What follows the gate name -/

/-- The targets in brackets, which follow the gate name. -/
def targetChars (targets : List UInt32) : List Char :=
  joinWith ',' (targets.map fun t => Nat.toDigits 10 t.toNat) ++ [')']

theorem canonicalChars_eq (op : Operation) :
    op.canonicalChars = op.gate.toList ++ '(' :: targetChars op.targets := rfl

/-- Targets have only digits, commas and the closing bracket in them. -/
theorem mem_targetChars {targets : List UInt32} {c : Char} (member : c ∈ targetChars targets) :
    c.isDigit = true ∨ c = ',' ∨ c = ')' := by
  rw [targetChars, List.mem_append, List.mem_singleton] at member
  rcases member with joined | bracket
  · rcases mem_joinWith joined with separator | ⟨digits, row, digit⟩
    · exact .inr (.inl separator)
    · obtain ⟨t, _, rfl⟩ := List.mem_map.mp row
      exact .inl (Nat.isDigit_of_mem_toDigits (by decide) (by decide) digit)
  · exact .inr (.inr bracket)

/-- A parameter has only brackets and the characters of a number in it. -/
theorem mem_parameterChars {parameter : Option Binary64} {c : Char}
    (member : c ∈ parameterChars parameter) :
    c.isDigit = true ∨ c = '-' ∨ c = '.' ∨ c = '[' ∨ c = ']' := by
  cases parameter with
  | none => cases member
  | some x =>
      rw [parameterChars, List.mem_cons, List.mem_append, List.mem_singleton] at member
      rcases member with opening | number | closing
      · exact .inr (.inr (.inr (.inl opening)))
      · rcases Binary64.mem_plainNumeral number with digit | sign | point
        · exact .inl digit
        · exact .inr (.inl sign)
        · exact .inr (.inr (.inl point))
      · exact .inr (.inr (.inr (.inr closing)))

/-- A form of operations that adds something to the gate name, but no line break. -/
def NameFirst (form : Operation → List Char) : Prop :=
  ∀ op, ∃ tail, form op = op.gate.toList ++ tail ∧ tail ≠ [] ∧ '\n' ∉ tail

theorem nameFirst_canonicalChars : NameFirst canonicalChars := by
  intro op
  refine ⟨_, op.canonicalChars_eq, List.cons_ne_nil _ _, ?_⟩
  intro member
  rcases List.mem_cons.mp member with bracket | inside
  · exact absurd bracket (by decide)
  · exact absurd (mem_targetChars inside) (by decide)

theorem nameFirst_extendedChars : NameFirst extendedChars := by
  intro op
  obtain ⟨tail, shape, nonempty, unbroken⟩ := nameFirst_canonicalChars op
  refine ⟨tail ++ parameterChars op.parameter, ?_, by simp [nonempty], ?_⟩
  · rw [extendedChars, shape, List.append_assoc]
  · intro member
    rcases List.mem_append.mp member with canonical | parameter
    · exact unbroken canonical
    · exact absurd (mem_parameterChars parameter) (by decide)

variable {form : Operation → List Char} (nameFirst : NameFirst form) (op : Operation)
include nameFirst

/-- The line breaks of a line are those of the gate name. -/
theorem NameFirst.count_eq : (form op).count '\n' = op.gate.toList.count '\n' := by
  obtain ⟨tail, shape, _, unbroken⟩ := nameFirst op
  rw [shape, List.count_append, List.count_eq_zero_of_not_mem unbroken, Nat.add_zero]

/-- A line is not empty and does not end in a line break. -/
theorem NameFirst.ends : form op ≠ [] ∧ (form op).getLast? ≠ some '\n' := by
  obtain ⟨tail, shape, nonempty, unbroken⟩ := nameFirst op
  rw [shape]
  refine ⟨by simp [nonempty], ?_⟩
  intro last
  rw [List.getLast?_append_of_ne_nil _ nonempty] at last
  exact unbroken (List.mem_of_getLast? last)

end Operation

/-! ## Both texts in lines -/

namespace Circuit

/-- The number of line breaks in all gate names. -/
def lineBreaks (c : Circuit) : Nat := (c.gateNames.map fun gate => gate.toList.count '\n').sum

/-- No gate name has a line break. -/
def Unbroken (c : Circuit) : Prop := ∀ op ∈ c.operations, '\n' ∉ op.gate.toList

instance (c : Circuit) : Decidable c.Unbroken :=
  inferInstanceAs (Decidable (∀ op ∈ c.operations, '\n' ∉ op.gate.toList))

theorem lineBreaks_eq_zero_iff {c : Circuit} : c.lineBreaks = 0 ↔ c.Unbroken := by
  simp [lineBreaks, Unbroken, gateNames, List.sum_eq_zero_iff_forall_eq_nat, List.count_eq_zero]

section Form

variable {form : Operation → List Char} (nameFirst : Operation.NameFirst form) (c : Circuit)
include nameFirst

theorem lines_present : [] ∉ c.operations.map form := by
  intro member
  obtain ⟨op, _, empty⟩ := List.mem_map.mp member
  exact (nameFirst.ends op).1 empty

variable {c} in
theorem lines_apart (unbroken : c.Unbroken) : ∀ x ∈ c.operations.map form, '\n' ∉ x := by
  intro x member
  obtain ⟨op, present, rfl⟩ := List.mem_map.mp member
  rw [← List.count_eq_zero, nameFirst.count_eq, List.count_eq_zero]
  exact unbroken op present

/-- A text has one piece for each operation and one more for each line break in a name. -/
theorem length_pieces (nonempty : c.operations ≠ []) :
    (pieces (String.ofList (joinWith '\n' (c.operations.map form)))).length
      = c.length + c.lineBreaks := by
  have lines : c.operations.map form ≠ [] := by simpa using nonempty
  have breaks : (c.operations.map form).map (·.count '\n')
      = c.gateNames.map fun gate => gate.toList.count '\n' := by
    simp [gateNames, Function.comp_def, nameFirst.count_eq]
  rw [pieces_ofList, List.length_map, length_splitOn_joinWith lines, breaks, List.length_map]
  rfl

/-- The pieces are the lines of the operations exactly if no gate name has a line break. -/
theorem pieces_eq_iff (nonempty : c.operations ≠ []) :
    pieces (String.ofList (joinWith '\n' (c.operations.map form)))
      = (c.operations.map fun op => String.ofList (form op)) ↔ c.Unbroken := by
  constructor
  · intro same
    have counted := length_pieces nameFirst c nonempty
    rw [same, List.length_map] at counted
    rw [← lineBreaks_eq_zero_iff]
    exact Nat.left_eq_add.mp counted
  · intro unbroken
    have lines : c.operations.map form ≠ [] := by simpa using nonempty
    rw [pieces_ofList, splitOn_joinWith lines (lines_apart nameFirst unbroken), List.map_map]
    rfl

theorem text_ends :
    (String.ofList (joinWith '\n' (c.operations.map form))).toList.getLast? ≠ some '\n' := by
  rw [String.toList_ofList]
  refine getLast?_joinWith_ne ?_
  intro x member
  obtain ⟨op, _, rfl⟩ := List.mem_map.mp member
  exact nameFirst.ends op

theorem text_eq_empty_iff :
    String.ofList (joinWith '\n' (c.operations.map form)) = "" ↔ c.operations = [] := by
  rw [String.ofList_eq_empty_iff, joinWith_eq_nil_iff (lines_present nameFirst c),
    List.map_eq_nil_iff]

end Form

/-- **The texts of a circuit in lines.**  There are as many pieces as operations and line breaks
in gate names, and the pieces are the lines of the operations, in their order, exactly when no
gate name has a line break.  No text ends in a line break, and only that of the empty circuit is
empty. -/
theorem texts_in_lines (c : Circuit) :
    (c.operations ≠ [] →
      ((pieces c.canonicalText).length = c.length + c.lineBreaks ∧
        (pieces c.extendedText).length = c.length + c.lineBreaks) ∧
      (pieces c.canonicalText = c.operations.map Operation.line ↔ c.Unbroken) ∧
      (pieces c.extendedText = c.operations.map Operation.extendedLine ↔ c.Unbroken) ∧
      ((pieces c.canonicalText).length = c.length ↔ c.Unbroken)) ∧
    (c.canonicalText.toList.getLast? ≠ some '\n' ∧ c.extendedText.toList.getLast? ≠ some '\n') ∧
    (c.canonicalText = "" ↔ c.operations = []) ∧ (c.extendedText = "" ↔ c.operations = []) := by
  have canonical := Operation.nameFirst_canonicalChars
  have extended := Operation.nameFirst_extendedChars
  have canonical_lines : (fun op => String.ofList op.canonicalChars) = Operation.line :=
    funext Operation.ofList_canonicalChars
  have extended_lines : (fun op => String.ofList op.extendedChars) = Operation.extendedLine :=
    funext Operation.ofList_extendedChars
  refine ⟨?_, ⟨text_ends canonical c, text_ends extended c⟩, text_eq_empty_iff canonical c,
    text_eq_empty_iff extended c⟩
  intro nonempty
  have counted : (pieces c.canonicalText).length = c.length + c.lineBreaks :=
    length_pieces canonical c nonempty
  refine ⟨⟨counted, length_pieces extended c nonempty⟩, ?_, ?_, ?_⟩
  · rw [← canonical_lines]
    exact pieces_eq_iff canonical c nonempty
  · rw [← extended_lines]
    exact pieces_eq_iff extended c nonempty
  · rw [counted, ← lineBreaks_eq_zero_iff]
    exact Nat.add_eq_left

/-- Names that look like lines, a repeated target, the highest target and negative zero. -/
def lookalikes : Circuit :=
  ⟨[⟨"A(0)[1]", [4294967295, 0, 0], none⟩, ⟨"B(1,2", [7], some (.zero true)⟩]⟩

theorem lookalikes_in_lines :
    lookalikes.Valid ∧ lookalikes.operations ≠ [] ∧ lookalikes.Unbroken ∧
      pieces lookalikes.canonicalText = ["A(0)[1](4294967295,0,0)", "B(1,2(7)"] ∧
      pieces lookalikes.extendedText = ["A(0)[1](4294967295,0,0)", "B(1,2(7)[-0]"] := by
  have nonempty : lookalikes.operations ≠ [] := by decide
  have unbroken : lookalikes.Unbroken := by decide
  obtain ⟨_, canonical, extended, _⟩ := (texts_in_lines lookalikes).1 nonempty
  refine ⟨by decide, nonempty, unbroken, ?_, ?_⟩
  · rw [canonical.mpr unbroken]
    decide +kernel
  · rw [extended.mpr unbroken]
    decide +kernel

/-- One operation with a line break in its gate name. -/
def brokenName : Circuit := ⟨[⟨"H(0)\nX", [1], none⟩]⟩

/-- **An operation on two lines.**  The text of this circuit is also that of a circuit with two
operations. -/
theorem brokenName_on_two_lines :
    empty.addDraft ⟨"H(0)\nX", [1], none⟩ = .ok brokenName ∧ brokenName.length = 1 ∧
      pieces brokenName.canonicalText = ["H(0)", "X(1)"] ∧
      pieces brokenName.canonicalText ≠ brokenName.operations.map Operation.line ∧
      brokenName.canonicalText = canonicalText ⟨[⟨"H", [0], none⟩, ⟨"X", [1], none⟩]⟩ := by
  have split : pieces brokenName.canonicalText = ["H(0)", "X(1)"] := by
    rw [canonicalText, pieces_ofList]
    decide +kernel
  refine ⟨rfl, rfl, split, ?_, by decide +kernel⟩
  rw [split]
  decide +kernel

end Circuit

end QuantumCircuit
