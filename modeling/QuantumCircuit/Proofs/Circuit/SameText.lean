import QuantumCircuit.Proofs.Circuit.Lines

/-!
# Circuits with the same text

A gate name may look like a whole line, but what follows it can be found from the right end of
the line.  The last character tells whether there is a parameter.  The last opening square
bracket starts it, since a number has none in it, and the last opening bracket before it starts
the targets for the same reason.  What is left is the gate name.

So if no gate name has a line break, the canonical text tells the gate names and targets of all
operations, and the extended text tells everything (`same_text_iff`).
-/

namespace QuantumCircuit

set_option autoImplicit false

/-- Where something occurs for the last time is found from the right end of a row. -/
theorem append_cons_inj_last {α : Type} {a : α} {before before' after after' : List α}
    (last : a ∉ after) (last' : a ∉ after') :
    before ++ a :: after = before' ++ a :: after' ↔ before = before' ∧ after = after' := by
  constructor
  · intro same
    rcases List.append_eq_append_iff.mp same with ⟨more, rfl, tail⟩ | ⟨more, rfl, tail⟩
    · cases more with
      | nil => exact ⟨(List.append_nil _).symm, (List.cons.inj tail).2⟩
      | cons b more =>
          rw [(List.cons.inj tail).2] at last
          exact absurd (List.mem_append_right more List.mem_cons_self) last
    · cases more with
      | nil => exact ⟨List.append_nil _, (List.cons.inj tail).2.symm⟩
      | cons b more =>
          rw [(List.cons.inj tail).2] at last'
          exact absurd (List.mem_append_right more List.mem_cons_self) last'
  · rintro ⟨rfl, rfl⟩
    rfl

/-- What a form tells about the members of two rows it tells about the rows. -/
theorem map_eq_map_of_form {α β γ : Type} {form : α → β} {told : α → γ} {as bs : List α}
    (tells : ∀ a ∈ as, ∀ b ∈ bs, form a = form b → told a = told b)
    (same : as.map form = bs.map form) : as.map told = bs.map told := by
  induction as generalizing bs with
  | nil => rw [List.map_eq_nil_iff.mp same.symm]
  | cons a as ih =>
      cases bs with
      | nil => cases same
      | cons b bs =>
          obtain ⟨head, tail⟩ := List.cons.inj same
          have later := ih (fun a' member b' member' =>
            tells a' (List.mem_cons_of_mem a member) b' (List.mem_cons_of_mem b member')) tail
          rw [List.map_cons, List.map_cons, later,
            tells a List.mem_cons_self b List.mem_cons_self head]

namespace Operation

variable {a b : Operation}

/-! ## Operations from their lines -/

theorem targetChars_inj {targets targets' : List UInt32} :
    targetChars targets = targetChars targets' ↔ targets = targets' := by
  have present (targets : List UInt32) :
      [] ∉ targets.map fun t => Nat.toDigits 10 t.toNat := by
    simp [Nat.toDigits_ne_nil]
  have apart (targets : List UInt32) :
      ∀ x ∈ targets.map fun t => Nat.toDigits 10 t.toNat, ',' ∉ x := by
    intro x member
    obtain ⟨t, _, rfl⟩ := List.mem_map.mp member
    intro comma
    exact absurd (Nat.isDigit_of_mem_toDigits (by decide) (by decide) comma) (by decide)
  have digits : Function.Injective fun t : UInt32 => Nat.toDigits 10 t.toNat := by
    intro t t' same
    exact UInt32.toNat_inj.mp (toDigits_inj.mp same)
  rw [targetChars, targetChars, List.append_left_inj,
    joinWith_inj (present _) (present _) (apart _) (apart _),
    (List.map_injective_iff.mpr digits).eq_iff]

theorem canonicalChars_inj :
    a.canonicalChars = b.canonicalChars ↔ a.gate = b.gate ∧ a.targets = b.targets := by
  have last (targets : List UInt32) : '(' ∉ targetChars targets :=
    fun member => absurd (mem_targetChars member) (by decide)
  rw [canonicalChars_eq, canonicalChars_eq, append_cons_inj_last (last _) (last _),
    String.toList_inj, targetChars_inj]

/-- Only a parameter puts a closing square bracket at the end. -/
theorem getLast?_extendedChars (op : Operation) :
    op.extendedChars.getLast? = some (if op.parameter.isSome then ']' else ')') := by
  rw [extendedChars]
  cases op.parameter with
  | none =>
      rw [parameterChars, List.append_nil, canonicalChars_eq, targetChars, ← List.cons_append,
        ← List.append_assoc, List.getLast?_concat]
      rfl
  | some x =>
      rw [parameterChars, ← List.cons_append, ← List.append_assoc, List.getLast?_concat]
      rfl

theorem extendedChars_of_some {x : Binary64} (parameter : a.parameter = some x) :
    a.extendedChars = a.canonicalChars ++ '[' :: (x.plainNumeral.chars ++ [']']) := by
  rw [extendedChars, parameter]
  rfl

/-- No opening square bracket comes after that of the parameter. -/
theorem bracket_not_mem_parameter (x : Binary64) : '[' ∉ x.plainNumeral.chars ++ [']'] := by
  intro member
  rcases List.mem_append.mp member with number | closing
  · exact absurd (Binary64.mem_plainNumeral number) (by decide)
  · exact absurd closing (by decide)

/-- The canonical form and the parameter are told apart at the last opening square bracket. -/
theorem extendedChars_of_some_inj {x y : Binary64} (first : a.parameter = some x)
    (second : b.parameter = some y) (finite : x.isFinite = true) (finite' : y.isFinite = true) :
    a.extendedChars = b.extendedChars ↔ a.canonicalChars = b.canonicalChars ∧ x = y := by
  rw [extendedChars_of_some first, extendedChars_of_some second,
    append_cons_inj_last (bracket_not_mem_parameter x) (bracket_not_mem_parameter y),
    List.append_left_inj, Binary64.plainNumeral_inj finite finite']

/-- The extended form tells the canonical form and the parameter. -/
theorem parts_of_extendedChars (valid : a.Valid) (valid' : b.Valid)
    (same : a.extendedChars = b.extendedChars) :
    a.canonicalChars = b.canonicalChars ∧ a.parameter = b.parameter := by
  have ends := getLast?_extendedChars a
  rw [same, getLast?_extendedChars b] at ends
  cases first : a.parameter with
  | none =>
      cases second : b.parameter with
      | none =>
          rw [extendedChars, extendedChars, first, second] at same
          exact ⟨List.append_cancel_right same, rfl⟩
      | some y =>
          rw [first, second] at ends
          cases ends
  | some x =>
      cases second : b.parameter with
      | none =>
          rw [first, second] at ends
          cases ends
      | some y =>
          obtain ⟨canonical, number⟩ := (extendedChars_of_some_inj first second
            (valid.parameter_finite x first) (valid'.parameter_finite y second)).mp same
          exact ⟨canonical, congrArg some number⟩

/-- **An operation is known from its extended form**, its parameter to the last bit. -/
theorem extendedChars_inj (valid : a.Valid) (valid' : b.Valid) :
    a.extendedChars = b.extendedChars ↔ a = b := by
  constructor
  · intro same
    obtain ⟨canonical, parameter⟩ := parts_of_extendedChars valid valid' same
    obtain ⟨gate, targets⟩ := canonicalChars_inj.mp canonical
    exact congr (congr (congrArg Operation.mk gate) targets) parameter
  · rintro rfl
    rfl

end Operation

/-! ## Circuits from their texts -/

namespace Circuit

variable {a b : Circuit}

/-- Texts with one line for each operation are equal only if the lines are. -/
theorem text_inj {form : Operation → List Char} (nameFirst : Operation.NameFirst form)
    (unbroken : a.Unbroken) (unbroken' : b.Unbroken) :
    String.ofList (joinWith '\n' (a.operations.map form))
      = String.ofList (joinWith '\n' (b.operations.map form)) ↔
      a.operations.map form = b.operations.map form := by
  rw [String.ofList_inj, joinWith_inj (lines_present nameFirst a) (lines_present nameFirst b)
    (lines_apart nameFirst unbroken) (lines_apart nameFirst unbroken')]

/-- **The texts tell circuits apart** whose gate names have no line break.  Circuits have the
same canonical text exactly if they apply gates of the same names to the same targets in the
same order, and the same extended text exactly if they are the same, parameters and the signs
of zeros included. -/
theorem same_text_iff (valid : a.Valid) (valid' : b.Valid) (unbroken : a.Unbroken)
    (unbroken' : b.Unbroken) :
    (a.canonicalText = b.canonicalText ↔
      a.operations.map (fun op => (op.gate, op.targets))
        = b.operations.map fun op => (op.gate, op.targets)) ∧
      (a.extendedText = b.extendedText ↔ a = b) := by
  constructor
  · have lines : a.canonicalText = b.canonicalText ↔ _ :=
      text_inj Operation.nameFirst_canonicalChars unbroken unbroken'
    rw [lines]
    constructor
    · refine map_eq_map_of_form ?_
      intro op _ op' _ same
      obtain ⟨gate, targets⟩ := Operation.canonicalChars_inj.mp same
      exact Prod.ext gate targets
    · refine map_eq_map_of_form ?_
      intro op _ op' _ same
      exact Operation.canonicalChars_inj.mpr (Prod.mk.inj same)
  · have lines : a.extendedText = b.extendedText ↔ _ :=
      text_inj Operation.nameFirst_extendedChars unbroken unbroken'
    rw [lines]
    constructor
    · intro same
      have operations : a.operations.map id = b.operations.map id := by
        refine map_eq_map_of_form ?_ same
        intro op member op' member'
        exact (Operation.extendedChars_inj (valid op member) (valid' op' member')).mp
      rw [List.map_id, List.map_id] at operations
      exact congrArg Circuit.mk operations
    · rintro rfl
      rfl

/-- The same operations but for the sign of a zero. -/
def lookalikesOfZero : Circuit :=
  ⟨[⟨"A(0)[1]", [4294967295, 0, 0], none⟩, ⟨"B(1,2", [7], some (.zero false)⟩]⟩

theorem lookalikes_by_text :
    (lookalikes.Valid ∧ lookalikesOfZero.Valid) ∧
      (lookalikes.Unbroken ∧ lookalikesOfZero.Unbroken) ∧
      lookalikes.canonicalText = lookalikesOfZero.canonicalText ∧
      lookalikes.extendedText ≠ lookalikesOfZero.extendedText := by
  have valid : lookalikes.Valid ∧ lookalikesOfZero.Valid := by decide
  have unbroken : lookalikes.Unbroken ∧ lookalikesOfZero.Unbroken := by decide
  obtain ⟨canonical, extended⟩ := same_text_iff valid.1 valid.2 unbroken.1 unbroken.2
  refine ⟨valid, unbroken, canonical.mpr (by decide), ?_⟩
  intro same
  exact absurd (extended.mp same) (by decide)

end Circuit

end QuantumCircuit
