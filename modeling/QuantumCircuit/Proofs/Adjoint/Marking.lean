import QuantumCircuit.Proofs.Adjoint.DoubleInversion
import QuantumCircuit.Proofs.Adjoint.Parts
import QuantumCircuit.Proofs.Adjoint.Warnings
import QuantumCircuit.Proofs.Circuit.Records

/-!
# Marks and adjoints

Marks on the name of an operation stay on the name of its adjoint, whichever rule makes it: the
rule is found below the marks, and does with the operation what it does without them.  So marking
an operation and taking its adjoint can be done in either order (`adjoint_withMarks`), and marking
an operation of a circuit and inverting the circuit too, at mirrored places (`inverted_dagger`).

The one condition is that no name on the way has a rule of its own.  Nothing is asked of the name
to which the marks are added, apart from not being empty: it may end in marks, follow the rule of a
shorter name, or be nothing but marks.
-/

namespace QuantumCircuit

set_option autoImplicit false

/-! ## Marked operations -/

/-- An operation with `n` further dagger marks on its name. -/
def Operation.withMarks (op : Operation) (n : Nat) : Operation :=
  { op with gate := QuantumCircuit.withMarks op.gate n }

theorem Operation.withMarks_injective (n : Nat) :
    Function.Injective fun op : Operation => op.withMarks n := by
  intro a b same
  obtain ⟨gate, targets, parameter⟩ := Operation.mk.inj same
  exact AdjointTable.eq_of_parts (withMarks_left_inj.mp gate) targets
    (congrArg (Option.map Binary64.encoding) parameter)

/-- Every rule leaves the marks that it does not cover. -/
theorem AdjointRule.apply_withMarks (rule : AdjointRule) (marks n : Nat) (op : Operation) :
    rule.apply (marks + n) (op.withMarks n) = (rule.apply marks op).withMarks n := by
  cases rule with
  | selfInverse => rfl
  | named target =>
      show ({ op with gate := QuantumCircuit.withMarks target (marks + n) } : Operation) = _
      rw [← withMarks_withMarks]
      rfl
  | negateParameter => rfl

namespace AdjointTable

variable {t : AdjointTable} {op a : Operation} {n : Nat}

/-! ## The adjoint of a marked operation -/

section Marked

variable (named : op.gate ≠ "")
  (free : ∀ i, 0 < i → i ≤ n → t.contains (withMarks op.gate i) = false)
include named free

/-- Whether a rule is found does not depend on the marks, and if one is, it is the same. -/
theorem adjoint_of_marks :
    t.adjoint (op.withMarks n) = ⟨(t.adjoint op).warnings.map (withMarks · n),
      match (t.adjoint op).result with
      | .ok a => .ok (a.withMarks n)
      | .error _ => .error (.unknownAdjoint (withMarks op.gate n))⟩ := by
  have below : t.resolve (op.withMarks n).gate
      = (t.resolve op.gate).map fun found => (found.1, found.2 + n) :=
    resolve_withMarks named fun i pos le => contains_eq_false_iff.mp (free i pos le)
  unfold adjoint
  rw [below]
  cases t.resolve op.gate with
  | some found =>
      obtain ⟨rule, marks⟩ := found
      show Reported.ok (rule.apply (marks + n) (op.withMarks n)) = _
      rw [rule.apply_withMarks]
      rfl
  | none => cases t.policy <;> rfl

/-- The adjoints of the marked operation are those of the operation with the marks. -/
theorem inverts_of_marks {b : Operation} :
    t.Inverts (op.withMarks n) b ↔ ∃ a, t.Inverts op a ∧ b = a.withMarks n := by
  unfold Inverts
  rw [adjoint_of_marks named free]
  cases (t.adjoint op).result with
  | ok a => simp [eq_comm]
  | error e => simp

/-- **Adding marks and taking the adjoint commute**, in every table where the marked names have no
rules of their own.  The marked operation has an adjoint exactly when the operation has, and it is
that one with the marks.  A failure is about the marked name, and so is a warning. -/
theorem adjoint_withMarks :
    (t.HasAdjoint (op.withMarks n) ↔ t.HasAdjoint op) ∧
      (∀ a, t.Inverts op a ↔ t.Inverts (op.withMarks n) (a.withMarks n)) ∧
      (∀ e, (t.adjoint (op.withMarks n)).result = .error e ↔
        t.policy = .strict ∧ (t.adjoint op).result = .error (.unknownAdjoint op.gate) ∧
          e = .unknownAdjoint (withMarks op.gate n)) ∧
      (t.adjoint (op.withMarks n)).warnings = (t.adjoint op).warnings.map (withMarks · n) := by
  refine ⟨?_, ?_, ?_, ?_⟩
  · constructor
    · rintro ⟨b, inverts⟩
      obtain ⟨a, original, _⟩ := (inverts_of_marks named free).mp inverts
      exact ⟨a, original⟩
    · rintro ⟨a, original⟩
      exact ⟨a.withMarks n, (inverts_of_marks named free).mpr ⟨a, original, rfl⟩⟩
  · intro a
    rw [inverts_of_marks named free]
    constructor
    · intro inverts
      exact ⟨a, inverts, rfl⟩
    · rintro ⟨a', inverts, same⟩
      rwa [Operation.withMarks_injective n same]
  · intro e
    rw [adjoint_of_marks named free]
    cases original : (t.adjoint op).result with
    | ok a => simp
    | error e' =>
        obtain ⟨strict, rfl⟩ := eq_of_adjoint_error original
        simp [strict, eq_comm]
  · rw [adjoint_of_marks named free]

end Marked

/-- In the strict standard table, `S'` with two more marks, and a mark with another one. -/
theorem strict_adjoint_of_marks :
    ("S'" ≠ "" ∧ "'" ≠ "" ∧ ∀ gate i, 0 < i →
        (standard.withPolicy .strict).contains (withMarks gate i) = false) ∧
      (standard.withPolicy .strict).Inverts ⟨withMarks "S'" 2, [1], none⟩ ⟨"SDG'''", [1], none⟩ ∧
      ((standard.withPolicy .strict).adjoint ⟨withMarks "'" 1, [0], none⟩).result
        = .error (.unknownAdjoint "''") := by
  have free : ∀ gate i, 0 < i →
      (standard.withPolicy .strict).contains (withMarks gate i) = false := by
    intro gate i pos
    obtain ⟨m, rfl⟩ : ∃ m, i = m + 1 := ⟨i - 1, by omega⟩
    rw [withMarks_succ]
    exact standard_unmarked _
  have some_name : "S'" ≠ "" ∧ "'" ≠ "" := by decide
  refine ⟨⟨some_name.1, some_name.2, free⟩, ?_, ?_⟩
  · have original :
        (standard.withPolicy .strict).Inverts ⟨"S'", [1], none⟩ ⟨"SDG'", [1], none⟩ := by
      show ((standard.withPolicy .strict).adjoint ⟨"S'", [1], none⟩).result = .ok _
      decide
    have marks : withMarks "SDG'" 2 = "SDG'''" := by decide
    have commutes := @adjoint_withMarks (standard.withPolicy .strict) ⟨"S'", [1], none⟩ 2
      some_name.1 fun i pos _ => free "S'" i pos
    rw [← marks]
    exact (commutes.2.1 ⟨"SDG'", [1], none⟩).mp original
  · have original : ((standard.withPolicy .strict).adjoint ⟨"'", [0], none⟩).result
        = .error (.unknownAdjoint "'") := by decide
    have marks : withMarks "'" 1 = "''" := by decide
    have commutes := @adjoint_withMarks (standard.withPolicy .strict) ⟨"'", [0], none⟩ 1
      some_name.2 fun i pos _ => free "'" i pos
    rw [← marks]
    exact (commutes.2.2.1 _).mpr ⟨rfl, original, rfl⟩

end AdjointTable

/-! ## The inverse of a marked circuit -/

namespace Circuit

variable {t : AdjointTable} {c d c' : Circuit} {op : Operation} {index : Nat} {record : Mutation}

/-- **Marking an operation and inverting commute**: the inverse of a circuit after a mark has been
added is the inverse from before with a mark added at the mirrored place. -/
theorem inverted_dagger (there : c.get? index = some op) (named : op.gate ≠ "")
    (free : t.contains (withMarks op.gate 1) = false)
    (marked : c.mutateAt index .dagger = some (record, c'))
    (inverted : (c.inverted t).result = .ok d) :
    ∃ d', d.mutateAt (c.length - 1 - index) .dagger = some (.dagger (c.length - 1 - index), d') ∧
      (c'.inverted t).result = .ok d' := by
  obtain ⟨_, replaced⟩ := exists_replace? there op.marked
  cases (mutateAt_dagger there replaced).symm.trans marked
  have lt : index < c.length := (List.getElem?_eq_some_iff.mp there).1
  have back : c.length - 1 - (c.length - 1 - index) = index := by omega
  obtain ⟨same, row⟩ := inverted_eq_ok_iff_mirrored.mp inverted
  obtain ⟨_, a, at_index, mirrored, parts⟩ := row (c.length - 1 - index) (by omega)
  rw [back, there] at at_index
  cases at_index
  obtain ⟨d', replaced'⟩ := exists_replace? mirrored a.marked
  obtain ⟨_, here, elsewhere⟩ := get?_of_replace? replaced
  obtain ⟨_, here', elsewhere'⟩ := get?_of_replace? replaced'
  refine ⟨d', mutateAt_dagger mirrored replaced', inverted_eq_ok_iff_mirrored.mpr ⟨?_, ?_⟩⟩
  · rw [length_of_replace? replaced, length_of_replace? replaced', same]
  · intro i small
    rw [length_of_replace? replaced] at small ⊢
    by_cases place : i = c.length - 1 - index
    · have inverts : t.Inverts op a := AdjointTable.inverts_iff_isAdjoint.mpr parts
      have marks : t.Inverts op.marked a.marked :=
        (AdjointTable.inverts_of_marks named fun j pos le => by
          obtain rfl : j = 1 := by omega
          exact free).mpr ⟨a, inverts, rfl⟩
      rw [place, back]
      exact ⟨_, _, here, here', AdjointTable.inverts_iff_isAdjoint.mp marks⟩
    · obtain ⟨b, b', at_i, mirrored_i, parts_i⟩ := row i small
      refine ⟨b, b', ?_, ?_, parts_i⟩
      · rw [elsewhere _ (by omega), at_i]
      · rw [elsewhere' _ place, mirrored_i]

end Circuit

end QuantumCircuit
