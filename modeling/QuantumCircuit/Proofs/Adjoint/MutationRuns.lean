import QuantumCircuit.Proofs.Adjoint.DoubleInversion
import QuantumCircuit.Proofs.Circuit.Members

/-!
# Runs of mutations, merges and inversions

Whether an operation has an adjoint depends on its name only: some registered name has to
be below it, unless the table is lenient.  A further mark keeps a registered name below, an
adjoint has the partner below, and the inserted gate is registered itself.  So a circuit
that can be inverted stays so along every run of mutations, merges with circuits of the
same kind, and inversions in place.

In a symmetric table without marked names no gate is captured, so the circuits of such a
run also come back when they are inverted twice (`moves_restored`).
-/

namespace QuantumCircuit

set_option autoImplicit false

namespace AdjointTable

variable {t : AdjointTable} {op : Operation}

/-! ## Operations with an adjoint -/

/-- An operation has an adjoint when a rule governs it or the table is lenient. -/
theorem hasAdjoint_iff (valid : t.Valid) :
    t.HasAdjoint op ↔ t.policy = .lenient ∨ (t.resolve op.gate).isSome = true := by
  constructor
  · rintro ⟨a, inverts⟩
    rcases (inverts_iff valid).mp inverts with ⟨_, _, _, governs, _⟩ | ⟨_, lenient, _⟩
    · rw [governs.resolve valid]
      exact .inr rfl
    · exact .inl lenient
  · intro either
    cases found : t.resolve op.gate with
    | some pair =>
        obtain ⟨base, governs⟩ := exists_governs found
        exact ⟨_, governs.inverts _ valid⟩
    | none =>
        rw [found] at either
        rcases either with lenient | none
        · exact ⟨op, (inverts_iff valid).mpr (.inr ⟨found, lenient, rfl⟩)⟩
        · cases none

/-- A marked operation has an adjoint if the operation has. -/
theorem hasAdjoint_marked (valid : t.Valid) (has : t.HasAdjoint op) :
    t.HasAdjoint op.marked := by
  rw [hasAdjoint_iff valid] at has ⊢
  refine has.imp_right ?_
  intro found
  obtain ⟨pair, found⟩ := Option.isSome_iff_exists.mp found
  obtain ⟨base, governs⟩ := exists_governs found
  show (t.resolve (withMarks op.gate 1)).isSome = true
  rw [governs.gate_eq, withMarks_withMarks]
  exact resolve_isSome valid governs.registered _

theorem hasAdjoint_inserted (valid : t.Valid)
    (registered : t.contains insertedOperation.gate = true) :
    t.HasAdjoint insertedOperation := by
  obtain ⟨rule, found⟩ := contains_iff.mp registered
  rw [hasAdjoint_iff valid, resolve_of_rule found]
  exact .inr rfl

end AdjointTable

/-! ## Runs -/

namespace Circuit

/-- A step of a run. -/
inductive Move where
  | mutate (words : List UInt64)
  | merge (other : Circuit)
  | invert

/-- The circuit after one step. -/
def move (t : AdjointTable) (c : Circuit) : Move → Circuit
  | .mutate words => (c.mutate words).2.1
  | .merge other => c.merge other
  | .invert => (c.invert t).1

/-- The circuit after a run. -/
def moves (t : AdjointTable) (c : Circuit) (steps : List Move) : Circuit :=
  steps.foldl (move t) c

/-- A circuit on which inversion succeeds. -/
def Invertible (t : AdjointTable) (c : Circuit) : Prop := ∃ d, (c.inverted t).result = .ok d

variable {t : AdjointTable} {c : Circuit}

theorem invertible_iff : c.Invertible t ↔ c.All t.HasAdjoint :=
  exists_inverted_iff

/-- A lenient table inverts every circuit. -/
theorem invertible_of_lenient (valid : t.Valid) (lenient : t.policy = .lenient) (c : Circuit) :
    c.Invertible t :=
  invertible_iff.mpr fun _ _ => (AdjointTable.hasAdjoint_iff valid).mpr (.inl lenient)

section Runs

variable (valid : t.Valid) (symmetric : t.Symmetric)
  (registered : t.contains insertedOperation.gate = true)
include valid symmetric registered

/-- A step keeps a circuit invertible, if what is merged is invertible. -/
theorem Invertible.move (invertible : c.Invertible t) (step : Move)
    (merged : ∀ other, step = .merge other → other.Invertible t) :
    (c.move t step).Invertible t := by
  cases step with
  | mutate words =>
      rw [invertible_iff] at invertible ⊢
      have inserted := AdjointTable.hasAdjoint_inserted valid registered
      exact (All.mutate inserted (fun _ => AdjointTable.hasAdjoint_marked valid) invertible
        words).1
  | merge other =>
      have more := merged other rfl
      rw [invertible_iff] at invertible more ⊢
      exact invertible.merge more
  | invert =>
      obtain ⟨d, inverted⟩ := invertible
      show ((c.invert t).1).Invertible t
      rw [invert_of_ok inverted]
      exact (inverted_back_iff valid symmetric inverted).2

theorem Invertible.moves (invertible : c.Invertible t) (steps : List Move)
    (merged : ∀ other, .merge other ∈ steps → other.Invertible t) :
    (c.moves t steps).Invertible t := by
  induction steps generalizing c with
  | nil => exact invertible
  | cons step rest ih =>
      refine ih (invertible.move valid symmetric registered step ?_) ?_
      · rintro other rfl
        exact merged other List.mem_cons_self
      · intro other later
        exact merged other (List.mem_cons_of_mem _ later)

end Runs

/-- An invertible circuit comes back when no marked name is registered. -/
theorem Invertible.restored (valid : t.Valid) (symmetric : t.Symmetric) (unmarked : t.Unmarked)
    (invertible : c.Invertible t) :
    ∃ d, (c.inverted t).result = .ok d ∧ (d.inverted t).result = .ok c := by
  obtain ⟨d, inverted⟩ := invertible
  refine ⟨d, inverted, (inverted_back_iff valid symmetric inverted).1.mpr ?_⟩
  intro op _
  exact unmarked.balanced.not_captured

/-- **Along every run of mutations, merges and inversions, circuits can be inverted, and
twice gives them back.**  A strict table has to start with an invertible circuit and merge
only such; a lenient one may start with and merge anything. -/
theorem moves_restored (valid : t.Valid) (symmetric : t.Symmetric) (unmarked : t.Unmarked)
    (registered : t.contains insertedOperation.gate = true) :
    (t.policy = .strict → ∀ (c : Circuit) (steps : List Move), c.Invertible t →
        (∀ other, .merge other ∈ steps → other.Invertible t) →
        ∃ d, ((c.moves t steps).inverted t).result = .ok d ∧
          (d.inverted t).result = .ok (c.moves t steps)) ∧
      (t.policy = .lenient → ∀ (c : Circuit) (steps : List Move),
        ∃ d, ((c.moves t steps).inverted t).result = .ok d ∧
          (d.inverted t).result = .ok (c.moves t steps)) := by
  constructor
  · intro _ c steps invertible merged
    have reached := invertible.moves valid symmetric registered steps merged
    exact reached.restored valid symmetric unmarked
  · intro lenient c steps
    exact (invertible_of_lenient valid lenient _).restored valid symmetric unmarked

/-- The standard table under the strict policy, with a run that marks S, merges a rotation
and inverts. -/
theorem standard_moves_restored :
    let t := AdjointTable.standard.withPolicy .strict
    let c : Circuit := ⟨[⟨"S", [2], none⟩]⟩
    let steps : List Move :=
      [.mutate [0, 0xffffffff], .merge ⟨[⟨"RZ", [1], some ⟨false, 1, by decide⟩⟩]⟩, .invert]
    (t.Valid ∧ t.Symmetric ∧ t.Unmarked ∧ t.contains insertedOperation.gate = true) ∧
      (c.moves t steps).gateNames = ["RZ", "SDG'"] ∧
        ∃ d, ((c.moves t steps).inverted t).result = .ok d ∧
          (d.inverted t).result = .ok (c.moves t steps) := by
  intro t c steps
  have valid : t.Valid := AdjointTable.Valid.standard.withPolicy .strict
  have symmetric : t.Symmetric := AdjointTable.standard_symmetric
  have unmarked : t.Unmarked := AdjointTable.standard_unmarked
  have registered : t.contains insertedOperation.gate = true := by decide
  refine ⟨⟨valid, symmetric, unmarked, registered⟩, by decide, ?_⟩
  refine (moves_restored valid symmetric unmarked registered).1 rfl c steps ⟨_, by rfl⟩ ?_
  intro other member
  have same : other = ⟨[⟨"RZ", [1], some ⟨false, 1, by decide⟩⟩]⟩ := by
    simpa [steps] using member
  rw [same]
  exact ⟨_, by rfl⟩

end Circuit

end QuantumCircuit
