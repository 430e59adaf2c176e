import QuantumCircuit.Proofs.Adjoint.Parts
import QuantumCircuit.Proofs.Adjoint.Warnings
import QuantumCircuit.Proofs.Circuit.Editing
import QuantumCircuit.Proofs.Circuit.Members

/-!
# Inverses of edited circuits

Inversion turns a circuit round, so an edit of the circuit is an edit of its inverse at the mirrored
place.  An insertion is mirrored at the places between operations, of which there is one more than
operations, and a removal at the places of operations (`inverted_insert`, `inverted_of_remove?`).

The law of removal is that of insertion read backwards: what is removed can be put back, and the
inverse with it put back is the inverse that was there before.
-/

namespace QuantumCircuit

set_option autoImplicit false

/-! ## Insertion into a reversed row -/

section Row

variable {α : Type}

theorem insertIdx_between (before after : List α) (a : α) :
    (before ++ after).insertIdx before.length a = before ++ a :: after :=
  List.modifyTailIdx_add _ 0 before after

/-- Inserting and reversing is reversing and inserting, with the same operations after the place as
were before it. -/
theorem reverse_insertIdx {row : List α} {index : Nat} (le : index ≤ row.length) (a : α) :
    (row.insertIdx index a).reverse = row.reverse.insertIdx (row.length - index) a := by
  have before : (row.take index).length = index := List.length_take_of_le le
  have after : (row.drop index).reverse.length = row.length - index := by
    rw [List.length_reverse, List.length_drop]
  have split : row.insertIdx index a = row.take index ++ a :: row.drop index := by
    have inserted := insertIdx_between (row.take index) (row.drop index) a
    rwa [List.take_append_drop, before] at inserted
  calc (row.insertIdx index a).reverse
      = (row.drop index).reverse ++ a :: (row.take index).reverse := by rw [split]; simp
    _ = ((row.drop index).reverse ++ (row.take index).reverse).insertIdx
          (row.length - index) a := by rw [← after, insertIdx_between]
    _ = row.reverse.insertIdx (row.length - index) a := by
        rw [← List.reverse_append, List.take_append_drop]

end Row

/-! ## Inverses as rows of substitutes -/

namespace AdjointTable

variable {t : AdjointTable} {op a : Operation}

/-- An operation that has an adjoint has its substitute as the adjoint. -/
theorem Inverts.eq_substitute (inverts : t.Inverts op a) : a = t.substitute op := by
  have result : (t.adjoint op).result = .ok a := inverts
  by_cases unknown : t.Unknown op.gate
  · cases policy : t.policy with
    | lenient =>
        rw [adjoint_of_unknown_lenient policy unknown] at result
        rw [substitute_of_unknown unknown]
        exact (Except.ok.inj result).symm
    | strict =>
        rw [adjoint_of_unknown_strict policy unknown] at result
        cases result
  · rw [adjoint_of_known unknown] at result
    exact (Except.ok.inj result).symm

theorem HasAdjoint.inverts (has : t.HasAdjoint op) : t.Inverts op (t.substitute op) := by
  obtain ⟨a, inverts⟩ := has
  rwa [← inverts.eq_substitute]

end AdjointTable

namespace Circuit

variable {c c' d : Circuit} {t : AdjointTable} {op : Operation} {index : Nat}

/-- **A circuit has an inverse if all of its operations have adjoints**, and the inverse is the row
of their substitutes. -/
theorem inverted_eq_ok_iff_substituted :
    (c.inverted t).result = .ok d ↔ c.All t.HasAdjoint ∧ d = c.substituted t := by
  have substituted : ∀ d, (c.inverted t).result = .ok d → d = c.substituted t := by
    intro d inverted
    have row : c.operations.reverse.map t.substitute = d.operations.map id :=
      map_eq_map_of_forall₂ (inverted_eq_ok_iff.mp inverted) fun _ _ inverts =>
        inverts.eq_substitute.symm
    rw [List.map_id] at row
    exact congrArg Circuit.mk row.symm
  constructor
  · intro inverted
    exact ⟨exists_inverted_iff.mp ⟨d, inverted⟩, substituted d inverted⟩
  · rintro ⟨all, rfl⟩
    obtain ⟨d, inverted⟩ := exists_inverted_iff.mpr all
    rwa [← substituted d inverted]

theorem length_substituted (c : Circuit) (t : AdjointTable) :
    (c.substituted t).length = c.length := by
  simp [substituted, length]

theorem substituted_insert (le : index ≤ c.length) (op : Operation) (t : AdjointTable) :
    (c.insert index op).substituted t
      = (c.substituted t).insert (c.length - index) (t.substitute op) := by
  have inside : c.length - index ≤ (c.substituted t).length := by
    rw [length_substituted]
    exact Nat.sub_le _ _
  refine congrArg Circuit.mk (Eq.trans ?_ (operations_insert inside).symm)
  rw [operations_insert le, reverse_insertIdx le, List.map_insertIdx]
  rfl

/-! ## Edits and inversion -/

/-- **Inserting and inverting commute**, at mirrored places: there is an inverse after the insertion
if there was one before and the operation has an adjoint, and it is the old inverse with the adjoint
inserted. -/
theorem inverted_insert :
    ((c.insert index op).inverted t).result = .ok d ↔
      ∃ d₀ a, (c.inverted t).result = .ok d₀ ∧ (t.adjoint op).result = .ok a ∧
        d = d₀.insert (c.length - min index c.length) a := by
  rw [← insert_min c index op, inverted_eq_ok_iff_substituted, all_insert_iff,
    substituted_insert (Nat.min_le_right _ _)]
  constructor
  · rintro ⟨⟨has, all⟩, rfl⟩
    exact ⟨_, _, inverted_eq_ok_iff_substituted.mpr ⟨all, rfl⟩, has.inverts, rfl⟩
  · rintro ⟨d₀, a, inverted, inverts, rfl⟩
    obtain ⟨all, rfl⟩ := inverted_eq_ok_iff_substituted.mp inverted
    have inverts : t.Inverts op a := inverts
    exact ⟨⟨⟨a, inverts⟩, all⟩, by rw [inverts.eq_substitute]⟩

/-- **Removing and inverting commute**, at mirrored places. -/
theorem inverted_of_remove? (removed : c.remove? index = some (op, c'))
    (inverted : (c.inverted t).result = .ok d) :
    ∃ a d', d.remove? (c.length - 1 - index) = some (a, d') ∧
      (t.adjoint op).result = .ok a ∧ (c'.inverted t).result = .ok d' := by
  have around := inserted_of_remove? removed
  have longer := around.length_eq
  have le : index ≤ c'.length := by
    have lt : index < c.length := (List.getElem?_eq_some_iff.mp around.here).1
    omega
  have mirrored : c.length - 1 - index = c'.length - min index c'.length := by
    rw [Nat.min_eq_left le]
    omega
  rw [← (insert_of_remove? removed).2, inverted_insert] at inverted
  obtain ⟨d', a, rest, adjoint, rfl⟩ := inverted
  obtain ⟨_, rfl⟩ := inverted_eq_ok_iff_substituted.mp rest
  refine ⟨a, c'.substituted t, ?_, adjoint, rest⟩
  rw [mirrored]
  refine remove?_insert ?_
  rw [length_substituted]
  exact Nat.sub_le _ _

end Circuit

/-! ## Edits without a place -/

namespace Workspace

/-- A command on a circuit returns nothing and keeps the circuit. -/
def Idle (w : Workspace) (name : String) (action : CircuitAction) : Prop :=
  (w.execute (.onCircuit name action)).2.1 = .operation none ∧
    (w.execute (.onCircuit name action)).1.circuit name = w.circuit name

variable {w : Workspace} {name : String} {index : Nat}

/-- Removing and replacing past the end of a circuit do nothing. -/
theorem idle_past_end (past : (w.circuit name).length ≤ index) :
    w.Idle name (.remove index) ∧ (∀ place, w.Idle name (.replaceAtHand index place)) ∧
      ∀ d op, d.build = .ok op → w.Idle name (.replace index d) := by
  have unremoved := Circuit.remove?_eq_none_iff.mpr past
  have unreplaced : ∀ op, (w.circuit name).replace? index op = none :=
    fun op => Circuit.replace?_eq_none_iff.mpr past
  refine ⟨?_, ?_, ?_⟩
  · rw [Idle, circuit_of_eq]
    simp [execute, circuitEffect, unremoved, Effect.quiet]
  · intro place
    have nothing : w.atHand[place]?.bind ((w.circuit name).replace? index) = none :=
      Option.bind_eq_none_iff.mpr fun op _ => unreplaced op
    rw [Idle, circuit_of_eq]
    simp [execute, circuitEffect, nothing, Effect.quiet]
  · intro d op built
    rw [Idle, circuit_of_eq]
    simp [execute, circuitEffect, Effect.checked, built, unreplaced, Effect.quiet]

end Workspace

namespace Circuit

/-- **The laws of editing at every place.**  An insertion puts the operation at the place, or at the
end if the place is past it, with the rest around it, and removing it there gives back the circuit.
At a place of the circuit a removal returns the operation there, which can be put back, and a
replacement returns the old operation, changes nothing else and is taken back by another one.  At
any other place these two return nothing and change nothing.  Insertion and removal commute with
inversion at mirrored places. -/
theorem editing_laws (c : Circuit) :
    (∀ index op, c.Inserted (min index c.length) op (c.insert index op)) ∧
      (∀ index, index < c.length →
        (∃ op d, c.get? index = some op ∧ c.remove? index = some (op, d) ∧
          d.insert index op = c) ∧
        ∀ op, ∃ old d, c.replace? index op = some (old, d) ∧ c.Replaced index old op d) ∧
      (∀ index, c.length ≤ index →
        c.remove? index = none ∧ (∀ op, c.replace? index op = none) ∧
        ∀ (w : Workspace) (name : String), w.circuit name = c →
          w.Idle name (.remove index) ∧ (∀ place, w.Idle name (.replaceAtHand index place)) ∧
            ∀ d op, d.build = .ok op → w.Idle name (.replace index d)) ∧
      (∀ t index op d, ((c.insert index op).inverted t).result = .ok d ↔
        ∃ d₀ a, (c.inverted t).result = .ok d₀ ∧ (t.adjoint op).result = .ok a ∧
          d = d₀.insert (c.length - min index c.length) a) ∧
      ∀ t index d, index < c.length → (c.inverted t).result = .ok d →
        ∃ op c' a d', c.remove? index = some (op, c') ∧
          d.remove? (c.length - 1 - index) = some (a, d') ∧ (t.adjoint op).result = .ok a ∧
          (c'.inverted t).result = .ok d' := by
  have removable : ∀ index, index < c.length →
      ∃ op d, c.get? index = some op ∧ c.remove? index = some (op, d) := by
    intro index lt
    have there : c.get? index = some c.operations[index] := List.getElem?_eq_getElem lt
    obtain ⟨d, removed⟩ := exists_remove? there
    exact ⟨_, d, there, removed⟩
  refine ⟨c.inserted, ?_, ?_, fun _ _ _ _ => inverted_insert, ?_⟩
  · intro index lt
    obtain ⟨op, d, there, removed⟩ := removable index lt
    refine ⟨⟨op, d, there, removed, (insert_of_remove? removed).2⟩, ?_⟩
    intro new
    obtain ⟨d', replaced⟩ := exists_replace? there new
    exact ⟨op, d', replaced, replaced_of_replace? replaced⟩
  · intro index past
    refine ⟨remove?_eq_none_iff.mpr past, fun op => replace?_eq_none_iff.mpr past, ?_⟩
    rintro w name rfl
    exact Workspace.idle_past_end past
  · intro t index d lt inverted
    obtain ⟨op, c', _, removed⟩ := removable index lt
    obtain ⟨a, d', mirrored, adjoint, rest⟩ := inverted_of_remove? removed inverted
    exact ⟨op, c', a, d', removed, mirrored, adjoint, rest⟩

/-- A gate that the inverse gives another name, and one that no rule resolves. -/
def marginal : Circuit := ⟨[⟨"T", [2], none⟩, ⟨"ORACLE", [0, 1], none⟩]⟩

/-- Edits at both ends, and past the end, with the inverses. -/
theorem edits_at_ends :
    ((marginal.insert 7 ⟨"S'", [0], none⟩).inverted .standard).result
        = .ok ⟨[⟨"SDG'", [0], none⟩, ⟨"ORACLE", [0, 1], none⟩, ⟨"TDG", [2], none⟩]⟩ ∧
      (∃ op d, marginal.remove? 1 = some (op, d) ∧ d.insert 1 op = marginal) ∧
      marginal.replace? 2 ⟨"S'", [0], none⟩ = none ∧
      strictWorkspace.Idle "c" (.remove 2) ∧
      ∃ op c' a d', marginal.remove? 0 = some (op, c') ∧
        (⟨[⟨"ORACLE", [0, 1], none⟩, ⟨"TDG", [2], none⟩]⟩ : Circuit).remove? 1 = some (a, d') ∧
        (c'.inverted .standard).result = .ok d' := by
  obtain ⟨_, inside, outside, insertion, removal⟩ := editing_laws marginal
  have inverse : (marginal.inverted .standard).result
      = .ok ⟨[⟨"ORACLE", [0, 1], none⟩, ⟨"TDG", [2], none⟩]⟩ := by rfl
  obtain ⟨⟨op, d, _, removed, back⟩, _⟩ := inside 1 (by decide)
  obtain ⟨op', c', a, d', first, last, _, rest⟩ := removal .standard 0 _ (by decide) inverse
  refine ⟨?_, ⟨op, d, removed, back⟩, (outside 2 (by decide)).2.1 _, ?_,
    op', c', a, d', first, last, rest⟩
  · exact (insertion .standard 7 _ _).mpr ⟨_, ⟨"SDG'", [0], none⟩, inverse, by rfl, by decide⟩
  · obtain ⟨_, _, idle⟩ := (editing_laws (strictWorkspace.circuit "c")).2.2.1 2 (by decide)
    exact (idle strictWorkspace "c" rfl).1

end Circuit

end QuantumCircuit
