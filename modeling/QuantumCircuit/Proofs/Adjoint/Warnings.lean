import QuantumCircuit.Proofs.Adjoint.Pointwise

/-!
# Warnings and failures of inversion

The policy of a table decides only about the gates that no rule resolves.  For these a
lenient table warns and goes on, and a strict one stops at the first that it meets, which
is the last of the circuit.  Otherwise both put the same operations in the place of the old
ones (`substitute`).  This gives the whole result of an inversion in closed form
(`inverted_of_lenient`, `inverted_of_strict`).

Two things are read off it.  What a lenient inversion warns about tells everything about
the strict one with the same rules (`inverted_by_policy`).  And inverting a merged circuit
is inverting the second part and then the first, with the warnings in this order and the
first failure (`inverted_merge`).
-/

namespace QuantumCircuit

set_option autoImplicit false

namespace AdjointTable

variable {t : AdjointTable} {gate : String}

/-! ## One row of operations under each policy -/

/-- What takes the place of an operation in an inverse, under either policy. -/
def substitute (t : AdjointTable) (op : Operation) : Operation :=
  match t.resolve op.gate with
  | some (rule, marks) => rule.apply marks op
  | none => op

/-- The gates of those operations of a row that no rule resolves, one for each operation. -/
def unknownGates (t : AdjointTable) (ops : List Operation) : List String :=
  (ops.filter fun op => t.Unknown op.gate).map (·.gate)

/-- Fails for the first of some gates without an adjoint. -/
def unlessUnknown {α : Type} (a : α) : List String → Except Error α
  | [] => .ok a
  | gate :: _ => .error (.unknownAdjoint gate)

variable {op : Operation} {rest : List Operation}

theorem unknownGates_cons_of_unknown (unknown : t.Unknown op.gate) :
    t.unknownGates (op :: rest) = op.gate :: t.unknownGates rest := by
  simp [unknownGates, unknown]

theorem unknownGates_cons_of_known (known : ¬ t.Unknown op.gate) :
    t.unknownGates (op :: rest) = t.unknownGates rest := by
  simp [unknownGates, known]

/-- The first unknown gate of a row belongs to an operation after known ones. -/
theorem unknownGates_eq_cons {ops : List Operation} {more : List String}
    (found : t.unknownGates ops = gate :: more) :
    ∃ before op after, ops = before ++ op :: after ∧ op.gate = gate ∧ t.Unknown gate ∧
      ∀ earlier ∈ before, ¬ t.Unknown earlier.gate := by
  obtain ⟨op, others, first, rfl, _⟩ := List.map_eq_cons_iff.mp found
  obtain ⟨before, after, split, known, unknown, _⟩ := List.filter_eq_cons_iff.mp first
  refine ⟨before, op, after, split, rfl, of_decide_eq_true unknown, ?_⟩
  intro earlier member unknown
  exact known earlier member (decide_eq_true unknown)

theorem substitute_of_unknown (unknown : t.Unknown op.gate) : t.substitute op = op := by
  unfold substitute
  rw [resolve_eq_none_iff_unknown.mpr unknown]

/-- A known gate is inverted without a warning, under either policy. -/
theorem adjoint_of_known (known : ¬ t.Unknown op.gate) :
    t.adjoint op = .ok (t.substitute op) := by
  unfold adjoint substitute
  cases found : t.resolve op.gate with
  | some pair => rfl
  | none => exact absurd (resolve_eq_none_iff_unknown.mp found) known

theorem adjoint_of_unknown_lenient (lenient : t.policy = .lenient)
    (unknown : t.Unknown op.gate) : t.adjoint op = ⟨[op.gate], .ok op⟩ := by
  unfold adjoint
  rw [resolve_eq_none_iff_unknown.mpr unknown, lenient]

theorem adjoint_of_unknown_strict (strict : t.policy = .strict) (unknown : t.Unknown op.gate) :
    t.adjoint op = .fail (.unknownAdjoint op.gate) := by
  unfold adjoint
  rw [resolve_eq_none_iff_unknown.mpr unknown, strict]

/-- An operation has no adjoint only in a strict table, and the failure is about its name. -/
theorem eq_of_adjoint_error {e : Error} (failed : (t.adjoint op).result = .error e) :
    t.policy = .strict ∧ e = .unknownAdjoint op.gate := by
  by_cases unknown : t.Unknown op.gate
  · cases policy : t.policy with
    | lenient =>
        rw [adjoint_of_unknown_lenient policy unknown] at failed
        cases failed
    | strict =>
        rw [adjoint_of_unknown_strict policy unknown] at failed
        cases failed
        exact ⟨rfl, rfl⟩
  · rw [adjoint_of_known unknown] at failed
    cases failed

/-- A lenient table warns about every unknown gate of a row and never fails. -/
theorem adjoints_of_lenient (lenient : t.policy = .lenient) (ops : List Operation) :
    t.adjoints ops = ⟨t.unknownGates ops, .ok (ops.map t.substitute)⟩ := by
  induction ops with
  | nil => rfl
  | cons op rest ih =>
      rw [adjoints, ih, List.map_cons]
      by_cases unknown : t.Unknown op.gate
      · rw [adjoint_of_unknown_lenient lenient unknown, unknownGates_cons_of_unknown unknown,
          substitute_of_unknown unknown]
        rfl
      · rw [adjoint_of_known unknown, unknownGates_cons_of_known unknown]
        rfl

/-- A strict table never warns and fails for the first unknown gate of a row. -/
theorem adjoints_of_strict (strict : t.policy = .strict) (ops : List Operation) :
    t.adjoints ops = ⟨[], unlessUnknown (ops.map t.substitute) (t.unknownGates ops)⟩ := by
  induction ops with
  | nil => rfl
  | cons op rest ih =>
      rw [adjoints, ih, List.map_cons]
      by_cases unknown : t.Unknown op.gate
      · rw [adjoint_of_unknown_strict strict unknown, unknownGates_cons_of_unknown unknown]
        rfl
      · rw [adjoint_of_known unknown, unknownGates_cons_of_known unknown]
        cases t.unknownGates rest with
        | nil => rfl
        | cons gate more => rfl

/-! ## The policy does not change what a rule does -/

theorem resolve_withPolicy (t : AdjointTable) (policy : AdjointPolicy) (gate : String) :
    (t.withPolicy policy).resolve gate = t.resolve gate := by
  have reversed : ∀ cs taken,
      (t.withPolicy policy).resolveReversed cs taken = t.resolveReversed cs taken := by
    intro cs
    induction cs with
    | nil => exact fun _ => rfl
    | cons c rest ih =>
        intro taken
        unfold resolveReversed
        rw [ih]
        rfl
  exact reversed _ _

theorem substitute_withPolicy (t : AdjointTable) (policy : AdjointPolicy) :
    (t.withPolicy policy).substitute = t.substitute := by
  funext op
  unfold substitute
  rw [resolve_withPolicy]

theorem unknownGates_withPolicy (t : AdjointTable) (policy : AdjointPolicy)
    (ops : List Operation) : (t.withPolicy policy).unknownGates ops = t.unknownGates ops := by
  refine congrArg (List.map Operation.gate) (List.filter_congr ?_)
  intro op _
  exact decide_eq_decide.mpr Iff.rfl

end AdjointTable

/-! ## Inverses of circuits in closed form -/

namespace Circuit

/-- The circuit of the substitutes in the opposite order. -/
def substituted (c : Circuit) (t : AdjointTable) : Circuit :=
  ⟨c.operations.reverse.map t.substitute⟩

variable {t : AdjointTable}

theorem inverted_of_lenient (lenient : t.policy = .lenient) (c : Circuit) :
    c.inverted t = ⟨t.unknownGates c.operations.reverse, .ok (c.substituted t)⟩ := by
  unfold inverted
  rw [AdjointTable.adjoints_of_lenient lenient]
  rfl

theorem inverted_of_strict (strict : t.policy = .strict) (c : Circuit) :
    c.inverted t
      = ⟨[], AdjointTable.unlessUnknown (c.substituted t)
          (t.unknownGates c.operations.reverse)⟩ := by
  unfold inverted
  rw [AdjointTable.adjoints_of_strict strict]
  cases t.unknownGates c.operations.reverse with
  | nil => rfl
  | cons gate more => rfl

/-! ## The same rules under the two policies -/

theorem substituted_withPolicy (c : Circuit) (t : AdjointTable) (policy : AdjointPolicy) :
    c.substituted (t.withPolicy policy) = c.substituted t := by
  unfold substituted
  rw [AdjointTable.substitute_withPolicy]

/-- The first unknown gate met from the end is the last unknown one of the circuit. -/
theorem last_unknown {c : Circuit} {gate : String} {more : List String}
    (found : t.unknownGates c.operations.reverse = gate :: more) :
    ∃ before op after, c.operations = before ++ op :: after ∧ op.gate = gate ∧
      t.Unknown gate ∧ ∀ later ∈ after, ¬ t.Unknown later.gate := by
  obtain ⟨after, op, before, backwards, named, unknown, known⟩ :=
    AdjointTable.unknownGates_eq_cons found
  refine ⟨before.reverse, op, after.reverse, ?_, named, unknown, ?_⟩
  · rw [← List.reverse_reverse c.operations, backwards]
    simp
  · intro later member
    exact known later (List.mem_reverse.mp member)

/-- **Inversion with the same rules under the two policies.**  The lenient table inverts
every circuit and warns about its unknown gates from the last operation to the first.  The
strict one never warns.  Without unknown gates it gives the same circuit; otherwise it
fails for the gate of the first warning, the last unknown one of the circuit, and inversion
in place changes nothing. -/
theorem inverted_by_policy (t : AdjointTable) (c : Circuit) :
    let lenient := c.inverted (t.withPolicy .lenient)
    let strict := c.inverted (t.withPolicy .strict)
    (∃ d, lenient.result = .ok d) ∧
      lenient.warnings = t.unknownGates c.operations.reverse ∧
      strict.warnings = [] ∧
      ((∃ d, strict.result = .ok d) ↔ lenient.warnings = []) ∧
      ((lenient.warnings = [] ∧ strict.result = lenient.result) ∨
        ∃ gate more, lenient.warnings = gate :: more ∧
          (∃ before op after, c.operations = before ++ op :: after ∧ op.gate = gate ∧
            t.Unknown gate ∧ ∀ later ∈ after, ¬ t.Unknown later.gate) ∧
          strict.result = .error (.unknownAdjoint gate) ∧
          c.invert (t.withPolicy .strict) = (c, .fail (.unknownAdjoint gate))) := by
  intro lenient strict
  have lenient_eq : lenient = _ := inverted_of_lenient rfl c
  have strict_eq : strict = _ := inverted_of_strict rfl c
  rw [AdjointTable.unknownGates_withPolicy, substituted_withPolicy] at lenient_eq strict_eq
  have inPlace : c.invert (t.withPolicy .strict)
      = (strict.result.toOption.getD c, strict.map fun _ => ()) := rfl
  rw [inPlace, lenient_eq, strict_eq]
  refine ⟨⟨_, rfl⟩, rfl, rfl, ?_⟩
  cases found : t.unknownGates c.operations.reverse with
  | nil =>
      exact ⟨iff_of_true ⟨_, rfl⟩ rfl, .inl ⟨rfl, rfl⟩⟩
  | cons gate more =>
      refine ⟨iff_of_false ?_ (List.cons_ne_nil _ _), .inr ⟨gate, more, rfl, ?_, rfl, rfl⟩⟩
      · rintro ⟨d, failed⟩
        cases failed
      · exact last_unknown found

/-! ## Merged circuits -/

theorem unknownGates_merge (a b : Circuit) (t : AdjointTable) :
    t.unknownGates (a.merge b).operations.reverse
      = t.unknownGates b.operations.reverse ++ t.unknownGates a.operations.reverse := by
  simp [merge, AdjointTable.unknownGates]

theorem substituted_merge (a b : Circuit) (t : AdjointTable) :
    (a.merge b).substituted t = (b.substituted t).merge (a.substituted t) := by
  simp [merge, substituted]

/-- **The inverse of a merged circuit** is the inverse of the second part followed by that of
the first.  It fails as the second part does, or else as the first does, and then the circuit
stays in place as it was.  The warnings about the second part come before those about the
first. -/
theorem inverted_merge (t : AdjointTable) (a b : Circuit) :
    let merged := (a.merge b).inverted t
    merged.warnings = (b.inverted t).warnings ++ (a.inverted t).warnings ∧
      merged.result = (do
        let b' ← (b.inverted t).result
        let a' ← (a.inverted t).result
        return b'.merge a') ∧
      ((a.merge b).invert t).1 =
        match (b.inverted t).result, (a.inverted t).result with
        | .ok b', .ok a' => b'.merge a'
        | _, _ => a.merge b := by
  intro merged
  have inPlace : ((a.merge b).invert t).1 = merged.result.toOption.getD (a.merge b) := rfl
  rw [inPlace]
  cases policy : t.policy with
  | lenient =>
      have merged_eq : merged = _ := inverted_of_lenient policy (a.merge b)
      rw [merged_eq, inverted_of_lenient policy a, inverted_of_lenient policy b,
        unknownGates_merge, substituted_merge]
      exact ⟨rfl, rfl, rfl⟩
  | strict =>
      have merged_eq : merged = _ := inverted_of_strict policy (a.merge b)
      rw [merged_eq, inverted_of_strict policy a, inverted_of_strict policy b,
        unknownGates_merge, substituted_merge]
      cases t.unknownGates b.operations.reverse with
      | cons gate more => exact ⟨rfl, rfl, rfl⟩
      | nil =>
          cases t.unknownGates a.operations.reverse with
          | cons gate more => exact ⟨rfl, rfl, rfl⟩
          | nil => exact ⟨rfl, rfl, rfl⟩

end Circuit

end QuantumCircuit
