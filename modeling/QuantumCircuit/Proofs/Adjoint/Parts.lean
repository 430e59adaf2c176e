import QuantumCircuit.Proofs.Adjoint.Pointwise
import QuantumCircuit.Workspace

/-!
# The parts of an inverse

The inverse of a circuit is described here by its parts: the operation at each place has the
targets of the one at the mirrored place, and its name and parameter are the same too unless the
rule for the gate changes one of them (`IsAdjoint`).  A rule that names a gate changes the name,
and the marks that were taken off to reach the rule are put back; a rule that negates changes the
sign bit of the parameter and no other bit, for zero as well.

The description is exact: a circuit that fits it is the inverse, and whenever there is none,
inversion fails (`inverted_eq_ok_iff_mirrored`).  Inversion in place has the same results, and
leaves the circuit alone when it fails.
-/

namespace QuantumCircuit

set_option autoImplicit false

/-! ## The sign bit -/

namespace Binary64

/-- The bit of an encoding that tells the sign. -/
def signBit : Nat := Nat.pow 2 63

/-- Flipping the sign bit of a number that is too small to have it sets it. -/
theorem xor_signBit {m : Nat} (small : m < signBit) : m ^^^ signBit = signBit + m := by
  have low : (m ^^^ signBit) % signBit = m := by
    show (m ^^^ 2 ^ 63) % 2 ^ 63 = m
    rw [Nat.xor_mod_two_pow, Nat.mod_self, Nat.xor_zero]
    exact Nat.mod_eq_of_lt small
  have high : (m ^^^ signBit) / signBit = 1 := by
    have none : m / 2 ^ 63 = 0 := Nat.div_eq_of_lt small
    have once : (2 ^ 63 : Nat) / 2 ^ 63 = 1 := Nat.div_self (Nat.two_pow_pos 63)
    show (m ^^^ 2 ^ 63) / 2 ^ 63 = 1
    rw [Nat.xor_div_two_pow, none, Nat.zero_xor, once]
  calc m ^^^ signBit
      = signBit * ((m ^^^ signBit) / signBit) + (m ^^^ signBit) % signBit :=
        (Nat.div_add_mod _ _).symm
    _ = signBit + m := by rw [low, high, Nat.mul_one]

/-- **The opposite number differs in the sign bit only.** -/
theorem encoding_negate (x : Binary64) : x.negate.encoding = x.encoding ^^^ signBit := by
  have flipped : x.magnitude ^^^ signBit = signBit + x.magnitude := xor_signBit x.magnitude_lt
  cases sign : x.negative with
  | false =>
      have plain : x.encoding = x.magnitude := by simp [encoding, sign]
      have signed : x.negate.encoding = signBit + x.magnitude := by
        simp [encoding, negate, sign, signBit]
      rw [plain, signed, flipped]
  | true =>
      have signed : x.encoding = signBit + x.magnitude := by simp [encoding, sign, signBit]
      have plain : x.negate.encoding = x.magnitude := by simp [encoding, negate, sign]
      rw [plain, signed, ← flipped, Nat.xor_assoc, Nat.xor_self, Nat.xor_zero]

end Binary64

namespace AdjointTable

variable {t : AdjointTable} {op a : Operation} {rule : AdjointRule} {marks : Nat}

/-! ## The parts of an adjoint -/

/-- The operation `a` is the adjoint of `op`, said for each part of it. -/
structure IsAdjoint (t : AdjointTable) (op a : Operation) : Prop where
  ruled : t.policy = .strict → ∃ base rule marks, t.Reaches base rule marks op.gate
  targets : a.targets = op.targets
  renamed : ∀ base target marks, t.Reaches base (.named target) marks op.gate →
    a.gate = withMarks target marks
  nameKept : (∀ base target marks, ¬ t.Reaches base (.named target) marks op.gate) →
    a.gate = op.gate
  negated : ∀ base marks, t.Reaches base .negateParameter marks op.gate →
    a.parameter.map Binary64.encoding
      = op.parameter.map fun x => x.encoding ^^^ Binary64.signBit
  parameterKept : (∀ base marks, ¬ t.Reaches base .negateParameter marks op.gate) →
    a.parameter.map Binary64.encoding = op.parameter.map Binary64.encoding

/-- An operation is given by its name, its targets and the encoding of its parameter. -/
theorem eq_of_parts {b : Operation} (gate : a.gate = b.gate) (targets : a.targets = b.targets)
    (parameter : a.parameter.map Binary64.encoding = b.parameter.map Binary64.encoding) :
    a = b := by
  obtain ⟨_, _, p⟩ := a
  obtain ⟨_, _, q⟩ := b
  obtain rfl : p = q :=
    Option.map_injective (fun _ _ => Binary64.encoding_injective) parameter
  obtain rfl := gate
  obtain rfl := targets
  rfl

/-- Only one rule is reached, and with one number of marks. -/
theorem Reaches.eq_of_resolve {base : String} {rule' : AdjointRule} {marks' : Nat}
    (reaches : t.Reaches base rule' marks' op.gate)
    (found : t.resolve op.gate = some (rule, marks)) : rule = rule' ∧ marks = marks' := by
  rw [reaches.resolve] at found
  obtain ⟨rfl, rfl⟩ := Prod.mk.inj (Option.some.inj found)
  exact ⟨rfl, rfl⟩

/-- What a rule makes of an operation is its adjoint, if the rule is the one found. -/
theorem isAdjoint_apply (found : t.resolve op.gate = some (rule, marks)) :
    t.IsAdjoint op (rule.apply marks op) := by
  obtain ⟨base, reaches⟩ := exists_reaches found
  refine ⟨fun _ => ⟨base, rule, marks, reaches⟩, ?_, ?_, ?_, ?_, ?_⟩
  · cases rule <;> rfl
  · intro _ target marks' other
    obtain ⟨rfl, rfl⟩ := other.eq_of_resolve found
    rfl
  · intro unnamed
    cases rule with
    | named target => exact absurd reaches (unnamed base target marks)
    | selfInverse => rfl
    | negateParameter => rfl
  · intro _ marks' other
    obtain ⟨rfl, rfl⟩ := other.eq_of_resolve found
    show (op.parameter.map Binary64.negate).map Binary64.encoding = _
    rw [Option.map_map]
    exact congrArg (op.parameter.map ·) (funext Binary64.encoding_negate)
  · intro plain
    cases rule with
    | negateParameter => exact absurd reaches (plain base marks)
    | selfInverse => rfl
    | named target => rfl

/-- An operation that no rule reaches is its own adjoint in a lenient table. -/
theorem isAdjoint_self (nothing : t.resolve op.gate = none) (lenient : t.policy = .lenient) :
    t.IsAdjoint op op := by
  have unreached : ∀ {base rule marks}, ¬ t.Reaches base rule marks op.gate := by
    intro base rule marks reaches
    rw [reaches.resolve] at nothing
    cases nothing
  refine ⟨?_, rfl, ?_, fun _ => rfl, ?_, fun _ => rfl⟩
  · rw [lenient]
    exact nofun
  · intro _ _ _ reaches
    exact absurd reaches unreached
  · intro _ _ reaches
    exact absurd reaches unreached

/-- The parts of an adjoint leave no choice. -/
theorem IsAdjoint.unique {b : Operation} (first : t.IsAdjoint op a) (second : t.IsAdjoint op b) :
    a = b := by
  refine eq_of_parts ?_ (first.targets.trans second.targets.symm) ?_
  · by_cases named : ∃ base target marks, t.Reaches base (.named target) marks op.gate
    · obtain ⟨base, target, marks, reaches⟩ := named
      rw [first.renamed _ _ _ reaches, second.renamed _ _ _ reaches]
    · push Not at named
      rw [first.nameKept named, second.nameKept named]
  · by_cases negates : ∃ base marks, t.Reaches base .negateParameter marks op.gate
    · obtain ⟨base, marks, reaches⟩ := negates
      rw [first.negated _ _ reaches, second.negated _ _ reaches]
    · push Not at negates
      rw [first.parameterKept negates, second.parameterKept negates]

/-- **Adjoints part by part**, in every table. -/
theorem inverts_iff_isAdjoint : t.Inverts op a ↔ t.IsAdjoint op a := by
  -- Neither side leaves a choice, so it is enough to have one adjoint on both.
  have agree : ∀ b, t.Inverts op b → t.IsAdjoint op b → (t.Inverts op a ↔ t.IsAdjoint op a) := by
    intro b inverts parts
    constructor
    · intro other
      rwa [other.unique inverts]
    · intro other
      rwa [other.unique parts]
  cases found : t.resolve op.gate with
  | some pair =>
      obtain ⟨rule, marks⟩ := pair
      refine agree (rule.apply marks op) ?_ (isAdjoint_apply found)
      show (t.adjoint op).result = _
      rw [adjoint, found]
      rfl
  | none =>
      cases policy : t.policy with
      | lenient =>
          refine agree op ?_ (isAdjoint_self found policy)
          show (t.adjoint op).result = _
          rw [adjoint, found, policy]
      | strict =>
          have fails : (t.adjoint op).result = .error (.unknownAdjoint op.gate) := by
            rw [adjoint, found, policy]
            rfl
          constructor
          · intro inverts
            cases fails.symm.trans inverts
          · intro parts
            obtain ⟨base, rule, marks, reaches⟩ := parts.ruled policy
            rw [reaches.resolve] at found
            cases found

end AdjointTable

/-! ## Inverses place by place -/

/-- Rows are related, one of them from its end, exactly when they are so at mirrored places. -/
theorem forall₂_reverse_iff {α β : Type} {related : α → β → Prop} {as : List α} {bs : List β} :
    List.Forall₂ related as.reverse bs ↔
      bs.length = as.length ∧ ∀ i < as.length, ∃ a b,
        as[as.length - 1 - i]? = some a ∧ bs[i]? = some b ∧ related a b := by
  rw [List.forall₂_iff_get]
  constructor
  · rintro ⟨reversed, row⟩
    have same : as.length = bs.length := by rwa [List.length_reverse] at reversed
    refine ⟨same.symm, ?_⟩
    intro i lt
    have here := row i (by rwa [List.length_reverse]) (same ▸ lt)
    refine ⟨_, _, List.getElem?_eq_getElem (by omega), List.getElem?_eq_getElem (same ▸ lt), ?_⟩
    simpa using here
  · rintro ⟨same, row⟩
    refine ⟨by rw [List.length_reverse, same], ?_⟩
    intro i lt lt'
    obtain ⟨a, b, mirrored, place, here⟩ := row i (same ▸ lt')
    obtain ⟨_, rfl⟩ := List.getElem?_eq_some_iff.mp mirrored
    obtain ⟨_, rfl⟩ := List.getElem?_eq_some_iff.mp place
    simpa using here

/-! ## Inversion in place and elsewhere -/

namespace Workspace

variable {w : Workspace} {name table : String}

/-- Inversion in place that is answered with an error leaves the circuit as it is. -/
theorem circuit_of_failed {e : Error}
    (failed : (w.execute (.onCircuit name (.invert table))).2.1 = .failed e) :
    (w.execute (.onCircuit name (.invert table))).1.circuit name = w.circuit name := by
  have kept := Circuit.invert_eq (w.circuit name) (w.table table)
  rw [circuit_of_eq]
  cases inverted : ((w.circuit name).inverted (w.table table)).result with
  | error other =>
      rw [inverted] at kept
      simp [circuitEffect, kept]
  | ok d =>
      rw [inverted] at kept
      simp [execute, circuitEffect, kept] at failed

end Workspace

namespace Circuit

variable {t : AdjointTable} {c d : Circuit}

/-- **The inverse place by place.** -/
theorem inverted_eq_ok_iff_mirrored :
    (c.inverted t).result = .ok d ↔
      d.length = c.length ∧ ∀ i < c.length, ∃ op a,
        c.get? (c.length - 1 - i) = some op ∧ d.get? i = some a ∧ t.IsAdjoint op a := by
  simp only [← AdjointTable.inverts_iff_isAdjoint]
  exact inverted_eq_ok_iff.trans forall₂_reverse_iff

/-- **The inverse part by part.**  A circuit is the inverse exactly when it has the same length and
the operation at each place is the adjoint, in all its parts, of the one at the mirrored place.
Inversion in place succeeds with the same circuit, or fails with the same error and keeps the
circuit; in a workspace, neither way of inverting changes the circuit that is inverted, unless
inversion in place succeeds. -/
theorem inverted_part_by_part (t : AdjointTable) (c : Circuit) :
    (∀ d, (c.inverted t).result = .ok d ↔
        d.length = c.length ∧ ∀ i < c.length, ∃ op a,
          c.get? (c.length - 1 - i) = some op ∧ d.get? i = some a ∧ t.IsAdjoint op a) ∧
      (∀ d, (c.inverted t).result = .ok d ↔
        c.invert t = (d, ⟨(c.inverted t).warnings, .ok ()⟩)) ∧
      (∀ e, (c.inverted t).result = .error e ↔
        c.invert t = (c, ⟨(c.inverted t).warnings, .error e⟩)) ∧
      ∀ (w : Workspace) (name source table : String),
        (name ≠ source →
          (w.execute (.onCircuit name (.invertFrom source table))).1.circuit source
            = w.circuit source) ∧
        ∀ e, (w.execute (.onCircuit name (.invert table))).2.1 = .failed e →
          (w.execute (.onCircuit name (.invert table))).1.circuit name = w.circuit name := by
  refine ⟨fun _ => inverted_eq_ok_iff_mirrored, ?_, ?_, ?_⟩
  · intro d
    rw [invert_eq]
    cases (c.inverted t).result <;> simp
  · intro e
    rw [invert_eq]
    cases (c.inverted t).result <;> simp
  · intro w name source table
    exact ⟨fun ne => Workspace.circuit_of_ne ne _, fun e => Workspace.circuit_of_failed⟩

/-- A circuit with a gate that no rule resolves, and a strict table. -/
def strictWorkspace : Workspace where
  atHand := []
  circuits := .ofList [("c", (⟨[⟨"ORACLE", [0], none⟩, ⟨"S'", [1], none⟩]⟩ : Circuit))]
  tables := .ofList [("t", AdjointTable.standard.withPolicy .strict)]

/-- The circuit is kept where its inversion fails, in place and for another circuit. -/
theorem strict_failure_keeps :
    (strictWorkspace.execute (.onCircuit "c" (.invert "t"))).2.1
        = .failed (.unknownAdjoint "ORACLE") ∧
      (strictWorkspace.execute (.onCircuit "c" (.invert "t"))).1.circuit "c"
        = strictWorkspace.circuit "c" ∧
      "d" ≠ "c" ∧
      (strictWorkspace.execute (.onCircuit "d" (.invertFrom "c" "t"))).1.circuit "c"
        = strictWorkspace.circuit "c" := by
  have failed : (strictWorkspace.execute (.onCircuit "c" (.invert "t"))).2.1
      = .failed (.unknownAdjoint "ORACLE") := by rfl
  have ne : "d" ≠ "c" := by decide
  obtain ⟨_, _, _, keeps⟩ :=
    inverted_part_by_part (strictWorkspace.table "t") (strictWorkspace.circuit "c")
  exact ⟨failed, (keeps strictWorkspace "c" "c" "t").2 _ failed, ne,
    (keeps strictWorkspace "d" "c" "t").1 ne⟩

/-- Marks taken off to reach a rule come back, and zero changes its sign. -/
example :
    ((⟨[⟨"S''", [1, 0], some ⟨true, 1, by decide⟩⟩, ⟨"RZ'", [2], some ⟨false, 0, by decide⟩⟩,
          ⟨"ORACLE", [0], none⟩]⟩ : Circuit).inverted .standard).result
      = .ok ⟨[⟨"ORACLE", [0], none⟩, ⟨"RZ'", [2], some ⟨true, 0, by decide⟩⟩,
          ⟨"SDG''", [1, 0], some ⟨true, 1, by decide⟩⟩]⟩ := by
  decide

end Circuit

end QuantumCircuit
