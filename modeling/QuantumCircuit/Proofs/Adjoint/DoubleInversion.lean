import QuantumCircuit.Proofs.Adjoint.Pointwise
import QuantumCircuit.Proofs.Validity
import QuantumCircuit.Workspace

/-!
# When inverting twice gives back the circuit

In a symmetric table the gate that a rule names is paired back.  One might expect that
inverting twice is then the identity, and it is for names that are registered.  A marked
name is another matter.  It follows the rule of its base and gets the name of the partner
with the same marks, but some marked form of the partner may have a rule of its own, which
takes precedence.  The second inversion then goes elsewhere: the gate is captured.

Inverting twice gives back a circuit exactly when none of its gates is captured, and gives
back every circuit exactly when the table is balanced: the shortest registered marked
forms of two partners have equally many marks (`inverted_inverted_iff`).  A symmetric table
that is not balanced is at the end.
-/

namespace QuantumCircuit

set_option autoImplicit false

namespace AdjointTable

/-! ## Symmetric and balanced tables -/

/-- Rules that name another gate come in pairs. -/
def Symmetric (t : AdjointTable) : Prop :=
  ∀ a b, t.rule? a = some (.named b) → t.rule? b = some (.named a)

/-- A gate whose adjoint gets a name that is governed by a marked form of the partner. -/
def Captured (t : AdjointTable) (gate : String) : Prop :=
  ∃ base partner marks, t.Governs base (.named partner) marks gate ∧
    ∃ i, 0 < i ∧ i ≤ marks ∧ t.contains (withMarks partner i) = true

/-- Where a marked form of a partner is registered, one of the gate itself with no more
marks is registered too. -/
def Balanced (t : AdjointTable) : Prop :=
  ∀ a b, t.rule? a = some (.named b) → ∀ n, 0 < n → t.contains (withMarks b n) = true →
    ∃ i, 0 < i ∧ i ≤ n ∧ t.contains (withMarks a i) = true

/-- No registered name ends in a mark. -/
def Unmarked (t : AdjointTable) : Prop := ∀ base, t.contains (withMarks base 1) = false

/-- Whether the gate that a rule names, if it names one, is paired back. -/
def paired (t : AdjointTable) : String × AdjointRule → Bool
  | (a, .named b) => t.rule? b == some (.named a)
  | _ => true

theorem symmetric_iff_paired {t : AdjointTable} :
    t.Symmetric ↔ ∀ entry ∈ t.rules.toList, t.paired entry = true := by
  constructor
  · rintro symmetric ⟨a, rule⟩ member
    have registered : t.rule? a = some rule :=
      Std.ExtTreeMap.mem_toList_iff_getElem?_eq_some.mp member
    cases rule with
    | selfInverse => rfl
    | negateParameter => rfl
    | named b => simpa [paired] using symmetric a b registered
  · intro all a b registered
    have member : (a, .named b) ∈ t.rules.toList :=
      Std.ExtTreeMap.mem_toList_iff_getElem?_eq_some.mpr registered
    simpa [paired] using all (a, .named b) member

instance (t : AdjointTable) : Decidable t.Symmetric :=
  decidable_of_iff _ symmetric_iff_paired.symm

variable {t : AdjointTable} {gate base partner : String} {rule : AdjointRule} {marks : Nat}

theorem contains_iff : t.contains gate = true ↔ ∃ rule, t.rule? gate = some rule :=
  Option.isSome_iff_exists

theorem contains_eq_false_iff : t.contains gate = false ↔ t.rule? gate = none :=
  Option.isSome_eq_false_iff.trans Option.isNone_iff_eq_none

/-- A table without marked names is balanced, since no marked form is registered at all. -/
theorem Unmarked.balanced (unmarked : t.Unmarked) : t.Balanced := by
  intro a b _ n pos registered
  obtain ⟨m, rfl⟩ : ∃ m, n = m + 1 := ⟨n - 1, by omega⟩
  rw [withMarks_succ, unmarked] at registered
  cases registered

theorem unmarked_of_keys
    (all : ∀ key ∈ t.rules.keys, key.toList.getLast? ≠ some daggerMark) : t.Unmarked := by
  intro base
  cases registered : t.contains (withMarks base 1) with
  | false => rfl
  | true =>
      obtain ⟨rule, found⟩ := contains_iff.mp registered
      have member : withMarks base 1 ∈ t.rules.keys :=
        Std.ExtTreeMap.mem_keys.mpr (Std.ExtTreeMap.mem_iff_isSome_getElem?.mpr registered)
      exact absurd (by simp [toList_withMarks]) (all _ member)

/-! ### The standard table -/

theorem standard_symmetric : standard.Symmetric := by decide

theorem standard_unmarked : standard.Unmarked := unmarked_of_keys (by decide)

theorem Governs.free (governs : t.Governs base rule marks gate) {i : Nat} (pos : 0 < i)
    (le : i ≤ marks) : ¬ t.contains (withMarks base i) = true := by
  rw [contains_eq_false_iff.mpr (governs.longest i pos le)]
  exact Bool.false_ne_true

/-- A name is governed in one way only. -/
theorem Governs.unique (valid : t.Valid) {base' : String} {rule' : AdjointRule} {marks' : Nat}
    (first : t.Governs base rule marks gate) (second : t.Governs base' rule' marks' gate) :
    base = base' ∧ rule = rule' ∧ marks = marks' := by
  have same : some (rule, marks) = some (rule', marks') := by
    rw [← first.resolve valid, ← second.resolve valid]
  obtain ⟨rfl, rfl⟩ := Prod.mk.inj (Option.some.inj same)
  refine ⟨withMarks_left_inj.mp (first.gate_eq.symm.trans second.gate_eq), rfl, rfl⟩

/-- Under a rule that names a partner, being captured is about the marked forms of that
partner. -/
theorem Governs.captured_iff (valid : t.Valid)
    (governs : t.Governs base (.named partner) marks gate) :
    t.Captured gate ↔ ∃ i, 0 < i ∧ i ≤ marks ∧ t.contains (withMarks partner i) = true := by
  constructor
  · rintro ⟨base', partner', marks', other, registered⟩
    obtain ⟨rfl, same, rfl⟩ := governs.unique valid other
    cases same
    exact registered
  · intro registered
    exact ⟨base, partner, marks, governs, registered⟩

/-- In a balanced table no gate is captured. -/
theorem Balanced.not_captured (balanced : t.Balanced) : ¬ t.Captured gate := by
  rintro ⟨base, partner, marks, governs, i, pos, le, registered⟩
  obtain ⟨j, posj, lej, own⟩ := balanced base partner governs.registered i pos registered
  exact governs.free posj (Nat.le_trans lej le) own

/-! ## Inverting one operation twice -/

variable {op a : Operation}

/-- The partner governs the name of the adjoint, unless a marked form of it does. -/
theorem Governs.reversed (symmetric : t.Symmetric)
    (governs : t.Governs base (.named partner) marks gate)
    (free : ¬ ∃ i, 0 < i ∧ i ≤ marks ∧ t.contains (withMarks partner i) = true) :
    t.Governs partner (.named base) marks (withMarks partner marks) where
  registered := symmetric base partner governs.registered
  gate_eq := rfl
  longest i pos le := by
    refine contains_eq_false_iff.mp (Bool.eq_false_iff.mpr ?_)
    intro registered
    exact free ⟨i, pos, le, registered⟩

/-- No rule leads back from a captured name: the rule found for it is that of a longer
name than the partner, and by symmetry it cannot lead to a name below the gate. -/
theorem Governs.not_back (symmetric : t.Symmetric)
    (governs : t.Governs base (.named partner) marks op.gate) {i : Nat} (pos : 0 < i)
    (le : i ≤ marks) (registered : t.contains (withMarks partner i) = true)
    {base' : String} {rule' : AdjointRule} {marks' : Nat}
    (found : t.Governs base' rule' marks' (withMarks partner marks)) :
    rule'.apply marks' { op with gate := withMarks partner marks } ≠ op := by
  intro back
  -- The names differ, since the base has no marked form where the partner has one.
  have differ : withMarks partner marks ≠ op.gate := by
    rw [governs.gate_eq]
    intro same
    rw [withMarks_left_inj.mp same] at registered
    exact governs.free pos le registered
  cases rule' with
  | selfInverse => exact differ (congrArg Operation.gate back)
  | negateParameter => exact differ (congrArg Operation.gate back)
  | named target =>
      have longer : marks' < marks := by
        rcases Nat.lt_or_ge marks' marks with lt | ge
        · exact lt
        · exfalso
          have shape : partner = withMarks base' (marks' - marks) :=
            eq_withMarks_of_le ge found.gate_eq
          rw [shape, withMarks_withMarks] at registered
          exact found.free (by omega) (by omega) registered
      have landed : target = withMarks base (marks - marks') := by
        refine eq_withMarks_of_le (Nat.le_of_lt longer) ?_
        rw [← governs.gate_eq]
        exact congrArg Operation.gate back
      have paired : t.rule? target = some (.named base') :=
        symmetric base' target found.registered
      rw [landed] at paired
      exact governs.free (by omega) (by omega) (contains_iff.mpr ⟨_, paired⟩)

/-- A rule that names no gate keeps the name and undoes itself. -/
theorem apply_of_unnamed (marks : Nat) (op : Operation) (unnamed : ∀ b, rule ≠ .named b) :
    (rule.apply marks op).gate = op.gate ∧ rule.apply marks (rule.apply marks op) = op := by
  cases rule with
  | selfInverse => exact ⟨rfl, rfl⟩
  | named b => exact absurd rfl (unnamed b)
  | negateParameter =>
      refine ⟨rfl, ?_⟩
      simp [AdjointRule.apply, Function.comp_def]

/-- An operation under a rule that names no gate is the adjoint of its adjoint. -/
theorem Governs.back_of_unnamed (valid : t.Valid) (governs : t.Governs base rule marks op.gate)
    (unnamed : ∀ b, rule ≠ .named b) : t.Inverts (rule.apply marks op) op := by
  obtain ⟨kept, undone⟩ := apply_of_unnamed marks op unnamed
  have twice := Governs.inverts (rule.apply marks op) valid (kept ▸ governs)
  rwa [undone] at twice

/-- So is one whose partner governs the name of the adjoint. -/
theorem Governs.back_of_free (valid : t.Valid) (symmetric : t.Symmetric)
    (governs : t.Governs base (.named partner) marks op.gate)
    (free : ¬ ∃ i, 0 < i ∧ i ≤ marks ∧ t.contains (withMarks partner i) = true) :
    t.Inverts { op with gate := withMarks partner marks } op := by
  have twice := Governs.inverts { op with gate := withMarks partner marks } valid
    (governs.reversed symmetric free)
  simpa [AdjointRule.apply, ← governs.gate_eq] using twice

/-- **One operation inverted twice**: an adjoint has an adjoint, and that is the operation
exactly when its gate is not captured. -/
theorem Inverts.back_iff (valid : t.Valid) (symmetric : t.Symmetric) (inverts : t.Inverts op a) :
    (t.Inverts a op ↔ ¬ t.Captured op.gate) ∧ t.HasAdjoint a := by
  -- It is enough to know which of the two sides holds.
  have decided : (t.Inverts a op ∧ ¬ t.Captured op.gate) ∨
      ((∃ b, t.Inverts a b ∧ b ≠ op) ∧ t.Captured op.gate) := by
    rcases (inverts_iff valid).mp inverts with
      ⟨base, rule, marks, governs, rfl⟩ | ⟨nothing, _, rfl⟩
    · by_cases unnamed : ∀ b, rule ≠ .named b
      · refine .inl ⟨governs.back_of_unnamed valid unnamed, ?_⟩
        rintro ⟨_, partner, _, other, _⟩
        exact unnamed partner (governs.unique valid other).2.1
      · obtain ⟨partner, rfl⟩ : ∃ b, rule = .named b := by simpa using unnamed
        rw [governs.captured_iff valid]
        by_cases registered : ∃ i, 0 < i ∧ i ≤ marks ∧ t.contains (withMarks partner i) = true
        · obtain ⟨i, pos, le, own⟩ := registered
          have paired := symmetric base partner governs.registered
          obtain ⟨⟨rule', marks'⟩, resolved⟩ :=
            Option.isSome_iff_exists.mp (resolve_isSome valid paired marks)
          obtain ⟨base', found⟩ := exists_governs resolved
          refine .inr ⟨⟨_, ?_, governs.not_back symmetric pos le own found⟩, i, pos, le, own⟩
          exact Governs.inverts { op with gate := withMarks partner marks } valid found
        · exact .inl ⟨governs.back_of_free valid symmetric registered, registered⟩
    · refine .inl ⟨inverts, ?_⟩
      rintro ⟨_, _, _, other, _⟩
      rw [other.resolve valid] at nothing
      cases nothing
  rcases decided with ⟨back, free⟩ | ⟨⟨b, again, ne⟩, captured⟩
  · exact ⟨⟨fun _ => free, fun _ => back⟩, op, back⟩
  · exact ⟨⟨fun back => absurd (again.unique back) ne, fun free => absurd captured free⟩, b, again⟩

/-- The same for rows of operations. -/
theorem back_row_iff (valid : t.Valid) (symmetric : t.Symmetric) {ops as : List Operation}
    (row : List.Forall₂ t.Inverts ops as) :
    List.Forall₂ t.Inverts as ops ↔ ∀ op ∈ ops, ¬ t.Captured op.gate := by
  induction row with
  | nil => simp
  | cons head _ ih =>
      rw [List.forall₂_cons, List.forall_mem_cons, ih, (head.back_iff valid symmetric).1]

end AdjointTable

/-! ## Inverting a circuit twice -/

namespace Circuit

variable {t : AdjointTable} {c d : Circuit}

/-- The inverse of a circuit has an inverse, and that is the circuit exactly when no gate
is captured. -/
theorem inverted_back_iff (valid : t.Valid) (symmetric : t.Symmetric)
    (inverted : (c.inverted t).result = .ok d) :
    ((d.inverted t).result = .ok c ↔ ∀ op ∈ c.operations, ¬ t.Captured op.gate) ∧
      ∃ e, (d.inverted t).result = .ok e := by
  have row := inverted_eq_ok_iff.mp inverted
  constructor
  · have back := AdjointTable.back_row_iff valid symmetric row
    rw [inverted_eq_ok_iff, ← List.forall₂_reverse_iff, List.reverse_reverse, back]
    simp only [List.mem_reverse]
  · refine exists_inverted_iff.mpr ?_
    intro a member
    obtain ⟨op, _, inverts⟩ := exists_related_of_mem row member
    exact (inverts.back_iff valid symmetric).2

/-- A gate that is captured, on one wire, is a valid circuit that does not come back. -/
theorem not_back_of_unbalanced (valid : t.Valid) (symmetric : t.Symmetric)
    (unbalanced : ¬ t.Balanced) :
    ∃ c d : Circuit, c.Valid ∧ (c.inverted t).result = .ok d ∧ (d.inverted t).result ≠ .ok c := by
  unfold AdjointTable.Balanced at unbalanced
  push Not at unbalanced
  obtain ⟨a, b, named, n, pos, registered, free⟩ := unbalanced
  have governs : t.Governs a (.named b) n (withMarks a n) := by
    refine ⟨named, rfl, ?_⟩
    intro i posi le
    exact AdjointTable.contains_eq_false_iff.mp (Bool.eq_false_iff.mpr (free i posi le))
  have inverts : t.Inverts ⟨withMarks a n, [0], none⟩ ⟨withMarks b n, [0], none⟩ :=
    AdjointTable.Governs.inverts ⟨withMarks a n, [0], none⟩ valid governs
  have inverted :
      ((⟨[⟨withMarks a n, [0], none⟩]⟩ : Circuit).inverted t).result
        = .ok ⟨[⟨withMarks b n, [0], none⟩]⟩ :=
    inverted_eq_ok_iff.mpr (.cons inverts .nil)
  refine ⟨_, _, ?_, inverted, ?_⟩
  · refine List.forall_mem_singleton.mpr ⟨?_, by simp, by simp⟩
    exact fun empty => valid.ne_empty named (withMarks_eq_empty.mp empty).1
  · intro back
    have free := (inverted_back_iff valid symmetric inverted).1.mp back
    exact free _ List.mem_cons_self ⟨a, b, n, governs, n, pos, Nat.le_refl n, registered⟩

/-- **Inverting twice, in a symmetric table of either policy.**  The inverse of a circuit
can always be inverted again; this gives back the circuit exactly when none of its gates is
captured, and gives back all circuits exactly when the table is balanced. -/
theorem inverted_inverted_iff (valid : t.Valid) (symmetric : t.Symmetric) :
    (∀ c d : Circuit, (c.inverted t).result = .ok d →
        ((d.inverted t).result = .ok c ↔ ∀ op ∈ c.operations, ¬ t.Captured op.gate) ∧
          ∃ e, (d.inverted t).result = .ok e) ∧
      ((∀ c d : Circuit, c.Valid → (c.inverted t).result = .ok d →
          (d.inverted t).result = .ok c) ↔ t.Balanced) := by
  refine ⟨fun c d inverted => inverted_back_iff valid symmetric inverted, ?_, ?_⟩
  · intro back
    by_contra unbalanced
    obtain ⟨c, d, valid_c, inverted, lost⟩ := not_back_of_unbalanced valid symmetric unbalanced
    exact lost (back c d valid_c inverted)
  · intro balanced c d _ inverted
    refine (inverted_back_iff valid symmetric inverted).1.mpr ?_
    intro op _
    exact balanced.not_captured

/-- Inverting twice gives back every circuit under the standard table. -/
theorem standard_inverted_inverted :
    AdjointTable.standard.Valid ∧ AdjointTable.standard.Symmetric ∧
      ∀ c d : Circuit, c.Valid → (c.inverted .standard).result = .ok d →
        (d.inverted .standard).result = .ok c := by
  refine ⟨.standard, AdjointTable.standard_symmetric, ?_⟩
  have exact_condition := inverted_inverted_iff .standard AdjointTable.standard_symmetric
  exact exact_condition.2.mpr AdjointTable.standard_unmarked.balanced

/-- Two gates that are inverse to each other, a rule for a marked form of the second, and a
circuit with the same marked form of the first. -/
def captureCommands : List Command :=
  [.onTable "t" .new, .onTable "t" (.insertPair "A" "B"),
    .onTable "t" (.insert "B'" .selfInverse), .onCircuit "c" (.add ⟨"A'", [0], none⟩)]

/-- **A symmetric table in which inverting twice loses a circuit.**  The gate A' becomes B',
which has its own rule and stays B'. -/
theorem captured_not_restored :
    let w := Workspace.empty.run captureCommands
    (w.table "t").Symmetric ∧ w.circuit "c" = ⟨[⟨"A'", [0], none⟩]⟩ ∧
      ((w.circuit "c").inverted (w.table "t")).result = .ok ⟨[⟨"B'", [0], none⟩]⟩ ∧
        ((⟨[⟨"B'", [0], none⟩]⟩ : Circuit).inverted (w.table "t")).result
          = .ok ⟨[⟨"B'", [0], none⟩]⟩ := by
  decide

end Circuit

end QuantumCircuit
