import QuantumCircuit.Adjoint.Table

/-!
# The rule that governs a marked name

Taking marks off a name one at a time reaches the registered names below it from the
longest to the shortest. So the rule that `resolve` finds is that of the longest
registered name from which the given one comes by adding marks, and the marks it counts
are the added ones. `Governs` says this without the loop, and the loop agrees with it in
both directions (`resolve_eq_some_iff`, `resolve_eq_none_iff`).

The empty name is where the loop and the plain statement could part: a bare mark is the
empty name with a mark, but the loop stops before the empty name. A valid table has no
rule there, and then nothing is lost. Without validity, the loop finds the rules that it
`Reaches` (`resolve_eq_some_iff_reaches`) and finds nothing exactly for the unknown gates
(`resolve_eq_none_iff_unknown`); both are described with the empty name left out.
-/

namespace QuantumCircuit

set_option autoImplicit false

/-! ## Adding marks -/

theorem toList_withMarks (gate : String) (n : Nat) :
    (withMarks gate n).toList = gate.toList ++ List.replicate n daggerMark := by
  simp [withMarks]

theorem length_withMarks (gate : String) (n : Nat) :
    (withMarks gate n).length = gate.length + n := by
  simp [withMarks]

@[simp] theorem withMarks_zero (gate : String) : withMarks gate 0 = gate := by
  simp [withMarks]

theorem withMarks_withMarks (gate : String) (m n : Nat) :
    withMarks (withMarks gate m) n = withMarks gate (m + n) := by
  rw [← String.toList_inj]
  simp [toList_withMarks]

theorem withMarks_succ (gate : String) (n : Nat) :
    withMarks gate (n + 1) = withMarks (withMarks gate n) 1 :=
  (withMarks_withMarks gate n 1).symm

@[simp] theorem withMarks_left_inj {a b : String} {n : Nat} :
    withMarks a n = withMarks b n ↔ a = b := by
  rw [← String.toList_inj, toList_withMarks, toList_withMarks, List.append_cancel_right_eq,
    String.toList_inj]

@[simp] theorem withMarks_eq_empty {gate : String} {n : Nat} :
    withMarks gate n = "" ↔ gate = "" ∧ n = 0 := by
  rw [← String.toList_inj, toList_withMarks]
  simp

/-- Of two names that become the same by adding marks, one is the other with the marks
that it gets fewer. -/
theorem eq_withMarks_of_le {a b : String} {m n : Nat} (le : m ≤ n)
    (same : withMarks a m = withMarks b n) : a = withMarks b (n - m) := by
  have split : n = (n - m) + m := by omega
  rw [split, ← withMarks_withMarks] at same
  exact withMarks_left_inj.mp same

/-- A name is one with a mark added, or no name other than the empty one has it so. -/
theorem marked_or_unmarked (gate : String) :
    (∃ base, base ≠ "" ∧ gate = withMarks base 1) ∨
      ∀ base, base ≠ "" → gate ≠ withMarks base 1 := by
  by_cases marked : ∃ base, base ≠ "" ∧ gate = withMarks base 1
  · exact .inl marked
  · exact .inr fun base ne same => marked ⟨base, ne, same⟩

namespace AdjointTable

variable {t : AdjointTable} {gate base : String} {rule : AdjointRule} {marks : Nat}

/-! ## One round of the loop -/

/-- Counting on from `taken` adds `taken`. -/
theorem resolveReversed_taken (cs : List Char) (taken : Nat) :
    t.resolveReversed cs taken
      = (t.resolveReversed cs 0).map fun found => (found.1, found.2 + taken) := by
  induction cs generalizing taken with
  | nil => simp [resolveReversed, Function.comp_def]
  | cons c rest ih =>
      unfold resolveReversed
      cases t.rule? (String.ofList (c :: rest).reverse) with
      | some rule => simp
      | none =>
          by_cases strip : c = daggerMark ∧ rest ≠ []
          · simp only [if_pos strip]
            rw [ih (taken + 1), ih (0 + 1)]
            simp [Function.comp_def, Nat.add_comm, Nat.add_left_comm]
          · simp [if_neg strip]

/-- A registered name is governed by its own rule. -/
theorem resolve_of_rule (registered : t.rule? gate = some rule) :
    t.resolve gate = some (rule, 0) := by
  unfold resolve
  cases shape : gate.toList.reverse with
  | nil =>
      have : gate = "" := by simpa using shape
      subst this
      simp [resolveReversed, registered]
  | cons c rest =>
      have same : String.ofList (c :: rest).reverse = gate := by simp [← shape]
      unfold resolveReversed
      rw [same, registered]

/-- A mark on an unregistered name is taken off. -/
theorem resolve_mark (ne : gate ≠ "") (free : t.rule? (withMarks gate 1) = none) :
    t.resolve (withMarks gate 1)
      = (t.resolve gate).map fun found => (found.1, found.2 + 1) := by
  have shape : (withMarks gate 1).toList.reverse = daggerMark :: gate.toList.reverse := by
    simp [toList_withMarks]
  have more : gate.toList.reverse ≠ [] := by simpa using ne
  have same : String.ofList (daggerMark :: gate.toList.reverse).reverse = withMarks gate 1 := by
    rw [← shape, List.reverse_reverse, String.ofList_toList]
  unfold resolve
  rw [shape, resolveReversed, same, free]
  simp only [more, ne_eq, not_false_eq_true, and_self, if_true]
  exact resolveReversed_taken _ _

/-- Marks are all taken off when no name with some of them is registered, and the loop goes on as it
does for the name without them. -/
theorem resolve_withMarks {n : Nat} (ne : gate ≠ "")
    (free : ∀ i, 0 < i → i ≤ n → t.rule? (withMarks gate i) = none) :
    t.resolve (withMarks gate n) = (t.resolve gate).map fun found => (found.1, found.2 + n) := by
  induction n with
  | zero => simp
  | succ n ih =>
      have last : t.rule? (withMarks gate (n + 1)) = none := free (n + 1) (by omega) (by omega)
      have before := ih fun i pos le => free i pos (by omega)
      have some_name : withMarks gate n ≠ "" := fun empty => ne (withMarks_eq_empty.mp empty).1
      rw [withMarks_succ] at last ⊢
      rw [resolve_mark some_name last, before, Option.map_map]
      rfl

/-- Nothing governs an unregistered name that has no mark to take off. -/
theorem resolve_unmarked (unmarked : ∀ base, base ≠ "" → gate ≠ withMarks base 1)
    (free : t.rule? gate = none) : t.resolve gate = none := by
  unfold resolve
  cases shape : gate.toList.reverse with
  | nil =>
      have : gate = "" := by simpa using shape
      subst this
      simp [resolveReversed, free]
  | cons c rest =>
      have same : gate = String.ofList (rest.reverse ++ [c]) := by
        rw [← List.reverse_cons, ← shape, List.reverse_reverse, String.ofList_toList]
      unfold resolveReversed
      rw [List.reverse_cons, ← same, free]
      refine if_neg ?_
      rintro ⟨rfl, more⟩
      refine unmarked (String.ofList rest.reverse) (by simpa using more) ?_
      rw [← String.toList_inj, same]
      simp [toList_withMarks]

/-! ## The longest registered name -/

/-- The name `base` governs `gate`: it is registered, `gate` is `base` with further marks,
and no name in between is registered. -/
structure Governs (t : AdjointTable) (base : String) (rule : AdjointRule) (marks : Nat)
    (gate : String) : Prop where
  registered : t.rule? base = some rule
  gate_eq : gate = withMarks base marks
  longest : ∀ i, 0 < i → i ≤ marks → t.rule? (withMarks base i) = none

theorem Valid.ne_empty (valid : t.Valid) (registered : t.rule? gate = some rule) : gate ≠ "" := by
  rintro rfl
  have none : t.rule? "" = none := valid.no_rule_for_empty
  rw [none] at registered
  cases registered

/-- The loop gets from `gate` to the name that governs it.  It stops before the empty name, which is
therefore found for itself only. -/
structure Reaches (t : AdjointTable) (base : String) (rule : AdjointRule) (marks : Nat)
    (gate : String) : Prop extends t.Governs base rule marks gate where
  reached : base = "" → marks = 0

theorem Reaches.resolve (reaches : t.Reaches base rule marks gate) :
    t.resolve gate = some (rule, marks) := by
  obtain ⟨⟨registered, rfl, longest⟩, reached⟩ := reaches
  by_cases empty : base = ""
  · rw [reached empty, withMarks_zero]
    exact resolve_of_rule registered
  · rw [resolve_withMarks empty longest, resolve_of_rule registered]
    simp

theorem exists_reaches (found : t.resolve gate = some (rule, marks)) :
    ∃ base, t.Reaches base rule marks gate := by
  -- The loop goes from a name to a shorter one.
  induction size : gate.toList.length using Nat.strongRecOn generalizing gate marks with
  | ind _ ih =>
      cases registered : t.rule? gate with
      | some own =>
          rw [resolve_of_rule registered] at found
          cases found
          refine ⟨gate, ⟨registered, (withMarks_zero gate).symm, ?_⟩, fun _ => rfl⟩
          intro i pos le
          omega
      | none =>
          rcases marked_or_unmarked gate with ⟨shorter, ne, rfl⟩ | unmarked
          · rw [resolve_mark ne registered] at found
            obtain ⟨⟨below, n⟩, foundBelow, same⟩ := Option.map_eq_some_iff.mp found
            cases same
            have smaller : shorter.toList.length < (withMarks shorter 1).toList.length := by
              simp [toList_withMarks]
            obtain ⟨base, ⟨registeredBase, rfl, longest⟩, reached⟩ :=
              ih _ (size ▸ smaller) foundBelow rfl
            refine ⟨base, ⟨registeredBase, withMarks_withMarks base n 1, ?_⟩, ?_⟩
            · intro i pos le
              rcases Nat.lt_or_eq_of_le le with lt | rfl
              · exact longest i pos (by omega)
              · rw [withMarks_succ]
                exact registered
            · intro empty
              exact absurd (withMarks_eq_empty.mpr ⟨empty, reached empty⟩) ne
          · rw [resolve_unmarked unmarked registered] at found
            cases found

/-- **The loop finds a rule exactly by reaching the name that governs**, in every table. -/
theorem resolve_eq_some_iff_reaches :
    t.resolve gate = some (rule, marks) ↔ ∃ base, t.Reaches base rule marks gate := by
  refine ⟨exists_reaches, ?_⟩
  rintro ⟨base, reaches⟩
  exact reaches.resolve

/-- What governs a name is what the loop finds. -/
theorem Governs.resolve (valid : t.Valid) (governs : t.Governs base rule marks gate) :
    t.resolve gate = some (rule, marks) :=
  Reaches.resolve ⟨governs, fun empty => absurd empty (valid.ne_empty governs.registered)⟩

/-- What the loop finds governs the name. -/
theorem exists_governs (found : t.resolve gate = some (rule, marks)) :
    ∃ base, t.Governs base rule marks gate := by
  obtain ⟨base, reaches⟩ := exists_reaches found
  exact ⟨base, reaches.toGoverns⟩

/-- **The loop finds the rule of the longest registered name below a name.** -/
theorem resolve_eq_some_iff (valid : t.Valid) :
    t.resolve gate = some (rule, marks) ↔ ∃ base, t.Governs base rule marks gate := by
  refine ⟨exists_governs, ?_⟩
  rintro ⟨base, governs⟩
  exact governs.resolve valid

/-! ## Gates that no rule resolves -/

/-- Neither the gate nor a name that is left after taking marks off it is registered.  A
mark alone leaves no name. -/
def Unknown (t : AdjointTable) (gate : String) : Prop :=
  t.rule? gate = none ∧ ∀ base n, base ≠ "" → gate = withMarks base n → t.rule? base = none

/-- A mark does not make an unregistered name known. -/
theorem unknown_mark (ne : gate ≠ "") (free : t.rule? (withMarks gate 1) = none) :
    t.Unknown (withMarks gate 1) ↔ t.Unknown gate := by
  constructor
  · rintro ⟨_, below⟩
    refine ⟨below gate 1 ne rfl, ?_⟩
    intro base n ne same
    refine below base (n + 1) ne ?_
    rw [withMarks_succ base, ← same]
  · rintro ⟨_, below⟩
    refine ⟨free, ?_⟩
    intro base n ne same
    cases n with
    | zero => rwa [← withMarks_zero base, ← same]
    | succ n => exact below base n ne (eq_withMarks_of_le (Nat.le_add_left 1 n) same)

theorem unknown_unmarked (unmarked : ∀ base, base ≠ "" → gate ≠ withMarks base 1)
    (free : t.rule? gate = none) : t.Unknown gate := by
  refine ⟨free, ?_⟩
  intro base n ne same
  cases n with
  | zero => rwa [← withMarks_zero base, ← same]
  | succ n =>
      rw [withMarks_succ] at same
      exact absurd same (unmarked _ fun empty => ne (withMarks_eq_empty.mp empty).1)

/-- **The loop finds nothing exactly for the unknown gates**, in every table. -/
theorem resolve_eq_none_iff_unknown : t.resolve gate = none ↔ t.Unknown gate := by
  -- The loop goes from a name to a shorter one.
  induction size : gate.toList.length using Nat.strongRecOn generalizing gate with
  | ind _ ih =>
      cases registered : t.rule? gate with
      | some rule => simp [resolve_of_rule registered, Unknown, registered]
      | none =>
          rcases marked_or_unmarked gate with ⟨shorter, ne, rfl⟩ | unmarked
          · have smaller : shorter.toList.length < (withMarks shorter 1).toList.length := by
              simp [toList_withMarks]
            rw [resolve_mark ne registered, Option.map_eq_none_iff, unknown_mark ne registered]
            exact ih _ (size ▸ smaller) rfl
          · exact iff_of_true (resolve_unmarked unmarked registered)
              (unknown_unmarked unmarked registered)

instance (t : AdjointTable) (gate : String) : Decidable (t.Unknown gate) :=
  decidable_of_iff _ resolve_eq_none_iff_unknown

/-- Every marked form of a registered name is governed by some rule. -/
theorem resolve_isSome (valid : t.Valid) (registered : t.rule? base = some rule) (n : Nat) :
    (t.resolve (withMarks base n)).isSome := by
  cases found : t.resolve (withMarks base n) with
  | some pair => rfl
  | none =>
      have below := (resolve_eq_none_iff_unknown.mp found).2
      have free := below base n (valid.ne_empty registered) rfl
      rw [registered] at free
      cases free

/-- **Nothing is found exactly when no registered name is below a name.** -/
theorem resolve_eq_none_iff (valid : t.Valid) :
    t.resolve gate = none ↔ ∀ base n, gate = withMarks base n → t.rule? base = none := by
  rw [resolve_eq_none_iff_unknown]
  constructor
  · rintro ⟨_, below⟩ base n same
    by_cases empty : base = ""
    · rw [empty]
      exact valid.no_rule_for_empty
    · exact below base n empty same
  · intro free
    exact ⟨free gate 0 (withMarks_zero gate).symm, fun base n _ same => free base n same⟩

end AdjointTable

end QuantumCircuit
