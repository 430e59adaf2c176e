import Mathlib.Data.String.Basic
import QuantumCircuit.Config.Basic
import QuantumCircuit.Proofs.Adjoint.Overlay

/-!
# Which entry of a configuration decides about a gate

The table of a configuration comes from a long row of registrations, each of which may
replace the rules of earlier ones.  What is left in the end can be said without the row
(`rule?`): a pair outranks the lists, among the pairs with a gate the one with the greatest
key decides, and the standard rules come last.

Each way of registering lays rules over a table.  The pairs are registered in the order of
their keys, so the one on top is the one with the greatest key (`findSome?_pairs`).
-/

namespace QuantumCircuit

set_option autoImplicit false

namespace Config

variable {c : Config} {t : AdjointTable}

/-! ## The rule of a gate, said without registrations -/

/-- The keys of the pairs with a gate. -/
def keysWith (c : Config) (gate : String) : List String :=
  c.pairs.keys.filter fun key => key = gate ∨ c.pairs[key]? = some gate

/-- The rule by the pair with the greatest key, in the order of code points, among the pairs
with a gate. -/
def pairedRule? (c : Config) (gate : String) : Option AdjointRule :=
  (c.keysWith gate).max?.bind fun key =>
    c.pairs[key]?.map fun partner => .named (if partner = gate then key else partner)

/-- The rule by the two lists. -/
def listedRule? (c : Config) (gate : String) : Option AdjointRule :=
  if gate ∈ c.negateParameter then some .negateParameter
  else if gate ∈ c.selfInverse then some .selfInverse
  else none

/-- The rule by the standard table, unless it is left out. -/
def inheritedRule? (c : Config) (gate : String) : Option AdjointRule :=
  if c.noDefaults then none else AdjointTable.standard.rule? gate

/-- **The rule that a configuration gives to a gate.** -/
def rule? (c : Config) (gate : String) : Option AdjointRule :=
  (c.pairedRule? gate).or ((c.listedRule? gate).or (c.inheritedRule? gate))

/-! ## Accepted configurations -/

theorem mem_names {gate : String} :
    gate ∈ c.names ↔ gate ∈ c.selfInverse ∨ gate ∈ c.negateParameter ∨
      ∃ pair ∈ c.pairs.toList, pair.1 = gate ∨ pair.2 = gate := by
  simp only [names, List.mem_append, List.mem_map, and_or_left, exists_or, or_assoc]

theorem validate_eq_ok_iff :
    c.validate = .ok () ↔ "" ∉ c.names ∧ ∀ gate ∈ c.selfInverse, gate ∉ c.negateParameter := by
  unfold validate objection?
  by_cases empty : "" ∈ c.names
  · simp [empty]
  · cases found : c.selfInverse.find? fun gate => gate ∈ c.negateParameter with
    | none =>
        have apart := List.find?_eq_none.mp found
        simpa [empty] using apart
    | some gate =>
        have both : gate ∈ c.negateParameter := by simpa using List.find?_some found
        have listed : gate ∈ c.selfInverse := List.mem_of_find?_eq_some found
        simpa [empty] using ⟨gate, listed, both⟩

/-! ## Registering -/

theorem registerAll_overlay (t : AdjointTable) (rule : AdjointRule) (target : rule ≠ .named "")
    {gates : List String} (named : "" ∉ gates) :
    ∃ t', registerAll rule t gates = .ok t' ∧
      t.Overlay t' fun gate => if gate ∈ gates then some rule else none := by
  induction gates generalizing t with
  | nil => exact ⟨t, rfl, (AdjointTable.Overlay.refl t).congr (by simp)⟩
  | cons gate rest ih =>
      obtain ⟨first, later⟩ := List.ne_and_not_mem_of_not_mem_cons named
      obtain ⟨t₁, inserted, below⟩ := t.insert_overlay first.symm target
      obtain ⟨t₂, registered, above⟩ := ih t₁ later
      refine ⟨t₂, ?_, (below.trans above).congr ?_⟩
      · unfold registerAll
        rw [inserted]
        exact registered
      · intro other
        by_cases listed : other ∈ rest
        · simp [listed]
        · simp [listed, eq_comm]

/-- The pairs are laid over each other, the last one on top. -/
theorem registerPairs_overlay (t : AdjointTable) {pairs : List (String × String)}
    (named : ∀ pair ∈ pairs, pair.1 ≠ "" ∧ pair.2 ≠ "") :
    ∃ t', registerPairs t pairs = .ok t' ∧
      t.Overlay t' fun gate => pairs.reverse.findSome? (AdjointTable.pairRule? gate) := by
  induction pairs generalizing t with
  | nil => exact ⟨t, rfl, AdjointTable.Overlay.refl t⟩
  | cons pair rest ih =>
      obtain ⟨first, later⟩ := List.forall_mem_cons.mp named
      obtain ⟨t₁, inserted, below⟩ := t.insertPair_overlay first.1 first.2
      obtain ⟨t₂, registered, above⟩ := ih t₁ later
      refine ⟨t₂, ?_, (below.trans above).congr ?_⟩
      · unfold registerPairs
        rw [inserted]
        exact registered
      · intro gate
        rw [List.reverse_cons, List.findSome?_append, List.findSome?_singleton]

/-! ## The pair with the greatest key -/

theorem mem_keysWith {key gate : String} :
    key ∈ c.keysWith gate ↔
      ∃ partner, c.pairs[key]? = some partner ∧ (key = gate ∨ partner = gate) := by
  rw [keysWith, List.mem_filter, Std.ExtTreeMap.mem_keys, Std.ExtTreeMap.mem_iff_isSome_getElem?,
    Option.isSome_iff_exists]
  constructor
  · rintro ⟨⟨partner, registered⟩, occurs⟩
    refine ⟨partner, registered, ?_⟩
    simpa [registered] using occurs
  · rintro ⟨partner, registered, occurs⟩
    refine ⟨⟨partner, registered⟩, ?_⟩
    simpa [registered] using occurs

theorem mem_reverse_pairs {key partner : String} :
    (key, partner) ∈ c.pairs.toList.reverse ↔ c.pairs[key]? = some partner := by
  rw [List.mem_reverse, Std.ExtTreeMap.mem_toList_iff_getElem?_eq_some]

/-- A pair after which no other one has the gate has the greatest key of those with it. -/
theorem max?_keysWith {gate a b : String} {greater less : List (String × String)}
    (split : c.pairs.toList.reverse = greater ++ (a, b) :: less) (occurs : a = gate ∨ b = gate)
    (absent : ∀ pair ∈ greater, AdjointTable.pairRule? gate pair = none) :
    (c.keysWith gate).max? = some a := by
  have registered : c.pairs[a]? = some b := by
    rw [← mem_reverse_pairs, split]
    exact List.mem_append_right _ List.mem_cons_self
  -- The pairs come with descending keys here.
  have sorted : (greater ++ (a, b) :: less).Pairwise fun p q => compare q.1 p.1 = .lt := by
    rw [← split]
    exact List.pairwise_reverse.mpr Std.ExtTreeMap.ordered_keys_toList
  have tail := List.pairwise_cons.mp (List.pairwise_append.mp sorted).2.1
  refine List.max?_eq_some_iff.mpr ⟨mem_keysWith.mpr ⟨b, registered, occurs⟩, ?_⟩
  intro key member
  obtain ⟨partner, entry, occurs'⟩ := mem_keysWith.mp member
  rw [← mem_reverse_pairs, split] at entry
  rcases List.mem_append.mp entry with above | rest
  · exact absurd occurs' (AdjointTable.pairRule?_eq_none_iff.mp (absent _ above))
  · rcases List.mem_cons.mp rest with same | below
    · exact le_of_eq (Prod.mk.inj same).1
    · exact le_of_lt (compare_lt_iff_lt.mp (tail.1 _ below))

/-- The last pair with a gate is the one with the greatest key. -/
theorem findSome?_pairs (c : Config) (gate : String) :
    c.pairs.toList.reverse.findSome? (AdjointTable.pairRule? gate) = c.pairedRule? gate := by
  cases found : c.pairs.toList.reverse.findSome? (AdjointTable.pairRule? gate) with
  | none =>
      have absent := List.findSome?_eq_none_iff.mp found
      have noKey : c.keysWith gate = [] := by
        refine List.eq_nil_iff_forall_not_mem.mpr ?_
        intro key member
        obtain ⟨partner, registered, occurs⟩ := mem_keysWith.mp member
        have free := absent _ (mem_reverse_pairs.mpr registered)
        exact AdjointTable.pairRule?_eq_none_iff.mp free occurs
      simp [pairedRule?, noKey]
  | some rule =>
      obtain ⟨greater, ⟨a, b⟩, less, split, ruled, absent⟩ :=
        List.findSome?_eq_some_iff.mp found
      have registered : c.pairs[a]? = some b := by
        rw [← mem_reverse_pairs, split]
        exact List.mem_append_right _ List.mem_cons_self
      have occurs : a = gate ∨ b = gate := by
        by_contra without
        rw [AdjointTable.pairRule?_eq_none_iff.mpr without] at ruled
        cases ruled
      rw [← ruled, AdjointTable.pairRule?_eq_some occurs]
      simp [pairedRule?, max?_keysWith split occurs absent, registered]

/-! ## The table of an accepted configuration -/

theorem register_overlay (t : AdjointTable) (accepted : c.validate = .ok ()) :
    ∃ t', c.register t = .ok t' ∧
      t.Overlay t' fun gate => (c.pairedRule? gate).or (c.listedRule? gate) := by
  obtain ⟨named, _⟩ := validate_eq_ok_iff.mp accepted
  simp only [mem_names, not_or, not_exists, not_and] at named
  obtain ⟨selfInverse, negateParameter, pairs⟩ := named
  obtain ⟨t₁, first, lowest⟩ := registerAll_overlay t .selfInverse (by decide) selfInverse
  obtain ⟨t₂, second, middle⟩ :=
    registerAll_overlay t₁ .negateParameter (by decide) negateParameter
  obtain ⟨t₃, third, top⟩ := registerPairs_overlay t₂ pairs
  refine ⟨t₃, ?_, ((lowest.trans middle).trans top).congr ?_⟩
  · unfold register
    rw [first]
    show (registerAll .negateParameter t₁ c.negateParameter >>= fun t =>
      registerPairs t c.pairs.toList) = _
    rw [second]
    exact third
  · intro gate
    rw [findSome?_pairs]
    congr 1
    unfold listedRule?
    by_cases negated : gate ∈ c.negateParameter
    · simp [negated]
    · simp [negated]

/-- An accepted configuration has a table, with its policy and the rules that it gives. -/
theorem exists_adjointTable (accepted : c.validate = .ok ()) :
    ∃ t, c.adjointTable = .ok t ∧ t.policy = c.policy ∧ ∀ gate, t.rule? gate = c.rule? gate := by
  obtain ⟨t, registered, overlay⟩ := register_overlay
    ((if c.noDefaults then AdjointTable.empty else .standard).withPolicy c.policy) accepted
  refine ⟨t, ?_, overlay.policy_eq, ?_⟩
  · unfold adjointTable
    simp only [accepted, bind, Except.bind, registered]
    rfl
  · intro gate
    rw [overlay.rule_eq, rule?, Option.or_assoc]
    congr 2
    unfold inheritedRule?
    cases c.noDefaults with
    | true => exact Std.ExtTreeMap.getElem?_empty
    | false => rfl

/-- Accepted configurations of the same policy that give the same rules have the same
table. -/
theorem adjointTable_congr {c' : Config} (accepted : c.validate = .ok ())
    (accepted' : c'.validate = .ok ()) (policy : c'.policy = c.policy)
    (rule : ∀ gate, c'.rule? gate = c.rule? gate) : c'.adjointTable = c.adjointTable := by
  obtain ⟨t, described, policy_eq, rule_eq⟩ := exists_adjointTable accepted
  obtain ⟨t', described', policy_eq', rule_eq'⟩ := exists_adjointTable accepted'
  rw [described, described']
  refine congrArg Except.ok (AdjointTable.ext_rule ?_ ?_)
  · rw [policy_eq', policy, policy_eq]
  · intro gate
    rw [rule_eq', rule, rule_eq]

/-- Of the two lists, only the members matter. -/
theorem adjointTable_lists {selfInverse negateParameter : List String}
    (accepted : c.validate = .ok ())
    (first : ∀ gate, gate ∈ selfInverse ↔ gate ∈ c.selfInverse)
    (second : ∀ gate, gate ∈ negateParameter ↔ gate ∈ c.negateParameter) :
    ({ c with selfInverse, negateParameter } : Config).adjointTable = c.adjointTable := by
  refine adjointTable_congr accepted ?_ rfl ?_
  · rw [validate_eq_ok_iff] at accepted ⊢
    simpa [names, first, second] using accepted
  · intro gate
    have listed :
        listedRule? { c with selfInverse, negateParameter } gate = c.listedRule? gate := by
      simp [listedRule?, first, second]
    unfold rule?
    rw [listed]
    rfl

/-- **The table of an accepted configuration.**  It exists, has the policy of the
configuration, gives each gate the rule that the configuration gives to it, and its size is
the number of gates with such a rule.  Order and repetition in the two lists do not matter. -/
theorem adjointTable_eq_rule (accepted : c.validate = .ok ()) :
    ∃ t, c.adjointTable = .ok t ∧ t.policy = c.policy ∧
      (∀ gate, t.rule? gate = c.rule? gate) ∧
      (∃ gates : Finset String, (∀ gate, gate ∈ gates ↔ (c.rule? gate).isSome = true) ∧
        t.size = gates.card) ∧
      ∀ selfInverse negateParameter : List String,
        (∀ gate, gate ∈ selfInverse ↔ gate ∈ c.selfInverse) →
        (∀ gate, gate ∈ negateParameter ↔ gate ∈ c.negateParameter) →
        ({ c with selfInverse, negateParameter } : Config).adjointTable = .ok t := by
  obtain ⟨t, described, policy, rule⟩ := exists_adjointTable accepted
  refine ⟨t, described, policy, rule, ⟨t.gates, ?_, AdjointTable.card_gates.symm⟩, ?_⟩
  · intro gate
    rw [AdjointTable.mem_gates, rule]
  · intro selfInverse negateParameter first second
    rw [adjointTable_lists accepted first second, described]

/-- A configuration whose entries get into each other's way. -/
def layered : Config where
  policy := .strict
  noDefaults := false
  selfInverse := ["G", "A", "G", "H"]
  negateParameter := ["R", "S"]
  pairs := .ofList [("A", "B"), ("B", "C"), ("S", "Q"), ("X", "X")]

/-- In the table of `layered` pairs outrank lists and greater keys lesser ones. -/
theorem layered_adjointTable :
    layered.validate = .ok () ∧ ∃ t, layered.adjointTable = .ok t ∧ t.policy = .strict ∧
      ["A", "B", "C", "S", "X", "R", "G", "SDG", "RZ", "D"].map t.rule?
        = [some (.named "B"), some (.named "C"), some (.named "B"), some (.named "Q"),
          some (.named "X"), some .negateParameter, some .selfInverse, some (.named "S"),
          some .negateParameter, none] ∧
      ({ layered with selfInverse := ["A", "H", "G"], negateParameter := ["S", "R", "S"] } :
        Config).adjointTable = .ok t := by
  have accepted : layered.validate = .ok () := by decide
  obtain ⟨t, described, policy, rule, _, lists⟩ := adjointTable_eq_rule accepted
  refine ⟨accepted, t, described, policy, ?_, ?_⟩
  · rw [funext rule]
    decide
  · refine lists _ _ ?_ ?_
    · intro gate
      simp only [layered, List.mem_cons, List.not_mem_nil]
      tauto
    · intro gate
      simp only [layered, List.mem_cons, List.not_mem_nil]
      tauto

end Config

end QuantumCircuit
