import QuantumCircuit.Proofs.Config.Precedence

/-!
# When all entries of a configuration are in force

An accepted configuration may still contradict itself.  Only a gate in both lists is
noticed; a gate in a list and in a pair is not, nor is one in two pairs.  The table then
follows the entry of the highest precedence, and the others are lost without an error.

So all entries are in force exactly when they agree with each other: no gate has two
partners and no listed gate has one (`inForce_iff_coherent`).  A configuration that is
accepted and loses an entry is at the end.
-/

namespace QuantumCircuit

set_option autoImplicit false

namespace Config

/-- A pair joins the two gates, in either direction. -/
def Paired (c : Config) (a b : String) : Prop := c.pairs[a]? = some b ∨ c.pairs[b]? = some a

/-- Every entry of the configuration is a rule of the table, and every pair is so in both
directions. -/
structure InForce (c : Config) (t : AdjointTable) : Prop where
  selfInverse : ∀ gate ∈ c.selfInverse, t.rule? gate = some .selfInverse
  negateParameter : ∀ gate ∈ c.negateParameter, t.rule? gate = some .negateParameter
  pairs : ∀ a b, c.pairs[a]? = some b →
    t.rule? a = some (.named b) ∧ t.rule? b = some (.named a)

/-- The entries of the configuration do not contradict each other. -/
structure Coherent (c : Config) : Prop where
  partner_unique : ∀ gate a b, c.Paired gate a → c.Paired gate b → a = b
  listed_unpaired : ∀ gate a, c.Paired gate a →
    gate ∉ c.selfInverse ∧ gate ∉ c.negateParameter

variable {c : Config} {t : AdjointTable} {gate a b : String}

/-! ## Coherence can be checked -/

/-- The pairs, each in both directions. -/
def partners (c : Config) : List (String × String) :=
  c.pairs.toList ++ c.pairs.toList.map Prod.swap

theorem mem_partners : (a, b) ∈ c.partners ↔ c.Paired a b := by
  have swapped : (a, b) ∈ c.pairs.toList.map Prod.swap ↔ (b, a) ∈ c.pairs.toList := by
    simp
  rw [partners, List.mem_append, swapped, Std.ExtTreeMap.mem_toList_iff_getElem?_eq_some,
    Std.ExtTreeMap.mem_toList_iff_getElem?_eq_some, Paired]

theorem coherent_iff_partners :
    c.Coherent ↔
      (∀ p ∈ c.partners, ∀ q ∈ c.partners, p.1 = q.1 → p.2 = q.2) ∧
        ∀ p ∈ c.partners, p.1 ∉ c.selfInverse ∧ p.1 ∉ c.negateParameter := by
  constructor
  · rintro ⟨unique, unpaired⟩
    refine ⟨?_, fun p member => unpaired p.1 p.2 (mem_partners.mp member)⟩
    rintro ⟨gate, a⟩ first ⟨_, b⟩ second rfl
    exact unique gate a b (mem_partners.mp first) (mem_partners.mp second)
  · rintro ⟨unique, unpaired⟩
    constructor
    · intro gate a b first second
      exact unique (gate, a) (mem_partners.mpr first) (gate, b) (mem_partners.mpr second) rfl
    · intro gate a paired
      exact unpaired (gate, a) (mem_partners.mpr paired)

instance (c : Config) : Decidable c.Coherent := decidable_of_iff _ coherent_iff_partners.symm

/-! ## The rule of a paired gate -/

/-- The rule by the pairs names a partner. -/
theorem exists_paired {rule : AdjointRule} (ruled : c.pairedRule? gate = some rule) :
    ∃ partner, c.Paired gate partner ∧ rule = .named partner := by
  obtain ⟨key, greatest, ruled⟩ := Option.bind_eq_some_iff.mp ruled
  obtain ⟨partner, registered, rfl⟩ := Option.map_eq_some_iff.mp ruled
  obtain ⟨partner', registered', occurs⟩ :=
    mem_keysWith.mp (List.max?_eq_some_iff.mp greatest).1
  obtain rfl : partner = partner' := Option.some.inj (registered.symm.trans registered')
  refine ⟨_, ?_, rfl⟩
  by_cases second : partner = gate
  · rw [if_pos second]
    exact .inr (second ▸ registered)
  · rw [if_neg second]
    exact .inl (occurs.resolve_right second ▸ registered)

/-- A gate without a partner gets no rule by the pairs, and every other gate gets one. -/
theorem pairedRule?_eq_none_iff :
    c.pairedRule? gate = none ↔ ∀ partner, ¬ c.Paired gate partner := by
  rw [← findSome?_pairs, List.findSome?_eq_none_iff]
  constructor
  · rintro free partner (registered | registered)
    · have absent := free _ (mem_reverse_pairs.mpr registered)
      exact AdjointTable.pairRule?_eq_none_iff.mp absent (.inl rfl)
    · have absent := free _ (mem_reverse_pairs.mpr registered)
      exact AdjointTable.pairRule?_eq_none_iff.mp absent (.inr rfl)
  · rintro free ⟨a, b⟩ member
    have registered := mem_reverse_pairs.mp member
    refine AdjointTable.pairRule?_eq_none_iff.mpr ?_
    rintro (rfl | rfl)
    · exact free b (.inl registered)
    · exact free a (.inr registered)

theorem rule?_of_unpaired (unpaired : ∀ partner, ¬ c.Paired gate partner) :
    c.rule? gate = (c.listedRule? gate).or (c.inheritedRule? gate) := by
  rw [rule?, pairedRule?_eq_none_iff.mpr unpaired, Option.none_or]

/-- A gate with only one partner gets the rule that names it. -/
theorem rule?_of_partner (paired : c.Paired gate a)
    (unique : ∀ b, c.Paired gate b → b = a) : c.rule? gate = some (.named a) := by
  cases ruled : c.pairedRule? gate with
  | none => exact absurd paired (pairedRule?_eq_none_iff.mp ruled a)
  | some rule =>
      obtain ⟨partner, paired', rfl⟩ := exists_paired ruled
      rw [rule?, ruled, unique partner paired', Option.some_or]

/-! ## Coherence is the exact condition -/

theorem InForce.paired (inForce : c.InForce t) (paired : c.Paired a b) :
    t.rule? a = some (.named b) := by
  rcases paired with forth | back
  · exact (inForce.pairs a b forth).1
  · exact (inForce.pairs b a back).2

/-- Entries that are all in force cannot contradict each other. -/
theorem InForce.coherent (inForce : c.InForce t) : c.Coherent where
  partner_unique gate a b first second := by
    have same := (inForce.paired first).symm.trans (inForce.paired second)
    exact AdjointRule.named.inj (Option.some.inj same)
  listed_unpaired gate a paired := by
    constructor
    · intro listed
      cases (inForce.paired paired).symm.trans (inForce.selfInverse gate listed)
    · intro listed
      cases (inForce.paired paired).symm.trans (inForce.negateParameter gate listed)

/-- In a table with the rules of an accepted configuration, entries that do not contradict
each other are all in force. -/
theorem Coherent.inForce (coherent : c.Coherent) (accepted : c.validate = .ok ())
    (rule : ∀ gate, t.rule? gate = c.rule? gate) : c.InForce t := by
  have apart := (validate_eq_ok_iff.mp accepted).2
  have joined : ∀ gate a, c.Paired gate a → t.rule? gate = some (.named a) := by
    intro gate a paired
    rw [rule, rule?_of_partner paired]
    intro b other
    exact coherent.partner_unique gate b a other paired
  constructor
  · intro gate listed
    have unpaired : ∀ a, ¬ c.Paired gate a := fun a paired =>
      (coherent.listed_unpaired gate a paired).1 listed
    rw [rule, rule?_of_unpaired unpaired]
    simp [listedRule?, listed, apart gate listed]
  · intro gate listed
    have unpaired : ∀ a, ¬ c.Paired gate a := fun a paired =>
      (coherent.listed_unpaired gate a paired).2 listed
    rw [rule, rule?_of_unpaired unpaired]
    simp [listedRule?, listed]
  · intro a b registered
    exact ⟨joined a b (.inl registered), joined b a (.inr registered)⟩

/-- **All entries of an accepted configuration are in force exactly when they do not
contradict each other.** -/
theorem inForce_iff_coherent (accepted : c.validate = .ok ()) :
    ∃ t, c.adjointTable = .ok t ∧ (c.InForce t ↔ c.Coherent) := by
  obtain ⟨t, described, _, rule⟩ := exists_adjointTable accepted
  exact ⟨t, described, InForce.coherent, fun coherent => coherent.inForce accepted rule⟩

/-- A configuration with entries of every kind that are all in force. -/
theorem all_in_force :
    let c : Config := ⟨.strict, false, ["ORACLE", "S"], ["RTHETA", "H"],
      .ofList [("QFT", "IQFT"), ("X", "X"), ("T", "TDG")]⟩
    c.validate = .ok () ∧ c.Coherent ∧ ∃ t, c.adjointTable = .ok t ∧ c.InForce t := by
  intro c
  have accepted : c.validate = .ok () := by decide
  have coherent : c.Coherent := by decide
  obtain ⟨t, described, exactly⟩ := inForce_iff_coherent accepted
  exact ⟨accepted, coherent, t, described, exactly.mpr coherent⟩

/-- Two pairs with the same second gate. -/
def clashing : Config := ⟨.lenient, false, [], [], .ofList [("A", "B"), ("C", "B")]⟩

/-- **An accepted configuration that loses an entry.**  The pair of A and B is registered in
one direction only, since B follows the pair with C. -/
theorem clashing_not_in_force :
    clashing.validate = .ok () ∧ clashing.pairs["A"]? = some "B" ∧
      ∃ t, clashing.adjointTable = .ok t ∧ t.rule? "A" = some (.named "B") ∧
        t.rule? "B" = some (.named "C") ∧ ¬ clashing.InForce t := by
  have accepted : clashing.validate = .ok () := by decide
  have entry : clashing.pairs["A"]? = some "B" := by decide
  obtain ⟨t, described, _, rule⟩ := exists_adjointTable accepted
  have forth : t.rule? "A" = some (.named "B") := by
    rw [rule]
    decide
  have back : t.rule? "B" = some (.named "C") := by
    rw [rule]
    decide
  refine ⟨accepted, entry, t, described, forth, back, ?_⟩
  intro inForce
  have both := (inForce.pairs "A" "B" entry).2
  rw [back] at both
  exact absurd both (by decide)

end Config

end QuantumCircuit
