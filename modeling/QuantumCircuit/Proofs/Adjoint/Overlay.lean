import Mathlib.Data.Finset.Card
import QuantumCircuit.Adjoint.Table

/-!
# Laying rules over a table

Registering rules is laying new rules over a table: a gate follows the new rules as far as
they say something about it, and the old ones otherwise (`Overlay`).  Overlays compose, the
later one on top, so a row of registrations is described by the rules that each of them
lays over any table.

A table is given by its policy and by the rules that it has for the gates (`ext_rule`), and
its size is the number of the gates with a rule (`card_gates`).
-/

namespace QuantumCircuit

set_option autoImplicit false

namespace AdjointTable

variable {s t t' : AdjointTable} {f g : String → Option AdjointRule}

/-- The table `t'` has the rules `new`, and below them those of `t`. -/
structure Overlay (t t' : AdjointTable) (new : String → Option AdjointRule) : Prop where
  policy_eq : t'.policy = t.policy
  rule_eq : ∀ gate, t'.rule? gate = (new gate).or (t.rule? gate)

theorem Overlay.refl (t : AdjointTable) : t.Overlay t fun _ => none :=
  ⟨rfl, fun _ => Option.none_or.symm⟩

/-- The later rules lie over the earlier ones. -/
theorem Overlay.trans (first : s.Overlay t f) (second : t.Overlay t' g) :
    s.Overlay t' fun gate => (g gate).or (f gate) where
  policy_eq := second.policy_eq.trans first.policy_eq
  rule_eq gate := by rw [second.rule_eq, first.rule_eq, Option.or_assoc]

theorem Overlay.congr (overlay : s.Overlay t f) (same : ∀ gate, f gate = g gate) :
    s.Overlay t g :=
  ⟨overlay.policy_eq, fun gate => by rw [overlay.rule_eq, same]⟩

/-- A table is given by its policy and the rules that it has for the gates. -/
theorem ext_rule (policy : s.policy = t.policy) (rule : ∀ gate, s.rule? gate = t.rule? gate) :
    s = t := by
  obtain ⟨rules, _⟩ := s
  obtain ⟨rules', _⟩ := t
  obtain rfl : rules = rules' := Std.ExtTreeMap.ext_getElem? rule
  obtain rfl := policy
  rfl

/-! ## Single registrations -/

theorem insert_overlay (t : AdjointTable) {gate : String} {rule : AdjointRule} (ne : gate ≠ "")
    (target : rule ≠ .named "") :
    ∃ t', t.insert gate rule = .ok (t.rule? gate, t') ∧
      t.Overlay t' fun other => if gate = other then some rule else none := by
  have inserted : t.insert gate rule
      = .ok (t.rule? gate, { t with rules := t.rules.insert gate rule }) := by
    rw [insert, if_neg ne, if_neg target, rule?]
  refine ⟨_, inserted, rfl, ?_⟩
  intro other
  show (t.rules.insert gate rule)[other]? = _
  rw [Std.ExtTreeMap.getElem?_insert]
  by_cases same : gate = other
  · simp [same]
  · simp [same, rule?]

/-- The rule that a pair gives to a gate.  A gate that is paired with itself gets it from
either side. -/
def pairRule? (gate : String) (pair : String × String) : Option AdjointRule :=
  if pair.2 = gate then some (.named pair.1)
  else if pair.1 = gate then some (.named pair.2)
  else none

theorem pairRule?_eq_none_iff {gate : String} {pair : String × String} :
    pairRule? gate pair = none ↔ ¬ (pair.1 = gate ∨ pair.2 = gate) := by
  unfold pairRule?
  by_cases second : pair.2 = gate
  · simp [second]
  · by_cases first : pair.1 = gate
    · simp [first, second]
    · simp [first, second]

/-- A gate in a pair gets the other one of the two. -/
theorem pairRule?_eq_some {gate : String} {pair : String × String}
    (occurs : pair.1 = gate ∨ pair.2 = gate) :
    pairRule? gate pair = some (.named (if pair.2 = gate then pair.1 else pair.2)) := by
  unfold pairRule?
  by_cases second : pair.2 = gate
  · simp [second]
  · simp [second, occurs.resolve_right second]

theorem insertPair_overlay (t : AdjointTable) {a b : String} (first : a ≠ "") (second : b ≠ "") :
    ∃ t', t.insertPair a b = .ok t' ∧ t.Overlay t' fun gate => pairRule? gate (a, b) := by
  have names : ∀ gate, gate ≠ "" → AdjointRule.named gate ≠ .named "" := by
    intro gate ne same
    exact ne (AdjointRule.named.inj same)
  obtain ⟨t₁, forth, below⟩ := t.insert_overlay first (names b second)
  obtain ⟨t₂, back, above⟩ := t₁.insert_overlay second (names a first)
  refine ⟨t₂, ?_, (below.trans above).congr ?_⟩
  · unfold insertPair
    rw [forth]
    simp only
    rw [back]
    rfl
  · intro gate
    by_cases same : b = gate
    · simp [pairRule?, same]
    · simp [pairRule?, same]

/-! ## The number of rules -/

/-- The gates that have a rule. -/
def gates (t : AdjointTable) : Finset String := t.rules.keys.toFinset

theorem mem_gates {gate : String} : gate ∈ t.gates ↔ (t.rule? gate).isSome = true := by
  rw [gates, List.mem_toFinset, Std.ExtTreeMap.mem_keys, Std.ExtTreeMap.mem_iff_isSome_getElem?]
  rfl

theorem card_gates : t.gates.card = t.size := by
  have distinct : t.rules.keys.Nodup := by
    refine Std.ExtTreeMap.distinct_keys.imp ?_
    intro a b differ same
    exact differ (Std.compare_eq_iff_eq.mpr same)
  rw [gates, List.toFinset_card_of_nodup distinct]
  exact Std.ExtTreeMap.length_keys

end AdjointTable

end QuantumCircuit
