import QuantumCircuit.Proofs.Adjoint.Overlay
import QuantumCircuit.Proofs.Adjoint.Pointwise
import QuantumCircuit.Workspace

/-!
# Changing the rule of one gate

One rule governs infinitely many names, those of its gate with further marks, up to the names
where a longer one takes over.  Changing the rule of a gate therefore reaches exactly the names
that lead to the gate (`LeadsTo`): the way down from the name, mark by mark, comes to the gate
before it comes to any other registered name.  Two tables that agree off the gate find the same
rule for every other name (`AgreeOff.resolve_eq`), so adjoints and inverses without such names
stay the same, with their warnings and errors.

A registration is rejected when a name in it is empty.  A pair is registered in two steps, and
`insertPairInPlace` keeps what the first step has done if the second one fails.  That never
happens, since both steps look at the same two names.

None of this needs a valid table.
-/

namespace QuantumCircuit

set_option autoImplicit false

namespace AdjointTable

variable {t t' : AdjointTable} {gate name base : String} {rule : AdjointRule} {marks n : Nat}

/-! ## Names that lead to a gate -/

/-- The name is the gate with `n` further marks, and no name on the way down to the gate has a
rule. -/
structure LeadsTo (t : AdjointTable) (gate : String) (n : Nat) (name : String) : Prop where
  name_eq : name = withMarks gate n
  free : ∀ i, 0 < i → i ≤ n → t.rule? (withMarks gate i) = none

theorem LeadsTo.starts_with (leads : t.LeadsTo gate n name) : gate.toList <+: name.toList := by
  rw [leads.name_eq, toList_withMarks]
  exact List.prefix_append _ _

/-- A governed name leads to every name between it and the one that governs it. -/
theorem Governs.leadsTo (governs : t.Governs base rule marks name) {i : Nat} (le : i ≤ marks) :
    t.LeadsTo (withMarks base i) (marks - i) name := by
  obtain ⟨_, rfl, longest⟩ := governs
  refine ⟨?_, ?_⟩
  · rw [withMarks_withMarks, Nat.add_sub_cancel' le]
  · intro j pos within
    rw [withMarks_withMarks]
    exact longest (i + j) (by omega) (by omega)

/-- An operation whose name leads to a registered gate has the adjoint that the rule of this gate
makes. -/
theorem LeadsTo.adjoint_eq {op : Operation} (leads : t.LeadsTo gate n op.gate) (ne : gate ≠ "")
    (registered : t.rule? gate = some rule) : t.adjoint op = .ok (rule.apply n op) := by
  have found : t.resolve op.gate = some (rule, n) := by
    rw [leads.name_eq, resolve_withMarks ne leads.free, resolve_of_rule registered]
    simp
  rw [adjoint, found]

/-! ## Tables that agree off a gate -/

/-- The two tables have the same policy and the same rules, except for the rule of `gate`. -/
structure AgreeOff (t t' : AdjointTable) (gate : String) : Prop where
  policy_eq : t'.policy = t.policy
  rule_eq : ∀ other, other ≠ gate → t'.rule? other = t.rule? other

namespace AgreeOff

theorem symm (agree : t.AgreeOff t' gate) : t'.AgreeOff t gate where
  policy_eq := agree.policy_eq.symm
  rule_eq other ne := (agree.rule_eq other ne).symm

/-- The names that lead to the gate are the same, since the way down to it is the same. -/
theorem leadsTo (agree : t.AgreeOff t' gate) (leads : t.LeadsTo gate n name) :
    t'.LeadsTo gate n name := by
  refine ⟨leads.name_eq, ?_⟩
  intro i pos le
  have ne : withMarks gate i ≠ gate := by
    intro same
    have longer := congrArg String.length same
    rw [length_withMarks] at longer
    omega
  rw [agree.rule_eq _ ne]
  exact leads.free i pos le

theorem reaches (agree : t.AgreeOff t' gate) (away : ∀ n, ¬ t.LeadsTo gate n name)
    (reaches : t.Reaches base rule marks name) : t'.Reaches base rule marks name := by
  -- The loop asks for the rules of these names only, and would lead to the gate from any of them.
  have same : ∀ i, i ≤ marks → t'.rule? (withMarks base i) = t.rule? (withMarks base i) := by
    intro i le
    refine agree.rule_eq _ ?_
    rintro rfl
    exact away _ (reaches.leadsTo le)
  refine ⟨⟨?_, reaches.gate_eq, ?_⟩, reaches.reached⟩
  · have own := same 0 (Nat.zero_le marks)
    rw [withMarks_zero] at own
    exact own.trans reaches.registered
  · intro i pos le
    exact (same i le).trans (reaches.longest i pos le)

/-- **A name that does not lead to the gate resolves alike.** -/
theorem resolve_eq (agree : t.AgreeOff t' gate) (away : ∀ n, ¬ t.LeadsTo gate n name) :
    t'.resolve name = t.resolve name := by
  have away' : ∀ n, ¬ t'.LeadsTo gate n name := fun n leads => away n (agree.symm.leadsTo leads)
  refine Option.ext ?_
  rintro ⟨rule, marks⟩
  rw [resolve_eq_some_iff_reaches, resolve_eq_some_iff_reaches]
  constructor
  · rintro ⟨base, reaches⟩
    exact ⟨base, agree.symm.reaches away' reaches⟩
  · rintro ⟨base, reaches⟩
    exact ⟨base, agree.reaches away reaches⟩

/-- An operation whose name does not lead to the gate has the same adjoint, with the same warning,
or the same error. -/
theorem adjoint_eq (agree : t.AgreeOff t' gate) {op : Operation}
    (away : ∀ n, ¬ t.LeadsTo gate n op.gate) : t'.adjoint op = t.adjoint op := by
  rw [adjoint, adjoint, agree.resolve_eq away, agree.policy_eq]

theorem adjoints_eq (agree : t.AgreeOff t' gate) {ops : List Operation}
    (away : ∀ op ∈ ops, ∀ n, ¬ t.LeadsTo gate n op.gate) : t'.adjoints ops = t.adjoints ops := by
  induction ops with
  | nil => rfl
  | cons op rest ih =>
      rw [adjoints, adjoints, agree.adjoint_eq (away op List.mem_cons_self),
        ih fun op later => away op (List.mem_cons_of_mem _ later)]

/-- **A circuit in which no name leads to the gate has the same inverse**, with the same warnings,
or the same error. -/
theorem inverted_eq (agree : t.AgreeOff t' gate) {c : Circuit}
    (away : c.All fun op => ∀ n, ¬ t.LeadsTo gate n op.gate) : c.inverted t' = c.inverted t := by
  rw [Circuit.inverted, Circuit.inverted,
    agree.adjoints_eq fun op member => away op (List.mem_reverse.mp member)]

end AgreeOff

/-! ## Registering and removing -/

/-- The changes that concern one gate: the rest of the table stays, and so do the adjoints of all
operations whose names do not lead to the gate. -/
structure ChangedAt (t t' : AdjointTable) (gate : String) : Prop extends t.AgreeOff t' gate where
  adjoint_eq : ∀ op : Operation, (∀ n, ¬ t.LeadsTo gate n op.gate) → t'.adjoint op = t.adjoint op

theorem AgreeOff.changedAt (agree : t.AgreeOff t' gate) : t.ChangedAt t' gate :=
  ⟨agree, fun _ away => agree.adjoint_eq away⟩

/-- **A registration is rejected exactly when a name in it is empty.** -/
theorem insert_rejected_iff :
    (∃ e, t.insert gate rule = .error e) ↔ gate = "" ∨ rule = .named "" := by
  constructor
  · rintro ⟨e, rejected⟩
    by_contra accepted
    obtain ⟨ne, target⟩ := not_or.mp accepted
    obtain ⟨_, inserted, _⟩ := t.insert_overlay ne target
    rw [inserted] at rejected
    cases rejected
  · intro empty
    by_cases ne : gate = ""
    · exact ⟨_, if_pos ne⟩
    · exact ⟨_, (if_neg ne).trans (if_pos (empty.resolve_left ne))⟩

/-- **A registration concerns its gate only**, and its rule is the one applied from then on. -/
theorem insert_changes (t : AdjointTable) (ne : gate ≠ "") (target : rule ≠ .named "") :
    ∃ t', t.insert gate rule = .ok (t.rule? gate, t') ∧ t'.rule? gate = some rule ∧
      t.ChangedAt t' gate ∧
      ∀ (op : Operation) n, t.LeadsTo gate n op.gate → t'.adjoint op = .ok (rule.apply n op) := by
  obtain ⟨t', inserted, overlay⟩ := t.insert_overlay ne target
  have registered : t'.rule? gate = some rule := by rw [overlay.rule_eq, if_pos rfl, Option.some_or]
  have agree : t.AgreeOff t' gate := by
    refine ⟨overlay.policy_eq, ?_⟩
    intro other off
    rw [overlay.rule_eq, if_neg off.symm, Option.none_or]
  refine ⟨t', inserted, registered, agree.changedAt, ?_⟩
  intro op n leads
  exact (agree.leadsTo leads).adjoint_eq ne registered

/-- **A removal concerns its gate only.** -/
theorem remove_changes (t : AdjointTable) (gate : String) :
    (t.remove gate).1 = t.rule? gate ∧ (t.remove gate).2.rule? gate = none ∧
      t.ChangedAt (t.remove gate).2 gate := by
  have rule_eq : ∀ other, (t.remove gate).2.rule? other
      = if compare gate other = .eq then none else t.rule? other :=
    fun other => Std.ExtTreeMap.getElem?_erase
  refine ⟨rfl, ?_, AgreeOff.changedAt ⟨rfl, ?_⟩⟩
  · rw [rule_eq, if_pos (Std.compare_eq_iff_eq.mpr rfl)]
  · intro other off
    rw [rule_eq, if_neg fun same => off (Std.compare_eq_iff_eq.mp same).symm]

/-! ## Registering a pair in place -/

/-- A pair registered in place, one side after the other.  A failure of the second registration
leaves the first one behind. -/
def insertPairInPlace (t : AdjointTable) (a b : String) :
    AdjointTable × Except InvalidOperation Unit :=
  match t.insert a (.named b) with
  | .error e => (t, .error e)
  | .ok (_, t₁) =>
    match t₁.insert b (.named a) with
    | .error e => (t₁, .error e)
    | .ok (_, t₂) => (t₂, .ok ())

variable {a b : String}

/-- The first of the two registrations fails if either name is empty. -/
theorem first_rejected_iff : (∃ e, t.insert a (.named b) = .error e) ↔ a = "" ∨ b = "" := by
  rw [insert_rejected_iff, AdjointRule.named.injEq]

/-- **A pair is registered as a whole or not at all**: a failure in place leaves the table. -/
theorem insertPairInPlace_eq (t : AdjointTable) (a b : String) :
    t.insertPairInPlace a b = match t.insertPair a b with
      | .ok t' => (t', .ok ())
      | .error e => (t, .error e) := by
  unfold insertPairInPlace insertPair
  cases first : t.insert a (.named b) with
  | error e => rfl
  | ok made =>
      obtain ⟨previous, t₁⟩ := made
      -- The first registration has looked at both names, so the second one succeeds.
      have accepted : ¬ (b = "" ∨ a = "") := by
        rw [or_comm, ← first_rejected_iff (t := t), first]
        rintro ⟨e, rejected⟩
        cases rejected
      cases second : t₁.insert b (.named a) with
      | error e => exact absurd (first_rejected_iff.mp ⟨e, second⟩) accepted
      | ok made' =>
          simp only [second]
          rfl

theorem insertPair_rejected (empty : a = "" ∨ b = "") : ∃ e, t.insertPair a b = .error e := by
  obtain ⟨e, first⟩ := (first_rejected_iff (t := t)).mpr empty
  exact ⟨e, by rw [insertPair, first]⟩

end AdjointTable

/-! ## Commands on a table -/

namespace Workspace

/-- A command on a table gives this answer, without warnings, and leaves this table; the rest of the
workspace stays. -/
structure Answers (w : Workspace) (name : String) (action : TableAction) (reply : Reply)
    (t : AdjointTable) : Prop where
  answer_eq : (w.execute (.onTable name action)).2 = (reply, [])
  table_eq : (w.execute (.onTable name action)).1.table name = t
  others_eq : ∀ other, other ≠ name →
    (w.execute (.onTable name action)).1.table other = w.table other
  circuits_eq : (w.execute (.onTable name action)).1.circuits = w.circuits
  atHand_eq : (w.execute (.onTable name action)).1.atHand = w.atHand

variable {w : Workspace} {name : String} {action : TableAction} {reply : Reply} {t : AdjointTable}

theorem answers_of_quiet (effect : w.tableEffect (w.table name) action = .quiet t reply) :
    w.Answers name action reply t := by
  have executed : w.execute (.onTable name action)
      = ({ w with tables := w.tables.insert name t }, reply, []) := by
    rw [execute, effect]
    rfl
  constructor
  case answer_eq => rw [executed]
  case circuits_eq => rw [executed]
  case atHand_eq => rw [executed]
  case table_eq =>
    rw [executed]
    exact Std.ExtTreeMap.getD_insert_self
  case others_eq =>
    intro other ne
    have differ : compare name other ≠ .eq := fun same => ne (Std.compare_eq_iff_eq.mp same).symm
    rw [executed]
    exact Std.ExtTreeMap.getD_insert.trans (if_neg differ)

/-- **Changes of rules are local and atomic.**  Registering a rule or a pair fails exactly when a
name in it is empty, and then the table stays; a pair that is registered in place is never left half
registered.  Otherwise the new rule is the one applied to all names that lead to its gate.
Registering and removing a rule answer with the old one and change neither the policy, nor the rules
of other gates, nor the adjoints of operations whose names do not lead to the gate. -/
theorem rule_changes (w : Workspace) (name : String) :
    (∀ gate rule, gate = "" ∨ rule = .named "" →
        ∃ e, w.Answers name (.insert gate rule) (.failed (.invalidOperation e)) (w.table name)) ∧
      (∀ gate rule, ¬ (gate = "" ∨ rule = .named "") →
        ∃ t, w.Answers name (.insert gate rule) (.rule ((w.table name).rule? gate)) t ∧
          t.rule? gate = some rule ∧ (w.table name).ChangedAt t gate ∧
          ∀ (op : Operation) n, (w.table name).LeadsTo gate n op.gate →
            t.adjoint op = .ok (rule.apply n op)) ∧
      (∀ a b, a = "" ∨ b = "" →
        ∃ e, w.Answers name (.insertPair a b) (.failed (.invalidOperation e)) (w.table name) ∧
          (w.table name).insertPairInPlace a b = (w.table name, .error e)) ∧
      (∀ a b, ¬ (a = "" ∨ b = "") →
        ∃ t, w.Answers name (.insertPair a b) .done t ∧
          (w.table name).insertPairInPlace a b = (t, .ok ())) ∧
      ∀ gate, ∃ t, w.Answers name (.remove gate) (.rule ((w.table name).rule? gate)) t ∧
        t.rule? gate = none ∧ (w.table name).ChangedAt t gate := by
  refine ⟨?_, ?_, ?_, ?_, ?_⟩
  · intro gate rule empty
    obtain ⟨e, rejected⟩ := (AdjointTable.insert_rejected_iff (t := w.table name)).mpr empty
    exact ⟨_, answers_of_quiet (by rw [tableEffect, rejected]; rfl)⟩
  · intro gate rule accepted
    obtain ⟨ne, target⟩ := not_or.mp accepted
    obtain ⟨t, inserted, changes⟩ := (w.table name).insert_changes ne target
    exact ⟨t, answers_of_quiet (by rw [tableEffect, inserted]; rfl), changes⟩
  · intro a b empty
    obtain ⟨e, rejected⟩ := AdjointTable.insertPair_rejected (t := w.table name) empty
    refine ⟨e, answers_of_quiet (by rw [tableEffect, rejected]; rfl), ?_⟩
    rw [AdjointTable.insertPairInPlace_eq, rejected]
  · intro a b accepted
    obtain ⟨first, second⟩ := not_or.mp accepted
    obtain ⟨t, inserted, _⟩ := (w.table name).insertPair_overlay first second
    refine ⟨t, answers_of_quiet (by rw [tableEffect, inserted]; rfl), ?_⟩
    rw [AdjointTable.insertPairInPlace_eq, inserted]
  · intro gate
    obtain ⟨previous, gone, changed⟩ := (w.table name).remove_changes gate
    exact ⟨_, answers_of_quiet (by rw [tableEffect, ← previous]), gone, changed⟩

/-- In the standard table a rule for `S'` takes over `S''` from the rule of `S`, which still governs
`S` itself and which a removal gives back.  A pair with an empty name is rejected. -/
theorem marked_rule_taken_over :
    (∃ t, Workspace.empty.Answers "t" (.insert "S'" .negateParameter) (.rule none) t ∧
        t.adjoint ⟨"S''", [0], none⟩ = .ok ⟨"S''", [0], none⟩ ∧
        t.adjoint ⟨"S", [0], none⟩ = .ok ⟨"SDG", [0], none⟩) ∧
      (∃ e, Workspace.empty.Answers "t" (.insertPair "A" "") (.failed e) .standard) ∧
      ∃ t, Workspace.empty.Answers "t" (.remove "S") (.rule (some (.named "SDG"))) t ∧
        t.adjoint ⟨"T'", [0], none⟩ = .ok ⟨"TDG'", [0], none⟩ := by
  obtain ⟨_, insertion, rejection, _, removal⟩ := rule_changes Workspace.empty "t"
  obtain ⟨t, inserted, _, changed, applied⟩ := insertion "S'" .negateParameter (by decide)
  obtain ⟨e, rejected, _⟩ := rejection "A" "" (.inr rfl)
  obtain ⟨t', removed, _, changed'⟩ := removal "S"
  refine ⟨⟨t, inserted, ?_, ?_⟩, ⟨_, rejected⟩, ⟨t', removed, ?_⟩⟩
  · have leads : AdjointTable.standard.LeadsTo "S'" 1 "S''" := by
      refine ⟨by decide, ?_⟩
      intro i pos le
      obtain rfl : i = 1 := by omega
      decide
    exact applied _ 1 leads
  · have away : ∀ n, ¬ AdjointTable.standard.LeadsTo "S'" n "S" :=
      fun n leads => absurd leads.starts_with (by decide)
    exact (changed.adjoint_eq ⟨"S", [0], none⟩ away).trans (by rfl)
  · have away : ∀ n, ¬ AdjointTable.standard.LeadsTo "S" n "T'" :=
      fun n leads => absurd leads.starts_with (by decide)
    exact (changed'.adjoint_eq ⟨"T'", [0], none⟩ away).trans (by rfl)

end Workspace

end QuantumCircuit
