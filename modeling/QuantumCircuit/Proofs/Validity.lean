import QuantumCircuit.Circuit.Json
import QuantumCircuit.Config.Basic
import QuantumCircuit.Proofs.Adjoint.Pointwise
import QuantumCircuit.Proofs.Circuit.Members

/-!
# Validity is kept

Only the operations that a draft builds are checked.  Adjoints and marks make new
operations from old ones without a check, and their names come from the rules of a table.
So two invariants hold together: the operations of a circuit are valid, and no rule of a
table is for the empty name or names it.

Here every way of making or changing an operation, a circuit or a table is shown to keep
its invariant, apart from the changes to a circuit that only move operations around.  The
ways that can fail are covered by what they return when they succeed; a row of drafts is
also covered up to the first rejected one.
-/

namespace QuantumCircuit

set_option autoImplicit false

/-! ## Operations -/

namespace Operation

variable {d : Draft} {op : Operation}

theorem any_not_finite {p : Option Binary64} :
    (p.any fun x => !x.isFinite) = true ↔ ¬ ∀ x ∈ p, x.isFinite = true := by
  cases p <;> simp

/-- What is built is the draft, and the draft passed all three checks. -/
theorem Draft.build_eq_ok_iff :
    d.build = .ok op ↔ op = ⟨d.gate, d.targets, d.parameter⟩ ∧ op.Valid := by
  unfold Draft.build
  constructor
  · intro built
    split at built
    · cases built
    split at built
    · cases built
    split at built
    · cases built
    rename_i gate targets finite
    cases built
    exact ⟨rfl, gate, targets, not_not.mp (mt any_not_finite.mpr finite)⟩
  · rintro ⟨rfl, gate, targets, finite⟩
    rw [if_neg gate, if_neg targets, if_neg fun faulty => any_not_finite.mp faulty finite]

/-- An operation is valid when its own parts pass the checks. -/
theorem valid_iff_build : op.Valid ↔ Draft.build ⟨op.gate, op.targets, op.parameter⟩ = .ok op := by
  rw [Draft.build_eq_ok_iff]
  exact (and_iff_right rfl).symm

instance (op : Operation) : Decidable op.Valid := decidable_of_iff' _ valid_iff_build

instance (c : Circuit) : Decidable c.Valid :=
  inferInstanceAs (Decidable (∀ op ∈ c.operations, op.Valid))

theorem Draft.build_valid (built : d.build = .ok op) : op.Valid :=
  (Draft.build_eq_ok_iff.mp built).2

theorem ofJson_valid {numbers : Json.NumberReader} {j : Json} (read : ofJson numbers j = .ok op) :
    op.Valid := by
  unfold ofJson at read
  split at read
  · cases read
  · split at read
    · rename_i built
      cases read
      exact Draft.build_valid built
    · cases read

theorem ofJsonText_valid {numbers : Json.NumberReader} {text : String}
    (read : ofJsonText text numbers = .ok op) : op.Valid := by
  unfold ofJsonText at read
  split at read
  · cases read
  · split at read
    · cases read
    · rename_i built
      split at read
      · cases read
        exact ofJson_valid built
      · cases read

theorem ofJsonItems_valid {numbers : Json.NumberReader} {items : List Json} {ops : List Operation}
    (read : ofJsonItems numbers items = .ok ops) : ∀ op ∈ ops, op.Valid := by
  induction items generalizing ops with
  | nil =>
      cases read
      simp
  | cons j rest ih =>
      unfold ofJsonItems at read
      split at read
      · cases read
      · rename_i op built
        cases later : ofJsonItems numbers rest with
        | error e => rw [later] at read; cases read
        | ok ops' =>
            rw [later] at read
            cases read
            exact List.forall_mem_cons.mpr ⟨ofJson_valid built, ih later⟩

theorem Valid.withGate (valid : op.Valid) {gate : String} (ne : gate ≠ "") :
    ({ op with gate := gate } : Operation).Valid :=
  ⟨ne, valid.targets_ne_nil, valid.parameter_finite⟩

/-- A further mark leaves an operation valid. -/
theorem Valid.marked (valid : op.Valid) : op.marked.Valid :=
  valid.withGate fun empty => valid.gate_ne_empty (withMarks_eq_empty.mp empty).1

/-- A rule that does not name the empty gate makes valid operations. -/
theorem Valid.apply (valid : op.Valid) {rule : AdjointRule} (ne : rule ≠ .named "")
    (marks : Nat) : (rule.apply marks op).Valid := by
  cases rule with
  | selfInverse => exact valid
  | named target =>
      refine valid.withGate fun empty => ne ?_
      rw [(withMarks_eq_empty.mp empty).1]
  | negateParameter =>
      refine ⟨valid.gate_ne_empty, valid.targets_ne_nil, ?_⟩
      intro x carried
      obtain ⟨y, held, rfl⟩ := Option.map_eq_some_iff.mp carried
      exact valid.parameter_finite y held

end Operation

/-- The operation that a mutation inserts is valid. -/
theorem insertedOperation_valid : insertedOperation.Valid :=
  Operation.Draft.build_valid (d := ⟨"X", [0], none⟩) rfl

/-! ## Circuits -/

namespace Circuit

variable {a c : Circuit}

theorem Valid.addDraft (valid : c.Valid) {d : Operation.Draft}
    (added : c.addDraft d = .ok a) : a.Valid := by
  cases built : d.build with
  | error e => simp [Circuit.addDraft, built, Except.map] at added
  | ok op =>
      simp only [Circuit.addDraft, built, Except.map, Except.ok.injEq] at added
      subst added
      exact valid.add (Operation.Draft.build_valid built)

theorem Valid.addDrafts (valid : c.Valid) (ds : List Operation.Draft) :
    (c.addDrafts ds).1.Valid := by
  induction ds generalizing c with
  | nil => exact valid
  | cons d rest ih =>
      unfold Circuit.addDrafts
      split
      · rename_i added
        exact ih (valid.addDraft added)
      · exact valid

theorem buildAll_valid {ds : List Operation.Draft} {ops : List Operation}
    (built : buildAll ds = .ok ops) : ∀ op ∈ ops, op.Valid := by
  induction ds generalizing ops with
  | nil =>
      cases built
      simp
  | cons d rest ih =>
      unfold buildAll at built
      split at built
      · cases built
      · rename_i op first
        cases later : buildAll rest with
        | error e => rw [later] at built; cases built
        | ok ops' =>
            rw [later] at built
            cases built
            exact List.forall_mem_cons.mpr ⟨Operation.Draft.build_valid first, ih later⟩

theorem ofJsonText_valid {numbers : Json.NumberReader} {text : String}
    (read : ofJsonText text numbers = .ok c) : c.Valid := by
  unfold ofJsonText at read
  simp only at read
  split at read
  · cases read
  · rename_i built
    split at read
    · cases read
      exact Operation.ofJsonItems_valid built
    · cases read

end Circuit

/-! ## Tables -/

namespace AdjointTable

variable {t t' : AdjointTable} {gate : String} {rule : AdjointRule}

/-- A rule may be registered when neither its gate nor the gate it names is empty. -/
theorem Valid.register (valid : t.Valid) (ne : gate ≠ "") (target : rule ≠ .named "") :
    ({ t with rules := t.rules.insert gate rule } : AdjointTable).Valid := by
  constructor
  · show (t.rules.insert gate rule)[""]? = none
    rw [Std.ExtTreeMap.getElem?_insert, if_neg]
    · exact valid.no_rule_for_empty
    · simpa using ne
  · intro other
    show (t.rules.insert gate rule)[other]? ≠ some (.named "")
    rw [Std.ExtTreeMap.getElem?_insert]
    split
    · simpa using target
    · exact valid.no_rule_names_empty other

theorem Valid.registerMany (valid : t.Valid) {entries : List (String × AdjointRule)}
    (named : ∀ e ∈ entries, e.1 ≠ "" ∧ e.2 ≠ .named "") :
    ({ t with rules := t.rules.insertMany entries } : AdjointTable).Valid := by
  induction entries generalizing t with
  | nil => rwa [Std.ExtTreeMap.insertMany_nil]
  | cons e rest ih =>
      obtain ⟨first, later⟩ := List.forall_mem_cons.mp named
      rw [Std.ExtTreeMap.insertMany_cons]
      exact ih (valid.register first.1 first.2) later

theorem Valid.empty : AdjointTable.empty.Valid :=
  ⟨Std.ExtTreeMap.getElem?_empty, fun _ => by simp [AdjointTable.empty]⟩

theorem Valid.standard : AdjointTable.standard.Valid := by
  have named : ∀ e ∈ standardRules, e.1 ≠ "" ∧ e.2 ≠ .named "" := by decide
  have valid := Valid.empty.registerMany named
  rw [AdjointTable.empty, ← Std.ExtTreeMap.ofList_eq_insertMany_empty] at valid
  exact valid

theorem Valid.withPolicy (valid : t.Valid) (policy : AdjointPolicy) : (t.withPolicy policy).Valid :=
  ⟨valid.no_rule_for_empty, valid.no_rule_names_empty⟩

theorem Valid.insert (valid : t.Valid) {previous : Option AdjointRule}
    (inserted : t.insert gate rule = .ok (previous, t')) : t'.Valid := by
  unfold AdjointTable.insert at inserted
  split at inserted
  · cases inserted
  split at inserted
  · cases inserted
  rename_i ne target
  cases inserted
  exact valid.register ne target

theorem Valid.insertPair (valid : t.Valid) {a b : String}
    (inserted : t.insertPair a b = .ok t') : t'.Valid := by
  unfold AdjointTable.insertPair at inserted
  split at inserted
  · cases inserted
  · rename_i middle forth
    cases back : middle.insert b (.named a) with
    | error e => rw [back] at inserted; cases inserted
    | ok both =>
        rw [back] at inserted
        cases inserted
        exact (valid.insert forth).insert back

theorem Valid.remove (valid : t.Valid) (gate : String) : (t.remove gate).2.Valid := by
  constructor
  · show (t.rules.erase gate)[""]? = none
    rw [Std.ExtTreeMap.getElem?_erase]
    split
    · rfl
    · exact valid.no_rule_for_empty
  · intro other
    show (t.rules.erase gate)[other]? ≠ some (.named "")
    rw [Std.ExtTreeMap.getElem?_erase]
    split
    · simp
    · exact valid.no_rule_names_empty other

end AdjointTable

namespace Config

variable {c : Config} {t t' : AdjointTable}

theorem registerAll_valid {rule : AdjointRule} {gates : List String} (valid : t.Valid)
    (registered : registerAll rule t gates = .ok t') : t'.Valid := by
  induction gates generalizing t with
  | nil =>
      cases registered
      exact valid
  | cons gate rest ih =>
      unfold registerAll at registered
      split at registered
      · cases registered
      · rename_i inserted
        exact ih (valid.insert inserted) registered

theorem registerPairs_valid {pairs : List (String × String)} (valid : t.Valid)
    (registered : registerPairs t pairs = .ok t') : t'.Valid := by
  induction pairs generalizing t with
  | nil =>
      cases registered
      exact valid
  | cons pair rest ih =>
      unfold registerPairs at registered
      split at registered
      · cases registered
      · rename_i inserted
        exact ih (valid.insertPair inserted) registered

theorem register_valid (valid : t.Valid) (registered : c.register t = .ok t') : t'.Valid := by
  unfold register at registered
  cases first : registerAll .selfInverse t c.selfInverse with
  | error e => rw [first] at registered; cases registered
  | ok t₁ =>
      cases second : registerAll .negateParameter t₁ c.negateParameter with
      | error e => simp [first, second, bind, Except.bind] at registered
      | ok t₂ =>
          simp only [first, second, bind, Except.bind] at registered
          exact registerPairs_valid (registerAll_valid (registerAll_valid valid first) second)
            registered

/-- The table of a configuration is valid, whatever the configuration is. -/
theorem adjointTable_valid (described : c.adjointTable = .ok t) : t.Valid := by
  unfold adjointTable at described
  cases accepted : c.validate with
  | error e => simp [accepted, bind, Except.bind] at described
  | ok _ =>
      simp only [accepted, bind, Except.bind] at described
      split at described
      · rename_i registered
        cases described
        refine register_valid ?_ registered
        split
        · exact AdjointTable.Valid.empty.withPolicy c.policy
        · exact AdjointTable.Valid.standard.withPolicy c.policy
      · cases described

end Config

/-! ## Inversion and mutation -/

namespace AdjointTable

variable {t : AdjointTable} {op a : Operation}

/-- Adjoints of valid operations under a valid table are valid. -/
theorem Valid.adjoint (valid : t.Valid) (valid_op : op.Valid)
    (inverted : (t.adjoint op).result = .ok a) : a.Valid := by
  unfold AdjointTable.adjoint at inverted
  split at inverted
  · rename_i rule marks found
    cases inverted
    obtain ⟨base, governs⟩ := exists_governs found
    refine valid_op.apply ?_ marks
    rintro rfl
    exact valid.no_rule_names_empty base governs.registered
  · split at inverted
    · cases inverted
      exact valid_op
    · cases inverted

end AdjointTable

namespace Circuit

variable {c d : Circuit} {t : AdjointTable}

theorem Valid.inverted (valid : c.Valid) (table : t.Valid)
    (inverted : (c.inverted t).result = .ok d) : d.Valid := by
  intro a member
  obtain ⟨op, old, adjoint⟩ := exists_related_of_mem (inverted_eq_ok_iff.mp inverted) member
  exact table.adjoint (valid op (List.mem_reverse.mp old)) adjoint

/-- Inversion in place leaves a valid circuit, also when it fails. -/
theorem Valid.invert (valid : c.Valid) (table : t.Valid) : (c.invert t).1.Valid := by
  cases inverted : (c.inverted t).result with
  | error e =>
      rw [invert_of_error inverted]
      exact valid
  | ok d =>
      rw [invert_of_ok inverted]
      exact valid.inverted table inverted

/-- A mutation leaves a valid circuit, and what it removes is valid. -/
theorem Valid.mutate (valid : c.Valid) (words : List UInt64) :
    (c.mutate words).2.1.Valid ∧
      ∀ i removed, (c.mutate words).1 = some (.remove i removed) → removed.Valid :=
  All.mutate insertedOperation_valid (fun _ valid => valid.marked) valid words

end Circuit

end QuantumCircuit
