import QuantumCircuit.Proofs.Validity
import QuantumCircuit.Workspace

/-!
# What holds after every run of commands

A workspace is valid when the operations at hand, the circuits and the tables in it are
valid.  Every command keeps this, whether it succeeds or fails, so it holds after every
run (`run_valid`).

Circuits and tables have to be valid together.  A command on a circuit may take its table
from the workspace, and what it makes is valid only because that table is.
-/

namespace QuantumCircuit

set_option autoImplicit false

/-! ## Effects -/

namespace Effect

/-- The new circuit and the operations given out are valid. -/
structure Valid (e : Effect Circuit) : Prop where
  value : e.value.Valid
  given : ∀ op ∈ e.reply.given, op.Valid

variable {c : Circuit} {reply : Reply}

/-- An effect that gives out no operation is valid with its circuit. -/
theorem Valid.silent (valid : c.Valid) (silent : reply.given = []) {warnings : List String} :
    (⟨c, reply, warnings⟩ : Effect Circuit).Valid := by
  refine ⟨valid, ?_⟩
  intro op member
  rw [silent] at member
  cases member

theorem Valid.giving (valid : c.Valid) {op : Operation} (given : op.Valid) :
    (quiet c (.operation (some op))).Valid :=
  ⟨valid, List.forall_mem_singleton.mpr given⟩

/-- Something that can be rejected keeps validity if its success does. -/
theorem Valid.checked {β : Type} (valid : c.Valid) {result : Except InvalidOperation β}
    {next : β → Effect Circuit} (succeeds : ∀ b, result = .ok b → (next b).Valid) :
    (checked c result next).Valid := by
  cases outcome : result with
  | ok b => exact succeeds b outcome
  | error e => exact .silent valid rfl

end Effect

namespace Workspace

/-- Everything in a workspace is valid. -/
structure Valid (w : Workspace) : Prop where
  atHand : ∀ op ∈ w.atHand, op.Valid
  circuits : ∀ name, (w.circuit name).Valid
  tables : ∀ name, (w.table name).Valid

variable {w : Workspace}

theorem Valid.empty (numbers : Json.NumberReader) : (Workspace.empty numbers).Valid where
  atHand := by simp [Workspace.empty]
  circuits name := by
    simp only [circuit, Workspace.empty, Std.ExtTreeMap.getD_empty]
    exact Circuit.All.empty
  tables name := by
    simp only [table, Workspace.empty, Std.ExtTreeMap.getD_empty]
    exact .standard

theorem Valid.atHand_of_place (valid : w.Valid) {place : Nat} {op : Operation}
    (found : w.atHand[place]? = some op) : op.Valid :=
  valid.atHand op (List.mem_of_getElem? found)

/-! ## One command -/

/-- The operation that a command makes is valid. -/
theorem Valid.made (valid : w.Valid) (action : OperationAction) :
    ∀ op ∈ (w.made action).1.given, op.Valid := by
  cases action with
  | build d =>
      simp only [Workspace.made]
      cases built : d.build with
      | ok op => exact List.forall_mem_singleton.mpr (Operation.Draft.build_valid built)
      | error e => exact List.forall_mem_nil _
  | readJson text =>
      simp only [Workspace.made]
      cases read : Operation.ofJsonText text w.numbers with
      | ok op => exact List.forall_mem_singleton.mpr (Operation.ofJsonText_valid read)
      | error e => exact List.forall_mem_nil _
  | get circuit index =>
      simp only [Workspace.made]
      cases found : (w.circuit circuit).get? index with
      | some op => exact List.forall_mem_singleton.mpr ((valid.circuits circuit).get? found)
      | none => exact List.forall_mem_nil _
  | adjoint place table =>
      simp only [Workspace.made]
      cases found : w.atHand[place]? with
      | none => exact List.forall_mem_nil _
      | some op =>
          cases inverted : ((w.table table).adjoint op).result with
          | ok a =>
              simp only [inverted]
              exact List.forall_mem_singleton.mpr
                ((valid.tables table).adjoint (valid.atHand_of_place found) inverted)
          | error e =>
              simp only [inverted]
              exact List.forall_mem_nil _

/-- The effect of an action on a valid circuit is valid. -/
theorem Valid.circuitEffect (valid : w.Valid) {c : Circuit} (old : c.Valid)
    (action : CircuitAction) : (w.circuitEffect c action).Valid := by
  cases action with
  | new => exact .silent Circuit.All.empty rfl
  | clear => exact .silent Circuit.All.empty rfl
  | reverse => exact .silent old.reverse rfl
  | add d => exact .checked old fun c added => .silent (old.addDraft added) rfl
  | addJson text =>
      simp only [Workspace.circuitEffect]
      cases read : Operation.ofJsonText text w.numbers with
      | ok op => exact .silent (old.add (Operation.ofJsonText_valid read)) rfl
      | error e => exact .silent old rfl
  | addAll ds =>
      have after := old.addDrafts ds
      simp only [Workspace.circuitEffect]
      generalize c.addDrafts ds = added at after
      rcases added with ⟨c', _ | e⟩
      · exact .silent after rfl
      · exact .silent after rfl
  | addAtHand place =>
      refine .silent (old.extend ?_) rfl
      intro op member
      exact valid.atHand_of_place (Option.mem_toList.mp member)
  | assign ds => exact .checked old fun ops built => .silent (Circuit.buildAll_valid built) rfl
  | extend ds =>
      exact .checked old fun ops built => .silent (old.extend (Circuit.buildAll_valid built)) rfl
  | extendAtHand places =>
      refine .silent (old.extend ?_) rfl
      intro op member
      obtain ⟨place, _, found⟩ := List.mem_filterMap.mp member
      exact valid.atHand_of_place found
  | insert index d =>
      refine .checked old fun op built => ?_
      exact .silent (old.insert (Operation.Draft.build_valid built)) rfl
  | insertAtHand index place =>
      simp only [Workspace.circuitEffect]
      cases found : w.atHand[place]? with
      | some op => exact .silent (old.insert (valid.atHand_of_place found)) rfl
      | none => exact .silent old rfl
  | replace index d =>
      refine .checked old ?_
      intro op built
      cases replaced : c.replace? index op with
      | some pair =>
          have kept := old.replace? (Operation.Draft.build_valid built) replaced
          exact .giving kept.2 kept.1
      | none => exact .silent old rfl
  | replaceAtHand index place =>
      simp only [Workspace.circuitEffect]
      cases found : w.atHand[place]? with
      | none => exact .silent old rfl
      | some op =>
          cases replaced : c.replace? index op with
          | some pair =>
              have kept := old.replace? (valid.atHand_of_place found) replaced
              simp only [Option.bind_some, replaced]
              exact .giving kept.2 kept.1
          | none =>
              simp only [Option.bind_some, replaced]
              exact .silent old rfl
  | remove index =>
      simp only [Workspace.circuitEffect]
      cases removed : c.remove? index with
      | some pair =>
          have kept := old.remove? removed
          exact .giving kept.2 kept.1
      | none => exact .silent old rfl
  | takeOperations => exact ⟨Circuit.All.empty, old⟩
  | copy source => exact .silent (valid.circuits source) rfl
  | merge source => exact .silent (old.merge (valid.circuits source)) rfl
  | readJson text =>
      simp only [Workspace.circuitEffect]
      cases read : Circuit.ofJsonText text w.numbers with
      | ok c' => exact .silent (Circuit.ofJsonText_valid read) rfl
      | error e => exact .silent old rfl
  | invert table =>
      have after := old.invert (valid.tables table)
      simp only [Workspace.circuitEffect]
      generalize c.invert (w.table table) = inverted at after
      rcases inverted with ⟨c', warnings, e | _⟩
      · exact .silent after rfl
      · exact .silent after rfl
  | invertFrom source table =>
      simp only [Workspace.circuitEffect]
      cases inverted : ((w.circuit source).inverted (w.table table)).result with
      | ok c' =>
          exact .silent ((valid.circuits source).inverted (valid.tables table) inverted) rfl
      | error e => exact .silent old rfl
  | mutate words =>
      have after := old.mutate words
      simp only [Workspace.circuitEffect]
      generalize c.mutate words = mutated at after
      rcases mutated with ⟨record, c', taken⟩
      refine ⟨after.1, ?_⟩
      rcases record with _ | (_ | ⟨i, removed⟩ | _)
      · exact List.forall_mem_nil _
      · exact List.forall_mem_nil _
      · exact List.forall_mem_singleton.mpr (after.2 i removed rfl)
      · exact List.forall_mem_nil _

/-- The effect of an action on a valid table is valid. -/
theorem Valid.tableEffect (valid : w.Valid) {t : AdjointTable} (old : t.Valid)
    (action : TableAction) : (w.tableEffect t action).value.Valid := by
  cases action with
  | new => exact .empty
  | standard => exact .standard
  | configure c =>
      simp only [Workspace.tableEffect]
      cases described : c.adjointTable with
      | ok t' => exact Config.adjointTable_valid described
      | error e => exact old
  | setPolicy policy => exact old.withPolicy policy
  | insert gate rule =>
      simp only [Workspace.tableEffect]
      cases inserted : t.insert gate rule with
      | ok pair => exact old.insert inserted
      | error e => exact old
  | insertPair a b =>
      simp only [Workspace.tableEffect]
      cases inserted : t.insertPair a b with
      | ok t' => exact old.insertPair inserted
      | error e => exact old
  | remove gate => exact old.remove gate
  | copy source => exact valid.tables source

/-- **A command keeps a workspace valid.** -/
theorem Valid.execute (valid : w.Valid) (command : Command) : (w.execute command).1.Valid := by
  cases command with
  | make action =>
      exact ⟨List.forall_mem_append.mpr ⟨valid.made action, valid.atHand⟩, valid.circuits,
        valid.tables⟩
  | onCircuit name action =>
      have effect := valid.circuitEffect (valid.circuits name) action
      refine ⟨List.forall_mem_append.mpr ⟨effect.given, valid.atHand⟩, ?_,
        valid.tables⟩
      intro other
      simp only [Workspace.execute, circuit, Std.ExtTreeMap.getD_insert]
      split
      · exact effect.value
      · exact valid.circuits other
  | onTable name action =>
      have effect := valid.tableEffect (valid.tables name) action
      refine ⟨valid.atHand, valid.circuits, ?_⟩
      intro other
      simp only [Workspace.execute, table, Std.ExtTreeMap.getD_insert]
      split
      · exact effect
      · exact valid.tables other

/-! ## Runs -/

theorem Valid.run (valid : w.Valid) (commands : List Command) : (w.run commands).Valid := by
  induction commands generalizing w with
  | nil => exact valid
  | cons command rest ih => exact ih (valid.execute command)

/-- **After every run of commands the operations of all circuits are valid, and so are all
tables**, however the numbers of JSON texts are read. -/
theorem run_valid (numbers : Json.NumberReader) (commands : List Command) :
    (∀ name, ∀ op ∈ (((empty numbers).run commands).circuit name).operations,
        op.gate ≠ "" ∧ op.targets ≠ [] ∧ ∀ x, op.parameter = some x → x.isFinite = true) ∧
      (∀ name gate, (((empty numbers).run commands).table name).rule? "" = none ∧
        (((empty numbers).run commands).table name).rule? gate ≠ some (.named "")) := by
  have valid := (Valid.empty numbers).run commands
  constructor
  · intro name op member
    obtain ⟨gate, targets, parameter⟩ := valid.circuits name op member
    exact ⟨gate, targets, parameter⟩
  · intro name gate
    obtain ⟨empty, target⟩ := valid.tables name
    exact ⟨empty, target gate⟩

end Workspace

end QuantumCircuit
