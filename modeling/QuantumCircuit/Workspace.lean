import QuantumCircuit.Adjoint.Inversion
import QuantumCircuit.Circuit.Json
import QuantumCircuit.Circuit.Mutation
import QuantumCircuit.Config.Basic

/-!
# Workspaces

A workspace holds circuits and adjoint tables under names.  A circuit that has not been
used yet is empty and a table that has not been used yet is the standard one.  Commands
change one circuit or one table and answer with what the change returns; a command that
fails leaves the workspace as it was, except that a row of drafts is appended up to the
first rejected one.

The operations that answers give out stay at hand, the latest first, and can be put into
circuits again.  Some commands do nothing but make such an operation.

Every way of this library to make or change an operation, a circuit or a table is a
command, so what holds after every run of commands holds of everything the library makes.
A workspace also says how the numbers of JSON texts are read.
-/

namespace QuantumCircuit

set_option autoImplicit false

/-- Named circuits and tables, the operations at hand, and the reader of numbers. -/
structure Workspace where
  numbers : Json.NumberReader := .nearest
  atHand : List Operation
  circuits : Std.ExtTreeMap String Circuit
  tables : Std.ExtTreeMap String AdjointTable

/-! ## Commands -/

/-- How an operation is made without changing a circuit. -/
inductive OperationAction where
  | build (d : Operation.Draft)
  | readJson (text : String)
  | get (circuit : String) (index : Nat)
  | adjoint (place : Nat) (table : String)

/-- What can be done to a circuit. -/
inductive CircuitAction where
  | new
  | clear
  | reverse
  | add (d : Operation.Draft)
  | addJson (text : String)
  | addAll (ds : List Operation.Draft)
  | addAtHand (place : Nat)
  | assign (ds : List Operation.Draft)
  | extend (ds : List Operation.Draft)
  | extendAtHand (places : List Nat)
  | insert (index : Nat) (d : Operation.Draft)
  | insertAtHand (index place : Nat)
  | replace (index : Nat) (d : Operation.Draft)
  | replaceAtHand (index place : Nat)
  | remove (index : Nat)
  | takeOperations
  | copy (source : String)
  | merge (source : String)
  | readJson (text : String)
  | invert (table : String)
  | invertFrom (source table : String)
  | mutate (words : List UInt64)

/-- What can be done to a table. -/
inductive TableAction where
  | new
  | standard
  | configure (c : Config)
  | setPolicy (policy : AdjointPolicy)
  | insert (gate : String) (rule : AdjointRule)
  | insertPair (a b : String)
  | remove (gate : String)
  | copy (source : String)

/-- What can be done in a workspace; a name says to which circuit or table. -/
inductive Command where
  | make (action : OperationAction)
  | onCircuit (name : String) (action : CircuitAction)
  | onTable (name : String) (action : TableAction)

/-- What a command answers. -/
inductive Reply where
  | done
  | failed (e : Error)
  | unread (e : Json.ReadError)
  | operation (op : Option Operation)
  | operations (ops : List Operation)
  | mutation (record : Option Mutation) (taken : Nat)
  | rule (previous : Option AdjointRule)

/-- The operations that an answer gives out. -/
def Reply.given : Reply → List Operation
  | .operation op => op.toList
  | .operations ops => ops
  | .mutation (some (.remove _ removed)) _ => [removed]
  | _ => []

/-! ## The effect of actions -/

/-- The new value of what a command is about, its answer, and the warnings given. -/
structure Effect (α : Type) where
  value : α
  reply : Reply
  warnings : List String

namespace Effect

variable {α : Type}

/-- An effect without warnings. -/
def quiet (value : α) (reply : Reply) : Effect α := ⟨value, reply, []⟩

/-- The effect of something that can be rejected: `old` stays when it is. -/
def checked {β : Type} (old : α) (result : Except InvalidOperation β) (next : β → Effect α) :
    Effect α :=
  match result with
  | .ok b => next b
  | .error e => quiet old (.failed (.invalidOperation e))

end Effect

namespace Workspace

/-- A workspace in which nothing has been used yet. -/
def empty (numbers : Json.NumberReader := .nearest) : Workspace := ⟨numbers, [], ∅, ∅⟩

/-- The circuit of a name. -/
def circuit (w : Workspace) (name : String) : Circuit := w.circuits.getD name .empty

/-- The table of a name. -/
def table (w : Workspace) (name : String) : AdjointTable := w.tables.getD name .standard

/-- The answer to an action that makes an operation, and the warnings given. -/
def made (w : Workspace) : OperationAction → Reply × List String
  | .build d =>
    match d.build with
    | .ok op => (.operation (some op), [])
    | .error e => (.failed (.invalidOperation e), [])
  | .readJson text =>
    match Operation.ofJsonText text w.numbers with
    | .ok op => (.operation (some op), [])
    | .error e => (.unread e, [])
  | .get circuit index => (.operation ((w.circuit circuit).get? index), [])
  | .adjoint place table =>
    match w.atHand[place]? with
    | none => (.operation none, [])
    | some op =>
      let adjoint := (w.table table).adjoint op
      match adjoint.result with
      | .ok a => (.operation (some a), adjoint.warnings)
      | .error e => (.failed e, adjoint.warnings)

/-- The effect of an action on the circuit `c`. -/
def circuitEffect (w : Workspace) (c : Circuit) : CircuitAction → Effect Circuit
  | .new | .clear => .quiet .empty .done
  | .reverse => .quiet c.reverse .done
  | .add d => .checked c (c.addDraft d) fun c => .quiet c .done
  | .addJson text =>
    match Operation.ofJsonText text w.numbers with
    | .ok op => .quiet (c.add op) .done
    | .error e => .quiet c (.unread e)
  | .addAll ds =>
    match c.addDrafts ds with
    | (c, none) => .quiet c .done
    | (c, some e) => .quiet c (.failed (.invalidOperation e))
  | .addAtHand place => .quiet (c.extend w.atHand[place]?.toList) .done
  | .assign ds => .checked c (Circuit.buildAll ds) fun ops => .quiet ⟨ops⟩ .done
  | .extend ds => .checked c (Circuit.buildAll ds) fun ops => .quiet (c.extend ops) .done
  | .extendAtHand places => .quiet (c.extend (places.filterMap fun place => w.atHand[place]?)) .done
  | .insert index d => .checked c d.build fun op => .quiet (c.insert index op) .done
  | .insertAtHand index place =>
    match w.atHand[place]? with
    | some op => .quiet (c.insert index op) .done
    | none => .quiet c .done
  | .replace index d =>
    .checked c d.build fun op =>
      match c.replace? index op with
      | some (old, c) => .quiet c (.operation (some old))
      | none => .quiet c (.operation none)
  | .replaceAtHand index place =>
    match w.atHand[place]?.bind (c.replace? index) with
    | some (old, c) => .quiet c (.operation (some old))
    | none => .quiet c (.operation none)
  | .remove index =>
    match c.remove? index with
    | some (removed, c) => .quiet c (.operation (some removed))
    | none => .quiet c (.operation none)
  | .takeOperations => .quiet .empty (.operations c.operations)
  | .copy source => .quiet (w.circuit source) .done
  | .merge source => .quiet (c.merge (w.circuit source)) .done
  | .readJson text =>
    match Circuit.ofJsonText text w.numbers with
    | .ok c => .quiet c .done
    | .error e => .quiet c (.unread e)
  | .invert table =>
    let (c, inverse) := c.invert (w.table table)
    match inverse.result with
    | .ok () => ⟨c, .done, inverse.warnings⟩
    | .error e => ⟨c, .failed e, inverse.warnings⟩
  | .invertFrom source table =>
    let inverse := (w.circuit source).inverted (w.table table)
    match inverse.result with
    | .ok c => ⟨c, .done, inverse.warnings⟩
    | .error e => ⟨c, .failed e, inverse.warnings⟩
  | .mutate words =>
    let (record, c, taken) := c.mutate words
    .quiet c (.mutation record taken)

/-- The effect of an action on the table `t`. -/
def tableEffect (w : Workspace) (t : AdjointTable) : TableAction → Effect AdjointTable
  | .new => .quiet .empty .done
  | .standard => .quiet .standard .done
  | .configure c =>
    match c.adjointTable with
    | .ok t => .quiet t .done
    | .error e => .quiet t (.failed (.config e))
  | .setPolicy policy => .quiet (t.withPolicy policy) .done
  | .insert gate rule =>
    .checked t (t.insert gate rule) fun (previous, t) => .quiet t (.rule previous)
  | .insertPair a b => .checked t (t.insertPair a b) fun t => .quiet t .done
  | .remove gate =>
    let (previous, t) := t.remove gate
    .quiet t (.rule previous)
  | .copy source => .quiet (w.table source) .done

/-! ## Runs -/

/-- **Executes a command.** -/
def execute (w : Workspace) : Command → Workspace × Reply × List String
  | .make action =>
    let (reply, warnings) := w.made action
    ({ w with atHand := reply.given ++ w.atHand }, reply, warnings)
  | .onCircuit name action =>
    let effect := w.circuitEffect (w.circuit name) action
    ({ w with
        atHand := effect.reply.given ++ w.atHand
        circuits := w.circuits.insert name effect.value },
      effect.reply, effect.warnings)
  | .onTable name action =>
    let effect := w.tableEffect (w.table name) action
    ({ w with tables := w.tables.insert name effect.value }, effect.reply, effect.warnings)

/-- The workspace after a run of commands. -/
def run (w : Workspace) (commands : List Command) : Workspace :=
  commands.foldl (fun w command => (w.execute command).1) w

/-! ## What a command on a circuit changes -/

variable {w : Workspace} {name : String}

/-- A command on one circuit leaves the others as they are. -/
theorem circuit_of_ne {other : String} (ne : name ≠ other) (action : CircuitAction) :
    (w.execute (.onCircuit name action)).1.circuit other = w.circuit other := by
  simp [execute, circuit, Std.ExtTreeMap.getD_insert, ne]

theorem circuit_of_eq (action : CircuitAction) :
    (w.execute (.onCircuit name action)).1.circuit name
      = (w.circuitEffect (w.circuit name) action).value := by
  simp [execute, circuit]

end Workspace

end QuantumCircuit
