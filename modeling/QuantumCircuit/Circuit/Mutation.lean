import QuantumCircuit.Adjoint.Table
import QuantumCircuit.Circuit.Basic
import QuantumCircuit.RandomWords

/-!
# Random mutation

A mutation changes a circuit at one place: it inserts a fixed gate, removes an
operation, or adds a dagger mark to the name of one.  The place and the kind of the
change are drawn from random words, the place first.  An empty circuit has no place,
so it stays as it is and no word is taken.

The record of a mutation has what is needed to undo it.
-/

namespace QuantumCircuit

set_option autoImplicit false

/-- The operation that a mutation inserts. -/
def insertedOperation : Operation := ⟨"X", [0], none⟩

/-- The record of a mutation. -/
inductive Mutation where
  | insert (index : Nat)
  | remove (index : Nat) (removed : Operation)
  | dagger (index : Nat)
  deriving DecidableEq

/-- The place of a mutation. -/
def Mutation.index : Mutation → Nat
  | .insert index => index
  | .remove index _ => index
  | .dagger index => index

/-- What a mutation does at its place. -/
inductive MutationKind where
  | insert
  | remove
  | dagger
  deriving DecidableEq

/-- The kind of the number drawn. -/
def MutationKind.ofDraw : Nat → MutationKind
  | 0 => .insert
  | 1 => .remove
  | _ => .dagger

/-- An operation with one more dagger mark on its name. -/
def Operation.marked (op : Operation) : Operation := { op with gate := withMarks op.gate 1 }

namespace Circuit

/-- Changes a circuit at a place, if it has that place. -/
def mutateAt (c : Circuit) (index : Nat) : MutationKind → Option (Mutation × Circuit)
  | .insert =>
    c.operations[index]?.map fun _ => (.insert index, c.insert index insertedOperation)
  | .remove => (c.remove? index).map fun (removed, rest) => (.remove index removed, rest)
  | .dagger => do
    let op ← c.get? index
    let (_, marked) ← c.replace? index op.marked
    return (.dagger index, marked)

/-- **One random mutation**: its record, the circuit after it and how many words were
taken. -/
def mutate (c : Circuit) (words : List UInt64) : Option Mutation × Circuit × Nat :=
  if c.operations = [] then (none, c, 0)
  else
    let index := Draw.index c.length words
    let kind := Draw.ofThree index.rest
    match c.mutateAt index.value (.ofDraw kind.value) with
    | some (record, c) => (some record, c, index.taken + kind.taken)
    | none => (none, c, index.taken + kind.taken)

end Circuit

end QuantumCircuit
