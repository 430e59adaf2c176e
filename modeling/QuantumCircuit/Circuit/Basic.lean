import QuantumCircuit.Operation

/-!
# Circuits

A circuit is a finite sequence of operations in the order in which they are applied.
Building and editing never reorder operations except `reverse`, which says so.

Editing at a place outside the circuit changes nothing and returns nothing, but an
insertion past the end goes to the end.
-/

namespace QuantumCircuit

set_option autoImplicit false

/-- Operations in the order in which they are applied. -/
structure Circuit where
  operations : List Operation
  deriving DecidableEq

namespace Circuit

/-- All operations of a circuit have a property. -/
def All (P : Operation → Prop) (c : Circuit) : Prop := ∀ op ∈ c.operations, P op

/-- What every circuit built by this library satisfies. -/
def Valid (c : Circuit) : Prop := c.All Operation.Valid

/-! ## Building -/

/-- The circuit without operations. -/
def empty : Circuit := ⟨[]⟩

/-- A circuit is empty unless it is built. -/
instance : Inhabited Circuit := ⟨empty⟩

/-- Appends one operation. -/
def add (c : Circuit) (op : Operation) : Circuit := ⟨c.operations ++ [op]⟩

/-- Checks a draft and appends its operation. -/
def addDraft (c : Circuit) (d : Operation.Draft) : Except InvalidOperation Circuit :=
  d.build.map c.add

/-- Appends drafts up to the first that is rejected.  The operations before it stay. -/
def addDrafts (c : Circuit) : List Operation.Draft → Circuit × Option InvalidOperation
  | [] => (c, none)
  | d :: rest =>
    match c.addDraft d with
    | .ok c => c.addDrafts rest
    | .error e => (c, some e)

/-- The operations of a list of drafts, or the fault of the first rejected one. -/
def buildAll : List Operation.Draft → Except InvalidOperation (List Operation)
  | [] => .ok []
  | d :: rest =>
    match d.build with
    | .error e => .error e
    | .ok op => (buildAll rest).map (op :: ·)

/-- Appends operations. -/
def extend (c : Circuit) (ops : List Operation) : Circuit := ⟨c.operations ++ ops⟩

/-- The operations of `a`, then those of `b`. -/
def merge (a b : Circuit) : Circuit := ⟨a.operations ++ b.operations⟩

/-! ## Editing -/

/-- Inserts before the operation at `index`, or at the end. -/
def insert (c : Circuit) (index : Nat) (op : Operation) : Circuit :=
  ⟨c.operations.insertIdx (min index c.operations.length) op⟩

/-- The operation at `index` and the circuit without it. -/
def remove? (c : Circuit) (index : Nat) : Option (Operation × Circuit) :=
  c.operations[index]?.map fun op => (op, ⟨c.operations.eraseIdx index⟩)

/-- The operation at `index` and the circuit with another one in its place. -/
def replace? (c : Circuit) (index : Nat) (op : Operation) : Option (Operation × Circuit) :=
  c.operations[index]?.map fun old => (old, ⟨c.operations.set index op⟩)

/-- The opposite order of the same operations. -/
def reverse (c : Circuit) : Circuit := ⟨c.operations.reverse⟩

/-! ## Reading off -/

/-- How many operations there are. -/
def length (c : Circuit) : Nat := c.operations.length

/-- The operation at a place, if the circuit has that place. -/
def get? (c : Circuit) (index : Nat) : Option Operation := c.operations[index]?

/-- The gate names in order, repeated ones too. -/
def gateNames (c : Circuit) : List String := c.operations.map (·.gate)

/-- How many wires lie at or below the highest target. -/
def width (c : Circuit) : Nat :=
  (c.operations.flatMap (·.targets)).foldr (fun t width => max (t.toNat + 1) width) 0

/-- Equality of two sequences of operations with parameters compared as numbers. -/
def equivalentOperations : List Operation → List Operation → Bool
  | [], [] => true
  | a :: as, b :: bs => a.equivalent b && equivalentOperations as bs
  | _, _ => false

/-- Equality of circuits with parameters compared as numbers. -/
def equivalent (a b : Circuit) : Bool := equivalentOperations a.operations b.operations

end Circuit

end QuantumCircuit
