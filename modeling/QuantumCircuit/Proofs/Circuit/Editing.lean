import Mathlib.Data.List.InsertIdx
import QuantumCircuit.Circuit.Basic

/-!
# Edits and what takes them back

An insertion is taken back by a removal at the same place and a removal by an insertion.  What a
replacement changes is one place, and replacing there once more with the old operation takes it
back.

`Inserted` and `Replaced` say at all places what has become of a circuit.  A place past the end is
the end for an insertion (`inserted`), and no place for a removal or a replacement.
-/

namespace QuantumCircuit

set_option autoImplicit false

namespace Circuit

variable {c d : Circuit} {op old : Operation} {index : Nat}

/-- A circuit is given by its operations at all places. -/
theorem ext_get? (same : ∀ i, c.get? i = d.get? i) : c = d := by
  obtain ⟨ops⟩ := c
  obtain ⟨ops'⟩ := d
  obtain rfl : ops = ops' := List.ext_getElem? same
  rfl

/-- Inside a circuit, and at its end, the place of an insertion is the given one. -/
theorem operations_insert (le : index ≤ c.length) :
    (c.insert index op).operations = c.operations.insertIdx index op := by
  have place : min index c.operations.length = index := Nat.min_eq_left le
  unfold insert
  rw [place]

theorem get?_insert (le : index ≤ c.length) : (c.insert index op).get? index = some op := by
  unfold get?
  rw [operations_insert le, List.getElem?_insertIdx_self]
  exact if_pos le

theorem remove?_insert (le : index ≤ c.length) :
    (c.insert index op).remove? index = some (op, c) := by
  have there : (c.insert index op).operations[index]? = some op := get?_insert le
  unfold remove?
  rw [there, operations_insert le, List.eraseIdx_insertIdx_self]
  rfl

theorem insert_of_remove? (removed : c.remove? index = some (op, d)) :
    c.get? index = some op ∧ d.insert index op = c := by
  obtain ⟨_, there, same⟩ := Option.map_eq_some_iff.mp removed
  cases same
  obtain ⟨lt, rfl⟩ := List.getElem?_eq_some_iff.mp there
  have le : index ≤ (⟨c.operations.eraseIdx index⟩ : Circuit).length := by
    show index ≤ (c.operations.eraseIdx index).length
    rw [List.length_eraseIdx_of_lt lt]
    omega
  have back := (operations_insert le).trans (List.insertIdx_eraseIdx_getElem lt)
  exact ⟨there, congrArg Circuit.mk back⟩

theorem get?_of_replace? (replaced : c.replace? index op = some (old, d)) :
    c.get? index = some old ∧ d.get? index = some op ∧ ∀ i, i ≠ index → d.get? i = c.get? i := by
  obtain ⟨_, there, same⟩ := Option.map_eq_some_iff.mp replaced
  cases same
  obtain ⟨lt, _⟩ := List.getElem?_eq_some_iff.mp there
  refine ⟨there, List.getElem?_set_self lt, ?_⟩
  intro i ne
  exact List.getElem?_set_ne ne.symm

theorem length_of_replace? (replaced : c.replace? index op = some (old, d)) :
    d.length = c.length := by
  obtain ⟨_, _, same⟩ := Option.map_eq_some_iff.mp replaced
  cases same
  exact List.length_set

theorem exists_remove? (there : c.get? index = some op) : ∃ d, c.remove? index = some (op, d) := by
  have found : c.operations[index]? = some op := there
  unfold remove?
  rw [found]
  exact ⟨_, rfl⟩

theorem exists_replace? (there : c.get? index = some old) (op : Operation) :
    ∃ d, c.replace? index op = some (old, d) := by
  have found : c.operations[index]? = some old := there
  unfold replace?
  rw [found]
  exact ⟨_, rfl⟩

/-! ## Edits place by place -/

/-- The circuit `d` has `op` at a place, and around it the operations of `c`. -/
structure Inserted (c : Circuit) (index : Nat) (op : Operation) (d : Circuit) : Prop where
  length_eq : d.length = c.length + 1
  here : d.get? index = some op
  before : ∀ i, i < index → d.get? i = c.get? i
  after : ∀ i, index ≤ i → d.get? (i + 1) = c.get? i
  back : d.remove? index = some (op, c)

/-- The circuit `d` has `op` where `c` has `old`, and is the same as `c` otherwise. -/
structure Replaced (c : Circuit) (index : Nat) (old op : Operation) (d : Circuit) : Prop where
  length_eq : d.length = c.length
  there : c.get? index = some old
  here : d.get? index = some op
  others : ∀ i, i ≠ index → d.get? i = c.get? i
  back : d.replace? index old = some (op, c)

/-- Past the end, an insertion goes to the end. -/
theorem insert_min (c : Circuit) (index : Nat) (op : Operation) :
    c.insert (min index c.length) op = c.insert index op := by
  have twice : min (min index c.length) c.operations.length = min index c.operations.length :=
    Nat.min_eq_left (Nat.min_le_right _ _)
  unfold insert
  rw [twice]

/-- **An insertion place by place.** -/
theorem inserted (c : Circuit) (index : Nat) (op : Operation) :
    c.Inserted (min index c.length) op (c.insert index op) := by
  have le : min index c.length ≤ c.length := Nat.min_le_right _ _
  rw [← insert_min]
  generalize min index c.length = place at le
  have operations : (c.insert place op).operations = c.operations.insertIdx place op :=
    operations_insert le
  refine ⟨?_, get?_insert le, ?_, ?_, remove?_insert le⟩
  · unfold length
    rw [operations, List.length_insertIdx_of_le_length le]
  · intro i lt
    unfold get?
    rw [operations, List.getElem?_insertIdx_of_lt lt]
  · intro i atLeast
    unfold get?
    rw [operations]
    exact List.getElem?_insertIdx_of_gt (Nat.lt_succ_of_le atLeast)

/-- What is left after a removal has the rest of the circuit around the place. -/
theorem inserted_of_remove? (removed : c.remove? index = some (op, d)) :
    d.Inserted index op c := by
  obtain ⟨there, whole⟩ := insert_of_remove? removed
  have around := d.inserted index op
  have place : min index d.length = index := by
    have lt : index < c.length := (List.getElem?_eq_some_iff.mp there).1
    have longer := around.length_eq
    rw [whole] at longer
    omega
  rwa [whole, place] at around

/-- **A replacement place by place.** -/
theorem replaced_of_replace? (replaced : c.replace? index op = some (old, d)) :
    c.Replaced index old op d := by
  obtain ⟨there, here, others⟩ := get?_of_replace? replaced
  obtain ⟨c', back⟩ := exists_replace? here old
  obtain ⟨_, again, elsewhere⟩ := get?_of_replace? back
  have restored : c' = c := by
    refine ext_get? fun i => ?_
    by_cases place : i = index
    · rw [place, again, there]
    · rw [elsewhere i place, others i place]
  exact ⟨length_of_replace? replaced, there, here, others, restored ▸ back⟩

theorem remove?_eq_none_iff : c.remove? index = none ↔ c.length ≤ index :=
  Option.map_eq_none_iff.trans List.getElem?_eq_none_iff

theorem replace?_eq_none_iff : c.replace? index op = none ↔ c.length ≤ index :=
  Option.map_eq_none_iff.trans List.getElem?_eq_none_iff

end Circuit

end QuantumCircuit
