import QuantumCircuit.Circuit.Mutation

/-!
# What holds of all operations of a circuit

Building, editing and mutation put operations into a circuit, take some out and add marks,
and do nothing else to them.  So a property of operations holds of all of a circuit after
such a change when it did before and holds of what came in.  For a mutation, it has to hold
of the inserted operation and to survive a mark.
-/

namespace QuantumCircuit

set_option autoImplicit false

namespace Circuit

variable {P : Operation → Prop} {a b c d : Circuit} {op : Operation} {index : Nat}

/-! ## Building -/

theorem All.empty : Circuit.empty.All P := by
  intro op member
  cases member

theorem All.extend (all : c.All P) {ops : List Operation} (more : ∀ op ∈ ops, P op) :
    (c.extend ops).All P :=
  List.forall_mem_append.mpr ⟨all, more⟩

theorem All.add (all : c.All P) (more : P op) : (c.add op).All P :=
  all.extend (List.forall_mem_singleton.mpr more)

theorem All.merge (first : a.All P) (second : b.All P) : (a.merge b).All P :=
  first.extend second

theorem All.reverse (all : c.All P) : c.reverse.All P :=
  fun op member => all op (List.mem_reverse.mp member)

/-! ## Editing -/

/-- An insertion adds one member. -/
theorem mem_insert {other : Operation} :
    other ∈ (c.insert index op).operations ↔ other = op ∨ other ∈ c.operations :=
  List.mem_insertIdx (Nat.min_le_right _ _)

theorem all_insert_iff : (c.insert index op).All P ↔ P op ∧ c.All P := by
  simp only [All, mem_insert, forall_eq_or_imp]

theorem All.insert (all : c.All P) (more : P op) : (c.insert index op).All P :=
  all_insert_iff.mpr ⟨more, all⟩

theorem All.get? (all : c.All P) (found : c.get? index = some op) : P op :=
  all op (List.mem_of_getElem? found)

/-- What is removed was in the circuit, and so is what stays. -/
theorem All.remove? (all : c.All P) (removed : c.remove? index = some (op, a)) :
    P op ∧ a.All P := by
  obtain ⟨old, found, same⟩ := Option.map_eq_some_iff.mp removed
  cases same
  exact ⟨all.get? found, fun other member => all other (List.mem_of_mem_eraseIdx member)⟩

/-- What is replaced was in the circuit, and what stays was there or is new. -/
theorem All.replace? (all : c.All P) (more : P op) {old : Operation}
    (replaced : c.replace? index op = some (old, a)) : P old ∧ a.All P := by
  obtain ⟨_, found, same⟩ := Option.map_eq_some_iff.mp replaced
  cases same
  refine ⟨all.get? found, ?_⟩
  intro other member
  rcases List.mem_or_eq_of_mem_set member with kept | rfl
  · exact all other kept
  · exact more

/-! ## Mutation -/

section Mutation

variable (inserted : P insertedOperation) (marked : ∀ op, P op → P op.marked)
include inserted marked

/-- A mutation of any kind at any place keeps the property, and what it removes has it. -/
theorem All.mutateAt (all : c.All P) {kind : MutationKind} {record : Mutation}
    (mutated : c.mutateAt index kind = some (record, d)) :
    d.All P ∧ ∀ i removed, record = .remove i removed → P removed := by
  cases kind with
  | insert =>
      obtain ⟨_, _, same⟩ := Option.map_eq_some_iff.mp mutated
      cases same
      exact ⟨all.insert inserted, fun _ _ other => by cases other⟩
  | remove =>
      obtain ⟨⟨op, rest⟩, removed, same⟩ := Option.map_eq_some_iff.mp mutated
      cases same
      refine ⟨(all.remove? removed).2, ?_⟩
      intro _ _ same
      cases same
      exact (all.remove? removed).1
  | dagger =>
      obtain ⟨op, found, rest⟩ := Option.bind_eq_some_iff.mp mutated
      obtain ⟨⟨old, marked'⟩, replaced, same⟩ := Option.bind_eq_some_iff.mp rest
      cases same
      have kept := all.replace? (marked op (all.get? found)) replaced
      exact ⟨kept.2, fun _ _ other => by cases other⟩

/-- **A random mutation keeps the property**, whatever the random words are. -/
theorem All.mutate (all : c.All P) (words : List UInt64) :
    (c.mutate words).2.1.All P ∧
      ∀ i removed, (c.mutate words).1 = some (.remove i removed) → P removed := by
  unfold Circuit.mutate
  split
  · exact ⟨all, fun _ _ none => by cases none⟩
  · simp only
    split
    · rename_i mutated
      have kept := All.mutateAt inserted marked all mutated
      exact ⟨kept.1, fun i removed same => kept.2 i removed (Option.some.inj same)⟩
    · exact ⟨all, fun _ _ none => by cases none⟩

end Mutation

end Circuit

end QuantumCircuit
