import QuantumCircuit.Proofs.Circuit.Editing
import QuantumCircuit.Workspace

/-!
# Records of mutations

The record of a mutation says what has been changed and where (`Recorded`), and this is enough to
take the change back (`Mutation.undo?`).  So the records of a row of mutations, replayed from the
last to the first, lead back to the circuit at the start.

None of this depends on how numbers are drawn.  Of a random source it is only used that a place
drawn for a circuit is a place in it (`Draws`), and drawing from words has this property
(`Draws.ofWords`).  A row of mutations by words is what a run of commands that mutate does to a
circuit, and its records are those in the answers (`Workspace.run_mutations`).
-/

namespace QuantumCircuit

set_option autoImplicit false

/-! ## Random sources -/

/-- A number drawn below `n` is below `n`, whichever words are accepted. -/
theorem Draw.below_lt {range zone n : Nat} (some_range : 0 < range) (pos : 0 < n)
    (words : List UInt64) : (Draw.below range zone n words).value < n := by
  induction words with
  | nil => exact pos
  | cons word rest ih =>
      simp only [Draw.below]
      split
      · refine (Nat.div_lt_iff_lt_mul some_range).mpr ?_
        rw [Nat.mul_comm n]
        exact Nat.mul_lt_mul_of_pos_right (Nat.mod_lt _ some_range) pos
      · exact ih

/-- What a random source draws for one mutation, by the length of the circuit: a place in it, and
the number of a kind. -/
structure Draws where
  place : Nat → Nat
  kind : Nat → Nat
  place_lt : ∀ n, 0 < n → place n < n

/-- The draws from words, the place first. -/
def Draws.ofWords (words : List UInt64) : Draws where
  place n := (Draw.index n words).value
  kind n := (Draw.ofThree (Draw.index n words).rest).value
  place_lt _ pos := Draw.below_lt (by decide) pos words

namespace Circuit

/-- One mutation by any random source. -/
def mutateBy (draws : Draws) (c : Circuit) : Option Mutation × Circuit :=
  match c.mutateAt (draws.place c.length) (.ofDraw (draws.kind c.length)) with
  | some (record, d) => (some record, d)
  | none => (none, c)

/-- A row of mutations, each by a random source of its own: the records and the circuit in the
end. -/
def mutateAll (c : Circuit) : List Draws → List Mutation × Circuit
  | [] => ([], c)
  | draws :: rest =>
    let first := c.mutateBy draws
    let later := first.2.mutateAll rest
    (first.1.toList ++ later.1, later.2)

end Circuit

/-! ## What a record says -/

/-- The record tells how `after` has come from `before`. -/
inductive Recorded (before after : Circuit) : Mutation → Prop
  | insert {i : Nat} (inserted : after.get? i = some ⟨"X", [0], none⟩)
      (back : after.remove? i = some (⟨"X", [0], none⟩, before)) :
      Recorded before after (.insert i)
  | remove {i : Nat} {removed : Operation} (there : before.get? i = some removed)
      (back : after.insert i removed = before) : Recorded before after (.remove i removed)
  | dagger {i : Nat} {op marked : Operation} (there : before.get? i = some op)
      (replaced : after.get? i = some marked) (gate : marked.gate = op.gate ++ "'")
      (targets : marked.targets = op.targets) (parameter : marked.parameter = op.parameter)
      (others : ∀ j, j ≠ i → after.get? j = before.get? j) : Recorded before after (.dagger i)

namespace Circuit

variable {c : Circuit} {index : Nat}

theorem mutateAt_dagger {op old : Operation} {d : Circuit} (there : c.get? index = some op)
    (replaced : c.replace? index op.marked = some (old, d)) :
    c.mutateAt index .dagger = some (.dagger index, d) := by
  show ((c.get? index).bind fun op => (c.replace? index op.marked).bind _) = _
  rw [there, Option.bind_some, replaced]
  rfl

/-- At a place of the circuit every kind of mutation succeeds, and its record is right. -/
theorem exists_mutateAt (lt : index < c.length) (kind : MutationKind) :
    ∃ record d, c.mutateAt index kind = some (record, d) ∧ record.index = index ∧
      Recorded c d record := by
  have there : c.operations[index]? = some c.operations[index] := List.getElem?_eq_getElem lt
  cases kind with
  | insert =>
      have le : index ≤ c.length := Nat.le_of_lt lt
      refine ⟨.insert index, c.insert index insertedOperation, ?_, rfl,
        .insert (get?_insert le) (remove?_insert le)⟩
      unfold mutateAt
      rw [there]
      rfl
  | remove =>
      obtain ⟨d, removed⟩ := exists_remove? there
      refine ⟨.remove index c.operations[index], d, ?_, rfl,
        .remove there (insert_of_remove? removed).2⟩
      unfold mutateAt
      rw [removed]
      rfl
  | dagger =>
      obtain ⟨d, replaced⟩ := exists_replace? there c.operations[index].marked
      obtain ⟨_, marked, others⟩ := get?_of_replace? replaced
      exact ⟨.dagger index, d, mutateAt_dagger there replaced, rfl,
        .dagger there marked rfl rfl rfl others⟩

theorem mutateBy_empty (draws : Draws) : Circuit.empty.mutateBy draws = (none, .empty) := by
  have nowhere : ∀ index kind, Circuit.empty.mutateAt index kind = none := by
    intro index kind
    cases kind <;> rfl
  unfold mutateBy
  rw [nowhere]

/-- **One mutation by any random source.**  The empty circuit stays; any other one is changed at the
place drawn, and the record is right. -/
theorem mutateBy_recorded (draws : Draws) (c : Circuit) :
    (c = .empty ∧ c.mutateBy draws = (none, .empty)) ∨
      (c ≠ .empty ∧ ∃ record d, c.mutateBy draws = (some record, d) ∧
        record.index = draws.place c.length ∧ record.index < c.length ∧ Recorded c d record) := by
  by_cases empty : c = .empty
  · subst empty
    exact .inl ⟨rfl, mutateBy_empty draws⟩
  · have pos : 0 < c.length :=
      List.length_pos_iff.mpr fun none => empty (congrArg Circuit.mk none)
    have lt := draws.place_lt c.length pos
    obtain ⟨record, d, mutated, place, recorded⟩ :=
      exists_mutateAt lt (.ofDraw (draws.kind c.length))
    refine .inr ⟨empty, record, d, ?_, place, place ▸ lt, recorded⟩
    unfold mutateBy
    rw [mutated]

/-- A mutation by random words is one by the draws from them. -/
theorem mutateBy_ofWords (c : Circuit) (words : List UInt64) :
    c.mutateBy (.ofWords words) = ((c.mutate words).1, (c.mutate words).2.1) := by
  by_cases empty : c = .empty
  · subst empty
    exact mutateBy_empty _
  · have some_operation : c.operations ≠ [] := fun none => empty (congrArg Circuit.mk none)
    unfold mutate mutateBy
    rw [if_neg some_operation]
    dsimp only [Draws.ofWords]
    cases c.mutateAt _ _ <;> rfl

end Circuit

/-! ## Taking changes back -/

/-- The operation without the last character of its name. -/
def Operation.shortened (op : Operation) : Operation :=
  { op with gate := String.ofList op.gate.toList.dropLast }

/-- Takes back the change that a record tells of. -/
def Mutation.undo? (after : Circuit) : Mutation → Option Circuit
  | .insert i => (after.remove? i).map (·.2)
  | .remove i removed => some (after.insert i removed)
  | .dagger i => do
    let op ← after.get? i
    let (_, before) ← after.replace? i op.shortened
    return before

/-- Takes back several changes, in the order of the records. -/
def Mutation.undoAll? (after : Circuit) : List Mutation → Option Circuit
  | [] => some after
  | record :: earlier => (record.undo? after).bind (undoAll? · earlier)

theorem Operation.shortened_of_marked {op marked : Operation} (gate : marked.gate = op.gate ++ "'")
    (targets : marked.targets = op.targets) (parameter : marked.parameter = op.parameter) :
    marked.shortened = op := by
  have kept : (op.gate ++ "'").toList.dropLast = op.gate.toList := by simp
  unfold shortened
  rw [gate, kept, targets, parameter, String.ofList_toList]

/-- **A right record is enough to take the change back.** -/
theorem Recorded.undo {before after : Circuit} {record : Mutation}
    (recorded : Recorded before after record) : record.undo? after = some before := by
  cases recorded with
  | insert _ back => rw [Mutation.undo?, back]; rfl
  | remove _ back => exact congrArg some back
  | @dagger i op marked there replaced gate targets parameter others =>
      obtain ⟨d, swapped⟩ := Circuit.exists_replace? replaced marked.shortened
      obtain ⟨_, here, elsewhere⟩ := Circuit.get?_of_replace? swapped
      have restored : d = before := by
        refine Circuit.ext_get? ?_
        intro j
        by_cases same : j = i
        · rw [same, here, there, Operation.shortened_of_marked gate targets parameter]
        · rw [elsewhere j same, others j same]
      show ((after.get? i).bind fun op =>
        (after.replace? i op.shortened).bind fun (_, d) => some d) = _
      rw [replaced, Option.bind_some, swapped, Option.bind_some, restored]

theorem Mutation.undoAll?_append (after : Circuit) (later earlier : List Mutation) :
    undoAll? after (later ++ earlier) = (undoAll? after later).bind (undoAll? · earlier) := by
  induction later generalizing after with
  | nil => rfl
  | cons record rest ih =>
      show (record.undo? after).bind (fun c => undoAll? c (rest ++ earlier)) = _
      simp only [ih]
      exact (Option.bind_assoc _ _ _).symm

namespace Circuit

/-- **The records of a row of mutations lead back to its start.** -/
theorem undoAll?_mutateAll (c : Circuit) (row : List Draws) :
    Mutation.undoAll? (c.mutateAll row).2 (c.mutateAll row).1.reverse = some c := by
  induction row generalizing c with
  | nil => rfl
  | cons draws rest ih =>
      show Mutation.undoAll? ((c.mutateBy draws).2.mutateAll rest).2
        ((c.mutateBy draws).1.toList ++ ((c.mutateBy draws).2.mutateAll rest).1).reverse = some c
      rw [List.reverse_append, Mutation.undoAll?_append, ih, Option.bind_some]
      rcases mutateBy_recorded draws c with ⟨rfl, stays⟩ | ⟨_, record, d, mutated, _, _, recorded⟩
      · rw [stays]
        rfl
      · rw [mutated]
        show (record.undo? d).bind some = some c
        rw [recorded.undo]
        rfl

end Circuit

/-! ## Rows of mutations as runs of commands -/

/-- The record in the answer to a mutation. -/
def Reply.record? : Reply → Option Mutation
  | .mutation record _ => record
  | _ => none

namespace Workspace

/-- The answers to a run of commands, in order. -/
def replies (w : Workspace) : List Command → List Reply
  | [] => []
  | command :: rest => (w.execute command).2.1 :: (w.execute command).1.replies rest

/-- The commands that mutate a circuit again and again, each with words of its own. -/
def mutations (name : String) (row : List (List UInt64)) : List Command :=
  row.map fun words => .onCircuit name (.mutate words)

/-- A command that mutates a circuit does the mutation by the draws from its words. -/
theorem execute_mutate (w : Workspace) (name : String) (words : List UInt64) :
    (w.execute (.onCircuit name (.mutate words))).1.circuit name
        = ((w.circuit name).mutateBy (.ofWords words)).2 ∧
      (w.execute (.onCircuit name (.mutate words))).2.1.record?
        = ((w.circuit name).mutateBy (.ofWords words)).1 := by
  rw [circuit_of_eq, Circuit.mutateBy_ofWords]
  exact ⟨rfl, rfl⟩

/-- **A run of commands that mutate a circuit is a row of mutations of it**, with the same circuit
in the end and the same records. -/
theorem run_mutations (w : Workspace) (name : String) (row : List (List UInt64)) :
    (w.run (mutations name row)).circuit name
        = ((w.circuit name).mutateAll (row.map .ofWords)).2 ∧
      (w.replies (mutations name row)).filterMap Reply.record?
        = ((w.circuit name).mutateAll (row.map .ofWords)).1 := by
  induction row generalizing w with
  | nil => exact ⟨rfl, rfl⟩
  | cons words rest ih =>
      obtain ⟨after, record⟩ := execute_mutate w name words
      obtain ⟨finish, records⟩ := ih (w.execute (.onCircuit name (.mutate words))).1
      rw [after] at finish records
      refine ⟨finish, ?_⟩
      show List.filterMap Reply.record? (_ :: replies _ (mutations name rest)) = _ ++ _
      rw [List.filterMap_cons, record, records]
      cases ((w.circuit name).mutateBy (.ofWords words)).1 <;> rfl

end Workspace

namespace Circuit

/-- **Records of mutations are right, and sufficient to undo them**, for every random source.  A
mutation leaves the empty circuit as it is and has no record; of any other circuit it changes the
place drawn, as its record tells.  Replaying the records of a row of mutations, the last one first,
gives back the circuit before all of them, and such rows are what runs of commands do. -/
theorem mutations_recorded (c : Circuit) :
    (∀ draws : Draws,
        (c = .empty ∧ c.mutateBy draws = (none, .empty)) ∨
          (c ≠ .empty ∧ ∃ record d, c.mutateBy draws = (some record, d) ∧
            record.index = draws.place c.length ∧ record.index < c.length ∧
            Recorded c d record)) ∧
      (∀ words, c.mutateBy (.ofWords words) = ((c.mutate words).1, (c.mutate words).2.1)) ∧
      (∀ row : List Draws,
        Mutation.undoAll? (c.mutateAll row).2 (c.mutateAll row).1.reverse = some c) ∧
      ∀ (w : Workspace) (name : String) (row : List (List UInt64)),
        (w.run (Workspace.mutations name row)).circuit name
            = ((w.circuit name).mutateAll (row.map .ofWords)).2 ∧
          (w.replies (Workspace.mutations name row)).filterMap Reply.record?
            = ((w.circuit name).mutateAll (row.map .ofWords)).1 :=
  ⟨fun draws => mutateBy_recorded draws c, mutateBy_ofWords c, undoAll?_mutateAll c,
    Workspace.run_mutations⟩

end Circuit

end QuantumCircuit
