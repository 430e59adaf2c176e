import QuantumCircuit.Proofs.Adjoint.Warnings
import QuantumCircuit.Proofs.Circuit.Lines
import QuantumCircuit.Proofs.Circuit.Width

/-!
# Circuits that differ in the sign of zeros

Circuits are compared with their parameters as numbers.  Zero equals negative zero then, so
equivalent circuits need not be the same, and what is no number is not equal to itself.  No
parameter of a valid circuit is of that kind, and on valid circuits the comparison is an
equivalence.

Nothing tells equivalent circuits apart but the sign of a zero.  What is read off them is the same,
except for that sign in the extended text.  Every edit, and inversion by any table, takes equivalent
circuits to equivalent ones (`equivalent_respected`): an edit looks at places and an adjoint at
names, and negation takes the two zeros to each other.
-/

namespace QuantumCircuit

set_option autoImplicit false

/-! ## Related options and rows -/

section Related

variable {α β γ : Type} {related : α → β → Prop} {p : Option α} {q : Option β} {o : Option γ}

theorem rel_flip {flipped : β → α → Prop} (rel : Option.Rel related p q)
    (flip : ∀ a b, related a b → flipped b a) : Option.Rel flipped q p := by
  cases rel with
  | none => exact .none
  | some here => exact .some (flip _ _ here)

theorem rel_comp {next : β → γ → Prop} {whole : α → γ → Prop} (rel : Option.Rel related p q)
    (rel' : Option.Rel next q o) (comp : ∀ a b c, related a b → next b c → whole a c) :
    Option.Rel whole p o := by
  cases rel with
  | none =>
      cases rel' with
      | none => exact .none
  | some here =>
      cases rel' with
      | some there => exact .some (comp _ _ _ here there)

theorem rel_map {α' β' : Type} {related' : α' → β' → Prop} {f : α → α'} {g : β → β'}
    (rel : Option.Rel related p q) (maps : ∀ a b, related a b → related' (f a) (g b)) :
    Option.Rel related' (p.map f) (q.map g) := by
  cases rel with
  | none => exact .none
  | some here => exact .some (maps _ _ here)

/-- Options that are there together are related if their members are. -/
theorem rel_of_together (together : p = none ↔ q = none)
    (members : ∀ a b, p = some a → q = some b → related a b) : Option.Rel related p q := by
  cases p with
  | none =>
      rw [together.mp rfl]
      exact .none
  | some a =>
      cases q with
      | none => cases together.mpr rfl
      | some b => exact .some (members a b rfl rfl)

/-- Rows are related member by member exactly when they are so at every place. -/
theorem forall₂_iff_getElem? {as : List α} {bs : List β} :
    List.Forall₂ related as bs ↔ ∀ i : Nat, Option.Rel related as[i]? bs[i]? := by
  constructor
  · intro row
    induction row with
    | nil => exact fun _ => .none
    | cons head _ ih =>
        rintro (_ | i)
        · exact .some head
        · exact ih i
  · intro places
    induction as generalizing bs with
    | nil =>
        cases bs with
        | nil => exact .nil
        | cons b bs => cases places 0
    | cons a as ih =>
        cases bs with
        | nil => cases places 0
        | cons b bs =>
            cases places 0 with
            | some head => exact .cons head (ih fun i => places (i + 1))

end Related

/-! ## Equal numbers -/

namespace Binary64

variable {x y z : Binary64}

theorem numericallyEqual_iff :
    x.numericallyEqual y = true ↔
      x.isNaN = false ∧ y.isNaN = false ∧ (x = y ∨ x.magnitude = 0 ∧ y.magnitude = 0) := by
  simp [numericallyEqual, and_assoc]

/-- What is finite is a number. -/
theorem isNaN_of_isFinite (finite : x.isFinite = true) : x.isNaN = false :=
  decide_eq_false (Nat.lt_asymm (of_decide_eq_true finite))

theorem numericallyEqual_self (finite : x.isFinite = true) : x.numericallyEqual x = true :=
  numericallyEqual_iff.mpr ⟨isNaN_of_isFinite finite, isNaN_of_isFinite finite, .inl rfl⟩

theorem numericallyEqual_symm (same : x.numericallyEqual y = true) :
    y.numericallyEqual x = true := by
  obtain ⟨first, second, agree⟩ := numericallyEqual_iff.mp same
  exact numericallyEqual_iff.mpr ⟨second, first, agree.imp Eq.symm And.symm⟩

theorem numericallyEqual_trans (same : x.numericallyEqual y = true)
    (same' : y.numericallyEqual z = true) : x.numericallyEqual z = true := by
  obtain ⟨first, _, agree⟩ := numericallyEqual_iff.mp same
  obtain ⟨_, last, agree'⟩ := numericallyEqual_iff.mp same'
  refine numericallyEqual_iff.mpr ⟨first, last, ?_⟩
  rcases agree with rfl | zeros
  · exact agree'
  · rcases agree' with rfl | zeros'
    · exact .inr zeros
    · exact .inr ⟨zeros.1, zeros'.2⟩

/-- Equal numbers have equal opposites, zeros too. -/
theorem numericallyEqual_negate (same : x.numericallyEqual y = true) :
    x.negate.numericallyEqual y.negate = true := by
  obtain ⟨first, second, agree⟩ := numericallyEqual_iff.mp same
  exact numericallyEqual_iff.mpr ⟨first, second, agree.imp (congrArg negate) id⟩

/-- The plain form of a zero shows nothing but its sign. -/
theorem plainNumeral_of_zero (zero : x.magnitude = 0) :
    String.ofList x.plainNumeral.chars = if x.negative then "-0" else "0" := by
  have shown : ∀ negative, String.ofList
      (Numeral.positional 0 negative (shortest .awayFromZero 0)).chars
        = if negative then "-0" else "0" := by decide +kernel
  rw [plainNumeral, zero, shown]

end Binary64

/-! ## Equivalent operations -/

namespace Operation

variable {a b c : Operation}

theorem sameParameter_iff {p q : Option Binary64} :
    sameParameter p q = true ↔ Option.Rel (fun x y => x.numericallyEqual y = true) p q := by
  constructor
  · intro same
    cases p <;> cases q
    · exact .none
    · cases same
    · cases same
    · exact .some same
  · rintro (same | _)
    · exact same
    · rfl

theorem equivalent_iff :
    a.equivalent b = true ↔ a.gate = b.gate ∧ a.targets = b.targets ∧
      Option.Rel (fun x y => x.numericallyEqual y = true) a.parameter b.parameter := by
  rw [← sameParameter_iff]
  simp [equivalent, and_assoc]

theorem equivalent_self (valid : a.Valid) : a.equivalent a = true := by
  refine equivalent_iff.mpr ⟨rfl, rfl, ?_⟩
  cases parameter : a.parameter with
  | none => exact .none
  | some x => exact .some (Binary64.numericallyEqual_self (valid.parameter_finite x parameter))

theorem equivalent_symm (same : a.equivalent b = true) : b.equivalent a = true := by
  obtain ⟨gate, targets, parameter⟩ := equivalent_iff.mp same
  exact equivalent_iff.mpr ⟨gate.symm, targets.symm,
    rel_flip parameter fun _ _ => Binary64.numericallyEqual_symm⟩

theorem equivalent_trans (same : a.equivalent b = true) (same' : b.equivalent c = true) :
    a.equivalent c = true := by
  obtain ⟨gate, targets, parameter⟩ := equivalent_iff.mp same
  obtain ⟨gate', targets', parameter'⟩ := equivalent_iff.mp same'
  exact equivalent_iff.mpr ⟨gate.trans gate', targets.trans targets',
    rel_comp parameter parameter' fun _ _ _ => Binary64.numericallyEqual_trans⟩

/-- A rule makes equivalent operations from equivalent ones. -/
theorem equivalent_apply (same : a.equivalent b = true) (rule : AdjointRule) (marks : Nat) :
    (rule.apply marks a).equivalent (rule.apply marks b) = true := by
  obtain ⟨gate, targets, parameter⟩ := equivalent_iff.mp same
  cases rule with
  | selfInverse => exact same
  | named target => exact equivalent_iff.mpr ⟨rfl, targets, parameter⟩
  | negateParameter =>
      exact equivalent_iff.mpr ⟨gate, targets,
        rel_map parameter fun _ _ => Binary64.numericallyEqual_negate⟩

/-- The adjoints depend on the names, which are the same. -/
theorem equivalent_substitute (same : a.equivalent b = true) (t : AdjointTable) :
    (t.substitute a).equivalent (t.substitute b) = true := by
  unfold AdjointTable.substitute
  rw [(equivalent_iff.mp same).1]
  cases t.resolve b.gate with
  | none => exact same
  | some found => exact equivalent_apply same found.1 found.2

/-- What the lines of equivalent operations have in common: they are the same, or each of them ends
in a zero and they are the same up to it. -/
inductive LinesAgree (a b : Operation) : Prop
  | same (lines : a.extendedLine = b.extendedLine)
  | zeros (x y : Binary64) (first : a.parameter = some x) (second : b.parameter = some y)
      (zero : x.magnitude = 0 ∧ y.magnitude = 0) (line : a.line = b.line)
      (ends : a.extendedLine = a.line ++ "[" ++ (if x.negative then "-0" else "0") ++ "]")
      (ends' : b.extendedLine = b.line ++ "[" ++ (if y.negative then "-0" else "0") ++ "]")

theorem extendedLine_of_zero {x : Binary64} (parameter : a.parameter = some x)
    (zero : x.magnitude = 0) :
    a.extendedLine = a.line ++ "[" ++ (if x.negative then "-0" else "0") ++ "]" := by
  unfold extendedLine
  rw [parameter, ← Binary64.plainNumeral_of_zero zero]

theorem linesAgree (same : a.equivalent b = true) : a.LinesAgree b := by
  obtain ⟨gate, targets, parameter⟩ := equivalent_iff.mp same
  have line : a.line = b.line := by rw [line, line, gate, targets]
  cases first : a.parameter with
  | none =>
      rw [first] at parameter
      generalize second : b.parameter = q at parameter
      cases parameter
      exact .same (by rw [extendedLine, extendedLine, first, second, line])
  | some x =>
      rw [first] at parameter
      generalize second : b.parameter = q at parameter
      cases parameter with
      | @some _ y equal =>
          rcases (Binary64.numericallyEqual_iff.mp equal).2.2 with rfl | zero
          · exact .same (by rw [extendedLine, extendedLine, first, second, line])
          · exact .zeros x y first second zero line (extendedLine_of_zero first zero.1)
              (extendedLine_of_zero second zero.2)

end Operation

/-! ## Equivalent circuits -/

namespace Circuit

variable {a b a' b' : Circuit} {op op' : Operation} {t : AdjointTable}

theorem equivalent_iff_forall₂ :
    a.equivalent b = true ↔
      List.Forall₂ (fun x y => x.equivalent y = true) a.operations b.operations := by
  obtain ⟨as⟩ := a
  obtain ⟨bs⟩ := b
  show equivalentOperations as bs = true ↔ _
  induction as generalizing bs with
  | nil => cases bs <;> simp [equivalentOperations]
  | cons x as ih =>
      cases bs with
      | nil => simp [equivalentOperations]
      | cons y bs => rw [List.forall₂_cons, ← ih, equivalentOperations, Bool.and_eq_true]

theorem equivalent_iff_get? :
    a.equivalent b = true ↔
      ∀ i, Option.Rel (fun x y => x.equivalent y = true) (a.get? i) (b.get? i) :=
  equivalent_iff_forall₂.trans forall₂_iff_getElem?

/-- **On valid circuits the comparison is an equivalence.** -/
theorem equivalent_equivalence :
    Equivalence fun a b : { c : Circuit // c.Valid } => a.1.equivalent b.1 = true where
  refl a := equivalent_iff_forall₂.mpr
    (List.forall₂_same.mpr fun op member => Operation.equivalent_self (a.2 op member))
  symm same := equivalent_iff_forall₂.mpr
    ((equivalent_iff_forall₂.mp same).flip.imp fun _ _ => Operation.equivalent_symm)
  trans same same' := equivalent_iff_get?.mpr fun i =>
    rel_comp (equivalent_iff_get?.mp same i) (equivalent_iff_get?.mp same' i)
      fun _ _ _ => Operation.equivalent_trans

/-! ### What is read off -/

theorem equivalent_length (same : a.equivalent b = true) : a.length = b.length :=
  (equivalent_iff_forall₂.mp same).length_eq

/-- What is read off the names and targets is the same. -/
theorem map_eq_of_equivalent {α : Type} {f : Operation → α} (same : a.equivalent b = true)
    (told : ∀ x y : Operation, x.gate = y.gate → x.targets = y.targets → f x = f y) :
    a.operations.map f = b.operations.map f := by
  refine map_eq_map_of_forall₂ (equivalent_iff_forall₂.mp same) ?_
  intro x y agree
  obtain ⟨gate, targets, _⟩ := Operation.equivalent_iff.mp agree
  exact told x y gate targets

theorem equivalent_gateNames (same : a.equivalent b = true) : a.gateNames = b.gateNames :=
  map_eq_of_equivalent same fun _ _ gate _ => gate

theorem equivalent_width (same : a.equivalent b = true) : a.width = b.width :=
  width_eq_of_targets (map_eq_of_equivalent same fun _ _ _ targets => targets)

theorem equivalent_canonicalText (same : a.equivalent b = true) :
    a.canonicalText = b.canonicalText := by
  have lines : a.operations.map Operation.canonicalChars
      = b.operations.map Operation.canonicalChars := by
    refine map_eq_of_equivalent same ?_
    intro x y gate targets
    rw [Operation.canonicalChars_eq, Operation.canonicalChars_eq, gate, targets]
  rw [canonicalText, canonicalText, canonicalChars, canonicalChars, lines]

theorem extendedText_eq (c : Circuit) :
    c.extendedText = String.intercalate "\n" (c.operations.map Operation.extendedLine) := by
  refine String.toList_inj.mp ?_
  simp [extendedText, extendedChars, joinWith_eq_intercalate, Function.comp_def,
    ← Operation.ofList_extendedChars]

theorem equivalent_linesAgree (same : a.equivalent b = true) :
    List.Forall₂ Operation.LinesAgree a.operations b.operations :=
  (equivalent_iff_forall₂.mp same).imp fun _ _ => Operation.linesAgree

/-! ### Edits -/

theorem equivalent_merge (same : a.equivalent b = true) (same' : a'.equivalent b' = true) :
    (a.merge a').equivalent (b.merge b') = true :=
  equivalent_iff_forall₂.mpr
    (List.rel_append (equivalent_iff_forall₂.mp same) (equivalent_iff_forall₂.mp same'))

/-- The operations around and at a place are what the circuit is made of. -/
theorem equivalent_of_inserted {c d : Circuit} {index : Nat} (inserted : a.Inserted index op c)
    (inserted' : b.Inserted index op' d) (same : a.equivalent b = true)
    (agree : op.equivalent op' = true) : c.equivalent d = true := by
  rw [equivalent_iff_get?] at same ⊢
  intro i
  rcases Nat.lt_trichotomy i index with before | rfl | after
  · rw [inserted.before i before, inserted'.before i before]
    exact same i
  · rw [inserted.here, inserted'.here]
    exact .some agree
  · obtain ⟨j, rfl⟩ : ∃ j, i = j + 1 := ⟨i - 1, by omega⟩
    rw [inserted.after j (by omega), inserted'.after j (by omega)]
    exact same j

/-- Taking the place out leaves what is around it. -/
theorem equivalent_around {c d : Circuit} {index : Nat} (inserted : a.Inserted index op c)
    (inserted' : b.Inserted index op' d) (same : c.equivalent d = true) :
    op.equivalent op' = true ∧ a.equivalent b = true := by
  rw [equivalent_iff_get?] at same ⊢
  constructor
  · have here := same index
    rwa [inserted.here, inserted'.here, Option.rel_some_some] at here
  · intro i
    rcases Nat.lt_or_ge i index with before | after
    · rw [← inserted.before i before, ← inserted'.before i before]
      exact same i
    · rw [← inserted.after i after, ← inserted'.after i after]
      exact same (i + 1)

theorem equivalent_insert (same : a.equivalent b = true) (agree : op.equivalent op' = true)
    (index : Nat) : (a.insert index op).equivalent (b.insert index op') = true := by
  have inserted := b.inserted index op'
  rw [← equivalent_length same] at inserted
  exact equivalent_of_inserted (a.inserted index op) inserted same agree

/-- Edits that return equivalent operations and leave equivalent circuits. -/
def SameEdit (edit edit' : Operation × Circuit) : Prop :=
  edit.1.equivalent edit'.1 = true ∧ edit.2.equivalent edit'.2 = true

theorem equivalent_remove? (same : a.equivalent b = true) (index : Nat) :
    Option.Rel SameEdit (a.remove? index) (b.remove? index) := by
  refine rel_of_together ?_ ?_
  · rw [remove?_eq_none_iff, remove?_eq_none_iff, equivalent_length same]
  · intro edit edit' removed removed'
    exact equivalent_around (inserted_of_remove? removed) (inserted_of_remove? removed') same

theorem equivalent_replace? (same : a.equivalent b = true) (agree : op.equivalent op' = true)
    (index : Nat) : Option.Rel SameEdit (a.replace? index op) (b.replace? index op') := by
  refine rel_of_together ?_ ?_
  · rw [replace?_eq_none_iff, replace?_eq_none_iff, equivalent_length same]
  · intro edit edit' edited edited'
    have replaced := replaced_of_replace? edited
    have replaced' := replaced_of_replace? edited'
    rw [equivalent_iff_get?] at same
    refine ⟨?_, equivalent_iff_get?.mpr fun i => ?_⟩
    · have here := same index
      rwa [replaced.there, replaced'.there, Option.rel_some_some] at here
    · by_cases place : i = index
      · rw [place, replaced.here, replaced'.here]
        exact .some agree
      · rw [replaced.others i place, replaced'.others i place]
        exact same i

/-! ### Inversion -/

theorem equivalent_substituted (same : a.equivalent b = true) (t : AdjointTable) :
    (a.substituted t).equivalent (b.substituted t) = true := by
  have row := List.rel_reverse (equivalent_iff_forall₂.mp same)
  refine equivalent_iff_forall₂.mpr ?_
  show List.Forall₂ _ (a.operations.reverse.map t.substitute)
    (b.operations.reverse.map t.substitute)
  rw [List.forall₂_map_left_iff, List.forall₂_map_right_iff]
  exact row.imp fun _ _ agree => Operation.equivalent_substitute agree t

/-- Which gates are unknown is a matter of their names. -/
theorem equivalent_unknownGates (same : a.equivalent b = true) (t : AdjointTable) :
    t.unknownGates a.operations.reverse = t.unknownGates b.operations.reverse := by
  have by_name : ∀ c : Circuit, t.unknownGates c.operations.reverse
      = (c.gateNames.filter fun gate => t.Unknown gate).reverse := by
    intro c
    rw [gateNames, List.filter_map, ← List.map_reverse, ← List.filter_reverse]
    rfl
  rw [by_name, by_name, equivalent_gateNames same]

/-- **Equivalent circuits have equivalent inverses**, with the same warnings, or fail alike. -/
theorem equivalent_inverted (same : a.equivalent b = true) (t : AdjointTable) :
    (a.inverted t).warnings = (b.inverted t).warnings ∧
      ((∃ d d', (a.inverted t).result = .ok d ∧ (b.inverted t).result = .ok d' ∧
          d.equivalent d' = true) ∨
        ∃ e, (a.inverted t).result = .error e ∧ (b.inverted t).result = .error e) := by
  have agree := equivalent_substituted same t
  cases policy : t.policy with
  | lenient =>
      rw [inverted_of_lenient policy, inverted_of_lenient policy, equivalent_unknownGates same]
      exact ⟨rfl, .inl ⟨_, _, rfl, rfl, agree⟩⟩
  | strict =>
      rw [inverted_of_strict policy, inverted_of_strict policy, equivalent_unknownGates same]
      refine ⟨rfl, ?_⟩
      cases t.unknownGates b.operations.reverse with
      | nil => exact .inl ⟨_, _, rfl, rfl, agree⟩
      | cons gate _ => exact .inr ⟨_, rfl, rfl⟩

/-- **Equivalence of circuits is respected by all that is done with them.**  It is an equivalence on
valid circuits.  Equivalent circuits have the same length, width, gate names and canonical text, and
the lines of their extended texts are the same up to the signs of zeros.  Merging equivalent
circuits, and editing them at the same place with equivalent operations, gives equivalent circuits.
By any table they have equivalent inverses or fail with the same error, and the warnings are the
same. -/
theorem equivalent_respected :
    (Equivalence fun a b : { c : Circuit // c.Valid } => a.1.equivalent b.1 = true) ∧
      ∀ a b : Circuit, a.equivalent b = true →
        (a.length = b.length ∧ a.width = b.width ∧ a.gateNames = b.gateNames ∧
          a.canonicalText = b.canonicalText) ∧
        (∀ a' b' : Circuit, a'.equivalent b' = true →
          (a.merge a').equivalent (b.merge b') = true) ∧
        (∀ (op op' : Operation) (index : Nat), op.equivalent op' = true →
          (a.insert index op).equivalent (b.insert index op') = true ∧
            Option.Rel SameEdit (a.replace? index op) (b.replace? index op')) ∧
        (∀ index, Option.Rel SameEdit (a.remove? index) (b.remove? index)) ∧
        (∀ t, (a.inverted t).warnings = (b.inverted t).warnings ∧
          ((∃ d d', (a.inverted t).result = .ok d ∧ (b.inverted t).result = .ok d' ∧
              d.equivalent d' = true) ∨
            ∃ e, (a.inverted t).result = .error e ∧ (b.inverted t).result = .error e)) ∧
        a.extendedText = String.intercalate "\n" (a.operations.map Operation.extendedLine) ∧
        b.extendedText = String.intercalate "\n" (b.operations.map Operation.extendedLine) ∧
        List.Forall₂ Operation.LinesAgree a.operations b.operations := by
  refine ⟨equivalent_equivalence, ?_⟩
  intro a b same
  exact ⟨⟨equivalent_length same, equivalent_width same, equivalent_gateNames same,
      equivalent_canonicalText same⟩,
    fun _ _ => equivalent_merge same,
    fun _ _ index agree =>
      ⟨equivalent_insert same agree index, equivalent_replace? same agree index⟩,
    equivalent_remove? same, equivalent_inverted same, extendedText_eq a, extendedText_eq b,
    equivalent_linesAgree same⟩

/-- A rotation by a zero of the given sign, before a gate that no rule resolves. -/
def signedZero (negative : Bool) : Circuit :=
  ⟨[⟨"RZ'", [3], some (.zero negative)⟩, ⟨"ORACLE", [0, 1], none⟩]⟩

/-- The two zeros make different circuits that are equivalent. -/
theorem signedZero_respected :
    (signedZero false).equivalent (signedZero true) = true ∧
      signedZero false ≠ signedZero true ∧
      (signedZero false).canonicalText = (signedZero true).canonicalText ∧
      (signedZero false).extendedText = "RZ'(3)[0]\nORACLE(0,1)" ∧
      (signedZero true).extendedText = "RZ'(3)[-0]\nORACLE(0,1)" ∧
      ((signedZero false).inverted .standard).warnings
        = ((signedZero true).inverted .standard).warnings := by
  have same : (signedZero false).equivalent (signedZero true) = true := by decide
  obtain ⟨⟨_, _, _, text⟩, _, _, _, inverses, lines, lines', _⟩ :=
    equivalent_respected.2 _ _ same
  refine ⟨same, by decide, text, ?_, ?_, (inverses .standard).1⟩
  · rw [lines]
    decide +kernel
  · rw [lines']
    decide +kernel

end Circuit

end QuantumCircuit
