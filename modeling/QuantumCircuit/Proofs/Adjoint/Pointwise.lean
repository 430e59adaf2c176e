import Mathlib.Data.List.Forall2
import QuantumCircuit.Adjoint.Inversion
import QuantumCircuit.Proofs.Adjoint.Resolution

/-!
# Inversion operation by operation

The adjoint of one operation is made by the rule that governs its gate, or is the
operation itself when no rule does and the table is lenient (`inverts_iff`).  Inverting a
circuit succeeds exactly when every operation of it has an adjoint (`exists_inverted_iff`),
and then the inverse is the row of these adjoints from the last operation to the first
(`inverted_eq_ok_iff`).  Nothing else about the recursion over the operations is needed
to reason about a successful inversion.
-/

namespace QuantumCircuit

set_option autoImplicit false

/-- Members can be related one by one exactly when each of them can be related. -/
theorem exists_forall₂_iff {α β : Type} {related : α → β → Prop} {as : List α} :
    (∃ bs, List.Forall₂ related as bs) ↔ ∀ a ∈ as, ∃ b, related a b := by
  induction as with
  | nil => simp
  | cons a rest ih =>
      rw [List.forall_mem_cons, ← ih]
      constructor
      · rintro ⟨_, row⟩
        obtain ⟨b, bs, head, tail, _⟩ := List.forall₂_cons_left_iff.mp row
        exact ⟨⟨b, head⟩, bs, tail⟩
      · rintro ⟨⟨b, head⟩, bs, tail⟩
        exact ⟨b :: bs, .cons head tail⟩

/-- Every member on the right of a row of related members is related to one on the left. -/
theorem exists_related_of_mem {α β : Type} {related : α → β → Prop} {as : List α} {bs : List β}
    (row : List.Forall₂ related as bs) {b : β} (member : b ∈ bs) : ∃ a ∈ as, related a b := by
  induction row with
  | nil => cases member
  | cons head _ ih =>
      rcases List.mem_cons.mp member with rfl | later
      · exact ⟨_, List.mem_cons_self, head⟩
      · obtain ⟨a, old, related⟩ := ih later
        exact ⟨a, List.mem_cons_of_mem _ old, related⟩

/-- Rows of related members agree in what related members agree in. -/
theorem map_eq_map_of_forall₂ {α β γ : Type} {related : α → β → Prop} {f : α → γ} {g : β → γ}
    {as : List α} {bs : List β} (row : List.Forall₂ related as bs)
    (agree : ∀ a b, related a b → f a = g b) : as.map f = bs.map g := by
  induction row with
  | nil => rfl
  | cons head _ ih => rw [List.map_cons, List.map_cons, agree _ _ head, ih]

namespace AdjointTable

variable (t : AdjointTable)

/-- One operation is the adjoint of the other. -/
def Inverts (op a : Operation) : Prop := (t.adjoint op).result = .ok a

/-- The operation has an adjoint. -/
def HasAdjoint (op : Operation) : Prop := ∃ a, t.Inverts op a

variable {t}

/-- A governed operation has the adjoint that its rule makes. -/
theorem Governs.inverts {base : String} {rule : AdjointRule} {marks : Nat} (op : Operation)
    (valid : t.Valid) (governs : t.Governs base rule marks op.gate) :
    t.Inverts op (rule.apply marks op) := by
  show (t.adjoint op).result = _
  rw [adjoint, governs.resolve valid]
  rfl

/-- **What an adjoint is**: made by the governing rule, or else the operation itself. -/
theorem inverts_iff (valid : t.Valid) {op a : Operation} :
    t.Inverts op a ↔
      (∃ base rule marks, t.Governs base rule marks op.gate ∧ a = rule.apply marks op) ∨
        (t.resolve op.gate = none ∧ t.policy = .lenient ∧ a = op) := by
  constructor
  · intro inverts
    have result : (t.adjoint op).result = .ok a := inverts
    unfold adjoint at result
    split at result
    · rename_i rule marks found
      cases result
      obtain ⟨base, governs⟩ := exists_governs found
      exact .inl ⟨base, rule, marks, governs, rfl⟩
    · rename_i nothing
      split at result
      · rename_i lenient
        cases result
        exact .inr ⟨nothing, lenient, rfl⟩
      · cases result
  · rintro (⟨base, rule, marks, governs, rfl⟩ | ⟨nothing, lenient, rfl⟩)
    · exact governs.inverts _ valid
    · show (t.adjoint a).result = _
      rw [adjoint, nothing, lenient]

/-- An operation has at most one adjoint. -/
theorem Inverts.unique {op a b : Operation} (first : t.Inverts op a) (second : t.Inverts op b) :
    a = b :=
  Except.ok.inj (Eq.trans (Eq.symm first) second)

theorem adjoints_eq_ok_iff {ops as : List Operation} :
    (t.adjoints ops).result = .ok as ↔ List.Forall₂ t.Inverts ops as := by
  induction ops generalizing as with
  | nil =>
      rw [List.forall₂_nil_left_iff]
      constructor
      · intro inverted
        cases inverted
        rfl
      · rintro rfl
        rfl
  | cons op rest ih =>
      rw [List.forall₂_cons_left_iff]
      constructor
      · intro inverted
        cases head : (t.adjoint op).result with
        | error e => simp [adjoints, Reported.andThen, head] at inverted
        | ok a =>
            cases tail : (t.adjoints rest).result with
            | error e =>
                simp [adjoints, Reported.andThen, Reported.map, Except.map, head, tail] at inverted
            | ok more =>
                simp only [adjoints, Reported.andThen, Reported.map, Except.map, head, tail,
                  Except.ok.injEq] at inverted
                exact ⟨a, more, head, ih.mp tail, inverted.symm⟩
      · rintro ⟨a, more, head, tail, rfl⟩
        have head : (t.adjoint op).result = .ok a := head
        simp [adjoints, Reported.andThen, Reported.map, Except.map, head, ih.mpr tail]

end AdjointTable

namespace Circuit

variable {c d : Circuit} {t : AdjointTable}

/-- **The inverse is the row of adjoints in the opposite order.** -/
theorem inverted_eq_ok_iff :
    (c.inverted t).result = .ok d
      ↔ List.Forall₂ t.Inverts c.operations.reverse d.operations := by
  rw [← AdjointTable.adjoints_eq_ok_iff]
  unfold inverted
  cases row : (t.adjoints c.operations.reverse).result with
  | error e => simp [Reported.map, Except.map, row]
  | ok ops =>
      simp only [Reported.map, Except.map, row, Except.ok.injEq]
      constructor
      · rintro rfl
        rfl
      · rintro rfl
        rfl

/-- **A circuit is invertible exactly when every operation of it has an adjoint.** -/
theorem exists_inverted_iff : (∃ d, (c.inverted t).result = .ok d) ↔ c.All t.HasAdjoint := by
  have backwards : (∀ op ∈ c.operations.reverse, t.HasAdjoint op) ↔ c.All t.HasAdjoint := by
    simp only [All, List.mem_reverse]
  rw [← backwards]
  refine Iff.trans ?_ exists_forall₂_iff
  constructor
  · rintro ⟨d, inverted⟩
    exact ⟨d.operations, inverted_eq_ok_iff.mp inverted⟩
  · rintro ⟨as, row⟩
    exact ⟨⟨as⟩, inverted_eq_ok_iff.mpr row⟩

/-- Inversion in place gives the inverse when there is one, and the circuit itself otherwise. -/
theorem invert_eq (c : Circuit) (t : AdjointTable) :
    c.invert t = match (c.inverted t).result with
      | .ok d => (d, ⟨(c.inverted t).warnings, .ok ()⟩)
      | .error e => (c, ⟨(c.inverted t).warnings, .error e⟩) := by
  cases inverted : (c.inverted t).result <;>
    simp [invert, Reported.map, inverted, Except.map, Except.toOption]

/-- Inversion in place is inversion when that succeeds. -/
theorem invert_of_ok (inverted : (c.inverted t).result = .ok d) : (c.invert t).1 = d := by
  rw [invert_eq, inverted]

/-- Inversion in place changes nothing when inversion fails. -/
theorem invert_of_error {e : Error} (failed : (c.inverted t).result = .error e) :
    (c.invert t).1 = c := by
  rw [invert_eq, failed]

end Circuit

end QuantumCircuit
