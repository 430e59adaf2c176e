import Mathlib.Order.Lattice
import QuantumCircuit.Proofs.Adjoint.Parts
import QuantumCircuit.Proofs.Circuit.Records
import QuantumCircuit.Proofs.Validity

/-!
# The width of a circuit

The width is the least number above all targets (`width_le_iff`).  This determines it, so what a
change does to the width is read off what it does to the targets.  A circuit put together from two
has the greater of their widths, and the same targets in another order, or under other gates, have
the same width.

Targets are 32-bit words, and a width is counted in 64-bit words with a sum that stays at the
largest word where it would be greater.  That never happens, and the count is the width
(`toNat_wordWidth`).
-/

namespace QuantumCircuit

set_option autoImplicit false

/-! ## Spans of targets -/

/-- How many wires lie at or below the highest of some targets. -/
def span (targets : List UInt32) : Nat :=
  targets.foldr (fun t width => max (t.toNat + 1) width) 0

theorem span_le_iff {targets : List UInt32} {k : Nat} :
    span targets ≤ k ↔ ∀ t ∈ targets, t.toNat < k := by
  induction targets with
  | nil => simp [span]
  | cons t rest ih =>
      have step : span (t :: rest) = max (t.toNat + 1) (span rest) := rfl
      rw [step, Nat.max_le, ih, List.forall_mem_cons, Nat.succ_le_iff]

/-- How many wires lie at or below the highest target of an operation. -/
def Operation.width (op : Operation) : Nat := span op.targets

/-! ## Spans in words -/

/-- The sum of two words, or the largest word where the sum is greater. -/
def saturatingAdd (a b : UInt64) : UInt64 :=
  if a.toNat + b.toNat < UInt64.size then a + b else UInt64.ofNat (UInt64.size - 1)

theorem toNat_saturatingAdd {a b : UInt64} (small : a.toNat + b.toNat < UInt64.size) :
    (saturatingAdd a b).toNat = a.toNat + b.toNat := by
  rw [saturatingAdd, if_pos small, UInt64.toNat_add]
  exact Nat.mod_eq_of_lt small

instance lawfulOrderMax_uint32 : Std.LawfulOrderMax UInt32 where
  max_eq_or a b := by
    show (if a ≤ b then b else a) = a ∨ (if a ≤ b then b else a) = b
    split
    · exact .inr rfl
    · exact .inl rfl
  max_le_iff a b c := by
    show (if a ≤ b then b else a) ≤ c ↔ a ≤ c ∧ b ≤ c
    simp only [UInt32.le_iff_toNat_le]
    split <;> omega

/-- One more than the highest of some targets, counted in words. -/
def wordSpan (targets : List UInt32) : UInt64 :=
  targets.max?.elim 0 fun highest => saturatingAdd highest.toUInt64 1

/-- **Counting in words is exact**, at the largest target too. -/
theorem toNat_wordSpan (targets : List UInt32) : (wordSpan targets).toNat = span targets := by
  unfold wordSpan
  cases found : targets.max? with
  | none =>
      rw [List.max?_eq_none_iff.mp found]
      rfl
  | some highest =>
      obtain ⟨member, atMost⟩ := List.max?_eq_some_iff.mp found
      have small : highest.toUInt64.toNat + (1 : UInt64).toNat < UInt64.size := by
        rw [UInt32.toNat_toUInt64]
        have word : highest.toNat < UInt32.size := highest.toNat_lt
        show highest.toNat + 1 < UInt64.size
        exact Nat.lt_of_le_of_lt word (by decide)
      have counted : (saturatingAdd highest.toUInt64 1).toNat = highest.toNat + 1 := by
        rw [toNat_saturatingAdd small, UInt32.toNat_toUInt64]
        rfl
      refine counted.trans (Nat.le_antisymm ?_ ?_)
      · exact span_le_iff.mp (Nat.le_refl _) highest member
      · refine span_le_iff.mpr ?_
        intro t other
        exact Nat.lt_succ_of_le (UInt32.le_iff_toNat_le.mp (atMost t other))

namespace Circuit

variable {a b c d : Circuit} {op : Operation} {index k : Nat} {t : AdjointTable}

/-- The width counted in words. -/
def wordWidth (c : Circuit) : UInt64 := wordSpan (c.operations.flatMap (·.targets))

theorem toNat_wordWidth (c : Circuit) : c.wordWidth.toNat = c.width := toNat_wordSpan _

/-! ## The least number above all targets -/

theorem width_le_iff : c.width ≤ k ↔ ∀ op ∈ c.operations, op.width ≤ k := by
  have all : c.width ≤ k ↔ ∀ t ∈ c.operations.flatMap (·.targets), t.toNat < k := span_le_iff
  simp only [all, List.forall_mem_flatMap, Operation.width, span_le_iff]

theorem lt_width (member : op ∈ c.operations) {target : UInt32} (present : target ∈ op.targets) :
    target.toNat < c.width :=
  span_le_iff.mp (width_le_iff.mp (Nat.le_refl _) op member) target present

/-- A width fits into 33 bits. -/
theorem width_le_size (c : Circuit) : c.width ≤ UInt32.size :=
  width_le_iff.mpr fun _ _ => span_le_iff.mpr fun target _ => target.toNat_lt

theorem width_pos (valid : c.Valid) (member : op ∈ c.operations) : 0 < c.width := by
  obtain ⟨target, present⟩ := List.exists_mem_of_ne_nil _ (valid op member).targets_ne_nil
  exact Nat.zero_lt_of_lt (lt_width member present)

/-- No wire at or above the width is used, and the one below it is. -/
theorem exists_highest (pos : 0 < c.width) :
    ∃ op ∈ c.operations, ∃ target ∈ op.targets, target.toNat = c.width - 1 := by
  by_contra none
  -- then all targets lie below the width by more than one, and it is not the least number
  have smaller : c.width ≤ c.width - 1 := by
    refine width_le_iff.mpr fun op member => span_le_iff.mpr fun target present => ?_
    have below := lt_width member present
    have apart : target.toNat ≠ c.width - 1 :=
      fun same => none ⟨op, member, target, present, same⟩
    omega
  omega

theorem width_eq_zero_iff (valid : c.Valid) : c.width = 0 ↔ c = .empty := by
  constructor
  · intro zero
    by_contra nonempty
    obtain ⟨op, member⟩ := List.exists_mem_of_ne_nil c.operations
      fun none => nonempty (congrArg Circuit.mk none)
    exact absurd zero (Nat.ne_of_gt (width_pos valid member))
  · rintro rfl
    rfl

/-! ## The width after changes -/

/-- Two circuits have the same width if it is the same numbers that bound their operations. -/
theorem width_eq_of_bounds
    (same : ∀ k, (∀ op ∈ a.operations, op.width ≤ k) ↔ ∀ op ∈ b.operations, op.width ≤ k) :
    a.width = b.width :=
  eq_of_forall_ge_iff fun k => by rw [width_le_iff, width_le_iff, same]

theorem width_eq_of_targets
    (same : a.operations.map (·.targets) = b.operations.map (·.targets)) : a.width = b.width := by
  show span (a.operations.flatMap _) = span (b.operations.flatMap _)
  rw [List.flatMap_def, List.flatMap_def, same]

theorem width_merge (a b : Circuit) : (a.merge b).width = max a.width b.width :=
  eq_of_forall_ge_iff fun k => by
    rw [Nat.max_le, width_le_iff, width_le_iff, width_le_iff]
    exact List.forall_mem_append

theorem width_insert (c : Circuit) (index : Nat) (op : Operation) :
    (c.insert index op).width = max c.width op.width :=
  eq_of_forall_ge_iff fun k => by
    rw [Nat.max_le, width_le_iff, width_le_iff, and_comm]
    exact all_insert_iff (P := fun op => op.width ≤ k)

theorem width_add (c : Circuit) (op : Operation) : (c.add op).width = max c.width op.width := by
  have one : (⟨[op]⟩ : Circuit).width = op.width :=
    congrArg span (List.append_nil op.targets)
  rw [← one]
  exact width_merge c ⟨[op]⟩

/-- What is removed can be put back, and then the width is what it was. -/
theorem width_of_remove? (removed : c.remove? index = some (op, d)) :
    c.width = max d.width op.width := by
  rw [← width_insert d index op, (insert_of_remove? removed).2]

theorem width_reverse (c : Circuit) : c.reverse.width = c.width :=
  width_eq_of_bounds fun _ => by simp only [reverse, List.mem_reverse]

/-- The adjoint of an operation has its targets. -/
theorem width_of_inverted (inverted : (c.inverted t).result = .ok d) : d.width = c.width := by
  have row : c.reverse.operations.map (·.targets) = d.operations.map (·.targets) :=
    map_eq_map_of_forall₂ (inverted_eq_ok_iff.mp inverted) fun _ _ adjoint =>
      (AdjointTable.inverts_iff_isAdjoint.mp adjoint).targets.symm
  rw [← width_eq_of_targets row, width_reverse]

theorem width_of_dagger (recorded : Recorded c d (.dagger index)) : d.width = c.width := by
  cases recorded with
  | dagger there replaced _ targets _ others =>
      refine width_eq_of_targets (List.ext_getElem? fun j => ?_)
      rw [List.getElem?_map, List.getElem?_map]
      by_cases place : j = index
      · have marked : d.operations[j]? = some _ := place ▸ replaced
        have old : c.operations[j]? = some _ := place ▸ there
        rw [marked, old]
        exact congrArg some targets
      · exact congrArg _ (others j place)

theorem width_of_mutateBy {draws : Draws} (drawn : (c.mutateBy draws).1 = some (.dagger index)) :
    (c.mutateBy draws).2.width = c.width := by
  rcases mutateBy_recorded draws c with ⟨_, stays⟩ | ⟨_, record, d, mutated, _, _, recorded⟩
  · rw [stays] at drawn
    cases drawn
  · rw [mutated] at drawn ⊢
    cases drawn
    exact width_of_dagger recorded

/-- **The width is the exact bound of the wires, and every change keeps track of it.**  A valid
circuit has width zero exactly if it is empty.  All targets are below the width, and if there is an
operation, some operation has the target just below it.  Counting in words gives the width.  Merging
gives the greater of two widths, inserting and adding the greater of the width and that of the
operation, and what is removed made the width no smaller.  Reversing, inverting by any table and
marking at random leave the width as it is. -/
theorem width_exact (valid : c.Valid) :
    ((c.width = 0 ↔ c = .empty) ∧
        (∀ op ∈ c.operations, ∀ target ∈ op.targets, target.toNat < c.width) ∧
        (c ≠ .empty →
          ∃ op ∈ c.operations, ∃ target ∈ op.targets, target.toNat = c.width - 1)) ∧
      (c.wordWidth.toNat = c.width ∧ c.width ≤ UInt32.size) ∧
      (∀ d, (c.merge d).width = max c.width d.width) ∧
      (∀ op, (c.add op).width = max c.width op.width ∧
        ∀ index, (c.insert index op).width = max c.width op.width) ∧
      (∀ index op d, c.remove? index = some (op, d) →
        d.width ≤ c.width ∧ c.width = max d.width op.width) ∧
      c.reverse.width = c.width ∧
      (∀ t d, (c.inverted t).result = .ok d → d.width = c.width) ∧
      (∀ draws index, (c.mutateBy draws).1 = some (.dagger index) →
        (c.mutateBy draws).2.width = c.width) ∧
      ∀ words index, (c.mutate words).1 = some (.dagger index) →
        (c.mutate words).2.1.width = c.width := by
  have zero := width_eq_zero_iff valid
  refine ⟨⟨zero, fun op member target present => lt_width member present, ?_⟩,
    ⟨toNat_wordWidth c, width_le_size c⟩, width_merge c,
    fun op => ⟨width_add c op, fun index => width_insert c index op⟩, ?_, width_reverse c,
    fun _ _ => width_of_inverted, fun _ _ => width_of_mutateBy, ?_⟩
  · intro nonempty
    exact exists_highest (Nat.pos_of_ne_zero (mt zero.mp nonempty))
  · intro index op d removed
    have whole := width_of_remove? removed
    exact ⟨whole ▸ Nat.le_max_left _ _, whole⟩
  · intro words index drawn
    have same := mutateBy_ofWords c words
    have kept : (c.mutateBy (.ofWords words)).2.width = c.width :=
      width_of_mutateBy (by rw [same, drawn])
    rwa [same] at kept

/-- The highest target there is, and a repeated one. -/
def spread : Circuit := ⟨[⟨"S'", [4294967295, 0], none⟩, ⟨"CZ", [3, 3], none⟩]⟩

theorem spread_width :
    spread.Valid ∧ spread.wordWidth = 4294967296 ∧ spread.width = 4294967296 ∧
      (∃ d, (spread.inverted .standard).result = .ok d ∧ d.width = 4294967296) ∧
      (∃ op d, spread.remove? 0 = some (op, d) ∧ d.width = 4 ∧ d.width ≤ spread.width) := by
  have valid : spread.Valid := by decide
  have word : spread.wordWidth = 4294967296 := by decide
  obtain ⟨_, ⟨counted, _⟩, _, _, removal, _, inversion, _⟩ := width_exact valid
  have width : spread.width = 4294967296 := by rw [← counted, word]; rfl
  refine ⟨valid, word, width, ⟨_, rfl, ?_⟩, ⟨_, _, rfl, by decide, ?_⟩⟩
  · rw [inversion .standard _ rfl, width]
  · exact (removal 0 _ _ rfl).1

end Circuit

end QuantumCircuit
