import Mathlib.Algebra.GroupWithZero.Nat
import QuantumCircuit.Text.Join

/-!
# Taking rows with a separator apart

A row is the join of its members, so splitting it at the separator gives the members back when
the separator occurs in none of them (`splitOn_joinWith`).  In general there is one piece more
than separators, those inside the members among them (`length_splitOn_joinWith`).

The row of nothing and the row of one empty member are the same, and they are the only two
that are.  So rows tell their members apart when no member is empty (`joinWith_inj`).
-/

namespace QuantumCircuit

set_option autoImplicit false

variable {separator : Char} {row row' : List (List Char)}

theorem joinWith_eq_intercalate (separator : Char) (row : List (List Char)) :
    joinWith separator row = [separator].intercalate row := by
  fun_induction joinWith separator row with
  | case1 => rfl
  | case2 x => exact List.intercalate_singleton.symm
  | case3 x y rest ih => simp [ih]

/-- **The members of a row are its pieces**, if none of them has the separator in it. -/
theorem splitOn_joinWith (nonempty : row ≠ []) (apart : ∀ x ∈ row, separator ∉ x) :
    (joinWith separator row).splitOn separator = row := by
  rw [joinWith_eq_intercalate]
  exact List.splitOn_intercalate separator apart nonempty

/-- A row has the characters of its members in it, and the separator. -/
theorem mem_joinWith {c : Char} (member : c ∈ joinWith separator row) :
    c = separator ∨ ∃ x ∈ row, c ∈ x := by
  fun_induction joinWith separator row with
  | case1 => cases member
  | case2 x => exact .inr ⟨x, List.mem_cons_self, member⟩
  | case3 x y rest ih =>
      rcases List.mem_append.mp member with first | later
      · exact .inr ⟨x, List.mem_cons_self, first⟩
      · rcases List.mem_cons.mp later with between | others
        · exact .inl between
        · obtain same | ⟨z, present, inside⟩ := ih others
          · exact .inl same
          · exact .inr ⟨z, List.mem_cons_of_mem x present, inside⟩

/-! ## Counting pieces -/

theorem length_splitOn (separator : Char) (cs : List Char) :
    (cs.splitOn separator).length = cs.count separator + 1 := by
  induction cs with
  | nil => simp
  | cons c cs ih =>
      rw [List.splitOn_cons_eq_if_modifyHead, List.count_cons]
      split
      · rw [List.length_cons, ih]
      · rw [List.length_modifyHead, ih]

theorem length_splitOn_joinWith (nonempty : row ≠ []) :
    ((joinWith separator row).splitOn separator).length
      = row.length + (row.map (·.count separator)).sum := by
  rw [length_splitOn]
  fun_induction joinWith separator row with
  | case1 => exact absurd rfl nonempty
  | case2 x => simp [Nat.add_comm]
  | case3 x y rest ih =>
      have ih := ih (List.cons_ne_nil y rest)
      rw [List.count_append, List.count_cons_self, List.map_cons, List.sum_cons, List.length_cons]
      omega

/-! ## The ends of rows -/

/-- A row does not end in the separator if no member is empty or ends in it. -/
theorem getLast?_joinWith_ne (ends : ∀ x ∈ row, x ≠ [] ∧ x.getLast? ≠ some separator) :
    (joinWith separator row).getLast? ≠ some separator := by
  fun_induction joinWith separator row with
  | case1 => simp
  | case2 x => exact (ends x List.mem_cons_self).2
  | case3 x y rest ih =>
      obtain ⟨_, others⟩ := List.forall_mem_cons.mp ends
      have last := ih others
      cases joined : joinWith separator (y :: rest) with
      | nil =>
          -- Only an empty member leaves nothing.
          have first := (others y List.mem_cons_self).1
          cases rest with
          | nil => exact absurd joined first
          | cons z rest => simp [joinWith] at joined
      | cons c cs =>
          rw [joined] at last
          simpa using last

theorem joinWith_eq_nil_iff (present : [] ∉ row) : joinWith separator row = [] ↔ row = [] := by
  fun_induction joinWith separator row with
  | case1 => simp
  | case2 x =>
      have nonempty : x ≠ [] := fun empty => present (empty ▸ List.mem_cons_self)
      simp [nonempty]
  | case3 x y rest _ => simp

/-! ## Rows tell their members apart -/

/-- **Rows of members that are neither empty nor hold the separator are equal only if their
members are.** -/
theorem joinWith_inj (present : [] ∉ row) (present' : [] ∉ row')
    (apart : ∀ x ∈ row, separator ∉ x) (apart' : ∀ x ∈ row', separator ∉ x) :
    joinWith separator row = joinWith separator row' ↔ row = row' := by
  constructor
  · intro same
    by_cases empty : row = []
    · rw [(joinWith_eq_nil_iff present).mpr empty] at same
      rw [empty, (joinWith_eq_nil_iff present').mp same.symm]
    · have empty' : row' ≠ [] := by
        intro empty'
        rw [(joinWith_eq_nil_iff present').mpr empty'] at same
        exact empty ((joinWith_eq_nil_iff present).mp same)
      rw [← splitOn_joinWith empty apart, same, splitOn_joinWith empty' apart']
  · rintro rfl
    rfl

end QuantumCircuit
