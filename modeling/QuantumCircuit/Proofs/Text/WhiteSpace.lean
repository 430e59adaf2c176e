import Mathlib.Data.List.DropRight
import Mathlib.Data.List.Forall2
import QuantumCircuit.Text.WhiteSpace

/-!
# Words in any case with white space around them

Trimming takes a text apart into white space, what is trimmed, and white space again
(`exists_trimmed`), and a word without white space is what is left of it under any white space
(`trimChars_around`).  A word in lower case is the lower case of exactly the words that have each
of its letters in either case (`map_toLower_eq_iff`).
-/

namespace QuantumCircuit

set_option autoImplicit false

/-! ## Trimming -/

/-- White space and nothing else. -/
def Blank (cs : List Char) : Prop := ∀ c ∈ cs, isWhiteSpace c = true

theorem trimChars_eq (cs : List Char) :
    trimChars cs = (cs.dropWhile isWhiteSpace).rdropWhile isWhiteSpace := rfl

/-- **What is trimmed off a text is white space** at its ends. -/
theorem exists_trimmed (cs : List Char) :
    ∃ before after, cs = before ++ trimChars cs ++ after ∧ Blank before ∧ Blank after := by
  refine ⟨cs.takeWhile isWhiteSpace, (cs.dropWhile isWhiteSpace).rtakeWhile isWhiteSpace, ?_,
    fun _ => List.mem_takeWhile_imp, fun _ => List.mem_rtakeWhile_imp⟩
  rw [trimChars_eq, List.append_assoc, List.rdropWhile_append_rtakeWhile,
    List.takeWhile_append_dropWhile]

theorem dropWhile_blank {before rest : List Char} (blank : Blank before)
    (solid : ∀ c ∈ rest.head?, isWhiteSpace c = false) :
    (before ++ rest).dropWhile isWhiteSpace = rest := by
  rw [List.dropWhile_append_of_pos blank]
  cases rest with
  | nil => rfl
  | cons c rest => rw [List.dropWhile_cons_of_neg (by simp [solid c rfl])]

/-- **A word is what is left of it under white space** on either side. -/
theorem trimChars_around {before word after : List Char} (first : Blank before)
    (last : Blank after) (solid : ∀ c ∈ word, isWhiteSpace c = false) :
    trimChars (before ++ word ++ after) = word := by
  -- Seen from behind, the word comes after the white space too.
  have behind : (after.reverse ++ word.reverse).dropWhile isWhiteSpace = word.reverse :=
    dropWhile_blank (fun c member => last c (List.mem_reverse.mp member))
      fun c member => solid c (List.mem_reverse.mp (List.mem_of_mem_head? member))
  cases word with
  | nil =>
      have blank : Blank (before ++ after) := List.forall_mem_append.mpr ⟨first, last⟩
      simp [trimChars, List.dropWhile_eq_nil_iff.mpr blank]
  | cons c word =>
      have front :
          (before ++ (c :: word ++ after)).dropWhile isWhiteSpace = c :: word ++ after := by
        refine dropWhile_blank first fun _ head => ?_
        cases head
        exact solid c List.mem_cons_self
      rw [trimChars, List.append_assoc, front, List.reverse_append, behind, List.reverse_reverse]

/-! ## Letter case -/

/-- A character of a word, or its upper case, for each character of the word. -/
def InAnyCase (cs word : List Char) : Prop :=
  List.Forall₂ (fun c l => c = l ∨ c = l.toUpper) cs word

theorem isUpper_toLower (c : Char) : c.toLower.isUpper = false := by
  delta Char.toLower Char.isUpper
  split <;> grind

/-- The two cases of a letter are the same distance apart for all letters. -/
theorem toLower_eq_iff {c l : Char} (small : l.isUpper = false) :
    c.toLower = l ↔ c = l ∨ c = l.toUpper := by
  delta Char.isUpper at small
  delta Char.toLower Char.toUpper
  simp only [Char.ext_iff]
  -- one case for each way in which the two are letters
  split <;> split <;> grind

theorem eq_or_eq_toUpper (c : Char) : c = c.toLower ∨ c = c.toLower.toUpper :=
  (toLower_eq_iff (isUpper_toLower c)).mp rfl

theorem map_toLower_eq_iff {cs word : List Char} (small : ∀ l ∈ word, l.isUpper = false) :
    cs.map Char.toLower = word ↔ InAnyCase cs word := by
  induction word generalizing cs with
  | nil => simp [InAnyCase]
  | cons l word ih =>
      obtain ⟨first, others⟩ := List.forall_mem_cons.mp small
      cases cs with
      | nil => simp [InAnyCase]
      | cons c cs =>
          rw [List.map_cons, List.cons.injEq, toLower_eq_iff first, ih others, InAnyCase,
            InAnyCase, List.forall₂_cons]

end QuantumCircuit
