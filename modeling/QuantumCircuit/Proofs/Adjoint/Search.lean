import Mathlib.Logic.Function.Iterate
import QuantumCircuit.Proofs.Adjoint.Resolution
import QuantumCircuit.Proofs.WorkspaceRuns

/-!
# Searching for the rule of a gate

The rule of a gate is searched in rounds.  A round asks for the rule of a name, which is the gate
itself at first.  If there is none, the next round asks for the name without its last mark, and the
search ends without a rule where no mark is left or nothing but a mark.  A rule that is found comes
with the text of the gate behind the name, cut off by the size of the name in bytes.

A text cannot be cut inside a character, and the search would break off there (`Search.broken`).  It
never does: every name that is asked for is the gate without some of its marks and is not empty
(`Search.OnGate`), so the gate is cut behind it and the rest is a row of marks.  Each round takes a
mark away, so the search ends, and it ends with what `resolve` finds (`search_ends`).

That is the rule of the longest registered name of which the gate is a marked form (`LongestBase`).
In a table without a rule for the empty name there is nothing else to find, so a name of marks only
has no other base than a shorter name of marks.
-/

namespace QuantumCircuit

set_option autoImplicit false

/-! ## Cutting texts -/

/-- What a text has behind its first `size` bytes, unless they end inside a character. -/
def behind? (text : String) (size : Nat) : Option String :=
  (text.pos? ⟨size⟩).map fun cut => (text.sliceFrom cut).copy

/-- The name without the mark at its end. -/
def withoutMark? (name : String) : Option String :=
  (name.dropSuffix? daggerMark).map fun base => base.copy

/-- A row of marks. -/
def marksText (n : Nat) : String := String.ofList (List.replicate n daggerMark)

theorem behind?_append (front back : String) :
    behind? (front ++ back) front.utf8ByteSize = some back := by
  have valid : front.rawEndPos.IsValid (front ++ back) :=
    String.Pos.Raw.isValid_rawEndPos.append_right back
  have cut : (front ++ back).pos? front.rawEndPos
      = some ((front ++ back).pos front.rawEndPos valid) := by
    simp [String.pos?, String.Slice.pos?, String.pos, valid.toSlice]
  show ((front ++ back).pos? front.rawEndPos).map _ = _
  rw [cut, Option.map_some, String.Pos.splits_append_rawEndPos.copy_sliceFrom_eq]

/-- A cut inside a character is noticed. -/
example : behind? "é'" 1 = none ∧ behind? "é'" 2 = some "'" := by decide +kernel

theorem append_marksText (gate : String) (n : Nat) : gate ++ marksText n = withMarks gate n := rfl

theorem withMarks_one (name : String) :
    withMarks name 1 = name ++ String.singleton daggerMark := by
  rw [← String.toList_inj]
  simp [toList_withMarks]

theorem withoutMark?_eq_some_iff {name base : String} :
    withoutMark? name = some base ↔ name = withMarks base 1 := by
  rw [withMarks_one]
  constructor
  · intro found
    obtain ⟨rest, dropped, rfl⟩ := Option.map_eq_some_iff.mp found
    exact String.eq_append_of_dropSuffix?_char_eq_some dropped
  · rintro rfl
    cases dropped : (base ++ String.singleton daggerMark).dropSuffix? daggerMark with
    | none =>
        rw [String.dropSuffix?_eq_dropSuffix?_toSlice, String.Slice.dropSuffix?_eq_none_iff,
          String.endsWith_toSlice] at dropped
        exact absurd rfl (String.endsWith_char_eq_false_iff_forall_append.mp dropped base)
    | some rest =>
        have same := String.eq_append_of_dropSuffix?_char_eq_some dropped
        rw [withoutMark?, dropped, Option.map_some, (String.append_left_inj _).mp same]

namespace AdjointTable

variable {t : AdjointTable} {gate name base : String} {rule : AdjointRule} {marks : Nat}

/-! ## Rounds -/

/-- How far the search for the rule of a gate has come: the name that is asked for next, or what has
been found. -/
inductive Search where
  | asking (name : String)
  | ended (found : Option (AdjointRule × String))
  | broken

/-- **One round of the search.** -/
def nextRound (t : AdjointTable) (gate : String) : Search → Search
  | .asking name =>
    match t.rule? name with
    | some rule =>
      match behind? gate name.utf8ByteSize with
      | some rest => .ended (some (rule, rest))
      | none => .broken
    | none =>
      match withoutMark? name with
      | some base => if base = "" then .ended none else .asking base
      | none => .ended none
  | s => s

/-- A rule that is found comes with the marks behind the name. -/
theorem nextRound_of_rule (registered : t.rule? name = some rule) :
    t.nextRound (withMarks name marks) (.asking name) = .ended (some (rule, marksText marks)) := by
  simp only [nextRound, registered, ← append_marksText, behind?_append]

theorem nextRound_mark (ne : base ≠ "") (free : t.rule? (withMarks base 1) = none) :
    t.nextRound gate (.asking (withMarks base 1)) = .asking base := by
  simp only [nextRound, free, withoutMark?_eq_some_iff.mpr rfl, ne, if_false]

theorem nextRound_unmarked (unmarked : ∀ base, base ≠ "" → name ≠ withMarks base 1)
    (free : t.rule? name = none) : t.nextRound gate (.asking name) = .ended none := by
  simp only [nextRound, free]
  split
  · rename_i base found
    have marked := withoutMark?_eq_some_iff.mp found
    rw [if_pos (Decidable.not_not.mp fun ne => unmarked base ne marked)]
  · rfl

/-- What the search is about: the gate without some of its marks, and never the empty name. -/
inductive Search.OnGate (gate : String) : Search → Prop where
  | asking {name : String} {marks : Nat} (ne : name ≠ "") (marked : gate = withMarks name marks) :
      OnGate gate (.asking name)
  | ended {found : Option (AdjointRule × String)} : OnGate gate (.ended found)

theorem Search.OnGate.nextRound {s : Search} (on : s.OnGate gate) :
    (t.nextRound gate s).OnGate gate := by
  cases on with
  | @asking name marks ne marked =>
      cases registered : t.rule? name with
      | some rule =>
          rw [marked, nextRound_of_rule registered]
          exact .ended
      | none =>
          rcases marked_or_unmarked name with ⟨base, named, rfl⟩ | unmarked
          · rw [nextRound_mark named registered]
            exact .asking named (marked.trans (withMarks_withMarks base 1 marks))
          · rw [nextRound_unmarked unmarked registered]
            exact .ended
  | ended => exact .ended

/-- **The search stays on the gate** in all rounds. -/
theorem Search.OnGate.rounds {s : Search} (on : s.OnGate gate) (n : Nat) :
    ((t.nextRound gate)^[n] s).OnGate gate :=
  Function.Iterate.rec (OnGate gate) on (fun _ on => on.nextRound) n

/-- **The search ends with what `resolve` finds**, after no more rounds than the name has
characters. -/
theorem search_ends (ne : name ≠ "") (marked : gate = withMarks name marks) :
    ∃ n ≤ name.length, (t.nextRound gate)^[n] (.asking name)
      = .ended ((t.resolve name).map fun found => (found.1, marksText (found.2 + marks))) := by
  -- Each round goes on with a shorter name.
  induction size : name.length using Nat.strongRecOn generalizing name marks with
  | ind _ ih =>
      subst size
      have positive : 1 ≤ name.length := by
        rw [Nat.one_le_iff_ne_zero, ne_eq, String.length_eq_zero_iff]
        exact ne
      cases registered : t.rule? name with
      | some rule =>
          refine ⟨1, positive, ?_⟩
          rw [Function.iterate_one, marked, nextRound_of_rule registered,
            resolve_of_rule registered, Option.map_some, Nat.zero_add]
      | none =>
          rcases marked_or_unmarked name with ⟨base, named, rfl⟩ | unmarked
          · have longer := length_withMarks base 1
            obtain ⟨n, le, ended⟩ := ih base.length (by omega) named
              (marked.trans (withMarks_withMarks base 1 marks)) rfl
            refine ⟨n + 1, by omega, ?_⟩
            rw [Function.iterate_succ_apply, nextRound_mark named registered, ended,
              resolve_mark named registered, Option.map_map]
            simp only [Function.comp_def, Nat.add_assoc]
          · refine ⟨1, positive, ?_⟩
            rw [Function.iterate_one, nextRound_unmarked unmarked registered,
              resolve_unmarked unmarked registered, Option.map_none]

/-! ## The longest base -/

/-- The longest registered name of which the gate is a marked form. -/
structure LongestBase (t : AdjointTable) (base gate : String) : Prop where
  registered : t.contains base = true
  marked : ∃ n, gate = withMarks base n
  longest : ∀ other n, t.contains other = true → gate = withMarks other n →
    other.length ≤ base.length

theorem LongestBase.unique {base' : String} (first : t.LongestBase base gate)
    (second : t.LongestBase base' gate) : base = base' := by
  obtain ⟨m, marked⟩ := first.marked
  obtain ⟨n, marked'⟩ := second.marked
  have le := second.longest base m first.registered marked
  have ge := first.longest base' n second.registered marked'
  have same := marked.symm.trans marked'
  have lengths := congrArg String.length same
  rw [length_withMarks, length_withMarks] at lengths
  obtain rfl : m = n := by omega
  exact withMarks_left_inj.mp same

/-- **What governs a gate is its longest base.** -/
theorem governs_iff_longestBase :
    t.Governs base rule marks gate ↔
      t.LongestBase base gate ∧ t.rule? base = some rule ∧ gate = withMarks base marks := by
  constructor
  · rintro ⟨registered, marked, free⟩
    refine ⟨⟨?_, ⟨marks, marked⟩, ?_⟩, registered, marked⟩
    · rw [contains, registered, Option.isSome_some]
    · intro other n registered' marked'
      by_contra longer
      have lengths := congrArg String.length (marked.symm.trans marked')
      rw [length_withMarks, length_withMarks] at lengths
      -- A longer name would lie between the base and the gate.
      have between := eq_withMarks_of_le (by omega : n ≤ marks) (marked'.symm.trans marked)
      rw [contains, between, free (marks - n) (by omega) (by omega)] at registered'
      cases registered'
  · rintro ⟨⟨_, _, longest⟩, registered, rfl⟩
    refine ⟨registered, rfl, ?_⟩
    intro i pos le
    rw [← Option.not_isSome_iff_eq_none]
    intro registered'
    have split : withMarks base marks = withMarks (withMarks base i) (marks - i) := by
      rw [withMarks_withMarks, Nat.add_sub_cancel' le]
    have shorter := longest (withMarks base i) (marks - i) registered' split
    rw [length_withMarks] at shorter
    omega

/-! ## Reachable tables -/

/-- Some run of commands ends with the table in its workspace. -/
def Reachable (t : AdjointTable) : Prop :=
  ∃ numbers commands name, ((Workspace.empty numbers).run commands).table name = t

theorem Reachable.valid (reachable : t.Reachable) : t.Valid := by
  obtain ⟨numbers, commands, name, rfl⟩ := reachable
  exact ((Workspace.Valid.empty numbers).run commands).tables name

/-- **The search for the rule of a gate finds the longest registered base.**  In every table that
can be made it asks only for the gate without some of its marks and never for the empty name, is
never broken off by a cut inside a character, and ends.  It finds a rule with a row of marks
exactly when the rule is that of the longest registered name that becomes the gate by adding these
marks, and it finds nothing exactly when no registered name becomes the gate by adding marks. -/
theorem search_longest (reachable : t.Reachable) (ne : gate ≠ "") :
    (∀ n, ((t.nextRound gate)^[n] (.asking gate)).OnGate gate) ∧
      (∃ n ≤ gate.length, (t.nextRound gate)^[n] (.asking gate)
        = .ended ((t.resolve gate).map fun found => (found.1, marksText found.2))) ∧
      (∀ rule marks, t.resolve gate = some (rule, marks) ↔
        ∃ base, base ≠ "" ∧ t.LongestBase base gate ∧ t.rule? base = some rule ∧
          gate = base ++ marksText marks) ∧
      (t.resolve gate = none ↔
        ∀ base marks, gate = base ++ marksText marks → t.rule? base = none) := by
  have start : gate = withMarks gate 0 := (withMarks_zero gate).symm
  refine ⟨?_, search_ends ne start, ?_, resolve_eq_none_iff reachable.valid⟩
  · exact (Search.OnGate.asking ne start).rounds
  · intro rule marks
    rw [resolve_eq_some_iff reachable.valid]
    constructor
    · rintro ⟨base, governs⟩
      obtain ⟨longest, registered, marked⟩ := governs_iff_longestBase.mp governs
      exact ⟨base, reachable.valid.ne_empty registered, longest, registered, marked⟩
    · rintro ⟨base, _, longest, registered, marked⟩
      exact ⟨base, governs_iff_longestBase.mpr ⟨longest, registered, marked⟩⟩

/-- A table with rules for `é`, `é'` and a bare mark; a rule for the empty name is refused. -/
def accented : AdjointTable :=
  (Workspace.empty.run
    [.onTable "t" (.insertPair "é" "H"), .onTable "t" (.insert "é'" .negateParameter),
      .onTable "t" (.insert "'" .selfInverse), .onTable "t" (.insert "" .selfInverse)]).table "t"

/-- Of two registered names below `é'''` the longer one is found, behind which two marks are left,
and a name of two marks leads to the bare mark. -/
theorem accented_search :
    accented.Reachable ∧ "é'''" ≠ "" ∧
      (∃ n ≤ 4, (accented.nextRound "é'''")^[n] (.asking "é'''")
        = .ended (some (.negateParameter, "''"))) ∧
      accented.LongestBase "é'" "é'''" ∧ accented.LongestBase "'" "''" := by
  have reachable : accented.Reachable := ⟨.nearest, _, _, rfl⟩
  have ne : "é'''" ≠ "" := by decide
  obtain ⟨_, ⟨n, le, ended⟩, found, _⟩ := search_longest reachable ne
  obtain ⟨_, _, foundMark, _⟩ := search_longest reachable (by decide : "''" ≠ "")
  have resolved : accented.resolve "é'''" = some (.negateParameter, 2) := by decide
  have resolvedMark : accented.resolve "''" = some (.selfInverse, 1) := by decide
  refine ⟨reachable, ne, ⟨n, le, ?_⟩, ?_, ?_⟩
  · rw [ended, resolved]
    rfl
  · obtain ⟨base, _, longest, _, marked⟩ := (found _ _).mp resolved
    obtain rfl : base = "é'" := withMarks_left_inj.mp (marked.symm.trans (by decide))
    exact longest
  · obtain ⟨base, _, longest, _, marked⟩ := (foundMark _ _).mp resolvedMark
    obtain rfl : base = "'" := withMarks_left_inj.mp (marked.symm.trans (by decide))
    exact longest

end AdjointTable

end QuantumCircuit
