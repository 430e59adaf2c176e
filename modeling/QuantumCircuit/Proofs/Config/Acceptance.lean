import QuantumCircuit.Proofs.Config.Layers
import QuantumCircuit.Proofs.Config.Precedence

/-!
# Accepted configurations and their tables

Two things speak against a configuration: an empty gate name anywhere in it, and a gate in both
lists.  `Faulty` says which of them is reported, without the order in which the names are gone
through: an empty name comes before everything else, and then the first self-inverse gate that is
also in the other list.

A configuration without a fault has a table, and one with a fault has the same error in place of
the table as in place of the acceptance.  Registering a rule can fail by itself, for an empty
name, but acceptance has ruled this out for every registration to come, over whatever table.  So
no error of a registration is ever passed on, and since every way of loading ends in an accepted
configuration, what has been loaded has a table (`accepted_iff_table`).
-/

namespace QuantumCircuit

set_option autoImplicit false

namespace Config

variable {c : Config} {e : ConfigError} {objection : Objection}

/-! ## Faults -/

/-- Some gate name of the configuration is empty, in a list or on either side of a pair. -/
def NamesEmpty (c : Config) : Prop :=
  "" ∈ c.selfInverse ∨ "" ∈ c.negateParameter ∨
    ∃ a b, c.pairs[a]? = some b ∧ (a = "" ∨ b = "")

/-- The fault of a configuration that is reported. -/
inductive Faulty (c : Config) : Objection → Prop
  | emptyName (empty : c.NamesEmpty) : Faulty c .emptyName
  | listedTwice {before : List String} {gate : String} {after : List String}
      (named : ¬ c.NamesEmpty) (listed : c.selfInverse = before ++ gate :: after)
      (both : gate ∈ c.negateParameter) (first : ∀ earlier ∈ before, earlier ∉ c.negateParameter) :
      Faulty c (.listedTwice gate)

theorem empty_mem_names : "" ∈ c.names ↔ c.NamesEmpty := by
  rw [mem_names, NamesEmpty]
  refine or_congr_right (or_congr_right ?_)
  constructor
  · rintro ⟨⟨a, b⟩, member, empty⟩
    exact ⟨a, b, Std.ExtTreeMap.mem_toList_iff_getElem?_eq_some.mp member, empty⟩
  · rintro ⟨a, b, registered, empty⟩
    exact ⟨(a, b), Std.ExtTreeMap.mem_toList_iff_getElem?_eq_some.mpr registered, empty⟩

/-- **What speaks against a configuration is its fault.** -/
theorem objection?_eq_some_iff : c.objection? = some objection ↔ c.Faulty objection := by
  unfold objection?
  by_cases empty : c.NamesEmpty
  · rw [if_pos (empty_mem_names.mpr empty)]
    constructor
    · rintro ⟨⟩
      exact .emptyName empty
    · rintro (_ | ⟨named, _⟩)
      · rfl
      · exact absurd empty named
  · rw [if_neg (mt empty_mem_names.mp empty)]
    constructor
    · intro found
      obtain ⟨gate, conflict, rfl⟩ := Option.map_eq_some_iff.mp found
      obtain ⟨both, before, after, listed, first⟩ := List.find?_eq_some_iff_append.mp conflict
      exact .listedTwice empty listed (by simpa using both) (by simpa using first)
    · rintro (empty' | ⟨_, listed, both, first⟩)
      · exact absurd empty' empty
      · refine Option.map_eq_some_iff.mpr ⟨_, List.find?_eq_some_iff_append.mpr ?_, rfl⟩
        exact ⟨by simpa using both, _, _, listed, by simpa using first⟩

theorem validate_eq_error_iff :
    c.validate = .error e ↔ ∃ objection, e = .validation objection ∧ c.Faulty objection := by
  simp only [← objection?_eq_some_iff]
  unfold validate
  cases c.objection? with
  | none => simp
  | some objection => simp [eq_comm]

/-- A conflict is reported for the first self-inverse gate that has one, but not beside an empty
name, even in a pair. -/
example :
    (⟨.strict, true, ["A", "G", "H"], ["H", "G"], ∅⟩ : Config).validate
        = .error (.validation (.listedTwice "G")) ∧
      (⟨.strict, true, ["A", "G", "H"], ["H", "G"], .ofList [("Q", "")]⟩ : Config).validate
        = .error (.validation .emptyName) := by
  decide

/-! ## Tables -/

/-- The table of a configuration fails exactly as its acceptance does. -/
theorem adjointTable_eq_error_iff : c.adjointTable = .error e ↔ c.validate = .error e := by
  cases judged : c.validate with
  | error other =>
      have passed : c.adjointTable = .error other := by
        unfold adjointTable
        rw [judged]
        rfl
      rw [passed, Except.error.injEq, Except.error.injEq]
  | ok =>
      obtain ⟨t, described, _⟩ := exists_adjointTable judged
      rw [described]
      exact iff_of_false nofun nofun

theorem exists_adjointTable_iff : (∃ t, c.adjointTable = .ok t) ↔ c.validate = .ok () := by
  constructor
  · rintro ⟨t, described⟩
    cases judged : c.validate with
    | ok => rfl
    | error e =>
        rw [adjointTable_eq_error_iff.mpr judged] at described
        cases described
  · intro accepted
    obtain ⟨t, described, _⟩ := exists_adjointTable accepted
    exact ⟨t, described⟩

/-! ## Loaded configurations -/

/-- The configuration is what one of the ways of loading returns. -/
inductive Loaded (c : Config) : Prop
  | text {text : String} (read : ofYamlText text = .ok c)
  | file {file : ConfigFile} (read : ofFile file = .ok c)
  | setting {setting : Option ByteArray} (read : ofVariable setting = .ok c)
  | layers {file : Option ConfigFile} {setting : Option ByteArray}
      (read : load file setting = .ok c)

theorem Loaded.accepted (loaded : c.Loaded) : c.validate = .ok () := by
  cases loaded with
  | text read => exact ofYamlText_accepted read
  | @file file read =>
      have given : underlying (some file) = .ok c := read
      exact underlying_accepted given
  | setting read => exact override_accepted validate_default read
  | @layers file setting read =>
      rw [load_eq_bind] at read
      cases given : underlying file with
      | error e =>
          rw [given] at read
          cases read
      | ok under =>
          rw [given] at read
          exact override_accepted (underlying_accepted given) read

/-- **Acceptance decides about the table.**  A configuration is accepted when no name in it is
empty and no gate is in both lists, and otherwise rejected for its fault.  It has a table exactly
when it is accepted and is otherwise refused one with the same error; the rules of an accepted one
can be registered over any table.  Every loaded configuration has a table. -/
theorem accepted_iff_table (c : Config) :
    (c.validate = .ok () ↔ ¬ c.NamesEmpty ∧ ∀ gate ∈ c.selfInverse, gate ∉ c.negateParameter) ∧
      (∀ e, c.validate = .error e ↔ ∃ objection, e = .validation objection ∧ c.Faulty objection) ∧
      ((∃ t, c.adjointTable = .ok t) ↔ c.validate = .ok ()) ∧
      (∀ e, c.adjointTable = .error e ↔ c.validate = .error e) ∧
      (c.validate = .ok () → ∀ t, ∃ t', c.register t = .ok t') ∧
      (c.Loaded → ∃ t, c.adjointTable = .ok t) := by
  refine ⟨?_, fun _ => validate_eq_error_iff, exists_adjointTable_iff,
    fun _ => adjointTable_eq_error_iff, ?_, ?_⟩
  · rw [validate_eq_ok_iff, empty_mem_names]
  · intro accepted t
    obtain ⟨t', registered, _⟩ := register_overlay t accepted
    exact ⟨t', registered⟩
  · intro loaded
    exact exists_adjointTable_iff.mpr loaded.accepted

/-- A configuration with a list and a pair of standard gates. -/
def written : Config := ⟨.strict, false, ["G"], [], .ofList [("S", "T")]⟩

/-- What is read from a text has a table, over which its rules can be registered once more. -/
theorem written_has_table :
    ofYamlText "policy: strict\nself_inverse: [G]\npairs: \x7bS: T\x7d" = .ok written ∧
      ∃ t, written.adjointTable = .ok t ∧ ∃ t', written.register t = .ok t' := by
  have read : ofYamlText "policy: strict\nself_inverse: [G]\npairs: \x7bS: T\x7d"
      = .ok written := by
    decide +kernel
  obtain ⟨_, _, described, _, registers, loads⟩ := accepted_iff_table written
  obtain ⟨t, table⟩ := loads (.text read)
  exact ⟨read, t, table, registers (described.mp ⟨t, table⟩) t⟩

end Config

end QuantumCircuit
