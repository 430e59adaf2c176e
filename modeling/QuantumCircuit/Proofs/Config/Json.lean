import Mathlib.Data.List.Nodup
import Mathlib.Data.List.Perm.Subperm
import QuantumCircuit.Config.Json
import QuantumCircuit.Proofs.Config.Fields
import QuantumCircuit.Proofs.Json.Document

/-!
# Configurations are read back from their JSON

An object writes a configuration by one member for each field.  The members may stand in any order,
and one may be left out if the default configuration has the same (`Abridged`).  Every text of such
an object is read as the configuration, the compact form among them, whatever the names in it are.

The pairs are an object again, in which a name may come more than once.  The map that is read has
the last partner of every name (`Collects`), so an encoder may write any row of pairs that collects
to the map.

An object is refused as a whole for one member that is unknown, comes twice or is null (`Spoiled`).
-/

namespace QuantumCircuit.Config

set_option autoImplicit false

/-! ## Pairs -/

/-- The object of a row of pairs. -/
def entriesJson (entries : List (String × String)) : Json :=
  .object (entries.map fun (a, b) => (some a, .text b))

/-- The map has the names of the row, each with the partner that comes last. -/
def Collects (entries : List (String × String)) (pairs : Std.ExtTreeMap String String) : Prop :=
  ∀ a b, pairs[a]? = some b ↔
    ∃ before after, entries = before ++ (a, b) :: after ∧ ∀ later ∈ after, later.1 ≠ a

variable {entries : List (String × String)} {pairs pairs' : Std.ExtTreeMap String String}

theorem Collects.unique (collects : Collects entries pairs) (collects' : Collects entries pairs') :
    pairs = pairs' :=
  Std.ExtTreeMap.ext_getElem? fun a => Option.ext fun b => (collects a b).trans (collects' a b).symm

theorem collects_ofList (entries : List (String × String)) :
    Collects entries (.ofList entries) := by
  intro a b
  rw [Std.ExtTreeMap.ofList_eq_insertMany_empty, Std.ExtTreeMap.getElem?_insertMany_list,
    Std.ExtTreeMap.getElem?_empty, Option.or_none, List.findSomeRev?_eq_findSome?_reverse,
    List.findSome?_eq_some_iff]
  simp only [Std.compare_eq_iff_eq, Option.ite_none_right_eq_some, ite_eq_right_iff, reduceCtorEq,
    imp_false, Option.some.injEq]
  constructor
  · rintro ⟨later, ⟨_, _⟩, earlier, split, ⟨rfl, rfl⟩, free⟩
    refine ⟨earlier.reverse, later.reverse, ?_, ?_⟩
    · rw [← List.reverse_inj, split]
      simp
    · exact fun entry member => free entry (List.mem_reverse.mp member)
  · rintro ⟨before, after, rfl, free⟩
    refine ⟨after.reverse, (a, b), before.reverse, ?_, ⟨rfl, rfl⟩, ?_⟩
    · simp
    · exact fun entry member => free entry (List.mem_reverse.mp member)

/-- A map is collected from its own pairs. -/
theorem collects_toList (pairs : Std.ExtTreeMap String String) : Collects pairs.toList pairs := by
  intro a b
  rw [← Std.ExtTreeMap.mem_toList_iff_getElem?_eq_some]
  constructor
  · intro member
    obtain ⟨before, after, split⟩ := List.append_of_mem member
    have distinct := Std.ExtTreeMap.distinct_keys_toList (t := pairs)
    rw [split] at distinct
    obtain ⟨apart, _⟩ := List.pairwise_cons.mp (List.pairwise_append.mp distinct).2.1
    exact ⟨before, after, split, fun later member same =>
      apart later member (Std.compare_eq_iff_eq.mpr same.symm)⟩
  · rintro ⟨before, after, split, _⟩
    rw [split]
    exact List.mem_append_right _ List.mem_cons_self

theorem pairsOfMembers?_entries (pairs : Std.ExtTreeMap String String)
    (entries : List (String × String)) :
    pairsOfMembers? pairs (entries.map fun (a, b) => (some a, .text b))
      = some (pairs.insertMany entries) := by
  induction entries generalizing pairs with
  | nil => rfl
  | cons entry entries ih =>
      rw [Std.ExtTreeMap.insertMany_cons]
      exact ih (pairs.insert entry.1 entry.2)

/-- **A row of pairs is read as the map that it collects to.** -/
theorem pairsOfJson?_entriesJson (collects : Collects entries pairs) :
    pairsOfJson? (entriesJson entries) = some pairs := by
  rw [entriesJson, pairsOfJson?, pairsOfMembers?_entries,
    ← Std.ExtTreeMap.ofList_eq_insertMany_empty, (collects_ofList entries).unique collects]

/-! ## Members -/

/-- What is written for a field, with this row for the pairs. -/
def fieldJson (c : Config) (entries : List (String × String)) : Field → Json
  | .policy => .text (policyName c.policy)
  | .noDefaults => .bool c.noDefaults
  | .selfInverse => namesJson c.selfInverse
  | .negateParameter => namesJson c.negateParameter
  | .pairs => entriesJson entries

/-- The members that write a configuration, in the order of the fields. -/
def members (c : Config) (entries : List (String × String)) : List (JsonString × Json) :=
  Field.all.map fun k => (some k.name, c.fieldJson entries k)

variable {c : Config} {given : List (JsonString × Json)} {text : String}

theorem toJson_eq (c : Config) : c.toJson = .object (c.members c.pairs.toList) := rfl

theorem namesOfJson?_namesJson (names : List String) :
    namesOfJson? (namesJson names) = some names := by
  rw [namesJson, namesOfJson?]
  induction names with
  | nil => rfl
  | cons name names ih => simp [Json.text, nameOfJson?, ih]

/-- **What is written for a field is read back.** -/
theorem read_fieldJson (collects : Collects entries c.pairs) (k : Field) :
    jsonReader.read k (c.fieldJson entries k) = some (c.value k) := by
  cases k with
  | policy =>
      show policyNamed? (policyName c.policy) = some c.policy
      cases c.policy <;> decide
  | noDefaults => rfl
  | selfInverse => exact namesOfJson?_namesJson c.selfInverse
  | negateParameter => exact namesOfJson?_namesJson c.negateParameter
  | pairs => exact pairsOfJson?_entriesJson collects

theorem mem_members {member : JsonString × Json} :
    member ∈ c.members entries ↔ ∃ k : Field, member = (some k.name, c.fieldJson entries k) := by
  simp [members, Field.mem_all, eq_comm]

/-- Some members of a configuration, in any order.  Those that are not given are members of the
default configuration too. -/
structure Abridged (c : Config) (entries : List (String × String))
    (given : List (JsonString × Json)) : Prop where
  part : given.Subperm (c.members entries)
  omitted : ∀ member ∈ c.members entries, member ∉ given → member ∈ default.members []

/-- Each field may be given once, and a field that is written as in the default configuration need
not be given. -/
theorem abridged_fields {fields : List Field} (once : fields.Nodup)
    (omitted : ∀ k, k ∉ fields → c.fieldJson entries k = default.fieldJson [] k) :
    c.Abridged entries (fields.map fun k => (some k.name, c.fieldJson entries k)) := by
  refine ⟨?_, ?_⟩
  · obtain ⟨kept, perm, sublist⟩ := List.subperm_of_subset once fun k _ => k.mem_all
    exact ⟨_, perm.map _, sublist.map _⟩
  · intro member present absent
    obtain ⟨k, rfl⟩ := mem_members.mp present
    have left_out : k ∉ fields := fun given => absent (List.mem_map.mpr ⟨k, given, rfl⟩)
    exact mem_members.mpr ⟨k, congrArg (Prod.mk _) (omitted k left_out)⟩

/-- **Members of a configuration make it**, in any order and without defaults. -/
theorem Abridged.made (abridged : c.Abridged entries given)
    (collects : Collects entries c.pairs) : c.MadeOf jsonReader given := by
  obtain ⟨⟨kept, perm, sublist⟩, omitted⟩ := abridged
  refine MadeOf.perm ⟨?_, ?_, ?_⟩ perm
  · have names : (c.members entries).map Prod.fst = Field.all.map fun k => some k.name := by
      rw [members, List.map_map]
      rfl
    have distinct : ((c.members entries).map Prod.fst).Nodup := by
      rw [names]
      exact Field.nodup_all.map fun _ _ same => Field.name_injective (Option.some.inj same)
    exact distinct.sublist (sublist.map Prod.fst)
  · intro member present
    obtain ⟨k, rfl⟩ := mem_members.mp (sublist.subset present)
    exact ⟨k, rfl, read_fieldJson collects k⟩
  · intro k absent
    have left_out : (some k.name, c.fieldJson entries k) ∉ given :=
      fun present => absent (List.mem_map.mpr ⟨_, perm.mem_iff.mpr present, rfl⟩)
    obtain ⟨k', same⟩ := mem_members.mp (omitted _ (mem_members.mpr ⟨k, rfl⟩) left_out)
    obtain ⟨named, written⟩ := Prod.mk.inj same
    obtain rfl : k = k' := Field.name_injective (Option.some.inj named)
    -- The two configurations have the same JSON here, which is read as what each of them holds.
    have own := read_fieldJson collects k
    rw [written, read_fieldJson (collects_ofList []) k] at own
    exact (Option.some.inj own).symm

/-! ## Refused members -/

/-- Something is wrong with a member. -/
inductive Spoiled (given : List (JsonString × Json)) : Prop where
  | unknown {key : JsonString} {value : Json} (member : (key, value) ∈ given)
      (unknown : key ∉ fieldNames.map some) : Spoiled given
  | repeated {key : JsonString} (repeated : 2 ≤ (given.map Prod.fst).count key) : Spoiled given
  | null {key : JsonString} (member : (key, .null) ∈ given) : Spoiled given

/-- No field can be null. -/
theorem read_null (k : Field) : jsonReader.read k .null = none := by
  cases k <;> rfl

theorem Spoiled.not_made (spoiled : Spoiled given) : ¬ c.MadeOf jsonReader given := by
  intro made
  cases spoiled with
  | unknown member unknown =>
      obtain ⟨k, rfl, _⟩ := made.read _ member
      rw [← Field.map_name_all, List.map_map] at unknown
      exact unknown (List.mem_map.mpr ⟨k, k.mem_all, rfl⟩)
  | @repeated key repeated =>
      have once := List.nodup_iff_count_le_one.mp made.once key
      omega
  | null member =>
      obtain ⟨k, _, readable⟩ := made.read _ member
      rw [read_null] at readable
      cases readable

/-! ## Texts -/

theorem ofJsonText?_of_lex (written : Json.lex text.toList = (Json.object given).tokens) :
    ofJsonText? text = ofFields? jsonReader given := by
  rw [ofJsonText?, Json.ofText?_of_lex written]
  rfl

/-- **A configuration survives its JSON form**, whether it would be accepted or not.  It is read
back from its compact text, and from every text of an object with its members in any order, the
defaults left out or not, and any row of pairs that collects to its pairs; every row collects to one
map, that of the last partners.  A text of an object with an unknown, a repeated or a null member is
refused. -/
theorem survives_json (c : Config) :
    ofJsonText? c.toJson.compact = some c ∧
      (∀ text given entries, Json.lex text.toList = (Json.object given).tokens →
        Collects entries c.pairs → c.Abridged entries given → ofJsonText? text = some c) ∧
      (∀ entries, ∃! pairs, Collects entries pairs) ∧
      ∀ text given, Json.lex text.toList = (Json.object given).tokens → Spoiled given →
        ofJsonText? text = none := by
  have reads : ∀ text given entries, Json.lex text.toList = (Json.object given).tokens →
      Collects entries c.pairs → c.Abridged entries given → ofJsonText? text = some c := by
    intro text given entries written collects abridged
    rw [ofJsonText?_of_lex written]
    exact ofFields?_eq_some_iff.mpr (abridged.made collects)
  refine ⟨?_, reads, ?_, ?_⟩
  · have all : c.Abridged c.pairs.toList (c.members c.pairs.toList) :=
      abridged_fields Field.nodup_all fun k absent => absurd k.mem_all absent
    rw [toJson_eq]
    exact reads _ _ _ (Json.lex_compact _) (collects_toList c.pairs) all
  · intro entries
    exact ⟨.ofList entries, collects_ofList entries,
      fun pairs collects => collects.unique (collects_ofList entries)⟩
  · intro text given written spoiled
    rw [ofJsonText?_of_lex written]
    exact ofFields?_eq_none fun c => spoiled.not_made

/-- A configuration with a repeated and an empty name and with a name that needs escapes. -/
def peculiar : Config := ⟨.strict, false, ["G", "", "G"], [], .ofList [("\"A\n", "é"), ("B", "")]⟩

/-- The same pairs with another partner for the first name before the right one. -/
def peculiarEntries : List (String × String) := [("\"A\n", "x"), ("B", ""), ("\"A\n", "é")]

/-- It is read back, also from a text that begins with the pairs and leaves out the two defaults.
A field that comes twice and a field that is null are refused. -/
theorem peculiar_survives_json :
    ofJsonText? peculiar.toJson.compact = some peculiar ∧
      ofJsonText?
          ("\x7b\"pairs\": \x7b\"\\\"A\\n\":\"x\", \"B\":\"\", \"\\\"\\u0041\\n\":\"é\"\x7d,"
            ++ "\n \"self_inverse\": [\"G\", \"\", \"G\"], \"policy\": \"strict\"\x7d")
        = some peculiar ∧
      ofJsonText? "\x7b\"no_defaults\":true,\"no_defaults\":true\x7d" = none ∧
      ofJsonText? "\x7b\"pairs\":null\x7d" = none := by
  obtain ⟨back, reads, _, refuses⟩ := survives_json peculiar
  have collects : Collects peculiarEntries peculiar.pairs := by
    have same : .ofList peculiarEntries = peculiar.pairs := by decide
    exact same ▸ collects_ofList peculiarEntries
  have abridged : peculiar.Abridged peculiarEntries
      ([Field.pairs, .selfInverse, .policy].map fun k =>
        (some k.name, peculiar.fieldJson peculiarEntries k)) := by
    refine abridged_fields (by decide) fun k absent => ?_
    cases k with
    | noDefaults => rfl
    | negateParameter => rfl
    | _ => exact absurd (by decide) absent
  refine ⟨back, reads _ _ _ ?_ collects abridged, ?_, ?_⟩
  · decide +kernel
  · refine refuses _ [(some "no_defaults", .bool true), (some "no_defaults", .bool true)] ?_ ?_
    · decide +kernel
    · exact .repeated (by decide : 2 ≤ List.count (some "no_defaults") _)
  · refine refuses _ [(some "pairs", .null)] ?_ ?_
    · decide +kernel
    · exact .null List.mem_cons_self

end QuantumCircuit.Config
