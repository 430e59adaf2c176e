import Mathlib.Logic.Function.Basic
import QuantumCircuit.Config.Fields

/-!
# What named values make a configuration

Reading goes through the named values one by one and fills a place for each.  What comes out can be
said without that order (`MadeOf`): no name comes twice, every name is the name of a field and its
value reads as what the configuration holds there, and the configuration holds the default in every
field that has no value.  Reading gives exactly the configuration that the values make
(`ofFields?_eq_some_iff`), in whatever notation they are written.  So their order does not matter,
and one name that comes twice, one that is unknown or one value that is not readable spoils them
all.

The five places differ in the type of what they hold.  They are one family over the fields, and
everything here is said once for a field.
-/

namespace QuantumCircuit.Config

set_option autoImplicit false

/-! ## Fields -/

/-- The five fields of a configuration. -/
inductive Field where
  | policy
  | noDefaults
  | selfInverse
  | negateParameter
  | pairs
  deriving DecidableEq

namespace Field

/-- The name of a field in every notation. -/
def name : Field → String
  | .policy => "policy"
  | .noDefaults => "no_defaults"
  | .selfInverse => "self_inverse"
  | .negateParameter => "negate_parameter"
  | .pairs => "pairs"

/-- The type of what a configuration holds in the field. -/
def Value : Field → Type
  | .policy => AdjointPolicy
  | .noDefaults => Bool
  | .selfInverse | .negateParameter => List String
  | .pairs => Std.ExtTreeMap String String

/-- All fields, in the order of their names in `fieldNames`. -/
def all : List Field := [.policy, .noDefaults, .selfInverse, .negateParameter, .pairs]

theorem mem_all (k : Field) : k ∈ all := by
  cases k <;> decide

theorem nodup_all : all.Nodup := by decide

theorem map_name_all : all.map name = fieldNames := rfl

theorem name_injective : Function.Injective name := by
  intro k k' same
  revert same
  cases k <;> cases k' <;> decide

end Field

/-- What a configuration holds in a field. -/
def value (c : Config) : (k : Field) → k.Value
  | .policy => c.policy
  | .noDefaults => c.noDefaults
  | .selfInverse => c.selfInverse
  | .negateParameter => c.negateParameter
  | .pairs => c.pairs

/-- A configuration is what it holds in its fields. -/
theorem ext_value {c c' : Config} (same : ∀ k, c.value k = c'.value k) : c = c' := by
  obtain ⟨policy, noDefaults, selfInverse, negateParameter, pairs⟩ := c
  cases same .policy
  cases same .noDefaults
  cases same .selfInverse
  cases same .negateParameter
  cases same .pairs
  rfl

/-- How a notation reads a value of a field. -/
def FieldReader.read {α : Type} (r : FieldReader α) : (k : Field) → α → Option k.Value
  | .policy => r.policy
  | .noDefaults => r.flag
  | .selfInverse | .negateParameter => r.names
  | .pairs => r.pairs

/-! ## Places -/

namespace Fields

/-- What has been read of a field. -/
def held (f : Fields) : (k : Field) → Option k.Value
  | .policy => f.policy
  | .noDefaults => f.noDefaults
  | .selfInverse => f.selfInverse
  | .negateParameter => f.negateParameter
  | .pairs => f.pairs

/-- The fields of which this has been read. -/
def ofHeld (held : (k : Field) → Option k.Value) : Fields :=
  ⟨held .policy, held .noDefaults, held .selfInverse, held .negateParameter, held .pairs⟩

/-- The same fields with a value for one of them. -/
def put (f : Fields) (k : Field) (v : k.Value) : Fields :=
  .ofHeld (Function.update f.held k (some v))

variable {f f' : Fields} {k k' : Field}

@[simp] theorem held_ofHeld (held : (k : Field) → Option k.Value) (k : Field) :
    (ofHeld held).held k = held k := by
  cases k <;> rfl

theorem ext_held (same : ∀ k, f.held k = f'.held k) : f = f' := by
  obtain ⟨policy, noDefaults, selfInverse, negateParameter, pairs⟩ := f
  cases same .policy
  cases same .noDefaults
  cases same .selfInverse
  cases same .negateParameter
  cases same .pairs
  rfl

theorem held_put_self (f : Fields) (k : Field) (v : k.Value) : (f.put k v).held k = some v := by
  rw [put, held_ofHeld, Function.update_self]

theorem held_put_of_ne (f : Fields) {k : Field} (v : k.Value) (ne : k' ≠ k) :
    (f.put k v).held k' = f.held k' := by
  rw [put, held_ofHeld, Function.update_of_ne ne]

@[simp] theorem held_none (k : Field) : none.held k = .none := by
  cases k <;> rfl

theorem value_toConfig (f : Fields) (k : Field) :
    f.toConfig.value k = (f.held k).getD (default.value k) := by
  cases k <;> rfl

/-! ## One value -/

variable {α : Type} {r : FieldReader α} {name : String} {a : α}

/-- A value with the name of a field is put into the place of the field. -/
theorem read?_name (r : FieldReader α) (f : Fields) (k : Field) (a : α) :
    f.read? r k.name a = if (f.held k).isSome then .none else (r.read k a).map (f.put k) := by
  cases k <;> rfl

/-- A value with another name is refused. -/
theorem read?_unknown (unknown : ∀ k : Field, name ≠ k.name) : f.read? r name a = .none := by
  have policy : name ≠ "policy" := unknown .policy
  have noDefaults : name ≠ "no_defaults" := unknown .noDefaults
  have selfInverse : name ≠ "self_inverse" := unknown .selfInverse
  have negateParameter : name ≠ "negate_parameter" := unknown .negateParameter
  have pairs : name ≠ "pairs" := unknown .pairs
  simp [read?, policy, noDefaults, selfInverse, negateParameter, pairs]

/-- A value is read if it has the name of a field of which nothing has been read. -/
theorem read?_eq_some_iff :
    f.read? r name a = some f' ↔
      ∃ k v, name = k.name ∧ f.held k = .none ∧ r.read k a = some v ∧ f' = f.put k v := by
  constructor
  · intro read
    by_cases known : ∃ k : Field, name = k.name
    · obtain ⟨k, rfl⟩ := known
      rw [read?_name] at read
      cases empty : f.held k with
      | some v => simp [empty] at read
      | none =>
          simp only [empty, Option.isSome_none, Bool.false_eq_true, if_false] at read
          obtain ⟨v, readable, rfl⟩ := Option.map_eq_some_iff.mp read
          exact ⟨k, v, rfl, empty, readable, rfl⟩
    · rw [read?_unknown (not_exists.mp known)] at read
      cases read
  · rintro ⟨k, v, rfl, empty, readable, rfl⟩
    simp [read?_name, empty, readable]

/-! ## A row of values -/

/-- The named values fill places of `f` that were empty, each by a value of its own, which gives
`f'`. -/
structure FilledBy (r : FieldReader α) (f f' : Fields) (values : List (Option String × α)) :
    Prop where
  once : (values.map Prod.fst).Nodup
  read : ∀ value ∈ values, ∃ (k : Field) (v : k.Value), value.1 = some k.name ∧
    f.held k = .none ∧ r.read k value.2 = some v ∧ f'.held k = some v
  kept : ∀ k : Field, some k.name ∉ values.map Prod.fst → f'.held k = f.held k

variable {values : List (Option String × α)}

/-- Filling goes on after one more value under a name of its own. -/
theorem FilledBy.cons {k : Field} {v : k.Value} (empty : f.held k = .none)
    (readable : r.read k a = some v) (rest : (f.put k v).FilledBy r f' values) :
    f.FilledBy r f' ((some k.name, a) :: values) := by
  -- The place is no longer empty, so no later value has its name.
  have fresh : some k.name ∉ values.map Prod.fst := by
    intro later
    obtain ⟨value, member, named⟩ := List.mem_map.mp later
    obtain ⟨k', _, named', unread, _⟩ := rest.read value member
    obtain rfl : k = k' := Field.name_injective (Option.some.inj (named.symm.trans named'))
    rw [held_put_self] at unread
    cases unread
  refine ⟨List.nodup_cons.mpr ⟨fresh, rest.once⟩, ?_, ?_⟩
  · refine List.forall_mem_cons.mpr ⟨⟨k, v, rfl, empty, readable, ?_⟩, ?_⟩
    · rw [rest.kept k fresh, held_put_self]
    · intro value member
      obtain ⟨k', v', named, unread, readable', filled⟩ := rest.read value member
      have ne : k' ≠ k := by
        rintro rfl
        exact fresh (List.mem_map.mpr ⟨value, member, named⟩)
      rw [held_put_of_ne f v ne] at unread
      exact ⟨k', v', named, unread, readable', filled⟩
  · intro k' absent
    obtain ⟨ne, later⟩ := List.ne_and_not_mem_of_not_mem_cons absent
    rw [rest.kept k' later, held_put_of_ne f v fun same => ne (same ▸ rfl)]

/-- What fills places with a first value and more fills them after the first value. -/
theorem FilledBy.of_cons {name : Option String} (filled : f.FilledBy r f' ((name, a) :: values)) :
    ∃ (k : Field) (v : k.Value), name = some k.name ∧ f.held k = .none ∧ r.read k a = some v ∧
      (f.put k v).FilledBy r f' values := by
  obtain ⟨once, read, kept⟩ := filled
  obtain ⟨fresh, onceLater⟩ := List.nodup_cons.mp once
  obtain ⟨⟨k, v, rfl, empty, readable, first⟩, readLater⟩ := List.forall_mem_cons.mp read
  refine ⟨k, v, rfl, empty, readable, onceLater, ?_, ?_⟩
  · intro value member
    obtain ⟨k', v', named, unread, readable', filled⟩ := readLater value member
    have ne : k' ≠ k := by
      rintro rfl
      exact fresh (List.mem_map.mpr ⟨value, member, named⟩)
    exact ⟨k', v', named, (held_put_of_ne f v ne).trans unread, readable', filled⟩
  · intro k' later
    by_cases same : k' = k
    · subst same
      rw [first, held_put_self]
    · rw [held_put_of_ne f v same]
      refine kept k' (List.not_mem_cons_of_ne_of_not_mem ?_ later)
      exact fun named => same (Field.name_injective (Option.some.inj named))

/-- **Reading a row of values fills places with them.** -/
theorem readAll?_eq_some_iff : f.readAll? r values = some f' ↔ f.FilledBy r f' values := by
  induction values generalizing f with
  | nil =>
      rw [readAll?, Option.some.injEq]
      constructor
      · rintro rfl
        exact ⟨List.nodup_nil, List.forall_mem_nil _, fun _ _ => rfl⟩
      · intro filled
        exact ext_held fun k => (filled.kept k List.not_mem_nil).symm
  | cons value values ih =>
      obtain ⟨_ | name, a⟩ := value
      · rw [readAll?]
        refine iff_of_false nofun ?_
        intro filled
        obtain ⟨_, _, named, _⟩ := filled.of_cons
        cases named
      · rw [readAll?]
        constructor
        · intro read
          split at read
          · cases read
          · rename_i first
            obtain ⟨k, v, rfl, empty, readable, rfl⟩ := read?_eq_some_iff.mp first
            exact .cons empty readable (ih.mp read)
        · intro filled
          obtain ⟨k, v, named, empty, readable, rest⟩ := filled.of_cons
          obtain rfl := Option.some.inj named
          rw [read?_eq_some_iff.mpr ⟨k, v, rfl, empty, readable, rfl⟩]
          exact ih.mpr rest

end Fields

/-! ## Configurations -/

/-- **The named values make a configuration.** -/
structure MadeOf {α : Type} (r : FieldReader α) (c : Config) (values : List (Option String × α)) :
    Prop where
  once : (values.map Prod.fst).Nodup
  read : ∀ value ∈ values, ∃ k : Field, value.1 = some k.name ∧
    r.read k value.2 = some (c.value k)
  omitted : ∀ k : Field, some k.name ∉ values.map Prod.fst → c.value k = default.value k

variable {α : Type} {r : FieldReader α} {c : Config} {values values' : List (Option String × α)}

/-- What has been read of a configuration when the fields with these names have been. -/
def readSoFar (c : Config) (names : List (Option String)) : Fields :=
  .ofHeld fun k => if some k.name ∈ names then some (c.value k) else none

theorem toConfig_readSoFar {names : List (Option String)}
    (omitted : ∀ k : Field, some k.name ∉ names → c.value k = default.value k) :
    (c.readSoFar names).toConfig = c := by
  refine ext_value fun k => ?_
  rw [Fields.value_toConfig, readSoFar, Fields.held_ofHeld]
  split
  · rfl
  · rename_i absent
    exact (omitted k absent).symm

/-- **Reading named values gives the configuration that they make**, and nothing if they make
none. -/
theorem ofFields?_eq_some_iff : ofFields? r values = some c ↔ c.MadeOf r values := by
  rw [ofFields?, Option.map_eq_some_iff]
  constructor
  · rintro ⟨f, read, rfl⟩
    obtain ⟨once, read, kept⟩ := Fields.readAll?_eq_some_iff.mp read
    refine ⟨once, ?_, ?_⟩
    · intro value member
      obtain ⟨k, v, named, _, readable, filled⟩ := read value member
      refine ⟨k, named, ?_⟩
      rw [Fields.value_toConfig, filled, readable, Option.getD_some]
    · intro k absent
      rw [Fields.value_toConfig, kept k absent, Fields.held_none, Option.getD_none]
  · rintro ⟨once, read, omitted⟩
    refine ⟨c.readSoFar (values.map Prod.fst), ?_, toConfig_readSoFar omitted⟩
    refine Fields.readAll?_eq_some_iff.mpr ⟨once, ?_, ?_⟩
    · intro value member
      obtain ⟨k, named, readable⟩ := read value member
      have present : some k.name ∈ values.map Prod.fst := List.mem_map.mpr ⟨value, member, named⟩
      refine ⟨k, _, named, Fields.held_none k, readable, ?_⟩
      rw [readSoFar, Fields.held_ofHeld, if_pos present]
    · intro k absent
      rw [readSoFar, Fields.held_ofHeld, if_neg absent, Fields.held_none]

/-- The order of the values does not matter. -/
theorem MadeOf.perm (made : c.MadeOf r values) (perm : values.Perm values') :
    c.MadeOf r values' := by
  obtain ⟨once, read, omitted⟩ := made
  have names := perm.map Prod.fst
  refine ⟨names.nodup_iff.mp once, ?_, ?_⟩
  · exact fun value member => read value (perm.mem_iff.mpr member)
  · exact fun k absent => omitted k fun present => absent (names.mem_iff.mp present)

theorem ofFields?_eq_none (spoiled : ∀ c : Config, ¬ c.MadeOf r values) :
    ofFields? r values = none := by
  cases read : ofFields? r values with
  | none => rfl
  | some c => exact absurd (ofFields?_eq_some_iff.mp read) (spoiled c)

end QuantumCircuit.Config
