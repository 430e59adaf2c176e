import QuantumCircuit.Proofs.Circuit.Json
import QuantumCircuit.Proofs.Slot

/-!
# How drafts are written as JSON

A draft is written as an object or as an array.  An object has a member for the gate and one for
the targets, may have one for the parameter, and may have others that are ignored, all in any
order.  An array has the two or three values.  A parameter is any numeral that is read as it, and
a missing one is null or left out (`Draft.WrittenAs`).  Which numerals are read as a number depends
on the reader of numbers; one that rounds correctly reads all that round to the number.

A draft is read from whatever it is written as (`Draft.WrittenAs.read`).  The order of members
does not matter because reading two members one after the other does the same in either
order, also where it fails (`DraftMembers.read?_interchange`).  So a member that comes twice
may be thought of as coming twice at the front, where it is refused.
-/

namespace QuantumCircuit

set_option autoImplicit false

namespace Operation

/-! ## Members in any order -/

namespace DraftMembers

/-- The names of the members of drafts. -/
def memberNames : List String := ["gate", "targets", "parameter"]

/-- The member for the gate. -/
def gateSlot : Slot DraftMembers String := ⟨gate, ({ · with gate := some · }), fun _ _ => rfl⟩

/-- The member for the targets. -/
def targetsSlot : Slot DraftMembers (List UInt32) :=
  ⟨targets, ({ · with targets := some · }), fun _ _ => rfl⟩

/-- The member for the parameter. -/
def parameterSlot : Slot DraftMembers (Option Binary64) :=
  ⟨parameter, ({ · with parameter := some · }), fun _ _ => rfl⟩

variable {numbers : Json.NumberReader}

theorem gate_apart_targets : gateSlot.Apart targetsSlot :=
  ⟨fun _ _ => rfl, fun _ _ => rfl, fun _ _ _ => rfl⟩

theorem gate_apart_parameter : gateSlot.Apart parameterSlot :=
  ⟨fun _ _ => rfl, fun _ _ => rfl, fun _ _ _ => rfl⟩

theorem targets_apart_parameter : targetsSlot.Apart parameterSlot :=
  ⟨fun _ _ => rfl, fun _ _ => rfl, fun _ _ _ => rfl⟩

theorem read?_gate (value : Json) :
    (fun m : DraftMembers => m.read? numbers (some "gate", value))
      = gateSlot.fill? (gateOfJson? value) := rfl

theorem read?_targets (value : Json) :
    (fun m : DraftMembers => m.read? numbers (some "targets", value))
      = targetsSlot.fill? (targetsOfJson? value) := rfl

theorem read?_parameter (value : Json) :
    (fun m : DraftMembers => m.read? numbers (some "parameter", value))
      = parameterSlot.fill? (parameterOfJson? numbers value) := rfl

/-- A member under another name is ignored. -/
theorem read?_unknown {key : String} (unknown : key ∉ memberNames) (value : Json) :
    (fun m : DraftMembers => m.read? numbers (some key, value)) = some := by
  simp only [memberNames, List.mem_cons, List.not_mem_nil, or_false, not_or] at unknown
  obtain ⟨gate, targets, parameter⟩ := unknown
  funext m
  simp [read?, gate, targets, parameter]

/-- What can be interchanged with filling each of the slots can be with reading a member. -/
theorem interchange_read? {f : DraftMembers → Option DraftMembers}
    (gate : ∀ v, Interchange f (gateSlot.fill? v))
    (targets : ∀ v, Interchange f (targetsSlot.fill? v))
    (parameter : ∀ v, Interchange f (parameterSlot.fill? v)) (member : JsonString × Json) :
    Interchange f (·.read? numbers member) := by
  obtain ⟨_ | key, value⟩ := member
  · exact (Interchange.failure f).symm
  · by_cases known : key ∈ memberNames
    · simp only [memberNames, List.mem_cons, List.not_mem_nil, or_false] at known
      rcases known with rfl | rfl | rfl
      · rw [read?_gate]
        exact gate _
      · rw [read?_targets]
        exact targets _
      · rw [read?_parameter]
        exact parameter _
    · rw [read?_unknown known]
      exact (Interchange.nothing f).symm

/-- **Two members are read to the same effect in either order.** -/
theorem read?_interchange (first second : JsonString × Json) :
    Interchange (fun m : DraftMembers => m.read? numbers first) (·.read? numbers second) := by
  -- One case for each slot of the second member, and in it one for each slot of the first.
  refine interchange_read? ?_ ?_ ?_ second
  · intro v
    exact (interchange_read? (gateSlot.interchange_self v) (gate_apart_targets.interchange v)
      (gate_apart_parameter.interchange v) first).symm
  · intro v
    exact (interchange_read? (fun w => (gate_apart_targets.interchange w v).symm)
      (targetsSlot.interchange_self v) (targets_apart_parameter.interchange v) first).symm
  · intro v
    exact (interchange_read? (fun w => (gate_apart_parameter.interchange w v).symm)
      (fun w => (targets_apart_parameter.interchange w v).symm)
      (parameterSlot.interchange_self v) first).symm

variable {members members' : List (JsonString × Json)}

theorem readAll?_cons (m : DraftMembers) (member : JsonString × Json)
    (rest : List (JsonString × Json)) :
    m.readAll? numbers (member :: rest)
      = (m.read? numbers member).bind (·.readAll? numbers rest) := by
  rw [readAll?]
  cases m.read? numbers member <;> rfl

/-- **The order of members does not matter.** -/
theorem readAll?_perm (perm : members.Perm members') (m : DraftMembers) :
    m.readAll? numbers members = m.readAll? numbers members' :=
  run_perm readAll?_cons read?_interchange perm m

/-! ## Repeated and unknown members -/

variable {extra : List (JsonString × Json)}

/-- All members are under other names. -/
def Unknown (extra : List (JsonString × Json)) : Prop :=
  ∀ member ∈ extra, ∃ key, member.1 = some key ∧ key ∉ memberNames

theorem readAll?_unknown (unknown : Unknown extra) (m : DraftMembers) :
    m.readAll? numbers extra = some m := by
  induction extra with
  | nil => rfl
  | cons member extra ih =>
      obtain ⟨⟨key, named, other⟩, others⟩ := List.forall_mem_cons.mp unknown
      obtain ⟨_, value⟩ := member
      subst named
      rw [readAll?_cons, congrFun (read?_unknown other value) m]
      exact ih others

end DraftMembers

/-! ## Drafts as values -/

section Writing

variable (numbers : Json.NumberReader)

/-- The values that write a parameter: null, or any numeral that is read as it. -/
inductive ParameterWrittenAs : Option Binary64 → Json → Prop where
  | none : ParameterWrittenAs .none .null
  | number {x : Binary64} {n : Numeral} (reads : numbers.read? n = some x) :
      ParameterWrittenAs (some x) (.number n)

/-- The members that write a parameter.  None is needed where there is no parameter. -/
inductive ParameterMembers : Option Binary64 → List (JsonString × Json) → Prop where
  | omitted : ParameterMembers none []
  | written {parameter : Option Binary64} {value : Json}
      (written : ParameterWrittenAs numbers parameter value) :
      ParameterMembers parameter [(some "parameter", value)]

/-- The value that writes targets.  A natural number has one numeral only. -/
def targetsJson (targets : List UInt32) : Json :=
  .array (targets.map fun t => .number (.ofNat t.toNat))

/-- **The values that write a draft.** -/
inductive Draft.WrittenAs (d : Draft) : Json → Prop where
  | object {parameter extra members : List (JsonString × Json)}
      (written : ParameterMembers numbers d.parameter parameter)
      (unknown : DraftMembers.Unknown extra)
      (order : members.Perm ((some "gate", .text d.gate)
        :: (some "targets", targetsJson d.targets) :: (parameter ++ extra))) :
      d.WrittenAs (.object members)
  | pair (omitted : d.parameter = none) :
      d.WrittenAs (.array [.text d.gate, targetsJson d.targets])
  | triple {value : Json} (written : ParameterWrittenAs numbers d.parameter value) :
      d.WrittenAs (.array [.text d.gate, targetsJson d.targets, value])

end Writing

variable {numbers numbers' : Json.NumberReader} {d : Draft} {j : Json}

/-! ## Which drafts can be written -/

section Mono

variable (reads : ∀ n x, numbers.read? n = some x → numbers'.read? n = some x)
include reads

theorem ParameterWrittenAs.mono {parameter : Option Binary64} {value : Json}
    (written : ParameterWrittenAs numbers parameter value) :
    ParameterWrittenAs numbers' parameter value := by
  cases written with
  | none => exact .none
  | number known => exact .number (reads _ _ known)

theorem ParameterMembers.mono {parameter : Option Binary64} {members : List (JsonString × Json)}
    (written : ParameterMembers numbers parameter members) :
    ParameterMembers numbers' parameter members := by
  cases written with
  | omitted => exact .omitted
  | written written => exact .written (written.mono reads)

/-- What writes a draft for one reader writes it for every reader that reads as much. -/
theorem Draft.WrittenAs.mono (written : d.WrittenAs numbers j) : d.WrittenAs numbers' j := by
  cases written with
  | object written unknown order => exact .object (written.mono reads) unknown order
  | pair omitted => exact .pair omitted
  | triple written => exact .triple (written.mono reads)

end Mono

/-! ## Reading what has been written -/

theorem ParameterWrittenAs.read {parameter : Option Binary64} {value : Json}
    (written : ParameterWrittenAs numbers parameter value) :
    parameterOfJson? numbers value = some parameter := by
  cases written with
  | none => rfl
  | number reads => rw [parameterOfJson?, reads, Option.map_some]

theorem targetsOfJson?_targetsJson (targets : List UInt32) :
    targetsOfJson? (targetsJson targets) = some targets :=
  targetsOfJson?_numbers targets

/-- In the order of the fields, the members that write a draft are read one after the other. -/
theorem readAll?_inOrder {parameter extra : List (JsonString × Json)}
    (written : ParameterMembers numbers d.parameter parameter)
    (unknown : DraftMembers.Unknown extra) :
    (DraftMembers.none.readAll? numbers ((some "gate", .text d.gate)
      :: (some "targets", targetsJson d.targets) :: (parameter ++ extra))).bind
        DraftMembers.toDraft? = some d := by
  have gate : DraftMembers.none.read? numbers (some "gate", .text d.gate)
      = some ⟨some d.gate, none, none⟩ := rfl
  have targets : DraftMembers.read? numbers ⟨some d.gate, none, none⟩
      (some "targets", targetsJson d.targets) = some ⟨some d.gate, some d.targets, none⟩ := by
    simp [DraftMembers.read?, targetsOfJson?_targetsJson]
  rw [DraftMembers.readAll?_cons, gate, Option.bind_some, DraftMembers.readAll?_cons, targets,
    Option.bind_some]
  obtain ⟨_, _, held⟩ := d
  cases written with
  | omitted =>
      rw [List.nil_append, DraftMembers.readAll?_unknown unknown]
      rfl
  | written written =>
      rw [List.singleton_append, DraftMembers.readAll?_cons]
      simp [DraftMembers.read?, written.read, DraftMembers.readAll?_unknown unknown,
        DraftMembers.toDraft?]

/-- **A draft is read from every value that writes it.** -/
theorem Draft.WrittenAs.read (written : d.WrittenAs numbers j) :
    Draft.ofJson? numbers j = some d := by
  cases written with
  | object written unknown order =>
      rw [Draft.ofJson?, DraftMembers.readAll?_perm order]
      exact readAll?_inOrder written unknown
  | pair omitted =>
      obtain ⟨gate, targets, parameter⟩ := d
      subst omitted
      simp [Draft.ofJson?, draftOfValues?, gateOfJson?, Json.text, targetsOfJson?_targetsJson]
  | triple written =>
      simp [Draft.ofJson?, draftOfValues?, gateOfJson?, Json.text, targetsOfJson?_targetsJson,
        written.read]

end Operation

end QuantumCircuit
