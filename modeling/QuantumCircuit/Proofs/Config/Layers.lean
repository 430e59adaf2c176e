import Mathlib.Data.String.Basic
import QuantumCircuit.Config.Load
import QuantumCircuit.Proofs.Text.WhiteSpace

/-!
# The layers of a configuration

A configuration is loaded in layers: the default one or that of a file, and the variable over it.
The file comes first, so its fault is the fault of loading whatever the variable holds
(`load_eq_bind`).  The variable can change nothing but the policy, and acceptance does not depend
on the policy, so what comes out was accepted before and the last check rejects nothing.

What the variable may hold is one of two words, each letter in either case, with any white space
around it (`readPolicy_eq_ok_iff`).
-/

namespace QuantumCircuit

set_option autoImplicit false

namespace Config

variable {c c' : Config} {policy : AdjointPolicy} {text : String}

/-! ## The words for policies -/

/-- The text is the name of the policy, with letters in either case and white space around. -/
def ReadsAs (text : String) (policy : AdjointPolicy) : Prop :=
  ∃ before word after, text.toList = before ++ word ++ after ∧ Blank before ∧ Blank after ∧
    InAnyCase word (policyName policy).toList

/-- The names of policies are in lower case. -/
theorem small_policyName (policy : AdjointPolicy) :
    ∀ l ∈ (policyName policy).toList, l.isUpper = false := by
  have small : ((policyName policy).toList.all fun l => !l.isUpper) = true := by
    cases policy <;> decide
  simpa using small

/-- There is no white space in the names of policies, in either case. -/
theorem solid_policyName (policy : AdjointPolicy) :
    ∀ l ∈ (policyName policy).toList,
      isWhiteSpace l = false ∧ isWhiteSpace l.toUpper = false := by
  have solid : ((policyName policy).toList.all fun l =>
      !isWhiteSpace l && !isWhiteSpace l.toUpper) = true := by
    cases policy <;> decide
  simpa using solid

/-- Trimming takes nothing off the name of a policy, in whatever case it is written. -/
theorem solid_of_inAnyCase {word : List Char}
    (anyCase : InAnyCase word (policyName policy).toList) :
    ∀ c ∈ word, isWhiteSpace c = false := by
  intro c member
  have lower : c.toLower ∈ (policyName policy).toList := by
    rw [← (map_toLower_eq_iff (small_policyName policy)).mpr anyCase]
    exact List.mem_map_of_mem member
  obtain ⟨small, large⟩ := solid_policyName policy _ lower
  rcases eq_or_eq_toUpper c with same | same
  · rwa [same]
  · rwa [same]

theorem policyNamed?_eq_some_iff {name : String} :
    policyNamed? name = some policy ↔ name = policyName policy := by
  constructor
  · intro named
    unfold policyNamed? at named
    split at named
    · cases named
      assumption
    · split at named
      · cases named
        assumption
      · cases named
  · rintro rfl
    cases policy <;> rfl

theorem policyWord_eq_iff : policyWord text = policyName policy ↔ ReadsAs text policy := by
  have folded : policyWord text = policyName policy
      ↔ InAnyCase (trimChars text.toList) (policyName policy).toList := by
    rw [policyWord, String.ofList_eq, map_toLower_eq_iff (small_policyName policy)]
  rw [folded]
  constructor
  · intro word
    obtain ⟨before, after, parts, first, last⟩ := exists_trimmed text.toList
    exact ⟨before, _, after, parts, first, last, word⟩
  · rintro ⟨before, word, after, parts, first, last, anyCase⟩
    rwa [parts, trimChars_around first last (solid_of_inAnyCase anyCase)]

/-- **A text is read as a policy exactly when it is its name**, in any case and with white space
around. -/
theorem readPolicy_eq_ok_iff : readPolicy text = .ok policy ↔ ReadsAs text policy := by
  rw [← policyWord_eq_iff, ← policyNamed?_eq_some_iff, readPolicy]
  cases policyNamed? (policyWord text) <;> simp

theorem readPolicy_eq_error (other : ∀ policy, ¬ ReadsAs text policy) :
    readPolicy text = .error (.validation (.unknownPolicy (policyWord text))) := by
  cases named : policyNamed? (policyWord text) with
  | none => rw [readPolicy, named]
  | some policy =>
      exact absurd (policyWord_eq_iff.mp (policyNamed?_eq_some_iff.mp named)) (other policy)

/-- The empty text is not the name of a policy. -/
theorem not_readsAs_empty (policy : AdjointPolicy) : ¬ ReadsAs "" policy := by
  rw [← policyWord_eq_iff]
  cases policy <;> decide

/-! ## What the variable changes -/

/-- Acceptance does not depend on the policy. -/
theorem validate_withPolicy (c : Config) (policy : AdjointPolicy) :
    ({ c with policy := policy } : Config).validate = c.validate := rfl

theorem validate_default : default.validate = .ok () := by
  decide

theorem ofYamlText_accepted (read : ofYamlText text = .ok c) : c.validate = .ok () := by
  unfold ofYamlText at read
  split at read
  · cases read
  · rename_i c' _
    cases judged : c'.validate with
    | error e =>
        rw [judged] at read
        cases read
    | ok =>
        rw [judged] at read
        cases read
        exact judged

/-- The configuration under the variable: that of the file, or the default one without a file. -/
def underlying : Option ConfigFile → Except ConfigError Config
  | none => .ok default
  | some file => ofFile file

/-- The configuration under the variable has been accepted. -/
theorem underlying_accepted {file : Option ConfigFile} (given : underlying file = .ok c) :
    c.validate = .ok () := by
  cases file with
  | none =>
      cases given
      exact validate_default
  | some file =>
      cases file with
      | missing => cases given
      | holding bytes =>
          unfold underlying ofFile at given
          dsimp only at given
          split at given
          · cases given
          · exact ofYamlText_accepted given

/-- The variable changes nothing but the policy. -/
theorem exists_override {setting : Option ByteArray} (overridden : c.override setting = .ok c') :
    ∃ policy, c' = { c with policy := policy } := by
  unfold override at overridden
  split at overridden
  · cases overridden
    exact ⟨c.policy, rfl⟩
  · rename_i text _
    cases word : readPolicy text with
    | error e =>
        rw [word] at overridden
        cases overridden
    | ok policy =>
        rw [word] at overridden
        cases overridden
        exact ⟨policy, rfl⟩

/-- What the variable makes of an accepted configuration is accepted. -/
theorem override_accepted {setting : Option ByteArray} (accepted : c.validate = .ok ())
    (overridden : c.override setting = .ok c') : c'.validate = .ok () := by
  obtain ⟨policy, rfl⟩ := exists_override overridden
  rw [validate_withPolicy]
  exact accepted

/-- **Loading is overriding what the file holds.**  The last check rejects nothing. -/
theorem load_eq_bind (file : Option ConfigFile) (setting : Option ByteArray) :
    load file setting = (underlying file).bind (·.override setting) := by
  -- The last check sees what an accepted configuration has been overridden to.
  have unfolded : load file setting = (underlying file).bind fun c =>
      (c.override setting).bind fun c => c.validate.bind fun _ => .ok c := by
    cases file <;> rfl
  rw [unfolded]
  cases given : underlying file with
  | error e => rfl
  | ok c =>
      show (c.override setting).bind _ = c.override setting
      cases overridden : c.override setting with
      | error e => rfl
      | ok c' =>
          show c'.validate.bind _ = .ok c'
          rw [override_accepted (underlying_accepted given) overridden]
          rfl

/-! ## All layers -/

/-- What comes of a configuration under the variable, for everything the variable may hold. -/
structure Layered (c : Config) (setting : Option ByteArray) (result : Except ConfigError Config) :
    Prop where
  unset : setting = none → result = .ok c
  notUnicode : ∀ bytes ∈ setting, String.fromUTF8? bytes = none → result = .ok c
  policy : ∀ bytes ∈ setting, ∀ text policy, String.fromUTF8? bytes = some text →
    ReadsAs text policy → result = .ok { c with policy := policy }
  otherText : ∀ bytes ∈ setting, ∀ text, String.fromUTF8? bytes = some text →
    (∀ policy, ¬ ReadsAs text policy) →
    result = .error (.validation (.unknownPolicy (policyWord text)))

theorem override_layered (c : Config) (setting : Option ByteArray) :
    Layered c setting (c.override setting) where
  unset := by
    rintro rfl
    rfl
  notUnicode := by
    rintro bytes rfl foreign
    simp [override, settingText?, foreign]
  policy := by
    rintro bytes rfl text policy unicode named
    simp [override, settingText?, unicode, readPolicy_eq_ok_iff.mpr named, Except.map]
  otherText := by
    rintro bytes rfl text unicode other
    simp [override, settingText?, unicode, readPolicy_eq_error other, Except.map]

/-- **The layers of a configuration.**  Whatever the variable holds, a fault of the file is the
fault of loading, and a file that is missing or not Unicode is one.  Without a fault, a variable
that is unset or not Unicode leaves what the file holds as it is, or the default configuration
without a file; the name of a policy replaces the policy and nothing else; any other text, the
empty one too, is rejected.  The last check of what has been loaded rejects nothing.  The variable
alone counts like loading without a file, and the file alone like loading without the variable. -/
theorem load_layered (file : Option ConfigFile) (setting : Option ByteArray) :
    (∀ e, underlying file = .error e → load file setting = .error e) ∧
    underlying (some .missing) = .error (.io .notFound) ∧
    (∀ bytes, String.fromUTF8? bytes = none →
      underlying (some (.holding bytes)) = .error (.io .notUnicode)) ∧
    (∀ c, underlying file = .ok c → Layered c setting (load file setting)) ∧
    (∀ c c', underlying file = .ok c → c.override setting = .ok c' → c'.validate = .ok ()) ∧
    (∀ policy, ¬ ReadsAs "" policy) ∧
    ofVariable setting = load none setting ∧
    ∀ given, ofFile given = load (some given) none := by
  refine ⟨?_, rfl, ?_, ?_, ?_, not_readsAs_empty, ?_, ?_⟩
  · intro e fault
    rw [load_eq_bind, fault]
    rfl
  · intro bytes foreign
    rw [underlying, ofFile, foreign]
  · intro c given
    rw [load_eq_bind, given]
    exact override_layered c setting
  · intro c c' given
    exact override_accepted (underlying_accepted given)
  · rw [load_eq_bind]
    rfl
  · intro given
    rw [load_eq_bind]
    show ofFile given = (ofFile given).bind _
    cases ofFile given <;> rfl

/-- A name in mixed case between white space that is not all ASCII; the empty text; and a missing
file, for which the variable makes no difference. -/
theorem load_in_mixed_case :
    load none (some " \u3000StRiCt\n".toUTF8) = .ok { default with policy := .strict } ∧
      load none (some "".toUTF8) = .error (.validation (.unknownPolicy "")) ∧
      load (some .missing) (some "strict".toUTF8) = .error (.io .notFound) := by
  have named : ReadsAs " \u3000StRiCt\n" .strict := policyWord_eq_iff.mp (by decide +kernel)
  refine ⟨?_, ?_, ?_⟩
  · have layers := (load_layered none (some " \u3000StRiCt\n".toUTF8)).2.2.2.1 default rfl
    exact layers.policy _ rfl _ _ (by decide +kernel) named
  · have layers := (load_layered none (some "".toUTF8)).2.2.2.1 default rfl
    have word : policyWord "" = "" := by decide +kernel
    have rejected := layers.otherText _ rfl "" (by decide +kernel) not_readsAs_empty
    rwa [word] at rejected
  · exact (load_layered (some .missing) (some "strict".toUTF8)).1 _ rfl

end Config

end QuantumCircuit
