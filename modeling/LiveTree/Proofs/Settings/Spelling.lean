import LiveTree.Proofs.Text.Reading
import LiveTree.Settings.Override

/-! What a text has to look like to set a value. Most settings have a few spellings for each of
their values, which may stand in any ASCII letter case; the shift is a numeral. A text writes a
value if such a word stands in it between blanks, and then the value is the one that is read. -/
namespace LiveTree.Settings

open Text (Padded SameLetters Numeral isBlank trimBlanks)

section Spellings

variable {α : Type}

/-- A word is one of the spellings of a value, in some ASCII letter case. -/
def SpelledBy (spellings : List (String × α)) (word : List Char) (value : α) : Prop :=
  ∃ spelling, (spelling, value) ∈ spellings ∧ SameLetters word spelling.toList

/-- Spellings that can be told apart, in small letters and without blanks. -/
structure Plain (spellings : List (String × α)) : Prop where
  distinct : (spellings.map Prod.fst).Nodup
  small : ∀ pair ∈ spellings, pair.1.toList.map Char.toLower = pair.1.toList
  solid : ∀ pair ∈ spellings,
    pair.1.toList.all (fun letter => !isBlank letter && !isBlank letter.toUpper) = true

variable {spellings : List (String × α)} {word : List Char} {value : α}

private theorem Plain.lookup_eq_some_iff (plain : Plain spellings) {spelling : String} :
    spellings.lookup spelling = some value ↔ (spelling, value) ∈ spellings := by
  rw [List.lookup_eq_some_iff]
  constructor
  · rintro ⟨before, after, rfl, -⟩
    exact List.mem_append_right _ List.mem_cons_self
  · intro member
    obtain ⟨before, after, rfl⟩ := List.append_of_mem member
    refine ⟨before, after, rfl, fun pair earlier => ?_⟩
    have distinct := plain.distinct
    rw [List.map_append, List.map_cons] at distinct
    have apart := (List.nodup_append.mp distinct).2.2 pair.1 (List.mem_map_of_mem earlier) spelling
      List.mem_cons_self
    exact bne_iff_ne.mpr apart.symm

/-- The value that is read is the one that the word between the blanks spells. -/
private theorem Plain.readSpelled_eq_some_iff (plain : Plain spellings) (text : String)
    (value : α) :
    readSpelled spellings text = some value ↔
      SpelledBy spellings (trimBlanks text.toList) value := by
  rw [readSpelled, plain.lookup_eq_some_iff]
  constructor
  · intro member
    refine ⟨_, member, (Text.map_toLower_eq_iff (plain.small _ member)).mp ?_⟩
    rw [normalize, String.toList_ofList]
  · rintro ⟨spelling, member, same⟩
    have lower := (Text.map_toLower_eq_iff (plain.small _ member)).mpr same
    rwa [normalize, lower, String.ofList_toList]

private theorem Plain.solid_of_spelledBy (plain : Plain spellings)
    (spelled : SpelledBy spellings word value) : ∀ c ∈ word, isBlank c = false := by
  obtain ⟨spelling, member, same⟩ := spelled
  intro c inside
  obtain ⟨place, bound, rfl⟩ := List.getElem_of_mem inside
  have within : place < spelling.toList.length := same.length_eq ▸ bound
  have letters := List.all_eq_true.mp (plain.solid _ member) _ (List.getElem_mem within)
  rw [Bool.and_eq_true, Bool.not_eq_true', Bool.not_eq_true'] at letters
  rcases same.get bound within with equal | equal
  · exact (congrArg isBlank equal).trans letters.1
  · exact (congrArg isBlank equal).trans letters.2

end Spellings

private theorem plain_truthSpellings : Plain truthSpellings := ⟨by decide, by decide, by decide⟩

private theorem NotifyPolicy.plain_spellings : Plain spellings := ⟨by decide, by decide, by decide⟩

private theorem FailurePolicy.plain_spellings : Plain spellings := ⟨by decide, by decide, by decide⟩

namespace Setting

/-- The values of a setting. -/
def Value : Setting → Type
  | trackUsage => Bool
  | notifyPolicy => NotifyPolicy
  | failurePolicy => FailurePolicy
  | hashShift => Position.Shift

/-- The value of a setting among all settings. -/
def value : (setting : Setting) → Config → setting.Value
  | trackUsage, config => config.relocation.trackUsage
  | notifyPolicy, config => config.frame.notifyPolicy
  | failurePolicy, config => config.frame.failurePolicy
  | hashShift, config => config.hashShift

/-- All settings, with another value for one of them. -/
def set : (setting : Setting) → Config → setting.Value → Config
  | trackUsage, config, value =>
    { config with relocation := { config.relocation with trackUsage := value } }
  | notifyPolicy, config, value =>
    { config with frame := { config.frame with notifyPolicy := value } }
  | failurePolicy, config, value =>
    { config with frame := { config.frame with failurePolicy := value } }
  | hashShift, config, value => { config with hashShift := value }

/-- The value that is read from a text. -/
def read? : (setting : Setting) → String → Option setting.Value
  | trackUsage, text => readTruth text
  | notifyPolicy, text => NotifyPolicy.read text
  | failurePolicy, text => FailurePolicy.read text
  | hashShift, text => readShift text

/-- A word spells a value of a setting. -/
def Spells : (setting : Setting) → List Char → setting.Value → Prop
  | trackUsage, word, value => SpelledBy truthSpellings word value
  | notifyPolicy, word, value => SpelledBy NotifyPolicy.spellings word value
  | failurePolicy, word, value => SpelledBy FailurePolicy.spellings word value
  | hashShift, word, value => Numeral word (Fin.val value)

/-- A text writes a value of a setting: it holds a word that spells it, between blanks. -/
def Writes (setting : Setting) (text : String) (value : setting.Value) : Prop :=
  ∃ word, Padded text.toList word ∧ setting.Spells word value

/-- A text writes some value of a setting. -/
def Accepts (setting : Setting) (text : String) : Prop := ∃ value, setting.Writes text value

variable {setting other : Setting} {config : Config} {text : String}

@[simp]
theorem value_set_self (setting : Setting) (config : Config) (value : setting.Value) :
    setting.value (setting.set config value) = value := by
  cases setting <;> rfl

theorem value_set_of_ne (different : other ≠ setting) (config : Config) (value : setting.Value) :
    other.value (setting.set config value) = other.value config := by
  cases setting <;> cases other <;> first | rfl | exact absurd rfl different

/-- Settings with the same values are the same. -/
theorem eq_of_value_eq {first second : Config}
    (same : ∀ setting : Setting, setting.value first = setting.value second) : first = second := by
  obtain ⟨⟨notify, failure⟩, ⟨track⟩, shift⟩ := first
  cases same trackUsage
  cases same notifyPolicy
  cases same failurePolicy
  cases same hashShift
  rfl

theorem mem_all (setting : Setting) : setting ∈ all := by
  cases setting <;> decide

theorem label_inj : setting.label = other.label ↔ setting = other := by
  cases setting <;> cases other <;> decide

/-- An override puts the value that is read in the place of the former one. -/
theorem override_eq (setting : Setting) (config : Config) (text : String) :
    setting.override config text = (setting.read? text).map (setting.set config) := by
  cases setting <;> rfl

private theorem readShift_eq_some_iff {shift : Position.Shift} :
    readShift text = some shift ↔ Numeral (trimBlanks text.toList) shift.val := by
  have small (value : Nat) (inside : value < Position.hashBits) : value < UInt32.size :=
    Nat.lt_trans inside (by decide)
  have positive : 0 < UInt32.size := by decide
  unfold readShift
  cases read : Text.readBelow UInt32.size (trimBlanks text.toList) with
  | none =>
    refine ⟨nofun, fun numeral => ?_⟩
    rw [(Text.readBelow_eq_some_iff positive).mpr ⟨numeral, small _ shift.isLt⟩] at read
    cases read
  | some bits =>
    obtain ⟨numeral, -⟩ := (Text.readBelow_eq_some_iff positive).mp read
    have fits : (Position.Shift.ofBits bits).toOption = some shift ↔
        Position.Shift.ofBits bits = .ok shift := by
      cases Position.Shift.ofBits bits <;> simp [Except.toOption]
    refine fits.trans (Position.Shift.ofBits_eq_ok_iff.trans ⟨?_, ?_⟩)
    · rintro rfl
      exact numeral
    · intro also
      exact numeral.unique also

private theorem read?_eq_some_iff {value : setting.Value} :
    setting.read? text = some value ↔ setting.Spells (trimBlanks text.toList) value := by
  cases setting with
  | trackUsage => exact plain_truthSpellings.readSpelled_eq_some_iff text value
  | notifyPolicy => exact NotifyPolicy.plain_spellings.readSpelled_eq_some_iff text value
  | failurePolicy => exact FailurePolicy.plain_spellings.readSpelled_eq_some_iff text value
  | hashShift => exact readShift_eq_some_iff

/-- There are no blanks in a word that spells a value. -/
private theorem Spells.solid {word : List Char} {value : setting.Value}
    (spells : setting.Spells word value) : ∀ c ∈ word, isBlank c = false := by
  cases setting with
  | trackUsage => exact plain_truthSpellings.solid_of_spelledBy spells
  | notifyPolicy => exact NotifyPolicy.plain_spellings.solid_of_spelledBy spells
  | failurePolicy => exact FailurePolicy.plain_spellings.solid_of_spelledBy spells
  | hashShift => exact Numeral.solid spells

/-- What is read from a text is the value that it writes. -/
theorem read?_eq_some_iff_writes {value : setting.Value} :
    setting.read? text = some value ↔ setting.Writes text value := by
  rw [read?_eq_some_iff]
  constructor
  · exact fun spells => ⟨_, Text.padded_trimBlanks _, spells⟩
  · rintro ⟨word, padded, spells⟩
    rwa [(Text.trimBlanks_eq_iff spells.solid).mpr padded]

private theorem isSome_read?_iff : (setting.read? text).isSome = true ↔ setting.Accepts text := by
  simp only [Option.isSome_iff_exists, read?_eq_some_iff_writes, Accepts]

instance (setting : Setting) (text : String) : Decidable (setting.Accepts text) :=
  decidable_of_iff _ isSome_read?_iff

theorem read?_eq_none_iff : setting.read? text = none ↔ ¬ setting.Accepts text := by
  rw [← isSome_read?_iff, Option.not_isSome_iff_eq_none]

private theorem padded_self (word : List Char) : Padded word word :=
  ⟨[], [], by simp, nofun, nofun⟩

/-- Every shift has a numeral. -/
private theorem exists_numeral (shift : Position.Shift) : ∃ word, Numeral word shift.val := by
  have digits : ∀ shift : Fin 64, Nat.toDigits 10 shift.val ≠ [] ∧
      (Nat.toDigits 10 shift.val).all Char.isDigit = true ∧
        Text.number (Nat.toDigits 10 shift.val) = shift.val := by
    decide
  obtain ⟨some_digit, areDigits, value⟩ := digits shift
  exact ⟨_, .inl ⟨some_digit, List.all_eq_true.mp areDigits, value⟩⟩

/-- Every value of a setting can be written. -/
theorem exists_writes (setting : Setting) (value : setting.Value) :
    ∃ text, setting.Writes text value := by
  have spelled {α : Type} {spellings : List (String × α)} {value : α}
      (covers : value ∈ spellings.map Prod.snd) : ∃ word, SpelledBy spellings word value := by
    obtain ⟨⟨spelling, _⟩, member, rfl⟩ := List.mem_map.mp covers
    exact ⟨_, spelling, member, List.forall₂_same.mpr fun _ _ => .inl rfl⟩
  have word : ∃ word, setting.Spells word value := by
    cases setting with
    | trackUsage => exact spelled (by cases value <;> decide)
    | notifyPolicy => exact spelled (by cases value <;> decide)
    | failurePolicy => exact spelled (by cases value <;> decide)
    | hashShift => exact exists_numeral value
  obtain ⟨word, spells⟩ := word
  exact ⟨String.ofList word, word, by rw [String.toList_ofList]; exact padded_self word, spells⟩

end Setting

end LiveTree.Settings
