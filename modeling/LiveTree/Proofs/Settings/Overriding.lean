import LiveTree.Proofs.Settings.Spelling

/-! The overrides of all settings together. They are read one after another into the same result,
but none sees more than its own variable: its value and its refusal are those of its own text,
whatever the other variables hold. A shift is taken exactly from a numeral for a number that is
less than a full turn, and all settings can be written and read back. -/
namespace LiveTree.Settings

open Text (Padded Numeral)

variable {lookup : String → Option String} {setting : Setting} {text : String} {config : Config}

namespace Setting

/-- The value that the variable of a setting writes. -/
def chosen? (lookup : String → Option String) (setting : Setting) : Option setting.Value :=
  (lookup setting.variableName).bind setting.read?

/-- The refusal of what the variable of a setting holds, unless it writes a value. -/
def refusal? (lookup : String → Option String) (setting : Setting) : Option Refusal :=
  (lookup setting.variableName).bind fun text =>
    if setting.Accepts text then none else some ⟨setting.label, text, setting.expectation⟩

/-- The variables write all values of some settings. -/
def WrittenBy (config : Config) (lookup : String → Option String) : Prop :=
  ∀ setting : Setting, ∃ text,
    lookup setting.variableName = some text ∧ setting.Writes text (setting.value config)

private theorem chosen?_eq_some (held : lookup setting.variableName = some text)
    {value : setting.Value} (writes : setting.Writes text value) :
    setting.chosen? lookup = some value := by
  rw [chosen?, held]
  exact read?_eq_some_iff_writes.mpr writes

private theorem chosen?_eq_none
    (refused : ∀ text, lookup setting.variableName = some text → ¬ setting.Accepts text) :
    setting.chosen? lookup = none :=
  Option.bind_eq_none_iff.mpr fun text held => read?_eq_none_iff.mpr (refused text held)

private theorem refusal?_eq_none (held : lookup setting.variableName = some text)
    (accepts : setting.Accepts text) : setting.refusal? lookup = none := by
  simp [refusal?, held, accepts]

private theorem refusal?_eq_some (held : lookup setting.variableName = some text)
    (refused : ¬ setting.Accepts text) :
    setting.refusal? lookup = some ⟨setting.label, text, setting.expectation⟩ := by
  simp [refusal?, held, refused]

/-- A refusal names the setting that it is about. -/
private theorem field_of_refusal? {refusal : Refusal}
    (refused : setting.refusal? lookup = some refusal) : refusal.field = setting.label := by
  obtain ⟨text, -, outcome⟩ := Option.bind_eq_some_iff.mp refused
  split at outcome
  · cases outcome
  · cases outcome
    rfl

end Setting

namespace Reading

/-- The refusals that are about a setting. -/
def refusalsOf (reading : Reading) (setting : Setting) : List Refusal :=
  reading.refusals.filter fun refusal => refusal.field = setting.label

/-- To consult a variable is to take up the value that it writes, and to note its refusal. -/
private theorem consult_eq (lookup : String → Option String) (reading : Reading)
    (setting : Setting) :
    reading.consult lookup setting =
      { config := ((setting.chosen? lookup).map (setting.set reading.config)).getD reading.config
        refusals := reading.refusals ++ (setting.refusal? lookup).toList } := by
  unfold consult
  cases held : lookup setting.variableName with
  | none => simp [Setting.chosen?, Setting.refusal?, held]
  | some text =>
    simp only [setting.override_eq]
    cases read : setting.read? text with
    | none =>
      have refused := Setting.refusal?_eq_some held (Setting.read?_eq_none_iff.mp read)
      simp [Setting.chosen?, held, read, refused]
    | some value =>
      have writes := Setting.read?_eq_some_iff_writes.mp read
      have accepted := Setting.refusal?_eq_none held ⟨value, writes⟩
      simp [Setting.chosen?, held, read, accepted]

private theorem value_consult_self (lookup : String → Option String) (reading : Reading)
    (setting : Setting) : setting.value (reading.consult lookup setting).config =
      (setting.chosen? lookup).getD (setting.value reading.config) := by
  rw [consult_eq]
  cases setting.chosen? lookup <;> simp

private theorem value_consult_of_ne (lookup : String → Option String) (reading : Reading)
    {other : Setting} (different : setting ≠ other) :
    setting.value (reading.consult lookup other).config = setting.value reading.config := by
  rw [consult_eq]
  cases other.chosen? lookup with
  | none => rfl
  | some value => exact Setting.value_set_of_ne different reading.config value

/-- A setting has the value that its own variable writes once it is among those consulted. -/
private theorem value_foldl_consult (lookup : String → Option String) (settings : List Setting)
    (reading : Reading) (setting : Setting) :
    setting.value (settings.foldl (consult lookup) reading).config =
      if setting ∈ settings then (setting.chosen? lookup).getD (setting.value reading.config)
      else setting.value reading.config := by
  induction settings generalizing reading with
  | nil => rfl
  | cons other settings ih =>
    rw [List.foldl_cons, ih]
    by_cases same : setting = other
    · subst same
      rw [value_consult_self, if_pos List.mem_cons_self]
      cases setting.chosen? lookup <;> simp
    · simp [value_consult_of_ne lookup reading same, same]

/-- The variables consulted are refused in their order. -/
private theorem refusals_foldl_consult (lookup : String → Option String) (settings : List Setting)
    (reading : Reading) : (settings.foldl (consult lookup) reading).refusals =
      reading.refusals ++ settings.filterMap (Setting.refusal? lookup) := by
  induction settings generalizing reading with
  | nil => simp
  | cons other settings ih =>
    rw [List.foldl_cons, ih, consult_eq, List.append_assoc]
    cases refused : other.refusal? lookup <;> simp [refused]

end Reading

/-- The value of a setting is the one that its own variable writes, or else its default. -/
private theorem value_read (lookup : String → Option String) (setting : Setting) :
    setting.value (read lookup).config = (setting.chosen? lookup).getD (setting.value {}) := by
  rw [read, Reading.value_foldl_consult, if_pos setting.mem_all]

private theorem refusals_read (lookup : String → Option String) :
    (read lookup).refusals = Setting.all.filterMap (Setting.refusal? lookup) := by
  simp [read, Reading.refusals_foldl_consult]

/-- The only refusal that is about a setting is that of its own variable. -/
private theorem refusalsOf_read (lookup : String → Option String) (setting : Setting) :
    (read lookup).refusalsOf setting = (setting.refusal? lookup).toList := by
  have alone : Setting.all.filter (· = setting) = [setting] := by
    cases setting <;> decide
  have ours : (Setting.all.filterMap (Setting.refusal? lookup)).filter
      (fun refusal => refusal.field = setting.label) =
        (Setting.all.filter (· = setting)).filterMap (Setting.refusal? lookup) := by
    rw [List.filter_filterMap, List.filterMap_filter]
    refine List.filterMap_congr fun other _ => ?_
    cases refused : other.refusal? lookup with
    | none => simp
    | some refusal => simp [Option.filter, Setting.field_of_refusal? refused, Setting.label_inj]
  rw [Reading.refusalsOf, refusals_read, ours, alone]
  cases refused : setting.refusal? lookup <;> simp [refused]

/-! ### The shift -/

/-- A text is a numeral for a number, perhaps between blanks. -/
def WritesNumber (text : String) (number : Nat) : Prop :=
  ∃ word, Padded text.toList word ∧ Numeral word number

/-- A reading keeps the default shift and refuses a text once. -/
def RefusesShift (text : String) (reading : Reading) : Prop :=
  reading.config.hashShift = .defaultLevel ∧
    reading.refusalsOf .hashShift = [⟨"hash_shift", text, "expected integer in 0..64"⟩]

/-- How a reading takes a text for the shift: a number that is less than a full turn becomes the
shift, and nothing else does, whatever its length. -/
structure TakesShift (text : String) (reading : Reading) : Prop where
  accepted : reading.refusalsOf .hashShift = [] ↔
    ∃ number < Position.hashBits, WritesNumber text number
  taken : ∀ number < Position.hashBits, WritesNumber text number →
    reading.config.hashShift.val = number
  refused : (¬ ∃ number < Position.hashBits, WritesNumber text number) → RefusesShift text reading
  never_wraps : ∀ number, Position.hashBits ≤ number → WritesNumber text number →
    RefusesShift text reading

private theorem WritesNumber.unique {number other : Nat} (writes : WritesNumber text number)
    (also : WritesNumber text other) : number = other := by
  obtain ⟨word, padded, numeral⟩ := writes
  obtain ⟨word', padded', numeral'⟩ := also
  have same : word = word' :=
    ((Text.trimBlanks_eq_iff numeral.solid).mpr padded).symm.trans
      ((Text.trimBlanks_eq_iff numeral'.solid).mpr padded')
  subst same
  exact numeral.unique numeral'

/-- The accepted shifts are the written numbers that are less than a full turn. -/
private theorem accepts_hashShift_iff :
    Setting.hashShift.Accepts text ↔ ∃ number < Position.hashBits, WritesNumber text number := by
  constructor
  · rintro ⟨shift, writes⟩
    exact ⟨Fin.val shift, Fin.isLt shift, writes⟩
  · rintro ⟨number, small, writes⟩
    exact ⟨(⟨number, small⟩ : Position.Shift), writes⟩

/-- A text that writes no number below a full turn is refused, and the default stays. -/
private theorem refusesShift_of_lookup (held : lookup Setting.hashShift.variableName = some text)
    (unwritten : ¬ ∃ number < Position.hashBits, WritesNumber text number) :
    RefusesShift text (read lookup) := by
  have refused := accepts_hashShift_iff.not.mpr unwritten
  have nothing : Setting.hashShift.chosen? lookup = none := by
    refine Setting.chosen?_eq_none fun other also => ?_
    cases held.symm.trans also
    exact refused
  have kept := value_read lookup .hashShift
  rw [nothing] at kept
  refine ⟨kept, ?_⟩
  rw [refusalsOf_read, Setting.refusal?_eq_some held refused]
  rfl

/-- A text for the shift is taken by its grammar alone, whatever the other variables hold. -/
theorem takesShift_of_lookup (held : lookup Setting.hashShift.variableName = some text) :
    TakesShift text (read lookup) := by
  constructor
  case accepted =>
    rw [refusalsOf_read, ← accepts_hashShift_iff]
    by_cases accepts : Setting.hashShift.Accepts text
    · simp [Setting.refusal?_eq_none held accepts, accepts]
    · simp [Setting.refusal?_eq_some held accepts, accepts]
  case taken =>
    intro number small writes
    have chosen : Setting.hashShift.chosen? lookup = some (⟨number, small⟩ : Position.Shift) :=
      Setting.chosen?_eq_some held writes
    have taken := value_read lookup .hashShift
    rw [chosen] at taken
    exact congrArg Fin.val taken
  case refused => exact refusesShift_of_lookup held
  case never_wraps =>
    intro number large writes
    apply refusesShift_of_lookup held
    rintro ⟨other, small, also⟩
    rw [writes.unique also] at large
    omega

/-- A number behind the end of a machine word does not come round to a small shift. -/
theorem takesShift_behind_word :
    WritesNumber " +04294967301" (2 ^ 32 + 5) ∧
      RefusesShift " +04294967301" (read fun _ => some " +04294967301") := by
  have writes : WritesNumber " +04294967301" (2 ^ 32 + 5) := by
    have padded : Padded " +04294967301".toList "+04294967301".toList :=
      ⟨[' '], [], by decide, List.forall_mem_singleton.mpr (by decide), nofun⟩
    have denotes : Text.Denotes "04294967301".toList (2 ^ 32 + 5) :=
      ⟨by decide, List.all_eq_true.mp (by decide), by decide⟩
    exact ⟨_, padded, .inr ⟨_, rfl, denotes⟩⟩
  have taken : TakesShift " +04294967301" (read fun _ => some " +04294967301") :=
    takesShift_of_lookup rfl
  have large : Position.hashBits ≤ 2 ^ 32 + 5 := by decide
  exact ⟨writes, taken.never_wraps _ large writes⟩

/-! ### All settings -/

/-- What is read of each setting is up to its own variable. -/
structure ReadApart (lookup : String → Option String) : Prop where
  own : ∀ (other : String → Option String) (setting : Setting),
    other setting.variableName = lookup setting.variableName →
      setting.value (read other).config = setting.value (read lookup).config ∧
        (read other).refusalsOf setting = (read lookup).refusalsOf setting
  taken : ∀ (setting : Setting) (text : String) (value : setting.Value),
    lookup setting.variableName = some text → setting.Writes text value →
      setting.value (read lookup).config = value
  default : ∀ setting : Setting,
    (∀ text, lookup setting.variableName = some text → ¬ setting.Accepts text) →
      setting.value (read lookup).config = setting.value {}
  refusals : (read lookup).refusals = Setting.all.filterMap (Setting.refusal? lookup)
  roundTrip : ∀ config, Setting.WrittenBy config lookup → read lookup = ⟨config, []⟩

/-- Variables that write all values of some settings are read as these settings. -/
private theorem read_eq_of_writtenBy (written : Setting.WrittenBy config lookup) :
    read lookup = ⟨config, []⟩ := by
  have values : (read lookup).config = config := by
    refine Setting.eq_of_value_eq fun setting => ?_
    obtain ⟨text, held, writes⟩ := written setting
    rw [value_read, Setting.chosen?_eq_some held writes, Option.getD_some]
  have accepted : (read lookup).refusals = [] := by
    rw [refusals_read, List.filterMap_eq_nil_iff]
    intro setting _
    obtain ⟨text, held, writes⟩ := written setting
    exact Setting.refusal?_eq_none held ⟨_, writes⟩
  rw [← values, ← accepted]

private theorem readApart (lookup : String → Option String) : ReadApart lookup where
  own other setting same := by
    have chosen : setting.chosen? other = setting.chosen? lookup := by
      rw [Setting.chosen?, same, Setting.chosen?]
    have refused : setting.refusal? other = setting.refusal? lookup := by
      rw [Setting.refusal?, same, Setting.refusal?]
    rw [value_read, value_read, refusalsOf_read, refusalsOf_read, chosen, refused]
    exact ⟨rfl, rfl⟩
  taken setting text value held writes := by
    rw [value_read, Setting.chosen?_eq_some held writes, Option.getD_some]
  default setting refused := by
    rw [value_read, Setting.chosen?_eq_none refused, Option.getD_none]
  refusals := refusals_read lookup
  roundTrip _ written := read_eq_of_writtenBy written

/-- All settings can be written, whatever their values are. -/
private theorem exists_writtenBy (config : Config) : ∃ lookup, Setting.WrittenBy config lookup := by
  choose text writes using fun setting : Setting => setting.exists_writes (setting.value config)
  refine ⟨fun name => (Setting.all.find? (·.variableName = name)).map text, fun setting => ?_⟩
  have found : Setting.all.find? (·.variableName = setting.variableName) = some setting := by
    cases setting <;> decide
  exact ⟨text setting, congrArg (Option.map text) found, writes setting⟩

/-- The overrides are read apart from each other, and all settings can be written and are then
read back. -/
theorem overrides_apart_and_complete :
    (∀ lookup, ReadApart lookup) ∧
      ∀ config, ∃ lookup, Setting.WrittenBy config lookup ∧ read lookup = ⟨config, []⟩ := by
  refine ⟨readApart, fun config => ?_⟩
  obtain ⟨lookup, written⟩ := exists_writtenBy config
  exact ⟨lookup, written, read_eq_of_writtenBy written⟩

end LiveTree.Settings
