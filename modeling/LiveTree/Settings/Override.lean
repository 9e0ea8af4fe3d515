import LiveTree.Settings.Config
import LiveTree.Text.Digits

/-! Overrides of settings by named variables. Each setting has a variable of its own. A value that
spells nothing leaves the setting at its default and is reported verbatim. -/
namespace LiveTree.Settings

/-- The settings that a variable can override. -/
inductive Setting where
  | trackUsage | notifyPolicy | failurePolicy | hashShift
deriving DecidableEq, Repr

namespace Setting

/-- The settings in the order in which their variables are consulted. -/
def all : List Setting := [trackUsage, notifyPolicy, failurePolicy, hashShift]

/-- The variable that overrides a setting. -/
def variableName : Setting → String
  | trackUsage => "RECOMPOSE_TRACK_USAGE"
  | notifyPolicy => "RECOMPOSE_NOTIFY_POLICY"
  | failurePolicy => "RECOMPOSE_DISPATCH_FAILURES"
  | hashShift => "RECOMPOSE_HASH_SHIFT"

/-- The name of a setting in reports. -/
def label : Setting → String
  | trackUsage => "track_usage"
  | notifyPolicy => "notify_policy"
  | failurePolicy => "failure_policy"
  | hashShift => "hash_shift"

/-- What a report says was expected of a setting. -/
def expectation : Setting → String
  | trackUsage => "expected bool (1/0/true/false)"
  | notifyPolicy => "expected idle|always"
  | failurePolicy => "expected log|silent"
  | hashShift => "expected integer in 0..64"

end Setting

/-- The shift that a text spells: an optional plus sign and decimal digits for a number that fits
32 bits, and then is less than a full turn. -/
def readShift (text : String) : Option Position.Shift :=
  match Text.readBelow UInt32.size (Text.trimBlanks text.toList) with
  | none => none
  | some bits => (Position.Shift.ofBits bits).toOption

/-- The settings with one of them replaced by what a text spells for it. -/
def Setting.override (setting : Setting) (config : Config) (text : String) : Option Config :=
  match setting with
  | trackUsage => (readTruth text).map fun value =>
      { config with relocation := { config.relocation with trackUsage := value } }
  | notifyPolicy => (NotifyPolicy.read text).map fun value =>
      { config with frame := { config.frame with notifyPolicy := value } }
  | failurePolicy => (FailurePolicy.read text).map fun value =>
      { config with frame := { config.frame with failurePolicy := value } }
  | hashShift => (readShift text).map fun value => { config with hashShift := value }

/-- A value that spelled nothing for the setting it was meant for. -/
structure Refusal where
  field : String
  value : String
  expected : String
deriving DecidableEq, Repr

namespace Refusal

/-- The message of a refused value. -/
def message (refusal : Refusal) : String :=
  refusal.field ++ "=" ++ refusal.value ++ " (" ++ refusal.expected ++ ")"

/-- The full text of a refused value. -/
def describe (refusal : Refusal) : String :=
  Text.record "ConfigError"
    [("field", Text.quoted refusal.field), ("value", Text.quoted refusal.value),
      ("message", Text.quoted refusal.expected)]

end Refusal

/-- The settings read so far and the values refused so far, the earliest first. -/
structure Reading where
  config : Config := {}
  refusals : List Refusal := []
deriving DecidableEq, Repr

/-- Reads the override of one setting, if its variable is set. -/
def Reading.consult (lookup : String → Option String) (reading : Reading) (setting : Setting) :
    Reading :=
  match lookup setting.variableName with
  | none => reading
  | some text =>
    match setting.override reading.config text with
    | some config => { reading with config }
    | none =>
      { reading with
        refusals := reading.refusals ++ [⟨setting.label, text, setting.expectation⟩] }

/-- The settings that the variables ask for. -/
def read (lookup : String → Option String) : Reading :=
  Setting.all.foldl (Reading.consult lookup) {}

/-- The settings that an environment of bytes asks for. A value that is no valid UTF-8 counts as
unset. -/
def readEnvironment (lookup : String → Option ByteArray) : Reading :=
  read fun name => (lookup name).bind String.fromUTF8?

end LiveTree.Settings
