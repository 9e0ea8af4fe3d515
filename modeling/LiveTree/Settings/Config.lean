import LiveTree.Position.Shift
import LiveTree.Settings.Policy

/-! The settings of a host: how frames notify and report, whether the pool tracks which content
has ever moved, and by how much hashes turn per level. -/
namespace LiveTree.Settings

/-- The settings of frame-end scheduling. -/
structure FrameConfig where
  notifyPolicy : NotifyPolicy := .idleTransition
  failurePolicy : FailurePolicy := .logAndContinue
deriving DecidableEq, Repr, Inhabited

/-- The settings of relocation. -/
structure RelocationConfig where
  trackUsage : Bool := true
deriving DecidableEq, Repr, Inhabited

/-- All settings of a host. -/
structure Config where
  frame : FrameConfig := {}
  relocation : RelocationConfig := {}
  hashShift : Position.Shift := .defaultLevel
deriving DecidableEq, Repr

/-- The full text of the frame settings. -/
def FrameConfig.describe (config : FrameConfig) : String :=
  Text.record "FrameConfig"
    [("notify_policy", config.notifyPolicy.describe),
      ("failure_policy", config.failurePolicy.describe)]

/-- The full text of the relocation settings. -/
def RelocationConfig.describe (config : RelocationConfig) : String :=
  Text.record "RelocationConfig" [("track_usage", Text.truth config.trackUsage)]

/-- The full text of all settings. -/
def Config.describe (config : Config) : String :=
  Text.record "RuntimeConfig"
    [("frame", config.frame.describe), ("relocation", config.relocation.describe),
      ("hash_shift", config.hashShift.describe)]

end LiveTree.Settings
