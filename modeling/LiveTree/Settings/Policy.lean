import LiveTree.Text.Blank
import LiveTree.Text.Layout

/-! Policies that a host can choose by name. A name may stand in any ASCII letter case and between
blanks. -/
namespace LiveTree.Settings

/-- A written value without surrounding blanks and in lower case; only ASCII letters have a lower
case here. -/
def normalize (text : String) : String :=
  String.ofList ((Text.trimBlanks text.toList).map Char.toLower)

/-- The value that a text spells, given the accepted spellings. -/
def readSpelled {α : Type} (spellings : List (String × α)) (text : String) : Option α :=
  spellings.lookup (normalize text)

/-- The accepted spellings of a truth value. -/
def truthSpellings : List (String × Bool) :=
  [("1", true), ("true", true), ("yes", true), ("on", true),
    ("0", false), ("false", false), ("no", false), ("off", false)]

/-- When a host is told of new work: when work arrives while nothing is pending and no frame is in
progress, or at every registration. -/
inductive NotifyPolicy where
  | idleTransition | always
deriving DecidableEq, Repr, Inhabited

/-- What happens to a panic of an action besides being reported: it is logged, or nothing. -/
inductive FailurePolicy where
  | logAndContinue | silent
deriving DecidableEq, Repr, Inhabited

/-- The accepted spellings of a notify policy. -/
def NotifyPolicy.spellings : List (String × NotifyPolicy) :=
  [("idle", .idleTransition), ("idle-transition", .idleTransition), ("always", .always)]

/-- The accepted spellings of a failure policy. -/
def FailurePolicy.spellings : List (String × FailurePolicy) :=
  [("log", .logAndContinue), ("log-and-continue", .logAndContinue), ("silent", .silent)]

def readTruth (text : String) : Option Bool := readSpelled truthSpellings text

def NotifyPolicy.read (text : String) : Option NotifyPolicy := readSpelled spellings text

def FailurePolicy.read (text : String) : Option FailurePolicy := readSpelled spellings text

/-- The full text of a notify policy. -/
def NotifyPolicy.describe : NotifyPolicy → String
  | idleTransition => "IdleTransition"
  | always => "Always"

/-- The full text of a failure policy. -/
def FailurePolicy.describe : FailurePolicy → String
  | logAndContinue => "LogAndContinue"
  | silent => "Silent"

end LiveTree.Settings
