/-! The life of a retained object. An object is retained once, then enters and exits the live tree
any number of times, and is retired once; an object that never entered may be retired directly.
Nothing follows retirement, so it is the only safe moment to release what the object owns. -/
namespace LiveTree.Lifecycle

/-- Where an object stands in its life. -/
inductive State where
  | unretained | retained | entered | exited | retired
deriving DecidableEq, Repr, Inhabited

/-- What an object is told. -/
inductive Event where
  | retained | entered | exited | retired
deriving DecidableEq, Repr

namespace State

/-- Whether an object may move from one state to another. -/
def canBecome : State → State → Bool
  | unretained, retained => true
  | retained, entered => true
  | retained, retired => true
  | entered, exited => true
  | exited, entered => true
  | exited, retired => true
  | _, _ => false

def isTerminal (state : State) : Bool := state == retired

def isActive (state : State) : Bool := state == entered

/-- What an object is told when it moves to a state. -/
def event? : State → Option Event
  | unretained => none
  | retained => some .retained
  | entered => some .entered
  | exited => some .exited
  | retired => some .retired

/-- The name of a state. -/
def text : State → String
  | unretained => "unretained"
  | retained => "retained"
  | entered => "entered"
  | exited => "exited"
  | retired => "retired"

/-- The full text of a state. -/
def describe : State → String
  | unretained => "Unretained"
  | retained => "Retained"
  | entered => "Entered"
  | exited => "Exited"
  | retired => "Retired"

/-- A state that may be reached by a move is told to the object. -/
theorem isSome_event?_of_canBecome {state next : State} (legal : state.canBecome next = true) :
    next.event?.isSome = true := by
  cases state <;> cases next <;> simp_all [canBecome, event?]

/-- Nothing follows retirement. -/
@[simp]
theorem canBecome_retired (next : State) : retired.canBecome next = false := by
  cases next <;> rfl

end State

end LiveTree.Lifecycle
