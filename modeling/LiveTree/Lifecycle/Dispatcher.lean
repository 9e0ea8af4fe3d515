import LiveTree.Lifecycle.Registry

/-! Ordered notifications of one update. The dispatcher records what objects are to be told and
delivers it together: exits in reverse of the recorded order, so that children leave before their
parents, then retentions and entries in the recorded order. Retirements are kept apart and leave
in batches that the host delivers when it likes.

Delivery is a sequence of single attempts, because an observer runs between two of them. A list
is taken out of the dispatcher when its delivery begins, so a delivery that is cut short loses the
rest of that list and nothing else. -/
namespace LiveTree.Lifecycle

/-- Notifications that wait for delivery, each list in the recorded order. -/
structure Dispatcher where
  retaining : List ObjectId := []
  entering : List ObjectId := []
  exiting : List ObjectId := []
  retiring : List ObjectId := []
deriving DecidableEq, Repr, Inhabited

/-- The lists that a delivery goes through. -/
inductive Phase where
  | exits | retentions | entries
deriving DecidableEq, Repr

namespace Phase

/-- The state to which a list moves its objects. -/
def target : Phase → State
  | exits => .exited
  | retentions => .retained
  | entries => .entered

/-- The list that is delivered after another. -/
def next? : Phase → Option Phase
  | exits => some retentions
  | retentions => some entries
  | entries => none

end Phase

/-- What a delivery amounted to: how many of each kind were told, and the moves that were illegal,
in the order of the attempts. -/
structure Report where
  exited : Nat := 0
  retained : Nat := 0
  entered : Nat := 0
  errors : List IllegalMove := []
deriving DecidableEq, Repr

namespace Report

/-- The report after one more object was told. -/
def count (report : Report) : Phase → Report
  | .exits => { report with exited := report.exited + 1 }
  | .retentions => { report with retained := report.retained + 1 }
  | .entries => { report with entered := report.entered + 1 }

/-- The report after one more illegal move. -/
def refuse (report : Report) (illegal : IllegalMove) : Report :=
  { report with errors := report.errors ++ [illegal] }

/-- The full text of a report. -/
def describe (report : Report) : String :=
  Text.record "LifecycleReport"
    [("exited", toString report.exited), ("retained", toString report.retained),
      ("entered", toString report.entered),
      ("errors", Text.listed (report.errors.map IllegalMove.describe))]

end Report

namespace Dispatcher

/-- What is recorded for an event, in the recorded order. -/
def recorded (dispatcher : Dispatcher) : Event → List ObjectId
  | .retained => dispatcher.retaining
  | .entered => dispatcher.entering
  | .exited => dispatcher.exiting
  | .retired => dispatcher.retiring

/-- Records that several objects are to be told of an event, behind those recorded before. -/
def record (dispatcher : Dispatcher) (event : Event) (objects : List ObjectId) : Dispatcher :=
  match event with
  | .retained => { dispatcher with retaining := dispatcher.retaining ++ objects }
  | .entered => { dispatcher with entering := dispatcher.entering ++ objects }
  | .exited => { dispatcher with exiting := dispatcher.exiting ++ objects }
  | .retired => { dispatcher with retiring := dispatcher.retiring ++ objects }

@[simp]
theorem recorded_record_self (dispatcher : Dispatcher) (event : Event) (objects : List ObjectId) :
    (dispatcher.record event objects).recorded event = dispatcher.recorded event ++ objects := by
  cases event <;> rfl

theorem recorded_record_of_ne (dispatcher : Dispatcher) {event other : Event}
    (objects : List ObjectId) (different : other ≠ event) :
    (dispatcher.record event objects).recorded other = dispatcher.recorded other := by
  cases event <;> cases other <;> simp_all [record, recorded]

/-- Whether a delivery would attempt anything. -/
def hasPending (dispatcher : Dispatcher) : Bool :=
  !(dispatcher.retaining.isEmpty && dispatcher.entering.isEmpty && dispatcher.exiting.isEmpty)

def pendingRetirements (dispatcher : Dispatcher) : Nat := dispatcher.retiring.length

/-- Takes one list out, in the order of its delivery. -/
def take (dispatcher : Dispatcher) : Phase → List ObjectId × Dispatcher
  | .exits => (dispatcher.exiting.reverse, { dispatcher with exiting := [] })
  | .retentions => (dispatcher.retaining, { dispatcher with retaining := [] })
  | .entries => (dispatcher.entering, { dispatcher with entering := [] })

/-- Takes the recorded retirements out. -/
def takeRetirements (dispatcher : Dispatcher) : List ObjectId × Dispatcher :=
  (dispatcher.retiring, { dispatcher with retiring := [] })

/-- The full text of a dispatcher whose objects live in a registry. -/
def describe {ω : Type} (dispatcher : Dispatcher) (registry : Registry ω) : String :=
  Text.record "LifecycleDispatcher"
    [("retaining", registry.describeAll dispatcher.retaining),
      ("entering", registry.describeAll dispatcher.entering),
      ("exiting", registry.describeAll dispatcher.exiting),
      ("retiring", registry.describeAll dispatcher.retiring)]

end Dispatcher

/-- A delivery between two attempts: the lists not begun are still in the dispatcher, `rest` is
what is left of the list being delivered. -/
structure Drain where
  dispatcher : Dispatcher
  phase : Phase
  rest : List ObjectId
  report : Report := {}
deriving DecidableEq, Repr

/-- A delivery that has made no attempt yet. -/
def Dispatcher.drain (dispatcher : Dispatcher) : Drain :=
  { dispatcher := (dispatcher.take .exits).2, phase := .exits, rest := (dispatcher.take .exits).1 }

/-- How a delivery goes on. -/
inductive DrainStep where
  | attempt (object : ObjectId) (target : State) (drain : Drain)
  | nextList (drain : Drain)
  | finished

namespace Drain

/-- The next step of a delivery: the next object of the list, else the next list. -/
def step (drain : Drain) : DrainStep :=
  match drain.rest with
  | object :: rest => .attempt object drain.phase.target { drain with rest }
  | [] =>
    match drain.phase.next? with
    | some phase =>
      .nextList { drain with
        dispatcher := (drain.dispatcher.take phase).2
        phase
        rest := (drain.dispatcher.take phase).1 }
    | none => .finished

/-- Notes that the last attempt told its object. -/
def delivered (drain : Drain) : Drain := { drain with report := drain.report.count drain.phase }

/-- Notes that the last attempt was illegal. -/
def refused (drain : Drain) (illegal : IllegalMove) : Drain :=
  { drain with report := drain.report.refuse illegal }

end Drain

/-- Retirements on their way to their objects, in the order of delivery. -/
structure RetireBatch where
  objects : List ObjectId := []
deriving DecidableEq, Repr

namespace RetireBatch

def size (batch : RetireBatch) : Nat := batch.objects.length

def isEmpty (batch : RetireBatch) : Bool := batch.objects.isEmpty

/-- One batch with the objects of another after its own. -/
def extend (batch other : RetireBatch) : RetireBatch := ⟨batch.objects ++ other.objects⟩

/-- The full text of a batch whose objects live in a registry. -/
def describe {ω : Type} (batch : RetireBatch) (registry : Registry ω) : String :=
  Text.record "RetireBatch" [("objects", registry.describeAll batch.objects)]

end RetireBatch

/-- A delivery of retirements between two attempts. -/
structure Retirement where
  rest : List ObjectId
  retired : Nat := 0
deriving DecidableEq, Repr

/-- A delivery of a batch that has made no attempt yet. -/
def RetireBatch.deliver (batch : RetireBatch) : Retirement := { rest := batch.objects }

namespace Retirement

/-- The next object to retire, and the delivery after it. -/
def next? (delivery : Retirement) : Option (ObjectId × Retirement) :=
  match delivery.rest with
  | [] => none
  | object :: rest => some (object, { delivery with rest })

/-- Notes that the last attempt retired its object. -/
def delivered (delivery : Retirement) : Retirement :=
  { delivery with retired := delivery.retired + 1 }

end Retirement

end LiveTree.Lifecycle
