import LiveTree.Frame.Scheduler
import LiveTree.Relocation.Pass

/-! Diagnostics. What the parts of a host do is reported as events and spans with a severity; a
host that listens at some severity hears these and everything more severe. Diagnostics are only
ever produced, never read. -/
namespace LiveTree

/-- How severe a diagnostic is, the most severe first. -/
inductive Severity where
  | warn | info | debug | trace
deriving DecidableEq, Repr

/-- The place of a severity in the order, the most severe first. -/
def Severity.rank : Severity → Nat
  | warn => 0
  | info => 1
  | debug => 2
  | trace => 3

/-- Whether a listener at some severity hears a diagnostic of another. -/
def Severity.admits (listener : Severity) (other : Severity) : Bool := other.rank ≤ listener.rank

/-- A stretch of work that diagnostics can fall into. -/
inductive Span where
  | frame (number : Nat)
  | pass (number : Nat)
deriving DecidableEq, Repr

namespace Span

/-- All spans are of the same severity. -/
def severity : Severity := .debug

/-- The name of a span. -/
def name : Span → String
  | frame _ => "mark_frame_complete"
  | pass _ => "end_pass"

/-- The named values of a span. -/
def fields : Span → List (String × String)
  | frame number => [("frame", toString number)]
  | pass number => [("pass", toString number)]

end Span

/-- Something worth reporting that has happened. -/
inductive Diagnostic where
  | notificationSkipped (illegal : Lifecycle.IllegalMove)
  | notificationsDispatched (report : Lifecycle.Report)
  | retirementSkipped (illegal : Lifecycle.IllegalMove)
  | actionPanicked (frame : Nat) (failure : Frame.Failure)
  | refusedActionPanicked (failure : Frame.Failure)
  | frameCompleted (report : Frame.Report)
  | schedulerClosed (refused : Nat)
  | frameSent (time : Nat) (resumed : Nat)
  | clockClosed (refused : Nat)
  | instantiated (descriptor : DescriptorId) (position : Position.Hash) (objects : Nat)
  | departed (descriptor : DescriptorId) (position : Position.Hash)
  | claimed (descriptor : DescriptorId) (source : Position.Hash)
  | insertedAtOnce (descriptor : DescriptorId) (position : Position.Hash)
  | deferred (descriptor : DescriptorId) (position : Position.Hash) (ticket : Nat)
  | disposed (descriptor : DescriptorId) (position : Position.Hash)
  | passResolved (pass moved inserted fresh disposed pendingRetirements : Nat)
deriving DecidableEq, Repr

namespace Diagnostic

/-- The severity of a diagnostic. -/
def severity : Diagnostic → Severity
  | notificationSkipped _ | retirementSkipped _ | actionPanicked .. | refusedActionPanicked _ =>
    .warn
  | schedulerClosed _ | clockClosed _ => .info
  | frameCompleted _ | passResolved .. => .debug
  | notificationsDispatched _ | frameSent .. | instantiated .. | departed .. | claimed ..
  | insertedAtOnce .. | deferred .. | disposed .. => .trace

/-- The message of a diagnostic. -/
def message : Diagnostic → String
  | notificationSkipped _ => "skipped lifecycle notification"
  | notificationsDispatched _ => "lifecycle dispatch"
  | retirementSkipped _ => "skipped retirement"
  | actionPanicked .. => "end-of-frame action panicked"
  | refusedActionPanicked _ => "end-of-frame action panicked on cancel"
  | frameCompleted _ => "frame complete"
  | schedulerClosed _ => "frame-end scheduler closed"
  | frameSent .. => "frame sent"
  | clockClosed _ => "frame clock cancelled"
  | instantiated .. => "instantiate"
  | departed .. => "departure"
  | claimed .. => "claim"
  | insertedAtOnce .. => "insert immediately"
  | deferred .. => "placement deferred"
  | disposed .. => "dispose"
  | passResolved .. => "pass resolved"

/-- The named values of a diagnostic. -/
def fields : Diagnostic → List (String × String)
  | notificationSkipped illegal =>
    [("object", toString illegal.object), ("from", illegal.source.text),
      ("to", illegal.target.text)]
  | notificationsDispatched report =>
    [("exited", toString report.exited), ("retained", toString report.retained),
      ("entered", toString report.entered)]
  | retirementSkipped illegal =>
    [("object", toString illegal.object), ("from", illegal.source.text)]
  | actionPanicked frame failure =>
    [("frame", toString frame), ("sequence", toString failure.sequence),
      ("message", failure.message)]
  | refusedActionPanicked failure =>
    [("sequence", toString failure.sequence), ("message", failure.message)]
  | frameCompleted report =>
    [("frame", toString report.frame), ("dispatched", toString report.dispatched),
      ("failed", toString report.failures.length)]
  | schedulerClosed refused => [("failed", toString refused)]
  | frameSent time resumed =>
    [("frame_time_nanos", toString time), ("resumed", toString resumed)]
  | clockClosed refused => [("failed", toString refused)]
  | instantiated descriptor position objects =>
    [("descriptor", descriptor.text), ("position", position.text),
      ("objects", toString objects)]
  | departed descriptor position =>
    [("descriptor", descriptor.text), ("position", position.text)]
  | claimed descriptor source => [("descriptor", descriptor.text), ("from", source.text)]
  | insertedAtOnce descriptor position =>
    [("descriptor", descriptor.text), ("position", position.text)]
  | deferred descriptor position ticket =>
    [("descriptor", descriptor.text), ("position", position.text), ("ticket", toString ticket)]
  | disposed descriptor position =>
    [("descriptor", descriptor.text), ("position", position.text)]
  | passResolved pass moved inserted fresh gone pendingRetirements =>
    [("pass", toString pass), ("moved", toString moved), ("inserted", toString inserted),
      ("fresh", toString fresh), ("disposed", toString gone),
      ("pending_retirements", toString pendingRetirements)]

end Diagnostic

/-! Diagnostics of the operations of the parts, as they follow from the operation's result. -/

/-- A delivery of notifications reports each illegal move and then its counts. -/
def Lifecycle.Report.diagnostics (report : Lifecycle.Report) : List Diagnostic :=
  report.errors.map .notificationSkipped ++ [.notificationsDispatched report]

/-- A completed frame reports its panics, unless the policy is silence, and then its counts. -/
def Frame.Report.diagnostics (policy : Settings.FailurePolicy) (report : Frame.Report) :
    List Diagnostic :=
  match policy with
  | .logAndContinue =>
    report.failures.map (.actionPanicked report.frame) ++ [.frameCompleted report]
  | .silent => [.frameCompleted report]

namespace Relocation

variable {η π : Type}

/-- New content reports where it is and how many objects it retains. -/
def Entry.instantiation (entry : Entry η π) : Diagnostic :=
  .instantiated entry.descriptor entry.position entry.objects.length

/-- Departing content reports where it was. -/
def Entry.departure (entry : Entry η π) : Diagnostic := .departed entry.descriptor entry.position

/-- Claimed content reports where it was. -/
def Entry.claim (entry : Entry η π) : Diagnostic := .claimed entry.descriptor entry.position

/-- Disposed content reports where it was. -/
def Entry.disposal (entry : Entry η π) : Diagnostic := .disposed entry.descriptor entry.position

/-- A request reports the claim that serves it, or how it will be answered. -/
def Pool.placementDiagnostic (pool : Pool η π) (descriptor : DescriptorId)
    (position : Position.Hash) (answer : Placement η π) : Diagnostic :=
  match answer with
  | .moved entry =>
    match pool.claimFor descriptor with
    | some (claimed, _) => claimed.claim
    | none => entry.claim
  | .insertNow _ => .insertedAtOnce descriptor position
  | .deferred ticket => .deferred descriptor position ticket

/-- A resolved pass reports its number and counts. -/
def PassOutcome.resolution (outcome : PassOutcome η π) (pass pendingRetirements : Nat) :
    Diagnostic :=
  .passResolved pass outcome.moved.length outcome.inserted.length outcome.fresh.length
    outcome.disposed.length pendingRetirements

end Relocation

end LiveTree
