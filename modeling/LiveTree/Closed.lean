import LiveTree.Text.Layout
import LiveTree.Text.Quoted

/-! The reason for which a queue takes no more registrations. -/
namespace LiveTree

/-- A queue was closed for this reason. -/
structure Closed where
  reason : String
deriving DecidableEq, Repr

namespace Closed

/-- The message of a refused registration. -/
def message (closed : Closed) : String := "scheduler closed: " ++ closed.reason

/-- The full text of a close reason. -/
def describe (closed : Closed) : String :=
  Text.record "SchedulerClosed" [("reason", Text.quoted closed.reason)]

end Closed

end LiveTree
