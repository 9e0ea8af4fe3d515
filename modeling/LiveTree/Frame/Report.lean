import LiveTree.Panic
import LiveTree.Text.Layout
import LiveTree.Text.Quoted

/-! Reports of completed frames: how many actions had their turn, and which of them panicked. -/
namespace LiveTree.Frame

/-- An action that panicked, by its place among the actions that had their turn. -/
structure Failure where
  sequence : Nat
  message : String
deriving DecidableEq, Repr

namespace Failure

/-- The failure of an action; a panic without words has a fixed message. -/
def ofPanic (sequence : Nat) : Panic → Failure
  | .message text => ⟨sequence, text⟩
  | .wordless => ⟨sequence, "unknown panic"⟩

/-- The message of a failure. -/
def text (failure : Failure) : String :=
  "end-of-frame action #" ++ toString failure.sequence ++ " panicked: " ++ failure.message

/-- The full text of a failure. -/
def describe (failure : Failure) : String :=
  Text.record "DispatchFailure"
    [("sequence", toString failure.sequence), ("message", Text.quoted failure.message)]

end Failure

/-- What became of the actions of one frame. -/
structure Report where
  frame : Nat := 0
  dispatched : Nat := 0
  failures : List Failure := []
deriving DecidableEq, Repr

namespace Report

def isClean (report : Report) : Bool := report.failures.isEmpty

/-- How many actions returned. A report of more failures than actions has no such number. -/
def succeeded (report : Report) : Option Nat :=
  if report.failures.length ≤ report.dispatched then
    some (report.dispatched - report.failures.length)
  else none

/-- The panic of a report that was asked for a number it does not have. -/
def inconsistent : Panic := .message "attempt to subtract with overflow"

theorem succeeded_eq_some_iff {report : Report} {count : Nat} :
    report.succeeded = some count ↔ count + report.failures.length = report.dispatched := by
  unfold succeeded
  split
  · simp only [Option.some.injEq]
    omega
  · simp only [reduceCtorEq, false_iff]
    omega

end Report

end LiveTree.Frame
