import LiveTree.Awaiting.Queue
import LiveTree.Frame.Report
import LiveTree.Settings.Config

/-! Work for the end of a frame. Actions wait in a queue; when a frame completes, all that wait
are handed over in order, and an action that panics is noted in the report without keeping another
from its turn. While no frame is in progress the host is told of the first action that comes to
wait, so that it can ask for a frame; during a frame it need not be told, because the completion
of that frame hands the action over. A closed scheduler completes frames without counting them. -/
namespace LiveTree.Frame

open Awaiting Settings

/-- What actions are taken out for, with the failures so far: to be told that a frame has
completed, or to be told why none will. -/
inductive Call where
  | completing (frame : Nat) (failures : List Failure)
  | closing (closed : Closed) (failures : List Failure)
deriving DecidableEq, Repr

/-- What an action is told: that its frame has completed, or why none will. -/
inductive Outcome where
  | completed
  | closed (closed : Closed)
deriving DecidableEq, Repr

/-- A frame-end scheduler for actions of type `α`. -/
structure Scheduler (α : Type) where
  queue : Queue α Call := {}
  inFrame : Bool := false
  framesCompleted : Nat := 0
  config : FrameConfig := {}

/-- An accepted action: its number in the queue, whether the host is now to be told of new work,
and the scheduler with the action waiting. -/
structure Scheduled (α : Type) where
  ticket : Ticket
  notifies : Bool
  scheduler : Scheduler α

/-- How a completion starts: with a report at once when the scheduler is closed, else with the
number of the frame whose actions are to be handed over. -/
inductive Completion (α : Type) where
  | idle (report : Report) (scheduler : Scheduler α)
  | started (frame : Nat) (scheduler : Scheduler α)

/-- How the innermost call goes on: with the action whose turn it is, or with its result. -/
inductive SchedulerTurn (α : Type) where
  | handOver (outcome : Outcome) (action : α) (scheduler : Scheduler α)
  | completed (report : Report) (scheduler : Scheduler α)
  | closed (served : Nat) (scheduler : Scheduler α)
  | idle

namespace Call

/-- What the actions of a call are told. -/
def outcome : Call → Outcome
  | completing _ _ => .completed
  | closing closed _ => .closed closed

/-- Whether a call tells its actions that the scheduler closes. -/
def isClosing : Call → Bool
  | completing _ _ => false
  | closing _ _ => true

/-- The call after one more failure. -/
def fail (failure : Failure) : Call → Call
  | completing frame failures => completing frame (failures ++ [failure])
  | closing closed failures => closing closed (failures ++ [failure])

end Call

namespace Scheduler

variable {α : Type}

/-- Whether the host is told of an action, given whether nothing was waiting before it. -/
def notifies (scheduler : Scheduler α) (first : Bool) : Bool :=
  match scheduler.config.notifyPolicy with
  | .idleTransition => first && !scheduler.inFrame
  | .always => true

/-- Accepts an action for the end of the frame, unless the scheduler is closed. -/
def schedule (scheduler : Scheduler α) (action : α) : Except Closed (Scheduled α) :=
  match scheduler.queue.register action with
  | .error closed => .error closed
  | .ok registration =>
    .ok
      { ticket := registration.ticket
        notifies := scheduler.notifies registration.first
        scheduler := { scheduler with queue := registration.queue } }

/-- A frame begins. -/
def startFrame (scheduler : Scheduler α) : Scheduler α := { scheduler with inFrame := true }

/-- A frame ends, and what waits is taken out to be handed over. -/
def completeFrame (scheduler : Scheduler α) : Completion α :=
  if scheduler.queue.isClosed then
    .idle { frame := scheduler.framesCompleted } { scheduler with inFrame := false }
  else
    let frame := scheduler.framesCompleted + 1
    .started frame
      { scheduler with
        queue := scheduler.queue.flush (.completing frame [])
        inFrame := false
        framesCompleted := frame }

/-- Closes the scheduler, and what waits is taken out to be refused. -/
def close (scheduler : Scheduler α) (closed : Closed) : Scheduler α :=
  { scheduler with queue := scheduler.queue.close closed fun reason => .closing reason [] }

/-- Gives the next action of the innermost call its turn. -/
def turn (scheduler : Scheduler α) : SchedulerTurn α :=
  match scheduler.queue.turn with
  | .handOver call action queue => .handOver call.outcome action { scheduler with queue }
  | .finished (.completing frame failures) served queue =>
    .completed { frame, dispatched := served, failures } { scheduler with queue }
  | .finished (.closing _ _) served queue => .closed served { scheduler with queue }
  | .idle => .idle

/-- The failure of an action of a batch that panicked in the last turn. -/
def failure (panic : Panic) (batch : Batch Call) : Failure := .ofPanic (batch.served - 1) panic

/-- Notes that the action that had the last turn of the innermost call panicked. -/
def noteFailure (scheduler : Scheduler α) (panic : Panic) : Scheduler α :=
  { scheduler with
    queue := scheduler.queue.revise fun batch => batch.purpose.fail (failure panic batch) }

/-- The innermost call, if one is in progress. -/
def innermost? (scheduler : Scheduler α) : Option (Batch Call) := scheduler.queue.running.head?

/-- The full text of a scheduler. -/
def describe (scheduler : Scheduler α) : String :=
  Text.openRecord "FrameEndScheduler"
    [("queue", scheduler.queue.describe), ("in_frame", Text.truth scheduler.inFrame),
      ("frames_completed", toString scheduler.framesCompleted),
      ("config", scheduler.config.describe)]

end Scheduler

end LiveTree.Frame
