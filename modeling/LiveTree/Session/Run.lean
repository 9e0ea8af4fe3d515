import LiveTree.Session.Clock
import LiveTree.Session.Handle
import LiveTree.Session.Queue
import LiveTree.Session.Record
import LiveTree.Session.Retirement
import LiveTree.Session.Scheduler

/-! Running a session. A step of the machine is a total function, and a command runs for as many
steps as it takes within a budget; only a script that calls itself without end exhausts it. -/
namespace LiveTree.Session

namespace Machine

/-- Starts a command. -/
def execute (machine : Machine) : Command → Machine
  | .note value => machine.reply (.note value)
  | .inspect components => machine.reply (.views (machine.world.views components))
  | .panic reason => machine.unwind reason
  | .call script =>
    match machine.world.scripts.get? script with
    | none => machine.miss .script
    | some body => (machine.push (.replying .ok)).run body
  | .iterate times body => (machine.push (.iterating times body)).proceed
  | .queue command => machine.executeQueue command
  | .scheduler command => machine.executeScheduler command
  | .clock command => machine.executeClock command
  | .handle command => machine.executeHandle command
  | .object command => machine.executeObject command
  | .dispatcher command => machine.executeDispatcher command
  | .batch command => machine.executeBatch command
  | .pool command => machine.executePool command
  | .entry command => machine.executeEntry command
  | .hasher command => machine.executeHasher command
  | .arena command => machine.executeArena command

/-- Lets a call go on that is the innermost of the machine. -/
def resume (machine : Machine) : Call → Machine
  | .body [] => machine.pop
  | .body (command :: rest) =>
    { machine.become (.body rest) with control := .execute command }
  | .iterating 0 _ => machine.pop.reply .ok
  | .iterating (left + 1) body => (machine.become (.iterating left body)).run body
  | .replying answer => machine.pop.reply answer
  | .unwinding reason => machine.pop.unwind reason
  | .holding pool answer => machine.pop.release pool (.ok answer)
  | .registering handle name => machine.pop.finishRegistration handle name
  | .queue id => machine.continueQueue id
  | .scheduler id => machine.continueScheduler id
  | .clock id => machine.continueClock id
  | .draining owner drain => machine.continueDrain owner drain
  | .retiring delivery counted => machine.continueRetirement delivery counted
  | .matching call pass => machine.continueMatching call pass
  | .inserting call pass request objects => machine.continueInserting call pass request objects

/-- Lets a panic leave a call that is the innermost of the machine. -/
def unwindCall (machine : Machine) (reason : Panic) : Call → Machine
  | .body _ | .iterating _ _ | .replying _ | .unwinding _ | .registering _ _ | .retiring _ _ =>
    machine.pop
  | .holding pool _ => machine.pop.release pool (.error reason)
  | .queue id => machine.unwindQueue id
  | .scheduler id => machine.catchInScheduler id reason
  | .clock id => machine.unwindClock id
  | .draining owner drain => machine.unwindDrain owner drain reason
  | .matching call pass | .inserting call pass _ _ => machine.unwindMatching call pass reason

/-- The answer of the outermost command, once there is one. -/
def outcome? (machine : Machine) : Option Answer :=
  match machine.stack, machine.control with
  | [], .answer answer => some answer
  | [], .unwind reason => some (.panicked reason)
  | [], .proceed => some .ok
  | _, _ => none

/-- One step of the machine. A machine with an outcome makes no further step. -/
def step (machine : Machine) : Machine :=
  match machine.control, machine.stack with
  | .execute command, _ => machine.execute command
  | .answer answer, .body _ :: _ => (machine.report (.answered answer)).proceed
  | .answer _, _ :: _ => machine.proceed
  | .proceed, call :: _ => machine.resume call
  | .unwind reason, call :: _ => machine.unwindCall reason call
  | _, [] => machine

/-- Runs the machine until it has an outcome, for at most a number of steps. -/
def runFor : Nat → Machine → Machine
  | 0, machine => machine
  | budget + 1, machine =>
    match machine.outcome? with
    | some _ => machine
    | none => runFor budget machine.step

/-- The machine that is about to run a command in a world. -/
def start (world : World) (listener : Option Severity) (command : Command) : Machine :=
  { world, listener, log := [], stack := [], control := .execute command }

end Machine

/-- How many steps one command of a session may take. -/
def stepBudget : Nat := 100000000

/-- What a command came to: its answer and the events it logged, the earliest first. -/
structure Result where
  answer : Answer
  log : List Event

end LiveTree.Session

namespace LiveTree

/-- A session between two commands: its components, and the severity at which somebody listens to
diagnostics. -/
structure Session where
  world : Session.World
  listener : Option Severity

namespace Session

/-- A session without components. -/
def start (scripts : List (Name × Body)) (listener : Option Severity) : Session :=
  ⟨{ scripts := ⟨scripts⟩ }, listener⟩

/-- Runs one command to its end. -/
def perform (session : Session) (command : Command) : Result × Session :=
  let machine := (Machine.start session.world session.listener command).runFor stepBudget
  (⟨machine.outcome?.getD .unfinished, machine.log.reverse⟩,
    { session with world := machine.world })

/-- What can be seen of several components. -/
def views (session : Session) (components : List (Kind × Name)) : List (Kind × Option View) :=
  session.world.views components

end Session

end LiveTree
