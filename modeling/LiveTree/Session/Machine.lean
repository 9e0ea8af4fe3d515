import LiveTree.Session.World

/-! The machine that runs a session. Commands call components, components call back, and callbacks
run commands again on the same components; so the calls in progress are kept as an explicit stack,
and one step of the machine does one thing: it starts a command, or lets the innermost call go on,
or lets a panic leave it. Whatever can be observed while a callback runs is thus the world of some
state of the machine. -/
namespace LiveTree.Session

open Lifecycle (ObjectId Drain Retirement)

/-- A pass of a pool that is being ended: the pool's identity, the number of the pass, the
insertions still to be used (none when unmatched requests are handed back), and how the answer is
given. -/
structure PassCall where
  pool : Nat
  number : Nat
  insertions : Option (List (Insertion Body))
  label : String
  described : Bool

/-- For whom notifications are delivered. -/
inductive DrainOwner where
  | dispatcher (id : Nat)
  | pool (id : Nat) (pool : Pool)
  | pass (call : PassCall) (pass : Relocation.Pass String Int) (disposed : List String)
  | discardedPool

/-- A call in progress, as it stands while a callback or a part of it runs. -/
inductive Call where
  /-- A body with the commands that are still to be run. -/
  | body (rest : Body)
  /-- A body that is run some more times. -/
  | iterating (left : Nat) (body : Body)
  /-- An answer that is given once what runs now is done. -/
  | replying (answer : Answer)
  /-- A panic that leaves once what runs now is done. -/
  | unwinding (reason : Panic)
  /-- A call that is done with a pool but still holds it, and the answer that is given once what
  runs now is done. -/
  | holding (pool : Nat) (answer : Answer)
  /-- A registration that has been accepted and whose handle is not stored yet. -/
  | registering (handle : HandleId) (name : Option Name)
  /-- A flush or the closing of a queue. -/
  | queue (id : Nat)
  /-- The completion of a frame or the closing of a scheduler. -/
  | scheduler (id : Nat)
  /-- A frame or the closing of a clock. -/
  | clock (id : Nat)
  /-- A delivery of notifications. -/
  | draining (owner : DrainOwner) (drain : Drain)
  /-- A delivery of retirements, and whether its count is the answer to a command. -/
  | retiring (delivery : Retirement) (counted : Bool)
  /-- The matching of deferred requests at the end of a pass. -/
  | matching (call : PassCall) (pass : Relocation.Pass String Int)
  /-- The making of new content for a request. -/
  | inserting (call : PassCall) (pass : Relocation.Pass String Int)
      (request : Relocation.Request Int) (objects : List Name)

/-- Whether a call holds a pool. -/
def Call.holds (pool : Nat) : Call → Bool
  | holding held _ => held == pool
  | draining (.pool held _) _ => held == pool
  | draining (.pass call _ _) _ => call.pool == pool
  | matching call _ => call.pool == pool
  | inserting call _ _ _ => call.pool == pool
  | _ => false

/-- What the machine does next. -/
inductive Control where
  /-- Starts a command. -/
  | execute (command : Command)
  /-- Gives the answer of a command to the call that ran it. -/
  | answer (answer : Answer)
  /-- Lets the innermost call go on. -/
  | proceed
  /-- Lets a panic leave the innermost call. -/
  | unwind (reason : Panic)

/-- A state of the machine. Events are kept with the latest first. -/
structure Machine where
  world : World
  listener : Option Severity
  log : List Event
  stack : List Call
  control : Control

namespace Machine

/-- Logs an event. -/
def report (machine : Machine) (event : Event) : Machine :=
  { machine with log := event :: machine.log }

/-- Whether diagnostics of a severity are heard. -/
def hears (machine : Machine) (severity : Severity) : Bool :=
  match machine.listener with
  | some listener => listener.admits severity
  | none => false

/-- Logs a diagnostic that is heard. -/
def diagnose (machine : Machine) (diagnostic : Diagnostic) : Machine :=
  if machine.hears diagnostic.severity then machine.report (.diagnostic diagnostic) else machine

/-- Logs the heard ones of several diagnostics. -/
def diagnoseAll (machine : Machine) (diagnostics : List Diagnostic) : Machine :=
  diagnostics.foldl diagnose machine

/-- Enters a span. -/
def enter (machine : Machine) (span : Span) : Machine :=
  if machine.hears Span.severity then machine.report (.entered span) else machine

/-- Leaves a span. -/
def leave (machine : Machine) (span : Span) : Machine :=
  if machine.hears Span.severity then machine.report (.left span) else machine

/-- The machine with another world. -/
def withWorld (machine : Machine) (world : World) : Machine := { machine with world }

/-- Starts a call that goes on when what is started after it is done. -/
def push (machine : Machine) (call : Call) : Machine :=
  { machine with stack := call :: machine.stack }

/-- Replaces the innermost call. -/
def become (machine : Machine) (call : Call) : Machine :=
  { machine with stack := call :: machine.stack.tail }

/-- Ends the innermost call. -/
def pop (machine : Machine) : Machine := { machine with stack := machine.stack.tail }

/-- Lets the innermost call go on. -/
def proceed (machine : Machine) : Machine := { machine with control := .proceed }

/-- Answers the command that is running. -/
def reply (machine : Machine) (answer : Answer) : Machine :=
  { machine with control := .answer answer }

/-- Answers that a component does not exist. -/
def miss (machine : Machine) (what : Missing) : Machine := machine.reply (.missing what)

/-- Answers that a component of a kind does not exist. -/
def missKind (machine : Machine) (kind : Kind) : Machine := machine.miss (.component kind)

/-- Lets a panic leave the innermost call. -/
def unwind (machine : Machine) (reason : Panic) : Machine :=
  { machine with control := .unwind reason }

/-- Ends a call with its answer or with the panic that leaves it. -/
def finish (machine : Machine) : Except Panic Answer → Machine
  | .ok answer => machine.reply answer
  | .error reason => machine.unwind reason

/-- Whether a call in progress holds a pool. -/
def isHeld (machine : Machine) (pool : Nat) : Bool := machine.stack.any (·.holds pool)

/-- Runs a body. -/
def run (machine : Machine) (body : Body) : Machine := (machine.push (.body body)).proceed

/-- Calls back: logs an event and runs a body. -/
def callBack (machine : Machine) (event : Event) (body : Body) : Machine :=
  (machine.report event).run body

/-- Tells an object of an event. A silent object is told without a trace. -/
def tell (machine : Machine) (id : ObjectId) (event : Lifecycle.Event) : Machine :=
  match machine.world.objects.get? id with
  | none => machine.proceed
  | some object =>
    let reactions := object.observer.reactions
    if reactions.silent then machine.proceed
    else machine.callBack (.told object.observer.name event) (reactions.to event)

/-- Tells an object of the state it has just moved to. -/
def tellState (machine : Machine) (id : ObjectId) (state : Lifecycle.State) : Machine :=
  match state.event? with
  | some event => machine.tell id event
  | none => machine.proceed

/-- Runs what cancelling a handle does. -/
def act (machine : Machine) : Option CancelAction → Machine
  | none => machine.proceed
  | some (.run handle body) => machine.callBack (.cancelled handle) body
  | some (.withdraw source ticket) =>
    (machine.withWorld (machine.world.withdraw source ticket)).proceed

/-- Attempts to cancel a handle and runs its action if that has an effect. -/
def cancel (machine : Machine) (id : HandleId) : Machine :=
  let (attempt, handles) := machine.world.handles.cancel id
  (machine.withWorld { machine.world with handles }).act attempt.action

/-- Keeps a new handle for an accepted registration. -/
def keepHandle (machine : Machine) (source : QueueRef) (ticket : Awaiting.Ticket)
    (name : Option Name) : Machine :=
  let (id, handles) := machine.world.handles.create (.forAction (.withdraw source ticket))
  (machine.withWorld { machine.world with handles }).push (.registering id name)

/-- Gives up a batch of retirements: they are delivered, and nobody is told their number. -/
def discardBatch (machine : Machine) (batch : Lifecycle.RetireBatch) : Machine :=
  (machine.push (.retiring batch.deliver false)).proceed

/-- Disposes the departures of a pool, with their diagnostics. -/
def diagnoseDisposal (machine : Machine) (pool : Pool) : Machine :=
  machine.diagnoseAll (pool.leftovers.map Relocation.Entry.disposal)

/-- Gives up a pool: its departures are disposed, and everything recorded is delivered. -/
def discardPool (machine : Machine) (pool : Pool) : Machine :=
  ((machine.diagnoseDisposal pool).push
    (.draining .discardedPool pool.disposeDepartures.dispatcher.drain)).proceed

/-- Puts a batch under a name. A batch that was there is given up afterwards. -/
def storeBatch (machine : Machine) (name : Name) (batch : Lifecycle.RetireBatch) : Machine :=
  let former := machine.world.batches.get? name
  let machine := machine.withWorld
    { machine.world with batches := machine.world.batches.set name batch }
  match former with
  | some former => (machine.push (.replying .ok)).discardBatch former
  | none => machine.reply .ok

end Machine

end LiveTree.Session
