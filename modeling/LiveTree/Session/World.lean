import LiveTree.Cancellation
import LiveTree.Frame.Clock
import LiveTree.Session.Answer
import LiveTree.Table

/-! The components of a session. Components that can be shared under several names are kept by
identity, and a name stands for an identity; components with one owner are kept under their name.
A dispatcher or pool is away from its place while a call works on it. -/
namespace LiveTree.Session

open Lifecycle (ObjectId Registry Dispatcher RetireBatch)

/-- Values by name. -/
abbrev Names (α : Type) := Table Name α

/-- An awaiter of a queue or clock: its label and what runs when it is served or refused. -/
structure Waiter where
  item : String
  served : Body
  refused : Body

/-- An action of a scheduler. A plain action has nothing to run when the scheduler closes and is
then not even told. -/
structure Action where
  item : String
  completed : Body
  refused : Option Body

/-- A scheduler with the name under which it was created and what runs when there is new work. -/
structure HostedScheduler where
  core : Frame.Scheduler Action
  name : Name
  wake : Body

/-- A clock with the name under which it was created and what runs when a frame is wanted. -/
structure HostedClock where
  core : Frame.Clock Waiter
  name : Name
  wake : Body

/-- The observer of a retained object: the name under which it was created and its reactions. -/
structure Observer where
  name : Name
  reactions : Reactions Body

/-- An observer that logs what it is told and does nothing else. -/
def Observer.recording (name : Name) : Observer := ⟨name, ⟨false, [], [], [], []⟩⟩

/-- A component with a queue of awaiters. -/
inductive QueueRef where
  | queue (id : Nat)
  | scheduler (id : Nat)
  | clock (id : Nat)
deriving DecidableEq, Repr

/-- What cancelling a handle does: it runs a body, or withdraws an awaiter. -/
inductive CancelAction where
  | run (handle : Name) (body : Body)
  | withdraw (source : QueueRef) (ticket : Awaiting.Ticket)

/-- An entry whose handle and parameter are a text and a number. -/
abbrev Entry := Relocation.Entry String Int

/-- A pool of such entries. -/
abbrev Pool := Relocation.Pool String Int

/-- All components of a session. -/
structure World where
  scripts : Names Body := {}
  queues : Array (Awaiting.Queue Waiter Awaiting.Delivery) := #[]
  queueNames : Names Nat := {}
  schedulers : Array HostedScheduler := #[]
  schedulerNames : Names Nat := {}
  clocks : Array HostedClock := #[]
  clockNames : Names Nat := {}
  handles : Handles CancelAction := #[]
  handleNames : Names HandleId := {}
  guards : Names Guard := {}
  objects : Registry Observer := {}
  objectNames : Names ObjectId := {}
  dispatchers : Array (Option Dispatcher) := #[]
  dispatcherNames : Names Nat := {}
  batches : Names RetireBatch := {}
  pools : Array (Option Pool) := #[]
  poolNames : Names Nat := {}
  entries : Names Entry := {}
  hashers : Names Position.Hasher := {}
  arenas : Names (Arena Int) := {}

namespace World

/-- The awaiting queue with an awaiter withdrawn. -/
def withdraw (world : World) (source : QueueRef) (ticket : Awaiting.Ticket) : World :=
  match source with
  | .queue id => { world with queues := world.queues.modify id (·.withdraw ticket) }
  | .scheduler id =>
    { world with schedulers := world.schedulers.modify id fun hosted =>
        { hosted with core := { hosted.core with queue := hosted.core.queue.withdraw ticket } } }
  | .clock id =>
    { world with clocks := world.clocks.modify id fun hosted =>
        { hosted with core := ⟨hosted.core.awaiters.withdraw ticket⟩ } }

/-- The objects of some names. A name without an object becomes a new recording object. -/
def resolveObjects (world : World) : List Name → List ObjectId × World
  | [] => ([], world)
  | name :: names =>
    let (id, world) :=
      match world.objectNames.get? name with
      | some id => (id, world)
      | none =>
        let (id, objects) := world.objects.create (Observer.recording name)
        (id, { world with objects, objectNames := world.objectNames.set name id })
    let (ids, world) := world.resolveObjects names
    (id :: ids, world)

/-- What can be seen of an entry. -/
def viewEntry (world : World) (entry : Entry) : EntryView :=
  { descriptor := entry.descriptor
    handle := entry.handle
    parameter := entry.parameter
    position := entry.position
    active := entry.active
    objects := entry.objects.map fun id => (id.number, world.objects.state id) }

/-- What can be seen of the component of a kind and name. -/
def view (world : World) : Kind → Name → Option View
  | .queue, name => do
    let queue ← world.queues[← world.queueNames.get? name]?
    return .queue queue.size queue.closed
  | .scheduler, name => do
    let hosted ← world.schedulers[← world.schedulerNames.get? name]?
    let core := hosted.core
    return .scheduler core.queue.hasAwaiters core.inFrame core.queue.isClosed core.framesCompleted
  | .clock, name => do
    let hosted ← world.clocks[← world.clockNames.get? name]?
    return .clock hosted.core.awaiters.hasAwaiters
  | .handle, name => do
    return .handle (world.handles.isCancelled (← world.handleNames.get? name))
  | .guard, name => do
    return .handle (world.handles.isCancelled (← world.guards.get? name).handle)
  | .object, name => do
    return .object (world.objects.state (← world.objectNames.get? name))
  | .dispatcher, name => do
    let dispatcher ← (world.dispatchers[← world.dispatcherNames.get? name]?).join
    return .dispatcher dispatcher.hasPending dispatcher.pendingRetirements
  | .batch, name => do
    return .batch (← world.batches.get? name).size
  | .pool, name => do
    let pool ← (world.pools[← world.poolNames.get? name]?).join
    return .pool pool.pendingDepartures pool.pendingPlacements pool.config.trackUsage pool.stats
  | .entry, name => do
    return .entry (world.viewEntry (← world.entries.get? name))
  | .hasher, name => do
    let hasher ← world.hashers.get? name
    return .hasher hasher.current hasher.root hasher.depth hasher.perLevel
  | .arena, name => do
    return .arena (← world.arenas.get? name).size

/-- What can be seen of several components. -/
def views (world : World) (components : List (Kind × Name)) : List (Kind × Option View) :=
  components.map fun component => (component.1, world.view component.1 component.2)

end World

end LiveTree.Session
