import LiveTree.Descriptor
import LiveTree.Lifecycle.State
import LiveTree.Panic
import LiveTree.Position.Hash
import LiveTree.Settings.Config

/-! Commands of a session. A session holds named components of several kinds, and a command names
the components it works on. Callbacks are bodies: lists of commands that run when the callback is
called. Each family of commands is written over the type `β` of bodies, and the commands of all
families together are what bodies consist of. -/
namespace LiveTree.Session

/-- The name of a component among those of its kind. -/
abbrev Name := String

/-- The kinds of components. -/
inductive Kind where
  | queue | scheduler | clock | handle | guard | object | dispatcher | batch | pool | entry
  | hasher | arena
deriving DecidableEq, Repr

/-- A value that is passed through unread. -/
inductive Note where
  | nothing
  | flag (value : Bool)
  | number (value : Int)
  | text (value : String)
  | list (values : List Note)
  | record (fields : List (String × Note))

/-- Commands on awaiter queues. -/
inductive QueueCommand (β : Type) where
  | create (queue : Name)
  | share (queue other : Name)
  | forget (queue : Name)
  | describe (queue : Name)
  | register (queue : Name) (item : String) (handle : Option Name) (resumed refused first : β)
  | flush (queue : Name)
  | close (queue : Name) (reason : String)

/-- Commands on frame-end schedulers. A plain action runs only when its frame completes; an
informed one is also told when the scheduler closes. -/
inductive SchedulerCommand (β : Type) where
  | create (scheduler : Name) (config : Settings.FrameConfig) (wake : β)
  | share (scheduler other : Name)
  | describe (scheduler : Name)
  | schedulePlain (scheduler : Name) (item : String) (handle : Option Name) (completed : β)
  | scheduleInformed (scheduler : Name) (item : String) (handle : Option Name)
      (completed refused : β)
  | startFrame (scheduler : Name)
  | completeFrame (scheduler : Name)
  | close (scheduler : Name) (reason : String)

/-- Commands on frame clocks. -/
inductive ClockCommand (β : Type) where
  | create (clock : Name) (wake : β)
  | share (clock other : Name)
  | describe (clock : Name)
  | register (clock : Name) (item : String) (handle : Option Name) (ticked refused : β)
  | send (clock : Name) (time : Nat)
  | close (clock : Name) (reason : String)

/-- Commands on cancellation handles and guards. -/
inductive HandleCommand (β : Type) where
  | create (handle : Name) (action : β)
  | createIdle (handle : Name)
  | share (handle other : Name)
  | cancel (handle : Name)
  | describe (handle : Name)
  | guard (handle guard : Name)
  | disarm (guard : Name) (handle : Option Name)
  | release (guard : Name)
  | describeGuard (guard : Name)

/-- What an object does when it is told of a move. A silent object does nothing at all, and its
being told is not even logged. -/
structure Reactions (β : Type) where
  silent : Bool
  retained : β
  entered : β
  exited : β
  retired : β

/-- The reaction to one event. -/
def Reactions.to {β : Type} (reactions : Reactions β) : Lifecycle.Event → β
  | .retained => reactions.retained
  | .entered => reactions.entered
  | .exited => reactions.exited
  | .retired => reactions.retired

/-- Commands on retained objects. -/
inductive ObjectCommand (β : Type) where
  | create (object : Name) (reactions : Reactions β)
  | share (object other : Name)
  | compare (object other : Name)
  | advance (object : Name) (target : Lifecycle.State)
  | poke (object : Name) (event : Option Lifecycle.Event)
  | describe (object : Name)

/-- Commands on lifecycle dispatchers. -/
inductive DispatcherCommand where
  | create (dispatcher : Name)
  | record (dispatcher : Name) (event : Lifecycle.Event) (objects : List Name)
  | dispatch (dispatcher : Name)
  | takeRetirements (dispatcher batch : Name)
  | describe (dispatcher : Name)

/-- Commands on batches of retirements. -/
inductive BatchCommand where
  | create (batch : Name)
  | extend (batch source : Name)
  | dispatch (batch : Name)
  | discard (batch : Name)
  | describe (batch : Name)

/-- A position that is given as such, or as the place where a hasher stands. -/
inductive Place where
  | fixed (hash : Position.Hash)
  | ofHasher (hasher : Name)

/-- How a place is filled with new content: what runs first, and the objects that are retained. -/
structure Insertion (β : Type) where
  body : β
  objects : List Name

/-- Commands on relocation pools. -/
inductive PoolCommand (β : Type) where
  | create (pool : Name) (config : Settings.RelocationConfig)
  | discard (pool : Name)
  | describe (pool : Name)
  | query (pool : Name) (descriptor : DescriptorId)
  | instantiate (pool entry : Name) (descriptor : DescriptorId) (handle : String)
      (parameter : Int) (place : Place) (objects : List Name)
  | deactivate (pool entry : Name)
  | depart (pool entry : Name) (descriptor : Option DescriptorId)
  | claim (pool : Name) (descriptor : DescriptorId) (entry : Name)
  | place (pool : Name) (descriptor : DescriptorId) (parameter : Int) (place : Place)
      (entry : Name) (described : Bool)
  | endPass (pool : Name) (insertions : Option (List (Insertion β))) (label : String)
      (described : Bool)
  | dispatch (pool : Name)
  | takeRetirements (pool batch : Name)

/-- Commands on entries. -/
inductive EntryCommand where
  | setHandle (entry : Name) (handle : String)
  | takeApart (entry : Name)
  | describe (entry : Name)

/-- Commands on position hashers. -/
inductive HasherCommand where
  | create (hasher : Name) (perLevel : Option Nat) (root : Option Position.Hash)
  | copy (hasher other : Name)
  | push (hasher : Name) (segment : Position.Segment)
  | pop (hasher : Name)
  | path (hasher : Name)
  | describe (hasher : Name)

/-- Commands on descriptor arenas. -/
inductive ArenaCommand where
  | create (arena : Name)
  | register (arena name : Name) (arity : Nat) (content : Int)
  | get (arena : Name) (descriptor : DescriptorId)
  | list (arena : Name)
  | describe (arena : Name)

/-- The commands of a session. -/
inductive Command where
  | note (value : Note)
  | inspect (components : List (Kind × Name))
  | panic (reason : Panic)
  | call (script : Name)
  | iterate (times : Nat) (body : List Command)
  | queue (command : QueueCommand (List Command))
  | scheduler (command : SchedulerCommand (List Command))
  | clock (command : ClockCommand (List Command))
  | handle (command : HandleCommand (List Command))
  | object (command : ObjectCommand (List Command))
  | dispatcher (command : DispatcherCommand)
  | batch (command : BatchCommand)
  | pool (command : PoolCommand (List Command))
  | entry (command : EntryCommand)
  | hasher (command : HasherCommand)
  | arena (command : ArenaCommand)

/-- What a callback does. -/
abbrev Body := List Command

end LiveTree.Session
