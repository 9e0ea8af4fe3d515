import LiveTree.Diagnostic
import LiveTree.Position.Hasher
import LiveTree.Session.Command

/-! What a session tells: the answers to commands, views of the state of components, and the
events that are logged while commands run. -/
namespace LiveTree.Session

open Lifecycle (IllegalMove)

/-- What can be seen of an entry, each object with its number and state. -/
structure EntryView where
  descriptor : DescriptorId
  handle : String
  parameter : Int
  position : Position.Hash
  active : Bool
  objects : List (Nat × Lifecycle.State)
deriving DecidableEq, Repr

/-- What can be seen of a component. -/
inductive View where
  | queue (pending : Nat) (closed : Option Closed)
  | scheduler (hasAwaiters inFrame isClosed : Bool) (frames : Nat)
  | clock (hasAwaiters : Bool)
  | handle (cancelled : Bool)
  | object (state : Lifecycle.State)
  | dispatcher (hasPending : Bool) (retirements : Nat)
  | batch (size : Nat)
  | pool (departures placements : Nat) (trackUsage : Bool) (stats : Relocation.Stats)
  | entry (view : EntryView)
  | hasher (current root : Position.Hash) (depth : Nat) (perLevel : Position.Shift)
  | arena (size : Nat)

/-- A component that a command named and that does not exist. -/
inductive Missing where
  | component (kind : Kind)
  | partner
  | source
  | script
  | place
deriving DecidableEq, Repr

/-- What is left of a request: its number and what it asked for. -/
abbrev RequestView := Relocation.Request Int

/-- The answer to a request for a place. -/
inductive PlacementView where
  | moved (entry : EntryView)
  | insertNow (request : RequestView)
  | deferred (ticket : Relocation.PlacementTicket)

/-- The answer to the end of a pass. -/
structure PassView where
  moved : List (Relocation.PlacementTicket × EntryView)
  inserted : List (Relocation.PlacementTicket × EntryView)
  fresh : List RequestView
  disposed : List String
  lifecycle : Lifecycle.Report

/-- The answer to a command. -/
inductive Answer where
  | ok
  | note (value : Note)
  | views (components : List (Kind × Option View))
  | flag (value : Bool)
  | count (value : Nat)
  | text (value : String)
  | closed (closed : Closed)
  | illegal (move : IllegalMove)
  | invalid (argument : InvalidArgument)
  | panicked (reason : Panic)
  | missing (what : Missing)
  | busy
  | unfinished
  | frame (report : Frame.Report)
  | lifecycle (report : Lifecycle.Report)
  | descriptorUse (pending : Nat) (departed : Bool)
  | claimed (entry : Option EntryView)
  | placed (answer : PlacementView) (described : Option String)
  | passed (answer : PassView) (described : Option String)
  | parts (handle : String) (parameter : Int)
  | hash (hash : Position.Hash)
  | popped (segment : Option Position.Segment)
  | path (segments : List Position.Segment)
  | found (contained : Bool) (descriptor : Option (Descriptor Int))
  | listing (descriptors : List (Descriptor Int))

/-- What is logged while commands run. -/
inductive Event where
  | first (item : String)
  | resumed (item : String)
  | rejected (item : String) (closed : Closed)
  | woken (scheduler : Name)
  | ran (item : String)
  | ended (item : String)
  | closed (item : String) (closed : Closed)
  | requested (clock : Name)
  | ticked (item : String) (time : Nat)
  | cancelled (handle : Name)
  | told (object : Name) (event : Lifecycle.Event)
  | inserting (request : RequestView)
  | answered (answer : Answer)
  | diagnostic (diagnostic : Diagnostic)
  | entered (span : Span)
  | left (span : Span)

end LiveTree.Session
