import LiveTree.Lifecycle.Dispatcher
import LiveTree.Relocation.Departures
import LiveTree.Settings.Config

/-! The relocation pool. During an update, content that is torn down is reported as departing, and
places ask for content of a descriptor. A place takes the earliest departure of its descriptor,
unless an earlier place still waits for one; it may then wait until the end of the pass, because a
later departure may still serve it. A descriptor whose content never departed can be inserted at
once when usage is tracked, since nothing could have matched.

The pool records what the retained objects are to be told, and never tells them itself. -/
namespace LiveTree.Relocation

open Lifecycle (ObjectId Dispatcher)

/-- Counters of what a pool has done. -/
structure Stats where
  passes : Nat := 0
  departures : Nat := 0
  moves : Nat := 0
  immediateInserts : Nat := 0
  unmatchedPlacements : Nat := 0
  disposed : Nat := 0
deriving DecidableEq, Repr

/-- The full text of the counters. -/
def Stats.describe (stats : Stats) : String :=
  Text.record "PoolStats"
    [("passes", toString stats.passes), ("departures", toString stats.departures),
      ("moves", toString stats.moves), ("immediate_inserts", toString stats.immediateInserts),
      ("unmatched_placements", toString stats.unmatchedPlacements),
      ("disposed", toString stats.disposed)]

/-- A pool of departing content and waiting places. -/
structure Pool (η π : Type) where
  config : Settings.RelocationConfig := {}
  departures : Departures η π := {}
  deferred : List (Request π) := []
  deferredDescriptors : List DescriptorId := []
  everDeparted : List DescriptorId := []
  dispatcher : Dispatcher := {}
  nextTicket : PlacementTicket := 0
  nextDeparture : Nat := 0
  stats : Stats := {}

/-- A departure that was reported under a descriptor that is not its own. -/
structure Misreport where
  own : DescriptorId
  reported : DescriptorId
deriving DecidableEq, Repr

/-- The message of a misreported departure. -/
def Misreport.message (misreport : Misreport) : String :=
  "assertion `left == right` failed: departure reported under a different descriptor\n  left: "
    ++ misreport.own.describe ++ "\n right: " ++ misreport.reported.describe

namespace Pool

variable {η π : Type}

/-- How many departures wait. -/
def pendingDepartures (pool : Pool η π) : Nat := pool.departures.size

/-- How many departures of a descriptor wait. -/
def pendingDeparturesFor (pool : Pool η π) (id : DescriptorId) : Nat :=
  (pool.departures.waiting id).length

/-- How many places wait for the end of the pass. -/
def pendingPlacements (pool : Pool η π) : Nat := pool.deferred.length

/-- Whether content of a descriptor has ever departed. -/
def hasDeparted (pool : Pool η π) (id : DescriptorId) : Bool := pool.everDeparted.contains id

/-- Whether an earlier place waits for content of a descriptor. -/
def isAwaited (pool : Pool η π) (id : DescriptorId) : Bool := pool.deferredDescriptors.contains id

/-- Records that several objects are to be told of an event. -/
def record (pool : Pool η π) (event : Lifecycle.Event) (objects : List ObjectId) : Pool η π :=
  { pool with dispatcher := pool.dispatcher.record event objects }

/-- New content: its objects are to be retained and then to enter. -/
def instantiate (pool : Pool η π) (descriptor : DescriptorId) (handle : η) (parameter : π)
    (position : Position.Hash) (objects : List ObjectId) : Entry η π × Pool η π :=
  (⟨descriptor, handle, parameter, position, objects, true⟩,
    (pool.record .retained objects).record .entered objects)

/-- Active content becomes inactive: its objects are to exit. -/
def deactivate (pool : Pool η π) (entry : Entry η π) : Entry η π × Pool η π :=
  if entry.active then
    ({ entry with active := false }, pool.record .exited entry.objects)
  else (entry, pool)

/-- Takes in content that departs, if it is reported under its own descriptor. -/
def reportDeparture (pool : Pool η π) (descriptor : DescriptorId) (entry : Entry η π) :
    Except Misreport (Pool η π) :=
  if entry.descriptor = descriptor then
    .ok { pool with
      departures := pool.departures.add ⟨pool.nextDeparture, entry⟩
      everDeparted :=
        if pool.hasDeparted entry.descriptor then pool.everDeparted
        else entry.descriptor :: pool.everDeparted
      nextDeparture := pool.nextDeparture + 1
      stats := { pool.stats with departures := pool.stats.departures + 1 } }
  else .error ⟨entry.descriptor, descriptor⟩

/-- Hands the earliest departure of a descriptor out. -/
def claim (pool : Pool η π) (id : DescriptorId) : Option (Entry η π × Pool η π) :=
  match pool.departures.claim id with
  | none => none
  | some (departure, departures) => some (departure.entry, { pool with departures })

/-- Content moves to a new place. Inactive content enters again; active content is told nothing. -/
def adopt (pool : Pool η π) (entry : Entry η π) (parameter : π) (position : Position.Hash) :
    Entry η π × Pool η π :=
  let moved := { entry with parameter, position, active := true }
  if entry.active then (moved, pool) else (moved, pool.record .entered entry.objects)

/-- Counts content that moved. -/
def countMove (pool : Pool η π) : Pool η π :=
  { pool with stats := { pool.stats with moves := pool.stats.moves + 1 } }

/-- Answers a request that no departure can serve now: with an insertion at once if no departure
can ever serve it, else at the end of the pass. -/
def enqueue (pool : Pool η π) (descriptor : DescriptorId) (parameter : π)
    (position : Position.Hash) : Placement η π × Pool η π :=
  let request : Request π := ⟨pool.nextTicket, descriptor, parameter, position⟩
  let pool := { pool with nextTicket := pool.nextTicket + 1 }
  if pool.config.trackUsage && !pool.hasDeparted descriptor then
    (.insertNow request,
      { pool with
        stats := { pool.stats with immediateInserts := pool.stats.immediateInserts + 1 } })
  else
    (.deferred request.ticket,
      { pool with
        deferred := pool.deferred ++ [request]
        deferredDescriptors :=
          if pool.isAwaited descriptor then pool.deferredDescriptors
          else descriptor :: pool.deferredDescriptors })

/-- The departure that a request would get now. An earlier place that waits for the same
descriptor goes first, so a request behind it gets none. -/
def claimFor (pool : Pool η π) (descriptor : DescriptorId) : Option (Entry η π × Pool η π) :=
  if pool.isAwaited descriptor then none else pool.claim descriptor

/-- Asks for content of a descriptor at a place. -/
def requestPlacement (pool : Pool η π) (descriptor : DescriptorId) (parameter : π)
    (position : Position.Hash) : Placement η π × Pool η π :=
  match pool.claimFor descriptor with
  | some (entry, pool) =>
    let (moved, pool) := pool.countMove.adopt entry parameter position
    (.moved moved, pool)
  | none => pool.enqueue descriptor parameter position

/-- Content that found no place: its objects are to exit, if they are in the tree, and to
retire. -/
def dispose (pool : Pool η π) (entry : Entry η π) : Pool η π :=
  let pool := { pool with stats := { pool.stats with disposed := pool.stats.disposed + 1 } }
  let pool := if entry.active then pool.record .exited entry.objects else pool
  pool.record .retired entry.objects

/-- The departures that are left over, in the order of the reports. -/
def leftovers (pool : Pool η π) : List (Entry η π) :=
  pool.departures.inReportOrder.map Departure.entry

/-- Disposes every departure that is left over. -/
def disposeDepartures (pool : Pool η π) : Pool η π :=
  pool.leftovers.foldl dispose { pool with departures := {} }

/-- The full text of a pool. -/
def describe (pool : Pool η π) : String :=
  Text.openRecord "RelocationPool"
    [("config", pool.config.describe), ("pending_departures", toString pool.pendingDepartures),
      ("pending_placements", toString pool.pendingPlacements), ("stats", pool.stats.describe)]

end Pool

end LiveTree.Relocation
