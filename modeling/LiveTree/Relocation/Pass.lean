import LiveTree.Relocation.Pool

/-! The end of a pass. The places that waited are matched with departures in the order of the
requests; a place without a match is either filled with new content, made by the host on the spot,
or handed back. Departures without a place are disposed. Since the host runs while it makes new
content, a pass in progress is a state of its own, and every step from one such state to the next
is a function here. -/
namespace LiveTree.Relocation

open Lifecycle (ObjectId)

/-- A pass in progress: the pool it works on, the requests not answered yet, and the answers so
far in the order of the requests. -/
structure Pass (η π : Type) where
  pool : Pool η π
  requests : List (Request π)
  moved : List (PlacementTicket × Entry η π) := []
  inserted : List (PlacementTicket × Entry η π) := []
  fresh : List (Request π) := []

/-- What a pass amounted to. -/
structure PassOutcome (η π : Type) where
  moved : List (PlacementTicket × Entry η π)
  inserted : List (PlacementTicket × Entry η π)
  fresh : List (Request π)
  disposed : List η
  lifecycle : Lifecycle.Report

/-- How a pass goes on: with a request that was matched with `claimed`, with one that no departure
serves, or with the disposal of what is left over. -/
inductive PassStep (η π : Type) where
  | matched (request : Request π) (claimed : Entry η π) (pass : Pass η π)
  | unmatched (request : Request π) (pass : Pass η π)
  | settled

variable {η π : Type}

/-- The number of the pass that would end now. -/
def Pool.passNumber (pool : Pool η π) : Nat := pool.stats.passes + 1

/-- Begins the end of a pass: all waiting requests leave the pool. -/
def Pool.endPass (pool : Pool η π) : Pass η π :=
  { pool := { pool with deferred := [], deferredDescriptors := [] }, requests := pool.deferred }

namespace Pass

/-- Counts a request that no departure served. -/
def countUnmatched (pass : Pass η π) : Pass η π :=
  { pass with pool := { pass.pool with stats := { pass.pool.stats with
    unmatchedPlacements := pass.pool.stats.unmatchedPlacements + 1 } } }

/-- Answers the next request with a departure, if one is left. -/
def step (pass : Pass η π) : PassStep η π :=
  match pass.requests with
  | [] => .settled
  | request :: requests =>
    match pass.pool.claim request.descriptor with
    | some (claimed, pool) =>
      let (entry, pool) := pool.countMove.adopt claimed request.parameter request.position
      .matched request claimed
        { pass with pool, requests, moved := pass.moved ++ [(request.ticket, entry)] }
    | none => .unmatched request { pass with requests }.countUnmatched

/-- Hands an unmatched request back. -/
def handBack (pass : Pass η π) (request : Request π) : Pass η π :=
  { pass with fresh := pass.fresh ++ [request] }

/-- Fills the place of an unmatched request with new content. -/
def insert (pass : Pass η π) (request : Request π) (handle : η) (objects : List ObjectId) :
    Pass η π :=
  let (entry, pool) :=
    pass.pool.instantiate request.descriptor handle request.parameter request.position objects
  { pass with pool, inserted := pass.inserted ++ [(request.ticket, entry)] }

/-- Disposes the departures that no request took. -/
def disposeDepartures (pass : Pass η π) : Pass η π :=
  { pass with pool := pass.pool.disposeDepartures }

/-- The pool after the pass, which is only now counted. -/
def closedPool (pass : Pass η π) : Pool η π :=
  { pass.pool with stats := { pass.pool.stats with passes := pass.pool.passNumber } }

/-- The outcome of a pass, given what was disposed and what the objects were told. -/
def outcome (pass : Pass η π) (disposed : List η) (lifecycle : Lifecycle.Report) :
    PassOutcome η π :=
  { moved := pass.moved, inserted := pass.inserted, fresh := pass.fresh, disposed, lifecycle }

end Pass

/-- The full text of an outcome, given how handles and parameters are written. -/
def PassOutcome.describe (handle : η → String) (parameter : π → String)
    (outcome : PassOutcome η π) : String :=
  let placed (pair : PlacementTicket × Entry η π) : String :=
    Text.tuple [PlacementTicket.describe pair.1, pair.2.describe handle parameter]
  Text.record "PassOutcome"
    [("moved", Text.listed (outcome.moved.map placed)),
      ("inserted", Text.listed (outcome.inserted.map placed)),
      ("fresh", Text.listed (outcome.fresh.map (Request.describe parameter))),
      ("disposed", Text.listed (outcome.disposed.map handle)),
      ("lifecycle", outcome.lifecycle.describe)]

end LiveTree.Relocation
