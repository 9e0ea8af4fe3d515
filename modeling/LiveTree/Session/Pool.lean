import LiveTree.Session.Object

/-! Relocation pools and lifecycle dispatchers in a session. While a call works on one of them it
is away from its place, so a callback that asks for it finds it busy. A pool whose name was taken
by another meanwhile is given up when the last call that holds it ends. -/
namespace LiveTree.Session.Machine

open Lifecycle (Dispatcher Drain)

/-- Puts a dispatcher into its place, or takes it away. -/
def setDispatcher (machine : Machine) (id : Nat) (dispatcher : Option Dispatcher) : Machine :=
  machine.withWorld
    { machine.world with dispatchers := machine.world.dispatchers.setIfInBounds id dispatcher }

/-- Works on the dispatcher of a name. -/
def onDispatcher (machine : Machine) (name : Name) (work : Nat → Dispatcher → Machine) : Machine :=
  match machine.world.dispatcherNames.get? name with
  | none => machine.missKind .dispatcher
  | some id =>
    match (machine.world.dispatchers[id]?).join with
    | none => machine.reply .busy
    | some dispatcher => work id dispatcher

/-- Starts a command on a dispatcher. -/
def executeDispatcher (machine : Machine) : DispatcherCommand → Machine
  | .create name =>
    let id := machine.world.dispatchers.size
    (machine.withWorld { machine.world with
      dispatchers := machine.world.dispatchers.push (some {})
      dispatcherNames := machine.world.dispatcherNames.set name id }).reply .ok
  | .record name event objects =>
    machine.onDispatcher name fun id dispatcher =>
      let (ids, world) := machine.world.resolveObjects objects
      ((machine.withWorld world).setDispatcher id (some (dispatcher.record event ids))).reply .ok
  | .dispatch name =>
    machine.onDispatcher name fun id dispatcher =>
      ((machine.setDispatcher id none).push (.draining (.dispatcher id) dispatcher.drain)).proceed
  | .takeRetirements name batch =>
    machine.onDispatcher name fun id dispatcher =>
      let (objects, dispatcher) := dispatcher.takeRetirements
      (machine.setDispatcher id (some dispatcher)).storeBatch batch ⟨objects⟩
  | .describe name =>
    machine.onDispatcher name fun _ dispatcher =>
      machine.reply (.text (dispatcher.describe machine.world.objects))

/-- Puts a pool into its place, or takes it away. -/
def setPool (machine : Machine) (id : Nat) (pool : Option Pool) : Machine :=
  machine.withWorld { machine.world with pools := machine.world.pools.setIfInBounds id pool }

/-- Works on the pool of a name. -/
def onPool (machine : Machine) (name : Name) (work : Nat → Pool → Machine) : Machine :=
  match machine.world.poolNames.get? name with
  | none => machine.missKind .pool
  | some id =>
    match (machine.world.pools[id]?).join with
    | none => machine.reply .busy
    | some pool => work id pool

/-- Works on the entry of a name. -/
def onEntry (machine : Machine) (name : Name) (work : Entry → Machine) : Machine :=
  match machine.world.entries.get? name with
  | none => machine.missKind .entry
  | some entry => work entry

/-- Puts an entry under a name. -/
def storeEntry (machine : Machine) (name : Name) (entry : Entry) : Machine :=
  machine.withWorld { machine.world with entries := machine.world.entries.set name entry }

/-- Works at a place. -/
def atPlace (machine : Machine) (place : Place) (work : Position.Hash → Machine) : Machine :=
  match place with
  | .fixed hash => work hash
  | .ofHasher name =>
    match machine.world.hashers.get? name with
    | none => machine.miss .place
    | some hasher => work hasher.current

/-- Ends a call on a pool. A pool that no name stands for and no other call holds is given up
first. -/
def release (machine : Machine) (id : Nat) (ending : Except Panic Answer) : Machine :=
  if machine.world.poolNames.any (· == id) || machine.isHeld id then machine.finish ending
  else
    match (machine.world.pools[id]?).join with
    | none => machine.finish ending
    | some pool =>
      let pending := match ending with
        | .ok answer => Call.replying answer
        | .error reason => .unwinding reason
      ((machine.setPool id none).push pending).discardPool pool

/-- Puts a pool back into its place and ends the call that worked on it. -/
def giveBack (machine : Machine) (id : Nat) (pool : Pool) (ending : Except Panic Answer) :
    Machine :=
  (machine.setPool id (some pool)).release id ending

/-- Creates a pool under a name. A pool that was there loses the name. -/
def createPool (machine : Machine) (name : Name) (config : Settings.RelocationConfig) : Machine :=
  let former := machine.world.poolNames.get? name
  let id := machine.world.pools.size
  let machine := machine.withWorld { machine.world with
    pools := machine.world.pools.push (some { config })
    poolNames := machine.world.poolNames.set name id }
  match former with
  | none => machine.reply .ok
  | some former => machine.release former (.ok .ok)

/-- Gives up a pool with its name, unless a call still holds it. -/
def removePool (machine : Machine) (name : Name) : Machine :=
  machine.onPool name fun id _ =>
    if machine.isHeld id then machine.reply .busy
    else
      (machine.withWorld { machine.world with
        poolNames := machine.world.poolNames.erase name }).release id (.ok .ok)

/-- Makes an entry with new content. -/
def instantiate (machine : Machine) (id : Nat) (pool : Pool) (name : Name)
    (descriptor : DescriptorId) (handle : String) (parameter : Int) (position : Position.Hash)
    (objects : List Name) : Machine :=
  let (ids, world) := machine.world.resolveObjects objects
  let (entry, pool) := pool.instantiate descriptor handle parameter position ids
  ((((machine.withWorld world).setPool id (some pool)).diagnose entry.instantiation).storeEntry
    name entry).reply .ok

/-- Reports an entry as departing. The entry is gone even when the report is refused. -/
def depart (machine : Machine) (id : Nat) (pool : Pool) (name : Name)
    (descriptor : Option DescriptorId) (entry : Entry) : Machine :=
  let machine := machine.withWorld
    { machine.world with entries := machine.world.entries.erase name }
  match pool.reportDeparture (descriptor.getD entry.descriptor) entry with
  | .error misreport => machine.unwind (.message misreport.message)
  | .ok pool => ((machine.setPool id (some pool)).diagnose entry.departure).reply .ok

/-- Claims a departure and stores it. -/
def claim (machine : Machine) (id : Nat) (pool : Pool) (descriptor : DescriptorId) (name : Name) :
    Machine :=
  match pool.claim descriptor with
  | none => machine.reply (.claimed none)
  | some (entry, pool) =>
    let machine := ((machine.setPool id (some pool)).diagnose entry.claim).storeEntry name entry
    machine.reply (.claimed (some (machine.world.viewEntry entry)))

/-- The full text of an answer to a request. -/
def describePlacement (answer : Relocation.Placement String Int) : String :=
  answer.describe Text.quoted toString

/-- Asks for a place to be filled. Content that moves there is stored. -/
def place (machine : Machine) (id : Nat) (pool : Pool) (descriptor : DescriptorId)
    (parameter : Int) (position : Position.Hash) (name : Name) (described : Bool) : Machine :=
  let (answer, after) := pool.requestPlacement descriptor parameter position
  let machine := (machine.setPool id (some after)).diagnose
    (pool.placementDiagnostic descriptor position answer)
  let text := if described then some (describePlacement answer) else none
  match answer with
  | .moved entry =>
    (machine.storeEntry name entry).reply (.placed (.moved (machine.world.viewEntry entry)) text)
  | .insertNow request => machine.reply (.placed (.insertNow request) text)
  | .deferred ticket => machine.reply (.placed (.deferred ticket) text)

/-- Starts a command on a pool. -/
def executePool (machine : Machine) : PoolCommand Body → Machine
  | .create name config => machine.createPool name config
  | .discard name => machine.removePool name
  | .describe name => machine.onPool name fun _ pool => machine.reply (.text pool.describe)
  | .query name descriptor =>
    machine.onPool name fun _ pool =>
      machine.reply (.descriptorUse (pool.pendingDeparturesFor descriptor)
        (pool.hasDeparted descriptor))
  | .instantiate name entry descriptor handle parameter where_ objects =>
    machine.onPool name fun id pool =>
      machine.atPlace where_ fun position =>
        machine.instantiate id pool entry descriptor handle parameter position objects
  | .deactivate name entryName =>
    machine.onPool name fun id pool =>
      machine.onEntry entryName fun entry =>
        let (entry, pool) := pool.deactivate entry
        ((machine.setPool id (some pool)).storeEntry entryName entry).reply .ok
  | .depart name entryName descriptor =>
    machine.onPool name fun id pool =>
      machine.onEntry entryName fun entry =>
        machine.depart id pool entryName descriptor entry
  | .claim name descriptor entry =>
    machine.onPool name fun id pool => machine.claim id pool descriptor entry
  | .place name descriptor parameter where_ entry described =>
    machine.onPool name fun id pool =>
      machine.atPlace where_ fun position =>
        machine.place id pool descriptor parameter position entry described
  | .endPass name insertions label described =>
    machine.onPool name fun id pool =>
      let call : PassCall := ⟨id, pool.passNumber, insertions, label, described⟩
      (((machine.setPool id none).enter (.pass call.number)).push
        (.matching call pool.endPass)).proceed
  | .dispatch name =>
    machine.onPool name fun id pool =>
      ((machine.setPool id none).push (.draining (.pool id pool) pool.dispatcher.drain)).proceed
  | .takeRetirements name batch =>
    machine.onPool name fun id pool =>
      let (objects, dispatcher) := pool.dispatcher.takeRetirements
      ((machine.setPool id (some { pool with dispatcher })).push (.holding id .ok)).storeBatch batch
        ⟨objects⟩

/-- Lets the matching of deferred requests go on. -/
def continueMatching (machine : Machine) (call : PassCall) (pass : Relocation.Pass String Int) :
    Machine :=
  match pass.step with
  | .matched _ claimed pass =>
    ((machine.become (.matching call pass)).diagnose claimed.claim).proceed
  | .unmatched request pass =>
    match call.insertions with
    | none => (machine.become (.matching call (pass.handBack request))).proceed
    | some insertions =>
      let insertion := insertions.head?.getD ⟨[], []⟩
      let call := { call with insertions := some insertions.tail }
      (machine.become (.inserting call pass request insertion.objects)).callBack
        (.inserting request) insertion.body
  | .settled =>
    let disposed := pass.pool.leftovers.map (·.handle)
    let settled := pass.disposeDepartures
    ((machine.diagnoseDisposal pass.pool).become
      (.draining (.pass call settled disposed) settled.pool.dispatcher.drain)).proceed

/-- Takes in the new content for a request. -/
def continueInserting (machine : Machine) (call : PassCall) (pass : Relocation.Pass String Int)
    (request : Relocation.Request Int) (objects : List Name) : Machine :=
  let (ids, world) := machine.world.resolveObjects objects
  let handle := "new" ++ toString request.ticket
  let made := pass.pool.instantiate request.descriptor handle request.parameter request.position ids
  (((machine.withWorld world).become (.matching call (pass.insert request handle ids))).diagnose
    made.1.instantiation).proceed

/-- The entries of a pass under the names made of a label and their tickets. -/
def storePlaced (machine : Machine) (label : String)
    (placed : List (Relocation.PlacementTicket × Entry)) : Machine :=
  placed.foldl (fun machine pair => machine.storeEntry (label ++ toString pair.1) pair.2) machine

/-- What can be seen of the outcome of a pass. -/
def viewOutcome (world : World) (outcome : Relocation.PassOutcome String Int) : PassView :=
  { moved := outcome.moved.map fun pair => (pair.1, world.viewEntry pair.2)
    inserted := outcome.inserted.map fun pair => (pair.1, world.viewEntry pair.2)
    fresh := outcome.fresh
    disposed := outcome.disposed
    lifecycle := outcome.lifecycle }

/-- Ends a pass whose notifications have been delivered. -/
def finishPass (machine : Machine) (call : PassCall) (pass : Relocation.Pass String Int)
    (disposed : List String) (drain : Drain) : Machine :=
  let pool := { pass.closedPool with dispatcher := drain.dispatcher }
  let outcome := pass.outcome disposed drain.report
  let machine := (machine.diagnose
    (outcome.resolution call.number pool.dispatcher.pendingRetirements)).leave (.pass call.number)
  let text := if call.described then some (outcome.describe Text.quoted toString) else none
  let answer := Answer.passed (viewOutcome machine.world outcome) text
  ((machine.storePlaced call.label outcome.moved).storePlaced call.label
    outcome.inserted).pop.giveBack call.pool pool (.ok answer)

/-- Ends a delivery of notifications. -/
def finishDrain (machine : Machine) (owner : DrainOwner) (drain : Drain) : Machine :=
  let machine := machine.diagnoseAll drain.report.diagnostics
  match owner with
  | .dispatcher id =>
    (machine.setDispatcher id (some drain.dispatcher)).pop.reply (.lifecycle drain.report)
  | .pool id pool =>
    machine.pop.giveBack id { pool with dispatcher := drain.dispatcher }
      (.ok (.lifecycle drain.report))
  | .pass call pass disposed => machine.finishPass call pass disposed drain
  | .discardedPool => machine.pop.discardBatch ⟨drain.dispatcher.takeRetirements.1⟩

/-- Lets the innermost delivery of notifications go on. -/
def continueDrain (machine : Machine) (owner : DrainOwner) (drain : Drain) : Machine :=
  match drain.step with
  | .attempt object target drain =>
    machine.advance object target
      (fun illegal => (machine.become (.draining owner (drain.refused illegal))).proceed)
      (·.become (.draining owner drain.delivered))
  | .nextList drain => (machine.become (.draining owner drain)).proceed
  | .finished => machine.finishDrain owner drain

/-- A panic leaves the innermost delivery of notifications. -/
def unwindDrain (machine : Machine) (owner : DrainOwner) (drain : Drain) (reason : Panic) :
    Machine :=
  match owner with
  | .dispatcher id => (machine.setDispatcher id (some drain.dispatcher)).pop
  | .pool id pool =>
    machine.pop.giveBack id { pool with dispatcher := drain.dispatcher } (.error reason)
  | .pass call pass _ =>
    (machine.leave (.pass call.number)).pop.giveBack call.pool
      { pass.pool with dispatcher := drain.dispatcher } (.error reason)
  | .discardedPool => machine.pop

/-- A panic leaves the matching of deferred requests. -/
def unwindMatching (machine : Machine) (call : PassCall) (pass : Relocation.Pass String Int)
    (reason : Panic) : Machine :=
  (machine.leave (.pass call.number)).pop.giveBack call.pool pass.pool (.error reason)

end LiveTree.Session.Machine
