import LiveTree.Session.Run

/-! Bystanders. Most of a session has nothing to do with schedulers and clocks: it neither looks at
them nor changes them, and amid other schedulers and clocks it does the same. That is shown here
once, family by family, so that what is proved of schedulers or of clocks needs to look at those
commands and calls only that work on them. Nor does it matter what has been logged before. -/
namespace LiveTree.Session

open Lifecycle (ObjectId)

/-- What else may be different around a bystander: the schedulers, the clocks, and what has been
logged before. -/
structure Backdrop where
  schedulers : Array HostedScheduler → Array HostedScheduler
  clocks : Array HostedClock → Array HostedClock
  earlier : List Event

/-- A world amid whose components the schedulers and the clocks have become others. -/
def World.amid (backdrop : Backdrop) (world : World) : World :=
  { world with
    schedulers := backdrop.schedulers world.schedulers
    clocks := backdrop.clocks world.clocks }

/-- Commands that have nothing to do with schedulers and clocks. -/
def Command.Bystands : Command → Prop
  | .inspect _ | .scheduler _ | .clock _ | .handle _ => False
  | _ => True

/-- Calls that have nothing to do with schedulers and clocks. -/
def Call.Bystands : Call → Prop
  | .scheduler _ | .clock _ => False
  | _ => True

namespace Machine

/-- A machine amid other schedulers and clocks, after other events. -/
def amid (backdrop : Backdrop) (machine : Machine) : Machine :=
  { machine with
    world := machine.world.amid backdrop
    log := machine.log ++ backdrop.earlier }

section Parts

variable {backdrop : Backdrop} (machine : Machine)

@[simp]
theorem amid_reply (answer : Answer) :
    (machine.amid backdrop).reply answer =
      (machine.reply answer).amid backdrop := rfl

@[simp]
theorem amid_proceed :
    (machine.amid backdrop).proceed = machine.proceed.amid backdrop := rfl

@[simp]
theorem amid_push (call : Call) :
    (machine.amid backdrop).push call = (machine.push call).amid backdrop := rfl

@[simp]
theorem amid_become (call : Call) :
    (machine.amid backdrop).become call =
      (machine.become call).amid backdrop := rfl

@[simp]
theorem amid_pop :
    (machine.amid backdrop).pop = machine.pop.amid backdrop := rfl

@[simp]
theorem amid_setPool (id : Nat) (pool : Option Pool) :
    (machine.amid backdrop).setPool id pool =
      (machine.setPool id pool).amid backdrop := rfl

@[simp]
theorem amid_setDispatcher (id : Nat) (dispatcher : Option Lifecycle.Dispatcher) :
    (machine.amid backdrop).setDispatcher id dispatcher =
      (machine.setDispatcher id dispatcher).amid backdrop := rfl

@[simp]
theorem amid_storeEntry (name : Name) (entry : Entry) :
    (machine.amid backdrop).storeEntry name entry =
      (machine.storeEntry name entry).amid backdrop := rfl

@[simp]
theorem amid_discardBatch (batch : Lifecycle.RetireBatch) :
    (machine.amid backdrop).discardBatch batch =
      (machine.discardBatch batch).amid backdrop := rfl

@[simp]
theorem amid_diagnose (diagnostic : Diagnostic) :
    (machine.amid backdrop).diagnose diagnostic =
      (machine.diagnose diagnostic).amid backdrop := by
  unfold diagnose
  rw [apply_ite (amid backdrop)]
  rfl

@[simp]
theorem amid_diagnoseAll (diagnostics : List Diagnostic) :
    (machine.amid backdrop).diagnoseAll diagnostics =
      (machine.diagnoseAll diagnostics).amid backdrop := by
  unfold diagnoseAll
  induction diagnostics generalizing machine with
  | nil => rfl
  | cons diagnostic diagnostics ih => rw [List.foldl_cons, List.foldl_cons, amid_diagnose, ih]

@[simp]
theorem amid_enter (span : Span) :
    (machine.amid backdrop).enter span = (machine.enter span).amid backdrop := by
  unfold enter
  rw [apply_ite (amid backdrop)]
  rfl

@[simp]
theorem amid_leave (span : Span) :
    (machine.amid backdrop).leave span = (machine.leave span).amid backdrop := by
  unfold leave
  rw [apply_ite (amid backdrop)]
  rfl

@[simp]
theorem amid_finish (ending : Except Panic Answer) :
    (machine.amid backdrop).finish ending =
      (machine.finish ending).amid backdrop := by
  cases ending <;> rfl

@[simp]
theorem amid_tell (id : ObjectId) (event : Lifecycle.Event) :
    (machine.amid backdrop).tell id event =
      (machine.tell id event).amid backdrop := by
  dsimp only [tell, amid, World.amid]
  cases machine.world.objects.get? id with
  | none => rfl
  | some object =>
    dsimp only
    split <;> rfl

@[simp]
theorem amid_tellState (id : ObjectId) (state : Lifecycle.State) :
    (machine.amid backdrop).tellState id state =
      (machine.tellState id state).amid backdrop := by
  unfold tellState
  split
  · exact machine.amid_tell id _
  · rfl

private theorem amid_advance (id : ObjectId) (target : Lifecycle.State)
    {refused other : Lifecycle.IllegalMove → Machine} {allowed : Machine → Machine}
    (refusedSame : ∀ illegal, other illegal = (refused illegal).amid backdrop)
    (allowedSame : ∀ moved : Machine,
      allowed (moved.amid backdrop) = (allowed moved).amid backdrop) :
    (machine.amid backdrop).advance id target other allowed =
      (machine.advance id target refused allowed).amid backdrop := by
  have same : (machine.amid backdrop).world.objects = machine.world.objects := rfl
  unfold advance
  rw [same]
  cases machine.world.objects.advance id target with
  | error illegal => exact refusedSame illegal
  | ok objects =>
    have moved : (machine.amid backdrop).withWorld
        { (machine.amid backdrop).world with objects } =
          (machine.withWorld { machine.world with objects }).amid backdrop := rfl
    dsimp only
    rw [moved, allowedSame, amid_tellState]

private theorem amid_discardPool (pool : Pool) :
    (machine.amid backdrop).discardPool pool =
      (machine.discardPool pool).amid backdrop := by
  unfold discardPool diagnoseDisposal
  rw [amid_diagnoseAll]
  rfl

@[simp]
theorem amid_storeBatch (name : Name) (batch : Lifecycle.RetireBatch) :
    (machine.amid backdrop).storeBatch name batch =
      (machine.storeBatch name batch).amid backdrop := by
  dsimp only [storeBatch, amid, World.amid]
  cases machine.world.batches.get? name <;> rfl

@[simp]
theorem amid_release (id : Nat) (ending : Except Panic Answer) :
    (machine.amid backdrop).release id ending =
      (machine.release id ending).amid backdrop := by
  have held : (machine.amid backdrop).isHeld id = machine.isHeld id := rfl
  have named : (machine.amid backdrop).world.poolNames = machine.world.poolNames := rfl
  have stored : (machine.amid backdrop).world.pools = machine.world.pools := rfl
  unfold release
  rw [held, named, stored]
  split
  · exact machine.amid_finish ending
  · cases (machine.world.pools[id]?).join with
    | none => exact machine.amid_finish ending
    | some pool =>
      cases ending with
      | ok answer => exact amid_discardPool ((machine.setPool id none).push (.replying answer)) pool
      | error reason =>
        exact amid_discardPool ((machine.setPool id none).push (.unwinding reason)) pool

@[simp]
theorem amid_giveBack (id : Nat) (pool : Pool) (ending : Except Panic Answer) :
    (machine.amid backdrop).giveBack id pool ending =
      (machine.giveBack id pool ending).amid backdrop :=
  amid_release (machine.setPool id (some pool)) id ending

/-- Objects come about amid other schedulers and clocks as they would anyway. -/
private theorem amid_resolveObjects (world : World) (names : List Name) :
    (world.amid backdrop).resolveObjects names =
      ((world.resolveObjects names).1, (world.resolveObjects names).2.amid backdrop) := by
  induction names generalizing world with
  | nil => rfl
  | cons name names ih =>
    have same : (world.amid backdrop).objectNames = world.objectNames := rfl
    dsimp only [World.resolveObjects]
    rw [same]
    cases world.objectNames.get? name with
    | some id =>
      exact congrArg (fun found : List ObjectId × World => (id :: found.1, found.2)) (ih world)
    | none =>
      let created := world.objects.create (Observer.recording name)
      exact congrArg (fun found : List ObjectId × World => (created.1 :: found.1, found.2))
        (ih { world with
          objects := created.2, objectNames := world.objectNames.set name created.1 })

@[simp]
theorem amid_storePlaced (label : String)
    (placed : List (Relocation.PlacementTicket × Entry)) :
    (machine.amid backdrop).storePlaced label placed =
      (machine.storePlaced label placed).amid backdrop := by
  unfold storePlaced
  induction placed generalizing machine with
  | nil => rfl
  | cons pair placed ih =>
    rw [List.foldl_cons, List.foldl_cons, ← ih]
    rfl

end Parts

/-! ### Commands -/

section Commands

variable {backdrop : Backdrop} {machine : Machine} {name : Name}

private theorem amid_onQueue
    {work other : Nat → Awaiting.Queue Waiter Awaiting.Delivery → Machine}
    (same : ∀ id queue, other id queue = (work id queue).amid backdrop) :
    (machine.amid backdrop).onQueue name other =
      (machine.onQueue name work).amid backdrop := by
  dsimp only [onQueue, amid, World.amid]
  cases machine.world.queueNames.get? name with
  | none => rfl
  | some id =>
    dsimp only
    cases machine.world.queues[id]? with
    | none => rfl
    | some queue => exact same id queue

private theorem amid_onDispatcher {work other : Nat → Lifecycle.Dispatcher → Machine}
    (same : ∀ id dispatcher, other id dispatcher = (work id dispatcher).amid backdrop) :
    (machine.amid backdrop).onDispatcher name other =
      (machine.onDispatcher name work).amid backdrop := by
  dsimp only [onDispatcher, amid, World.amid]
  cases machine.world.dispatcherNames.get? name with
  | none => rfl
  | some id =>
    dsimp only
    cases (machine.world.dispatchers[id]?).join with
    | none => rfl
    | some dispatcher => exact same id dispatcher

private theorem amid_onPool {work other : Nat → Pool → Machine}
    (same : ∀ id pool, other id pool = (work id pool).amid backdrop) :
    (machine.amid backdrop).onPool name other =
      (machine.onPool name work).amid backdrop := by
  dsimp only [onPool, amid, World.amid]
  cases machine.world.poolNames.get? name with
  | none => rfl
  | some id =>
    dsimp only
    cases (machine.world.pools[id]?).join with
    | none => rfl
    | some pool => exact same id pool

private theorem amid_onObject {work other : ObjectId → Machine}
    (same : ∀ id, other id = (work id).amid backdrop) :
    (machine.amid backdrop).onObject name other =
      (machine.onObject name work).amid backdrop := by
  dsimp only [onObject, amid, World.amid]
  cases machine.world.objectNames.get? name with
  | none => rfl
  | some id => exact same id

private theorem amid_onBatch {work other : Lifecycle.RetireBatch → Machine}
    (same : ∀ batch, other batch = (work batch).amid backdrop) :
    (machine.amid backdrop).onBatch name other =
      (machine.onBatch name work).amid backdrop := by
  dsimp only [onBatch, amid, World.amid]
  cases machine.world.batches.get? name with
  | none => rfl
  | some batch => exact same batch

private theorem amid_onEntry {work other : Entry → Machine}
    (same : ∀ entry, other entry = (work entry).amid backdrop) :
    (machine.amid backdrop).onEntry name other =
      (machine.onEntry name work).amid backdrop := by
  dsimp only [onEntry, amid, World.amid]
  cases machine.world.entries.get? name with
  | none => rfl
  | some entry => exact same entry

private theorem amid_onHasher {work other : Position.Hasher → Machine}
    (same : ∀ hasher, other hasher = (work hasher).amid backdrop) :
    (machine.amid backdrop).onHasher name other =
      (machine.onHasher name work).amid backdrop := by
  dsimp only [onHasher, amid, World.amid]
  cases machine.world.hashers.get? name with
  | none => rfl
  | some hasher => exact same hasher

private theorem amid_onArena {work other : Arena Int → Machine}
    (same : ∀ arena, other arena = (work arena).amid backdrop) :
    (machine.amid backdrop).onArena name other =
      (machine.onArena name work).amid backdrop := by
  dsimp only [onArena, amid, World.amid]
  cases machine.world.arenas.get? name with
  | none => rfl
  | some arena => exact same arena

private theorem amid_atPlace {place : Place} {work other : Position.Hash → Machine}
    (same : ∀ position, other position = (work position).amid backdrop) :
    (machine.amid backdrop).atPlace place other =
      (machine.atPlace place work).amid backdrop := by
  cases place with
  | fixed position => exact same position
  | ofHasher name =>
    dsimp only [atPlace, amid, World.amid]
    cases machine.world.hashers.get? name with
    | none => rfl
    | some hasher => exact same hasher.current

private theorem amid_executeQueue (command : QueueCommand Body) :
    (machine.amid backdrop).executeQueue command =
      (machine.executeQueue command).amid backdrop := by
  cases command with
  | create => rfl
  | share | forget | describe | flush | close => exact amid_onQueue fun _ _ => rfl
  | register name item handle resumed refused first =>
    refine amid_onQueue fun id queue => ?_
    cases queue.register ⟨item, resumed, refused⟩ with
    | error closed => rfl
    | ok registration =>
      dsimp only
      split <;> rfl

private theorem amid_executeObject (command : ObjectCommand Body) :
    (machine.amid backdrop).executeObject command =
      (machine.executeObject command).amid backdrop := by
  cases command with
  | create => rfl
  | share | describe => exact amid_onObject fun _ => rfl
  | compare name other =>
    refine amid_onObject fun id => ?_
    have same : (machine.amid backdrop).world.objectNames = machine.world.objectNames :=
      rfl
    rw [same]
    cases machine.world.objectNames.get? other <;> rfl
  | advance =>
    exact amid_onObject fun id => machine.amid_advance id _ (fun _ => rfl) fun _ => rfl
  | poke name event =>
    refine amid_onObject fun id => ?_
    cases event with
    | none => rfl
    | some event => exact amid_tell (machine.push (.replying .ok)) id event

private theorem amid_executeDispatcher (command : DispatcherCommand) :
    (machine.amid backdrop).executeDispatcher command =
      (machine.executeDispatcher command).amid backdrop := by
  cases command with
  | create => rfl
  | dispatch | describe => exact amid_onDispatcher fun _ _ => rfl
  | record name event objects =>
    refine amid_onDispatcher fun id dispatcher => ?_
    have resolved : (machine.world.amid backdrop).resolveObjects objects = _ :=
      amid_resolveObjects machine.world objects
    have same : (machine.amid backdrop).world = machine.world.amid backdrop := rfl
    dsimp only
    rw [same, resolved]
    rfl
  | takeRetirements =>
    exact amid_onDispatcher fun id dispatcher => amid_storeBatch (machine.setDispatcher id _) _ _

private theorem amid_executeBatch (command : BatchCommand) :
    (machine.amid backdrop).executeBatch command =
      (machine.executeBatch command).amid backdrop := by
  cases command with
  | create name => exact machine.amid_storeBatch name {}
  | extend name source =>
    dsimp only [executeBatch, mergeBatch, removeBatch, withWorld, amid, World.amid]
    cases machine.world.batches.get? source with
    | none => rfl
    | some batch =>
      dsimp only
      cases (machine.world.batches.erase source).get? name <;> rfl
  | dispatch | discard | describe => exact amid_onBatch fun _ => rfl

private theorem amid_instantiate (id : Nat) (pool : Pool) (entryName : Name)
    (descriptor : DescriptorId) (handle : String) (parameter : Int) (position : Position.Hash)
    (objects : List Name) :
    (machine.amid backdrop).instantiate id pool entryName descriptor handle parameter
        position objects =
      (machine.instantiate id pool entryName descriptor handle parameter position
        objects).amid backdrop := by
  have resolved : (machine.amid backdrop).world.resolveObjects objects = _ :=
    amid_resolveObjects machine.world objects
  have given (world : World) : (machine.amid backdrop).withWorld
      (world.amid backdrop) = (machine.withWorld world).amid backdrop := rfl
  simp only [instantiate, resolved, given, amid_setPool, amid_diagnose, amid_storeEntry, amid_reply]

private theorem amid_depart (id : Nat) (pool : Pool) (entryName : Name)
    (descriptor : Option DescriptorId) (entry : Entry) :
    (machine.amid backdrop).depart id pool entryName descriptor entry =
      (machine.depart id pool entryName descriptor entry).amid backdrop := by
  let erased := machine.withWorld
    { machine.world with entries := machine.world.entries.erase entryName }
  unfold depart
  cases pool.reportDeparture (descriptor.getD entry.descriptor) entry with
  | error misreport => rfl
  | ok later =>
    exact congrArg (·.reply .ok) (amid_diagnose (erased.setPool id (some later)) entry.departure)

private theorem amid_claim (id : Nat) (pool : Pool) (descriptor : DescriptorId) (entryName : Name) :
    (machine.amid backdrop).claim id pool descriptor entryName =
      (machine.claim id pool descriptor entryName).amid backdrop := by
  unfold claim
  cases pool.claim descriptor with
  | none => rfl
  | some claimed =>
    simp only [amid_setPool, amid_diagnose, amid_storeEntry]
    rfl

private theorem amid_place (id : Nat) (pool : Pool) (descriptor : DescriptorId) (parameter : Int)
    (position : Position.Hash) (entryName : Name) (described : Bool) :
    (machine.amid backdrop).place id pool descriptor parameter position entryName
        described =
      (machine.place id pool descriptor parameter position entryName described).amid backdrop := by
  simp only [place, amid_setPool, amid_diagnose]
  split <;> rfl

private theorem amid_executePool (command : PoolCommand Body) :
    (machine.amid backdrop).executePool command =
      (machine.executePool command).amid backdrop := by
  cases command with
  | create name config =>
    have same : (machine.amid backdrop).world.poolNames = machine.world.poolNames := rfl
    simp only [executePool, createPool, same]
    cases machine.world.poolNames.get? name with
    | none => rfl
    | some former =>
      exact amid_release (machine.withWorld { machine.world with
        pools := machine.world.pools.push (some { config })
        poolNames := machine.world.poolNames.set name machine.world.pools.size }) former _
  | discard name =>
    refine amid_onPool fun id pool => ?_
    have held : (machine.amid backdrop).isHeld id = machine.isHeld id := rfl
    rw [held]
    split
    · rfl
    · exact amid_release (machine.withWorld { machine.world with
        poolNames := machine.world.poolNames.erase name }) id _
  | describe | query | dispatch => exact amid_onPool fun _ _ => rfl
  | instantiate =>
    exact amid_onPool fun _ _ => amid_atPlace fun _ => amid_instantiate ..
  | deactivate => exact amid_onPool fun _ _ => amid_onEntry fun _ => rfl
  | depart => exact amid_onPool fun _ _ => amid_onEntry fun _ => amid_depart ..
  | claim => exact amid_onPool fun _ _ => amid_claim ..
  | place => exact amid_onPool fun _ _ => amid_atPlace fun _ => amid_place ..
  | endPass =>
    refine amid_onPool fun id pool => ?_
    simp only [amid_setPool, amid_enter, amid_push, amid_proceed]
  | takeRetirements =>
    refine amid_onPool fun id pool => ?_
    simp only [amid_setPool, amid_push, amid_storeBatch]

private theorem amid_executeEntry (command : EntryCommand) :
    (machine.amid backdrop).executeEntry command =
      (machine.executeEntry command).amid backdrop := by
  cases command <;> exact amid_onEntry fun _ => rfl

private theorem amid_executeHasher (command : HasherCommand) :
    (machine.amid backdrop).executeHasher command =
      (machine.executeHasher command).amid backdrop := by
  cases command with
  | create name perLevel root =>
    simp only [executeHasher]
    cases chosenShift perLevel <;> rfl
  | pop =>
    refine amid_onHasher fun hasher => ?_
    cases hasher.pop <;> rfl
  | copy | push | path | describe => exact amid_onHasher fun _ => rfl

private theorem amid_executeArena (command : ArenaCommand) :
    (machine.amid backdrop).executeArena command =
      (machine.executeArena command).amid backdrop := by
  cases command with
  | create => rfl
  | register | get | list | describe => exact amid_onArena fun _ => rfl

private theorem amid_execute {command : Command} (bystands : command.Bystands) :
    (machine.amid backdrop).execute command =
      (machine.execute command).amid backdrop := by
  cases command with
  | note | panic | iterate => rfl
  | inspect | scheduler | clock | handle => cases bystands
  | call script =>
    dsimp only [execute, amid, World.amid]
    cases machine.world.scripts.get? script <;> rfl
  | queue command => exact amid_executeQueue command
  | object command => exact amid_executeObject command
  | dispatcher command => exact amid_executeDispatcher command
  | batch command => exact amid_executeBatch command
  | pool command => exact amid_executePool command
  | entry command => exact amid_executeEntry command
  | hasher command => exact amid_executeHasher command
  | arena command => exact amid_executeArena command

end Commands

/-! ### Calls that go on, and panics -/

section Calls

variable {backdrop : Backdrop} (machine : Machine)

private theorem amid_continueQueue (id : Nat) :
    (machine.amid backdrop).continueQueue id =
      (machine.continueQueue id).amid backdrop := by
  dsimp only [continueQueue, amid, World.amid]
  cases machine.world.queues[id]? with
  | none => rfl
  | some queue =>
    dsimp only
    split <;> rfl

private theorem amid_finishPass (call : PassCall) (pass : Relocation.Pass String Int)
    (disposed : List String) (drain : Lifecycle.Drain) :
    (machine.amid backdrop).finishPass call pass disposed drain =
      (machine.finishPass call pass disposed drain).amid backdrop := by
  have viewed (world : World) (outcome : Relocation.PassOutcome String Int) :
      viewOutcome (world.amid backdrop) outcome = viewOutcome world outcome := rfl
  have reached (other : Machine) :
      (other.amid backdrop).world = other.world.amid backdrop := rfl
  simp only [finishPass, amid_diagnose, amid_leave, amid_storePlaced, amid_pop, amid_giveBack,
    reached, viewed]

private theorem amid_finishDrain (owner : DrainOwner) (drain : Lifecycle.Drain) :
    (machine.amid backdrop).finishDrain owner drain =
      (machine.finishDrain owner drain).amid backdrop := by
  cases owner with
  | dispatcher | discardedPool =>
    simp only [finishDrain, amid_diagnoseAll, amid_setDispatcher, amid_pop, amid_reply,
      amid_discardBatch]
  | pool => simp only [finishDrain, amid_diagnoseAll, amid_pop, amid_giveBack]
  | pass => simp only [finishDrain, amid_diagnoseAll, amid_finishPass]

private theorem amid_continueDrain (owner : DrainOwner) (drain : Lifecycle.Drain) :
    (machine.amid backdrop).continueDrain owner drain =
      (machine.continueDrain owner drain).amid backdrop := by
  unfold continueDrain
  cases drain.step with
  | attempt object target drain =>
    exact machine.amid_advance object target (fun _ => rfl) fun _ => rfl
  | nextList drain => rfl
  | finished => exact machine.amid_finishDrain owner drain

private theorem amid_continueRetirement (delivery : Lifecycle.Retirement) (counted : Bool) :
    (machine.amid backdrop).continueRetirement delivery counted =
      (machine.continueRetirement delivery counted).amid backdrop := by
  unfold continueRetirement
  cases delivery.next? with
  | none => cases counted <;> rfl
  | some next =>
    refine machine.amid_advance next.1 .retired (fun illegal => ?_) fun _ => rfl
    simp only [amid_become, amid_diagnose, amid_proceed]

private theorem amid_continueMatching (call : PassCall) (pass : Relocation.Pass String Int) :
    (machine.amid backdrop).continueMatching call pass =
      (machine.continueMatching call pass).amid backdrop := by
  unfold continueMatching
  cases pass.step with
  | matched _ claimed later => simp only [amid_become, amid_diagnose, amid_proceed]
  | unmatched request later => cases call.insertions <;> rfl
  | settled => simp only [diagnoseDisposal, amid_diagnoseAll, amid_become, amid_proceed]

private theorem amid_continueInserting (call : PassCall) (pass : Relocation.Pass String Int)
    (request : Relocation.Request Int) (objects : List Name) :
    (machine.amid backdrop).continueInserting call pass request objects =
      (machine.continueInserting call pass request objects).amid backdrop := by
  have resolved : (machine.amid backdrop).world.resolveObjects objects = _ :=
    amid_resolveObjects machine.world objects
  have given (world : World) : (machine.amid backdrop).withWorld
      (world.amid backdrop) = (machine.withWorld world).amid backdrop := rfl
  simp only [continueInserting, resolved, given, amid_become, amid_diagnose, amid_proceed]

private theorem amid_resume {call : Call} (bystands : call.Bystands) :
    (machine.amid backdrop).resume call =
      (machine.resume call).amid backdrop := by
  cases call with
  | body rest => cases rest <;> rfl
  | iterating left => cases left <;> rfl
  | replying | unwinding => rfl
  | holding => exact machine.pop.amid_release _ _
  | registering handle name => cases name <;> rfl
  | queue => exact machine.amid_continueQueue _
  | scheduler | clock => cases bystands
  | draining => exact machine.amid_continueDrain _ _
  | retiring => exact machine.amid_continueRetirement _ _
  | matching => exact machine.amid_continueMatching _ _
  | inserting => exact machine.amid_continueInserting _ _ _ _

private theorem amid_unwindMatching (call : PassCall) (pass : Relocation.Pass String Int)
    (reason : Panic) :
    (machine.amid backdrop).unwindMatching call pass reason =
      (machine.unwindMatching call pass reason).amid backdrop := by
  simp only [unwindMatching, amid_leave, amid_pop, amid_giveBack]

private theorem amid_unwindCall {call : Call} (bystands : call.Bystands) (reason : Panic) :
    (machine.amid backdrop).unwindCall reason call =
      (machine.unwindCall reason call).amid backdrop := by
  cases call with
  | body | iterating | replying | unwinding | registering | retiring => rfl
  | holding => exact machine.pop.amid_release _ _
  | queue id =>
    dsimp only [unwindCall, unwindQueue, amid, World.amid]
    cases machine.world.queues[id]? <;> rfl
  | scheduler | clock => cases bystands
  | draining owner drain =>
    cases owner with
    | dispatcher | discardedPool => rfl
    | pool => exact machine.pop.amid_giveBack _ _ _
    | pass => simp only [unwindCall, unwindDrain, amid_leave, amid_pop, amid_giveBack]
  | matching | inserting => exact machine.amid_unwindMatching _ _ reason

end Calls

/-- Machines whose next step has nothing to do with schedulers and clocks. -/
def Bystands (machine : Machine) : Prop :=
  match machine.control, machine.stack with
  | .execute command, _ => command.Bystands
  | .proceed, call :: _ | .unwind _, call :: _ => call.Bystands
  | _, _ => True

variable {backdrop : Backdrop} {machine : Machine}

/-- A step that has nothing to do with schedulers and clocks is the same amid others. -/
theorem amid_step (bystands : machine.Bystands) :
    (machine.amid backdrop).step = machine.step.amid backdrop := by
  rcases machine with ⟨world, listener, log, stack, control⟩
  cases control with
  | execute command => exact amid_execute bystands
  | answer answer =>
    cases stack with
    | nil => rfl
    | cons call calls => cases call <;> rfl
  | proceed =>
    cases stack with
    | nil => rfl
    | cons call calls => exact amid_resume _ bystands
  | unwind reason =>
    cases stack with
    | nil => rfl
    | cons call calls => exact amid_unwindCall _ bystands reason

/-- Amid what is there already a machine is the same. -/
private theorem amid_self
    (schedulers : backdrop.schedulers machine.world.schedulers = machine.world.schedulers)
    (clocks : backdrop.clocks machine.world.clocks = machine.world.clocks)
    (earlier : backdrop.earlier = []) : machine.amid backdrop = machine := by
  rw [amid, World.amid, schedulers, clocks, earlier, List.append_nil]

/-- Such a step leaves the schedulers as they are. -/
theorem schedulers_step (bystands : machine.Bystands) :
    machine.step.world.schedulers = machine.world.schedulers := by
  let backdrop : Backdrop := ⟨fun _ => machine.world.schedulers, fun clocks => clocks, []⟩
  have same : (machine.amid backdrop).step = machine.step.amid backdrop := amid_step bystands
  rw [@amid_self backdrop machine rfl rfl rfl] at same
  exact congrArg (·.world.schedulers) same

/-- Such a step leaves the clocks as they are. -/
theorem clocks_step (bystands : machine.Bystands) :
    machine.step.world.clocks = machine.world.clocks := by
  let backdrop : Backdrop := ⟨fun schedulers => schedulers, fun _ => machine.world.clocks, []⟩
  have same : (machine.amid backdrop).step = machine.step.amid backdrop := amid_step bystands
  rw [@amid_self backdrop machine rfl rfl rfl] at same
  exact congrArg (·.world.clocks) same

end Machine

end LiveTree.Session
