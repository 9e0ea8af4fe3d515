import LiveTree.Proofs.Session.Course

/-! What steps are made of. Whatever a step does, it does by a few parts: it changes the world,
logs, starts calls, and ends the innermost call at most once. So what runs on top of a call never
reaches below it, and none but a few commands have to do with the names of handles, with guards,
and with what handles run. The parts are found here for the whole machine, family by family;
everything else is read off them. -/
namespace LiveTree.Session

open Lifecycle (ObjectId)

/-- The handle that an event shows to have been cancelled. -/
def Event.cancelled? : Event → Option Name
  | cancelled handle => some handle
  | _ => none

/-- A world with the same handles, held in the same way. -/
structure World.SameHandles (world after : World) : Prop where
  handles : after.handles = world.handles
  names : after.handleNames = world.handleNames
  guards : after.guards = world.guards

/-- Where the call stands that stores the handle of a registration. -/
def Call.registers : Call → Prop
  | registering _ _ => True
  | _ => False

namespace Machine

/-- From one machine to another by the parts of a step that is not about handles, and whether the
innermost call may have ended. -/
inductive Leads (machine : Machine) : Bool → Machine → Prop
  | start : Leads machine false machine
  | world {ended : Bool} {after : Machine} {world : World} (leads : Leads machine ended after)
      (same : after.world.SameHandles world) : Leads machine ended (after.withWorld world)
  | control {ended : Bool} {after : Machine} {control : Control}
      (leads : Leads machine ended after) : Leads machine ended { after with control }
  | report {ended : Bool} {after : Machine} {event : Event} (leads : Leads machine ended after)
      (plain : event.cancelled? = none) : Leads machine ended (after.report event)
  | push {ended : Bool} {after : Machine} {call : Call} (leads : Leads machine ended after)
      (plain : ¬ call.registers) : Leads machine ended (after.push call)
  | keepHandle {ended : Bool} {after : Machine} {source : QueueRef} {ticket : Awaiting.Ticket}
      {name : Option Name} (leads : Leads machine ended after) :
      Leads machine ended (after.keepHandle source ticket name)
  | stays {after : Machine} (leads : Leads machine false after) : Leads machine true after
  | pop {after : Machine} (leads : Leads machine false after) : Leads machine true after.pop

variable {start machine : Machine} {ended : Bool}

/-! ### Composite parts -/

private theorem Leads.reply {answer : Answer} (leads : Leads start ended machine) :
    Leads start ended (machine.reply answer) :=
  leads.control

private theorem Leads.proceed (leads : Leads start ended machine) :
    Leads start ended machine.proceed := leads.control

private theorem Leads.finish {ending : Except Panic Answer} (leads : Leads start ended machine) :
    Leads start ended (machine.finish ending) := by
  cases ending <;> exact leads.control

theorem Leads.run {body : Body} (leads : Leads start ended machine) :
    Leads start ended (machine.run body) :=
  (leads.push id).proceed

private theorem Leads.callBack {event : Event} {body : Body} (leads : Leads start ended machine)
    (plain : event.cancelled? = none) :
    Leads start ended (machine.callBack event body) :=
  (leads.report plain).run

private theorem Leads.diagnose {diagnostic : Diagnostic} (leads : Leads start ended machine) :
    Leads start ended (machine.diagnose diagnostic) := by
  unfold Machine.diagnose
  split
  · exact leads.report rfl
  · exact leads

private theorem Leads.diagnoseAll {diagnostics : List Diagnostic}
    (leads : Leads start ended machine) : Leads start ended (machine.diagnoseAll diagnostics) := by
  unfold Machine.diagnoseAll
  induction diagnostics generalizing machine with
  | nil => exact leads
  | cons diagnostic diagnostics ih => exact ih leads.diagnose

private theorem Leads.enter {span : Span} (leads : Leads start ended machine) :
    Leads start ended (machine.enter span) := by
  unfold Machine.enter
  split
  · exact leads.report rfl
  · exact leads

private theorem Leads.leave {span : Span} (leads : Leads start ended machine) :
    Leads start ended (machine.leave span) := by
  unfold Machine.leave
  split
  · exact leads.report rfl
  · exact leads

private theorem Leads.tell {id : ObjectId} {event : Lifecycle.Event}
    (leads : Leads start ended machine) : Leads start ended (machine.tell id event) := by
  unfold Machine.tell
  split
  · exact leads.control
  · dsimp only
    split
    · exact leads.control
    · exact leads.callBack rfl

theorem Leads.tellState {id : ObjectId} {state : Lifecycle.State} (leads :
    Leads start ended machine) :
    Leads start ended (machine.tellState id state) := by
  unfold Machine.tellState
  split
  · exact leads.tell
  · exact leads.control

private theorem Leads.advance {later : Bool} {id : ObjectId} {target : Lifecycle.State}
    {refused : Lifecycle.IllegalMove → Machine} {allowed : Machine → Machine}
    (leads : Leads start ended machine)
    (refuses : ∀ illegal, Leads start later (refused illegal))
    (allows : ∀ moved : Machine, Leads start ended moved → Leads start later (allowed moved)) :
    Leads start later (machine.advance id target refused allowed) := by
  unfold Machine.advance
  split
  · exact refuses _
  · exact .tellState (allows _ (.world leads ⟨rfl, rfl, rfl⟩))

private theorem Leads.discardBatch {batch : Lifecycle.RetireBatch}
    (leads : Leads start ended machine) :
    Leads start ended (machine.discardBatch batch) := (leads.push id).proceed

private theorem Leads.discardPool {pool : Pool} (leads : Leads start ended machine) :
    Leads start ended (machine.discardPool pool) :=
  (leads.diagnoseAll.push id).proceed

private theorem Leads.storeBatch {name : Name} {batch : Lifecycle.RetireBatch} (leads :
    Leads start ended machine) :
    Leads start ended (machine.storeBatch name batch) := by
  unfold Machine.storeBatch
  dsimp only
  split
  · exact .discardBatch (.push (.world leads ⟨rfl, rfl, rfl⟩) id)
  · exact .reply (.world leads ⟨rfl, rfl, rfl⟩)

private theorem Leads.setPool {id : Nat} {pool : Option Pool} (leads : Leads start ended machine) :
    Leads start ended (machine.setPool id pool) := leads.world ⟨rfl, rfl, rfl⟩

private theorem Leads.release {id : Nat} {ending : Except Panic Answer} (leads :
    Leads start ended machine) :
    Leads start ended (machine.release id ending) := by
  unfold Machine.release
  split
  · exact leads.finish
  · split
    · exact leads.finish
    · refine (leads.setPool.push ?_).discardPool
      cases ending <;> exact not_false

private theorem Leads.giveBack {id : Nat} {pool : Pool} {ending : Except Panic Answer} (leads :
    Leads start ended machine) :
    Leads start ended (machine.giveBack id pool ending) := leads.setPool.release

private theorem Leads.storeEntry {name : Name} {entry : Entry} (leads : Leads start ended machine) :
    Leads start ended (machine.storeEntry name entry) := leads.world ⟨rfl, rfl, rfl⟩

private theorem Leads.storePlaced {label : String}
    {placed : List (Relocation.PlacementTicket × Entry)} (leads : Leads start ended machine) :
    Leads start ended (machine.storePlaced label placed) := by
  unfold Machine.storePlaced
  induction placed generalizing machine with
  | nil => exact leads
  | cons pair placed ih => exact ih leads.storeEntry

private theorem Leads.resolveObjects {names : List Name} (leads : Leads start ended machine) :
    Leads start ended (machine.withWorld (machine.world.resolveObjects names).2) := by
  obtain ⟨objects, objectNames, -, same⟩ := machine.world.resolveObjects_cases names
  rw [same]
  exact leads.world ⟨rfl, rfl, rfl⟩

private theorem Leads.deliver {action : Action} {outcome : Frame.Outcome} (leads :
    Leads start ended machine) :
    Leads start ended (machine.deliver action outcome) := by
  unfold Machine.deliver
  split <;> split <;> first | exact leads.control | exact leads.callBack rfl

/-! ### Commands -/

section Commands

variable {name : Name} (leads : Leads start ended machine)
include leads

private theorem Leads.onQueue {work : Nat → Awaiting.Queue Waiter Awaiting.Delivery → Machine}
    (works : ∀ id queue, Leads start ended (work id queue)) :
    Leads start ended (machine.onQueue name work) :=
  of_eq_true (onQueue_eq (eq_true leads.control) fun id queue => eq_true (works id queue))

private theorem Leads.onScheduler {work : Nat → HostedScheduler → Machine}
    (works : ∀ id hosted, Leads start ended (work id hosted)) :
    Leads start ended (machine.onScheduler name work) :=
  of_eq_true (onScheduler_eq (eq_true leads.control) fun id hosted => eq_true (works id hosted))

private theorem Leads.onClock {work : Nat → HostedClock → Machine}
    (works : ∀ id hosted, Leads start ended (work id hosted)) :
    Leads start ended (machine.onClock name work) :=
  of_eq_true (onClock_eq (eq_true leads.control) fun id hosted => eq_true (works id hosted))

private theorem Leads.onObject {work : ObjectId → Machine}
    (works : ∀ id, Leads start ended (work id)) :
    Leads start ended (machine.onObject name work) :=
  of_eq_true (onObject_eq (eq_true leads.control) fun id => eq_true (works id))

private theorem Leads.onDispatcher {work : Nat → Lifecycle.Dispatcher → Machine}
    (works : ∀ id dispatcher, Leads start ended (work id dispatcher)) :
    Leads start ended (machine.onDispatcher name work) :=
  of_eq_true (onDispatcher_eq (eq_true leads.control) (eq_true leads.control)
    fun id dispatcher => eq_true (works id dispatcher))

private theorem Leads.onBatch {work : Lifecycle.RetireBatch → Machine}
    (works : ∀ batch, Leads start ended (work batch)) :
    Leads start ended (machine.onBatch name work) :=
  of_eq_true (onBatch_eq (eq_true leads.control) fun batch => eq_true (works batch))

private theorem Leads.onPool {work : Nat → Pool → Machine}
    (works : ∀ id pool, Leads start ended (work id pool)) :
    Leads start ended (machine.onPool name work) :=
  of_eq_true (onPool_eq (eq_true leads.control) (eq_true leads.control)
    fun id pool => eq_true (works id pool))

private theorem Leads.onEntry {work : Entry → Machine}
    (works : ∀ entry, Leads start ended (work entry)) :
    Leads start ended (machine.onEntry name work) :=
  of_eq_true (onEntry_eq (eq_true leads.control) fun entry => eq_true (works entry))

private theorem Leads.onHasher {work : Position.Hasher → Machine}
    (works : ∀ hasher, Leads start ended (work hasher)) :
    Leads start ended (machine.onHasher name work) :=
  of_eq_true (onHasher_eq (eq_true leads.control) fun hasher => eq_true (works hasher))

private theorem Leads.onArena {work : Arena Int → Machine}
    (works : ∀ arena, Leads start ended (work arena)) :
    Leads start ended (machine.onArena name work) :=
  of_eq_true (onArena_eq (eq_true leads.control) fun arena => eq_true (works arena))

private theorem Leads.atPlace {place : Place} {work : Position.Hash → Machine}
    (works : ∀ position, Leads start ended (work position)) :
    Leads start ended (machine.atPlace place work) :=
  of_eq_true (atPlace_eq (eq_true leads.control) fun position => eq_true (works position))

private theorem Leads.executeQueue (command : QueueCommand Body) :
    Leads start ended (machine.executeQueue command) := by
  cases command with
  | create => exact .reply (.world (.world leads ⟨rfl, rfl, rfl⟩) ⟨rfl, rfl, rfl⟩)
  | share | forget => exact leads.onQueue fun _ _ => .reply (.world leads ⟨rfl, rfl, rfl⟩)
  | describe => exact leads.onQueue fun _ _ => leads.reply
  | register =>
    refine leads.onQueue fun id queue => ?_
    split
    · exact leads.reply
    · dsimp only
      split
      · exact .callBack (.keepHandle (.world leads ⟨rfl, rfl, rfl⟩)) rfl
      · exact .proceed (.keepHandle (.world leads ⟨rfl, rfl, rfl⟩))
  | flush | close =>
    exact leads.onQueue fun _ _ => .proceed (.push (.world leads ⟨rfl, rfl, rfl⟩) id)

private theorem Leads.schedule (handle : Option Name) (action : Action) :
    Leads start ended (machine.schedule name handle action) := by
  refine leads.onScheduler fun _ _ => ?_
  split
  · exact leads.reply
  · dsimp only
    split
    · exact .callBack (.keepHandle (.world leads ⟨rfl, rfl, rfl⟩)) rfl
    · exact .proceed (.keepHandle (.world leads ⟨rfl, rfl, rfl⟩))

private theorem Leads.executeScheduler (command : SchedulerCommand Body) :
    Leads start ended (machine.executeScheduler command) := by
  cases command with
  | create => exact .reply (.world (.world leads ⟨rfl, rfl, rfl⟩) ⟨rfl, rfl, rfl⟩)
  | share | startFrame =>
    exact leads.onScheduler fun _ _ => .reply (.world leads ⟨rfl, rfl, rfl⟩)
  | describe => exact leads.onScheduler fun _ _ => leads.reply
  | schedulePlain | scheduleInformed => exact leads.schedule ..
  | completeFrame =>
    refine leads.onScheduler fun _ _ => ?_
    split
    · exact .reply (.world leads ⟨rfl, rfl, rfl⟩)
    · exact .proceed (.push (.enter (.world leads ⟨rfl, rfl, rfl⟩)) id)
  | close =>
    exact leads.onScheduler fun _ _ => .proceed (.push (.world leads ⟨rfl, rfl, rfl⟩) id)

private theorem Leads.executeClock (command : ClockCommand Body) :
    Leads start ended (machine.executeClock command) := by
  cases command with
  | create => exact .reply (.world (.world leads ⟨rfl, rfl, rfl⟩) ⟨rfl, rfl, rfl⟩)
  | share => exact leads.onClock fun _ _ => .reply (.world leads ⟨rfl, rfl, rfl⟩)
  | describe => exact leads.onClock fun _ _ => leads.reply
  | register =>
    refine leads.onClock fun _ _ => ?_
    split
    · exact leads.reply
    · dsimp only
      split
      · exact .callBack (.keepHandle (.world leads ⟨rfl, rfl, rfl⟩)) rfl
      · exact .proceed (.keepHandle (.world leads ⟨rfl, rfl, rfl⟩))
  | send | close =>
    exact leads.onClock fun _ _ => .proceed (.push (.world leads ⟨rfl, rfl, rfl⟩) id)

private theorem Leads.executeObject (command : ObjectCommand Body) :
    Leads start ended (machine.executeObject command) := by
  cases command with
  | create => exact .reply (.world (.world leads ⟨rfl, rfl, rfl⟩) ⟨rfl, rfl, rfl⟩)
  | share => exact leads.onObject fun _ => .reply (.world leads ⟨rfl, rfl, rfl⟩)
  | describe => exact leads.onObject fun _ => leads.reply
  | compare =>
    refine leads.onObject fun _ => ?_
    split <;> exact leads.reply
  | advance =>
    exact leads.onObject fun _ => leads.advance (fun _ => leads.reply) fun _ moved => moved.push id
  | poke =>
    refine leads.onObject fun _ => ?_
    split
    · exact leads.reply
    · exact .tell (.push leads id)

private theorem Leads.executeDispatcher (command : DispatcherCommand) :
    Leads start ended (machine.executeDispatcher command) := by
  cases command with
  | create => exact .reply (.world leads ⟨rfl, rfl, rfl⟩)
  | record =>
    exact leads.onDispatcher fun _ _ =>
      .reply (.world leads.resolveObjects ⟨rfl, rfl, rfl⟩)
  | describe => exact leads.onDispatcher fun _ _ => leads.reply
  | dispatch =>
    exact leads.onDispatcher fun _ _ => .proceed (.push (.world leads ⟨rfl, rfl, rfl⟩) id)
  | takeRetirements =>
    exact leads.onDispatcher fun _ _ => .storeBatch (.world leads ⟨rfl, rfl, rfl⟩)

private theorem Leads.executeBatch (command : BatchCommand) :
    Leads start ended (machine.executeBatch command) := by
  cases command with
  | create => exact leads.storeBatch
  | extend name source =>
    have removed : Leads start ended (machine.removeBatch source) :=
      leads.world ⟨rfl, rfl, rfl⟩
    simp only [Machine.executeBatch, mergeBatch]
    split
    · exact leads.reply
    · split
      · exact (removed.push id).discardBatch
      · exact .reply (.world removed ⟨rfl, rfl, rfl⟩)
  | dispatch => exact leads.onBatch fun _ => .proceed (.push (.world leads ⟨rfl, rfl, rfl⟩) id)
  | discard =>
    exact leads.onBatch fun _ => .discardBatch (.push (.world leads ⟨rfl, rfl, rfl⟩) id)
  | describe => exact leads.onBatch fun _ => leads.reply

private theorem Leads.depart (id : Nat) (pool : Pool) (descriptor : Option DescriptorId)
    (entry : Entry) : Leads start ended (machine.depart id pool name descriptor entry) := by
  unfold Machine.depart
  dsimp only
  split
  · exact .control (.world leads ⟨rfl, rfl, rfl⟩)
  · exact .reply (.diagnose (.setPool (.world leads ⟨rfl, rfl, rfl⟩)))

private theorem Leads.claim (id : Nat) (pool : Pool) (descriptor : DescriptorId) :
    Leads start ended (machine.claim id pool descriptor name) := by
  unfold Machine.claim
  split
  · exact leads.reply
  · exact .reply (.storeEntry (.diagnose leads.setPool))

private theorem Leads.place (id : Nat) (pool : Pool) (descriptor : DescriptorId) (parameter : Int)
    (position : Position.Hash) (described : Bool) :
    Leads start ended (machine.place id pool descriptor parameter position name described) := by
  unfold Machine.place
  dsimp only
  split
  · exact .reply (.storeEntry leads.setPool.diagnose)
  · exact .reply leads.setPool.diagnose
  · exact .reply leads.setPool.diagnose

private theorem Leads.executePool (command : PoolCommand Body) :
    Leads start ended (machine.executePool command) := by
  cases command with
  | create =>
    simp only [Machine.executePool, createPool]
    split
    · exact .reply (.world leads ⟨rfl, rfl, rfl⟩)
    · exact .release (.world leads ⟨rfl, rfl, rfl⟩)
  | discard =>
    refine leads.onPool fun _ _ => ?_
    split
    · exact leads.reply
    · exact .release (.world leads ⟨rfl, rfl, rfl⟩)
  | describe | query => exact leads.onPool fun _ _ => leads.reply
  | instantiate =>
    exact leads.onPool fun _ _ => leads.atPlace fun _ =>
      .reply (.storeEntry (.diagnose (.setPool leads.resolveObjects)))
  | deactivate =>
    exact leads.onPool fun _ _ => leads.onEntry fun _ =>
      .reply (.storeEntry leads.setPool)
  | depart => exact leads.onPool fun _ _ => leads.onEntry fun _ => leads.depart ..
  | claim => exact leads.onPool fun _ _ => leads.claim ..
  | place => exact leads.onPool fun _ _ => leads.atPlace fun _ => leads.place ..
  | endPass => exact leads.onPool fun _ _ => .proceed (.push (.enter leads.setPool) id)
  | dispatch => exact leads.onPool fun _ _ => .proceed (.push leads.setPool id)
  | takeRetirements =>
    exact leads.onPool fun _ _ => .storeBatch (.push leads.setPool id)

private theorem Leads.executeHasher (command : HasherCommand) :
    Leads start ended (machine.executeHasher command) := by
  cases command with
  | create =>
    simp only [Machine.executeHasher]
    split
    · exact leads.reply
    · exact .reply (.world leads ⟨rfl, rfl, rfl⟩)
  | copy | push => exact leads.onHasher fun _ => .reply (.world leads ⟨rfl, rfl, rfl⟩)
  | pop =>
    refine leads.onHasher fun _ => ?_
    split
    · exact leads.reply
    · exact .reply (.world leads ⟨rfl, rfl, rfl⟩)
  | path | describe => exact leads.onHasher fun _ => leads.reply

private theorem Leads.executeArena (command : ArenaCommand) :
    Leads start ended (machine.executeArena command) := by
  cases command with
  | create => exact .reply (.world leads ⟨rfl, rfl, rfl⟩)
  | register => exact leads.onArena fun _ => .reply (.world leads ⟨rfl, rfl, rfl⟩)
  | get | list | describe => exact leads.onArena fun _ => leads.reply

private theorem Leads.execute {command : Command} (other : ∀ handle, command ≠ .handle handle) :
    Leads start ended (machine.execute command) := by
  cases command with
  | note | inspect | panic => exact leads.control
  | call script =>
    simp only [Machine.execute]
    split
    · exact leads.reply
    · exact .run (leads.push id)
  | iterate => exact .proceed (leads.push id)
  | queue command => exact leads.executeQueue command
  | scheduler command => exact leads.executeScheduler command
  | clock command => exact leads.executeClock command
  | handle command => exact absurd rfl (other command)
  | object command => exact leads.executeObject command
  | dispatcher command => exact leads.executeDispatcher command
  | batch command => exact leads.executeBatch command
  | pool command => exact leads.executePool command
  | entry command =>
    cases command with
    | setHandle | takeApart =>
      exact leads.onEntry fun _ => .reply (.world leads ⟨rfl, rfl, rfl⟩)
    | describe => exact leads.onEntry fun _ => leads.reply
  | hasher command => exact leads.executeHasher command
  | arena command => exact leads.executeArena command

end Commands

/-! ### Calls that go on, and panics -/

section Calls

variable (leads : Leads start false machine)
include leads

private theorem Leads.become {call : Call} (plain : ¬ call.registers) :
    Leads start true (machine.become call) := leads.pop.push plain

private theorem Leads.continueQueue (id : Nat) : Leads start true (machine.continueQueue id) := by
  unfold Machine.continueQueue
  split
  · exact leads.pop.reply
  · split
    · exact .callBack (.stays (.world leads ⟨rfl, rfl, rfl⟩)) rfl
    · exact .callBack (.stays (.world leads ⟨rfl, rfl, rfl⟩)) rfl
    · exact .reply (.pop (.world leads ⟨rfl, rfl, rfl⟩))
    · exact leads.pop.reply

private theorem Leads.continueScheduler (id : Nat) :
    Leads start true (machine.continueScheduler id) := by
  unfold Machine.continueScheduler
  split
  · exact leads.pop.reply
  · split
    · exact .deliver (.stays (.world leads ⟨rfl, rfl, rfl⟩))
    · exact .reply (.pop (.leave (.diagnoseAll (.world leads ⟨rfl, rfl, rfl⟩))))
    · exact .reply (.pop (.diagnose (.world leads ⟨rfl, rfl, rfl⟩)))
    · exact leads.pop.reply

private theorem Leads.continueClock (id : Nat) : Leads start true (machine.continueClock id) := by
  unfold Machine.continueClock
  split
  · exact leads.pop.reply
  · split
    · exact .callBack (.stays (.world leads ⟨rfl, rfl, rfl⟩)) rfl
    · exact .callBack (.stays (.world leads ⟨rfl, rfl, rfl⟩)) rfl
    · unfold diagnoseTick
      split <;> exact .reply (.pop (.diagnose (.world leads ⟨rfl, rfl, rfl⟩)))
    · exact leads.pop.reply

private theorem Leads.finishPass (call : PassCall) (pass : Relocation.Pass String Int)
    (disposed : List String) (drain : Lifecycle.Drain) :
    Leads start true (machine.finishPass call pass disposed drain) :=
  .giveBack (.pop (.storePlaced (.storePlaced (leads.diagnose.leave))))

private theorem Leads.continueDrain (owner : DrainOwner) (drain : Lifecycle.Drain) :
    Leads start true (machine.continueDrain owner drain) := by
  unfold Machine.continueDrain
  split
  · exact leads.advance (fun _ => (leads.become id).proceed) fun _ moved => moved.become id
  · exact (leads.become id).proceed
  · have told : Leads start false (machine.diagnoseAll drain.report.diagnostics) :=
      leads.diagnoseAll
    cases owner with
    | dispatcher => exact .reply (.pop (.world told ⟨rfl, rfl, rfl⟩))
    | pool => exact told.pop.giveBack
    | pass => exact told.finishPass ..
    | discardedPool => exact told.pop.discardBatch

private theorem Leads.continueRetirement (delivery : Lifecycle.Retirement) (counted : Bool) :
    Leads start true (machine.continueRetirement delivery counted) := by
  unfold Machine.continueRetirement
  split
  · split
    · exact leads.pop.reply
    · exact leads.pop.proceed
  · exact leads.advance (fun _ => ((leads.become id).diagnose).proceed)
      fun _ moved => moved.become id

private theorem Leads.continueMatching (call : PassCall) (pass : Relocation.Pass String Int) :
    Leads start true (machine.continueMatching call pass) := by
  unfold Machine.continueMatching
  split
  · exact ((leads.become id).diagnose).proceed
  · split
    · exact (leads.become id).proceed
    · exact (leads.become id).callBack rfl
  · exact .proceed (.become leads.diagnoseAll id)

private theorem Leads.resume {call : Call} (plain : ¬ call.registers) :
    Leads start true (machine.resume call) := by
  cases call with
  | body rest =>
    cases rest with
    | nil => exact leads.pop
    | cons => exact (leads.become id).control
  | iterating left =>
    cases left with
    | zero => exact leads.pop.reply
    | succ => exact (leads.become id).run
  | replying => exact leads.pop.reply
  | unwinding => exact leads.pop.control
  | holding => exact leads.pop.release
  | registering => exact absurd trivial plain
  | queue => exact leads.continueQueue _
  | scheduler => exact leads.continueScheduler _
  | clock => exact leads.continueClock _
  | draining => exact leads.continueDrain ..
  | retiring => exact leads.continueRetirement ..
  | matching => exact leads.continueMatching ..
  | inserting => exact .proceed (.diagnose (.become leads.resolveObjects id))

private theorem Leads.catchInScheduler (id : Nat) (reason : Panic) :
    Leads start false (machine.catchInScheduler id reason) := by
  unfold Machine.catchInScheduler
  split
  · exact leads.proceed
  · unfold diagnoseRefusedAction
    split
    · exact .proceed (.world leads ⟨rfl, rfl, rfl⟩)
    · split
      · exact .proceed (.diagnose (.world leads ⟨rfl, rfl, rfl⟩))
      · exact .proceed (.world leads ⟨rfl, rfl, rfl⟩)

private theorem Leads.unwindCall (reason : Panic) (call : Call) :
    Leads start true (machine.unwindCall reason call) := by
  cases call with
  | body | iterating | replying | unwinding | registering | retiring => exact leads.pop
  | holding => exact leads.pop.release
  | queue =>
    simp only [Machine.unwindCall, unwindQueue]
    split
    · exact leads.pop
    · exact .pop (.world leads ⟨rfl, rfl, rfl⟩)
  | scheduler => exact .stays (leads.catchInScheduler ..)
  | clock =>
    simp only [Machine.unwindCall, unwindClock]
    split
    · exact leads.pop
    · exact .pop (.world leads ⟨rfl, rfl, rfl⟩)
  | draining owner =>
    cases owner with
    | dispatcher => exact .pop (.world leads ⟨rfl, rfl, rfl⟩)
    | pool => exact leads.pop.giveBack
    | pass => exact leads.leave.pop.giveBack
    | discardedPool => exact leads.pop
  | matching | inserting => exact leads.leave.pop.giveBack

end Calls

/-! ### What is read off the parts -/

/-- What has been logged of handles that were cancelled, the latest first. -/
def cancellations (machine : Machine) : List Name := machine.log.filterMap Event.cancelled?

/-- Whether the next step is about handles: a command on handles and guards, or the storing of the
handle of a registration. -/
def AboutHandles (machine : Machine) : Prop :=
  match machine.control, machine.stack with
  | .execute (.handle _), _ => True
  | .proceed, call :: _ => call.registers
  | _, _ => False

theorem AboutHandles.cases (about : machine.AboutHandles) :
    (∃ command, machine.control = .execute (.handle command)) ∨
      ∃ id name calls, machine.control = .proceed ∧
        machine.stack = .registering id name :: calls := by
  rcases machine with ⟨world, listener, log, stack, control⟩
  cases control with
  | execute command =>
    cases command with
    | handle command => exact .inl ⟨command, rfl⟩
    | _ => cases about
  | proceed =>
    rcases stack with _ | ⟨call, calls⟩
    · cases about
    · cases call with
      | registering id name => exact .inr ⟨id, name, calls, rfl, rfl⟩
      | _ => cases about
  | answer | unwind => cases about

theorem handled_step {command : HandleCommand Body}
    (control : machine.control = .execute (.handle command)) :
    machine.Handled command machine.step := by
  rw [step_of_execute control]
  exact machine.handled command

theorem leads_step (plain : ¬ machine.AboutHandles) : Leads machine true machine.step := by
  rcases machine with ⟨world, listener, log, stack, control⟩
  cases control with
  | execute command =>
    refine .stays (Leads.start.execute ?_)
    rintro handle rfl
    exact plain trivial
  | answer answer =>
    cases stack with
    | nil => exact .stays .start
    | cons call calls =>
      cases call with
      | body => exact .stays (Leads.start.report rfl).proceed
      | _ => exact .stays Leads.start.proceed
  | proceed =>
    cases stack with
    | nil => exact .stays .start
    | cons call calls => exact Leads.start.resume plain
  | unwind reason =>
    cases stack with
    | nil => exact .stays .start
    | cons call calls => exact Leads.start.unwindCall reason call

/-- Other steps log nothing of handles that are cancelled. -/
theorem Leads.cancellations_eq (leads : Leads start ended machine) :
    machine.cancellations = start.cancellations := by
  induction leads with
  | start => rfl
  | world _ _ ih | control _ ih | push _ _ ih | keepHandle _ ih | stays _ ih | pop _ ih => exact ih
  | report _ plain ih => exact (List.filterMap_cons_none plain).trans ih

/-- Other steps leave the guards alone. -/
theorem Leads.guards_eq (leads : Leads start ended machine) :
    machine.world.guards = start.world.guards := by
  induction leads with
  | start => rfl
  | world _ same ih => exact same.guards.trans ih
  | control _ ih | report _ _ ih | push _ _ ih | keepHandle _ ih | stays _ ih | pop _ ih => exact ih

/-- Other steps make no handles but those of registrations. -/
theorem Leads.handle_withdraws (leads : Leads start ended machine) {id : HandleId}
    {handle : Handle CancelAction} (found : machine.world.handles[id]? = some handle)
    (new : start.world.handles.size ≤ id) :
    ∃ source ticket, handle.action = some (.withdraw source ticket) := by
  induction leads with
  | start => exact absurd (Array.getElem?_eq_some_iff.mp found).1 (Nat.not_lt.mpr new)
  | world _ same ih => exact ih (same.handles ▸ found)
  | control _ ih | report _ _ ih | push _ _ ih | stays _ ih | pop _ ih => exact ih found
  | @keepHandle _ after source ticket _ _ ih =>
    have pushed : (after.world.handles.push (.forAction (.withdraw source ticket)))[id]? =
        some handle := found
    rw [Array.getElem?_push] at pushed
    split at pushed
    · cases pushed
      exact ⟨source, ticket, rfl⟩
    · exact ih pushed

/-- Every name, guard and registration stands for a handle that exists. -/
structure Grounded (machine : Machine) : Prop where
  names : ∀ name id, machine.world.handleNames.get? name = some id →
    id < machine.world.handles.size
  guards : ∀ name guard, machine.world.guards.get? name = some guard →
    guard.handle < machine.world.handles.size
  registering : ∀ id name, .registering id name ∈ machine.stack →
    id < machine.world.handles.size

theorem Leads.grounded (leads : Leads start ended machine) (grounded : start.Grounded) :
    machine.Grounded := by
  induction leads with
  | start => exact grounded
  | @world _ after world _ same ih =>
    have size : world.handles.size = after.world.handles.size := by rw [same.handles]
    exact ⟨fun name id => by simpa only [withWorld, same.names, size] using ih.names name id,
      fun name guard => by simpa only [withWorld, same.guards, size] using ih.guards name guard,
      fun id name => by simpa only [withWorld, size] using ih.registering id name⟩
  | control _ ih | report _ _ ih | stays _ ih => exact ⟨ih.names, ih.guards, ih.registering⟩
  | push _ plain ih =>
    refine ⟨ih.names, ih.guards, fun id name member => ?_⟩
    rcases List.mem_cons.mp member with rfl | below
    · exact absurd trivial plain
    · exact ih.registering id name below
  | @keepHandle _ after source ticket label _ ih =>
    have grown : after.world.handles.size <
        (after.keepHandle source ticket label).world.handles.size := by
      simp [Machine.keepHandle, Handles.create, Machine.push, withWorld]
    refine ⟨fun name id named => Nat.lt_trans (ih.names name id named) grown,
      fun name guard guarded => Nat.lt_trans (ih.guards name guard guarded) grown,
      fun id name member => ?_⟩
    rcases List.mem_cons.mp member with same | below
    · cases same
      exact grown
    · exact Nat.lt_trans (ih.registering id name below) grown
  | pop _ ih =>
    exact ⟨ih.names, ih.guards, fun id name member =>
      ih.registering id name (List.mem_of_mem_tail member)⟩

/-! ### Calls in progress -/

/-- The machine runs on top of some calls. -/
def Over (base : List Call) (machine : Machine) : Prop := base <:+ machine.stack

/-- Control is back at some calls: the innermost of them goes on, or a panic is to leave it. -/
structure Back (calls : List Call) (machine : Machine) : Prop where
  stack : machine.stack = calls
  control : machine.control = .proceed ∨ ∃ reason, machine.control = .unwind reason

variable {base calls : List Call} {call : Call}

/-- What is below the innermost call stays, and so does that call unless it is ended. -/
theorem Leads.atop (leads : Leads start ended machine) :
    Over start.stack.tail machine ∧ (ended = false → Over start.stack machine) := by
  induction leads with
  | start => exact ⟨List.tail_suffix _, fun _ => List.suffix_rfl⟩
  | world _ _ ih | control _ ih | report _ _ ih => exact ih
  | push _ _ ih | keepHandle _ ih =>
    exact ⟨ih.1.trans (List.suffix_cons ..),
      fun goesOn => (ih.2 goesOn).trans (List.suffix_cons ..)⟩
  | stays _ ih => exact ⟨ih.1, nofun⟩
  | pop _ ih =>
    obtain ⟨above, same⟩ := ih.2 rfl
    refine ⟨?_, nofun⟩
    rw [Over, Machine.pop, ← same]
    cases above with
    | nil => exact List.suffix_rfl
    | cons call above => exact (List.tail_suffix _).trans (List.suffix_append ..)

private theorem Over.act (atop : Over base machine) (action : Option CancelAction) :
    Over base (machine.act action) := by
  rcases action with _ | ⟨name, body⟩ | ⟨source, ticket⟩
  · exact atop
  · exact atop.trans (List.suffix_cons ..)
  · exact atop

private theorem Over.cancel (atop : Over base machine) (id : HandleId) :
    Over base (machine.cancel id) := by
  let handles := (machine.world.handles.cancel id).2
  have same : Over base (machine.withWorld { machine.world with handles }) := atop
  exact same.act _

private theorem over_executeHandle (machine : Machine) (command : HandleCommand Body) :
    Over machine.stack (machine.executeHandle command) := by
  have done := machine.handled command
  generalize machine.executeHandle command = after at done ⊢
  cases done with
  | cancels | replaces | releases =>
    refine Over.cancel ?_ _
    exact List.suffix_cons ..
  | _ => exact List.suffix_rfl

/-- A step takes nothing away but the innermost call, and that only when control is back at it. -/
theorem Over.step (atop : Over calls machine) : Over calls machine.step ∨ machine.Back calls := by
  rcases stack : machine.stack with _ | ⟨call, base⟩
  · rw [Over, stack, List.suffix_nil] at atop
    exact .inl (atop ▸ List.nil_suffix)
  · have inside (stepped : Over base machine.step) (control : machine.control = .proceed ∨
        ∃ reason, machine.control = .unwind reason) :
        Over calls machine.step ∨ machine.Back calls := by
      rw [Over, stack] at atop
      rcases List.suffix_cons_iff.mp atop with rfl | below
      · exact .inr ⟨stack, control⟩
      · exact .inl (below.trans stepped)
    have tail : machine.stack.tail = base := by rw [stack, List.tail_cons]
    cases control : machine.control with
    | execute command =>
      refine .inl (atop.trans ?_)
      rw [step_of_execute control]
      by_cases about : ∃ handle, command = .handle handle
      · obtain ⟨handle, rfl⟩ := about
        exact over_executeHandle machine handle
      · exact ((Leads.start.execute (not_exists.mp about)).atop).2 rfl
    | answer answer =>
      have same : machine.step.stack = machine.stack := by
        cases call <;> simp [Machine.step, control, stack, Machine.proceed, report]
      exact .inl (by rwa [Over, same])
    | proceed =>
      refine inside ?_ (.inl control)
      rw [step_of_proceed control stack, ← tail]
      cases call with
      | registering handle name =>
        cases name <;> exact List.suffix_rfl
      | _ => exact (Leads.start.resume id).atop.1
    | unwind reason =>
      refine inside ?_ (.inr ⟨reason, control⟩)
      rw [step_of_unwind control stack, ← tail]
      exact (Leads.start.unwindCall reason call).atop.1

/-- A machine with calls in progress has no outcome. -/
theorem outcome?_of_stack (stack : machine.stack = call :: calls) : machine.outcome? = none := by
  simp only [outcome?, stack]

/-- A move takes nothing away but the innermost call, and that only when control is back at it. -/
theorem Move.atop {after : Machine} (move : machine.Move after) (atop : Over calls machine) :
    Over calls after ∨ machine.Back calls := by
  cases move with
  | step => exact atop.step
  | @reconsider call other rest stack control free =>
    rw [Over, stack] at atop
    rcases List.suffix_cons_iff.mp atop with rfl | below
    · exact .inr ⟨stack, .inl control⟩
    · exact .inl (below.trans (List.suffix_cons ..))
  | command done =>
    rw [Over, (rests_of_outcome done).1, List.suffix_nil] at atop
    exact .inl (atop ▸ List.nil_suffix)

/-- On a way from above some calls, either these stay, or control comes back to them. -/
private theorem Goes.atop {first : Machine} {passed : List Machine}
    (goes : first.Goes passed machine) (atop : Over calls first) :
    (∀ middle ∈ passed ++ [machine], Over calls middle) ∨
      ∃ before ending after, passed = before ++ ending :: after ∧ ending.Back calls ∧
        ∀ middle ∈ before ++ [ending], Over calls middle := by
  induction goes with
  | stays => exact .inl (by simpa using atop)
  | @moves passed last after goes move ih =>
    rcases ih with still | ⟨before, ending, between, rfl, back, inside⟩
    · rcases move.atop (still last (List.mem_append_right _ List.mem_cons_self)) with above | back
      · refine .inl fun middle member => ?_
        rcases List.mem_append.mp member with former | latest
        · exact still middle former
        · rwa [List.mem_singleton.mp latest]
      · exact .inr ⟨passed, last, [], rfl, back, still⟩
    · exact .inr ⟨before, ending, between ++ [last], by simp, back, inside⟩

/-- Something runs on top of some calls. -/
def Inside (base : List Call) (machine : Machine) : Prop := ∃ call, Over (call :: base) machine

private theorem Inside.stack_ne (inside : machine.Inside base) : machine.stack ≠ base := by
  obtain ⟨call, above, same⟩ := inside
  intro rests
  have lengths := congrArg List.length (same.trans rests)
  simp at lengths
  omega

/-- A call that is only to give an answer gives it once what runs on top of it is done, unless it
is left by a panic. -/
theorem Goes.replies {first : Machine} {passed : List Machine} {answer : Answer}
    (goes : first.Goes passed machine) (atop : Over (.replying answer :: base) first)
    (inside : ∀ middle ∈ passed, Inside base middle) (done : machine.stack = base) :
    machine.control = .answer answer ∨ ∃ reason, machine.control = .unwind reason := by
  have lasts (middle : Machine) (above : Over (.replying answer :: base) middle) :
      middle.stack ≠ base := Inside.stack_ne ⟨_, above⟩
  rcases goes.atop atop with still | ⟨before, last, between, rfl, back, -⟩
  · exact absurd done (lasts _ (still _ (List.mem_append_right _ List.mem_cons_self)))
  -- The call is ended by the very next move, so what follows is no longer inside.
  have ends {next : Machine} (move : last.Move next) : next.stack = base ∧
      (next.control = .answer answer ∨ ∃ reason, next.control = .unwind reason) := by
    cases move with
    | step =>
      rcases back.control with control | ⟨reason, control⟩
      · rw [step_of_proceed control back.stack]
        exact ⟨congrArg List.tail back.stack, .inl rfl⟩
      · rw [step_of_unwind control back.stack]
        exact ⟨congrArg List.tail back.stack, .inr ⟨reason, control⟩⟩
    | reconsider stack _ free =>
      rw [back.stack] at stack
      cases stack
      cases free
    | command finished =>
      rw [outcome?_of_stack back.stack] at finished
      cases finished
  cases between with
  | nil => exact (ends goes.latest.2).2
  | cons next between =>
    rw [← List.singleton_append, ← List.append_assoc] at goes
    have left := ends goes.split.1.latest.2
    exact absurd left.1 (inside next (by simp)).stack_ne

end Machine

end LiveTree.Session
