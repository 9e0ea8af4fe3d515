import LiveTree.Proofs.Session.Lookup
import LiveTree.Proofs.Session.Stage

/-! What a session does on its stage. A step of the machine is one step on the stage, and which
deed it does can be read off the machine before the step: off the command that starts, or off the
call that goes on. Most of the machine does nothing there; that is shown family by family, and then
the few calls that hand over, register, cancel or move an object are each matched with their
deed. -/
namespace LiveTree.Session

open Awaiting LiveTree.Frame
open Lifecycle (ObjectId Registry)

/-- The component whose awaiters a call is handing over. -/
def Call.source? : Call → Option QueueRef
  | .queue id => some (.queue id)
  | .scheduler id => some (.scheduler id)
  | .clock id => some (.clock id)
  | _ => none

namespace Stage

/-- The deed of registering a callback. -/
def accept? (stage : Stage) (source : QueueRef) (callback : Callback) : Option Deed :=
  match stage.awaiting source with
  | none => none
  | some queue =>
    if queue.isClosed then none
    else
      some (.accepts source queue.awaiters.size stage.handles.size callback
        (stage.hooks source queue.pending.isEmpty))

/-- The deed of taking out all that waits. -/
def flush? (stage : Stage) (source : QueueRef) : Option Deed :=
  (stage.awaiting source).map fun _ => .begins source .resume

/-- The deed of closing a queue. -/
def close? (stage : Stage) (source : QueueRef) (reason : Closed) : Option Deed :=
  (stage.awaiting source).map fun queue => .begins source (.refuse (queue.closed.getD reason))

/-- The deed of completing a frame. -/
def complete? (stage : Stage) (id : Nat) : Option Deed :=
  (stage.awaiting (.scheduler id)).map fun queue =>
    if queue.isClosed then .idles id else .begins (.scheduler id) .resume

/-- The deed of an attempt to cancel. -/
def cancel? (stage : Stage) (id : HandleId) : Option Deed :=
  if id < stage.handles.size then some (.cancels id) else none

/-- The deed of a call that hands awaiters over and goes on. -/
def turn? (stage : Stage) (source : QueueRef) : Option Deed :=
  match stage.awaiting source with
  | none => none
  | some queue =>
    match queue.running with
    | [] => none
    | batch :: _ =>
      match Queue.nextWaiting queue.awaiters batch.rest with
      | some (ticket, callback, _) => some (.serves source ticket callback batch.purpose)
      | none => some (.finishes source)

/-- The deed of a panic that leaves such a call. A scheduler lets none leave. -/
def giveUp? (stage : Stage) (source : QueueRef) : Option Deed :=
  match source, stage.awaiting source with
  | .scheduler _, _ | _, none => none
  | _, some queue =>
    match queue.running with
    | [] => none
    | batch :: _ => some (.loses source (waitingAmong queue batch.rest))

/-- The deed of an attempt to move an object. -/
def advance? (stage : Stage) (object : ObjectId) (target : Lifecycle.State) : Option Deed :=
  if (stage.objects.get? object).isNone then none
  else if (stage.objects.state object).canBecome target then some (.moves object target)
  else some (.refuses object target)

end Stage

namespace Machine

/-- What can be seen of the stage. -/
def stage (machine : Machine) : Stage where
  awaiting := machine.world.awaiting
  phase? := machine.world.phase?
  handles := machine.world.handles
  objects := machine.world.objects
  serving := machine.stack.filterMap Call.source?

/-- The deed of a command that starts. -/
def started? (machine : Machine) : Command → Option Deed
  | .queue (.register name item _ resumed refused _) =>
    (machine.world.queueNames.get? name).bind fun id =>
      machine.stage.accept? (.queue id) (.waiter ⟨item, resumed, refused⟩)
  | .queue (.flush name) =>
    (machine.world.queueNames.get? name).bind fun id => machine.stage.flush? (.queue id)
  | .queue (.close name reason) =>
    (machine.world.queueNames.get? name).bind fun id => machine.stage.close? (.queue id) ⟨reason⟩
  | .scheduler (.schedulePlain name item _ completed) =>
    (machine.world.schedulerNames.get? name).bind fun id =>
      machine.stage.accept? (.scheduler id) (.action ⟨item, completed, none⟩)
  | .scheduler (.scheduleInformed name item _ completed refused) =>
    (machine.world.schedulerNames.get? name).bind fun id =>
      machine.stage.accept? (.scheduler id) (.action ⟨item, completed, some refused⟩)
  | .scheduler (.startFrame name) =>
    (machine.world.schedulerNames.get? name).bind fun id =>
      (machine.stage.phase? id).map fun _ => .startsFrame id
  | .scheduler (.completeFrame name) =>
    (machine.world.schedulerNames.get? name).bind fun id => machine.stage.complete? id
  | .scheduler (.close name reason) =>
    (machine.world.schedulerNames.get? name).bind fun id =>
      machine.stage.close? (.scheduler id) ⟨reason⟩
  | .clock (.register name item _ ticked refused) =>
    (machine.world.clockNames.get? name).bind fun id =>
      machine.stage.accept? (.clock id) (.waiter ⟨item, ticked, refused⟩)
  | .clock (.send name _) =>
    (machine.world.clockNames.get? name).bind fun id => machine.stage.flush? (.clock id)
  | .clock (.close name reason) =>
    (machine.world.clockNames.get? name).bind fun id => machine.stage.close? (.clock id) ⟨reason⟩
  | .handle (.cancel name) =>
    (machine.world.handleNames.get? name).bind machine.stage.cancel?
  | .handle (.guard name guard) =>
    -- A guard that loses its name to the new one is given up.
    (machine.world.handleNames.get? name).bind fun id =>
      (machine.world.handles[id]?).bind fun _ =>
        (machine.world.guards.get? guard).bind fun former => machine.stage.cancel? former.handle
  | .handle (.release guard) =>
    (machine.world.guards.get? guard).bind fun guard => machine.stage.cancel? guard.handle
  | .object (.advance name target) =>
    (machine.world.objectNames.get? name).bind fun id => machine.stage.advance? id target
  | _ => none

/-- The deed of a call that goes on. -/
def continued? (machine : Machine) : Call → Option Deed
  | .queue id => machine.stage.turn? (.queue id)
  | .scheduler id => machine.stage.turn? (.scheduler id)
  | .clock id => machine.stage.turn? (.clock id)
  | .draining _ drain =>
    match drain.step with
    | .attempt object target _ => machine.stage.advance? object target
    | _ => none
  | .retiring delivery _ =>
    delivery.next?.bind fun next => machine.stage.advance? next.1 .retired
  | _ => none

/-- What the machine does on the stage in its next step. -/
def deed? (machine : Machine) : Option Deed :=
  match machine.control, machine.stack with
  | .execute command, _ => machine.started? command
  | .proceed, call :: _ => machine.continued? call
  | .unwind _, call :: _ => call.source?.bind machine.stage.giveUp?
  | _, _ => none

/-! ### What leaves the stage as it is -/

section Quiet

variable (machine : Machine)

@[simp]
theorem stage_proceed : machine.proceed.stage = machine.stage := rfl

@[simp]
theorem stage_reply (answer : Answer) : (machine.reply answer).stage = machine.stage := rfl

@[simp]
theorem stage_finish (ending : Except Panic Answer) :
    (machine.finish ending).stage = machine.stage := by
  cases ending <;> rfl

@[simp]
theorem stage_diagnose (diagnostic : Diagnostic) :
    (machine.diagnose diagnostic).stage = machine.stage := by
  unfold diagnose
  split <;> rfl

@[simp]
theorem stage_diagnoseAll (diagnostics : List Diagnostic) :
    (machine.diagnoseAll diagnostics).stage = machine.stage := by
  unfold diagnoseAll
  induction diagnostics generalizing machine with
  | nil => rfl
  | cons diagnostic diagnostics ih => rw [List.foldl_cons, ih, stage_diagnose]

@[simp]
theorem stage_enter (span : Span) : (machine.enter span).stage = machine.stage := by
  unfold enter
  split <;> rfl

@[simp]
theorem stage_leave (span : Span) : (machine.leave span).stage = machine.stage := by
  unfold leave
  split <;> rfl

/-! What is logged leaves the world and the calls in progress alone. -/

@[simp]
theorem world_diagnose (diagnostic : Diagnostic) :
    (machine.diagnose diagnostic).world = machine.world := by
  unfold diagnose
  split <;> rfl

@[simp]
theorem stack_diagnose (diagnostic : Diagnostic) :
    (machine.diagnose diagnostic).stack = machine.stack := by
  unfold diagnose
  split <;> rfl

@[simp]
theorem stack_diagnoseAll (diagnostics : List Diagnostic) :
    (machine.diagnoseAll diagnostics).stack = machine.stack := by
  unfold diagnoseAll
  induction diagnostics generalizing machine with
  | nil => rfl
  | cons diagnostic diagnostics ih => rw [List.foldl_cons, ih, stack_diagnose]

@[simp]
theorem stack_leave (span : Span) : (machine.leave span).stack = machine.stack := by
  unfold leave
  split <;> rfl

/-- A call that serves nobody comes and goes unseen. -/
theorem stage_push {call : Call} (idle : call.source? = none) :
    (machine.push call).stage = machine.stage := by
  simp [stage, push, idle]

theorem stage_push_of_source {call : Call} {source : QueueRef}
    (serves : call.source? = some source) :
    (machine.push call).stage = machine.stage.serve source := by
  simp [stage, push, serves, Stage.serve]

theorem stage_pop {call : Call} {calls : List Call} (stack : machine.stack = call :: calls)
    (idle : call.source? = none) : machine.pop.stage = machine.stage := by
  simp [stage, pop, stack, idle]

theorem stage_become {call next : Call} {calls : List Call} (stack : machine.stack = call :: calls)
    (idle : call.source? = none) (nextIdle : next.source? = none) :
    (machine.become next).stage = machine.stage := by
  simp [stage, become, stack, idle, nextIdle]

@[simp]
theorem stage_run (body : Body) : (machine.run body).stage = machine.stage :=
  machine.stage_push rfl

@[simp]
theorem stage_callBack (event : Event) (body : Body) :
    (machine.callBack event body).stage = machine.stage :=
  (machine.report event).stage_run body

@[simp]
theorem stage_tell (id : ObjectId) (event : Lifecycle.Event) :
    (machine.tell id event).stage = machine.stage := by
  unfold tell
  split
  · rfl
  · dsimp only
    split <;> simp

@[simp]
theorem stage_tellState (id : ObjectId) (state : Lifecycle.State) :
    (machine.tellState id state).stage = machine.stage := by
  unfold tellState
  split <;> simp

@[simp]
theorem stage_deliver (action : Action) (outcome : Outcome) :
    (machine.deliver action outcome).stage = machine.stage := by
  unfold deliver
  split <;> split <;> simp

@[simp]
theorem stage_discardBatch (batch : Lifecycle.RetireBatch) :
    (machine.discardBatch batch).stage = machine.stage :=
  machine.stage_push rfl

@[simp]
theorem stage_discardPool (pool : Pool) : (machine.discardPool pool).stage = machine.stage := by
  unfold discardPool diagnoseDisposal
  rw [stage_proceed, stage_push _ rfl, stage_diagnoseAll]

@[simp]
theorem stage_setPool (id : Nat) (pool : Option Pool) :
    (machine.setPool id pool).stage = machine.stage := rfl

@[simp]
theorem stage_setDispatcher (id : Nat) (dispatcher : Option Lifecycle.Dispatcher) :
    (machine.setDispatcher id dispatcher).stage = machine.stage := rfl

@[simp]
theorem stage_storeEntry (name : Name) (entry : Entry) :
    (machine.storeEntry name entry).stage = machine.stage := rfl

@[simp]
theorem stage_removeBatch (name : Name) : (machine.removeBatch name).stage = machine.stage := rfl

@[simp]
theorem stage_storeBatch (name : Name) (batch : Lifecycle.RetireBatch) :
    (machine.storeBatch name batch).stage = machine.stage := by
  unfold storeBatch
  dsimp only
  split
  · rw [stage_discardBatch, stage_push _ rfl]
    rfl
  · rfl

@[simp]
theorem stage_release (id : Nat) (ending : Except Panic Answer) :
    (machine.release id ending).stage = machine.stage := by
  unfold release
  split
  · simp
  · split
    · simp
    · cases ending <;> rw [stage_discardPool, stage_push _ rfl, stage_setPool]

@[simp]
theorem stage_giveBack (id : Nat) (pool : Pool) (ending : Except Panic Answer) :
    (machine.giveBack id pool ending).stage = machine.stage := by
  unfold giveBack
  rw [stage_release, stage_setPool]

@[simp]
theorem stage_storePlaced (label : String)
    (placed : List (Relocation.PlacementTicket × Entry)) :
    (machine.storePlaced label placed).stage = machine.stage := by
  unfold storePlaced
  induction placed generalizing machine with
  | nil => rfl
  | cons pair placed ih => rw [List.foldl_cons, ih, stage_storeEntry]

@[simp]
theorem stack_storePlaced (label : String)
    (placed : List (Relocation.PlacementTicket × Entry)) :
    (machine.storePlaced label placed).stack = machine.stack := by
  unfold storePlaced
  induction placed generalizing machine with
  | nil => rfl
  | cons pair placed ih =>
    rw [List.foldl_cons, ih]
    rfl

theorem stage_executeEntry (command : EntryCommand) :
    (machine.executeEntry command).stage = machine.stage := by
  cases command <;> exact onEntry_eq rfl fun _ => rfl

theorem stage_executeHasher (command : HasherCommand) :
    (machine.executeHasher command).stage = machine.stage := by
  cases command with
  | create =>
    simp only [executeHasher]
    split <;> rfl
  | pop =>
    refine onHasher_eq rfl fun hasher => ?_
    split <;> rfl
  | copy | push | path | describe => exact onHasher_eq rfl fun _ => rfl

theorem stage_executeArena (command : ArenaCommand) :
    (machine.executeArena command).stage = machine.stage := by
  cases command with
  | create => rfl
  | register | get | list | describe => exact onArena_eq rfl fun _ => rfl

theorem stage_executeBatch (command : BatchCommand) :
    (machine.executeBatch command).stage = machine.stage := by
  cases command with
  | create name => exact machine.stage_storeBatch name {}
  | extend =>
    simp only [executeBatch, mergeBatch]
    split
    · rfl
    · split
      · rw [stage_discardBatch, stage_push _ rfl, stage_removeBatch]
      · rfl
  | dispatch =>
    refine onBatch_eq rfl fun batch => ?_
    rw [stage_proceed, stage_push _ rfl, stage_removeBatch]
  | discard =>
    refine onBatch_eq rfl fun batch => ?_
    rw [stage_discardBatch, stage_push _ rfl, stage_removeBatch]
  | describe => exact onBatch_eq rfl fun _ => rfl

end Quiet

end Machine

end LiveTree.Session
