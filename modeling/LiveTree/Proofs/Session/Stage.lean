import Mathlib.Logic.Function.Basic
import LiveTree.Session.World
import LiveTree.Proofs.Awaiting.Mapping
import LiveTree.Proofs.Awaiting.Standing

/-! The stage of a session: everything that calls back, seen alike. All queues of awaiters are
queues of callbacks here, whichever component they belong to; beside them stand the phases of the
schedulers, the handles, the retained objects, and the calls that are handing awaiters over, the
innermost first. What can happen on the stage is said once, with a name for every deed, and all
that is proved of callbacks is proved from that. -/
namespace LiveTree.Frame

open Awaiting (Delivery)

/-- What the callbacks of a clock are told, the time apart. -/
def Tick.delivery : Tick → Delivery
  | frame _ => .resume
  | closed reason => .refuse reason

/-- What the actions of a scheduler are told. -/
def Call.delivery : Call → Delivery
  | completing _ _ => .resume
  | closing reason _ => .refuse reason

/-- Where a scheduler stands between its frames, and when it wakes the host. -/
structure Phase where
  inFrame : Bool
  policy : Settings.NotifyPolicy
  completed : Nat
deriving DecidableEq, Repr

/-- Whether the host is woken by an action, given whether nothing was waiting before it. -/
def Phase.notifies (phase : Phase) (first : Bool) : Bool :=
  match phase.policy with
  | .idleTransition => first && !phase.inFrame
  | .always => true

/-- The phase of a scheduler. -/
def Scheduler.phase {α : Type} (scheduler : Scheduler α) : Phase :=
  ⟨scheduler.inFrame, scheduler.config.notifyPolicy, scheduler.framesCompleted⟩

end LiveTree.Frame

namespace LiveTree.Lifecycle.Registry

variable {ω : Type}

/-- A registry in which objects may have been created and none has moved. -/
structure Grown (registry grown : Registry ω) : Prop where
  state : ∀ id, grown.state id = registry.state id
  kept : ∀ id, (registry.get? id).isSome → grown.get? id = registry.get? id

theorem Grown.refl (registry : Registry ω) : registry.Grown registry :=
  ⟨fun _ => rfl, fun _ _ => rfl⟩

theorem Grown.trans {first second third : Registry ω} (early : first.Grown second)
    (late : second.Grown third) : first.Grown third where
  state id := (late.state id).trans (early.state id)
  kept id present := by
    have still := early.kept id present
    rw [late.kept id (by rw [still]; exact present), still]

theorem Grown.create (registry : Registry ω) (observer : ω) :
    registry.Grown (registry.create observer).2 where
  state := state_create registry observer
  kept _ present := get?_create_of_isSome observer present

/-- To move an object that does not exist moves nothing. -/
theorem advance_absent {registry moved : Registry ω} {id : ObjectId} {target : State}
    (absent : registry.get? id = none) (legal : registry.advance id target = .ok moved) :
    moved = registry := by
  have beyond : registry.objects.size ≤ id.index := Array.getElem?_eq_none_iff.mp absent
  unfold advance at legal
  split at legal
  · cases legal
    cases registry
    exact congrArg Registry.mk (by
      ext1
      · simp
      · next index inside _ =>
        simp only [Array.size_modify] at inside beyond
        rw [Array.getElem_modify, if_neg (by omega)])
  · cases legal

end LiveTree.Lifecycle.Registry

namespace LiveTree.Session

open Awaiting LiveTree.Frame
open Lifecycle (ObjectId Registry)

/-- What an awaiter runs when it has its turn. -/
inductive Callback where
  | waiter (waiter : Waiter)
  | action (action : Action)

/-- The body that is run. A plain action that is refused runs nothing. -/
def Callback.body? : Callback → Delivery → Option Body
  | waiter callback, .resume => some callback.served
  | waiter callback, .refuse _ => some callback.refused
  | action callback, .resume => some callback.completed
  | action callback, .refuse _ => callback.refused

/-- The queue of any component. -/
abbrev CallbackQueue := Queue Callback Delivery

/-- The queue of a component. -/
def World.awaiting (world : World) : QueueRef → Option CallbackQueue
  | .queue id => (world.queues[id]?).map (·.map .waiter fun delivery => delivery)
  | .scheduler id => (world.schedulers[id]?).map (·.core.queue.map .action Frame.Call.delivery)
  | .clock id => (world.clocks[id]?).map (·.core.awaiters.map .waiter Tick.delivery)

/-- The phase of a scheduler. -/
def World.phase? (world : World) (id : Nat) : Option Phase :=
  (world.schedulers[id]?).map (·.core.phase)

/-- Everything that calls back. -/
structure Stage where
  awaiting : QueueRef → Option CallbackQueue
  phase? : Nat → Option Phase
  handles : Handles CancelAction
  objects : Registry Observer
  serving : List QueueRef

/-- Something that is done on the stage. -/
inductive Deed where
  /-- A registration is accepted under a ticket, with a handle; perhaps the host is told at once
  that somebody waits. -/
  | accepts (source : QueueRef) (ticket : Ticket) (handle : HandleId) (callback : Callback)
      (hooked : Bool)
  /-- Somebody cancels a handle. -/
  | cancels (handle : HandleId)
  /-- All that waits is taken out to be handed over. -/
  | begins (source : QueueRef) (delivery : Delivery)
  /-- An awaiter has its turn. -/
  | serves (source : QueueRef) (ticket : Ticket) (callback : Callback) (delivery : Delivery)
  /-- A batch is finished. -/
  | finishes (source : QueueRef)
  /-- A batch is given up; these awaiters were still waiting in it. -/
  | loses (source : QueueRef) (tickets : List Ticket)
  /-- A frame begins. -/
  | startsFrame (scheduler : Nat)
  /-- A frame of a closed scheduler ends. -/
  | idles (scheduler : Nat)
  /-- An object moves to a state and is told. -/
  | moves (object : ObjectId) (state : Lifecycle.State)
  /-- A move of an object is refused. -/
  | refuses (object : ObjectId) (state : Lifecycle.State)

namespace Stage

/-- Whether the host is told of a registration, given whether nothing was waiting before it. -/
def hooks (stage : Stage) (source : QueueRef) (first : Bool) : Bool :=
  match source with
  | .scheduler id =>
    match stage.phase? id with
    | some phase => phase.notifies first
    | none => first
  | _ => first

/-- The stage with the queue of a component replaced. -/
def setQueue (stage : Stage) (source : QueueRef) (queue : CallbackQueue) : Stage :=
  { stage with awaiting := Function.update stage.awaiting source (some queue) }

/-- The stage with the phase of a scheduler replaced. -/
def setPhase (stage : Stage) (id : Nat) (phase : Phase) : Stage :=
  { stage with phase? := Function.update stage.phase? id (some phase) }

/-- The stage with one more call in progress. -/
def serve (stage : Stage) (source : QueueRef) : Stage :=
  { stage with serving := source :: stage.serving }

/-- The stage with an awaiter withdrawn from its queue. -/
def withdraw (stage : Stage) (source : QueueRef) (ticket : Ticket) : Stage :=
  { stage with
    awaiting := Function.update stage.awaiting source
      ((stage.awaiting source).map (·.withdraw ticket)) }

/-- The stage after an attempt to cancel a handle. -/
def cancel (stage : Stage) (id : HandleId) : Stage :=
  let (attempt, handles) := stage.handles.cancel id
  match attempt.action with
  | some (.withdraw source ticket) => { stage with handles }.withdraw source ticket
  | _ => { stage with handles }

/-- The stage with the handle of an awaiter added. -/
def issue (stage : Stage) (source : QueueRef) (ticket : Ticket) : Stage :=
  { stage with handles := stage.handles.push (.forAction (.withdraw source ticket)) }

/-- Those of some awaiters that wait. -/
def waitingAmong (queue : CallbackQueue) (tickets : List Ticket) : List Ticket :=
  tickets.filter fun ticket => queue.fate? ticket = some .waiting

/-- One step on the stage, with the deed it does. -/
inductive Step (stage : Stage) : Option Deed → Stage → Prop
  | rests {objects : Registry Observer} (grown : stage.objects.Grown objects) :
      Step stage none { stage with objects }
  | keeps (handle : Handle CancelAction)
      (free : ∀ source ticket, handle.action ≠ some (.withdraw source ticket)) :
      Step stage none { stage with handles := stage.handles.push handle }
  | opens {source : QueueRef} (new : stage.awaiting source = none) :
      Step stage none (stage.setQueue source {})
  | installs {id : Nat} {policy : Settings.NotifyPolicy}
      (new : stage.awaiting (.scheduler id) = none) :
      Step stage none ((stage.setQueue (.scheduler id) {}).setPhase id ⟨false, policy, 0⟩)
  | accepts {source : QueueRef} {queue : CallbackQueue} {callback : Callback}
      {registration : Registration Callback Delivery}
      (found : stage.awaiting source = some queue)
      (accepted : queue.register callback = .ok registration) :
      Step stage
        (some (.accepts source registration.ticket stage.handles.size callback
          (stage.hooks source registration.first)))
        ((stage.setQueue source registration.queue).issue source registration.ticket)
  | cancels {id : HandleId} (known : id < stage.handles.size) :
      Step stage (some (.cancels id)) (stage.cancel id)
  | flushes {source : QueueRef} {queue : CallbackQueue}
      (found : stage.awaiting source = some queue) (free : ∀ id, source ≠ .scheduler id) :
      Step stage (some (.begins source .resume))
        ((stage.setQueue source (queue.flush .resume)).serve source)
  | closes {source : QueueRef} {queue : CallbackQueue}
      (found : stage.awaiting source = some queue) (reason : Closed) :
      Step stage (some (.begins source (.refuse (queue.closed.getD reason))))
        ((stage.setQueue source (queue.close reason .refuse)).serve source)
  | completes {id : Nat} {queue : CallbackQueue} {phase : Phase}
      (found : stage.awaiting (.scheduler id) = some queue)
      (current : stage.phase? id = some phase) (unclosed : queue.closed = none) :
      Step stage (some (.begins (.scheduler id) .resume))
        (((stage.setQueue (.scheduler id) (queue.flush .resume)).setPhase id
          ⟨false, phase.policy, phase.completed + 1⟩).serve (.scheduler id))
  | idles {id : Nat} {queue : CallbackQueue} {phase : Phase}
      (found : stage.awaiting (.scheduler id) = some queue)
      (current : stage.phase? id = some phase) (closed : queue.closed ≠ none) :
      Step stage (some (.idles id)) (stage.setPhase id { phase with inFrame := false })
  | startsFrame {id : Nat} {phase : Phase} (current : stage.phase? id = some phase) :
      Step stage (some (.startsFrame id)) (stage.setPhase id { phase with inFrame := true })
  | serves {source : QueueRef} {queue : CallbackQueue} {batch : Batch Delivery}
      {outer : List (Batch Delivery)} {skipped rest : List Ticket} {ticket : Ticket}
      {callback : Callback} {calls : List QueueRef}
      (found : stage.awaiting source = some queue) (innermost : stage.serving = source :: calls)
      (running : queue.running = batch :: outer) (split : batch.rest = skipped ++ ticket :: rest)
      (passed : ∀ other ∈ skipped, queue.fate? other ≠ some .waiting)
      (waiting : queue.awaiters[ticket]? = some ⟨callback, .waiting⟩) :
      Step stage (some (.serves source ticket callback batch.purpose))
        (stage.setQueue source (queue.handOver ticket batch rest outer))
  | finishes {source : QueueRef} {queue : CallbackQueue} {batch : Batch Delivery}
      {outer : List (Batch Delivery)} {calls : List QueueRef}
      (found : stage.awaiting source = some queue) (innermost : stage.serving = source :: calls)
      (running : queue.running = batch :: outer)
      (passed : ∀ ticket ∈ batch.rest, queue.fate? ticket ≠ some .waiting) :
      Step stage (some (.finishes source))
        { stage.setQueue source { queue with running := outer } with serving := calls }
  | loses {source : QueueRef} {queue : CallbackQueue} {batch : Batch Delivery}
      {outer : List (Batch Delivery)} {calls : List QueueRef}
      (found : stage.awaiting source = some queue) (innermost : stage.serving = source :: calls)
      (running : queue.running = batch :: outer) (free : ∀ id, source ≠ .scheduler id) :
      Step stage (some (.loses source (waitingAmong queue batch.rest)))
        { stage.setQueue source queue.abandon with serving := calls }
  | moves {object : ObjectId} {target : Lifecycle.State} {objects : Registry Observer}
      (present : (stage.objects.get? object).isSome)
      (legal : stage.objects.advance object target = .ok objects) :
      Step stage (some (.moves object target)) { stage with objects }
  | refuses {object : ObjectId} {target : Lifecycle.State}
      (present : (stage.objects.get? object).isSome)
      (illegal : (stage.objects.state object).canBecome target = false) :
      Step stage (some (.refuses object target)) stage

/-- Every batch in progress belongs to a call in progress. -/
def Attended (stage : Stage) : Prop :=
  ∀ source, ((stage.awaiting source).elim 0 fun queue => queue.running.length) =
    stage.serving.count source

/-- A stage on which nothing has been done. -/
def bare : Stage := ⟨fun _ => none, fun _ => none, #[], {}, []⟩

/-- The stages that can come about, with all that has been done, the earliest first. -/
inductive Life : List Deed → Stage → Prop
  | bare : Life [] bare
  | next {history : List Deed} {stage after : Stage} {deed : Option Deed}
      (life : Life history stage) (step : stage.Step deed after) :
      Life (history ++ deed.toList) after

end Stage

end LiveTree.Session
