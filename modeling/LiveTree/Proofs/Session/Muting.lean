import LiveTree.Proofs.Awaiting.Mapping
import LiveTree.Proofs.Sequences
import LiveTree.Session.Run

/-! Muted sessions. Muted is what has been switched off: every scheduler keeps silent about the
panics of its actions, those included that are still to be created by commands that wait in some
body, and possibly nobody listens at all. A muted log is without the events that depend on it.
Nothing that is muted can be seen in a component. -/
namespace LiveTree

/-- A table with other values. -/
def Table.map {κ α β : Type} (change : α → β) (table : Table κ α) : Table κ β :=
  ⟨table.bindings.map fun binding => (binding.1, change binding.2)⟩

theorem Table.get?_map {κ α β : Type} [DecidableEq κ] (change : α → β) (table : Table κ α)
    (key : κ) : (table.map change).get? key = (table.get? key).map change := by
  simp only [get?, map]
  induction table.bindings with
  | nil => rfl
  | cons binding bindings ih =>
    rw [List.map_cons, List.lookup_cons, List.lookup_cons, ih]
    split <;> rfl

/-- A handle with another action. -/
def Handle.map {α β : Type} (change : α → β) (handle : Handle α) : Handle β :=
  ⟨handle.cancelled, handle.action.map change⟩

private theorem Handle.cancel_map {α β : Type} (change : α → β) (handle : Handle α) :
    (handle.map change).cancel =
      (⟨handle.cancel.1.won, handle.cancel.1.action.map change⟩, handle.cancel.2.map change) := by
  rcases handle with ⟨cancelled, action⟩
  cases cancelled <;> rfl

theorem Handles.isCancelled_map {α β : Type} (change : α → β) (handles : Handles α)
    (id : HandleId) :
    Handles.isCancelled (handles.map (.map change)) id = handles.isCancelled id := by
  unfold isCancelled
  rw [Array.getElem?_map]
  cases handles[id]? <;> rfl

theorem Handles.cancel_map {α β : Type} (change : α → β) (handles : Handles α) (id : HandleId) :
    Handles.cancel (handles.map (.map change)) id =
      (⟨(handles.cancel id).1.won, (handles.cancel id).1.action.map change⟩,
        (handles.cancel id).2.map (.map change)) := by
  unfold cancel
  rw [Array.getElem?_map]
  cases handles[id]? with
  | none => rfl
  | some handle =>
    simp only [Option.map_some, handle.cancel_map, Array.map_setIfInBounds]

/-- An object with another observer. -/
def Lifecycle.Retained.map {ω ν : Type} (change : ω → ν) (object : Retained ω) : Retained ν :=
  ⟨object.state, change object.observer⟩

namespace Lifecycle.Registry

variable {ω ν : Type} (change : ω → ν) (registry : Registry ω)

/-- A registry with other observers. -/
def map : Registry ν := ⟨registry.objects.map (.map change)⟩

theorem get?_map (id : ObjectId) :
    (registry.map change).get? id = (registry.get? id).map (.map change) :=
  Array.getElem?_map

@[simp]
theorem state_map (id : ObjectId) : (registry.map change).state id = registry.state id := by
  simp only [state, get?_map]
  cases registry.get? id <;> rfl

theorem describe_map : (registry.map change).describe = registry.describe := by
  funext id
  rw [describe, state_map, describe]

@[simp]
theorem describeAll_map : (registry.map change).describeAll = registry.describeAll := by
  funext ids
  rw [describeAll, describe_map, describeAll]

theorem create_map (observer : ω) :
    (registry.map change).create (change observer) =
      ((registry.create observer).1, (registry.create observer).2.map change) := by
  simp [create, map, Retained.map]

theorem advance_map (id : ObjectId) (next : State) :
    (registry.map change).advance id next =
      (registry.advance id next).map fun moved => moved.map change := by
  unfold advance
  rw [state_map]
  split
  · refine congrArg (fun objects => Except.ok (Registry.mk objects)) ?_
    dsimp only [map]
    exact modify_map fun _ _ => rfl
  · rfl

end Lifecycle.Registry

/-- Whether a diagnostic warns of the panic of an action at the end of a frame. -/
def Diagnostic.warnsOfPanic : Diagnostic → Bool
  | actionPanicked .. | refusedActionPanicked _ => true
  | _ => false

/-- The settings of a scheduler that keeps silent about panics. -/
def Settings.FrameConfig.muted (config : FrameConfig) : FrameConfig :=
  { config with failurePolicy := .silent }

namespace Session

open Awaiting LiveTree.Frame

/-! ### Muted commands -/

mutual

/-- A command after which every scheduler that it creates, at once or later, keeps silent. -/
def Command.muted : Command → Command
  | .note value => .note value
  | .inspect components => .inspect components
  | .panic reason => .panic reason
  | .call script => .call script
  | .iterate times body => .iterate times (mutedBody body)
  | .queue command => .queue command.muted
  | .scheduler command => .scheduler command.muted
  | .clock command => .clock command.muted
  | .handle command => .handle command.muted
  | .object command => .object command.muted
  | .dispatcher command => .dispatcher command
  | .batch command => .batch command
  | .pool command => .pool command.muted
  | .entry command => .entry command
  | .hasher command => .hasher command
  | .arena command => .arena command

/-- A body of muted commands. -/
def mutedBody : List Command → List Command
  | [] => []
  | command :: rest => command.muted :: mutedBody rest

def QueueCommand.muted : QueueCommand (List Command) → QueueCommand (List Command)
  | .create queue => .create queue
  | .share queue other => .share queue other
  | .forget queue => .forget queue
  | .describe queue => .describe queue
  | .register queue item handle resumed refused first =>
    .register queue item handle (mutedBody resumed) (mutedBody refused) (mutedBody first)
  | .flush queue => .flush queue
  | .close queue reason => .close queue reason

def SchedulerCommand.muted : SchedulerCommand (List Command) → SchedulerCommand (List Command)
  | .create scheduler config wake => .create scheduler config.muted (mutedBody wake)
  | .share scheduler other => .share scheduler other
  | .describe scheduler => .describe scheduler
  | .schedulePlain scheduler item handle completed =>
    .schedulePlain scheduler item handle (mutedBody completed)
  | .scheduleInformed scheduler item handle completed refused =>
    .scheduleInformed scheduler item handle (mutedBody completed) (mutedBody refused)
  | .startFrame scheduler => .startFrame scheduler
  | .completeFrame scheduler => .completeFrame scheduler
  | .close scheduler reason => .close scheduler reason

def ClockCommand.muted : ClockCommand (List Command) → ClockCommand (List Command)
  | .create clock wake => .create clock (mutedBody wake)
  | .share clock other => .share clock other
  | .describe clock => .describe clock
  | .register clock item handle ticked refused =>
    .register clock item handle (mutedBody ticked) (mutedBody refused)
  | .send clock time => .send clock time
  | .close clock reason => .close clock reason

def HandleCommand.muted : HandleCommand (List Command) → HandleCommand (List Command)
  | .create handle action => .create handle (mutedBody action)
  | .createIdle handle => .createIdle handle
  | .share handle other => .share handle other
  | .cancel handle => .cancel handle
  | .describe handle => .describe handle
  | .guard handle guard => .guard handle guard
  | .disarm guard handle => .disarm guard handle
  | .release guard => .release guard
  | .describeGuard guard => .describeGuard guard

def Reactions.muted : Reactions (List Command) → Reactions (List Command)
  | ⟨silent, retained, entered, exited, retired⟩ =>
    ⟨silent, mutedBody retained, mutedBody entered, mutedBody exited, mutedBody retired⟩

def ObjectCommand.muted : ObjectCommand (List Command) → ObjectCommand (List Command)
  | .create object reactions => .create object reactions.muted
  | .share object other => .share object other
  | .compare object other => .compare object other
  | .advance object target => .advance object target
  | .poke object event => .poke object event
  | .describe object => .describe object

def Insertion.muted : Insertion (List Command) → Insertion (List Command)
  | ⟨body, objects⟩ => ⟨mutedBody body, objects⟩

def mutedInsertions : List (Insertion (List Command)) → List (Insertion (List Command))
  | [] => []
  | insertion :: rest => insertion.muted :: mutedInsertions rest

def mutedInsertions? :
    Option (List (Insertion (List Command))) → Option (List (Insertion (List Command)))
  | none => none
  | some insertions => some (mutedInsertions insertions)

def PoolCommand.muted : PoolCommand (List Command) → PoolCommand (List Command)
  | .endPass pool insertions label described =>
    .endPass pool (mutedInsertions? insertions) label described
  | command => command

end

/-- Commands that answer with the failure policy of a scheduler. -/
def Command.ShowsPolicy : Command → Prop
  | .scheduler (.describe _) => True
  | _ => False

theorem Reactions.silent_muted (reactions : Reactions Body) :
    reactions.muted.silent = reactions.silent := by
  cases reactions
  rfl

theorem Reactions.to_muted (reactions : Reactions Body) (event : Lifecycle.Event) :
    reactions.muted.to event = mutedBody (reactions.to event) := by
  cases reactions
  cases event <;> rfl

theorem Insertion.body_muted (insertion : Insertion Body) :
    insertion.muted.body = mutedBody insertion.body := by
  cases insertion
  rfl

theorem Insertion.objects_muted (insertion : Insertion Body) :
    insertion.muted.objects = insertion.objects := by
  cases insertion
  rfl

theorem mutedInsertions_tail (insertions : List (Insertion Body)) :
    (mutedInsertions insertions).tail = mutedInsertions insertions.tail := by
  cases insertions <;> rfl

theorem mutedInsertions_head (insertions : List (Insertion Body)) :
    (mutedInsertions insertions).head?.getD ⟨[], []⟩ =
      (insertions.head?.getD ⟨[], []⟩).muted := by
  cases insertions <;> rfl

/-! ### Muted components and calls -/

def Waiter.muted (waiter : Waiter) : Waiter :=
  ⟨waiter.item, mutedBody waiter.served, mutedBody waiter.refused⟩

def Action.muted (action : Action) : Action :=
  ⟨action.item, mutedBody action.completed, action.refused.map mutedBody⟩

def CancelAction.muted : CancelAction → CancelAction
  | run handle body => .run handle (mutedBody body)
  | withdraw source ticket => .withdraw source ticket

def Observer.muted (observer : Observer) : Observer := ⟨observer.name, observer.reactions.muted⟩

end Session

/-- A queue of muted awaiters. -/
def Awaiting.Queue.muted {ρ : Type} (queue : Queue Session.Waiter ρ) : Queue Session.Waiter ρ :=
  queue.map .muted id

theorem Awaiting.Queue.map_muted {ρ : Type} (queue : Queue Session.Waiter ρ) :
    queue.map Session.Waiter.muted id = queue.muted := rfl

theorem Awaiting.Queue.register_muted {ρ : Type} (queue : Queue Session.Waiter ρ)
    (waiter : Session.Waiter) :
    queue.muted.register waiter.muted = (queue.register waiter).map (.map .muted id) :=
  queue.map_register waiter

theorem Awaiting.Queue.turn_muted {ρ : Type} (queue : Queue Session.Waiter ρ) :
    queue.muted.turn = queue.turn.map .muted id := queue.turn_map

/-- A scheduler that keeps silent, and so do all that its actions create. -/
def Frame.Scheduler.muted (scheduler : Scheduler Session.Action) : Scheduler Session.Action :=
  { scheduler with
    queue := scheduler.queue.map .muted id
    config := scheduler.config.muted }

namespace Session

open Awaiting LiveTree.Frame

def HostedScheduler.muted (hosted : HostedScheduler) : HostedScheduler :=
  ⟨hosted.core.muted, hosted.name, mutedBody hosted.wake⟩

def HostedClock.muted (hosted : HostedClock) : HostedClock :=
  ⟨⟨hosted.core.awaiters.muted⟩, hosted.name, mutedBody hosted.wake⟩

/-- A world whose schedulers keep silent, those included that are still to be created. -/
def World.muted (world : World) : World :=
  { world with
    scripts := world.scripts.map mutedBody
    queues := world.queues.map .muted
    schedulers := world.schedulers.map .muted
    clocks := world.clocks.map .muted
    handles := world.handles.map (.map .muted)
    objects := world.objects.map .muted }

def PassCall.muted (call : PassCall) : PassCall :=
  { call with insertions := mutedInsertions? call.insertions }

def DrainOwner.muted : DrainOwner → DrainOwner
  | pass call settled disposed => .pass call.muted settled disposed
  | owner => owner

def Call.muted : Call → Call
  | body rest => .body (mutedBody rest)
  | iterating left rest => .iterating left (mutedBody rest)
  | draining owner drain => .draining owner.muted drain
  | matching call pass => .matching call.muted pass
  | inserting call pass request objects => .inserting call.muted pass request objects
  | call => call

def Control.muted : Control → Control
  | execute command => .execute command.muted
  | control => control

theorem Call.holds_muted (call : Call) (pool : Nat) : call.muted.holds pool = call.holds pool := by
  cases call with
  | draining owner => cases owner <;> rfl
  | _ => rfl

/-! ### Muted machines -/

/-- What is switched between two runs: somebody begins or ceases to listen, whatever the failure
policies are, or the failure policies alone become others. -/
inductive Switch where
  | listening
  | policies
deriving DecidableEq, Repr

namespace Switch

/-- Who is sure to listen in both runs. -/
def listener : Switch → Option Severity → Option Severity
  | listening, _ => none
  | policies, listener => listener

/-- Whether an event has nothing to do with what is switched. -/
def keeps (switch : Switch) : Event → Bool
  | .diagnostic diagnostic => switch = .policies && !diagnostic.warnsOfPanic
  | .entered _ | .left _ => switch = .policies
  | _ => true

/-- The events that have nothing to do with what is switched. -/
def kept (switch : Switch) (log : List Event) : List Event := log.filter switch.keeps

end Switch

/-- A machine that is muted, after other events. -/
def Machine.muted (switch : Switch) (earlier : List Event) (machine : Machine) : Machine where
  world := machine.world.muted
  listener := switch.listener machine.listener
  log := switch.kept machine.log ++ earlier
  stack := machine.stack.map .muted
  control := machine.control.muted

/-! ### What can be seen of muted components -/

theorem World.viewEntry_muted (world : World) (entry : Entry) :
    world.muted.viewEntry entry = world.viewEntry entry := by
  simp [viewEntry, muted]

/-- No view shows what is muted. -/
private theorem World.view_muted (world : World) (kind : Kind) (name : Name) :
    world.muted.view kind name = world.view kind name := by
  cases kind with
  | queue =>
    dsimp only [view, muted]
    cases world.queueNames.get? name with
    | none => rfl
    | some id =>
      simp only [Option.bind_eq_bind, Option.bind_some, Array.getElem?_map]
      cases world.queues[id]? <;> rfl
  | scheduler =>
    dsimp only [view, muted]
    cases world.schedulerNames.get? name with
    | none => rfl
    | some id =>
      simp only [Option.bind_eq_bind, Option.bind_some, Array.getElem?_map]
      cases world.schedulers[id]? <;> rfl
  | clock =>
    dsimp only [view, muted]
    cases world.clockNames.get? name with
    | none => rfl
    | some id =>
      simp only [Option.bind_eq_bind, Option.bind_some, Array.getElem?_map]
      cases world.clocks[id]? <;> rfl
  | handle | guard => simp only [view, muted, Handles.isCancelled_map]
  | object => simp only [view, muted, Lifecycle.Registry.state_map]
  | entry =>
    refine congrArg (world.entries.get? name).bind (funext fun entry => ?_)
    exact congrArg (fun view => some (View.entry view)) (world.viewEntry_muted entry)
  | _ => rfl

theorem World.views_muted (world : World) (components : List (Kind × Name)) :
    world.muted.views components = world.views components :=
  List.map_congr_left fun component _ => congrArg _ (world.view_muted component.1 component.2)

/-- Objects come about among muted ones as they would anyway. -/
theorem World.resolveObjects_muted (world : World) (names : List Name) :
    world.muted.resolveObjects names =
      ((world.resolveObjects names).1, (world.resolveObjects names).2.muted) := by
  induction names generalizing world with
  | nil => rfl
  | cons name names ih =>
    have same : world.muted.objectNames = world.objectNames := rfl
    dsimp only [World.resolveObjects]
    rw [same]
    cases world.objectNames.get? name with
    | some id =>
      exact congrArg (fun found : List Lifecycle.ObjectId × World => (id :: found.1, found.2))
        (ih world)
    | none =>
      let created := world.objects.create (Observer.recording name)
      have recording : Observer.recording name = (Observer.recording name).muted := rfl
      have objects : world.muted.objects.create (Observer.recording name) =
          (created.1, created.2.map .muted) := by
        rw [recording]
        exact world.objects.create_map ..
      dsimp only
      rw [objects]
      exact congrArg
        (fun found : List Lifecycle.ObjectId × World => (created.1 :: found.1, found.2))
        (ih { world with
          objects := created.2, objectNames := world.objectNames.set name created.1 })

end Session

end LiveTree
