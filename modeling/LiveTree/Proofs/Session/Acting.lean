import LiveTree.Proofs.Lifecycle.Telling
import LiveTree.Proofs.Session.Deeds

/-! Every step of the machine is a step on its stage, and the deed it does is the one that can be
read off the machine beforehand. There is a lemma for each family of commands, and one for each
kind of call that goes on or that a panic leaves. -/
namespace LiveTree.Session

open Awaiting LiveTree.Frame
open Lifecycle (ObjectId Registry)

namespace Stage

variable {stage : Stage} {source : QueueRef} {queue : CallbackQueue}

/-- Nothing is done. -/
theorem Step.still (stage : Stage) : stage.Step none stage := .rests (.refl _)

/-- To put a queue back changes nothing. -/
theorem setQueue_self (found : stage.awaiting source = some queue) :
    stage.setQueue source queue = stage := by
  unfold setQueue
  rw [← found, Function.update_eq_self]

/-- To set a phase that is already there changes nothing. -/
private theorem setPhase_self {id : Nat} {phase : Phase} (current : stage.phase? id = some phase) :
    stage.setPhase id phase = stage := by
  unfold setPhase
  rw [← current, Function.update_eq_self]

theorem accept?_of_ok {callback : Callback} {registration : Registration Callback Delivery}
    (found : stage.awaiting source = some queue)
    (accepted : queue.register callback = .ok registration) :
    stage.accept? source callback =
      some (.accepts source registration.ticket stage.handles.size callback
        (stage.hooks source registration.first)) := by
  obtain ⟨unclosed, rfl⟩ := Queue.register_eq_ok_iff.mp accepted
  simp [accept?, found, Queue.isClosed, unclosed]

private theorem accept?_of_error {callback : Callback} {closed : Closed}
    (found : stage.awaiting source = some queue)
    (refused : queue.closed = some closed) : stage.accept? source callback = none := by
  simp [accept?, found, Queue.isClosed, refused]

section Absent

variable (absent : stage.awaiting source = none)
include absent

private theorem accept?_of_absent (callback : Callback) : stage.accept? source callback = none := by
  simp [accept?, absent]

private theorem flush?_of_absent : stage.flush? source = none := by
  simp [flush?, absent]

private theorem close?_of_absent (reason : Closed) : stage.close? source reason = none := by
  simp [close?, absent]

end Absent

/-- To cancel a handle that does not exist does nothing. -/
private theorem Step.cancelled (stage : Stage) (id : HandleId) :
    stage.Step (stage.cancel? id) (stage.cancel id) := by
  unfold cancel?
  split
  · next known => exact .cancels known
  · next unknown =>
    have absent : stage.handles[id]? = none := Array.getElem?_eq_none (Nat.le_of_not_lt unknown)
    have same : stage.cancel id = stage := by
      simp only [cancel, Handles.cancel, absent]
    rw [same]
    exact .still stage

section Turn

variable {batch : Batch Delivery} {outer : List (Batch Delivery)}
  (found : stage.awaiting source = some queue) (running : queue.running = batch :: outer)
include found running

private theorem turn?_of_next {ticket : Ticket} {callback : Callback} {rest : List Ticket}
    (next : Queue.nextWaiting queue.awaiters batch.rest = some (ticket, callback, rest)) :
    stage.turn? source = some (.serves source ticket callback batch.purpose) := by
  simp only [turn?, found, running, next]

private theorem turn?_of_none (next : Queue.nextWaiting queue.awaiters batch.rest = none) :
    stage.turn? source = some (.finishes source) := by
  simp only [turn?, found, running, next]

end Turn

/-- The turn that is seen on the stage is the one that the queue behind it gives. -/
theorem turn?_cases_of_running {α ρ : Type} {queue : Queue α ρ} {value : α → Callback}
    {purpose : ρ → Delivery} {batch : Batch ρ} {outer : List (Batch ρ)}
    (seen : stage.awaiting source = some (queue.map value purpose))
    (running : queue.running = batch :: outer) :
    (∃ skipped ticket item rest,
      batch.rest = skipped ++ ticket :: rest ∧
      (∀ other ∈ skipped, queue.fate? other ≠ some .waiting) ∧
      queue.awaiters[ticket]? = some ⟨item, .waiting⟩ ∧
      queue.turn = .handOver batch.purpose item (queue.handOver ticket batch rest outer) ∧
      stage.turn? source = some (.serves source ticket (value item) (purpose batch.purpose))) ∨
    ((∀ ticket ∈ batch.rest, queue.fate? ticket ≠ some .waiting) ∧
      queue.turn = .finished batch.purpose batch.served { queue with running := outer } ∧
      stage.turn? source = some (.finishes source)) := by
  have runningSeen : (queue.map value purpose).running = _ := Queue.running_map_of_cons running
  have nextSeen : Queue.nextWaiting (queue.map value purpose).awaiters batch.rest = _ :=
    Queue.nextWaiting_map queue.awaiters batch.rest
  rcases Queue.turn_cases running with
    ⟨skipped, ticket, item, rest, split, passed, waiting, next, turn⟩ | ⟨passed, next, turn⟩
  · rw [next] at nextSeen
    exact .inl ⟨skipped, ticket, item, rest, split, passed, waiting, turn,
      turn?_of_next seen runningSeen nextSeen⟩
  · rw [next] at nextSeen
    exact .inr ⟨passed, turn, turn?_of_none seen runningSeen nextSeen⟩

/-- Whoever has a batch gives somebody his turn or is done. -/
theorem exists_turn? (found : stage.awaiting source = some queue) (busy : queue.running ≠ []) :
    (∃ ticket callback told, stage.turn? source = some (.serves source ticket callback told)) ∨
      stage.turn? source = some (.finishes source) := by
  obtain ⟨batch, outer, running⟩ := List.exists_cons_of_ne_nil busy
  cases next : Queue.nextWaiting queue.awaiters batch.rest with
  | none => exact .inr (turn?_of_none found running next)
  | some turn =>
    obtain ⟨ticket, callback, rest⟩ := turn
    exact .inl ⟨ticket, callback, batch.purpose, turn?_of_next found running next⟩

private theorem Step.advanced {object : ObjectId} {target : Lifecycle.State}
    {objects : Registry Observer} (legal : stage.objects.advance object target = .ok objects) :
    stage.Step (stage.advance? object target) { stage with objects } := by
  unfold advance?
  cases known : stage.objects.get? object with
  | none =>
    rw [Registry.advance_absent known legal]
    exact .still _
  | some kept =>
    have allowed := Registry.canBecome_of_advance legal
    simp only [Option.isNone_some, allowed]
    exact .moves (by rw [known]; rfl) legal

private theorem Step.refused {object : ObjectId} {target : Lifecycle.State}
    {illegal : Lifecycle.IllegalMove}
    (illegal : stage.objects.advance object target = .error illegal) :
    stage.Step (stage.advance? object target) stage := by
  have forbidden := (Registry.advance_eq_error_iff.mp illegal).1
  unfold advance?
  cases known : stage.objects.get? object with
  | none => exact .still _
  | some kept =>
    simp only [Option.isNone_some, forbidden]
    exact .refuses (by rw [known]; rfl) forbidden

end Stage

/-- Names that are resolved may create objects, and nothing else. -/
theorem World.resolveObjects_cases (world : World) (names : List Name) :
    ∃ objects objectNames, world.objects.Grown objects ∧
      (world.resolveObjects names).2 = { world with objects, objectNames } := by
  induction names generalizing world with
  | nil => exact ⟨world.objects, world.objectNames, .refl _, rfl⟩
  | cons name names ih =>
    unfold World.resolveObjects
    cases world.objectNames.get? name with
    | some id => exact ih world
    | none =>
      obtain ⟨objects, objectNames, grown, same⟩ := ih { world with
        objects := (world.objects.create (Observer.recording name)).2
        objectNames := world.objectNames.set name
          (world.objects.create (Observer.recording name)).1 }
      exact ⟨objects, objectNames, (Registry.Grown.create _ _).trans grown, same⟩

namespace Machine

variable {machine : Machine}

theorem step_of_stage_eq {after : Machine} (same : after.stage = machine.stage) :
    machine.stage.Step none after.stage := by
  rw [same]
  exact .still _

/-! ### Components that are replaced -/

theorem stage_setQueue {id : Nat} {old : Queue Waiter Delivery}
    (found : machine.world.queues[id]? = some old) (queue : Queue Waiter Delivery) :
    (machine.setQueue id queue).stage =
      machine.stage.setQueue (.queue id) (queue.map .waiter fun delivery => delivery) := by
  have inside : id < machine.world.queues.size := (Array.getElem?_eq_some_iff.mp found).1
  have awaiting : (machine.setQueue id queue).world.awaiting =
      Function.update machine.world.awaiting (.queue id)
        (some (queue.map .waiter fun delivery => delivery)) := by
    refine Function.eq_update_iff.mpr ⟨?_, fun other different => ?_⟩
    · simp [World.awaiting, setQueue, withWorld, inside]
    · cases other with
      | queue other =>
        have apart : id ≠ other := fun same => different (congrArg _ same.symm)
        simp [World.awaiting, setQueue, withWorld, apart]
      | scheduler | clock => rfl
  exact congrArg (fun awaiting => { machine.stage with awaiting }) awaiting

private theorem stage_setScheduler {id : Nat} {hosted : HostedScheduler}
    (found : machine.world.schedulers[id]? = some hosted) (core : Scheduler Action) :
    (machine.setScheduler id core).stage =
      (machine.stage.setQueue (.scheduler id) (core.queue.map .action Frame.Call.delivery)).setPhase
        id core.phase := by
  have awaiting : (machine.setScheduler id core).world.awaiting =
      Function.update machine.world.awaiting (.scheduler id)
        (some (core.queue.map .action Frame.Call.delivery)) := by
    refine Function.eq_update_iff.mpr ⟨?_, fun other different => ?_⟩
    · simp [World.awaiting, setScheduler, withWorld, Array.getElem?_modify, found]
    · cases other with
      | scheduler other =>
        have apart : id ≠ other := fun same => different (congrArg _ same.symm)
        simp [World.awaiting, setScheduler, withWorld, Array.getElem?_modify, apart]
      | queue | clock => rfl
  have phase? : (machine.setScheduler id core).world.phase? =
      Function.update machine.world.phase? id (some core.phase) := by
    refine Function.eq_update_iff.mpr ⟨?_, fun other different => ?_⟩
    · simp [World.phase?, setScheduler, withWorld, Array.getElem?_modify, found]
    · simp [World.phase?, setScheduler, withWorld, Array.getElem?_modify, different.symm]
  change { machine.stage with
    awaiting := (machine.setScheduler id core).world.awaiting
    phase? := (machine.setScheduler id core).world.phase? } = _
  rw [awaiting, phase?]
  rfl

/-- A scheduler that stays in its phase is changed in its queue only. -/
theorem stage_setScheduler_of_phase {id : Nat} {hosted : HostedScheduler}
    (found : machine.world.schedulers[id]? = some hosted) (core : Scheduler Action)
    (same : core.phase = hosted.core.phase) :
    (machine.setScheduler id core).stage =
      machine.stage.setQueue (.scheduler id) (core.queue.map .action Frame.Call.delivery) := by
  have current : machine.stage.phase? id = some hosted.core.phase := by
    simp [stage, World.phase?, found]
  rw [stage_setScheduler found, same]
  exact Stage.setPhase_self current

/-- A scheduler whose queue stays changes its phase only. -/
theorem stage_setScheduler_of_queue {id : Nat} {hosted : HostedScheduler}
    (found : machine.world.schedulers[id]? = some hosted) (core : Scheduler Action)
    (same : core.queue = hosted.core.queue) :
    (machine.setScheduler id core).stage = machine.stage.setPhase id core.phase := by
  have seen : machine.stage.awaiting (.scheduler id) =
      some (hosted.core.queue.map .action Frame.Call.delivery) := by
    simp [stage, World.awaiting, found]
  rw [stage_setScheduler found, same, Stage.setQueue_self seen]

theorem stage_setClock {id : Nat} {hosted : HostedClock}
    (found : machine.world.clocks[id]? = some hosted) (core : Clock Waiter) :
    (machine.setClock id core).stage =
      machine.stage.setQueue (.clock id) (core.awaiters.map .waiter Tick.delivery) := by
  have awaiting : (machine.setClock id core).world.awaiting =
      Function.update machine.world.awaiting (.clock id)
        (some (core.awaiters.map .waiter Tick.delivery)) := by
    refine Function.eq_update_iff.mpr ⟨?_, fun other different => ?_⟩
    · simp [World.awaiting, setClock, withWorld, Array.getElem?_modify, found]
    · cases other with
      | clock other =>
        have apart : id ≠ other := fun same => different (congrArg _ same.symm)
        simp [World.awaiting, setClock, withWorld, Array.getElem?_modify, apart]
      | queue | scheduler => rfl
  exact congrArg (fun awaiting => { machine.stage with awaiting }) awaiting

theorem awaiting_withdraw (world : World) (source : QueueRef) (ticket : Ticket) :
    (world.withdraw source ticket).awaiting =
      Function.update world.awaiting source ((world.awaiting source).map (·.withdraw ticket)) := by
  funext other
  by_cases same : other = source
  · subst same
    rw [Function.update_self]
    cases other <;>
      simp [World.awaiting, World.withdraw, Array.getElem?_modify, Option.map_map,
        Function.comp_def, Queue.map_withdraw]
  · rw [Function.update_of_ne same]
    cases source <;> cases other <;>
      simp_all [World.awaiting, World.withdraw, Array.getElem?_modify, eq_comm]

private theorem phase?_withdraw (world : World) (source : QueueRef) (ticket : Ticket) :
    (world.withdraw source ticket).phase? = world.phase? := by
  funext other
  rcases source with id | id | id
  · rfl
  · simp only [World.phase?, World.withdraw, Array.getElem?_modify]
    split
    · rw [Option.map_map]
      rfl
    · rfl
  · rfl

private theorem stage_withdraw (source : QueueRef) (ticket : Ticket) :
    (machine.withWorld (machine.world.withdraw source ticket)).stage =
      machine.stage.withdraw source ticket := by
  have objects : (machine.world.withdraw source ticket).objects = machine.world.objects := by
    cases source <;> rfl
  have handles : (machine.world.withdraw source ticket).handles = machine.world.handles := by
    cases source <;> rfl
  simp only [stage, withWorld, Stage.withdraw, awaiting_withdraw, phase?_withdraw, objects, handles]

private theorem stage_cancel (id : HandleId) :
    (machine.cancel id).stage = machine.stage.cancel id := by
  unfold cancel Stage.cancel
  simp only [stage]
  rcases (machine.world.handles.cancel id).1.action with _ | ⟨handle, body⟩ | ⟨source, ticket⟩
  · rfl
  · rfl
  · exact stage_withdraw source ticket

@[simp]
theorem stage_keepHandle (source : QueueRef) (ticket : Ticket) (name : Option Name) :
    (machine.keepHandle source ticket name).stage = machine.stage.issue source ticket := rfl

/-! ### Looking a component up -/

section Lookup

variable {name : Name} {id : Nat}

theorem awaiting_queue {queue : Queue Waiter Delivery}
    (found : machine.world.queues[id]? = some queue) :
    machine.stage.awaiting (.queue id) = some (queue.map .waiter fun delivery => delivery) := by
  simp [stage, World.awaiting, found]

theorem awaiting_scheduler {hosted : HostedScheduler}
    (found : machine.world.schedulers[id]? = some hosted) :
    machine.stage.awaiting (.scheduler id) =
      some (hosted.core.queue.map .action Frame.Call.delivery) := by
  simp [stage, World.awaiting, found]

theorem phase?_scheduler {hosted : HostedScheduler}
    (found : machine.world.schedulers[id]? = some hosted) :
    machine.stage.phase? id = some hosted.core.phase := by
  simp [stage, World.phase?, found]

theorem awaiting_clock {hosted : HostedClock} (found : machine.world.clocks[id]? = some hosted) :
    machine.stage.awaiting (.clock id) = some (hosted.core.awaiters.map .waiter Tick.delivery) := by
  simp [stage, World.awaiting, found]

/-- Work on the queue of a name does a deed if the queue exists. -/
private theorem step_onQueue {deed? : Nat → Option Deed}
    {work : Nat → Queue Waiter Delivery → Machine}
    (absent : ∀ id, machine.stage.awaiting (.queue id) = none → deed? id = none)
    (present : ∀ id queue, machine.world.queues[id]? = some queue →
      machine.stage.Step (deed? id) (work id queue).stage) :
    machine.stage.Step ((machine.world.queueNames.get? name).bind deed?)
      (machine.onQueue name work).stage := by
  unfold onQueue
  cases machine.world.queueNames.get? name with
  | none => exact .still _
  | some id =>
    rw [Option.bind_some]
    cases found : machine.world.queues[id]? with
    | none =>
      rw [absent id (by simp [stage, World.awaiting, found])]
      simp only [found]
      exact .still _
    | some queue =>
      simp only [found]
      exact present id queue found

private theorem step_onScheduler {deed? : Nat → Option Deed}
    {work : Nat → HostedScheduler → Machine}
    (absent : ∀ id, machine.stage.awaiting (.scheduler id) = none →
      machine.stage.phase? id = none → deed? id = none)
    (present : ∀ id hosted, machine.world.schedulers[id]? = some hosted →
      machine.stage.Step (deed? id) (work id hosted).stage) :
    machine.stage.Step ((machine.world.schedulerNames.get? name).bind deed?)
      (machine.onScheduler name work).stage := by
  unfold onScheduler
  cases machine.world.schedulerNames.get? name with
  | none => exact .still _
  | some id =>
    rw [Option.bind_some]
    cases found : machine.world.schedulers[id]? with
    | none =>
      rw [absent id (by simp [stage, World.awaiting, found]) (by simp [stage, World.phase?, found])]
      simp only [found]
      exact .still _
    | some hosted =>
      simp only [found]
      exact present id hosted found

private theorem step_onClock {deed? : Nat → Option Deed} {work : Nat → HostedClock → Machine}
    (absent : ∀ id, machine.stage.awaiting (.clock id) = none → deed? id = none)
    (present : ∀ id hosted, machine.world.clocks[id]? = some hosted →
      machine.stage.Step (deed? id) (work id hosted).stage) :
    machine.stage.Step ((machine.world.clockNames.get? name).bind deed?)
      (machine.onClock name work).stage := by
  unfold onClock
  cases machine.world.clockNames.get? name with
  | none => exact .still _
  | some id =>
    rw [Option.bind_some]
    cases found : machine.world.clocks[id]? with
    | none =>
      rw [absent id (by simp [stage, World.awaiting, found])]
      simp only [found]
      exact .still _
    | some hosted =>
      simp only [found]
      exact present id hosted found

/-- A registration with the queue of any component. -/
private theorem step_register {α ρ : Type} {source : QueueRef} {queue : Queue α ρ}
    {value : α → Callback} {purpose : ρ → Delivery} {item : α} {after : Machine}
    (seen : machine.stage.awaiting source = some (queue.map value purpose))
    (refused : ∀ closed, queue.register item = .error closed → after.stage = machine.stage)
    (accepted : ∀ registration, queue.register item = .ok registration →
      after.stage =
        (machine.stage.setQueue source (registration.queue.map value purpose)).issue source
          registration.ticket) :
    machine.stage.Step (machine.stage.accept? source (value item)) after.stage := by
  cases answer : queue.register item with
  | error closed =>
    have shut : (queue.map value purpose).closed = some closed := by
      rw [Queue.closed_map]
      exact Queue.register_eq_error_iff.mp answer
    rw [Stage.accept?_of_error seen shut, refused closed answer]
    exact .still _
  | ok registration =>
    have accepted' : (queue.map value purpose).register (value item) =
        .ok (registration.map value purpose) := Queue.register_map answer
    rw [Stage.accept?_of_ok seen accepted', accepted registration answer]
    exact .accepts seen accepted'

end Lookup

/-! ### Commands on queues, schedulers, clocks and handles -/

private theorem stage_createQueue (name : Name) :
    (machine.executeQueue (.create name)).stage =
      machine.stage.setQueue (.queue machine.world.queues.size) {} := by
  have awaiting : (machine.executeQueue (.create name)).world.awaiting =
      Function.update machine.world.awaiting (.queue machine.world.queues.size) (some {}) := by
    refine Function.eq_update_iff.mpr ⟨?_, fun other different => ?_⟩
    · simp [World.awaiting, executeQueue, nameQueue, withWorld, reply]
    · cases other with
      | queue other =>
        have apart : other ≠ machine.world.queues.size := fun same => different (congrArg _ same)
        simp [World.awaiting, executeQueue, nameQueue, withWorld, reply, Array.getElem?_push,
          apart]
      | scheduler | clock => rfl
  exact congrArg (fun awaiting => { machine.stage with awaiting }) awaiting

private theorem step_executeQueue (command : QueueCommand Body) :
    machine.stage.Step (machine.started? (.queue command))
      (machine.executeQueue command).stage := by
  cases command with
  | create name =>
    rw [stage_createQueue]
    exact .opens (by simp [stage, World.awaiting])
  | share | forget | describe => exact step_of_stage_eq (onQueue_eq rfl fun _ _ => rfl)
  | register name item handle resumed refused first =>
    refine step_onQueue (fun _ absent => Stage.accept?_of_absent absent _) fun id queue found => ?_
    refine step_register (awaiting_queue found) (fun closed answer => ?_)
      fun registration answer => ?_
    · simp only [answer]
      rfl
    · rw [← stage_setQueue found]
      simp only [answer]
      split <;> simp
  | flush name =>
    refine step_onQueue (fun _ => Stage.flush?_of_absent) fun id queue found => ?_
    have seen := awaiting_queue found
    rw [Stage.flush?, seen, stage_proceed, stage_push_of_source _ rfl, stage_setQueue found]
    exact .flushes seen fun _ other => by cases other
  | close name reason =>
    refine step_onQueue (fun _ absent => Stage.close?_of_absent absent _) fun id queue found => ?_
    have seen := awaiting_queue found
    rw [Stage.close?, seen, stage_proceed, stage_push_of_source _ rfl, stage_setQueue found]
    exact .closes seen ⟨reason⟩

theorem step_schedule {name : Name} {handle : Option Name} {action : Action} :
    machine.stage.Step
      ((machine.world.schedulerNames.get? name).bind fun id =>
        machine.stage.accept? (.scheduler id) (.action action))
      (machine.schedule name handle action).stage := by
  refine step_onScheduler (fun _ absent _ => Stage.accept?_of_absent absent _)
    fun id hosted found => ?_
  refine step_register (awaiting_scheduler found) (fun closed answer => ?_)
    fun registration answer => ?_
  · simp only [Scheduler.schedule, answer]
    rfl
  · rw [← stage_setScheduler_of_phase found { hosted.core with queue := registration.queue } rfl]
    simp only [Scheduler.schedule, answer]
    split <;> simp

private theorem stage_createScheduler (name : Name) (config : Settings.FrameConfig) (wake : Body) :
    (machine.executeScheduler (.create name config wake)).stage =
      (machine.stage.setQueue (.scheduler machine.world.schedulers.size) {}).setPhase
        machine.world.schedulers.size ⟨false, config.notifyPolicy, 0⟩ := by
  have awaiting : (machine.executeScheduler (.create name config wake)).world.awaiting =
      Function.update machine.world.awaiting (.scheduler machine.world.schedulers.size)
        (some {}) := by
    refine Function.eq_update_iff.mpr ⟨?_, fun other different => ?_⟩
    · simp [World.awaiting, executeScheduler, nameScheduler, withWorld, reply]
    · cases other with
      | scheduler other =>
        have apart : other ≠ machine.world.schedulers.size :=
          fun same => different (congrArg _ same)
        simp [World.awaiting, executeScheduler, nameScheduler, withWorld, reply,
          Array.getElem?_push, apart]
      | queue | clock => rfl
  have phase? : (machine.executeScheduler (.create name config wake)).world.phase? =
      Function.update machine.world.phase? machine.world.schedulers.size
        (some ⟨false, config.notifyPolicy, 0⟩) := by
    refine Function.eq_update_iff.mpr ⟨?_, fun other different => ?_⟩
    · simp [World.phase?, executeScheduler, nameScheduler, withWorld, reply, Scheduler.phase]
    · simp [World.phase?, executeScheduler, nameScheduler, withWorld, reply,
        Array.getElem?_push, different]
  change { machine.stage with
    awaiting := (machine.executeScheduler (.create name config wake)).world.awaiting
    phase? := (machine.executeScheduler (.create name config wake)).world.phase? } = _
  rw [awaiting, phase?]
  rfl

/-- To complete a frame of a scheduler that is closed is to be idle. -/
private theorem step_completeFrame (name : Name) :
    machine.stage.Step (machine.started? (.scheduler (.completeFrame name)))
      (machine.executeScheduler (.completeFrame name)).stage := by
  refine step_onScheduler (fun _ absent _ => by rw [Stage.complete?, absent]; rfl)
    fun id hosted found => ?_
  have seen := awaiting_scheduler found
  have current := phase?_scheduler found
  rw [Stage.complete?, seen, Option.map_some, Queue.isClosed_map]
  by_cases closed : hosted.core.queue.isClosed = true
  · have completion : hosted.core.completeFrame =
        .idle { frame := hosted.core.framesCompleted } { hosted.core with inFrame := false } := by
      simp [Scheduler.completeFrame, closed]
    rw [if_pos closed]
    simp only [completion]
    rw [stage_reply,
      stage_setScheduler_of_queue found { hosted.core with inFrame := false } rfl]
    exact .idles seen current (Option.isSome_iff_ne_none.mp closed)
  · have completion : hosted.core.completeFrame =
        .started (hosted.core.framesCompleted + 1)
          { hosted.core with
            queue := hosted.core.queue.flush (.completing (hosted.core.framesCompleted + 1) [])
            inFrame := false
            framesCompleted := hosted.core.framesCompleted + 1 } := by
      simp [Scheduler.completeFrame, closed]
    rw [if_neg closed]
    simp only [completion]
    rw [stage_proceed, stage_push_of_source _ rfl, stage_enter, stage_setScheduler found]
    exact .completes seen current (by simpa [Queue.isClosed] using closed)

private theorem step_executeScheduler (command : SchedulerCommand Body) :
    machine.stage.Step (machine.started? (.scheduler command))
      (machine.executeScheduler command).stage := by
  cases command with
  | create name config wake =>
    rw [stage_createScheduler]
    exact .installs (by simp [stage, World.awaiting])
  | share | describe => exact step_of_stage_eq (onScheduler_eq rfl fun _ _ => rfl)
  | schedulePlain | scheduleInformed => exact step_schedule
  | startFrame name =>
    refine step_onScheduler (fun _ _ absent => by rw [absent]; rfl) fun id hosted found => ?_
    have current := phase?_scheduler found
    rw [current, stage_reply, stage_setScheduler_of_queue found hosted.core.startFrame rfl]
    exact .startsFrame current
  | completeFrame name => exact step_completeFrame name
  | close name reason =>
    refine step_onScheduler (fun _ absent _ => Stage.close?_of_absent absent _)
      fun id hosted found => ?_
    have seen := awaiting_scheduler found
    rw [Stage.close?, seen, stage_proceed, stage_push_of_source _ rfl,
      stage_setScheduler_of_phase found (hosted.core.close ⟨reason⟩) rfl]
    exact .closes seen ⟨reason⟩

private theorem stage_createClock (name : Name) (wake : Body) :
    (machine.executeClock (.create name wake)).stage =
      machine.stage.setQueue (.clock machine.world.clocks.size) {} := by
  have awaiting : (machine.executeClock (.create name wake)).world.awaiting =
      Function.update machine.world.awaiting (.clock machine.world.clocks.size) (some {}) := by
    refine Function.eq_update_iff.mpr ⟨?_, fun other different => ?_⟩
    · simp [World.awaiting, executeClock, nameClock, withWorld, reply]
    · cases other with
      | clock other =>
        have apart : other ≠ machine.world.clocks.size := fun same => different (congrArg _ same)
        simp [World.awaiting, executeClock, nameClock, withWorld, reply, Array.getElem?_push,
          apart]
      | queue | scheduler => rfl
  exact congrArg (fun awaiting => { machine.stage with awaiting }) awaiting

private theorem step_executeClock (command : ClockCommand Body) :
    machine.stage.Step (machine.started? (.clock command))
      (machine.executeClock command).stage := by
  cases command with
  | create name wake =>
    rw [stage_createClock]
    exact .opens (by simp [stage, World.awaiting])
  | share | describe => exact step_of_stage_eq (onClock_eq rfl fun _ _ => rfl)
  | register name item handle ticked refused =>
    refine step_onClock (fun _ absent => Stage.accept?_of_absent absent _) fun id hosted found => ?_
    refine step_register (awaiting_clock found) (fun closed answer => ?_)
      fun registration answer => ?_
    · simp only [answer]
      rfl
    · rw [← stage_setClock found ⟨registration.queue⟩]
      simp only [answer]
      split <;> simp
  | send name time =>
    refine step_onClock (fun _ => Stage.flush?_of_absent) fun id hosted found => ?_
    have seen := awaiting_clock found
    rw [Stage.flush?, seen, stage_proceed, stage_push_of_source _ rfl, stage_setClock found]
    exact .flushes seen fun _ other => by cases other
  | close name reason =>
    refine step_onClock (fun _ absent => Stage.close?_of_absent absent _) fun id hosted found => ?_
    have seen := awaiting_clock found
    rw [Stage.close?, seen, stage_proceed, stage_push_of_source _ rfl, stage_setClock found]
    exact .closes seen ⟨reason⟩

/-- An attempt to cancel a handle, whatever is done before it that is not seen. -/
private theorem step_cancel {before : Machine} (same : before.stage = machine.stage)
    (id : HandleId) : machine.stage.Step (machine.stage.cancel? id) (before.cancel id).stage := by
  rw [stage_cancel, same]
  exact .cancelled _ id

private theorem step_executeHandle (command : HandleCommand Body) :
    machine.stage.Step (machine.started? (.handle command))
      (machine.executeHandle command).stage := by
  cases command with
  | create name action => exact .keeps (.forAction (.run name action)) nofun
  | createIdle name => exact .keeps .idle nofun
  | share | describe => exact step_of_stage_eq (onHandle_eq rfl fun _ _ => rfl)
  | cancel name =>
    simp only [started?, executeHandle, onHandle]
    cases machine.world.handleNames.get? name with
    | none => exact .still _
    | some id =>
      rw [Option.bind_some]
      cases found : machine.world.handles[id]? with
      | none =>
        have unknown : ¬ id < machine.stage.handles.size := by
          exact Nat.not_lt.mpr (Array.getElem?_eq_none_iff.mp found)
        simp only [Stage.cancel?, if_neg unknown, found]
        exact .still _
      | some handle =>
        simp only [found]
        exact step_cancel (stage_push _ rfl) id
  | guard name guard =>
    simp only [started?, executeHandle, onHandle]
    cases machine.world.handleNames.get? name with
    | none => exact .still _
    | some id =>
      cases found : machine.world.handles[id]? with
      | none =>
        simp only [Option.bind_some, found]
        exact .still _
      | some handle =>
        simp only [Option.bind_some, found, storeGuard]
        cases machine.world.guards.get? guard with
        | none => exact .still _
        | some former =>
          refine step_cancel ?_ former.handle
          exact stage_push _ rfl
  | disarm name handle =>
    refine step_of_stage_eq (onGuard_eq rfl fun guard => ?_)
    cases handle <;> rfl
  | release name =>
    simp only [started?, executeHandle, onGuard]
    cases machine.world.guards.get? name with
    | none => exact .still _
    | some guard =>
      refine step_cancel ?_ guard.handle
      exact stage_push _ rfl
  | describeGuard =>
    refine step_of_stage_eq (onGuard_eq rfl fun guard => ?_)
    split <;> rfl

/-! ### Commands on objects, dispatchers and pools -/

/-- An attempt to move an object, whatever is done around it that is not seen. -/
theorem step_advance {object : ObjectId} {target : Lifecycle.State}
    {refused : Lifecycle.IllegalMove → Machine} {allowed : Machine → Machine}
    (refusedSame : ∀ illegal, (refused illegal).stage = machine.stage)
    (allowedSame : ∀ moved : Machine, moved.stack = machine.stack →
      (allowed moved).stage = moved.stage) :
    machine.stage.Step (machine.stage.advance? object target)
      (machine.advance object target refused allowed).stage := by
  unfold advance
  cases answer : machine.world.objects.advance object target with
  | error illegal =>
    simp only [refusedSame]
    exact .refused answer
  | ok objects =>
    simp only [stage_tellState]
    rw [allowedSame (machine.withWorld { machine.world with objects }) rfl]
    exact .advanced answer

private theorem step_executeObject (command : ObjectCommand Body) :
    machine.stage.Step (machine.started? (.object command))
      (machine.executeObject command).stage := by
  cases command with
  | create name reactions =>
    exact .rests (Registry.Grown.create _ (Observer.mk name reactions))
  | share | describe => exact step_of_stage_eq (onObject_eq rfl fun _ => rfl)
  | compare =>
    refine step_of_stage_eq (onObject_eq rfl fun id => ?_)
    split <;> rfl
  | advance name target =>
    simp only [started?, executeObject, onObject]
    cases machine.world.objectNames.get? name with
    | none => exact .still _
    | some id => exact step_advance (fun _ => rfl) fun moved _ => stage_push moved rfl
  | poke name event =>
    refine step_of_stage_eq (onObject_eq rfl fun id => ?_)
    split
    · rfl
    · rw [stage_tell, stage_push _ rfl]

private theorem step_executeDispatcher (command : DispatcherCommand) :
    machine.stage.Step none (machine.executeDispatcher command).stage := by
  cases command with
  | create name => exact .still _
  | record name event objects =>
    simp only [executeDispatcher, onDispatcher]
    split
    · exact .still _
    · split
      · exact .still _
      · obtain ⟨kept, objectNames, grown, same⟩ := machine.world.resolveObjects_cases objects
        rw [same]
        exact .rests grown
  | dispatch =>
    refine step_of_stage_eq (onDispatcher_eq rfl rfl fun id dispatcher => ?_)
    rw [stage_proceed, stage_push _ rfl, stage_setDispatcher]
  | takeRetirements | describe =>
    refine step_of_stage_eq (onDispatcher_eq rfl rfl fun id dispatcher => ?_)
    simp

private theorem stage_place (id : Nat) (pool : Pool) (descriptor : DescriptorId) (parameter : Int)
    (position : Position.Hash) (name : Name) (described : Bool) :
    (machine.place id pool descriptor parameter position name described).stage = machine.stage := by
  unfold place
  dsimp only
  split <;> simp

private theorem stage_depart (id : Nat) (pool : Pool) (name : Name)
    (descriptor : Option DescriptorId) (entry : Entry) :
    (machine.depart id pool name descriptor entry).stage = machine.stage := by
  unfold depart
  dsimp only
  split
  · rfl
  · rw [stage_reply, stage_diagnose]
    rfl

private theorem stage_claim (id : Nat) (pool : Pool) (descriptor : DescriptorId) (name : Name) :
    (machine.claim id pool descriptor name).stage = machine.stage := by
  unfold claim
  split
  · rfl
  · rw [stage_reply, stage_storeEntry, stage_diagnose, stage_setPool]

private theorem stage_createPool (name : Name) (config : Settings.RelocationConfig) :
    (machine.createPool name config).stage = machine.stage := by
  unfold createPool
  dsimp only
  split
  · rfl
  · rw [stage_release]
    rfl

/-- What names are resolved to may be new objects. -/
theorem step_resolved (names : List Name) {after : Machine}
    (same : after.stage = (machine.withWorld (machine.world.resolveObjects names).2).stage) :
    machine.stage.Step none after.stage := by
  obtain ⟨objects, objectNames, grown, world⟩ := machine.world.resolveObjects_cases names
  rw [same, world]
  exact .rests grown

private theorem step_executePool (command : PoolCommand Body) :
    machine.stage.Step none (machine.executePool command).stage := by
  cases command with
  | create name config => exact step_of_stage_eq (stage_createPool name config)
  | instantiate name entry descriptor handle parameter place objects =>
    simp only [executePool, onPool, atPlace]
    split
    · exact .still _
    · split
      · exact .still _
      · split
        · exact step_resolved objects (by simp [instantiate])
        · split
          · exact .still _
          · exact step_resolved objects (by simp [instantiate])
  | place =>
    exact step_of_stage_eq
      (onPool_eq rfl rfl fun _ _ => atPlace_eq rfl fun _ => stage_place ..)
  | depart =>
    exact step_of_stage_eq
      (onPool_eq rfl rfl fun _ _ => onEntry_eq rfl fun _ => stage_depart ..)
  | deactivate =>
    exact step_of_stage_eq (onPool_eq rfl rfl fun _ _ => onEntry_eq rfl fun _ => rfl)
  | discard =>
    refine step_of_stage_eq (onPool_eq rfl rfl fun id pool => ?_)
    split
    · rfl
    · rw [stage_release]
      rfl
  | endPass =>
    refine step_of_stage_eq (onPool_eq rfl rfl fun id pool => ?_)
    rw [stage_proceed, stage_push _ rfl, stage_enter, stage_setPool]
  | dispatch =>
    refine step_of_stage_eq (onPool_eq rfl rfl fun id pool => ?_)
    rw [stage_proceed, stage_push _ rfl, stage_setPool]
  | takeRetirements =>
    refine step_of_stage_eq (onPool_eq rfl rfl fun id pool => ?_)
    rw [stage_storeBatch, stage_push _ rfl, stage_setPool]
  | claim => exact step_of_stage_eq (onPool_eq rfl rfl fun _ _ => stage_claim ..)
  | describe | query => exact step_of_stage_eq (onPool_eq rfl rfl fun _ _ => rfl)

theorem step_execute (command : Command) :
    machine.stage.Step (machine.started? command) (machine.execute command).stage := by
  cases command with
  | note | inspect | panic | iterate => exact .still _
  | call script =>
    simp only [execute]
    split <;> exact .still _
  | queue command => exact step_executeQueue command
  | scheduler command => exact step_executeScheduler command
  | clock command => exact step_executeClock command
  | handle command => exact step_executeHandle command
  | object command => exact step_executeObject command
  | dispatcher command => exact step_executeDispatcher command
  | batch command => exact step_of_stage_eq (stage_executeBatch machine command)
  | pool command => exact step_executePool command
  | entry command => exact step_of_stage_eq (stage_executeEntry machine command)
  | hasher command => exact step_of_stage_eq (stage_executeHasher machine command)
  | arena command => exact step_of_stage_eq (stage_executeArena machine command)

end Machine

end LiveTree.Session
