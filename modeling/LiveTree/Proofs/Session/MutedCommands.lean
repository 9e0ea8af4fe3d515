import LiveTree.Proofs.Session.Muting

/-! Commands of muted machines. A diagnostic is produced and never read, and the failure policy is
read only where one is produced; so a command does the same whether the machine is muted before or
after, family by family. The one exception is the text of a scheduler, which shows its policy. -/
namespace LiveTree.Session

open Awaiting LiveTree.Frame
open Lifecycle (ObjectId)

namespace Machine

section Parts

variable {switch : Switch} {earlier : List Event} (machine : Machine)

@[simp]
theorem muted_reply (answer : Answer) :
    (machine.muted switch earlier).reply answer =
      (machine.reply answer).muted switch earlier := rfl

@[simp]
theorem muted_proceed :
    (machine.muted switch earlier).proceed = machine.proceed.muted switch earlier := rfl

@[simp]
theorem muted_push (call : Call) :
    (machine.muted switch earlier).push call.muted =
      (machine.push call).muted switch earlier := rfl

@[simp]
theorem muted_become (call : Call) :
    (machine.muted switch earlier).become call.muted =
      (machine.become call).muted switch earlier := by
  simp [become, muted]

@[simp]
theorem muted_pop :
    (machine.muted switch earlier).pop = machine.pop.muted switch earlier := by
  simp [pop, muted]

@[simp]
theorem muted_run (body : Body) :
    (machine.muted switch earlier).run (mutedBody body) =
      (machine.run body).muted switch earlier := rfl

private theorem muted_report {event : Event} (kept : switch.keeps event) :
    (machine.muted switch earlier).report event =
      (machine.report event).muted switch earlier := by
  simp [report, muted, Switch.kept, kept]

/-- An event that depends on what is switched is not in a muted log. -/
private theorem muted_report_of_not_keeps {event : Event} (lost : switch.keeps event = false) :
    (machine.report event).muted switch earlier = machine.muted switch earlier := by
  simp [report, muted, Switch.kept, lost]

theorem muted_callBack {event : Event} (kept : switch.keeps event) (body : Body) :
    (machine.muted switch earlier).callBack event (mutedBody body) =
      (machine.callBack event body).muted switch earlier := by
  rw [callBack, muted_report machine kept, muted_run, callBack]

@[simp]
theorem muted_setPool (id : Nat) (pool : Option Pool) :
    (machine.muted switch earlier).setPool id pool =
      (machine.setPool id pool).muted switch earlier := rfl

@[simp]
theorem muted_setDispatcher (id : Nat) (dispatcher : Option Lifecycle.Dispatcher) :
    (machine.muted switch earlier).setDispatcher id dispatcher =
      (machine.setDispatcher id dispatcher).muted switch earlier := rfl

@[simp]
theorem muted_storeEntry (name : Name) (entry : Entry) :
    (machine.muted switch earlier).storeEntry name entry =
      (machine.storeEntry name entry).muted switch earlier := rfl

@[simp]
theorem muted_discardBatch (batch : Lifecycle.RetireBatch) :
    (machine.muted switch earlier).discardBatch batch =
      (machine.discardBatch batch).muted switch earlier := rfl

/-! ### The components of a muted machine -/

theorem getElem?_queues_muted (id : Nat) :
    (machine.muted switch earlier).world.queues[id]? = (machine.world.queues[id]?).map .muted :=
  Array.getElem?_map

theorem getElem?_schedulers_muted (id : Nat) :
    (machine.muted switch earlier).world.schedulers[id]? =
      (machine.world.schedulers[id]?).map .muted :=
  Array.getElem?_map

theorem getElem?_clocks_muted (id : Nat) :
    (machine.muted switch earlier).world.clocks[id]? = (machine.world.clocks[id]?).map .muted :=
  Array.getElem?_map

private theorem getElem?_handles_muted (id : HandleId) :
    (machine.muted switch earlier).world.handles[id]? =
      (machine.world.handles[id]?).map (.map .muted) :=
  Array.getElem?_map

theorem viewEntry_muted (entry : Entry) :
    (machine.muted switch earlier).world.viewEntry entry = machine.world.viewEntry entry :=
  machine.world.viewEntry_muted entry

theorem resolveObjects_muted (names : List Name) :
    (machine.muted switch earlier).world.resolveObjects names =
      ((machine.world.resolveObjects names).1, (machine.world.resolveObjects names).2.muted) :=
  machine.world.resolveObjects_muted names

theorem muted_withWorld (world : World) :
    (machine.muted switch earlier).withWorld world.muted =
      (machine.withWorld world).muted switch earlier := rfl

/-! ### Diagnostics -/

/-- What is reported to whoever listens, whatever is switched, is reported by a muted machine to
whoever is sure to listen. -/
private theorem muted_report_if_heard {event : Event} (severity : Severity)
    (about : switch.keeps event = decide (switch = .policies)) :
    (if (machine.muted switch earlier).hears severity then
        (machine.muted switch earlier).report event
      else machine.muted switch earlier) =
      (if machine.hears severity then machine.report event else machine).muted switch earlier := by
  rw [apply_ite (muted switch earlier)]
  cases switch with
  | listening =>
    rw [muted_report_of_not_keeps machine about, ite_self]
    rfl
  | policies =>
    rw [muted_report machine about]
    rfl

/-- A diagnostic is produced for whoever listens, unless it warns of a panic. -/
theorem muted_diagnose {diagnostic : Diagnostic} (plain : diagnostic.warnsOfPanic = false) :
    (machine.muted switch earlier).diagnose diagnostic =
      (machine.diagnose diagnostic).muted switch earlier :=
  machine.muted_report_if_heard _ (by simp [Switch.keeps, plain])

/-- A warning of a panic is not heard. -/
theorem muted_diagnose_of_warns {diagnostic : Diagnostic} (warns : diagnostic.warnsOfPanic) :
    (machine.diagnose diagnostic).muted switch earlier = machine.muted switch earlier := by
  have lost : switch.keeps (.diagnostic diagnostic) = false := by
    cases switch <;> simp [Switch.keeps, warns]
  unfold diagnose
  rw [apply_ite (muted switch earlier), muted_report_of_not_keeps machine lost, ite_self]

/-- Of several diagnostics, those are heard that do not warn of a panic. -/
theorem muted_diagnoseAll (diagnostics : List Diagnostic) :
    (machine.muted switch earlier).diagnoseAll
        (diagnostics.filter fun diagnostic => !diagnostic.warnsOfPanic) =
      (machine.diagnoseAll diagnostics).muted switch earlier := by
  unfold diagnoseAll
  induction diagnostics generalizing machine with
  | nil => rfl
  | cons diagnostic diagnostics ih =>
    rw [List.foldl_cons, ← ih]
    cases warns : diagnostic.warnsOfPanic with
    | false =>
      rw [List.filter_cons_of_pos (by rw [warns]; rfl), List.foldl_cons,
        muted_diagnose machine warns]
    | true =>
      rw [List.filter_cons_of_neg (by rw [warns]; decide), muted_diagnose_of_warns machine warns]

theorem muted_diagnoseAll_of_plain {diagnostics : List Diagnostic}
    (plain : ∀ diagnostic ∈ diagnostics, diagnostic.warnsOfPanic = false) :
    (machine.muted switch earlier).diagnoseAll diagnostics =
      (machine.diagnoseAll diagnostics).muted switch earlier := by
  rw [← muted_diagnoseAll, List.filter_eq_self.mpr fun diagnostic member => by
    rw [plain diagnostic member]; rfl]

@[simp]
theorem muted_enter (span : Span) :
    (machine.muted switch earlier).enter span = (machine.enter span).muted switch earlier :=
  machine.muted_report_if_heard _ rfl

@[simp]
theorem muted_leave (span : Span) :
    (machine.muted switch earlier).leave span = (machine.leave span).muted switch earlier :=
  machine.muted_report_if_heard _ rfl

@[simp]
theorem muted_diagnoseDisposal (pool : Pool) :
    (machine.muted switch earlier).diagnoseDisposal pool =
      (machine.diagnoseDisposal pool).muted switch earlier := by
  refine muted_diagnoseAll_of_plain machine fun diagnostic member => ?_
  obtain ⟨entry, -, rfl⟩ := List.mem_map.mp member
  rfl

/-! ### What commands and calls have in common -/

@[simp]
theorem muted_finish (ending : Except Panic Answer) :
    (machine.muted switch earlier).finish ending =
      (machine.finish ending).muted switch earlier := by
  cases ending <;> rfl

@[simp]
theorem muted_tell (id : ObjectId) (event : Lifecycle.Event) :
    (machine.muted switch earlier).tell id event =
      (machine.tell id event).muted switch earlier := by
  have seen : (machine.muted switch earlier).world.objects.get? id =
      (machine.world.objects.get? id).map (.map .muted) := machine.world.objects.get?_map ..
  unfold tell
  rw [seen]
  cases machine.world.objects.get? id with
  | none => rfl
  | some object =>
    dsimp only [Option.map_some, Lifecycle.Retained.map, Observer.muted]
    rw [Reactions.silent_muted, Reactions.to_muted, muted_callBack machine (by rfl)]
    split <;> rfl

@[simp]
theorem muted_tellState (id : ObjectId) (state : Lifecycle.State) :
    (machine.muted switch earlier).tellState id state =
      (machine.tellState id state).muted switch earlier := by
  unfold tellState
  split
  · exact machine.muted_tell id _
  · rfl

theorem muted_advance (id : ObjectId) (target : Lifecycle.State)
    {refused other : Lifecycle.IllegalMove → Machine} {allowed later : Machine → Machine}
    (refusedSame : ∀ illegal, other illegal = (refused illegal).muted switch earlier)
    (allowedSame : ∀ moved : Machine,
      later (moved.muted switch earlier) = (allowed moved).muted switch earlier) :
    (machine.muted switch earlier).advance id target other later =
      (machine.advance id target refused allowed).muted switch earlier := by
  have seen : (machine.muted switch earlier).world.objects.advance id target =
      (machine.world.objects.advance id target).map (.map .muted) :=
    machine.world.objects.advance_map ..
  unfold advance
  rw [seen]
  cases machine.world.objects.advance id target with
  | error illegal => exact refusedSame illegal
  | ok objects =>
    have moved : (machine.muted switch earlier).withWorld
        { (machine.muted switch earlier).world with objects := objects.map .muted } =
          (machine.withWorld { machine.world with objects }).muted switch earlier := rfl
    dsimp only [Except.map]
    rw [moved, allowedSame, muted_tellState]

private theorem muted_discardPool (pool : Pool) :
    (machine.muted switch earlier).discardPool pool =
      (machine.discardPool pool).muted switch earlier := by
  unfold discardPool
  rw [muted_diagnoseDisposal]
  rfl

@[simp]
theorem muted_storeBatch (name : Name) (batch : Lifecycle.RetireBatch) :
    (machine.muted switch earlier).storeBatch name batch =
      (machine.storeBatch name batch).muted switch earlier := by
  dsimp only [storeBatch, muted, World.muted]
  cases machine.world.batches.get? name <;> rfl

private theorem isHeld_muted (pool : Nat) :
    (machine.muted switch earlier).isHeld pool = machine.isHeld pool := by
  simp only [isHeld, muted, List.any_map, Function.comp_def, Call.holds_muted]

@[simp]
theorem muted_release (id : Nat) (ending : Except Panic Answer) :
    (machine.muted switch earlier).release id ending =
      (machine.release id ending).muted switch earlier := by
  have named : (machine.muted switch earlier).world.poolNames = machine.world.poolNames := rfl
  have stored : (machine.muted switch earlier).world.pools = machine.world.pools := rfl
  unfold release
  rw [isHeld_muted, named, stored]
  split
  · exact machine.muted_finish ending
  · cases (machine.world.pools[id]?).join with
    | none => exact machine.muted_finish ending
    | some pool =>
      cases ending with
      | ok answer =>
        exact muted_discardPool ((machine.setPool id none).push (.replying answer)) pool
      | error reason =>
        exact muted_discardPool ((machine.setPool id none).push (.unwinding reason)) pool

@[simp]
theorem muted_giveBack (id : Nat) (pool : Pool) (ending : Except Panic Answer) :
    (machine.muted switch earlier).giveBack id pool ending =
      (machine.giveBack id pool ending).muted switch earlier :=
  muted_release (machine.setPool id (some pool)) id ending

@[simp]
theorem muted_storePlaced (label : String) (placed : List (Relocation.PlacementTicket × Entry)) :
    (machine.muted switch earlier).storePlaced label placed =
      (machine.storePlaced label placed).muted switch earlier := by
  unfold storePlaced
  induction placed generalizing machine with
  | nil => rfl
  | cons pair placed ih =>
    rw [List.foldl_cons, List.foldl_cons, ← ih]
    rfl

private theorem muted_keepHandle (source : QueueRef) (ticket : Ticket) (name : Option Name) :
    (machine.muted switch earlier).keepHandle source ticket name =
      (machine.keepHandle source ticket name).muted switch earlier := by
  simp [keepHandle, Handles.create, muted, World.muted, withWorld, push, Handle.map,
    Handle.forAction, CancelAction.muted, Call.muted]

/-- A withdrawn awaiter is withdrawn from a muted component too. -/
private theorem withdraw_muted (world : World) (source : QueueRef) (ticket : Ticket) :
    world.muted.withdraw source ticket = (world.withdraw source ticket).muted := by
  cases source with
  | queue id =>
    let gone (queue : Queue Waiter Delivery) : Queue Waiter Delivery := queue.withdraw ticket
    have same : (world.queues.map Queue.muted).modify id gone =
        (world.queues.modify id gone).map Queue.muted :=
      modify_map fun queue _ => (queue.map_withdraw ticket).symm
    exact congrArg (fun queues => { world.muted with queues }) same
  | scheduler id =>
    let gone (hosted : HostedScheduler) : HostedScheduler :=
      { hosted with core := { hosted.core with queue := hosted.core.queue.withdraw ticket } }
    have same : (world.schedulers.map .muted).modify id gone =
        (world.schedulers.modify id gone).map .muted :=
      modify_map fun hosted _ => by
        simp only [gone, HostedScheduler.muted, Scheduler.muted, Queue.map_withdraw]
    exact congrArg (fun schedulers => { world.muted with schedulers }) same
  | clock id =>
    let gone (hosted : HostedClock) : HostedClock :=
      { hosted with core := ⟨hosted.core.awaiters.withdraw ticket⟩ }
    have same : (world.clocks.map .muted).modify id gone =
        (world.clocks.modify id gone).map .muted :=
      modify_map fun hosted _ => by
        simp only [gone, HostedClock.muted, Queue.muted, Queue.map_withdraw]
    exact congrArg (fun clocks => { world.muted with clocks }) same

@[simp]
theorem muted_cancel (handle : HandleId) :
    (machine.muted switch earlier).cancel handle =
      (machine.cancel handle).muted switch earlier := by
  have seen : (machine.muted switch earlier).world.handles.cancel handle = _ :=
    Handles.cancel_map CancelAction.muted machine.world.handles handle
  unfold cancel
  rw [seen]
  rcases machine.world.handles.cancel handle with ⟨⟨won, action⟩, handles⟩
  dsimp only
  let given := machine.withWorld { machine.world with handles }
  rcases action with _ | ⟨name, body⟩ | ⟨source, ticket⟩
  · rfl
  · exact given.muted_callBack (by rfl) body
  · exact congrArg (fun world => ((machine.muted switch earlier).withWorld world).proceed)
      (withdraw_muted { machine.world with handles } source ticket)

end Parts

/-! ### Commands -/

section Commands

variable {switch : Switch} {earlier : List Event} {machine : Machine} {name : Name}

private theorem muted_onQueue {work later : Nat → Queue Waiter Delivery → Machine}
    (same : ∀ id queue, later id queue.muted = (work id queue).muted switch earlier) :
    (machine.muted switch earlier).onQueue name later =
      (machine.onQueue name work).muted switch earlier := by
  have named : (machine.muted switch earlier).world.queueNames = machine.world.queueNames := rfl
  unfold onQueue
  rw [named]
  cases machine.world.queueNames.get? name with
  | none => rfl
  | some id =>
    dsimp only
    rw [getElem?_queues_muted]
    cases machine.world.queues[id]? with
    | none => rfl
    | some queue => exact same id queue

private theorem muted_onScheduler {work later : Nat → HostedScheduler → Machine}
    (same : ∀ id hosted, later id hosted.muted = (work id hosted).muted switch earlier) :
    (machine.muted switch earlier).onScheduler name later =
      (machine.onScheduler name work).muted switch earlier := by
  have named : (machine.muted switch earlier).world.schedulerNames =
    machine.world.schedulerNames := rfl
  unfold onScheduler
  rw [named]
  cases machine.world.schedulerNames.get? name with
  | none => rfl
  | some id =>
    dsimp only
    rw [getElem?_schedulers_muted]
    cases machine.world.schedulers[id]? with
    | none => rfl
    | some hosted => exact same id hosted

private theorem muted_onClock {work later : Nat → HostedClock → Machine}
    (same : ∀ id hosted, later id hosted.muted = (work id hosted).muted switch earlier) :
    (machine.muted switch earlier).onClock name later =
      (machine.onClock name work).muted switch earlier := by
  have named : (machine.muted switch earlier).world.clockNames = machine.world.clockNames := rfl
  unfold onClock
  rw [named]
  cases machine.world.clockNames.get? name with
  | none => rfl
  | some id =>
    dsimp only
    rw [getElem?_clocks_muted]
    cases machine.world.clocks[id]? with
    | none => rfl
    | some hosted => exact same id hosted

private theorem muted_onHandle {work later : HandleId → Handle CancelAction → Machine}
    (same : ∀ id handle, later id (handle.map .muted) = (work id handle).muted switch earlier) :
    (machine.muted switch earlier).onHandle name later =
      (machine.onHandle name work).muted switch earlier := by
  have named : (machine.muted switch earlier).world.handleNames = machine.world.handleNames := rfl
  unfold onHandle
  rw [named]
  cases machine.world.handleNames.get? name with
  | none => rfl
  | some id =>
    dsimp only
    rw [getElem?_handles_muted]
    cases machine.world.handles[id]? with
    | none => rfl
    | some handle => exact same id handle

private theorem muted_onGuard {work later : Guard → Machine}
    (same : ∀ guard, later guard = (work guard).muted switch earlier) :
    (machine.muted switch earlier).onGuard name later =
      (machine.onGuard name work).muted switch earlier := by
  dsimp only [onGuard, muted, World.muted]
  cases machine.world.guards.get? name with
  | none => rfl
  | some guard => exact same guard

private theorem muted_onDispatcher {work later : Nat → Lifecycle.Dispatcher → Machine}
    (same : ∀ id dispatcher, later id dispatcher = (work id dispatcher).muted switch earlier) :
    (machine.muted switch earlier).onDispatcher name later =
      (machine.onDispatcher name work).muted switch earlier := by
  dsimp only [onDispatcher, muted, World.muted]
  cases machine.world.dispatcherNames.get? name with
  | none => rfl
  | some id =>
    dsimp only
    cases (machine.world.dispatchers[id]?).join with
    | none => rfl
    | some dispatcher => exact same id dispatcher

private theorem muted_onPool {work later : Nat → Pool → Machine}
    (same : ∀ id pool, later id pool = (work id pool).muted switch earlier) :
    (machine.muted switch earlier).onPool name later =
      (machine.onPool name work).muted switch earlier := by
  dsimp only [onPool, muted, World.muted]
  cases machine.world.poolNames.get? name with
  | none => rfl
  | some id =>
    dsimp only
    cases (machine.world.pools[id]?).join with
    | none => rfl
    | some pool => exact same id pool

private theorem muted_onObject {work later : ObjectId → Machine}
    (same : ∀ id, later id = (work id).muted switch earlier) :
    (machine.muted switch earlier).onObject name later =
      (machine.onObject name work).muted switch earlier := by
  dsimp only [onObject, muted, World.muted]
  cases machine.world.objectNames.get? name with
  | none => rfl
  | some id => exact same id

private theorem muted_onBatch {work later : Lifecycle.RetireBatch → Machine}
    (same : ∀ batch, later batch = (work batch).muted switch earlier) :
    (machine.muted switch earlier).onBatch name later =
      (machine.onBatch name work).muted switch earlier := by
  dsimp only [onBatch, muted, World.muted]
  cases machine.world.batches.get? name with
  | none => rfl
  | some batch => exact same batch

private theorem muted_onEntry {work later : Entry → Machine}
    (same : ∀ entry, later entry = (work entry).muted switch earlier) :
    (machine.muted switch earlier).onEntry name later =
      (machine.onEntry name work).muted switch earlier := by
  dsimp only [onEntry, muted, World.muted]
  cases machine.world.entries.get? name with
  | none => rfl
  | some entry => exact same entry

private theorem muted_onHasher {work later : Position.Hasher → Machine}
    (same : ∀ hasher, later hasher = (work hasher).muted switch earlier) :
    (machine.muted switch earlier).onHasher name later =
      (machine.onHasher name work).muted switch earlier := by
  dsimp only [onHasher, muted, World.muted]
  cases machine.world.hashers.get? name with
  | none => rfl
  | some hasher => exact same hasher

private theorem muted_onArena {work later : Arena Int → Machine}
    (same : ∀ arena, later arena = (work arena).muted switch earlier) :
    (machine.muted switch earlier).onArena name later =
      (machine.onArena name work).muted switch earlier := by
  dsimp only [onArena, muted, World.muted]
  cases machine.world.arenas.get? name with
  | none => rfl
  | some arena => exact same arena

private theorem muted_atPlace {place : Place} {work later : Position.Hash → Machine}
    (same : ∀ position, later position = (work position).muted switch earlier) :
    (machine.muted switch earlier).atPlace place later =
      (machine.atPlace place work).muted switch earlier := by
  cases place with
  | fixed position => exact same position
  | ofHasher name =>
    dsimp only [atPlace, muted, World.muted]
    cases machine.world.hashers.get? name with
    | none => rfl
    | some hasher => exact same hasher.current

/-! ### Commands on queues, schedulers, clocks, and handles -/

theorem muted_setQueue (machine : Machine) (id : Nat) (queue : Queue Waiter Delivery) :
    (machine.muted switch earlier).setQueue id queue.muted =
      (machine.setQueue id queue).muted switch earlier :=
  congrArg (fun queues => (machine.muted switch earlier).withWorld
    { machine.world.muted with queues }) Array.map_setIfInBounds.symm

theorem muted_setScheduler (machine : Machine) (id : Nat) (core : Scheduler Action) :
    (machine.muted switch earlier).setScheduler id core.muted =
      (machine.setScheduler id core).muted switch earlier := by
  let set (core : Scheduler Action) (hosted : HostedScheduler) : HostedScheduler :=
    { hosted with core }
  have same : (machine.world.schedulers.map HostedScheduler.muted).modify id (set core.muted) =
      (machine.world.schedulers.modify id (set core)).map .muted := modify_map fun _ _ => rfl
  exact congrArg (fun schedulers => (machine.muted switch earlier).withWorld
    { machine.world.muted with schedulers }) same

theorem muted_setClock (machine : Machine) (id : Nat) (queue : Queue Waiter Tick) :
    (machine.muted switch earlier).setClock id ⟨queue.muted⟩ =
      (machine.setClock id ⟨queue⟩).muted switch earlier := by
  let set (queue : Queue Waiter Tick) (hosted : HostedClock) : HostedClock :=
    { hosted with core := ⟨queue⟩ }
  have same : (machine.world.clocks.map HostedClock.muted).modify id (set queue.muted) =
      (machine.world.clocks.modify id (set queue)).map .muted := modify_map fun _ _ => rfl
  exact congrArg (fun clocks => (machine.muted switch earlier).withWorld
    { machine.world.muted with clocks }) same

private theorem muted_executeQueue (command : QueueCommand Body) :
    (machine.muted switch earlier).executeQueue command.muted =
      (machine.executeQueue command).muted switch earlier := by
  cases command with
  | create name =>
    simp [QueueCommand.muted, executeQueue, nameQueue, withWorld, reply, muted, World.muted,
      Control.muted, Queue.muted]
  | share | forget | describe => exact muted_onQueue fun _ _ => rfl
  | flush =>
    refine muted_onQueue fun id queue => ?_
    rw [← muted_proceed, ← muted_push, ← muted_setQueue]
    rfl
  | close _ reason =>
    refine muted_onQueue fun id queue => ?_
    rw [← muted_proceed, ← muted_push, ← muted_setQueue]
    rfl
  | register name item handle resumed refused first =>
    refine muted_onQueue fun id queue => ?_
    have accepted : queue.muted.register ⟨item, mutedBody resumed, mutedBody refused⟩ = _ :=
      queue.register_muted ⟨item, resumed, refused⟩
    rw [accepted]
    cases queue.register ⟨item, resumed, refused⟩ with
    | error closed => rfl
    | ok registration =>
      dsimp only [Except.map, Registration.map]
      rw [Queue.map_muted, muted_setQueue, muted_keepHandle]
      split
      · exact muted_callBack _ rfl first
      · rfl

private theorem muted_executeClock (command : ClockCommand Body) :
    (machine.muted switch earlier).executeClock command.muted =
      (machine.executeClock command).muted switch earlier := by
  cases command with
  | create name wake =>
    simp [ClockCommand.muted, executeClock, nameClock, withWorld, reply, muted, World.muted,
      Control.muted, HostedClock.muted, Queue.muted]
  | share | describe => exact muted_onClock fun _ _ => rfl
  | send =>
    refine muted_onClock fun id hosted => ?_
    rw [← muted_proceed, ← muted_push, Clock.send, ← muted_setClock]
    rfl
  | close _ reason =>
    refine muted_onClock fun id hosted => ?_
    rw [← muted_proceed, ← muted_push, Clock.close, ← muted_setClock]
    rfl
  | register name item handle ticked refused =>
    refine muted_onClock fun id hosted => ?_
    have accepted : hosted.muted.core.awaiters.register
        ⟨item, mutedBody ticked, mutedBody refused⟩ = _ :=
      hosted.core.awaiters.register_muted ⟨item, ticked, refused⟩
    rw [accepted]
    cases hosted.core.awaiters.register ⟨item, ticked, refused⟩ with
    | error closed => rfl
    | ok registration =>
      dsimp only [Except.map, Registration.map]
      rw [Queue.map_muted, muted_setClock, muted_keepHandle]
      split
      · exact muted_callBack _ rfl hosted.wake
      · rfl

/-- An action is accepted or refused as it would be, and the host is woken as it would be. -/
private theorem muted_schedule (kept : Option Name) (action : Action) :
    (machine.muted switch earlier).schedule name kept action.muted =
      (machine.schedule name kept action).muted switch earlier := by
  refine muted_onScheduler fun id hosted => ?_
  have accepted : hosted.muted.core.queue.register action.muted = _ :=
    hosted.core.queue.map_register action
  unfold Scheduler.schedule
  rw [accepted]
  cases hosted.core.queue.register action with
  | error closed => rfl
  | ok registration =>
    dsimp only [Except.map, Registration.map]
    have set : (machine.muted switch earlier).setScheduler id
        { hosted.muted.core with queue := registration.queue.map .muted _ } = _ :=
      muted_setScheduler machine id { hosted.core with queue := registration.queue }
    have notifies : hosted.muted.core.notifies registration.first =
      hosted.core.notifies registration.first := rfl
    rw [set, muted_keepHandle, notifies]
    split
    · exact muted_callBack _ rfl hosted.wake
    · rfl

private theorem muted_executeScheduler {command : SchedulerCommand Body}
    (hides : ¬ (Command.scheduler command).ShowsPolicy) :
    (machine.muted switch earlier).executeScheduler command.muted =
      (machine.executeScheduler command).muted switch earlier := by
  cases command with
  | create name config wake =>
    simp [SchedulerCommand.muted, executeScheduler, nameScheduler, withWorld, reply, muted,
      World.muted, Control.muted, HostedScheduler.muted, Scheduler.muted]
  | share => exact muted_onScheduler fun _ _ => rfl
  | describe => exact absurd trivial hides
  | schedulePlain name item handle completed => exact muted_schedule handle ⟨item, completed, none⟩
  | scheduleInformed name item handle completed refused =>
    exact muted_schedule handle ⟨item, completed, some refused⟩
  | startFrame =>
    refine muted_onScheduler fun id hosted => ?_
    rw [← muted_reply, ← muted_setScheduler]
    rfl
  | completeFrame =>
    refine muted_onScheduler fun id hosted => ?_
    by_cases closed : hosted.core.queue.isClosed
    · have same : hosted.muted.core.completeFrame = .idle _ _ := if_pos closed
      have idle : hosted.core.completeFrame = .idle _ _ := if_pos closed
      rw [same, idle]
      dsimp only
      rw [← muted_reply, ← muted_setScheduler]
      rfl
    · have same : hosted.muted.core.completeFrame = .started _ _ := if_neg closed
      have started : hosted.core.completeFrame = .started _ _ := if_neg closed
      rw [same, started]
      dsimp only
      rw [← muted_proceed, ← muted_push, ← muted_enter, ← muted_setScheduler]
      rfl
  | close _ reason =>
    refine muted_onScheduler fun id hosted => ?_
    rw [← muted_proceed, ← muted_push, ← muted_setScheduler]
    rfl

private theorem muted_storeGuard (machine : Machine) (name : Name) (guard : Guard) :
    (machine.muted switch earlier).storeGuard name guard =
      (machine.storeGuard name guard).muted switch earlier := by
  have same : (machine.muted switch earlier).world.guards = machine.world.guards := rfl
  unfold storeGuard
  rw [same]
  cases machine.world.guards.get? name with
  | none => rfl
  | some former =>
    let kept := machine.withWorld
      { machine.world with guards := machine.world.guards.set name guard }
    exact muted_cancel (kept.push (.replying .ok)) former.handle

private theorem muted_createHandle (machine : Machine) (name : Name)
    (handle : Handle CancelAction) :
    (machine.muted switch earlier).createHandle name (handle.map .muted) =
      (machine.createHandle name handle).muted switch earlier := by
  simp [createHandle, Handles.create, nameHandle, withWorld, reply, muted, World.muted,
    Control.muted]

private theorem muted_executeHandle (command : HandleCommand Body) :
    (machine.muted switch earlier).executeHandle command.muted =
      (machine.executeHandle command).muted switch earlier := by
  cases command with
  | create name action => exact muted_createHandle machine name (.forAction (.run name action))
  | createIdle name => exact muted_createHandle machine name .idle
  | share | describe => exact muted_onHandle fun _ _ => rfl
  | cancel =>
    exact muted_onHandle fun id handle =>
      muted_cancel (machine.push (.replying (.flag (!handle.cancelled)))) id
  | guard name guard => exact muted_onHandle fun id _ => muted_storeGuard machine guard ⟨id⟩
  | disarm name handle =>
    refine muted_onGuard fun guard => ?_
    have seen (other : Machine) : Handles.isCancelled (other.muted switch earlier).world.handles
        guard.handle = other.world.handles.isCancelled guard.handle :=
      Handles.isCancelled_map ..
    cases handle with
    | none => exact congrArg (fun flag => reply _ (.flag flag)) (seen (machine.removeGuard name))
    | some handle =>
      exact congrArg (fun flag => reply _ (.flag flag))
        (seen ((machine.removeGuard name).nameHandle handle guard.handle))
  | release name =>
    exact muted_onGuard fun guard =>
      muted_cancel ((machine.removeGuard name).push (.replying .ok)) guard.handle
  | describeGuard =>
    refine muted_onGuard fun guard => ?_
    rw [getElem?_handles_muted]
    cases machine.world.handles[guard.handle]? <;> rfl

/-! ### Commands on other components -/

private theorem muted_executeObject (command : ObjectCommand Body) :
    (machine.muted switch earlier).executeObject command.muted =
      (machine.executeObject command).muted switch earlier := by
  cases command with
  | create name reactions =>
    have created : machine.world.muted.objects.create ⟨name, reactions.muted⟩ = _ :=
      machine.world.objects.create_map Observer.muted ⟨name, reactions⟩
    exact congrArg (fun created : ObjectId × Lifecycle.Registry Observer =>
      (((machine.muted switch earlier).withWorld
        { machine.world.muted with objects := created.2 }).nameObject name created.1).reply
          (.count created.1.number)) created
  | share => exact muted_onObject fun _ => rfl
  | describe =>
    refine muted_onObject fun id => ?_
    have same : (machine.muted switch earlier).world.objects.describe =
        machine.world.objects.describe := Lifecycle.Registry.describe_map ..
    rw [same]
    rfl
  | compare name other =>
    refine muted_onObject fun id => ?_
    have same : (machine.muted switch earlier).world.objectNames = machine.world.objectNames := rfl
    rw [same]
    cases machine.world.objectNames.get? other <;> rfl
  | advance =>
    exact muted_onObject fun id => machine.muted_advance id _ (fun _ => rfl) fun _ => rfl
  | poke name event =>
    refine muted_onObject fun id => ?_
    cases event with
    | none => rfl
    | some event => exact muted_tell (machine.push (.replying .ok)) id event

private theorem muted_executeDispatcher (command : DispatcherCommand) :
    (machine.muted switch earlier).executeDispatcher command =
      (machine.executeDispatcher command).muted switch earlier := by
  cases command with
  | create => rfl
  | dispatch => exact muted_onDispatcher fun _ _ => rfl
  | describe =>
    refine muted_onDispatcher fun _ dispatcher => ?_
    have same : dispatcher.describe (machine.muted switch earlier).world.objects =
        dispatcher.describe machine.world.objects := by
      simp [Lifecycle.Dispatcher.describe, muted, World.muted]
    rw [same]
    rfl
  | record name event objects =>
    refine muted_onDispatcher fun id dispatcher => ?_
    dsimp only
    rw [resolveObjects_muted, muted_withWorld, muted_setDispatcher, muted_reply]
  | takeRetirements =>
    exact muted_onDispatcher fun id dispatcher => muted_storeBatch (machine.setDispatcher id _) _ _

private theorem muted_executeBatch (command : BatchCommand) :
    (machine.muted switch earlier).executeBatch command =
      (machine.executeBatch command).muted switch earlier := by
  cases command with
  | create name => exact machine.muted_storeBatch name {}
  | extend name source =>
    dsimp only [executeBatch, mergeBatch, removeBatch, withWorld, muted, World.muted]
    cases machine.world.batches.get? source with
    | none => rfl
    | some batch =>
      dsimp only
      cases (machine.world.batches.erase source).get? name <;> rfl
  | dispatch | discard => exact muted_onBatch fun _ => rfl
  | describe =>
    refine muted_onBatch fun batch => ?_
    have same : batch.describe (machine.muted switch earlier).world.objects =
        batch.describe machine.world.objects := by
      simp [Lifecycle.RetireBatch.describe, muted, World.muted]
    rw [same]
    rfl

private theorem muted_instantiate (id : Nat) (pool : Pool) (entryName : Name)
    (descriptor : DescriptorId) (handle : String) (parameter : Int) (position : Position.Hash)
    (objects : List Name) :
    (machine.muted switch earlier).instantiate id pool entryName descriptor handle parameter
        position objects =
      (machine.instantiate id pool entryName descriptor handle parameter position
        objects).muted switch earlier := by
  simp only [instantiate, resolveObjects_muted, muted_withWorld, muted_setPool]
  rw [muted_diagnose _ rfl, muted_storeEntry, muted_reply]

private theorem muted_depart (id : Nat) (pool : Pool) (entryName : Name)
    (descriptor : Option DescriptorId) (entry : Entry) :
    (machine.muted switch earlier).depart id pool entryName descriptor entry =
      (machine.depart id pool entryName descriptor entry).muted switch earlier := by
  let erased := machine.withWorld
    { machine.world with entries := machine.world.entries.erase entryName }
  unfold depart
  cases pool.reportDeparture (descriptor.getD entry.descriptor) entry with
  | error misreport => rfl
  | ok later =>
    have plain : entry.departure.warnsOfPanic = false := rfl
    exact congrArg (·.reply .ok) ((erased.setPool id (some later)).muted_diagnose plain)

private theorem muted_claim (id : Nat) (pool : Pool) (descriptor : DescriptorId)
    (entryName : Name) :
    (machine.muted switch earlier).claim id pool descriptor entryName =
      (machine.claim id pool descriptor entryName).muted switch earlier := by
  unfold claim
  cases pool.claim descriptor with
  | none => rfl
  | some claimed =>
    dsimp only
    rw [muted_setPool, muted_diagnose _ rfl, muted_storeEntry, viewEntry_muted, muted_reply]

private theorem plain_placementDiagnostic (pool : Pool) (descriptor : DescriptorId)
    (position : Position.Hash) (answer : Relocation.Placement String Int) :
    (pool.placementDiagnostic descriptor position answer).warnsOfPanic = false := by
  unfold Relocation.Pool.placementDiagnostic
  split
  · split <;> rfl
  · rfl
  · rfl

private theorem muted_place (id : Nat) (pool : Pool) (descriptor : DescriptorId) (parameter : Int)
    (position : Position.Hash) (entryName : Name) (described : Bool) :
    (machine.muted switch earlier).place id pool descriptor parameter position entryName described =
      (machine.place id pool descriptor parameter position entryName described).muted switch
        earlier := by
  simp only [place, muted_setPool, muted_diagnose _ (plain_placementDiagnostic ..)]
  split
  · rw [muted_storeEntry, viewEntry_muted, muted_reply]
  · rfl
  · rfl

private theorem muted_createPool (machine : Machine) (name : Name)
    (config : Settings.RelocationConfig) :
    (machine.muted switch earlier).createPool name config =
      (machine.createPool name config).muted switch earlier := by
  have same : (machine.muted switch earlier).world.poolNames = machine.world.poolNames := rfl
  unfold createPool
  rw [same]
  cases machine.world.poolNames.get? name with
  | none => rfl
  | some former =>
    exact muted_release (machine.withWorld { machine.world with
      pools := machine.world.pools.push (some { config })
      poolNames := machine.world.poolNames.set name machine.world.pools.size }) former _

private theorem muted_executePool (command : PoolCommand Body) :
    (machine.muted switch earlier).executePool command.muted =
      (machine.executePool command).muted switch earlier := by
  cases command with
  | create name config => exact muted_createPool machine name config
  | discard name =>
    refine muted_onPool fun id pool => ?_
    rw [isHeld_muted]
    split
    · rfl
    · exact muted_release (machine.withWorld { machine.world with
        poolNames := machine.world.poolNames.erase name }) id _
  | describe | query | dispatch => exact muted_onPool fun _ _ => rfl
  | instantiate => exact muted_onPool fun _ _ => muted_atPlace fun _ => muted_instantiate ..
  | deactivate => exact muted_onPool fun _ _ => muted_onEntry fun _ => rfl
  | depart => exact muted_onPool fun _ _ => muted_onEntry fun _ => muted_depart ..
  | claim => exact muted_onPool fun _ _ => muted_claim ..
  | place => exact muted_onPool fun _ _ => muted_atPlace fun _ => muted_place ..
  | endPass name insertions label described =>
    refine muted_onPool fun id pool => ?_
    dsimp only
    rw [muted_setPool, muted_enter, ← muted_proceed, ← muted_push]
    rfl
  | takeRetirements =>
    refine muted_onPool fun id pool => ?_
    dsimp only
    rw [muted_setPool, ← muted_storeBatch, ← muted_push]
    rfl

private theorem muted_executeEntry (command : EntryCommand) :
    (machine.muted switch earlier).executeEntry command =
      (machine.executeEntry command).muted switch earlier := by
  cases command <;> exact muted_onEntry fun _ => rfl

private theorem muted_executeHasher (command : HasherCommand) :
    (machine.muted switch earlier).executeHasher command =
      (machine.executeHasher command).muted switch earlier := by
  cases command with
  | create name perLevel root =>
    simp only [executeHasher]
    cases chosenShift perLevel <;> rfl
  | pop =>
    refine muted_onHasher fun hasher => ?_
    cases hasher.pop <;> rfl
  | copy | push | path | describe => exact muted_onHasher fun _ => rfl

private theorem muted_executeArena (command : ArenaCommand) :
    (machine.muted switch earlier).executeArena command =
      (machine.executeArena command).muted switch earlier := by
  cases command with
  | create => rfl
  | register | get | list | describe => exact muted_onArena fun _ => rfl

theorem muted_execute {command : Command} (hides : ¬ command.ShowsPolicy) :
    (machine.muted switch earlier).execute command.muted =
      (machine.execute command).muted switch earlier := by
  cases command with
  | note | panic | iterate => rfl
  | inspect components =>
    exact congrArg (fun views => (machine.muted switch earlier).reply (.views views))
      (machine.world.views_muted components)
  | call script =>
    have found : (machine.muted switch earlier).world.scripts.get? script =
        (machine.world.scripts.get? script).map mutedBody := machine.world.scripts.get?_map ..
    simp only [Command.muted, execute, found]
    cases machine.world.scripts.get? script <;> rfl
  | queue command => exact muted_executeQueue command
  | scheduler command => exact muted_executeScheduler hides
  | clock command => exact muted_executeClock command
  | handle command => exact muted_executeHandle command
  | object command => exact muted_executeObject command
  | dispatcher command => exact muted_executeDispatcher command
  | batch command => exact muted_executeBatch command
  | pool command => exact muted_executePool command
  | entry command => exact muted_executeEntry command
  | hasher command => exact muted_executeHasher command
  | arena command => exact muted_executeArena command

end Commands

end Machine

end LiveTree.Session
