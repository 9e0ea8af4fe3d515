import LiveTree.Proofs.Session.Callbacks

/-! Nothing calls back but by its deed. The log shows every call of a hook, of somebody who waited
and of an observer; here each of them is traced to the deed of the step that logs it, so that
nothing in a session can call back unnoticed. What user code has put into cancellation handles and
insertions is its own affair and is left aside. -/
namespace LiveTree.Session

open Awaiting LiveTree.Frame
open Lifecycle (ObjectId Registry)

/-- Whether an event shows the call of a hook, of somebody who waited, or of an observer. -/
def Event.callsBack : Event → Bool
  | first _ | resumed _ | rejected _ _ | woken _ | ran _ | ended _ | closed _ _ | requested _
  | ticked _ _ | told _ _ => true
  | cancelled _ | inserting _ | answered _ | diagnostic _ | entered _ | left _ => false

/-- How the hook of a component is shown. -/
def World.hook? (world : World) : QueueRef → Callback → Option Event
  | .queue _, .waiter waiter => some (.first waiter.item)
  | .scheduler id, .action _ => (world.schedulers[id]?).map fun hosted => .woken hosted.name
  | .clock id, .waiter _ => (world.clocks[id]?).map fun hosted => .requested hosted.name
  | _, _ => none

/-- How the turn of an awaiter is shown. -/
inductive Callback.Shown : QueueRef → Callback → Delivery → Event → Prop
  | resumed {id : Nat} (waiter : Waiter) :
      Shown (.queue id) (.waiter waiter) .resume (.resumed waiter.item)
  | rejected {id : Nat} (waiter : Waiter) (closed : Closed) :
      Shown (.queue id) (.waiter waiter) (.refuse closed) (.rejected waiter.item closed)
  | ran {id : Nat} (action : Action) (plain : action.refused = none) :
      Shown (.scheduler id) (.action action) .resume (.ran action.item)
  | ended {id : Nat} (action : Action) (informed : action.refused ≠ none) :
      Shown (.scheduler id) (.action action) .resume (.ended action.item)
  | closed {id : Nat} (action : Action) (closed : Closed) (informed : action.refused ≠ none) :
      Shown (.scheduler id) (.action action) (.refuse closed) (.closed action.item closed)
  | ticked {id : Nat} (waiter : Waiter) (time : Nat) :
      Shown (.clock id) (.waiter waiter) .resume (.ticked waiter.item time)
  | refused {id : Nat} (waiter : Waiter) (closed : Closed) :
      Shown (.clock id) (.waiter waiter) (.refuse closed) (.closed waiter.item closed)

/-- How a deed is shown, if it calls back. -/
inductive World.Shows (world : World) : Option Deed → Event → Prop
  | hook {source : QueueRef} {ticket : Ticket} {handle : HandleId} {callback : Callback}
      {event : Event} (shown : world.hook? source callback = some event) :
      Shows world (some (.accepts source ticket handle callback true)) event
  | turn {source : QueueRef} {ticket : Ticket} {callback : Callback} {delivery : Delivery}
      {event : Event} (shown : callback.Shown source delivery event) :
      Shows world (some (.serves source ticket callback delivery)) event
  | told {object : ObjectId} {target : Lifecycle.State} {event : Lifecycle.Event}
      {kept : Lifecycle.Retained Observer} (found : world.objects.get? object = some kept)
      (state : target.event? = some event) :
      Shows world (some (.moves object target)) (.told kept.observer.name event)

namespace Machine

/-- All that has been logged of such calls, the latest first. -/
def calls (machine : Machine) : List Event := machine.log.filter Event.callsBack

/-- After a step that does a deed, nothing is logged of such calls but what shows the deed. -/
def Voices (machine : Machine) (deed : Option Deed) (after : Machine) : Prop :=
  after.calls = machine.calls ∨
    ∃ event, machine.world.Shows deed event ∧ after.calls = event :: machine.calls

/-! ### What calls nobody back -/

section Quiet

variable (machine : Machine)

private theorem calls_report {event : Event} (quiet : event.callsBack = false) :
    (machine.report event).calls = machine.calls :=
  List.filter_cons_of_neg (by simp [quiet])

@[simp]
theorem calls_finish (ending : Except Panic Answer) :
    (machine.finish ending).calls = machine.calls := by
  cases ending <;> rfl

@[simp]
theorem calls_diagnose (diagnostic : Diagnostic) :
    (machine.diagnose diagnostic).calls = machine.calls := by
  unfold diagnose
  split
  · exact machine.calls_report rfl
  · rfl

@[simp]
theorem calls_diagnoseAll (diagnostics : List Diagnostic) :
    (machine.diagnoseAll diagnostics).calls = machine.calls := by
  unfold diagnoseAll
  induction diagnostics generalizing machine with
  | nil => rfl
  | cons diagnostic diagnostics ih => rw [List.foldl_cons, ih, calls_diagnose]

@[simp]
theorem calls_enter (span : Span) : (machine.enter span).calls = machine.calls := by
  unfold enter
  split
  · exact machine.calls_report rfl
  · rfl

@[simp]
theorem calls_leave (span : Span) : (machine.leave span).calls = machine.calls := by
  unfold leave
  split
  · exact machine.calls_report rfl
  · rfl

/-! Most of the machine does not log at all. -/

@[simp]
theorem calls_withWorld (world : World) : (machine.withWorld world).calls = machine.calls := rfl

@[simp]
theorem calls_pop : machine.pop.calls = machine.calls := rfl

@[simp]
theorem calls_proceed : machine.proceed.calls = machine.calls := rfl

@[simp]
theorem calls_reply (answer : Answer) : (machine.reply answer).calls = machine.calls := rfl

@[simp]
theorem calls_discardPool (pool : Pool) : (machine.discardPool pool).calls = machine.calls :=
  machine.calls_diagnoseAll _

@[simp]
theorem calls_storeBatch (name : Name) (batch : Lifecycle.RetireBatch) :
    (machine.storeBatch name batch).calls = machine.calls := by
  unfold storeBatch
  dsimp only
  split <;> rfl

@[simp]
theorem calls_storePlaced (label : String)
    (placed : List (Relocation.PlacementTicket × Entry)) :
    (machine.storePlaced label placed).calls = machine.calls := by
  unfold storePlaced
  induction placed generalizing machine with
  | nil => rfl
  | cons pair placed ih =>
    rw [List.foldl_cons, ih]
    rfl

@[simp]
theorem calls_release (id : Nat) (ending : Except Panic Answer) :
    (machine.release id ending).calls = machine.calls := by
  unfold release
  split
  · simp
  · split
    · simp
    · rw [calls_discardPool]
      rfl

@[simp]
theorem calls_giveBack (id : Nat) (pool : Pool) (ending : Except Panic Answer) :
    (machine.giveBack id pool ending).calls = machine.calls :=
  calls_release _ id ending

@[simp]
theorem calls_cancel (id : HandleId) : (machine.cancel id).calls = machine.calls := by
  unfold cancel act
  dsimp only
  split
  · rfl
  · exact (machine.withWorld _).calls_report rfl
  · rfl

end Quiet

variable {machine after : Machine} {deed : Option Deed}

/-! ### Registrations -/

private theorem Voices.register {α ρ : Type} {source : QueueRef} {queue : Queue α ρ}
    {value : α → Callback} {purpose : ρ → Delivery} {item : α} {event : Event}
    (seen : machine.stage.awaiting source = some (queue.map value purpose))
    (shown : machine.world.hook? source (value item) = some event)
    (refused : ∀ closed, queue.register item = .error closed → after.calls = machine.calls)
    (accepted : ∀ registration, queue.register item = .ok registration →
      after.calls =
        (if machine.stage.hooks source registration.first then [event] else []) ++ machine.calls) :
    machine.Voices (machine.stage.accept? source (value item)) after := by
  cases answer : queue.register item with
  | error closed => exact .inl (refused closed answer)
  | ok registration =>
    have registered : (queue.map value purpose).register (value item) =
        .ok (registration.map value purpose) := Queue.register_map answer
    rw [Stage.accept?_of_ok seen registered]
    have logged := accepted registration answer
    cases hooked : machine.stage.hooks source registration.first with
    | false =>
      rw [hooked] at logged
      exact .inl logged
    | true =>
      rw [hooked] at logged
      refine .inr ⟨event, ?_, logged⟩
      rw [show (registration.map value purpose).first = registration.first from rfl, hooked]
      exact .hook shown

private theorem voices_executeQueue (command : QueueCommand Body) :
    machine.Voices (machine.started? (.queue command)) (machine.executeQueue command) := by
  cases command with
  | create => exact .inl rfl
  | share | forget | describe | flush | close => exact .inl (onQueue_eq rfl fun _ _ => rfl)
  | register name item handle resumed refused first =>
    simp only [executeQueue, onQueue, started?]
    cases machine.world.queueNames.get? name with
    | none => exact .inl rfl
    | some id =>
      dsimp only
      cases found : machine.world.queues[id]? with
      | none => exact .inl rfl
      | some queue =>
        refine .register (awaiting_queue found) rfl (fun closed answer => ?_)
          fun registration answer => ?_
        · simp only [answer]
          rfl
        · simp only [answer, Stage.hooks]
          cases registration.first <;> rfl

private theorem voices_schedule (name : Name) (handle : Option Name) (action : Action) :
    machine.Voices
      ((machine.world.schedulerNames.get? name).bind fun id =>
        machine.stage.accept? (.scheduler id) (.action action))
      (machine.schedule name handle action) := by
  simp only [schedule, onScheduler]
  cases machine.world.schedulerNames.get? name with
  | none => exact .inl rfl
  | some id =>
    dsimp only
    cases found : machine.world.schedulers[id]? with
    | none => exact .inl rfl
    | some hosted =>
      have shown : machine.world.hook? (.scheduler id) (.action action) =
          some (.woken hosted.name) := by
        simp [World.hook?, found]
      refine .register (awaiting_scheduler found) shown (fun closed answer => ?_)
        fun registration answer => ?_
      · simp only [Scheduler.schedule, answer]
        rfl
      · have same : machine.stage.hooks (.scheduler id) registration.first =
            hosted.core.notifies registration.first := by
          rw [Stage.hooks, phase?_scheduler found]
          rfl
        simp only [Scheduler.schedule, answer, same]
        cases hosted.core.notifies registration.first <;> rfl

private theorem voices_executeScheduler (command : SchedulerCommand Body) :
    machine.Voices (machine.started? (.scheduler command)) (machine.executeScheduler command) := by
  cases command with
  | create => exact .inl rfl
  | schedulePlain | scheduleInformed => exact voices_schedule ..
  | share | describe | startFrame | close =>
    exact .inl (onScheduler_eq rfl fun _ _ => rfl)
  | completeFrame =>
    refine .inl (onScheduler_eq rfl fun id hosted => ?_)
    split
    · rfl
    · exact calls_enter _ _

private theorem voices_executeClock (command : ClockCommand Body) :
    machine.Voices (machine.started? (.clock command)) (machine.executeClock command) := by
  cases command with
  | create => exact .inl rfl
  | share | describe | send | close => exact .inl (onClock_eq rfl fun _ _ => rfl)
  | register name item handle ticked refused =>
    simp only [executeClock, onClock, started?]
    cases machine.world.clockNames.get? name with
    | none => exact .inl rfl
    | some id =>
      dsimp only
      cases found : machine.world.clocks[id]? with
      | none => exact .inl rfl
      | some hosted =>
        have shown (waiter : Waiter) : machine.world.hook? (.clock id) (.waiter waiter) =
            some (.requested hosted.name) := by
          simp [World.hook?, found]
        refine .register (awaiting_clock found) (shown _) (fun closed answer => ?_)
          fun registration answer => ?_
        · simp only [answer]
          rfl
        · simp only [answer, Stage.hooks]
          cases registration.first <;> rfl

private theorem calls_executeHandle (command : HandleCommand Body) :
    (machine.executeHandle command).calls = machine.calls := by
  have done := machine.handled command
  generalize machine.executeHandle command = after at done ⊢
  cases done with
  | cancels | replaces | releases => exact calls_cancel _ _
  | _ => rfl

/-! ### Objects -/

/-- An object keeps its observer when it or another object moves. -/
theorem observer_advance {registry moved : Registry Observer} {object other : ObjectId}
    {target : Lifecycle.State} (legal : registry.advance object target = .ok moved) :
    (moved.get? other).map Lifecycle.Retained.observer =
      (registry.get? other).map Lifecycle.Retained.observer := by
  unfold Registry.advance at legal
  split at legal
  · cases legal
    simp only [Registry.get?, Array.getElem?_modify]
    split
    · simp [Function.comp_def]
    · rfl
  · cases legal

private theorem voices_advance {object : ObjectId} {target : Lifecycle.State}
    {refused : Lifecycle.IllegalMove → Machine} {allowed : Machine → Machine}
    (refusedSame : ∀ illegal, (refused illegal).calls = machine.calls)
    (allowedSame : ∀ moved : Machine, (allowed moved).calls = moved.calls ∧
      (allowed moved).world = moved.world) :
    machine.Voices (machine.stage.advance? object target)
      (machine.advance object target refused allowed) := by
  unfold advance
  cases attempt : machine.world.objects.advance object target with
  | error illegal => exact .inl (refusedSame illegal)
  | ok objects =>
    obtain ⟨logged, world⟩ :=
      allowedSame (machine.withWorld { machine.world with objects })
    cases state : target.event? with
    | none =>
      left
      simp only [tellState, state, calls_proceed, logged, calls_withWorld]
    | some event =>
      have stored (changed : World) : (machine.withWorld changed).world = changed := rfl
      simp only [tellState, state, tell, world, stored]
      cases found : objects.get? object with
      | none =>
        left
        simp only [calls_proceed, logged, calls_withWorld]
      | some moved =>
        dsimp only
        split
        · left
          simp only [calls_proceed, logged, calls_withWorld]
        · right
          have same : (objects.get? object).map _ = _ := observer_advance attempt
          rw [found] at same
          obtain ⟨kept, present, observer⟩ := Option.map_eq_some_iff.mp same.symm
          have deed : machine.stage.advance? object target = some (.moves object target) := by
            have known : machine.stage.objects.get? object = some kept := present
            have legal : (machine.stage.objects.state object).canBecome target = true :=
              Registry.canBecome_of_advance attempt
            rw [Stage.advance?, known, legal]
            rfl
          refine ⟨.told moved.observer.name event, ?_, congrArg (_ :: ·) logged⟩
          rw [deed, ← observer]
          exact .told present state

private theorem voices_executeObject (command : ObjectCommand Body)
    (moves : ∀ name event, command ≠ .poke name (some event)) :
    machine.Voices (machine.started? (.object command)) (machine.executeObject command) := by
  cases command with
  | create => exact .inl rfl
  | share | describe => exact .inl (onObject_eq rfl fun _ => rfl)
  | compare =>
    refine .inl (onObject_eq rfl fun id => ?_)
    split <;> rfl
  | advance name target =>
    simp only [started?, executeObject, onObject]
    cases machine.world.objectNames.get? name with
    | none => exact .inl rfl
    | some id => exact voices_advance (fun _ => rfl) fun _ => ⟨rfl, rfl⟩
  | poke name event =>
    cases event with
    | none => exact .inl (onObject_eq rfl fun _ => rfl)
    | some event => exact absurd rfl (moves name event)

/-! ### Dispatchers, batches, pools and records -/

private theorem calls_executeDispatcher (command : DispatcherCommand) :
    (machine.executeDispatcher command).calls = machine.calls := by
  cases command with
  | create => rfl
  | record | dispatch | describe => exact onDispatcher_eq rfl rfl fun _ _ => rfl
  | takeRetirements => exact onDispatcher_eq rfl rfl fun _ _ => calls_storeBatch ..

private theorem calls_executeBatch (command : BatchCommand) :
    (machine.executeBatch command).calls = machine.calls := by
  cases command with
  | create name => exact machine.calls_storeBatch name {}
  | extend =>
    simp only [executeBatch, mergeBatch]
    split
    · rfl
    · split <;> rfl
  | dispatch | discard | describe => exact onBatch_eq rfl fun _ => rfl

private theorem calls_place (id : Nat) (pool : Pool) (descriptor : DescriptorId) (parameter : Int)
    (position : Position.Hash) (name : Name) (described : Bool) :
    (machine.place id pool descriptor parameter position name described).calls = machine.calls := by
  unfold place
  dsimp only
  split <;> exact calls_diagnose _ _

private theorem calls_depart (id : Nat) (pool : Pool) (name : Name)
    (descriptor : Option DescriptorId) (entry : Entry) :
    (machine.depart id pool name descriptor entry).calls = machine.calls := by
  unfold depart
  dsimp only
  split
  · rfl
  · exact calls_diagnose _ _

private theorem calls_executePool (command : PoolCommand Body) :
    (machine.executePool command).calls = machine.calls := by
  cases command with
  | create name config =>
    simp only [executePool, createPool]
    split
    · rfl
    · exact calls_release _ _ _
  | instantiate =>
    exact onPool_eq rfl rfl fun _ _ => atPlace_eq rfl fun _ => calls_diagnose _ _
  | place => exact onPool_eq rfl rfl fun _ _ => atPlace_eq rfl fun _ => calls_place ..
  | deactivate => exact onPool_eq rfl rfl fun _ _ => onEntry_eq rfl fun _ => rfl
  | depart => exact onPool_eq rfl rfl fun _ _ => onEntry_eq rfl fun _ => calls_depart ..
  | discard =>
    refine onPool_eq rfl rfl fun id pool => ?_
    split
    · rfl
    · exact calls_release _ _ _
  | claim =>
    refine onPool_eq rfl rfl fun id pool => ?_
    unfold claim
    split
    · rfl
    · exact calls_diagnose _ _
  | endPass => exact onPool_eq rfl rfl fun _ _ => calls_enter _ _
  | takeRetirements => exact onPool_eq rfl rfl fun _ _ => calls_storeBatch ..
  | describe | query | dispatch => exact onPool_eq rfl rfl fun _ _ => rfl

private theorem calls_executeEntry (command : EntryCommand) :
    (machine.executeEntry command).calls = machine.calls := by
  cases command <;> exact onEntry_eq rfl fun _ => rfl

private theorem calls_executeHasher (command : HasherCommand) :
    (machine.executeHasher command).calls = machine.calls := by
  cases command with
  | create =>
    simp only [executeHasher]
    split <;> rfl
  | pop =>
    refine onHasher_eq rfl fun hasher => ?_
    split <;> rfl
  | copy | push | path | describe => exact onHasher_eq rfl fun _ => rfl

private theorem calls_executeArena (command : ArenaCommand) :
    (machine.executeArena command).calls = machine.calls := by
  cases command with
  | create => rfl
  | register | get | list | describe => exact onArena_eq rfl fun _ => rfl

private theorem voices_execute (command : Command)
    (moves : ∀ name event, command ≠ .object (.poke name (some event))) :
    machine.Voices (machine.started? command) (machine.execute command) := by
  cases command with
  | note | inspect | panic | iterate => exact .inl rfl
  | call script =>
    simp only [execute]
    split <;> exact .inl rfl
  | queue command => exact voices_executeQueue command
  | scheduler command => exact voices_executeScheduler command
  | clock command => exact voices_executeClock command
  | handle command => exact .inl (calls_executeHandle command)
  | object command =>
    exact voices_executeObject command fun name event same => moves name event (congrArg _ same)
  | dispatcher command => exact .inl (calls_executeDispatcher command)
  | batch command => exact .inl (calls_executeBatch command)
  | pool command => exact .inl (calls_executePool command)
  | entry command => exact .inl (calls_executeEntry command)
  | hasher command => exact .inl (calls_executeHasher command)
  | arena command => exact .inl (calls_executeArena command)

/-! ### Calls that go on -/

section Serving

variable {α ρ : Type} {source : QueueRef} {queue later : Queue α ρ} {value : α → Callback}
  {purpose : ρ → Delivery} {reason : ρ} {item : α}
  (seen : machine.stage.awaiting source = some (queue.map value purpose))
include seen

/-- A turn that a queue gives can be seen on the stage. -/
private theorem Voices.turn (turn : queue.turn = .handOver reason item later) {event : Event}
    (shown : (value item).Shown source (purpose reason) event)
    (logged : after.calls = event :: machine.calls) :
    machine.Voices (machine.stage.turn? source) after := by
  cases running : queue.running with
  | nil =>
    rw [Queue.turn, running] at turn
    cases turn
  | cons batch outer =>
    rcases Stage.turn?_cases_of_running seen running with
      ⟨skipped, ticket, served, rest, -, -, -, given, deed⟩ | ⟨-, given, -⟩
    · cases turn.symm.trans given
      rw [deed]
      exact .inr ⟨event, .turn shown, logged⟩
    · cases turn.symm.trans given

end Serving

private theorem voices_continueQueue (id : Nat) :
    machine.Voices (machine.stage.turn? (.queue id)) (machine.continueQueue id) := by
  unfold continueQueue
  cases found : machine.world.queues[id]? with
  | none => exact .inl rfl
  | some queue =>
    have seen := awaiting_queue found
    dsimp only
    split
    · next waiter later turn => exact .turn seen turn (.resumed waiter) rfl
    · next closed waiter later turn => exact .turn seen turn (.rejected waiter closed) rfl
    · exact .inl rfl
    · exact .inl rfl

private theorem voices_continueScheduler (id : Nat) :
    machine.Voices (machine.stage.turn? (.scheduler id)) (machine.continueScheduler id) := by
  unfold continueScheduler
  cases found : machine.world.schedulers[id]? with
  | none => exact .inl rfl
  | some hosted =>
    have seen := awaiting_scheduler found
    simp only [Scheduler.turn]
    cases turn : hosted.core.queue.turn with
    | idle => exact .inl rfl
    | finished reason served later =>
      left
      cases reason <;> simp [setScheduler]
    | handOver reason action later =>
      simp only [deliver]
      cases reason with
      | completing frame failures =>
        simp only [Frame.Call.outcome]
        split
        · next plain => exact .turn seen turn (.ran action plain) rfl
        · next refused informed =>
          refine .turn seen turn (.ended action ?_) rfl
          rw [informed]
          exact Option.some_ne_none _
      | closing closed failures =>
        simp only [Frame.Call.outcome]
        split
        · exact .inl rfl
        · next refused informed =>
          refine .turn seen turn (.closed action closed ?_) rfl
          rw [informed]
          exact Option.some_ne_none _

private theorem voices_continueClock (id : Nat) :
    machine.Voices (machine.stage.turn? (.clock id)) (machine.continueClock id) := by
  unfold continueClock
  cases found : machine.world.clocks[id]? with
  | none => exact .inl rfl
  | some hosted =>
    have seen := awaiting_clock found
    simp only [Clock.turn]
    cases turn : hosted.core.awaiters.turn with
    | idle => exact .inl rfl
    | finished reason served later =>
      left
      cases reason <;> exact calls_diagnose _ _
    | handOver reason waiter later =>
      cases reason with
      | frame time => exact .turn seen turn (.ticked waiter time) rfl
      | closed closed => exact .turn seen turn (.refused waiter closed) rfl

private theorem calls_finishDrain (owner : DrainOwner) (drain : Lifecycle.Drain) :
    (machine.finishDrain owner drain).calls = machine.calls := by
  cases owner with
  | dispatcher => exact machine.calls_diagnoseAll _
  | pool => simp [finishDrain]
  | pass => simp [finishDrain, finishPass]
  | discardedPool => exact machine.calls_diagnoseAll _

private theorem voices_continueDrain (owner : DrainOwner) (drain : Lifecycle.Drain) :
    machine.Voices (machine.continued? (.draining owner drain))
      (machine.continueDrain owner drain) := by
  simp only [continueDrain, continued?]
  cases drain.step with
  | attempt object target drain => exact voices_advance (fun _ => rfl) fun _ => ⟨rfl, rfl⟩
  | nextList => exact .inl rfl
  | finished => exact .inl (calls_finishDrain owner drain)

private theorem voices_continueRetirement (delivery : Lifecycle.Retirement) (counted : Bool) :
    machine.Voices (machine.continued? (.retiring delivery counted))
      (machine.continueRetirement delivery counted) := by
  simp only [continueRetirement, continued?]
  cases delivery.next? with
  | none =>
    left
    dsimp only
    split <;> rfl
  | some next => exact voices_advance (fun _ => calls_diagnose _ _) fun _ => ⟨rfl, rfl⟩

private theorem calls_continueMatching (call : PassCall) (pass : Relocation.Pass String Int) :
    (machine.continueMatching call pass).calls = machine.calls := by
  unfold continueMatching
  split
  · exact calls_diagnose _ _
  · split
    · rfl
    · exact (machine.become _).calls_report rfl
  · exact calls_diagnoseAll _ _

private theorem voices_resume (call : Call) :
    machine.Voices (machine.continued? call) (machine.resume call) := by
  cases call with
  | body rest => cases rest <;> exact .inl rfl
  | iterating left => cases left <;> exact .inl rfl
  | replying | unwinding => exact .inl rfl
  | holding pool answer => exact .inl (calls_release _ _ _)
  | registering handle name => cases name <;> exact .inl rfl
  | queue id => exact voices_continueQueue id
  | scheduler id => exact voices_continueScheduler id
  | clock id => exact voices_continueClock id
  | draining owner drain => exact voices_continueDrain owner drain
  | retiring delivery counted => exact voices_continueRetirement delivery counted
  | matching call pass => exact .inl (calls_continueMatching call pass)
  | inserting => exact .inl (calls_diagnose _ _)

/-! ### Panics, and every step -/

private theorem calls_unwindCall (reason : Panic) (call : Call) :
    (machine.unwindCall reason call).calls = machine.calls := by
  cases call with
  | body | iterating | replying | unwinding | registering | retiring => rfl
  | holding pool => exact calls_release _ _ _
  | queue =>
    simp only [unwindCall, unwindQueue]
    split <;> rfl
  | clock =>
    simp only [unwindCall, unwindClock]
    split <;> rfl
  | scheduler =>
    simp only [unwindCall, catchInScheduler]
    split
    · rfl
    · unfold diagnoseRefusedAction
      split
      · rfl
      · split
        · exact calls_diagnose _ _
        · rfl
  | draining owner =>
    simp only [unwindCall, unwindDrain]
    cases owner <;> simp [setDispatcher]
  | matching | inserting => simp [unwindCall, unwindMatching]

/-- What a step may show: its deed, or that user code tells an observer by itself. -/
inductive Shows (machine : Machine) : Event → Prop
  | deed {event : Event} (shown : machine.world.Shows machine.deed? event) : Shows machine event
  | poke {name : Name} {object : ObjectId} {kept : Lifecycle.Retained Observer}
      {event : Lifecycle.Event}
      (control : machine.control = .execute (.object (.poke name (some event))))
      (named : machine.world.objectNames.get? name = some object)
      (found : machine.world.objects.get? object = some kept) :
      Shows machine (.told kept.observer.name event)

/-- All that a step logs of calls is one event at most, and shows what the step does. -/
def Accounted (machine : Machine) : Prop :=
  machine.step.calls = machine.calls ∨
    ∃ event, machine.Shows event ∧ machine.step.calls = event :: machine.calls

private theorem Voices.accounted (voices : machine.Voices machine.deed? machine.step) :
    machine.Accounted :=
  voices.imp_right fun ⟨event, shown, logged⟩ => ⟨event, .deed shown, logged⟩

private theorem accounted_of_poke {name : Name} {event : Lifecycle.Event}
    (control : machine.control = .execute (.object (.poke name (some event)))) :
    machine.Accounted := by
  have stepped : machine.step = machine.executeObject (.poke name (some event)) := by
    simp only [step, control]
    rfl
  rw [Accounted, stepped]
  simp only [executeObject, onObject]
  cases named : machine.world.objectNames.get? name with
  | none => exact .inl rfl
  | some object =>
    have kept : (machine.push (.replying .ok)).world.objects.get? object =
        machine.world.objects.get? object := rfl
    simp only [tell, kept]
    cases found : machine.world.objects.get? object with
    | none => exact .inl rfl
    | some kept =>
      dsimp only
      split
      · exact .inl rfl
      · exact .inr ⟨_, .poke control named found, rfl⟩

/-- No step of the machine calls back unnoticed. -/
theorem accounted (machine : Machine) : machine.Accounted := by
  rcases machine with ⟨world, listener, log, stack, control⟩
  cases control with
  | execute command =>
    by_cases pokes : ∃ name event, command = .object (.poke name (some event))
    · obtain ⟨name, event, rfl⟩ := pokes
      exact accounted_of_poke rfl
    · exact (voices_execute command fun name event same => pokes ⟨name, event, same⟩).accounted
  | answer answer =>
    cases stack with
    | nil => exact .inl rfl
    | cons call calls =>
      cases call with
      | body => exact .inl (calls_report _ rfl)
      | _ => exact .inl rfl
  | proceed =>
    cases stack with
    | nil => exact .inl rfl
    | cons call calls => exact (voices_resume call).accounted
  | unwind reason =>
    cases stack with
    | nil => exact .inl rfl
    | cons call calls => exact .inl (calls_unwindCall reason call)

end Machine

end LiveTree.Session
