import LiveTree.Proofs.Session.Course

/-! What the deeds of a machine call back. A deed is only a name for what a step does; here it is
shown what the machine runs next when somebody has a turn, when a call is done with its batch, and
when a panic comes to a call. -/
namespace LiveTree.Session

open Awaiting LiveTree.Frame
open Lifecycle (ObjectId)

/-- The answer of a call that has handed over to a number of awaiters: the number, or for a frame
a report of it. -/
def Answer.Tells (answer : Answer) (count : Nat) : QueueRef → Delivery → Prop
  | .scheduler _, .resume => ∃ report, answer = .frame report ∧ report.dispatched = count
  | _, _ => answer = .count count

namespace Stage

variable {stage : Stage} {source : QueueRef} {deed : Deed}

private theorem accept?_cases {callback : Callback}
    (done : stage.accept? source callback = some deed) :
    ∃ ticket handle hooked, deed = .accepts source ticket handle callback hooked := by
  unfold accept? at done
  split at done
  · cases done
  · split at done
    · cases done
    · cases done
      exact ⟨_, _, _, rfl⟩

private theorem flush?_cases (done : stage.flush? source = some deed) :
    ∃ queue, stage.awaiting source = some queue ∧ deed = .begins source .resume := by
  obtain ⟨queue, found, rfl⟩ := Option.map_eq_some_iff.mp done
  exact ⟨queue, found, rfl⟩

private theorem close?_cases {reason : Closed} (done : stage.close? source reason = some deed) :
    ∃ queue, stage.awaiting source = some queue ∧
      deed = .begins source (.refuse (queue.closed.getD reason)) := by
  obtain ⟨queue, found, rfl⟩ := Option.map_eq_some_iff.mp done
  exact ⟨queue, found, rfl⟩

private theorem complete?_cases {id : Nat} (done : stage.complete? id = some deed) :
    ∃ queue, stage.awaiting (.scheduler id) = some queue ∧
      (queue.closed ≠ none ∧ deed = .idles id ∨
        queue.closed = none ∧ deed = .begins (.scheduler id) .resume) := by
  obtain ⟨queue, found, rfl⟩ := Option.map_eq_some_iff.mp done
  refine ⟨queue, found, ?_⟩
  split
  · next closed => exact .inl ⟨Option.isSome_iff_ne_none.mp closed, rfl⟩
  · next opened => exact .inr ⟨Option.not_isSome_iff_eq_none.mp opened, rfl⟩

private theorem cancel?_cases {id : HandleId} (done : stage.cancel? id = some deed) :
    deed = .cancels id := by
  unfold cancel? at done
  split at done
  · cases done
    rfl
  · cases done

private theorem advance?_cases {object : ObjectId} {target : Lifecycle.State}
    (done : stage.advance? object target = some deed) :
    (stage.objects.get? object).isSome ∧
      ((stage.objects.state object).canBecome target = true ∧ deed = .moves object target ∨
        (stage.objects.state object).canBecome target = false ∧ deed = .refuses object target) := by
  unfold advance? at done
  split at done
  · cases done
  · next present =>
    refine ⟨by simpa [Option.isSome_iff_ne_none] using present, ?_⟩
    split at done
    · next legal => exact .inl ⟨legal, (Option.some.inj done).symm⟩
    · next illegal => exact .inr ⟨Bool.eq_false_iff.mpr illegal, (Option.some.inj done).symm⟩

/-- A call that goes on gives somebody a turn or ends, and whatever it does it does to its own
queue. -/
private theorem turn?_cases (done : stage.turn? source = some deed) :
    (∃ ticket callback delivery, deed = .serves source ticket callback delivery) ∨
      deed = .finishes source := by
  unfold turn? at done
  split at done
  · cases done
  · split at done
    · cases done
    · split at done
      · cases done
        exact .inl ⟨_, _, _, rfl⟩
      · cases done
        exact .inr rfl

section Turn

variable {α ρ : Type} {queue : Queue α ρ} {value : α → Callback} {purpose : ρ → Delivery}
  (seen : stage.awaiting source = some (queue.map value purpose))
include seen

/-- The turn that is seen on the stage is the one that the queue gives. -/
theorem turn_of_serves {ticket : Ticket} {callback : Callback} {delivery : Delivery}
    (done : stage.turn? source = some (.serves source ticket callback delivery)) :
    ∃ reason item later, queue.turn = .handOver reason item later ∧
      callback = value item ∧ delivery = purpose reason := by
  cases running : queue.running with
  | nil => simp [turn?, seen, Queue.map, running] at done
  | cons batch outer =>
    rcases turn?_cases_of_running seen running with
      ⟨skipped, served, item, rest, -, -, -, turn, given⟩ | ⟨-, -, given⟩
    · cases done.symm.trans given
      exact ⟨batch.purpose, item, _, turn, rfl, rfl⟩
    · cases done.symm.trans given

/-- And so is the end of a batch. -/
theorem turn_of_finishes (done : stage.turn? source = some (.finishes source)) :
    ∃ batch outer, queue.running = batch :: outer ∧
      queue.turn = .finished batch.purpose batch.served { queue with running := outer } := by
  cases running : queue.running with
  | nil => simp [turn?, seen, Queue.map, running] at done
  | cons batch outer =>
    rcases turn?_cases_of_running seen running with
      ⟨skipped, served, item, rest, -, -, -, -, given⟩ | ⟨-, turn, -⟩
    · cases done.symm.trans given
    · exact ⟨batch, outer, rfl, turn⟩

end Turn

theorem giveUp?_cases (done : stage.giveUp? source = some deed) :
    ∃ tickets, deed = .loses source tickets := by
  unfold giveUp? at done
  split at done
  · cases done
  · cases done
  · split at done
    · cases done
    · cases done
      exact ⟨_, rfl⟩

end Stage

namespace Machine

variable {machine : Machine} {deed : Deed}

/-- The commands that do a deed, attempts to move an object apart. -/
inductive Starting (machine : Machine) : Command → Deed → Prop
  | registers {command : Command} {source : QueueRef} {ticket : Ticket} {handle : HandleId}
      {callback : Callback} {hooked : Bool}
      (accepted : machine.stage.accept? source callback =
        some (.accepts source ticket handle callback hooked))
      (scheduled : ∀ id, source = .scheduler id → ∃ name kept action, callback = .action action ∧
        machine.world.schedulerNames.get? name = some id ∧
        machine.execute command = machine.schedule name kept action) :
      Starting machine command (.accepts source ticket handle callback hooked)
  | flushes {command : Command} {source : QueueRef} (free : ∀ id, source ≠ .scheduler id) :
      Starting machine command (.begins source .resume)
  | closes {command : Command} {source : QueueRef} {queue : CallbackQueue} (reason : Closed)
      (free : ∀ id, source ≠ .scheduler id) (found : machine.stage.awaiting source = some queue) :
      Starting machine command (.begins source (.refuse (queue.closed.getD reason)))
  | completesFrame (name : Name) {id : Nat} {queue : CallbackQueue}
      (found : machine.stage.awaiting (.scheduler id) = some queue)
      (unclosed : queue.closed = none) :
      Starting machine (.scheduler (.completeFrame name)) (.begins (.scheduler id) .resume)
  | idles (name : Name) {id : Nat} {queue : CallbackQueue}
      (found : machine.stage.awaiting (.scheduler id) = some queue) (closed : queue.closed ≠ none) :
      Starting machine (.scheduler (.completeFrame name)) (.idles id)
  | closesScheduler (name : Name) (reason : String) {id : Nat} {queue : CallbackQueue}
      (found : machine.stage.awaiting (.scheduler id) = some queue) :
      Starting machine (.scheduler (.close name reason))
        (.begins (.scheduler id) (.refuse (queue.closed.getD ⟨reason⟩)))
  | startsFrame {command : Command} (id : Nat) : Starting machine command (.startsFrame id)
  | cancels {command : Command} (id : HandleId) : Starting machine command (.cancels id)

/-- Each command that does a deed, with what it works on. -/
inductive Starts (machine : Machine) : Command → Deed → Prop
  | registers {name : Name} {item : String} {kept : Option Name} {resumed refused first : Body}
      {id : Nat} {ticket : Ticket} {handle : HandleId} {hooked : Bool}
      (named : machine.world.queueNames.get? name = some id)
      (made : machine.stage.accept? (.queue id) (.waiter ⟨item, resumed, refused⟩) =
        some (.accepts (.queue id) ticket handle (.waiter ⟨item, resumed, refused⟩) hooked)) :
      Starts machine (.queue (.register name item kept resumed refused first))
        (.accepts (.queue id) ticket handle (.waiter ⟨item, resumed, refused⟩) hooked)
  | flushes {name : Name} {id : Nat} {queue : CallbackQueue}
      (named : machine.world.queueNames.get? name = some id)
      (found : machine.stage.awaiting (.queue id) = some queue) :
      Starts machine (.queue (.flush name)) (.begins (.queue id) .resume)
  | closesQueue {name : Name} {reason : String} {id : Nat} {queue : CallbackQueue}
      (named : machine.world.queueNames.get? name = some id)
      (found : machine.stage.awaiting (.queue id) = some queue) :
      Starts machine (.queue (.close name reason))
        (.begins (.queue id) (.refuse (queue.closed.getD ⟨reason⟩)))
  | schedulesPlain {name : Name} {item : String} {kept : Option Name} {completed : Body} {id : Nat}
      {ticket : Ticket} {handle : HandleId} {hooked : Bool}
      (named : machine.world.schedulerNames.get? name = some id)
      (made : machine.stage.accept? (.scheduler id) (.action ⟨item, completed, none⟩) =
        some (.accepts (.scheduler id) ticket handle (.action ⟨item, completed, none⟩) hooked)) :
      Starts machine (.scheduler (.schedulePlain name item kept completed))
        (.accepts (.scheduler id) ticket handle (.action ⟨item, completed, none⟩) hooked)
  | schedulesInformed {name : Name} {item : String} {kept : Option Name} {completed refused : Body}
      {id : Nat} {ticket : Ticket} {handle : HandleId} {hooked : Bool}
      (named : machine.world.schedulerNames.get? name = some id)
      (made : machine.stage.accept? (.scheduler id) (.action ⟨item, completed, some refused⟩) =
        some (.accepts (.scheduler id) ticket handle (.action ⟨item, completed, some refused⟩)
          hooked)) :
      Starts machine (.scheduler (.scheduleInformed name item kept completed refused))
        (.accepts (.scheduler id) ticket handle (.action ⟨item, completed, some refused⟩) hooked)
  | startsFrame {name : Name} {id : Nat}
      (named : machine.world.schedulerNames.get? name = some id) :
      Starts machine (.scheduler (.startFrame name)) (.startsFrame id)
  | idles {name : Name} {id : Nat} {queue : CallbackQueue}
      (named : machine.world.schedulerNames.get? name = some id)
      (found : machine.stage.awaiting (.scheduler id) = some queue) (closed : queue.closed ≠ none) :
      Starts machine (.scheduler (.completeFrame name)) (.idles id)
  | completesFrame {name : Name} {id : Nat} {queue : CallbackQueue}
      (named : machine.world.schedulerNames.get? name = some id)
      (found : machine.stage.awaiting (.scheduler id) = some queue)
      (unclosed : queue.closed = none) :
      Starts machine (.scheduler (.completeFrame name)) (.begins (.scheduler id) .resume)
  | closesScheduler {name : Name} {reason : String} {id : Nat} {queue : CallbackQueue}
      (named : machine.world.schedulerNames.get? name = some id)
      (found : machine.stage.awaiting (.scheduler id) = some queue) :
      Starts machine (.scheduler (.close name reason))
        (.begins (.scheduler id) (.refuse (queue.closed.getD ⟨reason⟩)))
  | awaitsTick {name : Name} {item : String} {kept : Option Name} {ticked refused : Body} {id : Nat}
      {ticket : Ticket} {handle : HandleId} {hooked : Bool}
      (named : machine.world.clockNames.get? name = some id)
      (made : machine.stage.accept? (.clock id) (.waiter ⟨item, ticked, refused⟩) =
        some (.accepts (.clock id) ticket handle (.waiter ⟨item, ticked, refused⟩) hooked)) :
      Starts machine (.clock (.register name item kept ticked refused))
        (.accepts (.clock id) ticket handle (.waiter ⟨item, ticked, refused⟩) hooked)
  | sends {name : Name} {time id : Nat} {queue : CallbackQueue}
      (named : machine.world.clockNames.get? name = some id)
      (found : machine.stage.awaiting (.clock id) = some queue) :
      Starts machine (.clock (.send name time)) (.begins (.clock id) .resume)
  | closesClock {name : Name} {reason : String} {id : Nat} {queue : CallbackQueue}
      (named : machine.world.clockNames.get? name = some id)
      (found : machine.stage.awaiting (.clock id) = some queue) :
      Starts machine (.clock (.close name reason))
        (.begins (.clock id) (.refuse (queue.closed.getD ⟨reason⟩)))
  | cancels {name : Name} {id : HandleId}
      (named : machine.world.handleNames.get? name = some id) :
      Starts machine (.handle (.cancel name)) (.cancels id)
  | replaces {name guard : Name} {id : HandleId} {former : Guard}
      (named : machine.world.handleNames.get? name = some id)
      (guarded : machine.world.guards.get? guard = some former) :
      Starts machine (.handle (.guard name guard)) (.cancels former.handle)
  | releases {name : Name} {guard : Guard}
      (guarded : machine.world.guards.get? name = some guard) :
      Starts machine (.handle (.release name)) (.cancels guard.handle)
  | moves {name : Name} {target : Lifecycle.State} {object : ObjectId}
      (named : machine.world.objectNames.get? name = some object)
      (present : (machine.world.objects.get? object).isSome)
      (legal : (machine.world.objects.state object).canBecome target = true) :
      Starts machine (.object (.advance name target)) (.moves object target)
  | refuses {name : Name} {target : Lifecycle.State} {object : ObjectId}
      (named : machine.world.objectNames.get? name = some object)
      (illegal : (machine.world.objects.state object).canBecome target = false) :
      Starts machine (.object (.advance name target)) (.refuses object target)

private theorem starts_of_started? {command : Command}
    (done : machine.started? command = some deed) : machine.Starts command deed := by
  unfold started? at done
  split at done
  case h_1 =>
    obtain ⟨id, named, made⟩ := Option.bind_eq_some_iff.mp done
    obtain ⟨_, _, _, rfl⟩ := Stage.accept?_cases made
    exact .registers named made
  case h_2 =>
    obtain ⟨id, named, made⟩ := Option.bind_eq_some_iff.mp done
    obtain ⟨queue, found, rfl⟩ := Stage.flush?_cases made
    exact .flushes named found
  case h_3 =>
    obtain ⟨id, named, made⟩ := Option.bind_eq_some_iff.mp done
    obtain ⟨queue, found, rfl⟩ := Stage.close?_cases made
    exact .closesQueue named found
  case h_4 =>
    obtain ⟨id, named, made⟩ := Option.bind_eq_some_iff.mp done
    obtain ⟨_, _, _, rfl⟩ := Stage.accept?_cases made
    exact .schedulesPlain named made
  case h_5 =>
    obtain ⟨id, named, made⟩ := Option.bind_eq_some_iff.mp done
    obtain ⟨_, _, _, rfl⟩ := Stage.accept?_cases made
    exact .schedulesInformed named made
  case h_6 =>
    obtain ⟨id, named, made⟩ := Option.bind_eq_some_iff.mp done
    obtain ⟨_, -, rfl⟩ := Option.map_eq_some_iff.mp made
    exact .startsFrame named
  case h_7 =>
    obtain ⟨id, named, made⟩ := Option.bind_eq_some_iff.mp done
    obtain ⟨queue, found, ⟨closed, rfl⟩ | ⟨unclosed, rfl⟩⟩ := Stage.complete?_cases made
    · exact .idles named found closed
    · exact .completesFrame named found unclosed
  case h_8 =>
    obtain ⟨id, named, made⟩ := Option.bind_eq_some_iff.mp done
    obtain ⟨queue, found, rfl⟩ := Stage.close?_cases made
    exact .closesScheduler named found
  case h_9 =>
    obtain ⟨id, named, made⟩ := Option.bind_eq_some_iff.mp done
    obtain ⟨_, _, _, rfl⟩ := Stage.accept?_cases made
    exact .awaitsTick named made
  case h_10 =>
    obtain ⟨id, named, made⟩ := Option.bind_eq_some_iff.mp done
    obtain ⟨queue, found, rfl⟩ := Stage.flush?_cases made
    exact .sends named found
  case h_11 =>
    obtain ⟨id, named, made⟩ := Option.bind_eq_some_iff.mp done
    obtain ⟨queue, found, rfl⟩ := Stage.close?_cases made
    exact .closesClock named found
  case h_12 =>
    obtain ⟨id, named, made⟩ := Option.bind_eq_some_iff.mp done
    obtain rfl := Stage.cancel?_cases made
    exact .cancels named
  case h_13 =>
    obtain ⟨id, named, made⟩ := Option.bind_eq_some_iff.mp done
    obtain ⟨_, -, last⟩ := Option.bind_eq_some_iff.mp made
    obtain ⟨former, guarded, cancelled⟩ := Option.bind_eq_some_iff.mp last
    obtain rfl := Stage.cancel?_cases cancelled
    exact .replaces named guarded
  case h_14 =>
    obtain ⟨guard, guarded, made⟩ := Option.bind_eq_some_iff.mp done
    obtain rfl := Stage.cancel?_cases made
    exact .releases guarded
  case h_15 =>
    obtain ⟨object, named, made⟩ := Option.bind_eq_some_iff.mp done
    obtain ⟨present, ⟨legal, rfl⟩ | ⟨illegal, rfl⟩⟩ := Stage.advance?_cases made
    · exact .moves named present legal
    · exact .refuses named illegal
  case h_16 => cases done

/-- The deed of a machine at a command is that of the command. -/
theorem starts_of_deed {command : Command} (control : machine.control = .execute command)
    (done : machine.deed? = some deed) : machine.Starts command deed := by
  simp only [deed?, control] at done
  exact starts_of_started? done

/-- A call that hands over goes on. -/
structure Turns (machine : Machine) (call : Call) (source : QueueRef) : Prop where
  innermost : machine.stack.head? = some call
  serves : call.source? = some source
  proceeds : machine.control = .proceed

/-- An attempt to move an object: by a command, or in a delivery of notifications or
retirements. -/
inductive Attempting (machine : Machine) : ObjectId → Lifecycle.State → Prop
  | advances {name : Name} {object : ObjectId} {target : Lifecycle.State}
      (control : machine.control = .execute (.object (.advance name target)))
      (named : machine.world.objectNames.get? name = some object) : Attempting machine object target
  | drains {owner : DrainOwner} {drain next : Lifecycle.Drain} {calls : List Call}
      {object : ObjectId} {target : Lifecycle.State} (proceeds : machine.control = .proceed)
      (stack : machine.stack = .draining owner drain :: calls)
      (turn : drain.step = .attempt object target next) : Attempting machine object target
  | retires {delivery later : Lifecycle.Retirement} {counted : Bool} {calls : List Call}
      {object : ObjectId} (proceeds : machine.control = .proceed)
      (stack : machine.stack = .retiring delivery counted :: calls)
      (turn : delivery.next? = some (object, later)) : Attempting machine object .retired

/-- Where a deed comes from: from a command that starts, from a call that hands over and goes on or
is left by a panic, or from an attempt to move an object. -/
inductive Doing (machine : Machine) : Deed → Prop
  | starts {command : Command} {deed : Deed} (control : machine.control = .execute command)
      (starting : machine.Starting command deed) : Doing machine deed
  | serves {call : Call} {source : QueueRef} {ticket : Ticket} {callback : Callback}
      {delivery : Delivery} (turns : machine.Turns call source)
      (given : machine.stage.turn? source = some (.serves source ticket callback delivery)) :
      Doing machine (.serves source ticket callback delivery)
  | finishes {call : Call} {source : QueueRef} (turns : machine.Turns call source)
      (given : machine.stage.turn? source = some (.finishes source)) :
      Doing machine (.finishes source)
  | loses {source : QueueRef} {tickets : List Ticket} {reason : Panic}
      (panics : machine.control = .unwind reason) : Doing machine (.loses source tickets)
  | moves {object : ObjectId} {target : Lifecycle.State}
      (attempting : machine.Attempting object target)
      (present : (machine.world.objects.get? object).isSome)
      (legal : (machine.world.objects.state object).canBecome target = true) :
      Doing machine (.moves object target)
  | refuses {object : ObjectId} {target : Lifecycle.State}
      (attempting : machine.Attempting object target)
      (illegal : (machine.world.objects.state object).canBecome target = false) :
      Doing machine (.refuses object target)

private theorem Doing.of_attempt {object : ObjectId} {target : Lifecycle.State}
    (attempting : machine.Attempting object target)
    (given : machine.stage.advance? object target = some deed) : machine.Doing deed := by
  obtain ⟨present, ⟨legal, rfl⟩ | ⟨illegal, rfl⟩⟩ := Stage.advance?_cases given
  · exact .moves attempting present legal
  · exact .refuses attempting illegal

private theorem Doing.of_turn {call : Call} {source : QueueRef} (turns : machine.Turns call source)
    (given : machine.stage.turn? source = some deed) : machine.Doing deed := by
  rcases Stage.turn?_cases given with ⟨_, _, _, rfl⟩ | rfl
  · exact .serves turns given
  · exact .finishes turns given

private theorem Starts.doing {command : Command} (control : machine.control = .execute command)
    (starts : machine.Starts command deed) : machine.Doing deed := by
  cases starts with
  | registers _ made | awaitsTick _ made => exact .starts control (.registers made nofun)
  | schedulesPlain named made | schedulesInformed named made =>
    refine .starts control (.registers made fun other same => ?_)
    cases same
    exact ⟨_, _, _, rfl, named, rfl⟩
  | flushes | sends => exact .starts control (.flushes nofun)
  | closesQueue _ found | closesClock _ found => exact .starts control (.closes _ nofun found)
  | startsFrame => exact .starts control (.startsFrame _)
  | idles _ found closed => exact .starts control (.idles _ found closed)
  | completesFrame _ found unclosed => exact .starts control (.completesFrame _ found unclosed)
  | closesScheduler _ found => exact .starts control (.closesScheduler _ _ found)
  | cancels | replaces | releases => exact .starts control (.cancels _)
  | moves named present legal => exact .moves (.advances control named) present legal
  | refuses named illegal => exact .refuses (.advances control named) illegal

theorem doing_of_deed (done : machine.deed? = some deed) : machine.Doing deed := by
  rcases machine with ⟨world, listener, log, stack, control⟩
  cases control with
  | execute command => exact (starts_of_started? done).doing rfl
  | answer answer => cases stack <;> cases done
  | proceed =>
    cases stack with
    | nil => cases done
    | cons call calls =>
      cases call with
      | queue id => exact .of_turn ⟨rfl, rfl, rfl⟩ done
      | scheduler id => exact .of_turn ⟨rfl, rfl, rfl⟩ done
      | clock id => exact .of_turn ⟨rfl, rfl, rfl⟩ done
      | draining owner drain =>
        simp only [deed?, continued?] at done
        split at done
        · next turn => exact .of_attempt (.drains rfl rfl turn) done
        · cases done
      | retiring delivery counted =>
        obtain ⟨⟨object, later⟩, turn, made⟩ := Option.bind_eq_some_iff.mp done
        exact .of_attempt (.retires rfl rfl turn) made
      | _ => cases done
  | unwind reason =>
    cases stack with
    | nil => cases done
    | cons call calls =>
      obtain ⟨source, -, given⟩ := Option.bind_eq_some_iff.mp done
      obtain ⟨tickets, rfl⟩ := Stage.giveUp?_cases given
      exact .loses rfl

/-- A call that hands over and goes on is resumed. -/
theorem Turns.step {call : Call} {source : QueueRef} (turns : machine.Turns call source) :
    machine.step = machine.resume call := by
  obtain ⟨calls, stack⟩ := List.head?_eq_some_iff.mp turns.innermost
  simp only [Machine.step, turns.proceeds, stack]

/-! ### Turns -/

/-- Whoever has a turn has it in the innermost batch of its component. -/
theorem running_of_serves (attended : machine.stage.Attended) {source : QueueRef}
    {ticket : Ticket} {callback : Callback} {delivery : Delivery}
    (done : machine.deed? = some (.serves source ticket callback delivery)) :
    ∃ queue batch outer, machine.stage.awaiting source = some queue ∧
      queue.running = batch :: outer ∧ batch.purpose = delivery ∧ ticket ∈ batch.rest := by
  have step := stage_step attended
  rw [done] at step
  generalize machine.step.stage = after at step
  cases step with
  | serves found _ running split =>
    refine ⟨_, _, _, found, running, rfl, ?_⟩
    rw [split]
    exact List.mem_append_right _ List.mem_cons_self

/-- To give an awaiter its turn is to run its body, under the call that gives the turn. An action
without a body for what it is told is passed over. -/
theorem step_of_serves {source : QueueRef} {ticket : Ticket} {callback : Callback}
    {delivery : Delivery}
    (done : machine.deed? = some (.serves source ticket callback delivery)) :
    machine.step.control = .proceed ∧
      machine.step.stack =
        ((callback.body? delivery).map Call.body).toList ++ machine.stack := by
  obtain ⟨call, turns, given⟩ : ∃ call, machine.Turns call source ∧
      machine.stage.turn? source = some (.serves source ticket callback delivery) := by
    cases doing_of_deed done with
    | starts _ starting => cases starting
    | serves turns given => exact ⟨_, turns, given⟩
  have serves := turns.serves
  rw [turns.step]
  cases call with
  | queue id =>
    cases serves
    cases found : machine.world.queues[id]? with
    | none => simp [Stage.turn?, stage, World.awaiting, found] at given
    | some queue =>
      obtain ⟨_, item, later, turn, rfl, rfl⟩ :=
        Stage.turn_of_serves (awaiting_queue found) given
      simp only [resume, continueQueue, found, turn]
      cases delivery <;> exact ⟨rfl, rfl⟩
  | scheduler id =>
    cases serves
    cases found : machine.world.schedulers[id]? with
    | none => simp [Stage.turn?, stage, World.awaiting, found] at given
    | some hosted =>
      obtain ⟨reason, item, later, turn, rfl, rfl⟩ :=
        Stage.turn_of_serves (awaiting_scheduler found) given
      have handed : hosted.core.turn =
          .handOver reason.outcome item { hosted.core with queue := later } := by
        simp [Scheduler.turn, turn]
      simp only [resume, continueScheduler, found, handed]
      cases reason with
      | completing frame failures =>
        simp only [deliver, Frame.Call.outcome]
        split <;> exact ⟨rfl, rfl⟩
      | closing closed failures =>
        simp only [deliver, Frame.Call.outcome]
        split
        · next plain => exact ⟨rfl, by simp [Callback.body?, Frame.Call.delivery, plain]; rfl⟩
        · next informed => exact ⟨rfl, by simp [Callback.body?, Frame.Call.delivery, informed]; rfl⟩
  | clock id =>
    cases serves
    cases found : machine.world.clocks[id]? with
    | none => simp [Stage.turn?, stage, World.awaiting, found] at given
    | some hosted =>
      obtain ⟨reason, item, later, turn, rfl, rfl⟩ :=
        Stage.turn_of_serves (awaiting_clock found) given
      have handed : hosted.core.turn = .handOver reason item ⟨later⟩ := by
        simp [Clock.turn, turn]
      simp only [resume, continueClock, found, handed]
      cases reason <;> exact ⟨rfl, rfl⟩
  | _ => cases serves

/-- A call that is done with its batch is over, and answers how many had their turns. -/
theorem step_of_finishes {source : QueueRef} (done : machine.deed? = some (.finishes source)) :
    ∃ queue batch outer answer, machine.stage.awaiting source = some queue ∧
      queue.running = batch :: outer ∧ machine.step.stack = machine.stack.tail ∧
      machine.step.control = .answer answer ∧ answer.Tells batch.served source batch.purpose := by
  obtain ⟨call, turns, given⟩ : ∃ call, machine.Turns call source ∧
      machine.stage.turn? source = some (.finishes source) := by
    cases doing_of_deed done with
    | starts _ starting => cases starting
    | finishes turns given => exact ⟨_, turns, given⟩
  have serves := turns.serves
  rw [turns.step]
  cases call with
  | queue id =>
    cases serves
    cases found : machine.world.queues[id]? with
    | none => simp [Stage.turn?, stage, World.awaiting, found] at given
    | some queue =>
      have seen := awaiting_queue found
      obtain ⟨batch, outer, running, turn⟩ := Stage.turn_of_finishes seen given
      simp only [resume, continueQueue, found, turn]
      exact ⟨_, _, _, _, seen, congrArg (List.map _) running, rfl, rfl, rfl⟩
  | scheduler id =>
    cases serves
    cases found : machine.world.schedulers[id]? with
    | none => simp [Stage.turn?, stage, World.awaiting, found] at given
    | some hosted =>
      have seen := awaiting_scheduler found
      obtain ⟨batch, outer, running, turn⟩ := Stage.turn_of_finishes seen given
      cases purpose : batch.purpose with
      | completing frame failures =>
        simp only [resume, continueScheduler, found, Scheduler.turn, turn, purpose]
        refine ⟨_, _, _, _, seen, congrArg (List.map _) running,
          congrArg List.tail ((stack_leave ..).trans (stack_diagnoseAll ..)), rfl, ?_⟩
        simp only [Batch.map, purpose]
        exact ⟨_, rfl, rfl⟩
      | closing closed failures =>
        simp only [resume, continueScheduler, found, Scheduler.turn, turn, purpose]
        refine ⟨_, _, _, _, seen, congrArg (List.map _) running,
          congrArg List.tail (stack_diagnose ..), rfl, ?_⟩
        simp only [Batch.map, purpose]
        rfl
  | clock id =>
    cases serves
    cases found : machine.world.clocks[id]? with
    | none => simp [Stage.turn?, stage, World.awaiting, found] at given
    | some hosted =>
      have seen := awaiting_clock found
      obtain ⟨batch, outer, running, turn⟩ := Stage.turn_of_finishes seen given
      simp only [resume, continueClock, found, Clock.turn, turn]
      refine ⟨_, _, _, _, seen, congrArg (List.map _) running, ?_, rfl, rfl⟩
      cases batch.purpose <;> exact congrArg List.tail (stack_diagnose ..)
  | _ => cases serves

end Machine

end LiveTree.Session
