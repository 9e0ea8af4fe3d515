import LiveTree.Proofs.Frame.Airing
import LiveTree.Proofs.Session.Batches
import LiveTree.Proofs.Session.Calling
import LiveTree.Proofs.Session.Enlistment

/-! Frames reach whoever waits. A callback that a clock has accepted is told of the first frame or
closing that begins after its registration, and of nothing else, unless it is cancelled before or
the batch it is in goes down with a panic. The host is asked for a frame exactly when somebody comes
to wait where nobody did. -/
namespace LiveTree.Session

open Awaiting LiveTree.Frame

/-- What is seen of a callback that is told of a tick. -/
def Waiter.event (waiter : Waiter) : Tick → Event
  | .frame time => .ticked waiter.item time
  | .closed closed => .closed waiter.item closed

/-- What runs in a callback that is told of a tick. -/
def Waiter.body (waiter : Waiter) : Tick → Body
  | .frame _ => waiter.served
  | .closed _ => waiter.refused

/-- Whether a deed is a registration with a clock of which the host is told. -/
def Deed.requests (id : Nat) : Deed → Bool
  | accepts source _ _ _ hooked => source = .clock id && hooked
  | _ => false

namespace Stage

variable {stage after : Stage} {source : QueueRef} {deed : Option Deed} {history : List Deed}

/-- Those that the next call of a component takes out. -/
def pending (stage : Stage) (source : QueueRef) : List Ticket :=
  (stage.awaiting source).elim [] Queue.pending

/-- Who has been registered is pending. -/
private theorem Step.pending_of_accepts {ticket : Ticket} {handle : HandleId} {callback : Callback}
    {hooked : Bool}
    (step : stage.Step (some (.accepts source ticket handle callback hooked)) after) :
    ticket ∈ after.pending source := by
  cases step with
  | accepts found accepted =>
    obtain ⟨-, rfl⟩ := Queue.register_eq_ok_iff.mp accepted
    simp [pending, issue]

/-- The host is asked for a frame in exactly those steps in which somebody comes to wait where
nobody did. -/
private theorem Step.requests_iff {id : Nat} (step : stage.Step deed after)
    (life : Life history stage) :
    deed.any (Deed.requests id) ↔
      stage.pending (.clock id) = [] ∧ after.pending (.clock id) ≠ [] := by
  unfold pending
  cases found : stage.awaiting (.clock id) with
  | none =>
    have silent : deed.any (Deed.requests id) = false := by
      cases step with
      | @accepts source queue callback registration present =>
        have other : source ≠ .clock id := by
          rintro rfl
          cases found.symm.trans present
        simp [Deed.requests, other]
      | _ => rfl
    rw [silent]
    rcases step.appears found with absent | ⟨fresh, -⟩
    · simp [absent]
    · simp [fresh]
  | some queue =>
    obtain ⟨changed, present, change⟩ := step.change found
    rw [present, Option.elim_some, Option.elim_some]
    have silent (fewer : changed.pending ⊆ queue.pending)
        (quiet : deed.any (Deed.requests id) = false) :
        deed.any (Deed.requests id) ↔ queue.pending = [] ∧ changed.pending ≠ [] := by
      rw [quiet]
      refine ⟨nofun, fun ⟨empty, full⟩ => absurd ?_ full⟩
      rw [empty] at fewer
      exact List.subset_nil.mp fewer
    cases change with
    | stays foreign =>
      refine silent (List.Subset.refl _) ?_
      cases deed with
      | none => rfl
      | some deed =>
        cases deed with
        | accepts other =>
          have apart : other ≠ .clock id := foreign _ rfl
          simp [Deed.requests, apart]
        | _ => rfl
    | accepts accepted =>
      obtain ⟨-, rfl⟩ := Queue.register_eq_ok_iff.mp accepted
      simp [Deed.requests, hooks]
    | withdraws =>
      refine silent ?_ rfl
      rw [Queue.pending_withdraw (life.sound found)]
      exact List.filter_subset_self _
    | flushes | closes => exact silent (List.nil_subset _) rfl
    | serves | finishes => exact silent (List.Subset.refl _) rfl
    | loses running =>
      refine silent ?_ rfl
      simp [Queue.abandon, running]

/-- A panic that leaves a call abandons its batch. -/
private theorem Change.eq_abandon {queue changed : CallbackQueue} {tickets : List Ticket}
    (change : stage.Change source queue (some (.loses source tickets)) changed) :
    changed = queue.abandon := by
  cases change with
  | stays foreign => exact absurd rfl (foreign _ rfl)
  | loses => rfl

end Stage

namespace Machine

variable {machine : Machine} {passed : List Machine} {id : Nat}

/-- Whether the next step asks the host for a frame. -/
def requests (id : Nat) (machine : Machine) : Bool := machine.deed?.any (Deed.requests id)

/-! ### Turns -/

/-- A callback that has its turn is told of the tick that is on the air, and runs what was
registered for that. -/
private theorem step_of_ticks {ticket : Ticket} {callback : Callback} {told : Delivery}
    (done : machine.deed? = some (.serves (.clock id) ticket callback told)) :
    ∃ waiter tick outer, callback = .waiter waiter ∧ machine.airing id = tick :: outer ∧
      tick.delivery = told ∧ machine.step.log = waiter.event tick :: machine.log ∧
      machine.step.stack = .body (waiter.body tick) :: machine.stack ∧
      machine.step.control = .proceed := by
  obtain ⟨call, turns, given⟩ : ∃ call, machine.Turns call (.clock id) ∧
      machine.stage.turn? (.clock id) = some (.serves (.clock id) ticket callback told) := by
    cases doing_of_deed done with
    | starts _ starting => cases starting
    | serves turns given => exact ⟨_, turns, given⟩
  have serves := turns.serves
  rw [turns.step]
  cases call with
  | clock other =>
    cases serves
    cases found : machine.world.clocks[id]? with
    | none => simp [Stage.turn?, stage, World.awaiting, found] at given
    | some hosted =>
      obtain ⟨tick, waiter, later, turn, rfl, rfl⟩ :=
        Stage.turn_of_serves (awaiting_clock found) given
      have handed : hosted.core.turn = .handOver tick waiter ⟨later⟩ := by
        simp [Clock.turn, turn]
      have air := airing_of_clock found
      refine ⟨waiter, tick, (machine.airing id).tail, rfl, ?_, rfl, ?_⟩
      · cases running : hosted.core.awaiters.running with
        | nil => simp [Queue.turn, running] at turn
        | cons batch outer =>
          rw [air, running]
          rcases Queue.turn_cases running with ⟨_, _, _, _, -, -, -, -, own⟩ | ⟨-, -, own⟩
          · cases turn.symm.trans own
            rfl
          · cases turn.symm.trans own
      · simp only [resume, continueClock, found, handed]
        cases tick <;> exact ⟨rfl, rfl, rfl⟩
  | _ => cases serves

/-! ### The hook -/

/-- A registration with a clock comes from a command to register. -/
private theorem register_of_accepts {ticket : Ticket} {handle : HandleId} {callback : Callback}
    {hooked : Bool}
    (done : machine.deed? = some (.accepts (.clock id) ticket handle callback hooked)) :
    ∃ name item kept ticked refused,
      machine.control = .execute (.clock (.register name item kept ticked refused)) ∧
        machine.world.clockNames.get? name = some id ∧
        machine.stage.accept? (.clock id) (.waiter ⟨item, ticked, refused⟩) =
          some (.accepts (.clock id) ticket handle callback hooked) := by
  cases doing_of_deed done with
  | starts control =>
    cases starts_of_deed control done with
    | awaitsTick named made => exact ⟨_, _, _, _, _, control, named, made⟩

/-- A registration with a clock calls the hook if the host is told of it, before its handle is given
out, and otherwise does not call it. -/
private theorem step_of_requests {ticket : Ticket} {handle : HandleId} {callback : Callback}
    {hooked : Bool}
    (done : machine.deed? = some (.accepts (.clock id) ticket handle callback hooked)) :
    ∃ hosted name, machine.world.clocks[id]? = some hosted ∧
      machine.step.log =
        (if hooked then [Event.requested hosted.name] else []) ++ machine.log ∧
      machine.step.stack =
        (if hooked then [Call.body hosted.wake] else []) ++ .registering handle name ::
          machine.stack ∧
      machine.step.control = .proceed := by
  obtain ⟨name, item, kept, ticked, refused, control, named, accepted⟩ := register_of_accepts done
  have stepped : machine.step = machine.executeClock (.register name item kept ticked refused) :=
    step_of_execute control
  rw [stepped]
  cases found : machine.world.clocks[id]? with
  | none => simp [Stage.accept?, stage, World.awaiting, found] at accepted
  | some hosted =>
    rw [Stage.accept?, awaiting_clock found] at accepted
    dsimp only at accepted
    split at accepted
    · cases accepted
    · next opened =>
      obtain ⟨-, rfl, rfl, -, told⟩ := Deed.accepts.inj (Option.some.inj accepted)
      have unclosed : hosted.core.awaiters.closed = none := by
        rw [Queue.isClosed_map] at opened
        exact Option.not_isSome_iff_eq_none.mp opened
      have first : hosted.core.awaiters.pending.isEmpty = hooked := told
      refine ⟨hosted, kept, rfl, ?_⟩
      simp only [executeClock, onClock, named, found,
        Queue.register_eq_ok_iff.mpr ⟨unclosed, rfl⟩, first]
      cases hooked <;> exact ⟨rfl, rfl, rfl⟩

/-- Nothing else calls the hook of a clock. -/
private theorem requests_of_requested {name : Name}
    (logged : machine.step.calls = .requested name :: machine.calls) :
    ∃ id hosted, machine.requests id ∧ machine.world.clocks[id]? = some hosted ∧
      hosted.name = name := by
  rcases machine.accounted with same | ⟨event, shows, shown⟩
  · rw [same] at logged
    exact absurd logged.symm (List.cons_ne_self _ _)
  · obtain rfl : event = .requested name := (List.cons.inj (shown.symm.trans logged)).1
    cases shows with
    | deed shown =>
      generalize done : machine.deed? = deed at shown
      cases shown with
      | @hook source ticket handle callback _ shown =>
        cases source with
        | queue => cases callback <;> cases shown
        | scheduler id =>
          cases callback with
          | waiter => cases shown
          | action =>
            obtain ⟨hosted, -, other⟩ := Option.map_eq_some_iff.mp shown
            cases other
        | clock id =>
          cases callback with
          | action => cases shown
          | waiter =>
            obtain ⟨hosted, found, same⟩ := Option.map_eq_some_iff.mp shown
            refine ⟨id, hosted, ?_, found, Event.requested.inj same⟩
            rw [requests, done]
            exact Bool.and_eq_true_iff.mpr ⟨decide_eq_true rfl, rfl⟩
      | turn shown => cases shown

/-- What is sure of the hook of a clock. -/
structure RequestsOnce (passed : List Machine) (machine : Machine) (id : Nat) : Prop where
  /-- The host is asked for a frame in exactly those moves in which somebody comes to wait where
  nobody did. -/
  transition : ∀ before middle next after, passed ++ [machine] = before ++ middle :: next :: after →
    (middle.requests id ↔
      middle.stage.pending (.clock id) = [] ∧ next.stage.pending (.clock id) ≠ [])
  /-- To ask the host is to call the hook: at once, when the callback is pending, and before its
  handle is given out. A registration of which the host is not told does not call it. -/
  hook : ∀ middle ∈ passed, ∀ ticket handle callback hooked,
    middle.deed? = some (.accepts (.clock id) ticket handle callback hooked) →
      ∃ hosted name, middle.world.clocks[id]? = some hosted ∧
        ticket ∈ middle.step.stage.pending (.clock id) ∧
        middle.step.log =
          (if hooked then [Event.requested hosted.name] else []) ++ middle.log ∧
        middle.step.stack =
          (if hooked then [Call.body hosted.wake] else []) ++ .registering handle name ::
            middle.stack ∧
        middle.step.control = .proceed
  /-- Nothing else calls a hook. -/
  only : ∀ middle ∈ passed, ∀ name, middle.step.calls = .requested name :: middle.calls →
    ∃ id hosted, middle.requests id ∧ middle.world.clocks[id]? = some hosted ∧ hosted.name = name

private theorem Course.requestsOnce (course : Course passed machine) (id : Nat) :
    RequestsOnce passed machine id := by
  constructor
  case transition =>
    intro before middle next after split
    obtain ⟨early, move⟩ := course.adjacent split
    exact (move.stage_step early.life.attended).requests_iff early.life
  case hook =>
    intro middle member ticket handle callback hooked done
    obtain ⟨before, later, rfl⟩ := List.append_of_mem member
    obtain ⟨hosted, name, found, logged⟩ := step_of_requests done
    refine ⟨hosted, name, found, ?_, logged⟩
    have step := stage_step course.before.life.attended
    rw [done] at step
    exact step.pending_of_accepts
  case only =>
    intro middle _ name logged
    exact requests_of_requested logged

/-! ### Panics -/

/-- The innermost call in progress is one of a component, and it began at some machine. -/
structure BeganAt (beginning : Machine) (since : List Machine) (machine : Machine)
    (source : QueueRef) : Prop where
  /-- It began there. -/
  began : ∃ delivery, beginning.deed? = some (.begins source delivery)
  /-- It has been in progress since. -/
  within : ∀ middle ∈ since ++ [machine], middle.stage.Within source beginning.stage.serving
  /-- No other call is in progress inside it. -/
  innermost : machine.stage.serving = source :: beginning.stage.serving

/-- Every call in progress began at some time. -/
private theorem Course.beganAt (course : Course passed machine) {source : QueueRef}
    {calls : List QueueRef} (innermost : machine.stage.serving = source :: calls) :
    ∃ before beginning since, passed = before ++ beginning :: since ∧
      BeganAt beginning since machine source := by
  have attended := course.life.attended source
  obtain ⟨queue, found, busy⟩ := busy_of_attended course.life.attended innermost
  obtain ⟨batch, outer, running⟩ := List.exists_cons_of_ne_nil busy
  have front : queue.running = [] ++ batch :: outer := running
  obtain ⟨before, beginning, since, rfl, tookOut, depth⟩ := course.tookOut found front
  refine ⟨before, beginning, since, rfl, ⟨_, tookOut.began⟩, tookOut.inProgress, ?_⟩
  have inside := tookOut.inProgress machine (List.mem_append_right _ List.mem_cons_self)
  rw [found, Option.elim_some, running, innermost, List.count_cons_self,
    List.length_cons] at attended
  rw [innermost] at inside ⊢
  rcases List.suffix_cons_iff.mp inside with same | deeper
  · exact same.symm
  · have more := deeper.sublist.count_le source
    rw [List.count_cons_self] at more
    omega

section Newcomers

variable {earlier since : List Machine} {beginning : Machine} {source : QueueRef} {ticket : Ticket}
  {handle : HandleId} {callback : Callback} {hooked : Bool}
  (course : Course (earlier ++ beginning :: since) machine)
  (began : BeganAt beginning since machine source)
  (accepted : .accepts source ticket handle callback hooked ∈ deeds since)
include course accepted

omit began in
/-- Who was registered since a call began was unknown before. -/
private theorem Course.not_accepted_before {held : HandleId} {another : Callback} {also : Bool} :
    .accepts source ticket held another also ∉ deeds earlier := by
  intro former
  obtain ⟨sooner, between, split⟩ := List.append_of_mem accepted
  have life := course.life
  have whole : deeds (earlier ++ beginning :: since) =
      (deeds (earlier ++ [beginning]) ++ sooner) ++
        .accepts source ticket handle callback hooked :: between := by
    rw [List.append_assoc, ← split, ← deeds_append]
    simp
  rw [whole] at life
  obtain ⟨stage, early, unknown⟩ := life.unknown_before
  have member : .accepts source ticket held another also ∈
      deeds (earlier ++ [beginning]) ++ sooner :=
    List.mem_append_left _ (mem_deeds_append_left _ former)
  obtain ⟨⟨queue, found, inside⟩, -⟩ := early.knows member
  exact Nat.not_lt.mpr (unknown queue found) inside

include began

/-- Nobody who was registered since the innermost call began is in a batch of a call in progress. -/
private theorem Course.not_batched_of_newcomer {queue : CallbackQueue}
    (found : machine.stage.awaiting source = some queue) : ticket ∉ queue.batched := by
  intro batched
  obtain ⟨batch, member, listed⟩ := List.mem_flatMap.mp batched
  obtain ⟨inner, outer, running⟩ := List.append_of_mem member
  obtain ⟨before, taking, rest, split, tookOut, depth⟩ := course.tookOut found running
  have attended := course.life.attended source
  rw [found, Option.elim_some, running, began.innermost, List.count_cons_self, List.length_append,
    List.length_cons] at attended
  -- It waited when its batch was taken out, so it had been registered by then.
  have upTo : Course before taking := by
    rw [split] at course
    exact course.before
  obtain ⟨held, present, waited⟩ := tookOut.waited
  have waits := (upTo.life.sound present).waits ticket (waited listed)
  obtain ⟨_, _, _, known⟩ := upTo.life.accepted_of_lt present (Queue.lt_size_of_fate? waits)
  rcases List.append_eq_append_iff.mp split with ⟨between, rfl, others⟩ | ⟨between, rfl, -⟩
  · cases between with
    | nil => exact course.not_accepted_before accepted (by simpa using known)
    | cons first between =>
      -- The batch was taken out inside the innermost call.
      obtain ⟨rfl, rfl⟩ := List.cons.inj others
      have inside := (began.within taking (by simp)).count_le
      omega
  · exact course.not_accepted_before accepted (mem_deeds_append_left _ known)

/-- Whoever was registered since the innermost call began is pending, if nothing has become of
it. -/
private theorem Course.pending_of_newcomer
    (unsettled : Deed.settled? source ticket handle
      (deeds (earlier ++ beginning :: since)) = none) :
    ticket ∈ machine.stage.pending source := by
  have member : .accepts source ticket handle callback hooked ∈
      deeds (earlier ++ beginning :: since) := by
    rw [deeds_append, deeds_cons]
    exact List.mem_append_right _ (List.mem_append_right _ accepted)
  obtain ⟨queue, found, -, -⟩ := course.life.fate?_of_accepted member
  have waits := (course.life.waiting_iff member found).mpr unsettled
  rw [Stage.pending, found, Option.elim_some]
  exact ((course.life.sound found).listed ticket waits).resolve_right
    (course.not_batched_of_newcomer began accepted found)

end Newcomers

/-- What a panic does that comes to a call of a clock. -/
structure Spills (before : List Machine) (last : Machine) (passed : List Machine) (id : Nat)
    (calls : List Call) (reason : Panic) : Prop where
  /-- It leaves the call, and nobody is called back. -/
  leaves : last.step.control = .unwind reason ∧ last.step.stack = calls ∧
    last.step.log = last.log
  /-- Those that still wait in the batch of the call are lost, and never have a turn; with everybody
  else and with the other batches all stays as it is. -/
  lost : ∃ queue batch outer changed, last.stage.awaiting (.clock id) = some queue ∧
    queue.running = batch :: outer ∧
    last.deed? = some (.loses (.clock id) (Stage.waitingAmong queue batch.rest)) ∧
    (∀ ticket ∈ Stage.waitingAmong queue batch.rest, ∀ deed ∈ deeds passed,
      ¬ deed.Serves (.clock id) ticket) ∧
    last.step.stage.awaiting (.clock id) = some changed ∧ changed.pending = queue.pending ∧
    changed.running = outer ∧ changed.closed = queue.closed ∧
    ∀ ticket, ticket ∉ Stage.waitingAmong queue batch.rest →
      changed.fate? ticket = queue.fate? ticket
  /-- Whoever was registered since the call began, and of whom nothing has become, stays pending,
  and no call has begun since its registration. -/
  newcomers : ∃ earlier beginning since, before = earlier ++ beginning :: since ∧
    BeganAt beginning since last (.clock id) ∧
    ∀ ticket handle callback hooked,
      .accepts (.clock id) ticket handle callback hooked ∈ deeds since →
      Deed.settled? (.clock id) ticket handle (deeds before) = none →
        ticket ∈ last.step.stage.pending (.clock id) ∧
          ∃ sooner between,
            deeds (before ++ [last]) =
              sooner ++ .accepts (.clock id) ticket handle callback hooked :: between ∧
            ∀ delivery, .begins (.clock id) delivery ∉ between

private theorem Course.spills {before after : List Machine} {last : Machine} {calls : List Call}
    {reason : Panic} (course : Course (before ++ last :: after) machine)
    (stack : last.stack = .clock id :: calls) (control : last.control = .unwind reason) :
    Spills before last (before ++ last :: after) id calls reason := by
  have early := course.before
  have attended := early.life.attended
  have innermost := serving_of_source stack rfl
  obtain ⟨queue, found, busy⟩ := busy_of_attended attended innermost
  obtain ⟨batch, outer, running⟩ := List.exists_cons_of_ne_nil busy
  have done : last.deed? =
      some (.loses (.clock id) (Stage.waitingAmong queue batch.rest)) := by
    simp [deed?, control, stack, Call.source?, Stage.giveUp?, found, running]
  have step := stage_step attended
  rw [done] at step
  obtain ⟨changed, present, change⟩ := step.change found
  obtain rfl := change.eq_abandon
  have pending : queue.abandon.pending = queue.pending := by simp [Queue.abandon, running]
  have stepped : last.step = last.unwindClock id := by
    simp only [Machine.step, control, stack]
    rfl
  constructor
  case leaves =>
    rw [stepped]
    unfold unwindClock
    cases last.world.clocks[id]? with
    | none => exact ⟨control, congrArg List.tail stack, rfl⟩
    | some hosted => exact ⟨control, congrArg List.tail stack, rfl⟩
  case lost =>
    refine ⟨queue, batch, outer, queue.abandon, found, running, done, fun ticket among => ?_,
      present, pending, ?_, ?_, fun ticket other => ?_⟩
    · obtain ⟨listed, waits⟩ := List.mem_filter.mp among
      have waiting := of_decide_eq_true waits
      obtain ⟨handle, callback, hooked, accepted⟩ :=
        early.life.accepted_of_lt found (Queue.lt_size_of_fate? waiting)
      have unsettled := (early.life.waiting_iff accepted found).mp waiting
      intro deed member turn
      rw [deeds_append, deeds_cons, done] at member
      rcases List.mem_append.mp member with former | latter
      · have nothing := List.findSome?_eq_none_iff.mp unsettled deed former
        rw [Stage.settles?_of_serves turn] at nothing
        cases nothing
      · rcases List.mem_cons.mp latter with rfl | later
        · cases turn
        · have life := course.life
          have known := mem_deeds_append_left (last :: after) accepted
          rw [deeds_append, deeds_cons, done] at life known
          exact life.no_turn_after known (if_pos ⟨rfl, among⟩) deed later turn
    · simp [Queue.abandon, running]
    · simp [Queue.abandon, running]
    · rw [Queue.fate?_abandon running]
      refine if_neg fun both => other (List.mem_filter.mpr ⟨both.1, decide_eq_true both.2⟩)
  case newcomers =>
    obtain ⟨earlier, beginning, since, rfl, began⟩ := early.beganAt innermost
    refine ⟨earlier, beginning, since, rfl, began, ?_⟩
    intro ticket handle callback hooked accepted unsettled
    have waits := early.pending_of_newcomer began accepted unsettled
    rw [Stage.pending, found, Option.elim_some] at waits
    refine ⟨?_, ?_⟩
    · rw [Stage.pending, present, Option.elim_some, pending]
      exact waits
    · -- It stands in line, so it was registered since the last call began.
      have line := early.life.pending_eq (.clock id)
      rw [found, Option.elim_some] at line
      rw [line] at waits
      obtain ⟨⟨other, held⟩, standing, same⟩ := List.mem_map.mp waits
      obtain rfl : ticket = other := same.symm
      obtain ⟨sooner, between, another, also, split, first⟩ := Stage.accepted_of_line standing
      have known : .accepts (.clock id) ticket handle callback hooked ∈
          deeds (earlier ++ beginning :: since) := by
        rw [deeds_append, deeds_cons]
        exact List.mem_append_right _ (List.mem_append_right _ accepted)
      have listed : .accepts (.clock id) ticket held another also ∈
          deeds (earlier ++ beginning :: since) := by
        rw [split]
        exact List.mem_append_right _ List.mem_cons_self
      cases early.life.accepted_once known listed (.inl ⟨rfl, rfl⟩)
      refine ⟨sooner, between ++ last.deed?.toList, ?_, fun delivery member => ?_⟩
      · rw [deeds_append, deeds_singleton, split]
        simp
      · rw [done] at member
        rcases List.mem_append.mp member with former | latter
        · exact first delivery former
        · cases List.mem_singleton.mp latter

/-! ### The first call after a registration -/

/-- What becomes of a callback in the call that broadcasts a tick. -/
structure Broadcast (earlier : List Machine) (ending : Machine) (later : List Machine)
    (machine : Machine) (id : Nat) (ticket : Ticket) (handle : HandleId) (callback : Callback)
    (tick : Tick) : Prop where
  /-- It had no turn before that call. -/
  before : ∀ deed ∈ deeds earlier, ¬ deed.Serves (.clock id) ticket
  /-- Its turn falls into that call, not into one inside it, and it is told of exactly the tick. -/
  inside : ∀ during middle rest, later = during ++ middle :: rest →
    ∀ served told, middle.deed? = some (.serves (.clock id) ticket served told) →
      (∃ waiter, callback = .waiter waiter ∧
        middle.step.log = waiter.event tick :: middle.log ∧
        middle.step.stack = .body (waiter.body tick) :: middle.stack ∧
        middle.step.control = .proceed) ∧
      middle.stage.serving = .clock id :: ending.stage.serving ∧
      ∀ other ∈ during ++ [middle], other.stage.Within (.clock id) ending.stage.serving
  /-- It has had exactly one turn, or its handle was cancelled before its turn, or the call is still
  in progress and it waits there, or a panic has come to that call and it is lost without a turn. -/
  outcome : (deeds later).countP (fun deed => deed.Serves (.clock id) ticket) = 1 ∨
    Condition.cancelled.Holds machine.stage (deeds (earlier ++ ending :: later)) (.clock id) ticket
      handle ∨
    ((∀ middle ∈ later ++ [machine], middle.stage.Within (.clock id) ending.stage.serving) ∧
      Condition.inBatch.Holds machine.stage (deeds (earlier ++ ending :: later)) (.clock id) ticket
        handle) ∨
    (∃ during last rest reason tickets, later = during ++ last :: rest ∧
      last.control = .unwind reason ∧ last.deed? = some (.loses (.clock id) tickets) ∧
      ticket ∈ tickets ∧ last.stage.serving = .clock id :: ending.stage.serving ∧
      (∀ other ∈ during ++ [last], other.stage.Within (.clock id) ending.stage.serving) ∧
      ∀ deed ∈ deeds later, ¬ deed.Serves (.clock id) ticket)

section Ending

variable {earlier later : List Machine} {ending : Machine} {ticket : Ticket} {handle : HandleId}
  {callback : Callback} {hooked : Bool} {tick : Tick}
  (course : Course (earlier ++ ending :: later) machine)
  (accepted : .accepts (.clock id) ticket handle callback hooked ∈ deeds earlier)
  (ready : ending.stage.Ready (.clock id) ticket)
  (began : ending.deed? = some (.begins (.clock id) tick.delivery))
include course accepted ready began

/-- Who is lost in the call that it waited for goes down with a panic that comes to that call. -/
private theorem Course.lost_inside
    (undisturbed : ∀ deed ∈ deeds earlier, ∀ tickets, deed = .loses (.clock id) tickets →
      ticket ∉ tickets)
    (settled : Deed.settled? (.clock id) ticket handle
      (deeds (earlier ++ ending :: later)) = some .lost) :
    ∃ during last rest reason tickets, later = during ++ last :: rest ∧
      last.control = .unwind reason ∧ last.deed? = some (.loses (.clock id) tickets) ∧
      ticket ∈ tickets ∧ last.stage.serving = .clock id :: ending.stage.serving ∧
      ∀ other ∈ during ++ [last], other.stage.Within (.clock id) ending.stage.serving := by
  have member := mem_deeds_append_left (ending :: later) accepted
  obtain ⟨tickets, loses, lost⟩ := (course.life.lost_iff member).mpr settled
  rw [deeds_append, deeds_cons, began] at loses
  rcases List.mem_append.mp loses with former | latter
  · exact absurd lost (undisturbed _ former tickets rfl)
  · rcases List.mem_cons.mp latter with other | since
    · cases other
    · obtain ⟨last, among, done⟩ := List.mem_filterMap.mp since
      obtain ⟨during, rest, split⟩ := List.append_of_mem among
      obtain ⟨reason, panics⟩ : ∃ reason, last.control = .unwind reason := by
        cases doing_of_deed done with
        | starts _ starting => cases starting
        | loses panics => exact ⟨_, panics⟩
      obtain ⟨innermost, inside⟩ := course.loses_inside accepted ready began split done lost
      exact ⟨during, last, rest, reason, tickets, split, panics, done, lost, innermost, inside⟩

/-- What becomes of a callback that is ready when a call of its clock begins. -/
private theorem Course.broadcast (airs : ending.step.airing id = tick :: ending.airing id)
    (undisturbed : ∀ deed ∈ deeds earlier, ¬ (deed.Serves (.clock id) ticket ∨
      ∃ tickets, deed = .loses (.clock id) tickets ∧ ticket ∈ tickets)) :
    Broadcast earlier ending later machine id ticket handle callback tick := by
  have member := mem_deeds_append_left (ending :: later) accepted
  constructor
  case before => exact fun deed among turn => undisturbed deed among (.inl turn)
  case inside =>
    intro during middle rest split served told done
    obtain ⟨rfl, rfl, innermost, inside⟩ := course.serves_inside accepted ready began split done
    refine ⟨?_, innermost, inside⟩
    subst split
    have upTo : Course (earlier ++ ending :: during) middle := by
      rw [← List.cons_append, ← List.append_assoc] at course
      exact course.before
    obtain ⟨waiter, told, outer, same, air, -, runs⟩ := step_of_ticks done
    have suffix := upTo.airing_suffix airs (by rw [began]; rfl) inside
    -- No other call of the clock lies above the one that serves.
    have depth := length_airing upTo.life.attended id
    rw [innermost, List.count_cons_self, air, List.length_cons,
      ← length_airing course.before.life.attended] at depth
    rw [air] at suffix
    have whole := List.IsSuffix.eq_of_length suffix (by simpa using depth.symm)
    obtain ⟨rfl, -⟩ := List.cons.inj whole
    exact ⟨waiter, same, runs⟩
  case outcome =>
    cases settled : Deed.settled? (.clock id) ticket handle
        (deeds (earlier ++ ending :: later)) with
    | none =>
      exact .inr (.inr (.inl (course.inBatch_of_unsettled accepted ready began settled)))
    | some fate =>
      cases fate with
      | waiting => exact absurd settled Stage.settled?_ne_waiting
      | handedOver =>
        exact .inl (course.one_turn_since accepted began
          (fun deed among turn => undisturbed deed among (.inl turn)) settled)
      | withdrawn => exact .inr (.inl (Stage.cancelled_iff.mpr settled))
      | lost =>
        obtain ⟨during, last, rest, reason, tickets, split, panics, done, lost, innermost,
            inside⟩ :=
          course.lost_inside accepted ready began
            (fun deed among tickets same lost =>
              undisturbed deed among (.inr ⟨tickets, same, lost⟩)) settled
        refine .inr (.inr (.inr ⟨during, last, rest, reason, tickets, split, panics, done, lost,
          innermost, inside, fun deed among turn => ?_⟩))
        have handed := (course.life.handedOver_iff member).mp ⟨deed, ?_, turn⟩
        · rw [settled] at handed
          cases handed
        · rw [deeds_append, deeds_cons]
          exact List.mem_append_right _ (List.mem_append_right _ among)

end Ending

/-- Where something has been done, there is the machine that did it. -/
private theorem exists_of_deeds_eq {history later : List Deed} {deed : Deed}
    (split : deeds passed = history ++ deed :: later) :
    ∃ before middle after, passed = before ++ middle :: after ∧ deeds before = history ∧
      middle.deed? = some deed ∧ deeds after = later := by
  obtain ⟨before, rest, rfl, early, late⟩ := List.filterMap_eq_append_iff.mp split
  obtain ⟨quiet, middle, after, rfl, silent, done, since⟩ := List.filterMap_eq_cons_iff.mp late
  refine ⟨before ++ quiet, middle, after, by simp, ?_, done, since⟩
  rw [deeds_append, deeds, early, deeds, List.filterMap_eq_nil_iff.mpr silent, List.append_nil]

/-- Every turn comes after a call that began after the registration. -/
private theorem Course.began_before_turn {before after : List Machine} {middle : Machine}
    {ticket : Ticket} {handle : HandleId} {callback served : Callback} {hooked : Bool}
    {told : Delivery} (course : Course (before ++ middle :: after) machine)
    (accepted : .accepts (.clock id) ticket handle callback hooked ∈
      deeds (before ++ middle :: after))
    (done : middle.deed? = some (.serves (.clock id) ticket served told)) :
    ∃ earlier ending during sooner between delivery, before = earlier ++ ending :: during ∧
      deeds earlier =
        sooner ++ .accepts (.clock id) ticket handle callback hooked :: between ∧
      (∀ delivery, .begins (.clock id) delivery ∉ between) ∧
      ending.deed? = some (.begins (.clock id) delivery) := by
  have early := course.before
  have life := course.life
  rw [deeds_append, deeds_cons, done] at life accepted
  obtain ⟨sooner, rest, split⟩ :=
    List.append_of_mem (life.unsettled_before accepted (.inl ⟨rfl, rfl⟩)).1
  classical
  cases found : rest.find? fun deed => ∃ delivery, deed = .begins (.clock id) delivery with
  | none =>
    -- Without a call nobody would have a turn.
    have nothing := List.find?_eq_none.mp found
    have upTo := early.life
    rw [split] at upTo
    have ready := upTo.ready fun delivery among =>
      nothing _ among (decide_eq_true ⟨delivery, rfl⟩)
    have step := stage_step early.life.attended
    rw [done] at step
    exact (step.unsettled_of_ready early.life ready (.inl ⟨rfl, rfl⟩)).elim
  | some deed =>
    obtain ⟨begins, between, later, rfl, first⟩ := List.find?_eq_some_iff_append.mp found
    obtain ⟨delivery, rfl⟩ := of_decide_eq_true begins
    rw [← List.cons_append, ← List.append_assoc] at split
    obtain ⟨earlier, ending, during, rfl, until_, began, -⟩ := exists_of_deeds_eq split
    refine ⟨earlier, ending, during, sooner, between, delivery, rfl, until_, ?_, began⟩
    intro delivery among
    simpa using first _ among

/-- In every course, frames reach whoever waits. -/
theorem frames_reach_whoever_waits (course : Course passed machine) (id : Nat) :
    (∀ middle ∈ passed, middle.Accounted) ∧ RequestsOnce passed machine id ∧
    (∀ before last after, passed = before ++ last :: after → ∀ calls reason,
      last.stack = .clock id :: calls → last.control = .unwind reason →
        Spills before last passed id calls reason) ∧
    ∀ ticket handle callback hooked,
      .accepts (.clock id) ticket handle callback hooked ∈ deeds passed →
        (deeds passed).countP (fun deed => deed.Serves (.clock id) ticket) ≤ 1 ∧
        (∀ before middle after, passed = before ++ middle :: after → ∀ served told,
          middle.deed? = some (.serves (.clock id) ticket served told) →
            ∃ earlier ending during sooner between delivery, before = earlier ++ ending :: during ∧
              deeds earlier =
                sooner ++ .accepts (.clock id) ticket handle callback hooked :: between ∧
              (∀ delivery, .begins (.clock id) delivery ∉ between) ∧
              ending.deed? = some (.begins (.clock id) delivery)) ∧
        ∀ earlier ending later, passed = earlier ++ ending :: later →
          ∀ sooner between,
            deeds earlier =
              sooner ++ .accepts (.clock id) ticket handle callback hooked :: between →
            (∀ delivery, .begins (.clock id) delivery ∉ between) →
            ∀ delivery, ending.deed? = some (.begins (.clock id) delivery) →
              ∃ tick,
                ((∃ name time, ending.control = .execute (.clock (.send name time)) ∧
                    tick = .frame time) ∨
                  ∃ name reason queue,
                    ending.control = .execute (.clock (.close name reason)) ∧
                    ending.stage.awaiting (.clock id) = some queue ∧ queue.closed = none ∧
                    tick = .closed ⟨reason⟩) ∧
                Broadcast earlier ending later machine id ticket handle callback tick := by
  refine ⟨fun middle _ => middle.accounted, course.requestsOnce id, ?_, ?_⟩
  · rintro before last after rfl calls reason stack control
    exact course.spills stack control
  intro ticket handle callback hooked accepted
  refine ⟨course.life.one_turn accepted, ?_, ?_⟩
  · rintro before middle after rfl served told done
    exact course.began_before_turn accepted done
  rintro earlier ending later rfl sooner between waits first delivery began
  have early := course.before
  have life := early.life
  rw [waits] at life
  have ready := life.ready first
  have undisturbed := life.undisturbed first
  rw [← waits] at undisturbed
  have registered : .accepts (.clock id) ticket handle callback hooked ∈ deeds earlier := by
    rw [waits]
    exact List.mem_append_right _ List.mem_cons_self
  obtain ⟨tick, airs, rfl, told⟩ := airing_of_begins early.life.attended began
  refine ⟨tick, ?_, course.broadcast registered ready began airs undisturbed⟩
  rcases told with sent | ⟨name, reason, queue, control, found, rfl⟩
  · exact .inl sent
  · obtain ⟨held, present, unclosed, -⟩ := ready
    cases found.symm.trans present
    exact .inr ⟨name, reason, queue, control, found, unclosed, by rw [unclosed]; rfl⟩

/-- A callback registers another one and panics, under a scheduler that contains the panic; then
comes the next frame. -/
def panicsInFrame : Machine :=
  let body : Body :=
    [.clock (.create "c" []), .scheduler (.create "s" {} []),
      .clock (.register "c" "a" none
        [.clock (.register "c" "n" none [] []), .panic .wordless] []),
      .clock (.register "c" "b" none [] []),
      .scheduler (.schedulePlain "s" "send" none [.clock (.send "c" 7)]),
      .scheduler (.completeFrame "s"), .clock (.send "c" 9)]
  start { scripts := ⟨[("main", body)]⟩ } none (.call "main")

theorem frames_reach_whoever_waits_after_panic :
    Spills (trail 35 panicsInFrame) (advanced 35 panicsInFrame) (trail 45 panicsInFrame) 0
        (advanced 36 panicsInFrame).stack .wordless ∧
      Broadcast (trail 41 panicsInFrame) (advanced 41 panicsInFrame)
        (trail 3 (advanced 42 panicsInFrame)) (advanced 45 panicsInFrame) 0 2 3
        (.waiter ⟨"n", [], []⟩) (.frame 9) := by
  have course : Course (trail 45 panicsInFrame) (advanced 45 panicsInFrame) :=
    ⟨_, _, _, goes_trail 45 panicsInFrame⟩
  obtain ⟨-, -, panics, reached⟩ := frames_reach_whoever_waits course 0
  refine ⟨panics (trail 35 panicsInFrame) _ (trail 9 (advanced 36 panicsInFrame)) rfl _ _
    (by with_unfolding_all rfl) (by with_unfolding_all rfl), ?_⟩
  have since : deeds (trail 13 (advanced 28 panicsInFrame)) =
      .accepts (.clock 0) 2 3 (.waiter ⟨"n", [], []⟩) true ::
        [.loses (.clock 0) [1], .finishes (.scheduler 0)] := by
    with_unfolding_all rfl
  have waits : deeds (trail 41 panicsInFrame) = deeds (trail 28 panicsInFrame) ++ _ :=
    deeds_append (trail 28 panicsInFrame) (trail 13 (advanced 28 panicsInFrame))
  rw [since] at waits
  have split : trail 45 panicsInFrame = trail 41 panicsInFrame ++
      advanced 41 panicsInFrame :: trail 3 (advanced 42 panicsInFrame) := rfl
  have accepted : .accepts (.clock 0) 2 3 (.waiter ⟨"n", [], []⟩) true ∈
      deeds (trail 45 panicsInFrame) := by
    rw [split, deeds_append, waits]
    exact List.mem_append_left _ (List.mem_append_right _ List.mem_cons_self)
  have began : (advanced 41 panicsInFrame).deed? = some (.begins (.clock 0) .resume) := by
    with_unfolding_all rfl
  have control : (advanced 41 panicsInFrame).control = .execute (.clock (.send "c" 9)) := by
    with_unfolding_all rfl
  obtain ⟨tick, told, broadcast⟩ := (reached 2 3 _ true accepted).2.2 _ _ _ split _ _ waits
    (by simp) _ began
  rcases told with ⟨name, time, sent, rfl⟩ | ⟨name, reason, queue, closes, -⟩
  · cases control.symm.trans sent
    exact broadcast
  · cases control.symm.trans closes

/-- A callback registers two others and sends a frame to them itself, in which the first one
panics. -/
def panicsInNestedFrame : Machine :=
  let body : Body :=
    [.clock (.create "c" []),
      .clock (.register "c" "a" none
        [.clock (.register "c" "x" none [.panic .wordless] []),
          .clock (.register "c" "y" none [] []), .clock (.send "c" 2)] []),
      .clock (.send "c" 1)]
  start { scripts := ⟨[("main", body)]⟩ } none (.call "main")

/-- Not everybody stays pending who was registered since a call began and has been neither served
nor cancelled when a panic leaves the call: a call inside it may have taken them along. -/
theorem nested_frame_takes_newcomers_along :
    Course (trail 29 panicsInNestedFrame) (advanced 29 panicsInNestedFrame) ∧
      trail 29 panicsInNestedFrame = trail 10 panicsInNestedFrame ++
        advanced 10 panicsInNestedFrame :: trail 18 (advanced 11 panicsInNestedFrame) ∧
      BeganAt (advanced 10 panicsInNestedFrame) (trail 18 (advanced 11 panicsInNestedFrame))
        (advanced 29 panicsInNestedFrame) (.clock 0) ∧
      (advanced 29 panicsInNestedFrame).control = .unwind .wordless ∧
      .accepts (.clock 0) 2 2 (.waiter ⟨"y", [], []⟩) false ∈
        deeds (trail 18 (advanced 11 panicsInNestedFrame)) ∧
      (∀ deed ∈ deeds (trail 29 panicsInNestedFrame), ¬ deed.Serves (.clock 0) 2) ∧
      (∀ handle, .cancels handle ∉ deeds (trail 29 panicsInNestedFrame)) ∧
      (advanced 29 panicsInNestedFrame).step.stage.pending (.clock 0) = [] := by
  have done : ∃ callback another, deeds (trail 29 panicsInNestedFrame) =
      [.accepts (.clock 0) 0 0 callback true, .begins (.clock 0) .resume,
        .serves (.clock 0) 0 callback .resume, .accepts (.clock 0) 1 1 another true,
        .accepts (.clock 0) 2 2 (.waiter ⟨"y", [], []⟩) false, .begins (.clock 0) .resume,
        .serves (.clock 0) 1 another .resume, .loses (.clock 0) [2]] :=
    ⟨_, _, by with_unfolding_all rfl⟩
  have since : ∃ callback another, deeds (trail 18 (advanced 11 panicsInNestedFrame)) =
      [.serves (.clock 0) 0 callback .resume, .accepts (.clock 0) 1 1 another true,
        .accepts (.clock 0) 2 2 (.waiter ⟨"y", [], []⟩) false, .begins (.clock 0) .resume,
        .serves (.clock 0) 1 another .resume, .loses (.clock 0) [2]] :=
    ⟨_, _, by with_unfolding_all rfl⟩
  obtain ⟨callback, another, done⟩ := done
  obtain ⟨former, latter, since⟩ := since
  have serving : (trail 18 (advanced 11 panicsInNestedFrame) ++
      [advanced 29 panicsInNestedFrame]).map (fun middle => middle.stage.serving) =
        List.replicate 12 [.clock 0] ++ List.replicate 5 [.clock 0, .clock 0] ++
          List.replicate 2 [.clock 0] := by
    with_unfolding_all rfl
  refine ⟨⟨_, _, _, goes_trail 29 panicsInNestedFrame⟩, rfl, ⟨⟨.resume, ?_⟩, ?_, ?_⟩, ?_, ?_, ?_,
    ?_, ?_⟩
  · with_unfolding_all rfl
  · intro middle member
    have calls : middle.stage.serving ∈ (trail 18 (advanced 11 panicsInNestedFrame) ++
        [advanced 29 panicsInNestedFrame]).map (fun middle => middle.stage.serving) :=
      List.mem_map.mpr ⟨middle, member, rfl⟩
    rw [serving] at calls
    have below : (advanced 10 panicsInNestedFrame).stage.serving = [] := by with_unfolding_all rfl
    rw [Stage.Within, below]
    simp only [List.mem_append, List.mem_replicate] at calls
    rcases calls with (⟨-, one⟩ | ⟨-, two⟩) | ⟨-, one⟩
    · exact one ▸ List.suffix_rfl
    · exact two ▸ List.suffix_cons ..
    · exact one ▸ List.suffix_rfl
  · with_unfolding_all rfl
  · with_unfolding_all rfl
  · rw [since]
    simp
  · rw [done]
    simp [Deed.Serves]
  · rw [done]
    simp
  · with_unfolding_all rfl

end Machine

end LiveTree.Session
