import LiveTree.Proofs.Relocation.Returning

/-! Deliveries that are interrupted. A panic of an observer leaves the delivery that called it back,
and with it goes the rest of the list that was being delivered. Nothing else is lost: the lists that
had not begun are delivered by the next dispatch, and the retirements are still there. A pool whose
pass is interrupted like this has disposed its departures for good, although the pass is not
counted. -/
namespace LiveTree.Relocation

variable {η π : Type}

/-- What becomes of a pool whose pass is interrupted in the delivery at its end, with the departures
that were disposed. -/
structure Pool.Interrupted (before : Pool η π) (disposed : List (Departure η π))
    (left : Pool η π) : Prop where
  /-- What was disposed is what no request got, in the order of the reports. -/
  content : before.departures.all.Perm
    ((allot before.departures.waiting before.deferred).filterMap Prod.snd ++ disposed)
  inOrder : disposed.Pairwise fun first second => first.sequence < second.sequence
  departures : left.pendingDepartures = 0 ∧ ∀ id, left.departures.waiting id = []
  undeferred : left.deferred = [] ∧ ∀ id, left.isAwaited id = false
  passes : left.stats.passes = before.stats.passes
  retiring : left.dispatcher.retiring =
    before.dispatcher.retiring ++ disposed.flatMap (·.entry.objects)

/-- Whatever becomes of the other lists, the retirements of what was disposed are kept. -/
private theorem Pass.Advances.interrupted {filling : Filling} {pool : Pool η π} {pass : Pass η π}
    {handedOut : List (Departure η π)} {bound : Nat} (kept : pool.departures.WellKept bound)
    (advances : pool.endPass.Advances filling handedOut pass) (complete : pass.step = .settled)
    (phase : Lifecycle.Phase) :
    pool.Interrupted pass.pool.departures.inReportOrder
      { pass.disposeDepartures.pool with
        dispatcher := pass.disposeDepartures.pool.dispatcher.beyond phase } := by
  obtain ⟨keptLast, content⟩ := advances.takes kept
  have served := advances.served_all complete
  have retiring := advances.retiring_eq
  have emptied : pass.disposeDepartures.pool.departures = {} := by
    simp only [disposeDepartures, Pool.disposeDepartures_eq]
  have deferred : pass.disposeDepartures.pool.deferred = [] := by
    simp only [disposeDepartures, Pool.disposeDepartures_eq]
    rw [served.pool]
    rfl
  have awaited : pass.disposeDepartures.pool.deferredDescriptors = [] := by
    simp only [disposeDepartures, Pool.disposeDepartures_eq]
    rw [served.pool]
    rfl
  have passes : pass.disposeDepartures.pool.stats.passes = pool.stats.passes := by
    simp only [disposeDepartures, Pool.disposeDepartures_eq]
    rw [served.pool]
    rfl
  constructor
  case content =>
    have ordered := pass.pool.departures.inReportOrder_perm.symm.append_left handedOut
    have handed : handedOut =
      (allot pool.departures.waiting pool.deferred).filterMap Prod.snd := served.departures
    rw [← handed]
    exact content.trans ordered
  case inOrder => exact keptLast.inReportOrder_ascending
  case departures =>
    refine ⟨?_, fun id => ?_⟩
    · simp only [Pool.pendingDepartures, emptied]
      rfl
    · simp only [emptied]
      rfl
  case undeferred =>
    refine ⟨deferred, fun id => ?_⟩
    simp only [Pool.isAwaited, awaited]
    rfl
  case passes => exact passes
  case retiring =>
    rw [Lifecycle.Dispatcher.retiring_beyond]
    simp only [disposeDepartures, Pool.dispatcher_disposeDepartures]
    rw [retiring]
    rfl

end LiveTree.Relocation

namespace LiveTree.Session.Machine

open Lifecycle (ObjectId Dispatcher Drain)

variable {machine beginning : Machine} {base : List Call}
  {earlier before during running : List Machine} {owner : DrainOwner} {dispatcher : Dispatcher}
  {drain : Drain} {id : Nat} {call : PassCall} {pool : Pool} {reason : Panic}

/-- What the panic of an observer means for the notifications of a delivery over some calls. -/
structure Loses (base : List Call) (during : List Machine) (dispatcher : Dispatcher)
    (drain : Drain) : Prop where
  /-- The observer that panicked was told the last attempt, whose object had moved before. -/
  panicked : ∃ before turn running attempt, during = before ++ turn :: running ∧
    turn.attempt? base = some attempt ∧ turn.Notifies attempt ∧
    attempts base during = attempts base before ++ [attempt]
  told : ∀ turn ∈ during, ∀ attempt, turn.attempt? base = some attempt →
    attempt.allowed = true → turn.Notifies attempt
  refused : ∀ turn ∈ during, ∀ attempt, turn.attempt? base = some attempt →
    attempt.allowed = false → turn.Refuses
  /-- All that was recorded has been attempted, is lost with its list, or is left. -/
  split : (attempts base during).map Lifecycle.Attempt.notice ++
      (drain.rest.map (·, drain.phase.target) ++ (dispatcher.beyond drain.phase).notices) =
    dispatcher.notices

/-- What is sure of a dispatch that a panic leaves. -/
structure Interrupts (machine : Machine) (dispatcher : Dispatcher) (id : Nat) (base : List Call)
    (during : List Machine) (drain : Drain) (reason : Panic) : Prop where
  loses : Loses base during dispatcher drain
  stack : machine.step.stack = base
  control : machine.step.control = .unwind reason
  objects : machine.step.world.objects = machine.world.objects
  calls : machine.step.calls = machine.calls
  /-- The lists that had not begun and the retirements are at their place. -/
  left : machine.step.world.dispatchers[id]? = some (some (dispatcher.beyond drain.phase))
  /-- What any later dispatch delivers is what was left or noted since. -/
  later : ∀ (later : List Machine) (again : Machine) (next : Dispatcher),
    machine.step.Goes later again → again.StartsDispatch id next → ∀ event,
      next.recorded event = (postings later).foldl (Posting.apply id event)
        ((dispatcher.beyond drain.phase).recorded event)
  /-- The next dispatch delivers what was left, in order. -/
  next : ∀ (passed running : List Machine) (again last : Machine),
    Course (passed ++ again :: running) last →
    again.StartsDispatch id (dispatcher.beyond drain.phase) →
    (∀ middle ∈ running, ¬ middle.EndsDelivery again.stack) →
    Dispatching (dispatcher.beyond drain.phase) id again.stack running last

/-- What is sure of a pass that a panic leaves in the delivery at its end. -/
def InterruptsPass (machine : Machine) (base : List Call) (during : List Machine) (call : PassCall)
    (pool : Pool) (drain : Drain) (reason : Panic) : Prop :=
  ∃ disposed left dispatcher, pool.Interrupted disposed left ∧
    machine.BringsBack base call.pool left (.error reason) ∧
    Loses base during dispatcher drain ∧ left.dispatcher = dispatcher.beyond drain.phase

/-! ### What is lost -/

/-- What is left of a delivery is the rest of its list and the lists that have not begun. -/
private theorem left_eq_of_visits {visited : List (ObjectId × Lifecycle.State)}
    (visits : dispatcher.drain.Visits visited drain) :
    drain.left = drain.rest.map (·, drain.phase.target) ++
      (dispatcher.beyond drain.phase).notices := by
  have beyond := visits.dispatcher_eq
  unfold Drain.left
  rw [beyond]
  cases drain.phase <;> rfl

/-- While a panic leaves a delivery, the last attempt is the one whose observer panicked. -/
private theorem InDelivery.loses
    (inDelivery : InDelivery owner dispatcher base during machine drain)
    (intact : ∀ turn ∈ during, turn.Intact) (panics : machine.control = .unwind reason) :
    Loses base during dispatcher drain := by
  constructor
  case panicked =>
    have elsewhere : ¬ machine.AtDelivery owner drain base := by
      intro atDelivery
      rw [atDelivery.proceeds] at panics
      cases panics
    obtain ⟨attempt, before, turn, running, rfl, made, allowed, quiet⟩ :=
      inDelivery.waits.resolve_left elsewhere
    have turned := intact turn (List.mem_append_right _ List.mem_cons_self)
    refine ⟨before, turn, running, attempt, rfl, made, .of_attempt? turned made allowed, ?_⟩
    have silent : attempts base running = [] := List.filterMap_eq_nil_iff.mpr quiet
    have own : attempts base (turn :: running) = attempt :: attempts base running :=
      List.filterMap_cons_some made
    rw [attempts_append, own, silent]
  case told =>
    exact fun turn member attempt made allowed => .of_attempt? (intact turn member) made allowed
  case refused => exact fun turn _ attempt made refused => .of_attempt? made refused
  case split =>
    rw [← left_eq_of_visits inDelivery.visits, inDelivery.visits.append_left]
    rfl

/-- What was passed before without an attempt makes no difference. -/
private theorem Loses.prepend (loses : Loses base running dispatcher drain)
    (silent : attempts base before = []) : Loses base (before ++ running) dispatcher drain := by
  have none := List.filterMap_eq_nil_iff.mp silent
  have same : attempts base (before ++ running) = attempts base running := by
    rw [attempts_append, silent, List.nil_append]
  obtain ⟨⟨early, turn, late, attempt, rfl, made, tells, last⟩, told, refused, split⟩ := loses
  constructor
  case panicked =>
    refine ⟨before ++ early, turn, late, attempt, (List.append_assoc ..).symm, made, tells, ?_⟩
    rw [same, last, attempts_append, silent, List.nil_append]
  case told =>
    intro turn member attempt made allowed
    rcases List.mem_append.mp member with early | late
    · rw [none turn early] at made
      cases made
    · exact told turn late attempt made allowed
  case refused => exact fun turn _ attempt made refused => .of_attempt? made refused
  case split =>
    rw [same]
    exact split

/-! ### What is left -/

/-- A panic that leaves a dispatch puts its dispatcher back. -/
private theorem step_of_interrupted
    (stack : machine.stack = .draining (.dispatcher id) drain :: base)
    (panics : machine.control = .unwind reason) :
    machine.step = (machine.setDispatcher id (some drain.dispatcher)).pop := by
  rcases machine with ⟨world, listener, log, calls, control⟩
  cases stack
  cases panics
  rfl

private theorem held_of_getElem? (found : machine.world.dispatchers[id]? = some (some dispatcher)) :
    machine.board.held id = dispatcher := by
  simp [Board.held, board, found]

/-- What a dispatcher holds is what it held at any time before, less what was taken since, and what
was noted since. -/
private theorem Course.recorded_since {passed later : List Machine} {again : Machine}
    {next : Dispatcher} (course : Course passed machine)
    (found : machine.world.dispatchers[id]? = some (some dispatcher))
    (goes : machine.Goes later again) (finds : again.world.dispatchers[id]? = some (some next))
    (event : Lifecycle.Event) :
    next.recorded event =
      (postings later).foldl (Posting.apply id event) (dispatcher.recorded event) := by
  have before := course.board.2 id event
  have after := (course.then goes).board.2 id event
  rw [held_of_getElem? found] at before
  rw [held_of_getElem? finds, postings_append, Posting.listed, List.foldl_append] at after
  rw [after, before]
  rfl

/-- The dispatcher of an interrupted dispatch is back without the lists that had begun. -/
private theorem InDelivery.interrupts
    (course : Course (earlier ++ beginning :: during) machine)
    (inDelivery : InDelivery (.dispatcher id) dispatcher base during machine drain)
    (stack : machine.stack = .draining (.dispatcher id) drain :: base)
    (panics : machine.control = .unwind reason) :
    machine.Interrupts dispatcher id base during drain reason := by
  have step := step_of_interrupted stack panics
  have beyond := inDelivery.visits.dispatcher_eq
  have inside := course.away stack
  have intact : ∀ turn ∈ during, turn.Intact :=
    fun turn member => course.intact_of_mem (by simp [member])
  have left : machine.step.world.dispatchers[id]? =
      some (some (dispatcher.beyond drain.phase)) := by
    rw [step, ← beyond]
    exact Array.getElem?_setIfInBounds_self_of_lt inside
  constructor
  case loses => exact inDelivery.loses intact panics
  case stack =>
    rw [step]
    exact congrArg List.tail stack
  case control =>
    rw [step]
    exact panics
  case objects =>
    rw [step]
    rfl
  case calls =>
    rw [step]
    rfl
  case left => exact left
  case later =>
    intro later again next goes starts event
    exact (course.then (.moves .stays .step)).recorded_since left goes starts.getElem? event
  case next => exact fun passed running again last course starts lasts =>
    course.dispatching starts lasts

/-- A panicking observer loses its own list and nothing else. Its object has moved, what was
attempted before stays as it is, the rest of the list is in no dispatcher any more, and the lists
that had not begun and the retirements are as they were recorded; the next dispatch delivers those
lists. When this happens to a pool at the end of a pass, the pool has neither departures nor
deferred requests, the pass is not counted, and what it disposed is still to retire. -/
theorem panicking_observer_loses_own_list
    (course : Course (earlier ++ beginning :: during) machine)
    (stack : machine.stack = .draining owner drain :: beginning.stack)
    (panics : machine.control = .unwind reason) :
    (∀ id dispatcher, beginning.StartsDispatch id dispatcher →
      (∀ middle ∈ during, ¬ middle.EndsDelivery beginning.stack) →
      machine.Interrupts dispatcher id beginning.stack during drain reason) ∧
    ∀ call pool, beginning.StartsPass call pool →
      (∀ middle ∈ during, ¬ middle.EndsPass beginning.stack) →
      machine.InterruptsPass beginning.stack during call pool drain reason := by
  have low : machine.stack.length ≤ beginning.stack.length + 1 :=
    Nat.le_of_eq (congrArg List.length stack)
  constructor
  · intro id dispatcher starts lasts
    obtain ⟨last, inDelivery⟩ := course.inDelivery starts lasts
    have own := inDelivery.inProgress.stack_eq_of_length low
    rw [stack] at own
    cases own
    exact inDelivery.interrupts course stack panics
  · intro call pool starts lasts
    cases course.inPass starts lasts with
    | matching _ matching =>
      rw [stack] at matching
      cases matching
    | inserting _ _ above =>
      have inserting := above.stack_eq_of_length low
      rw [stack] at inserting
      cases inserting
    | @closing before running _ current pass last handedOut same advances complete silent
        delivery =>
      have own := delivery.inProgress.stack_eq_of_length low
      rw [stack] at own
      cases own
      obtain ⟨⟨config, run⟩, -⟩ := course.before.lived starts
      have inside : current.pool < machine.world.pools.size := course.inside stack rfl
      have back := brings_back_of_closing stack panics inside
      have intact : ∀ turn ∈ running, turn.Intact :=
        fun turn member => course.intact_of_mem (by simp [member])
      have loses := (delivery.loses intact panics).prepend (attempts_of_matches silent)
      have beyond := delivery.visits.dispatcher_eq
      rw [same.pool, beyond] at back
      have interrupted := advances.interrupted run.turnover.kept complete drain.phase
      exact ⟨_, _, _, interrupted, back, loses, rfl⟩

/-- A session in which an observer panics when it hears that its object is retained. Another object
is to be retained after it and to enter. -/
def panicsInDispatch : Machine :=
  let body : Body :=
    [.object (.create "o" ⟨false, [.panic .wordless], [], [], []⟩),
      .dispatcher (.create "d"),
      .dispatcher (.record "d" .retained ["o", "q"]),
      .dispatcher (.record "d" .entered ["q"]),
      .dispatcher (.dispatch "d")]
  start { scripts := ⟨[("main", body)]⟩ } none (.call "main")

/-- A session in which the same happens when a departure has been disposed. -/
def panicsInPass : Machine :=
  let body : Body :=
    [.object (.create "o" ⟨false, [.panic .wordless], [], [], []⟩),
      .pool (.create "p" {}),
      .pool (.instantiate "p" "a" ⟨1⟩ "a" 0 (.fixed ⟨0⟩) ["o"]),
      .pool (.depart "p" "a" none),
      .pool (.endPass "p" none "" false)]
  start { scripts := ⟨[("main", body)]⟩ } none (.call "main")

/-- The pool before the end of its pass. -/
def panicsInPassPool : Pool where
  departures :=
    ({} : Relocation.Departures String Int).add ⟨0, ⟨⟨1⟩, "a", 0, ⟨0⟩, [⟨0⟩], true⟩⟩
  everDeparted := [⟨1⟩]
  dispatcher := ⟨[⟨0⟩], [⟨0⟩], [], []⟩
  nextDeparture := 1
  stats := { departures := 1 }

theorem panicking_observer_loses_own_list_in_both :
    (advanced 20 panicsInDispatch).Interrupts ⟨[⟨0⟩, ⟨1⟩], [⟨1⟩], [], []⟩ 0
        (advanced 14 panicsInDispatch).stack (trail 5 (advanced 15 panicsInDispatch))
        ⟨⟨[], [⟨1⟩], [], []⟩, .retentions, [⟨1⟩], { retained := 1 }⟩ .wordless ∧
      ∃ drain, (advanced 22 panicsInPass).InterruptsPass (advanced 14 panicsInPass).stack
        (trail 7 (advanced 15 panicsInPass)) ⟨0, 1, none, "", false⟩ panicsInPassPool drain
        .wordless := by
  constructor
  · have course : Course
        (trail 14 panicsInDispatch ++
          advanced 14 panicsInDispatch :: trail 5 (advanced 15 panicsInDispatch))
        (advanced 20 panicsInDispatch) :=
      ⟨_, _, _,
        (goes_trail 14 panicsInDispatch).trans (goes_trail 6 (advanced 14 panicsInDispatch))⟩
    have starts : (advanced 14 panicsInDispatch).StartsDispatch 0
        ⟨[⟨0⟩, ⟨1⟩], [⟨1⟩], [], []⟩ :=
      ⟨"d", by with_unfolding_all rfl, by with_unfolding_all rfl⟩
    have lasts : ((trail 5 (advanced 15 panicsInDispatch)).all fun middle =>
        !middle.endsDelivery) = true := by with_unfolding_all rfl
    have panics : (advanced 20 panicsInDispatch).control = .unwind .wordless := by
      with_unfolding_all rfl
    have losing := panicking_observer_loses_own_list course (by with_unfolding_all rfl) panics
    exact losing.1 _ _ starts (not_endsDelivery_of_all lasts)
  · have course : Course
        (trail 14 panicsInPass ++ advanced 14 panicsInPass :: trail 7 (advanced 15 panicsInPass))
        (advanced 22 panicsInPass) :=
      ⟨_, _, _, (goes_trail 14 panicsInPass).trans (goes_trail 8 (advanced 14 panicsInPass))⟩
    have starts : (advanced 14 panicsInPass).StartsPass ⟨0, 1, none, "", false⟩ panicsInPassPool :=
      ⟨"p", by with_unfolding_all rfl, by with_unfolding_all rfl, by with_unfolding_all rfl⟩
    have lasts : ((trail 7 (advanced 15 panicsInPass)).all fun middle => !middle.endsPass) =
        true := by with_unfolding_all rfl
    have panics : (advanced 22 panicsInPass).control = .unwind .wordless := by
      with_unfolding_all rfl
    have losing := panicking_observer_loses_own_list course (by with_unfolding_all rfl) panics
    exact ⟨_, losing.2 _ _ starts (not_endsPass_of_all lasts)⟩

end LiveTree.Session.Machine
