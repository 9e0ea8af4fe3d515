import LiveTree.Proofs.Lifecycle.Postings
import LiveTree.Proofs.Session.Intactness
import LiveTree.Proofs.Session.Cancelling
import LiveTree.Proofs.Session.Delivering

/-! The account of a dispatch. What a dispatcher has recorded is attempted once each, exits first
and in reverse, while observers do what they like, move the same objects included. The state in
which an attempt finds its object decides whether the observer is called back or the attempt is
noted as an error, and the report says of every notification which of the two it was. -/
namespace LiveTree.Lifecycle

/-- A dispatcher with nothing to attempt is what a delivery leaves. -/
private theorem Dispatcher.eq_drained {dispatcher : Dispatcher}
    (idle : dispatcher.hasPending = false) : dispatcher = dispatcher.drained := by
  obtain ⟨retaining, entering, exiting, retiring⟩ := dispatcher
  simp only [hasPending, Bool.not_eq_false', Bool.and_eq_true, List.isEmpty_iff] at idle
  obtain ⟨⟨rfl, rfl⟩, rfl⟩ := idle
  rfl

end LiveTree.Lifecycle

namespace LiveTree.Session.Machine

open Lifecycle (ObjectId Dispatcher Drain Report)

variable {machine : Machine} {base : List Call} {drain : Drain} {dispatcher : Dispatcher} {id : Nat}
  {attempt : Lifecycle.Attempt}

/-- A command starts that delivers what is recorded in a dispatcher. -/
def StartsDispatch (machine : Machine) (id : Nat) (dispatcher : Dispatcher) : Prop :=
  ∃ name, machine.control = .execute (.dispatcher (.dispatch name)) ∧
    machine.dispatcher? name = some (id, dispatcher)

/-- The attempt of a delivery moves its object and no other, and the observer is called back, unless
it is silent. -/
structure Notifies (machine : Machine) (attempt : Lifecycle.Attempt) : Prop where
  moves : machine.deed? = some (.moves attempt.object attempt.target)
  target : machine.step.world.objects.state attempt.object = attempt.target
  others : ∀ other ≠ attempt.object,
    machine.step.world.objects.state other = machine.world.objects.state other
  callsBack : ∃ kept event, machine.world.objects.get? attempt.object = some kept ∧
    attempt.target.event? = some event ∧ machine.step.control = .proceed ∧
      (kept.observer.reactions.silent = false →
        machine.step.log = .told kept.observer.name event :: machine.log ∧
          ∃ calls, machine.step.stack = .body (kept.observer.reactions.to event) :: calls)

/-- The attempt of a delivery changes nothing and calls nobody back. -/
structure Refuses (machine : Machine) : Prop where
  world : machine.step.world = machine.world
  calls : machine.step.calls = machine.calls
  control : machine.step.control = .proceed
  depth : machine.step.stack.length = machine.stack.length

/-! ### The command -/

namespace StartsDispatch

private theorem executes (starts : machine.StartsDispatch id dispatcher) :
    ∃ command, machine.control = .execute command := by
  obtain ⟨name, control, -⟩ := starts
  exact ⟨_, control⟩

private theorem step_eq (starts : machine.StartsDispatch id dispatcher) :
    machine.step = ((machine.setDispatcher id none).push
      (.draining (.dispatcher id) dispatcher.drain)).proceed := by
  obtain ⟨name, control, present⟩ := starts
  rw [step_of_execute control]
  change machine.onDispatcher name _ = _
  rcases machine.onDispatcher_cases name _ with ⟨absent, -⟩ | ⟨_, _, found, -, works⟩
  · rw [absent] at present
    cases present
  · rw [works]
    cases found.symm.trans present
    rfl

theorem getElem? (starts : machine.StartsDispatch id dispatcher) :
    machine.world.dispatchers[id]? = some (some dispatcher) := by
  obtain ⟨name, -, present⟩ := starts
  obtain ⟨_, -, found⟩ := Option.bind_eq_some_iff.mp present
  obtain ⟨_, found, same⟩ := Option.map_eq_some_iff.mp found
  cases same
  exact Option.join_eq_some_iff.mp found

end StartsDispatch

theorem world_diagnoseAll (machine : Machine) (diagnostics : List Diagnostic) :
    (machine.diagnoseAll diagnostics).world = machine.world := by
  unfold diagnoseAll
  induction diagnostics generalizing machine with
  | nil => rfl
  | cons diagnostic diagnostics ih =>
    rw [List.foldl_cons, ih]
    exact machine.world_diagnose diagnostic

/-- When a delivery is done, its dispatcher is back and its report is the answer. -/
private theorem AtDelivery.finishes (atDelivery : machine.AtDelivery (.dispatcher id) drain base)
    (finished : drain.step = .finished) :
    machine.step.control = .answer (.lifecycle drain.report) ∧ machine.step.stack = base ∧
      machine.step.world = (machine.setDispatcher id (some drain.dispatcher)).world ∧
      machine.step.calls = machine.calls := by
  have kept := machine.world_diagnoseAll drain.report.diagnostics
  have held := machine.stack_diagnoseAll drain.report.diagnostics
  have silent := machine.calls_diagnoseAll drain.report.diagnostics
  rw [atDelivery.step_eq]
  simp only [continueDrain, finished, finishDrain]
  generalize machine.diagnoseAll drain.report.diagnostics = reported at kept held silent
  refine ⟨rfl, ?_, ?_, silent⟩
  · change reported.stack.tail = base
    rw [held, atDelivery.stack, List.tail_cons]
  · simp only [reply, pop, setDispatcher, withWorld, kept]

/-- A dispatch with nothing to attempt starts nothing and reports nothing. -/
private theorem StartsDispatch.idles (starts : machine.StartsDispatch id dispatcher)
    (idle : dispatcher.hasPending = false) :
    (advanced 4 machine).control = .answer (.lifecycle {}) ∧
      (advanced 4 machine).stack = machine.stack ∧ (advanced 4 machine).world = machine.world ∧
      (advanced 4 machine).calls = machine.calls := by
  have present := starts.getElem?
  have restored : (machine.world.dispatchers.setIfInBounds id none).setIfInBounds id
      (some dispatcher.drained) = machine.world.dispatchers := by
    rw [← Lifecycle.Dispatcher.eq_drained idle]
    refine Array.ext_getElem? fun other => ?_
    by_cases own : id = other
    · subst own
      rw [present]
      simp [(Array.getElem?_eq_some_iff.mp present).1]
    · rw [Array.getElem?_setIfInBounds_ne own, Array.getElem?_setIfInBounds_ne own]
  let last : Drain := ⟨dispatcher.drained, .entries, [], {}⟩
  let ending : Machine :=
    ((machine.setDispatcher id none).push (.draining (.dispatcher id) last)).proceed
  have through : advanced 3 machine.step = ending.step := by
    rw [starts.step_eq, Lifecycle.Dispatcher.eq_drained idle]
    rfl
  have atDelivery : ending.AtDelivery (.dispatcher id) last machine.stack := ⟨rfl, rfl⟩
  obtain ⟨control, stack, world, silent⟩ := atDelivery.finishes rfl
  have passed : advanced 4 machine = ending.step := through
  rw [passed]
  have twice : (ending.setDispatcher id (some last.dispatcher)).world = { machine.world with
      dispatchers := (machine.world.dispatchers.setIfInBounds id none).setIfInBounds id
        (some dispatcher.drained) } := rfl
  rw [restored] at twice
  exact ⟨control, stack, world.trans twice, silent⟩

/-! ### The attempts -/

/-- An attempt whose move is allowed moves its object and tells it. -/
theorem Notifies.of_attempt? (intact : machine.Intact) (made : machine.attempt? base = some attempt)
    (allowed : attempt.allowed = true) : machine.Notifies attempt := by
  obtain ⟨owner, drain, next, calls, atDelivery, -, step, state⟩ := exists_atDelivery made
  have named : (Call.draining owner drain).Names attempt.object :=
    Or.inr (Drain.names_attempted step)
  have present : machine.Has attempt.object :=
    intact.running _ (atDelivery.stack ▸ List.mem_cons_self) _ named
  obtain ⟨kept, found⟩ := Option.isSome_iff_exists.mp present
  have legal : (machine.world.objects.state attempt.object).canBecome attempt.target = true := by
    rw [← state]
    exact allowed
  have moved : machine.world.objects.advance attempt.object attempt.target = .ok _ := if_pos legal
  obtain ⟨deed, objects, event, told⟩ := (Attempting.of_attempt? made).tells found moved
  refine ⟨deed, ?_, fun other different => ?_, kept, event, found, told⟩
  · rw [objects]
    exact Lifecycle.Registry.state_advance_self moved present
  · rw [objects]
    exact Lifecycle.Registry.state_advance_of_ne moved different

/-- An attempt whose move is not allowed does nothing. -/
theorem Refuses.of_attempt? (made : machine.attempt? base = some attempt)
    (refused : attempt.allowed = false) : machine.Refuses := by
  obtain ⟨owner, drain, next, calls, atDelivery, -, step, state⟩ := exists_atDelivery made
  have illegal : (machine.world.objects.state attempt.object).canBecome attempt.target = false := by
    rw [← state]
    exact refused
  have refusal := Lifecycle.Registry.advance_eq_error_iff.mpr ⟨illegal, rfl⟩
  obtain ⟨world, silent, depth⟩ := (Attempting.of_attempt? made).refused refusal
  refine ⟨world, silent, ?_, depth⟩
  rw [atDelivery.step_of_refused step illegal]
  rfl

/-! ### The account -/

/-- How a dispatch ends whose observers let it: all that was recorded has been attempted, the report
accounts for it, and the dispatcher is back with its retirements and nothing else. -/
structure Accounts (machine : Machine) (dispatcher : Dispatcher) (id : Nat) (base : List Call)
    (made : List Lifecycle.Attempt) : Prop where
  answers : machine.step.control = .answer (.lifecycle (Report.of made))
  stack : machine.step.stack = base
  objects : machine.step.world.objects = machine.world.objects
  calls : machine.step.calls = machine.calls
  attempted : made.map Lifecycle.Attempt.notice = dispatcher.notices
  total : (Report.of made).exited + (Report.of made).retained + (Report.of made).entered +
      (Report.of made).errors.length =
    dispatcher.exiting.length + dispatcher.retaining.length + dispatcher.entering.length
  left : ∃ later, machine.step.world.dispatchers[id]? = some (some later) ∧
    later.hasPending = false ∧ later.retiring = dispatcher.retiring ∧
    ∀ again : Machine, again.StartsDispatch id later →
      (advanced 4 again).control = .answer (.lifecycle {}) ∧
        (advanced 4 again).stack = again.stack ∧ (advanced 4 again).world = again.world ∧
        (advanced 4 again).calls = again.calls

/-- What is sure of a dispatch, from the machine after its first step up to any other before its
end. -/
structure Dispatching (dispatcher : Dispatcher) (id : Nat) (base : List Call)
    (during : List Machine) (machine : Machine) : Prop where
  /-- The notifications are attempted in order, none is left out and none comes twice. -/
  ordered : (attempts base during).map Lifecycle.Attempt.notice <+: dispatcher.notices
  /-- The state of the object at that moment decides what becomes of an attempt. -/
  found : ∀ turn ∈ during, ∀ attempt, turn.attempt? base = some attempt →
    attempt.found = turn.world.objects.state attempt.object
  told : ∀ turn ∈ during, ∀ attempt, turn.attempt? base = some attempt →
    attempt.allowed = true → turn.Notifies attempt
  refused : ∀ turn ∈ during, ∀ attempt, turn.attempt? base = some attempt →
    attempt.allowed = false → turn.Refuses
  /-- Unless a panic comes back from an observer, the end is in order. -/
  ends : machine.EndsDelivery base → (∀ reason, machine.control ≠ .unwind reason) →
    machine.Accounts dispatcher id base (attempts base during)

/-- Everything that a delivery attempts counts in its report. -/
private theorem InDelivery.total {owner : DrainOwner} {during : List Machine}
    (inDelivery : InDelivery owner dispatcher base during machine drain) :
    (Report.of (attempts base during)).total = (attempts base during).length := by
  refine Report.total_of fun attempt member => ?_
  exact inDelivery.visits.exists_phase _ (List.mem_map_of_mem member)

/-- Where a delivery works on a dispatcher, there is a place for it. -/
theorem Course.away {passed : List Machine} (course : Course passed machine)
    (stack : machine.stack = .draining (.dispatcher id) drain :: base) :
    id < machine.world.dispatchers.size := by
  obtain ⟨⟨away, -⟩, -⟩ := course.board
  refine Board.lt_of_getElem? (away id drain ?_)
  simp [Machine.board, stack, Call.lent?]

/-- A dispatch that is done is accounted for. -/
private theorem InDelivery.accounts {passed during : List Machine} (course : Course passed machine)
    (inDelivery : InDelivery (.dispatcher id) dispatcher base during machine drain)
    (atDelivery : machine.AtDelivery (.dispatcher id) drain base)
    (finished : drain.step = .finished) :
    machine.Accounts dispatcher id base (attempts base during) := by
  obtain ⟨control, stack, world, silent⟩ := atDelivery.finishes finished
  have attempted := inDelivery.visits.eq_notices finished
  have left := inDelivery.visits.proceeds.dispatcher_eq finished
  have inside := course.away atDelivery.stack
  constructor
  case answers => rw [control, inDelivery.report]
  case stack => exact stack
  case objects =>
    rw [world]
    rfl
  case calls => exact silent
  case attempted => exact attempted
  case total =>
    have counted : (Report.of (attempts base during)).total = dispatcher.notices.length := by
      rw [inDelivery.total, ← attempted, List.length_map]
    rw [← dispatcher.length_notices, ← counted]
    rfl
  case left =>
    refine ⟨dispatcher.drained, ?_, rfl, rfl, fun again starts => starts.idles rfl⟩
    rw [world, left]
    exact Array.getElem?_setIfInBounds_self_of_lt inside

section Course

variable {earlier during : List Machine} {beginning : Machine}

/-- A dispatch begins with the first of its lists. -/
private theorem StartsDispatch.begins (starts : beginning.StartsDispatch id dispatcher) :
    InDelivery (.dispatcher id) dispatcher beginning.stack [] beginning.step dispatcher.drain := by
  refine .begins ?_ ?_ <;> rw [starts.step_eq] <;> rfl

/-- A dispatch that begins in a course is in progress there until it ends. -/
theorem Course.inDelivery (course : Course (earlier ++ beginning :: during) machine)
    (starts : beginning.StartsDispatch id dispatcher)
    (lasts : ∀ middle ∈ during, ¬ middle.EndsDelivery beginning.stack) :
    ∃ drain, InDelivery (.dispatcher id) dispatcher beginning.stack during machine drain := by
  have stack : beginning.step.stack =
      .draining (.dispatcher id) dispatcher.drain :: beginning.stack := by
    rw [starts.step_eq]
    rfl
  have proceeds : beginning.step.control = .proceed := by
    rw [starts.step_eq]
    rfl
  obtain ⟨command, control⟩ := starts.executes
  have split : earlier ++ beginning :: during ++ [machine] =
      earlier ++ beginning :: during ++ machine :: [] := rfl
  exact (course.goes_step control split).inDelivery stack proceeds lasts

/-- So all that is sure of a dispatch is sure of this one. -/
theorem Course.dispatching (course : Course (earlier ++ beginning :: during) machine)
    (starts : beginning.StartsDispatch id dispatcher)
    (lasts : ∀ middle ∈ during, ¬ middle.EndsDelivery beginning.stack) :
    Dispatching dispatcher id beginning.stack during machine := by
  obtain ⟨drain, inDelivery⟩ := course.inDelivery starts lasts
  constructor
  case ordered => exact inDelivery.visits.prefix_notices
  case found =>
    intro turn _ attempt made
    obtain ⟨_, _, _, _, -, -, -, state⟩ := exists_atDelivery made
    exact state
  case told =>
    exact fun turn member attempt made allowed =>
      .of_attempt? (course.intact_of_mem (by simp [member])) made allowed
  case refused => exact fun turn _ attempt made refused => .of_attempt? made refused
  case ends =>
    intro ends calm
    obtain ⟨held, ⟨returned, finished⟩ | ⟨reason, panics⟩⟩ := inDelivery.ends ends
    · exact inDelivery.accounts course ⟨held, returned⟩ finished
    · exact absurd panics (calm reason)

/-- A dispatch attempts every recorded notification once, the exits first and in reverse, then the
retentions and the entries, whatever observers do meanwhile; each attempt is told or refused by the
state in which it finds its object, and the report accounts for all of them. If no observer panics
or runs forever, the dispatch comes to its end. -/
theorem dispatch_accounts_for_all_recorded
    (course : Course (earlier ++ beginning :: during) machine)
    (starts : beginning.StartsDispatch id dispatcher)
    (lasts : ∀ middle ∈ during, ¬ middle.EndsDelivery beginning.stack) :
    Dispatching dispatcher id beginning.stack during machine ∧
      (Cooperates beginning.step beginning.stack → ∃ steps,
        (∀ middle ∈ trail steps beginning.step, ¬ middle.EndsDelivery beginning.stack) ∧
        Accounts (advanced steps beginning.step) dispatcher id beginning.stack
          (attempts beginning.stack (trail steps beginning.step))) := by
  refine ⟨course.dispatching starts lasts, fun cooperates => ?_⟩
  have running : Lasts (.dispatcher id) dispatcher beginning.stack beginning.step 0
      dispatcher.drain := ⟨starts.begins, List.forall_mem_nil _⟩
  obtain ⟨steps, last, lasting, atDelivery, finished⟩ := running.exists_finished cooperates
  have soFar : Course earlier beginning := course.before
  have onward : Course (earlier ++ [beginning] ++ trail steps beginning.step)
      (advanced steps beginning.step) :=
    (soFar.then (.moves .stays .step)).then (goes_trail steps beginning.step)
  exact ⟨steps, lasting.lasts, lasting.inDelivery.accounts onward atDelivery finished⟩

end Course

/-- An object that exits as soon as it hears that it has entered. It is to exit before it was ever
retained, and to enter twice. -/
def entersTwice : Machine :=
  let body : Body :=
    [.object (.create "o" ⟨false, [], [.object (.advance "o" .exited)], [], []⟩),
      .dispatcher (.create "d"),
      .dispatcher (.record "d" .entered ["o", "o"]),
      .dispatcher (.record "d" .exited ["o"]),
      .dispatcher (.record "d" .retained ["o"]),
      .dispatcher (.dispatch "d")]
  start { scripts := ⟨[("main", body)]⟩ } none (.call "main")

/-- The start of the dispatch. -/
def entersTwiceDispatch : Machine := advanced 17 entersTwice

theorem dispatch_accounts_for_reentrant_moves :
    entersTwiceDispatch.StartsDispatch 0 ⟨[⟨0⟩], [⟨0⟩, ⟨0⟩], [⟨0⟩], []⟩ ∧
      (advanced 19 entersTwiceDispatch.step).Accounts ⟨[⟨0⟩], [⟨0⟩, ⟨0⟩], [⟨0⟩], []⟩ 0
        entersTwiceDispatch.stack
        [⟨⟨0⟩, .unretained, .exited⟩, ⟨⟨0⟩, .unretained, .retained⟩, ⟨⟨0⟩, .retained, .entered⟩,
          ⟨⟨0⟩, .exited, .entered⟩] := by
  have starts : entersTwiceDispatch.StartsDispatch 0 ⟨[⟨0⟩], [⟨0⟩, ⟨0⟩], [⟨0⟩], []⟩ :=
    ⟨"d", by with_unfolding_all rfl, by with_unfolding_all rfl⟩
  have course : Course
      (trail 17 entersTwice ++ entersTwiceDispatch :: trail 19 entersTwiceDispatch.step)
      (advanced 19 entersTwiceDispatch.step) :=
    ⟨_, _, _, (goes_trail 17 entersTwice).trans (goes_trail 20 entersTwiceDispatch)⟩
  have lasts : ((trail 19 entersTwiceDispatch.step).all fun middle => !middle.endsDelivery) =
      true := by with_unfolding_all rfl
  have ends : (advanced 19 entersTwiceDispatch.step).EndsDelivery entersTwiceDispatch.stack :=
    ⟨_, _, by with_unfolding_all rfl, .inl ⟨by with_unfolding_all rfl, by with_unfolding_all rfl⟩⟩
  have proceeds : (advanced 19 entersTwiceDispatch.step).control = .proceed := by
    with_unfolding_all rfl
  have dispatching :=
    (dispatch_accounts_for_all_recorded course starts (not_endsDelivery_of_all lasts)).1
  have accounts := dispatching.ends ends fun reason panics => by
    rw [proceeds] at panics
    cases panics
  have made : attempts entersTwiceDispatch.stack (trail 19 entersTwiceDispatch.step) =
      [⟨⟨0⟩, .unretained, .exited⟩, ⟨⟨0⟩, .unretained, .retained⟩, ⟨⟨0⟩, .retained, .entered⟩,
        ⟨⟨0⟩, .exited, .entered⟩] := by with_unfolding_all rfl
  rw [made] at accounts
  exact ⟨starts, accounts⟩

end LiveTree.Session.Machine
