import LiveTree.Proofs.Lifecycle.Attempts
import LiveTree.Proofs.Lifecycle.Words
import LiveTree.Proofs.Session.Parts

/-! Deliveries in progress. A delivery of notifications is a call over some others, and control
comes back to it after every callback that it runs. Each time it makes its next attempt, goes on to
the next list, or is done, unless a panic comes back to it; and whatever runs on top of it can
neither take it away nor change what it has still to attempt. So what holds of its attempts holds
for all that observers may do meanwhile, other deliveries of the same objects included. -/
namespace LiveTree.Session.Machine

open Lifecycle (ObjectId Dispatcher Drain Report)

variable {machine after last : Machine} {owner : DrainOwner} {base : List Call} {drain : Drain}
  {dispatcher : Dispatcher} {during : List Machine} {attempt : Lifecycle.Attempt}

/-- The attempt that is made in the next step by the delivery over some calls. -/
def attempt? (base : List Call) (machine : Machine) : Option Lifecycle.Attempt :=
  match machine.control, machine.stack with
  | .proceed, .draining _ drain :: calls =>
    match drain.step with
    | .attempt object target _ =>
      if calls.length = base.length then some ⟨object, machine.world.objects.state object, target⟩
      else none
    | _ => none
  | _, _ => none

/-- The attempts of the delivery over some calls, in order. -/
def attempts (base : List Call) (during : List Machine) : List Lifecycle.Attempt :=
  during.filterMap (attempt? base)

private theorem attempts_concat (base : List Call) (during : List Machine) (last : Machine) :
    attempts base (during ++ [last]) = attempts base during ++ (last.attempt? base).toList := by
  unfold attempts
  cases attempt : last.attempt? base <;> simp [attempt]

/-- Control is at the delivery over some calls. -/
structure AtDelivery (machine : Machine) (owner : DrainOwner) (drain : Drain) (base : List Call) :
    Prop where
  stack : machine.stack = .draining owner drain :: base
  proceeds : machine.control = .proceed

/-- The delivery over some calls ends: it is done, or a panic leaves it. -/
def EndsDelivery (machine : Machine) (base : List Call) : Prop :=
  ∃ owner drain, machine.stack = .draining owner drain :: base ∧
    (machine.control = .proceed ∧ drain.step = .finished ∨
      ∃ reason, machine.control = .unwind reason)

/-- Whether a delivery ends here, over whichever calls. -/
def endsDelivery (machine : Machine) : Bool :=
  match machine.control, machine.stack with
  | .proceed, .draining _ drain :: _ => drain.rest.isEmpty && drain.phase == .entries
  | .unwind _, .draining _ _ :: _ => true
  | _, _ => false

/-- The observer to which a delivery over some calls made its last attempt is being called back. -/
def CallsBack (base : List Call) (during : List Machine) (attempt : Lifecycle.Attempt) : Prop :=
  ∃ before turn running, during = before ++ turn :: running ∧
    turn.attempt? base = some attempt ∧ attempt.allowed = true ∧
    ∀ middle ∈ running, middle.attempt? base = none

/-- A delivery in progress that began with what a dispatcher had recorded: what it has attempted is
the first part of that, its report is that of the attempts, and unless it has control one of them is
being told to an observer. -/
structure InDelivery (owner : DrainOwner) (dispatcher : Dispatcher) (base : List Call)
    (during : List Machine) (machine : Machine) (drain : Drain) : Prop where
  inProgress : Over (.draining owner drain :: base) machine
  visits : dispatcher.drain.Visits ((attempts base during).map Lifecycle.Attempt.notice) drain
  report : drain.report = Report.of (attempts base during)
  waits : machine.AtDelivery owner drain base ∨ ∃ attempt, CallsBack base during attempt

theorem EndsDelivery.endsDelivery (ends : machine.EndsDelivery base) :
    machine.endsDelivery = true := by
  obtain ⟨owner, drain, stack, ⟨proceeds, finished⟩ | ⟨reason, panics⟩⟩ := ends
  · obtain ⟨rest, phase⟩ := Drain.step_eq_finished_iff.mp finished
    simp [Machine.endsDelivery, stack, proceeds, rest, phase]
  · simp [Machine.endsDelivery, stack, panics]

/-- No delivery ends on the way, if that can be told from every machine by itself. -/
theorem not_endsDelivery_of_all (none : (during.all fun middle => !middle.endsDelivery) = true) :
    ∀ middle ∈ during, ¬ middle.EndsDelivery base := by
  intro middle member ends
  have quiet := List.all_eq_true.mp none middle member
  rw [ends.endsDelivery] at quiet
  cases quiet

/-! ### Attempts -/

namespace AtDelivery

variable (atDelivery : machine.AtDelivery owner drain base)
include atDelivery

theorem step_eq : machine.step = machine.continueDrain owner drain :=
  step_of_proceed atDelivery.proceeds atDelivery.stack

private theorem attempt?_eq : machine.attempt? base =
    match drain.step with
    | .attempt object target _ => some ⟨object, machine.world.objects.state object, target⟩
    | _ => none := by
  simp only [attempt?, atDelivery.proceeds, atDelivery.stack, if_true]

end AtDelivery

/-- Whoever makes an attempt over some calls has control there. -/
theorem exists_atDelivery (made : machine.attempt? base = some attempt) :
    ∃ owner drain next calls, machine.AtDelivery owner drain calls ∧
      calls.length = base.length ∧ drain.step = .attempt attempt.object attempt.target next ∧
      attempt.found = machine.world.objects.state attempt.object := by
  rcases machine with ⟨world, listener, log, stack, control⟩
  unfold attempt? at made
  split at made
  · next owner drain calls proceeds top =>
    split at made
    · next object target next step =>
      split at made
      · next same =>
        cases made
        exact ⟨owner, drain, next, calls, ⟨top, proceeds⟩, same, step, rfl⟩
      · cases made
    · cases made
  · cases made

theorem Attempting.of_attempt? (made : machine.attempt? base = some attempt) :
    machine.Attempting attempt.object attempt.target := by
  obtain ⟨owner, drain, next, calls, atDelivery, -, step, -⟩ := exists_atDelivery made
  exact .drains atDelivery.proceeds atDelivery.stack step

theorem Over.of_stack {calls : List Call} (stack : machine.stack = calls) : Over calls machine :=
  stack ▸ List.suffix_rfl

/-- What stands over some calls and is no higher is what stands on top. -/
theorem Over.stack_eq_of_length {call : Call} (atop : Over (call :: base) machine)
    (low : machine.stack.length ≤ base.length + 1) : machine.stack = call :: base :=
  (atop.eq_of_length_le low).symm

/-- A delivery over some calls makes an attempt only when it has control. -/
private theorem Over.atDelivery_of_attempt? (atop : Over (.draining owner drain :: base) machine)
    (made : machine.attempt? base = some attempt) : machine.AtDelivery owner drain base := by
  obtain ⟨_, _, _, calls, atDelivery, same, -⟩ := exists_atDelivery made
  refine ⟨atop.stack_eq_of_length (Nat.le_of_eq ?_), atDelivery.proceeds⟩
  rw [atDelivery.stack, List.length_cons, same]

/-! ### How a delivery goes on -/

/-- Control is not given away to user code where a delivery stands on top. -/
private theorem Back.move_eq_step_of_draining (back : machine.Back (.draining owner drain :: base))
    (move : machine.Move after) : after = machine.step := by
  cases move with
  | step => rfl
  | reconsider innermost _ free =>
    rw [back.stack] at innermost
    obtain ⟨rfl, -⟩ := List.cons.inj innermost
    cases free
  | command finished =>
    rw [outcome?_of_stack back.stack] at finished
    cases finished

private theorem AtDelivery.back (atDelivery : machine.AtDelivery owner drain base) :
    machine.Back (.draining owner drain :: base) :=
  ⟨atDelivery.stack, .inl atDelivery.proceeds⟩

/-- Where an attempt is allowed the object moves, and the delivery waits for its observer. -/
theorem AtDelivery.step_of_allowed (atDelivery : machine.AtDelivery owner drain base) {next : Drain}
    {object : ObjectId} {target : Lifecycle.State} (step : drain.step = .attempt object target next)
    (legal : (machine.world.objects.state object).canBecome target = true) :
    Over (.draining owner next.delivered :: base) machine.step := by
  rw [atDelivery.step_eq]
  simp only [continueDrain, step, advance, Lifecycle.Registry.advance, legal, if_true]
  have told {moved : Machine} : Over moved.stack (moved.tellState object target) :=
    (Leads.start.tellState).atop.2 rfl
  refine List.IsSuffix.trans ?_ told
  simp [become, withWorld, atDelivery.stack]

/-- Where it is not, the delivery notes that and keeps control. -/
theorem AtDelivery.step_of_refused (atDelivery : machine.AtDelivery owner drain base) {next : Drain}
    {object : ObjectId} {target : Lifecycle.State} (step : drain.step = .attempt object target next)
    (illegal : (machine.world.objects.state object).canBecome target = false) :
    machine.step = (machine.become (.draining owner (next.refused
      ⟨object.number, machine.world.objects.state object, target⟩))).proceed := by
  rw [atDelivery.step_eq]
  have refused := Lifecycle.Registry.advance_eq_error_iff.mpr ⟨illegal, rfl⟩
  simp only [continueDrain, step, advance, refused]

theorem AtDelivery.step_of_nextList (atDelivery : machine.AtDelivery owner drain base)
    {next : Drain} (step : drain.step = .nextList next) :
    machine.step = (machine.become (.draining owner next)).proceed := by
  rw [atDelivery.step_eq]
  simp only [continueDrain, step]

namespace InDelivery

theorem begins (stack : machine.stack = .draining owner dispatcher.drain :: base)
    (proceeds : machine.control = .proceed) :
    InDelivery owner dispatcher base [] machine dispatcher.drain where
  inProgress := .of_stack stack
  visits := .begins
  report := rfl
  waits := .inl ⟨stack, proceeds⟩

/-- While something else has control, nothing becomes of a delivery. -/
private theorem idles (inDelivery : InDelivery owner dispatcher base during last drain)
    (still : Over (.draining owner drain :: base) after)
    (elsewhere : ¬ last.AtDelivery owner drain base) :
    InDelivery owner dispatcher base (during ++ [last]) after drain := by
  have none : last.attempt? base = none := by
    by_contra made
    obtain ⟨attempt, made⟩ := Option.ne_none_iff_exists'.mp made
    exact elsewhere (inDelivery.inProgress.atDelivery_of_attempt? made)
  have same : attempts base (during ++ [last]) = attempts base during := by
    rw [attempts_concat, none]
    exact List.append_nil _
  refine ⟨still, ?_, ?_, .inr ?_⟩
  · rw [same]
    exact inDelivery.visits
  · rw [same]
    exact inDelivery.report
  · obtain ⟨attempt, before, turn, running, rfl, made, allowed, quiet⟩ :=
      inDelivery.waits.resolve_left elsewhere
    refine ⟨attempt, before, turn, running ++ [last], by simp, made, allowed, ?_⟩
    intro middle member
    rcases List.mem_append.mp member with former | latest
    · exact quiet middle former
    · rwa [List.mem_singleton.mp latest]

/-- A delivery that has control and is not done makes its next attempt or goes on to its next
list. -/
private theorem goesOn (inDelivery : InDelivery owner dispatcher base during last drain)
    (atDelivery : last.AtDelivery owner drain base) (lasts : drain.step ≠ .finished) :
    ∃ next, next.due < drain.due ∧
      InDelivery owner dispatcher base (during ++ [last]) last.step next := by
  have made := atDelivery.attempt?_eq
  cases step : drain.step with
  | finished => exact absurd step lasts
  | nextList next =>
    simp only [step] at made
    have same : attempts base (during ++ [last]) = attempts base during := by
      rw [attempts_concat, made]
      exact List.append_nil _
    have stack : last.step.stack = .draining owner next :: base := by
      rw [atDelivery.step_of_nextList step]
      simp [become, proceed, atDelivery.stack]
    have proceeds : last.step.control = .proceed := by
      rw [atDelivery.step_of_nextList step, proceed]
    refine ⟨next, Drain.due_of_nextList step, Over.of_stack stack, ?_, ?_, .inl ⟨stack, proceeds⟩⟩
    · rw [same]
      exact inDelivery.visits.nextList step
    · rw [same, ← inDelivery.report]
      obtain ⟨phase, -, -, rfl⟩ := Drain.step_eq_nextList_iff.mp step
      rfl
  | attempt object target next =>
    simp only [step] at made
    let attempt : Lifecycle.Attempt := ⟨object, last.world.objects.state object, target⟩
    have more : attempts base (during ++ [last]) = attempts base during ++ [attempt] := by
      rw [attempts_concat, made]
      rfl
    obtain ⟨rest, -, own, same⟩ := Drain.step_eq_attempt_iff.mp step
    have report : next.report = Report.of (attempts base during) := by
      rw [same]
      exact inDelivery.report
    have phase : target = next.phase.target := by rw [same, own]
    cases legal : (last.world.objects.state object).canBecome target with
    | true =>
      have allowed : attempt.allowed = true := legal
      refine ⟨next.delivered, Drain.due_of_attempt step _, atDelivery.step_of_allowed step legal,
        ?_, ?_, .inr ⟨attempt, during, last, [], rfl, made, allowed, List.forall_mem_nil _⟩⟩
      · rw [more, List.map_append]
        exact inDelivery.visits.delivered step
      · rw [more, Report.of_concat_allowed allowed phase, ← report]
        rfl
    | false =>
      have refused : attempt.allowed = false := legal
      have stack : last.step.stack =
          .draining owner (next.refused attempt.illegal) :: base := by
        rw [atDelivery.step_of_refused step legal]
        simp [become, proceed, atDelivery.stack, attempt, Lifecycle.Attempt.illegal]
      have proceeds : last.step.control = .proceed := by
        rw [atDelivery.step_of_refused step legal, proceed]
      refine ⟨next.refused attempt.illegal, Drain.due_of_attempt step _, Over.of_stack stack, ?_,
        ?_, .inl ⟨stack, proceeds⟩⟩
      · rw [more, List.map_append]
        exact inDelivery.visits.refused _ step
      · rw [more, Report.of_concat_refused refused, ← report]
        rfl

/-- A delivery goes on with every move until it ends. -/
theorem move (inDelivery : InDelivery owner dispatcher base during last drain)
    (move : last.Move after) (lasts : ¬ last.EndsDelivery base) :
    ∃ next, InDelivery owner dispatcher base (during ++ [last]) after next := by
  have unfinished (atDelivery : last.AtDelivery owner drain base) : drain.step ≠ .finished :=
    fun done => lasts ⟨owner, drain, atDelivery.stack, .inl ⟨atDelivery.proceeds, done⟩⟩
  by_cases atDelivery : last.AtDelivery owner drain base
  · rw [atDelivery.back.move_eq_step_of_draining move]
    obtain ⟨next, -, later⟩ := inDelivery.goesOn atDelivery (unfinished atDelivery)
    exact ⟨next, later⟩
  · rcases move.atop inDelivery.inProgress with still | back
    · exact ⟨drain, inDelivery.idles still atDelivery⟩
    · rcases back.control with proceeds | panics
      · exact absurd ⟨back.stack, proceeds⟩ atDelivery
      · exact absurd ⟨owner, drain, back.stack, .inr panics⟩ lasts

end InDelivery

/-- A delivery that begins is in progress until it ends. -/
theorem Goes.inDelivery {first : Machine} (goes : first.Goes during machine)
    (stack : first.stack = .draining owner dispatcher.drain :: base)
    (proceeds : first.control = .proceed)
    (lasts : ∀ middle ∈ during, ¬ middle.EndsDelivery base) :
    ∃ drain, InDelivery owner dispatcher base during machine drain := by
  induction goes with
  | stays => exact ⟨_, .begins stack proceeds⟩
  | moves goes move ih =>
    obtain ⟨drain, inDelivery⟩ := ih fun middle member =>
      lasts middle (List.mem_append_left _ member)
    exact inDelivery.move move (lasts _ List.mem_concat_self)

/-- Every delivery that ends has control, or a panic leaves it. -/
theorem InDelivery.ends (inDelivery : InDelivery owner dispatcher base during machine drain)
    (ends : machine.EndsDelivery base) :
    machine.stack = .draining owner drain :: base ∧
      (machine.control = .proceed ∧ drain.step = .finished ∨
        ∃ reason, machine.control = .unwind reason) := by
  obtain ⟨other, last, stack, control⟩ := ends
  have same : machine.stack = .draining owner drain :: base := by
    refine inDelivery.inProgress.stack_eq_of_length (Nat.le_of_eq ?_)
    rw [stack, List.length_cons]
  rw [stack] at same
  obtain ⟨rfl, rfl⟩ : other = owner ∧ last = drain := by
    simpa using same
  exact ⟨stack, control⟩

/-! ### Deliveries that are done -/

/-- The observers that a delivery over some calls calls back come back to it, without a panic. -/
structure Cooperates (first : Machine) (base : List Call) : Prop where
  comesBack : ∀ steps, (∀ middle ∈ trail steps first, ¬ middle.EndsDelivery base) →
    ∃ more owner drain, (advanced (steps + more) first).AtDelivery owner drain base
  calm : ∀ steps, (∀ middle ∈ trail steps first, ¬ middle.EndsDelivery base) →
    ∀ reason owner drain, (advanced steps first).stack = .draining owner drain :: base →
      (advanced steps first).control ≠ .unwind reason

theorem advanced_succ (steps : Nat) (machine : Machine) :
    advanced (steps + 1) machine = (advanced steps machine).step := by
  induction steps generalizing machine with
  | zero => rfl
  | succ steps ih => exact ih machine.step

theorem trail_succ (steps : Nat) (machine : Machine) :
    trail (steps + 1) machine = trail steps machine ++ [advanced steps machine] := by
  induction steps generalizing machine with
  | zero => rfl
  | succ steps ih => exact congrArg (machine :: ·) (ih machine.step)

/-- What holds of all machines of a trail and of the last holds of the longer trail. -/
theorem forall_trail_succ {holds : Machine → Prop} {steps : Nat} {machine : Machine}
    (former : ∀ middle ∈ trail steps machine, holds middle)
    (latest : holds (advanced steps machine)) :
    ∀ middle ∈ trail (steps + 1) machine, holds middle := by
  rw [trail_succ]
  exact List.forall_mem_append.mpr ⟨former, List.forall_mem_singleton.mpr latest⟩

/-- What lasts as long as something has not come about lasts until it does. -/
theorem exists_later {lasts comesAbout : Nat → Prop}
    (goesOn : ∀ now, lasts now → ¬ comesAbout now → lasts (now + 1)) {steps more : Nat}
    (begun : lasts steps) (comes : comesAbout (steps + more)) :
    ∃ later, lasts later ∧ comesAbout later := by
  induction more generalizing steps with
  | zero => exact ⟨steps, begun, comes⟩
  | succ more ih =>
    by_cases now : comesAbout steps
    · exact ⟨steps, begun, now⟩
    · refine ih (goesOn steps begun now) ?_
      rwa [Nat.add_right_comm]

/-- A delivery in progress after a number of steps. -/
structure Lasts (owner : DrainOwner) (dispatcher : Dispatcher) (base : List Call) (first : Machine)
    (steps : Nat) (drain : Drain) : Prop where
  inDelivery : InDelivery owner dispatcher base (trail steps first) (advanced steps first) drain
  lasts : ∀ middle ∈ trail steps first, ¬ middle.EndsDelivery base

namespace Lasts

variable {first : Machine} {steps : Nat}

/-- One more step during which the delivery does not end. -/
private theorem succ {next : Drain} (running : Lasts owner dispatcher base first steps drain)
    (later : InDelivery owner dispatcher base (trail steps first ++ [advanced steps first])
      (advanced steps first).step next)
    (lasts : ¬ (advanced steps first).EndsDelivery base) :
    Lasts owner dispatcher base first (steps + 1) next := by
  refine ⟨?_, forall_trail_succ running.lasts lasts⟩
  rw [trail_succ, advanced_succ]
  exact later

/-- A delivery without control lasts as it stands. -/
private theorem idles (running : Lasts owner dispatcher base first steps drain)
    (cooperates : Cooperates first base)
    (elsewhere : ¬ (advanced steps first).AtDelivery owner drain base) :
    Lasts owner dispatcher base first (steps + 1) drain := by
  have away : ¬ (advanced steps first).EndsDelivery base := by
    intro ends
    obtain ⟨stack, ⟨proceeds, -⟩ | ⟨reason, panics⟩⟩ := running.inDelivery.ends ends
    · exact elsewhere ⟨stack, proceeds⟩
    · exact cooperates.calm steps running.lasts reason owner drain stack panics
  have still : Over (.draining owner drain :: base) (advanced steps first).step := by
    rcases running.inDelivery.inProgress.step with still | ⟨stack, proceeds | panics⟩
    · exact still
    · exact absurd ⟨stack, proceeds⟩ elsewhere
    · obtain ⟨reason, panics⟩ := panics
      exact absurd panics (cooperates.calm steps running.lasts reason owner drain stack)
  exact running.succ (running.inDelivery.idles still elsewhere) away

/-- Control comes back to a delivery, as it stands. -/
private theorem exists_atDelivery (running : Lasts owner dispatcher base first steps drain)
    (cooperates : Cooperates first base) :
    ∃ later, Lasts owner dispatcher base first later drain ∧
      (advanced later first).AtDelivery owner drain base := by
  have goesOn : ∀ now, Lasts owner dispatcher base first now drain →
      (¬ ∃ other last, (advanced now first).AtDelivery other last base) →
        Lasts owner dispatcher base first (now + 1) drain := by
    intro now lasting away
    exact lasting.idles cooperates fun back => away ⟨owner, drain, back⟩
  obtain ⟨more, comes⟩ := cooperates.comesBack steps running.lasts
  obtain ⟨later, lasting, other, last, returned⟩ := exists_later goesOn running comes
  have low : (advanced later first).stack.length ≤ base.length + 1 :=
    Nat.le_of_eq (congrArg List.length returned.stack)
  exact ⟨later, lasting, lasting.inDelivery.inProgress.stack_eq_of_length low, returned.proceeds⟩

/-- If its observers cooperate, a delivery is done after some steps. -/
theorem exists_finished (running : Lasts owner dispatcher base first steps drain)
    (cooperates : Cooperates first base) :
    ∃ later last, Lasts owner dispatcher base first later last ∧
      (advanced later first).AtDelivery owner last base ∧ last.step = .finished := by
  induction rounds : drain.due using Nat.strongRecOn generalizing drain steps with
  | ind rounds ih =>
    obtain ⟨later, lasting, atDelivery⟩ := running.exists_atDelivery cooperates
    by_cases finished : drain.step = .finished
    · exact ⟨later, drain, lasting, atDelivery, finished⟩
    · have away : ¬ (advanced later first).EndsDelivery base := by
        intro ends
        obtain ⟨stack, ⟨-, done⟩ | ⟨reason, panics⟩⟩ := lasting.inDelivery.ends ends
        · exact finished done
        · exact cooperates.calm later lasting.lasts reason owner drain stack panics
      obtain ⟨next, fewer, goesOn⟩ := lasting.inDelivery.goesOn atDelivery finished
      exact ih next.due (rounds ▸ fewer) (lasting.succ goesOn away) rfl

end Lasts

end LiveTree.Session.Machine
