import LiveTree.Proofs.Session.Enlistment
import LiveTree.Proofs.Session.Parts

/-! How a call hands over. A call of a component that begins is put on top of the calls that are in
progress, and control comes back to it after every callback that it runs. Each time it gives the
next awaiter a turn, or it is done with its batch, or it meets the panic of the callback that has
just run; and nothing but its end takes it off the stack. -/
namespace LiveTree.Session

open Awaiting LiveTree.Frame

/-- The call in which a component hands over. -/
def QueueRef.call : QueueRef → Call
  | queue id => .queue id
  | scheduler id => .scheduler id
  | clock id => .clock id

@[simp]
theorem QueueRef.source?_call (source : QueueRef) : source.call.source? = some source := by
  cases source <;> rfl

theorem Call.eq_call_of_source? {call : Call} {source : QueueRef}
    (serves : call.source? = some source) : call = source.call := by
  cases call <;> cases serves <;> rfl

namespace Machine

variable {machine after : Machine} {source : QueueRef} {delivery : Delivery} {calls : List Call}

/-! ### A call begins -/

/-- A call that begins is put on top of the others and goes on at once. -/
theorem step_of_begins (done : machine.deed? = some (.begins source delivery)) :
    machine.step.stack = source.call :: machine.stack ∧ machine.step.control = .proceed := by
  cases doing_of_deed done with
  | starts control =>
    rw [step_of_execute control]
    cases starts_of_deed control done with
    | flushes named found | closesQueue named found =>
      obtain ⟨held, present, -⟩ := Option.map_eq_some_iff.mp found
      simp only [execute, executeQueue, onQueue, named, present]
      exact ⟨rfl, rfl⟩
    | sends named found | closesClock named found =>
      obtain ⟨hosted, present, -⟩ := Option.map_eq_some_iff.mp found
      simp only [execute, executeClock, onClock, named, present]
      exact ⟨rfl, rfl⟩
    | completesFrame named found unclosed =>
      obtain ⟨hosted, present, rfl⟩ := Option.map_eq_some_iff.mp found
      have opened : hosted.core.queue.isClosed = false := by simpa [Queue.isClosed] using unclosed
      simp only [execute, executeScheduler, onScheduler, named, present, Scheduler.completeFrame,
        opened, Bool.false_eq_true, if_false]
      unfold enter
      split <;> exact ⟨rfl, rfl⟩
    | closesScheduler named found =>
      obtain ⟨hosted, present, -⟩ := Option.map_eq_some_iff.mp found
      simp only [execute, executeScheduler, onScheduler, named, present]
      exact ⟨rfl, rfl⟩

/-! ### Control is back at a call -/

/-- What a call of a component does when control is back at it. -/
inductive GoesOn (machine : Machine) (source : QueueRef) : Prop
  /-- It gives the next awaiter a turn. -/
  | serves {ticket : Ticket} {callback : Callback} {delivery : Delivery}
      (proceeds : machine.control = .proceed)
      (done : machine.deed? = some (.serves source ticket callback delivery))
  /-- It is done with its batch. -/
  | finishes (proceeds : machine.control = .proceed)
      (done : machine.deed? = some (.finishes source))
  /-- A panic leaves it. -/
  | loses {reason : Panic} {tickets : List Ticket} (panics : machine.control = .unwind reason)
      (done : machine.deed? = some (.loses source tickets)) (free : ∀ id, source ≠ .scheduler id)
  /-- A scheduler notes the panic and goes on. -/
  | catches {reason : Panic} {id : Nat} (panics : machine.control = .unwind reason)
      (own : source = .scheduler id) (done : machine.deed? = none)

theorem Back.goesOn (back : machine.Back (source.call :: calls))
    (attended : machine.stage.Attended) : machine.GoesOn source := by
  have innermost := serving_of_source back.stack source.source?_call
  obtain ⟨queue, found, busy⟩ := busy_of_attended attended innermost
  rcases back.control with proceeds | ⟨reason, panics⟩
  · have turn : machine.deed? = machine.stage.turn? source := by
      simp only [deed?, proceeds, back.stack]
      cases source <;> rfl
    rcases Stage.exists_turn? found busy with ⟨ticket, callback, told, given⟩ | given
    · exact .serves proceeds (turn.trans given)
    · exact .finishes proceeds (turn.trans given)
  · have left : machine.deed? = machine.stage.giveUp? source := by
      simp only [deed?, panics, back.stack, QueueRef.source?_call, Option.bind_some]
    obtain ⟨batch, outer, running⟩ := List.exists_cons_of_ne_nil busy
    cases source with
    | scheduler id => exact .catches panics rfl left
    | queue | clock =>
      simp only [Stage.giveUp?, found, running] at left
      exact .loses panics left (by simp)

/-- User code is not what control is back at, and the session is not over. -/
theorem Back.move_eq_step (back : machine.Back (source.call :: calls)) (move : machine.Move after) :
    after = machine.step := by
  cases move with
  | step => rfl
  | reconsider innermost _ free =>
    rw [back.stack] at innermost
    obtain ⟨rfl, -⟩ := List.cons.inj innermost
    cases source <;> cases free
  | command finished =>
    rw [outcome?_of_stack back.stack] at finished
    cases finished

/-- To note a panic takes nothing off the stack. -/
theorem step_of_catches {reason : Panic} {id : Nat} (panics : machine.control = .unwind reason)
    (stack : machine.stack = .scheduler id :: calls) :
    machine.step.stack = machine.stack ∧ machine.step.control = .proceed := by
  rw [step_of_unwind panics stack]
  simp only [unwindCall, catchInScheduler]
  split
  · exact ⟨rfl, rfl⟩
  · next hosted _ =>
    refine ⟨?_, rfl⟩
    unfold diagnoseRefusedAction diagnose
    split
    · rfl
    · split
      · split <;> rfl
      · rfl

/-- The call on top of some others ends. -/
def EndsCall (machine : Machine) (source : QueueRef) (calls : List Call) : Prop :=
  machine.stack = source.call :: calls ∧ Stage.Ends source machine.deed?

/-- A call stays where it is until it ends. -/
private theorem Move.over_call (move : machine.Move after) (attended : machine.stage.Attended)
    (atop : Over (source.call :: calls) machine) (lasts : ¬ machine.EndsCall source calls) :
    Over (source.call :: calls) after := by
  rcases move.atop atop with still | back
  · exact still
  · rw [back.move_eq_step move]
    cases back.goesOn attended with
    | serves _ done =>
      rw [Over, (step_of_serves done).2, back.stack]
      exact List.suffix_append ..
    | finishes _ done => exact absurd ⟨back.stack, .inl done⟩ lasts
    | loses _ done free => exact absurd ⟨back.stack, .inr ⟨⟨_, done⟩, free⟩⟩ lasts
    | catches panics own =>
      subst own
      rw [Over, (step_of_catches panics back.stack).1, back.stack]

/-- A call that began is in progress until it ends. -/
theorem Course.over_call {earlier during : List Machine} {beginning : Machine}
    (course : Course (earlier ++ beginning :: during) machine)
    (began : beginning.deed? = some (.begins source delivery))
    (lasts : ∀ middle ∈ during, ¬ middle.EndsCall source beginning.stack) :
    ∀ middle ∈ during ++ [machine], Over (source.call :: beginning.stack) middle := by
  induction during using List.reverseRecOn generalizing machine with
  | nil =>
    intro middle member
    obtain ⟨-, move⟩ := course.latest
    rw [List.mem_singleton.mp member, move.eq_step began, Over, (step_of_begins began).1]
  | append_singleton during last ih =>
    rw [← List.cons_append, ← List.append_assoc] at course
    obtain ⟨early, move⟩ := course.latest
    have soFar := ih early fun middle member => lasts middle (List.mem_append_left _ member)
    intro middle member
    rcases List.mem_append.mp member with former | latest
    · exact soFar middle former
    · rw [List.mem_singleton.mp latest]
      exact move.over_call early.life.attended (soFar last List.mem_concat_self)
        (lasts last List.mem_concat_self)

/-! ### The turns of a call -/

/-- A call on top of some others is one over those that they hand over for. -/
theorem Over.within (atop : Over (source.call :: calls) machine) :
    machine.stage.Within source (calls.filterMap Call.source?) := by
  have suffix := atop.filterMap Call.source?
  rwa [List.filterMap_cons_some source.source?_call] at suffix

/-- A call at work that is over the same calls is the same one. -/
theorem Over.stack_eq (atop : Over (source.call :: calls) machine)
    (working : machine.stack.head? = some source.call)
    (alone : machine.stage.serving = source :: calls.filterMap Call.source?) :
    machine.stack = source.call :: calls := by
  obtain ⟨above, stack⟩ := atop
  rw [← stack] at working ⊢
  have serving : above.filterMap Call.source? ++ (source :: calls.filterMap Call.source?) =
      source :: calls.filterMap Call.source? := by
    rw [← List.filterMap_cons_some source.source?_call, ← List.filterMap_append, stack,
      List.filterMap_cons_some source.source?_call]
    exact alone
  have nothing := List.append_left_eq_self.mp serving
  cases above with
  | nil => rfl
  | cons call above =>
    obtain rfl := Option.some.inj working
    rw [List.filterMap_cons_some source.source?_call] at nothing
    cases nothing

/-- Whoever has a turn has it from the call at work. -/
private theorem head?_of_serves {ticket : Ticket} {callback : Callback}
    (done : machine.deed? = some (.serves source ticket callback delivery)) :
    machine.stack.head? = some source.call ∧ machine.control = .proceed := by
  cases doing_of_deed done with
  | starts _ starting => cases starting
  | serves turns =>
    rw [turns.innermost, Call.eq_call_of_source? turns.serves]
    exact ⟨rfl, turns.proceeds⟩

/-- And a call that ends is at work. -/
theorem head?_of_ends (ends : Stage.Ends source machine.deed?) :
    machine.stack.head? = some source.call := by
  rcases ends with done | ⟨⟨tickets, done⟩, -⟩
  · cases doing_of_deed done with
    | starts _ starting => cases starting
    | finishes turns => rw [turns.innermost, Call.eq_call_of_source? turns.serves]
  · cases doing_of_deed done with
    | starts _ starting => cases starting
    | loses panics =>
      rcases stack : machine.stack with _ | ⟨call, calls⟩
      · simp [deed?, panics, stack] at done
      · simp only [deed?, panics, stack] at done
        obtain ⟨origin, serves, given⟩ := Option.bind_eq_some_iff.mp done
        obtain ⟨_, same⟩ := Stage.giveUp?_cases given
        cases same
        rw [Call.eq_call_of_source? serves]
        rfl

/-- The machine after the beginning of a call is at that call. -/
theorem Course.next_of_begins {earlier later : List Machine} {beginning next : Machine}
    (course : Course (earlier ++ [beginning] ++ later) machine)
    (began : beginning.deed? = some (.begins source delivery))
    (first : next ∈ (later ++ [machine]).head?) :
    next.stack = source.call :: beginning.stack ∧ next.control = .proceed := by
  obtain ⟨rest, split⟩ := List.head?_eq_some_iff.mp first
  have whole : earlier ++ [beginning] ++ later ++ [machine] =
      earlier ++ beginning :: next :: rest := by
    rw [List.append_assoc, split]
    simp
  rw [(course.adjacent whole).2.eq_step began]
  exact step_of_begins began

end Machine

/-- The awaiter of a component that has its turn by a deed. -/
def Deed.served? (source : QueueRef) : Deed → Option Ticket
  | serves origin ticket _ _ => if origin = source then some ticket else none
  | _ => none

/-- The awaiter to which a step gives a turn in the call of a component over some other calls. -/
def Stage.turnOver? (stage : Stage) (source : QueueRef) (base : List QueueRef)
    (deed : Option Deed) : Option Ticket :=
  if stage.serving = source :: base then deed.bind (Deed.served? source) else none

namespace Machine

variable {machine after : Machine} {source : QueueRef} {delivery : Delivery} {calls : List Call}

/-- The awaiter to which the next step gives a turn in such a call. -/
def turnOver? (source : QueueRef) (base : List QueueRef) (machine : Machine) : Option Ticket :=
  machine.stage.turnOver? source base machine.deed?

/-- The awaiters that have their turns in such a call, in order. -/
def turns (source : QueueRef) (base : List QueueRef) (during : List Machine) : List Ticket :=
  during.filterMap (turnOver? source base)

theorem turns_concat (source : QueueRef) (base : List QueueRef) (during : List Machine)
    (last : Machine) :
    turns source base (during ++ [last]) =
      turns source base during ++ (last.turnOver? source base).toList := by
  unfold turns
  cases turn : last.turnOver? source base <;> simp [turn]

theorem turnOver?_eq_some_iff {ticket : Ticket} (atop : Over (source.call :: calls) machine) :
    machine.turnOver? source (calls.filterMap Call.source?) = some ticket ↔
      machine.stack = source.call :: calls ∧
        ∃ callback delivery, machine.deed? = some (.serves source ticket callback delivery) := by
  have served {deed : Deed} : Deed.served? source deed = some ticket ↔
      ∃ callback delivery, deed = .serves source ticket callback delivery := by
    cases deed <;> simp [Deed.served?, and_comm, eq_comm]
  unfold turnOver? Stage.turnOver?
  constructor
  · intro turn
    split at turn
    · next alone =>
      obtain ⟨deed, done, turned⟩ := Option.bind_eq_some_iff.mp turn
      obtain ⟨callback, told, rfl⟩ := served.mp turned
      exact ⟨atop.stack_eq (head?_of_serves done).1 alone, callback, told, done⟩
    · cases turn
  · rintro ⟨stack, callback, told, done⟩
    rw [if_pos (serving_of_source stack source.source?_call), done]
    exact served.mpr ⟨callback, told, rfl⟩

/-- Where a call goes on that does not end, it gives somebody a turn or meets a panic. -/
theorem Back.turns_or_catches (back : machine.Back (source.call :: calls))
    (attended : machine.stage.Attended) (lasts : ¬ machine.EndsCall source calls) :
    (∃ ticket, machine.turnOver? source (calls.filterMap Call.source?) = some ticket) ∨
      ∃ id, source = .scheduler id := by
  have atop : Over (source.call :: calls) machine := ⟨[], back.stack.symm⟩
  cases back.goesOn attended with
  | serves _ done => exact .inl ⟨_, (turnOver?_eq_some_iff atop).mpr ⟨back.stack, _, _, done⟩⟩
  | finishes _ done => exact absurd ⟨back.stack, .inl done⟩ lasts
  | loses _ done free => exact absurd ⟨back.stack, .inr ⟨⟨_, done⟩, free⟩⟩ lasts
  | catches _ own => exact .inr ⟨_, own⟩

/-- The callback that had a turn at some place of such a call has not come back since. -/
def Unreturned (source : QueueRef) (calls : List Call) (during : List Machine) (place : Nat) :
    Prop :=
  ∃ before turn running, during = before ++ turn :: running ∧
    (turn.turnOver? source (calls.filterMap Call.source?)).isSome ∧
    (turns source (calls.filterMap Call.source?) before).length = place ∧
    ∀ middle ∈ running, ¬ middle.Back (source.call :: calls)

/-- The callback that had the turn at some place of such a call came back with a panic. -/
def PanicsAt (source : QueueRef) (calls : List Call) (during : List Machine) (place : Nat)
    (reason : Panic) : Prop :=
  ∃ sooner ending rest, during = sooner ++ ending :: rest ∧ Unreturned source calls sooner place ∧
    ending.stack = source.call :: calls ∧ ending.control = .unwind reason

section Course

variable {during : List Machine} {last : Machine} {place : Nat} {reason : Panic}

/-- Whoever gives a turn in a call has control at it. -/
theorem Over.back_of_turn (atop : Over (source.call :: calls) machine)
    (turn : (machine.turnOver? source (calls.filterMap Call.source?)).isSome) :
    machine.Back (source.call :: calls) ∧ machine.control = .proceed := by
  obtain ⟨ticket, turn⟩ := Option.isSome_iff_exists.mp turn
  obtain ⟨stack, _, _, done⟩ := (turnOver?_eq_some_iff atop).mp turn
  have proceeds := (head?_of_serves done).2
  exact ⟨⟨stack, .inl proceeds⟩, proceeds⟩

/-- What runs is the callback of the last turn. -/
theorem Unreturned.length_turns (runs : Unreturned source calls during place)
    (atop : ∀ middle ∈ during, Over (source.call :: calls) middle) :
    (turns source (calls.filterMap Call.source?) during).length = place + 1 := by
  obtain ⟨before, turn, running, rfl, given, rfl, away⟩ := runs
  have quiet : turns source (calls.filterMap Call.source?) running = [] := by
    refine List.filterMap_eq_nil_iff.mpr fun middle member => ?_
    by_contra some
    exact away middle member ((atop middle (by simp [member])).back_of_turn
      (Option.isSome_iff_ne_none.mpr some)).1
  obtain ⟨ticket, given⟩ := Option.isSome_iff_exists.mp given
  rw [turns] at quiet
  simp [turns, given, quiet]

theorem unreturned_of_turn
    (turn : (last.turnOver? source (calls.filterMap Call.source?)).isSome) :
    Unreturned source calls (during ++ [last])
      (turns source (calls.filterMap Call.source?) during).length :=
  ⟨during, last, [], rfl, turn, rfl, List.forall_mem_nil _⟩

theorem Unreturned.concat (runs : Unreturned source calls during place)
    (away : ¬ last.Back (source.call :: calls)) :
    Unreturned source calls (during ++ [last]) place := by
  obtain ⟨before, turn, running, rfl, given, counted, former⟩ := runs
  refine ⟨before, turn, running ++ [last], by simp, given, counted, fun middle member => ?_⟩
  rcases List.mem_append.mp member with early | latest
  · exact former middle early
  · rwa [List.mem_singleton.mp latest]

theorem panics_concat_iff :
    PanicsAt source calls (during ++ [last]) place reason ↔
      PanicsAt source calls during place reason ∨
        Unreturned source calls during place ∧ last.stack = source.call :: calls ∧
          last.control = .unwind reason := by
  constructor
  · rintro ⟨sooner, ending, rest, split, runs, stack, panics⟩
    rcases List.eq_nil_or_concat rest with rfl | ⟨between, final, rfl⟩
    · obtain ⟨rfl, rfl⟩ := List.append_singleton_inj.mp split
      exact .inr ⟨runs, stack, panics⟩
    · rw [List.concat_eq_append, ← List.cons_append, ← List.append_assoc] at split
      obtain ⟨rfl, -⟩ := List.append_singleton_inj.mp split
      exact .inl ⟨sooner, ending, between, rfl, runs, stack, panics⟩
  · rintro (⟨sooner, ending, rest, rfl, runs, stack, panics⟩ | ⟨runs, stack, panics⟩)
    · exact ⟨sooner, ending, rest ++ [last], by simp, runs, stack, panics⟩
    · exact ⟨during, last, [], rfl, runs, stack, panics⟩

/-- A call that is at work while no other of its component is inside it has control. -/
theorem Over.stack_of_count (atop : Over (source.call :: calls) machine)
    (working : machine.stack.head? = some source.call)
    (alone : machine.stage.serving.count source =
      (calls.filterMap Call.source?).count source + 1) :
    machine.stack = source.call :: calls := by
  obtain ⟨above, stack⟩ := atop
  have serving : machine.stage.serving = machine.stack.filterMap Call.source? := rfl
  rw [serving, ← stack, List.filterMap_append, List.filterMap_cons_some source.source?_call,
    List.count_append, List.count_cons_self] at alone
  rw [← stack] at working ⊢
  cases above with
  | nil => rfl
  | cons call above =>
    obtain rfl := Option.some.inj working
    rw [List.filterMap_cons_some source.source?_call, List.count_cons_self] at alone
    omega

end Course

end Machine

end LiveTree.Session
