import Mathlib.Data.List.Induction
import LiveTree.Proofs.Session.Change
import LiveTree.Proofs.Session.Continuation

/-! The courses that sessions can take. What a callback does is up to whoever wrote it, who may
decide late and look at everything first; so besides the steps of the machine there are moves in
which the body that is running becomes another one, and when a command is done any other may
follow. A course keeps all machines that have been passed, and what is shown of courses holds
between any two steps, inside callbacks as well as outside. -/
namespace LiveTree.Session

open Awaiting LiveTree.Frame

/-- User code that is running decides anew what it does from here on: the rest of a body, or the
objects that it puts into new content. -/
inductive Call.Reconsiders : Call → Call → Prop
  | body (rest other : Body) : Reconsiders (.body rest) (.body other)
  | inserting (call : PassCall) (pass : Relocation.Pass String Int)
      (request : Relocation.Request Int) (objects other : List Name) :
      Reconsiders (.inserting call pass request objects) (.inserting call pass request other)

namespace Machine

/-- One move of a session: a step of its machine, a change of mind, or the next command. -/
inductive Move (machine : Machine) : Machine → Prop
  | step : Move machine machine.step
  | reconsider {call other : Call} {rest : List Call} (innermost : machine.stack = call :: rest)
      (proceeds : machine.control = .proceed) (free : call.Reconsiders other) :
      Move machine { machine with stack := other :: rest }
  | command {answer : Answer} (done : machine.outcome? = some answer) (command : Command) :
      Move machine (start machine.world machine.listener command)

/-- From one machine to another in some moves, with the machines that are passed, the first one
included and the last one not. -/
inductive Goes (machine : Machine) : List Machine → Machine → Prop
  | stays : Goes machine [] machine
  | moves {passed : List Machine} {last after : Machine} (goes : Goes machine passed last)
      (move : last.Move after) : Goes machine (passed ++ [last]) after

/-- What has been done on the stage of machines that were passed. -/
def deeds (passed : List Machine) : List Deed := passed.filterMap deed?

/-- A course that a session can take, from a session without components on. -/
def Course (passed : List Machine) (machine : Machine) : Prop :=
  ∃ scripts listener command, (start { scripts } listener command).Goes passed machine

variable {machine after last : Machine} {passed : List Machine}

@[simp]
theorem deeds_append (before later : List Machine) :
    deeds (before ++ later) = deeds before ++ deeds later := List.filterMap_append

theorem deeds_singleton (machine : Machine) : deeds [machine] = machine.deed?.toList := by
  unfold deeds
  cases deed : machine.deed? <;> simp [deed]

theorem deeds_cons (machine : Machine) (later : List Machine) :
    deeds (machine :: later) = machine.deed?.toList ++ deeds later := by
  rw [← deeds_singleton, ← deeds_append, List.singleton_append]

theorem mem_deeds_append_left {before : List Machine} {deed : Deed} (later : List Machine)
    (done : deed ∈ deeds before) : deed ∈ deeds (before ++ later) := by
  rw [deeds_append]
  exact List.mem_append_left _ done

/-! ### Cutting a way in two -/

theorem Goes.trans {before later : List Machine} (early : machine.Goes before last)
    (late : last.Goes later after) : machine.Goes (before ++ later) after := by
  induction late with
  | stays => rwa [List.append_nil]
  | moves _ move ih =>
    rw [← List.append_assoc]
    exact .moves ih move

/-- The last machine that is passed moves to the one that is reached. -/
theorem Goes.latest (goes : machine.Goes (passed ++ [last]) after) :
    machine.Goes passed last ∧ last.Move after := by
  generalize whole : passed ++ [last] = all at goes
  cases goes with
  | stays => simp at whole
  | moves goes move =>
    obtain ⟨rfl, rfl⟩ := List.append_singleton_inj.mp whole
    exact ⟨goes, move⟩

/-- A machine that is passed is reached, and the way goes on from it. -/
theorem Goes.split {before later : List Machine} {middle : Machine}
    (goes : machine.Goes (before ++ middle :: later) after) :
    machine.Goes before middle ∧ middle.Goes (middle :: later) after := by
  induction later using List.reverseRecOn generalizing after with
  | nil =>
    obtain ⟨early, move⟩ := goes.latest
    exact ⟨early, .moves .stays move⟩
  | append_singleton later last ih =>
    rw [← List.cons_append, ← List.append_assoc] at goes
    obtain ⟨goes, move⟩ := goes.latest
    obtain ⟨early, late⟩ := ih goes
    exact ⟨early, .moves late move⟩

theorem Course.latest (course : Course (passed ++ [last]) machine) :
    Course passed last ∧ last.Move machine := by
  obtain ⟨scripts, listener, command, goes⟩ := course
  exact ⟨⟨scripts, listener, command, goes.latest.1⟩, goes.latest.2⟩

theorem Course.before {before later : List Machine} {middle : Machine}
    (course : Course (before ++ middle :: later) machine) : Course before middle := by
  obtain ⟨scripts, listener, command, goes⟩ := course
  exact ⟨scripts, listener, command, goes.split.1⟩

/-- Any machine of a course has a course of its own up to there. -/
theorem Course.upTo {before later : List Machine} {middle : Machine}
    (course : Course passed machine) (split : passed ++ [machine] = before ++ middle :: later) :
    Course before middle := by
  rcases List.eq_nil_or_concat later with rfl | ⟨between, final, rfl⟩
  · obtain ⟨rfl, rfl⟩ := List.append_singleton_inj.mp split
    exact course
  · rw [List.concat_eq_append, ← List.cons_append, ← List.append_assoc] at split
    obtain ⟨rfl, rfl⟩ := List.append_singleton_inj.mp split
    exact course.before

/-- Of two machines that follow each other in a course, the first moves to the second. -/
theorem Course.adjacent {before later : List Machine} {middle next : Machine}
    (course : Course passed machine)
    (split : passed ++ [machine] = before ++ middle :: next :: later) :
    Course before middle ∧ middle.Move next := by
  have whole : passed ++ [machine] = (before ++ [middle]) ++ next :: later := by simp [split]
  exact (course.upTo whole).latest

theorem Course.then {later : List Machine} (course : Course passed machine)
    (goes : machine.Goes later after) : Course (passed ++ later) after := by
  obtain ⟨scripts, listener, command, early⟩ := course
  exact ⟨scripts, listener, command, early.trans goes⟩

/-! ### What a machine does by itself -/

theorem step_of_execute {command : Command} (control : machine.control = .execute command) :
    machine.step = machine.execute command := by
  simp only [step, control]

theorem step_of_proceed {call : Call} {calls : List Call} (control : machine.control = .proceed)
    (stack : machine.stack = call :: calls) : machine.step = machine.resume call := by
  simp only [step, control, stack]

theorem step_of_unwind {reason : Panic} {call : Call} {calls : List Call}
    (control : machine.control = .unwind reason) (stack : machine.stack = call :: calls) :
    machine.step = machine.unwindCall reason call := by
  simp only [step, control, stack]

/-- The machines that are passed in a number of steps. -/
def trail : Nat → Machine → List Machine
  | 0, _ => []
  | steps + 1, machine => machine :: trail steps machine.step

/-- The machine after a number of steps. -/
def advanced : Nat → Machine → Machine
  | 0, machine => machine
  | steps + 1, machine => advanced steps machine.step

theorem goes_trail (steps : Nat) (machine : Machine) :
    machine.Goes (trail steps machine) (advanced steps machine) := by
  induction steps generalizing machine with
  | zero => exact .stays
  | succ steps ih =>
    have first : machine.Goes [machine] machine.step := .moves .stays .step
    exact first.trans (ih machine.step)

/-- A machine that runs goes a way of its own. -/
private theorem exists_goes_runFor (budget : Nat) (machine : Machine) :
    ∃ passed, machine.Goes passed (runFor budget machine) := by
  induction budget generalizing machine with
  | zero => exact ⟨[], .stays⟩
  | succ budget ih =>
    unfold runFor
    split
    · exact ⟨[], .stays⟩
    · obtain ⟨passed, goes⟩ := ih machine.step
      have first : machine.Goes [machine] machine.step := .moves .stays .step
      exact ⟨machine :: passed, first.trans goes⟩

/-- Whatever a session runs next, its course goes on. -/
theorem Course.exists_append_runFor {answer : Answer} (course : Course passed machine)
    (done : machine.outcome? = some answer) (command : Command) (budget : Nat) :
    ∃ later, Course (passed ++ later)
      ((start machine.world machine.listener command).runFor budget) := by
  obtain ⟨ran, runs⟩ := exists_goes_runFor budget (start machine.world machine.listener command)
  have begins : machine.Goes [machine] (start machine.world machine.listener command) :=
    .moves .stays (.command done command)
  exact ⟨[machine] ++ ran, course.then (begins.trans runs)⟩

/-! ### Courses on the stage -/

/-- User code that changes its mind has done nothing yet. -/
private theorem stage_reconsider {call other : Call} {rest : List Call}
    (innermost : machine.stack = call :: rest) (free : call.Reconsiders other) :
    ({ machine with stack := other :: rest } : Machine).stage = machine.stage := by
  simp only [stage, innermost]
  cases free <;> rfl

private theorem deed?_reconsider {call other : Call} {rest : List Call}
    (innermost : machine.stack = call :: rest) (proceeds : machine.control = .proceed)
    (free : call.Reconsiders other) : machine.deed? = none := by
  unfold deed?
  rw [proceeds, innermost]
  cases free <;> rfl

/-- A machine with an outcome is at rest. -/
theorem rests_of_outcome {answer : Answer} (done : machine.outcome? = some answer) :
    machine.stack = [] ∧ machine.deed? = none := by
  rcases machine with ⟨world, listener, log, stack, control⟩
  cases stack with
  | nil => cases control <;> first | exact ⟨rfl, rfl⟩ | cases done
  | cons call calls => cases control <;> cases done

/-- Only a step of the machine does something on the stage. -/
theorem Move.eq_step {deed : Deed} (move : machine.Move after) (done : machine.deed? = some deed) :
    after = machine.step := by
  cases move with
  | step => rfl
  | reconsider innermost proceeds free =>
    rw [deed?_reconsider innermost proceeds free] at done
    cases done
  | command finished =>
    rw [(rests_of_outcome finished).2] at done
    cases done

/-- A move is a step on the stage, and the deed was to be expected. -/
theorem Move.stage_step (move : machine.Move after) (attended : machine.stage.Attended) :
    machine.stage.Step machine.deed? after.stage := by
  cases move with
  | step => exact Machine.stage_step attended
  | reconsider innermost proceeds free =>
    rw [deed?_reconsider innermost proceeds free]
    exact step_of_stage_eq (stage_reconsider innermost free)
  | command finished command =>
    obtain ⟨idle, quiet⟩ := rests_of_outcome finished
    rw [quiet]
    refine step_of_stage_eq ?_
    simp [stage, start, idle]

theorem stage_start (scripts : Names Body) (listener : Option Severity) (command : Command) :
    (start { scripts } listener command).stage = .bare := by
  have awaiting : (start { scripts } listener command).world.awaiting = fun _ => none := by
    funext source
    cases source <;> simp [World.awaiting, start]
  have phase? : (start { scripts } listener command).world.phase? = fun _ => none := by
    funext id
    simp [World.phase?, start]
  change Stage.mk (start { scripts } listener command).world.awaiting
    (start { scripts } listener command).world.phase? _ _ _ = _
  rw [awaiting, phase?]
  rfl

end Machine

namespace Stage

theorem Life.attended {history : List Deed} {stage : Stage} (life : Life history stage) :
    stage.Attended := by
  induction life with
  | bare => exact fun _ => rfl
  | next _ step ih => exact step.attended ih

end Stage

namespace Machine

variable {machine : Machine} {passed : List Machine}

/-- A course of a session is a life on its stage. -/
theorem Course.life (course : Course passed machine) : Stage.Life (deeds passed) machine.stage := by
  obtain ⟨scripts, listener, command, goes⟩ := course
  induction goes with
  | stays =>
    rw [stage_start]
    exact .bare
  | moves _ move ih =>
    rw [deeds_append, deeds_singleton]
    exact .next ih (move.stage_step ih.attended)

/-- What holds after one move and is kept by every step on the stage holds from then on. -/
theorem Course.since {before later : List Machine} {middle : Machine}
    (course : Course (before ++ middle :: later) machine) (Holds : Stage → Prop)
    (starts : ∀ after, middle.stage.Step middle.deed? after → Holds after)
    (kept : ∀ history stage deed after, Stage.Life history stage → stage.Step deed after →
      Holds stage → Holds after) :
    ∀ next ∈ later ++ [machine], Holds next.stage := by
  induction later using List.reverseRecOn generalizing machine with
  | nil =>
    obtain ⟨early, move⟩ := course.latest
    intro next member
    rw [List.mem_singleton.mp member]
    exact starts _ (move.stage_step early.life.attended)
  | append_singleton later last ih =>
    rw [← List.cons_append, ← List.append_assoc] at course
    obtain ⟨early, move⟩ := course.latest
    have soFar := ih early
    have holds := soFar last (List.mem_append_right _ List.mem_cons_self)
    intro next member
    rcases List.mem_append.mp member with former | latest
    · exact soFar next former
    · rw [List.mem_singleton.mp latest]
      exact kept _ _ _ _ early.life (move.stage_step early.life.attended) holds

/-- And it goes on with the next step. -/
theorem Course.life_step (course : Course passed machine) :
    Stage.Life (deeds passed ++ machine.deed?.toList) machine.step.stage :=
  .next course.life (stage_step course.life.attended)

end Machine

end LiveTree.Session
