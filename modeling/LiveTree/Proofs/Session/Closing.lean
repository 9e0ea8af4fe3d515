import LiveTree.Proofs.Session.Batches
import LiveTree.Proofs.Sequences
import LiveTree.Proofs.Session.Calling

/-! Closing is final. A command may close a queue, a scheduler or a clock at any time, from inside
any callback of the same component as well. From the first closing on, the reason is fixed,
nothing waits and nothing can be registered; what is still handed over was taken out before. A
scheduler counts no frame any more, and completing one has no effect but to leave it idle. -/
namespace LiveTree.Awaiting.Queue

variable {α ρ : Type}

/-- A queue that is closed already, and in which nothing waits, has nothing to refuse when it is
closed again. -/
private theorem turn_close_of_closed {queue : Queue α ρ} {reason : Closed}
    (closed : queue.closed = some reason) (empty : queue.pending = []) (other : Closed)
    (purpose : Closed → ρ) :
    (queue.close other purpose).turn = .finished (purpose reason) 0 queue := by
  cases queue with
  | mk awaiters pending running shut =>
    subst closed empty
    rfl

end LiveTree.Awaiting.Queue

namespace LiveTree.Session

open Awaiting LiveTree.Frame

namespace Stage

variable {stage after : Stage} {source : QueueRef} {queue changed : CallbackQueue}
  {deed : Option Deed} {history : List Deed} {reason : Closed} {id : Nat}

/-- A component is closed for a reason, and nothing waits with it. -/
def Shut (stage : Stage) (source : QueueRef) (reason : Closed) : Prop :=
  ∃ queue, stage.awaiting source = some queue ∧ queue.closed = some reason ∧ queue.pending = []

/-- No step opens a queue again, or changes the reason. -/
private theorem Change.closed (change : stage.Change source queue deed changed)
    (closed : queue.closed = some reason) : changed.closed = some reason := by
  cases change with
  | stays | flushes | serves | finishes => exact closed
  | accepts accepted =>
    obtain ⟨unclosed, -⟩ := Queue.register_eq_ok_iff.mp accepted
    rw [closed] at unclosed
    cases unclosed
  | withdraws => rwa [Queue.closed_withdraw]
  | closes other => rw [Queue.closed_close, closed, Option.getD_some]
  | loses running =>
    simp only [Queue.abandon, running]
    exact closed

/-- A queue that is open before a step and closed after it has been closed in that step. -/
private theorem Change.refuses_of_closed (change : stage.Change source queue deed changed)
    (unclosed : queue.closed = none) (closed : changed.closed = some reason) :
    deed = some (.begins source (.refuse reason)) := by
  cases change with
  | stays | flushes | serves | finishes => cases unclosed.symm.trans closed
  | accepts accepted =>
    obtain ⟨-, rfl⟩ := Queue.register_eq_ok_iff.mp accepted
    cases unclosed.symm.trans closed
  | withdraws =>
    rw [Queue.closed_withdraw, unclosed] at closed
    cases closed
  | closes other =>
    rw [Queue.closed_close] at closed
    rw [Option.some.inj closed]
  | loses running =>
    simp only [Queue.abandon, running] at closed
    cases unclosed.symm.trans closed

/-- Who closes a component gives its first reason, and leaves nothing waiting. -/
private theorem Step.shut_of_refuses
    (step : stage.Step (some (.begins source (.refuse reason))) after)
    (found : stage.awaiting source = some queue) : after.Shut source reason := by
  obtain ⟨changed, present, change⟩ := step.change found
  cases change with
  | stays foreign => exact absurd rfl (foreign _ rfl)
  | closes other => exact ⟨_, present, rfl, rfl⟩

/-- A closed component stays closed. -/
private theorem Step.shut (step : stage.Step deed after) (life : Life history stage)
    (shut : stage.Shut source reason) : after.Shut source reason := by
  obtain ⟨queue, found, closed, -⟩ := shut
  obtain ⟨changed, present, change⟩ := step.change found
  have still := change.closed closed
  refine ⟨changed, present, still, ((Life.next life step).sound present).shut ?_⟩
  rw [still]
  exact Option.some_ne_none reason

/-- The phase of a scheduler, as far as its frames are counted. -/
def Counts (stage : Stage) (id completed : Nat) : Prop :=
  ∃ phase, stage.phase? id = some phase ∧ phase.completed = completed

/-- A closed scheduler counts no frames. -/
private theorem Step.counts (step : stage.Step deed after)
    (shut : stage.Shut (.scheduler id) reason) {completed : Nat}
    (counts : stage.Counts id completed) : after.Counts id completed := by
  obtain ⟨queue, found, closed, -⟩ := shut
  obtain ⟨phase, current, rfl⟩ := counts
  obtain ⟨changed, present, phasing⟩ := step.phasing found current
  refine ⟨changed, present, ?_⟩
  cases phasing with
  | stays | starts | idles => rfl
  | completes =>
    cases step with
    | flushes _ free => exact absurd rfl (free id)
    | completes known _ unclosed =>
      cases found.symm.trans known
      rw [closed] at unclosed
      cases unclosed

/-- To close a scheduler does not complete a frame. -/
private theorem Step.counts_of_refuses
    (step : stage.Step (some (.begins (.scheduler id) (.refuse reason))) after)
    (found : stage.awaiting (.scheduler id) = some queue) {completed : Nat}
    (counts : stage.Counts id completed) : after.Counts id completed := by
  obtain ⟨phase, current, rfl⟩ := counts
  obtain ⟨changed, present, phasing⟩ := step.phasing found current
  cases phasing with
  | stays => exact ⟨phase, present, rfl⟩

end Stage

namespace Machine

variable {passed earlier later : List Machine} {machine closing : Machine} {source : QueueRef}
  {queue : CallbackQueue} {reason : Closed} {id : Nat}

/-- The component that the next step closes, with the reason that the command gives. -/
def closing? (machine : Machine) : Option (QueueRef × Closed) :=
  match machine.control with
  | .execute (.queue (.close name reason)) =>
    (machine.world.queueNames.get? name).map fun id => (.queue id, ⟨reason⟩)
  | .execute (.scheduler (.close name reason)) =>
    (machine.world.schedulerNames.get? name).map fun id => (.scheduler id, ⟨reason⟩)
  | .execute (.clock (.close name reason)) =>
    (machine.world.clockNames.get? name).map fun id => (.clock id, ⟨reason⟩)
  | _ => none

/-- The component with which the next step is to register something. -/
def registering? (machine : Machine) : Option QueueRef :=
  match machine.control with
  | .execute (.queue (.register name _ _ _ _ _)) =>
    (machine.world.queueNames.get? name).map .queue
  | .execute (.scheduler (.schedulePlain name _ _ _))
  | .execute (.scheduler (.scheduleInformed name _ _ _ _)) =>
    (machine.world.schedulerNames.get? name).map .scheduler
  | .execute (.clock (.register name _ _ _ _)) =>
    (machine.world.clockNames.get? name).map .clock
  | _ => none

/-- The scheduler whose frame the next step is to complete. -/
def completing? (machine : Machine) : Option Nat :=
  match machine.control with
  | .execute (.scheduler (.completeFrame name)) => machine.world.schedulerNames.get? name
  | _ => none

/-! ### Commands -/

/-- A command that closes a component takes out all that waits, to be told the first reason. -/
private theorem deed?_of_closing (closes : machine.closing? = some (source, reason))
    (found : machine.stage.awaiting source = some queue) :
    machine.deed? = some (.begins source (.refuse (queue.closed.getD reason))) := by
  have deed {name : Name} {names : Names Nat} {text : String} {kind : Nat → QueueRef}
      (named : (names.get? name).map (fun id => (kind id, (⟨text⟩ : Closed))) =
        some (source, reason)) :
      ((names.get? name).bind fun id => machine.stage.close? (kind id) ⟨text⟩) =
        some (.begins source (.refuse (queue.closed.getD reason))) := by
    obtain ⟨id, known, same⟩ := Option.map_eq_some_iff.mp named
    obtain ⟨rfl, rfl⟩ := Prod.mk.inj same
    rw [known, Option.bind_some, Stage.close?, found, Option.map_some]
  unfold closing? at closes
  unfold deed?
  split at closes
  · next control =>
    rw [control]
    exact deed closes
  · next control =>
    rw [control]
    exact deed closes
  · next control =>
    rw [control]
    exact deed closes
  · cases closes

/-- Nothing is refused but by such a command. -/
private theorem closing_of_refuses (done : machine.deed? = some (.begins source (.refuse reason))) :
    ∃ given, machine.closing? = some (source, given) := by
  cases doing_of_deed done with
  | starts control =>
    unfold closing?
    rw [control]
    cases starts_of_deed control done with
    | closesQueue named | closesScheduler named | closesClock named =>
      exact ⟨_, Option.map_eq_some_iff.mpr ⟨_, named, rfl⟩⟩

/-- Nothing can be registered with a closed component: the command is answered with the reason, and
that is all. -/
private theorem step_of_registering (registers : machine.registering? = some source)
    (shut : machine.stage.Shut source reason) : machine.step = machine.reply (.closed reason) := by
  obtain ⟨queue, found, closed, -⟩ := shut
  unfold registering? at registers
  split at registers
  · next control =>
    obtain ⟨id, named, rfl⟩ := Option.map_eq_some_iff.mp registers
    obtain ⟨held, known, rfl⟩ := Option.map_eq_some_iff.mp found
    rw [Queue.closed_map] at closed
    simp only [step, control, execute, executeQueue, onQueue, named, known,
      Queue.register_eq_error_iff.mpr closed]
  · next control =>
    obtain ⟨id, named, rfl⟩ := Option.map_eq_some_iff.mp registers
    obtain ⟨hosted, known, rfl⟩ := Option.map_eq_some_iff.mp found
    rw [Queue.closed_map] at closed
    simp only [step, control, execute, executeScheduler, schedule, onScheduler, named, known,
      Scheduler.schedule, Queue.register_eq_error_iff.mpr closed]
  · next control =>
    obtain ⟨id, named, rfl⟩ := Option.map_eq_some_iff.mp registers
    obtain ⟨hosted, known, rfl⟩ := Option.map_eq_some_iff.mp found
    rw [Queue.closed_map] at closed
    simp only [step, control, execute, executeScheduler, schedule, onScheduler, named, known,
      Scheduler.schedule, Queue.register_eq_error_iff.mpr closed]
  · next control =>
    obtain ⟨id, named, rfl⟩ := Option.map_eq_some_iff.mp registers
    obtain ⟨hosted, known, rfl⟩ := Option.map_eq_some_iff.mp found
    rw [Queue.closed_map] at closed
    simp only [step, control, execute, executeClock, onClock, named, known,
      Queue.register_eq_error_iff.mpr closed]
  · cases registers

/-! ### Closing again -/

section Again

/-- A queue that is replaced and then put back is as it was. -/
private theorem setQueue_back {held : Queue Waiter Delivery} (other : Queue Waiter Delivery)
    (known : machine.world.queues[id]? = some held) :
    ((machine.setQueue id other).setQueue id held) = machine := by
  simp only [setQueue, withWorld, Array.setIfInBounds_setIfInBounds, setIfInBounds_eq_self known]

private theorem setScheduler_back {hosted : HostedScheduler} (other : Scheduler Action)
    (known : machine.world.schedulers[id]? = some hosted) :
    ((machine.setScheduler id other).setScheduler id hosted.core) = machine := by
  simp only [setScheduler, withWorld, modify_modify, Function.comp_def]
  rw [modify_eq_self known rfl]

private theorem setClock_back {hosted : HostedClock} (other : Clock Waiter)
    (known : machine.world.clocks[id]? = some hosted) :
    ((machine.setClock id other).setClock id hosted.core) = machine := by
  simp only [setClock, withWorld, modify_modify, Function.comp_def]
  rw [modify_eq_self known rfl]

/-- What it means that a command has been answered with zero and has left no trace, a diagnostic
apart. -/
structure CountsNone (machine after : Machine) : Prop where
  answer : after.control = .answer (.count 0)
  world : after.world = machine.world
  stack : after.stack = machine.stack
  calls : after.calls = machine.calls

/-- A call that ends with a diagnostic leaves what it found. -/
private theorem reply_pop_diagnose (machine : Machine) (call : Call) (diagnostic : Diagnostic)
    (answer : Answer) :
    ((machine.push call).proceed.diagnose diagnostic).pop.reply answer =
      (machine.diagnose diagnostic).reply answer := by
  have same : (machine.push call).proceed.hears diagnostic.severity =
      machine.hears diagnostic.severity := rfl
  unfold diagnose
  rw [same]
  split <;> rfl

/-- To close a closed queue hands nothing over. -/
private theorem step_of_closing_queue {name : Name} {text : String} {held : Queue Waiter Delivery}
    (control : machine.control = .execute (.queue (.close name text)))
    (named : machine.world.queueNames.get? name = some id)
    (known : machine.world.queues[id]? = some held) (closed : held.closed = some reason)
    (empty : held.pending = []) : machine.step.step = machine.reply (.count 0) := by
  have turn := Queue.turn_close_of_closed closed empty ⟨text⟩ Delivery.refuse
  have first : machine.step =
      ((machine.setQueue id (held.close ⟨text⟩ .refuse)).push (.queue id)).proceed := by
    simp only [step, control, execute, executeQueue, onQueue, named, known]
  have present : (machine.setQueue id (held.close ⟨text⟩ .refuse)).world.queues[id]? =
      some (held.close ⟨text⟩ .refuse) := by
    simp [setQueue, withWorld, (Array.getElem?_eq_some_iff.mp known).1]
  have second : machine.step.step =
      ((machine.setQueue id (held.close ⟨text⟩ .refuse)).setQueue id held).reply (.count 0) := by
    rw [first]
    simp only [step, proceed, push, resume, continueQueue, present, turn]
    rfl
  rw [second, setQueue_back _ known]

private theorem step_of_closing_scheduler {name : Name} {text : String} {hosted : HostedScheduler}
    (control : machine.control = .execute (.scheduler (.close name text)))
    (named : machine.world.schedulerNames.get? name = some id)
    (known : machine.world.schedulers[id]? = some hosted)
    (closed : hosted.core.queue.closed = some reason) (empty : hosted.core.queue.pending = []) :
    machine.step.step = (machine.diagnose (.schedulerClosed 0)).reply (.count 0) := by
  have turn := Queue.turn_close_of_closed closed empty ⟨text⟩ fun reason =>
    Frame.Call.closing reason []
  have first : machine.step =
      ((machine.setScheduler id (hosted.core.close ⟨text⟩)).push (.scheduler id)).proceed := by
    simp only [step, control, execute, executeScheduler, onScheduler, named, known]
  have present : (machine.setScheduler id (hosted.core.close ⟨text⟩)).world.schedulers[id]? =
      some { hosted with core := hosted.core.close ⟨text⟩ } := by
    simp [setScheduler, withWorld, Array.getElem?_modify, known]
  have ended : (hosted.core.close ⟨text⟩).turn = .closed 0 hosted.core := by
    simp only [Scheduler.turn, Scheduler.close, turn]
  have second : machine.step.step =
      (((machine.setScheduler id (hosted.core.close ⟨text⟩)).setScheduler id
        hosted.core).diagnose (.schedulerClosed 0)).reply (.count 0) := by
    rw [first]
    simp only [step, proceed, push, resume, continueScheduler, present, ended]
    exact reply_pop_diagnose
      ((machine.setScheduler id (hosted.core.close ⟨text⟩)).setScheduler id hosted.core)
      (.scheduler id) (.schedulerClosed 0) (.count 0)
  rw [second, setScheduler_back _ known]

private theorem step_of_closing_clock {name : Name} {text : String} {hosted : HostedClock}
    (control : machine.control = .execute (.clock (.close name text)))
    (named : machine.world.clockNames.get? name = some id)
    (known : machine.world.clocks[id]? = some hosted)
    (closed : hosted.core.awaiters.closed = some reason)
    (empty : hosted.core.awaiters.pending = []) :
    machine.step.step = (machine.diagnose (.clockClosed 0)).reply (.count 0) := by
  have turn := Queue.turn_close_of_closed closed empty ⟨text⟩ Tick.closed
  have first : machine.step =
      ((machine.setClock id (hosted.core.close ⟨text⟩)).push (.clock id)).proceed := by
    simp only [step, control, execute, executeClock, onClock, named, known]
  have present : (machine.setClock id (hosted.core.close ⟨text⟩)).world.clocks[id]? =
      some { hosted with core := hosted.core.close ⟨text⟩ } := by
    simp [setClock, withWorld, Array.getElem?_modify, known]
  have ended : (hosted.core.close ⟨text⟩).turn = .finished (.closed reason) 0 hosted.core := by
    simp only [Clock.turn, Clock.close, turn]
  have second : machine.step.step =
      (((machine.setClock id (hosted.core.close ⟨text⟩)).setClock id
        hosted.core).diagnose (.clockClosed 0)).reply (.count 0) := by
    rw [first]
    simp only [step, proceed, push, resume, continueClock, present, ended, diagnoseTick]
    exact reply_pop_diagnose
      ((machine.setClock id (hosted.core.close ⟨text⟩)).setClock id hosted.core)
      (.clock id) (.clockClosed 0) (.count 0)
  rw [second, setClock_back _ known]

/-- To close a closed component is answered with zero. -/
private theorem step_of_closing_again {other : Closed}
    (closes : machine.closing? = some (source, other)) (shut : machine.stage.Shut source reason) :
    machine.CountsNone machine.step.step := by
  have diagnosed (diagnostic : Diagnostic)
      (same : machine.step.step = (machine.diagnose diagnostic).reply (.count 0)) :
      machine.CountsNone machine.step.step := by
    rw [same]
    exact ⟨rfl, world_diagnose .., stack_diagnose .., calls_diagnose ..⟩
  obtain ⟨queue, found, closed, empty⟩ := shut
  unfold closing? at closes
  split at closes
  · next control =>
    obtain ⟨id, named, same⟩ := Option.map_eq_some_iff.mp closes
    obtain ⟨rfl, -⟩ := Prod.mk.inj same
    obtain ⟨held, known, rfl⟩ := Option.map_eq_some_iff.mp found
    rw [step_of_closing_queue control named known closed empty]
    exact ⟨rfl, rfl, rfl, rfl⟩
  · next control =>
    obtain ⟨id, named, same⟩ := Option.map_eq_some_iff.mp closes
    obtain ⟨rfl, -⟩ := Prod.mk.inj same
    obtain ⟨hosted, known, rfl⟩ := Option.map_eq_some_iff.mp found
    exact diagnosed _ (step_of_closing_scheduler control named known closed empty)
  · next control =>
    obtain ⟨id, named, same⟩ := Option.map_eq_some_iff.mp closes
    obtain ⟨rfl, -⟩ := Prod.mk.inj same
    obtain ⟨hosted, known, rfl⟩ := Option.map_eq_some_iff.mp found
    exact diagnosed _ (step_of_closing_clock control named known closed empty)
  · cases closes

end Again

/-! ### Completing a frame -/

/-- What it means that a command to complete a frame has told the number of the last frame, handed
nothing over, and left the scheduler idle. -/
structure Idles (machine after : Machine) (id completed : Nat) : Prop where
  answer : after.control =
    .answer (.frame { frame := completed, dispatched := 0, failures := [] })
  stack : after.stack = machine.stack
  log : after.log = machine.log
  idle : ∃ phase, after.stage.phase? id = some phase ∧ phase.inFrame = false ∧
    phase.completed = completed

/-- To complete a frame of a closed scheduler leaves it idle. -/
private theorem step_of_completing {completed : Nat} (completes : machine.completing? = some id)
    (shut : machine.stage.Shut (.scheduler id) reason)
    (counts : machine.stage.Counts id completed) : machine.Idles machine.step id completed := by
  obtain ⟨queue, found, closed, -⟩ := shut
  obtain ⟨phase, current, rfl⟩ := counts
  unfold completing? at completes
  split at completes
  · next name control =>
    obtain ⟨hosted, known, rfl⟩ := Option.map_eq_some_iff.mp found
    cases (phase?_scheduler known).symm.trans current
    have isClosed : hosted.core.queue.isClosed = true := Option.isSome_of_eq_some closed
    have stepped : machine.step =
        (machine.setScheduler id { hosted.core with inFrame := false }).reply
          (.frame { frame := hosted.core.framesCompleted }) := by
      simp only [step, control, execute, executeScheduler, onScheduler, completes, known,
        Scheduler.completeFrame, isClosed, if_true]
    rw [stepped]
    refine ⟨rfl, rfl, rfl, { hosted.core.phase with inFrame := false }, ?_, rfl, rfl⟩
    rw [stage_reply, stage_setScheduler_of_queue known { hosted.core with inFrame := false } rfl]
    exact Stage.phase?_setPhase_self ..
  · cases completes

/-! ### Courses -/

/-- In a course, a component that is closed has been closed by a command. -/
private theorem Course.closing_of_closed (course : Course passed machine)
    (found : machine.stage.awaiting source = some queue) (closed : queue.closed = some reason) :
    ∃ middle ∈ passed, ∃ given, middle.closing? = some (source, given) := by
  obtain ⟨scripts, listener, command, goes⟩ := course
  induction goes generalizing queue with
  | stays =>
    rw [stage_start] at found
    cases found
  | @moves passed last machine goes move ih =>
    have early : Course passed last := ⟨scripts, listener, command, goes⟩
    have step := move.stage_step early.life.attended
    cases former : last.stage.awaiting source with
    | none =>
      rcases step.appears former with still | ⟨opened, -⟩
      · cases found.symm.trans still
      · cases found.symm.trans opened
        cases closed
    | some held =>
      obtain ⟨changed, present, change⟩ := step.change former
      cases found.symm.trans present
      cases before : held.closed with
      | some given =>
        cases closed.symm.trans (change.closed before)
        obtain ⟨middle, member, closes⟩ := ih former before
        exact ⟨middle, List.mem_append_left _ member, closes⟩
      | none =>
        exact ⟨last, List.mem_append_right _ List.mem_cons_self,
          closing_of_refuses (change.refuses_of_closed before closed)⟩

/-- After somebody has been refused, the component is closed for that reason. -/
private theorem Course.shut_since
    (course : Course (earlier ++ closing :: later) machine)
    (found : closing.stage.awaiting source = some queue)
    (refuses : closing.deed? = some (.begins source (.refuse reason))) :
    ∀ middle ∈ later ++ [machine], middle.stage.Shut source reason := by
  apply course.since fun stage => stage.Shut source reason
  · intro after step
    rw [refuses] at step
    exact step.shut_of_refuses found
  · intro history stage deed after life step shut
    exact step.shut life shut

/-- Whoever is refused is told the reason for which the component is closed. -/
private theorem Course.shut_of_serves (course : Course passed machine) {ticket : Ticket}
    {callback : Callback}
    (done : machine.deed? = some (.serves source ticket callback (.refuse reason))) :
    machine.stage.Shut source reason := by
  obtain ⟨queue, batch, outer, found, running, purpose, -⟩ :=
    running_of_serves course.life.attended done
  obtain ⟨before, beginning, since, rfl, ⟨began, ⟨held, known, -⟩, -⟩, -⟩ :=
    course.tookOut found (show queue.running = [] ++ batch :: outer from running)
  rw [purpose] at began
  exact course.shut_since known began machine (List.mem_append_right _ List.mem_cons_self)

/-- What is sure of a component from the step on that closed it first. -/
structure ClosedForGood (earlier : List Machine) (closing : Machine) (later : List Machine)
    (machine : Machine) (source : QueueRef) (reason : Closed) : Prop where
  /-- It is closed for the reason that was given then, and nothing waits. -/
  shut : ∀ middle ∈ later ++ [machine], middle.stage.Shut source reason
  /-- Every registration that begins is answered with that reason, and does nothing else. -/
  registrations : ∀ middle ∈ later ++ [machine], middle.registering? = some source →
    middle.step = middle.reply (.closed reason)
  /-- Whoever is refused at any time is told that reason. -/
  rejections : ∀ middle ∈ earlier ++ closing :: (later ++ [machine]), ∀ ticket callback given,
    middle.deed? = some (.serves source ticket callback (.refuse given)) → given = reason
  /-- To close it again is answered with zero. -/
  closings : ∀ middle ∈ later ++ [machine], ∀ other,
    middle.closing? = some (source, other) → middle.CountsNone middle.step.step
  /-- Whoever is still resumed had been taken out by a call that began before and that has been in
  progress ever since. -/
  resumptions : ∀ during middle rest, later ++ [machine] = during ++ middle :: rest →
    ∀ ticket callback, middle.deed? = some (.serves source ticket callback .resume) →
      ∃ before beginning between, earlier = before ++ beginning :: between ∧
        beginning.deed? = some (.begins source .resume) ∧
        (∃ queue, beginning.stage.awaiting source = some queue ∧ ticket ∈ queue.pending) ∧
        ∀ other ∈ between ++ closing :: (during ++ [middle]),
          source :: beginning.stage.serving <:+ other.stage.serving
  /-- A scheduler counts no more frames, and to complete one leaves it idle. -/
  frames : ∀ id, source = .scheduler id → ∃ completed,
    (∀ middle ∈ closing :: (later ++ [machine]), middle.stage.Counts id completed) ∧
      ∀ middle ∈ later ++ [machine], middle.completing? = some id →
        middle.Idles middle.step id completed

section Closing

variable (course : Course (earlier ++ closing :: later) machine)
  (closes : closing.closing? = some (source, reason))
  (present : (closing.stage.awaiting source).isSome)
  (first : ∀ middle ∈ earlier, ∀ given, middle.closing? ≠ some (source, given))
include course closes present first

/-- The first closing of a component refuses what waits, for the reason given. -/
private theorem Course.refuses_of_first :
    closing.deed? = some (.begins source (.refuse reason)) := by
  obtain ⟨queue, found⟩ := Option.isSome_iff_exists.mp present
  cases before : queue.closed with
  | none =>
    have done := deed?_of_closing closes found
    rwa [before, Option.getD_none] at done
  | some given =>
    obtain ⟨middle, member, earlierClosing⟩ := course.before.closing_of_closed found before
    exact absurd earlierClosing.choose_spec (first middle member _)

/-- From its first closing on, a component is closed for the reason given. -/
private theorem Course.shut_of_first :
    ∀ middle ∈ later ++ [machine], middle.stage.Shut source reason := by
  obtain ⟨queue, found⟩ := Option.isSome_iff_exists.mp present
  exact course.shut_since found (course.refuses_of_first closes present first)

/-- Whoever is refused is told the first reason, whenever that is. -/
private theorem Course.rejected_of_first {middle : Machine}
    (member : middle ∈ earlier ++ closing :: (later ++ [machine])) {ticket : Ticket}
    {callback : Callback} {given : Closed}
    (done : middle.deed? = some (.serves source ticket callback (.refuse given))) :
    given = reason := by
  have shut := course.shut_of_first closes present first
  rcases List.mem_append.mp member with before | since
  · -- Nobody was refused before.
    obtain ⟨sooner, after, rfl⟩ := List.append_of_mem before
    rw [List.append_assoc, List.cons_append] at course
    obtain ⟨queue, found, closed, -⟩ := course.before.shut_of_serves done
    obtain ⟨other, among, given, earlierClosing⟩ := course.before.closing_of_closed found closed
    exact absurd earlierClosing (first other (List.mem_append_left _ among) given)
  · rcases List.mem_cons.mp since with rfl | after
    · rw [course.refuses_of_first closes present first] at done
      cases done
    · obtain ⟨during, rest, split⟩ := List.append_of_mem after
      have whole : earlier ++ closing :: later ++ [machine] =
          (earlier ++ closing :: during) ++ middle :: rest := by
        simp [split]
      obtain ⟨queue, found, closed, -⟩ := (course.upTo whole).shut_of_serves done
      obtain ⟨same, known, reasonGiven, -⟩ := shut middle after
      cases found.symm.trans known
      exact Option.some.inj (closed.symm.trans reasonGiven)

/-- Whoever is resumed after the first closing had been taken out before. -/
private theorem Course.resumed_of_first {during rest : List Machine} {middle : Machine}
    (split : later ++ [machine] = during ++ middle :: rest) {ticket : Ticket}
    {callback : Callback}
    (done : middle.deed? = some (.serves source ticket callback .resume)) :
    ∃ before beginning between, earlier = before ++ beginning :: between ∧
      beginning.deed? = some (.begins source .resume) ∧
      (∃ queue, beginning.stage.awaiting source = some queue ∧ ticket ∈ queue.pending) ∧
      ∀ other ∈ between ++ closing :: (during ++ [middle]),
        source :: beginning.stage.serving <:+ other.stage.serving := by
  have shut := course.shut_of_first closes present first
  have refuses := course.refuses_of_first closes present first
  have whole : earlier ++ closing :: later ++ [machine] =
      (earlier ++ closing :: during) ++ middle :: rest := by
    simp [split]
  have upTo := course.upTo whole
  obtain ⟨queue, batch, outer, found, running, purpose, listed⟩ :=
    running_of_serves upTo.life.attended done
  obtain ⟨before, beginning, since, parts, ⟨began, ⟨held, known, waited⟩, inProgress⟩, -⟩ :=
    upTo.tookOut found (show queue.running = [] ++ batch :: outer from running)
  rw [purpose] at began
  have notClosing : beginning ≠ closing := by
    rintro rfl
    rw [began] at refuses
    cases refuses
  rcases List.append_eq_append_iff.mp parts with ⟨later, -, after⟩ | ⟨between, rfl, after⟩
  · -- Nothing waits after the closing, so nothing is taken out to be resumed.
    rcases List.cons_eq_append_iff.mp after with ⟨-, same⟩ | ⟨early, -, among⟩
    · exact absurd (List.cons.inj same).1 notClosing
    · have member : beginning ∈ during := by
        rw [among]
        exact List.mem_append_right _ List.mem_cons_self
      obtain ⟨other, there, -, empty⟩ := shut beginning (by
        rw [split]
        exact List.mem_append_left _ member)
      cases known.symm.trans there
      rw [empty] at waited
      exact absurd (waited listed) List.not_mem_nil
  · rcases List.cons_eq_append_iff.mp after with ⟨-, same⟩ | ⟨rest, rfl, among⟩
    · exact absurd (List.cons.inj same).1.symm notClosing
    · refine ⟨before, beginning, rest, rfl, began, ⟨held, known, waited listed⟩, ?_⟩
      rw [among] at inProgress
      simpa using inProgress

/-- In every course, the first closing of a queue, scheduler or clock is final: from then on it is
closed for the reason given, whatever is called from wherever. -/
theorem closing_is_final : ClosedForGood earlier closing later machine source reason := by
  have shut := course.shut_of_first closes present first
  have refuses := course.refuses_of_first closes present first
  constructor
  case shut => exact shut
  case registrations =>
    intro middle member registers
    exact step_of_registering registers (shut middle member)
  case rejections =>
    intro middle member ticket callback given done
    exact course.rejected_of_first closes present first member done
  case closings =>
    intro middle member other again
    exact step_of_closing_again again (shut middle member)
  case resumptions =>
    intro during middle rest split ticket callback done
    exact course.resumed_of_first closes present first split done
  case frames =>
    rintro id rfl
    obtain ⟨queue, found⟩ := Option.isSome_iff_exists.mp present
    obtain ⟨hosted, known, -⟩ := Option.map_eq_some_iff.mp found
    have counted : ∀ middle ∈ later ++ [machine],
        middle.stage.Shut (.scheduler id) reason ∧
          middle.stage.Counts id hosted.core.framesCompleted := by
      apply course.since fun stage => stage.Shut (.scheduler id) reason ∧
        stage.Counts id hosted.core.framesCompleted
      · intro after step
        rw [refuses] at step
        exact ⟨step.shut_of_refuses found,
          step.counts_of_refuses found ⟨_, phase?_scheduler known, rfl⟩⟩
      · intro history stage deed after life step ⟨closed, counts⟩
        exact ⟨step.shut life closed, step.counts closed counts⟩
    refine ⟨hosted.core.framesCompleted, ?_, ?_⟩
    · intro middle member
      rcases List.mem_cons.mp member with rfl | after
      · exact ⟨_, phase?_scheduler known, rfl⟩
      · exact (counted middle after).2
    · intro middle member completes
      obtain ⟨closed, counts⟩ := counted middle member
      exact step_of_completing completes closed counts

end Closing

/-- Two actions wait for the end of a frame, and the first one closes the scheduler when its turn
comes. After the frame another action is to be scheduled, the scheduler is closed again, and another
frame is completed. -/
def closedAtFrameEnd : Machine :=
  let body : Body :=
    [.scheduler (.create "s" {} []),
      .scheduler (.schedulePlain "s" "a" none [.scheduler (.close "s" "first")]),
      .scheduler (.schedulePlain "s" "b" none []),
      .scheduler (.completeFrame "s"),
      .scheduler (.schedulePlain "s" "c" none []),
      .scheduler (.close "s" "second"),
      .scheduler (.completeFrame "s")]
  start { scripts := ⟨[("main", body)]⟩ } none (.call "main")

theorem closing_is_final_at_frame_end :
    .serves (.scheduler 0) 1 (.action ⟨"b", [], none⟩) .resume ∈
        deeds (trail 18 (advanced 18 closedAtFrameEnd)) ∧
      ClosedForGood (trail 17 closedAtFrameEnd) (advanced 17 closedAtFrameEnd)
        (trail 18 (advanced 18 closedAtFrameEnd)) (advanced 36 closedAtFrameEnd) (.scheduler 0)
        ⟨"first"⟩ := by
  have course : Course (trail 17 closedAtFrameEnd ++ advanced 17 closedAtFrameEnd ::
      trail 18 (advanced 18 closedAtFrameEnd)) (advanced 36 closedAtFrameEnd) :=
    ⟨_, _, _, goes_trail 36 closedAtFrameEnd⟩
  have resumed : deeds (trail 18 (advanced 18 closedAtFrameEnd)) =
      [.finishes (.scheduler 0), .serves (.scheduler 0) 1 (.action ⟨"b", [], none⟩) .resume,
        .finishes (.scheduler 0), .begins (.scheduler 0) (.refuse ⟨"first"⟩),
        .finishes (.scheduler 0), .idles 0] := by
    with_unfolding_all rfl
  have noneClosed : (trail 17 closedAtFrameEnd).filterMap closing? = [] := by
    with_unfolding_all rfl
  have closes : (advanced 17 closedAtFrameEnd).closing? = some (.scheduler 0, ⟨"first"⟩) := by
    with_unfolding_all rfl
  have present : ((advanced 17 closedAtFrameEnd).stage.awaiting (.scheduler 0)).isSome := by
    with_unfolding_all rfl
  refine ⟨?_, closing_is_final course closes present fun middle member given closed => ?_⟩
  · rw [resumed]
    exact List.mem_cons_of_mem _ List.mem_cons_self
  · have quiet := List.filterMap_eq_nil_iff.mp noneClosed middle member
    rw [closed] at quiet
    cases quiet

end Machine

end LiveTree.Session
