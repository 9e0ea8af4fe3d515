import LiveTree.Proofs.Frame.Hosting
import LiveTree.Proofs.Session.Generations

/-! Frame reports. A frame that is completed has a number and a report of its own, whatever other
frames are completed inside its actions: the report counts the turns that its call gave and lists,
by their places among these turns, the actions that panicked. -/
namespace LiveTree

/-- What is known of a panic afterwards. -/
def Panic.words : Panic → String
  | message text => text
  | wordless => "unknown panic"

private theorem Frame.Failure.ofPanic_eq (sequence : Nat) (reason : Panic) :
    Failure.ofPanic sequence reason = ⟨sequence, reason.words⟩ := by
  cases reason <;> rfl

end LiveTree

namespace LiveTree.Session

open Awaiting LiveTree.Frame

/-- What the calls of a scheduler in progress are for, the innermost first, with the failures that
each of them has noted. -/
def HostedScheduler.tasks (hosted : HostedScheduler) : List Frame.Call :=
  hosted.core.queue.running.map Batch.purpose

/-- Whether a deed begins the completion of a frame of a scheduler that is open. -/
def Deed.completes (id : Nat) : Deed → Bool
  | begins (.scheduler other) .resume => other == id
  | _ => false

/-- How many frames of a scheduler have been completed or begun to be. -/
def Deed.frames (id : Nat) (history : List Deed) : Nat := history.countP (Deed.completes id)

namespace Stage

variable {stage after : Stage} {history : List Deed} {deed : Option Deed} {id : Nat}

private theorem frames_append (history : List Deed) (deed : Option Deed) (id : Nat) :
    Deed.frames id (history ++ deed.toList) =
      Deed.frames id history + if deed.any (Deed.completes id) then 1 else 0 := by
  cases deed with
  | none => simp [Deed.frames]
  | some done => simp [Deed.frames, List.countP_append, List.countP_singleton]

/-- What the phase of a scheduler counts is what has been done, and nothing has been done to a
scheduler that does not exist. -/
structure Counted (stage : Stage) (history : List Deed) (id : Nat) : Prop where
  phase : ∀ phase, stage.phase? id = some phase → phase.completed = Deed.frames id history
  absent : stage.awaiting (.scheduler id) = none → Deed.frames id history = 0

private theorem Step.counted (step : stage.Step deed after) (counted : stage.Counted history id) :
    after.Counted (history ++ deed.toList) id := by
  have quiet (plain : deed.any (Deed.completes id) = false) :
      Deed.frames id (history ++ deed.toList) = Deed.frames id history := by
    rw [frames_append, plain]
    rfl
  have still (plain : deed.any (Deed.completes id) = false) (same : after.phase? = stage.phase?) :
      ∀ phase, after.phase? id = some phase →
        phase.completed = Deed.frames id (history ++ deed.toList) := by
    intro phase current
    rw [quiet plain]
    exact counted.phase phase (same ▸ current)
  have sets {other : Nat} {changed : Phase}
      (given : after.phase? = (stage.setPhase other changed).phase?)
      (own : id = other → changed.completed = Deed.frames id (history ++ deed.toList))
      (foreign : id ≠ other → deed.any (Deed.completes id) = false) :
      ∀ phase, after.phase? id = some phase →
        phase.completed = Deed.frames id (history ++ deed.toList) := by
    intro phase current
    rw [given] at current
    by_cases same : id = other
    · subst same
      cases current.symm.trans (phase?_setPhase_self ..)
      exact own rfl
    · rw [quiet (foreign same)]
      exact counted.phase phase ((phase?_setPhase_of_ne _ _ same).symm.trans current)
  constructor
  case absent =>
    intro absent
    have nothing : stage.awaiting (.scheduler id) = none := by
      by_contra some
      obtain ⟨queue, found⟩ := Option.ne_none_iff_exists'.mp some
      obtain ⟨changed, present, -⟩ := step.change found
      cases present.symm.trans absent
    have plain : deed.any (Deed.completes id) = false := by
      rcases deed with _ | done
      · rfl
      · cases done with
        | begins source delivery =>
          obtain ⟨queue, found⟩ := step.exists_of_begins
          cases source with
          | scheduler other =>
            cases delivery with
            | resume =>
              have different : other ≠ id := by
                rintro rfl
                cases found.symm.trans nothing
              simp [Deed.completes, different]
            | refuse => rfl
          | _ => rfl
        | _ => rfl
    rw [quiet plain]
    exact counted.absent nothing
  case phase =>
    cases step with
    | rests | keeps | opens | accepts | serves | finishes | loses | moves | refuses =>
      exact still rfl rfl
    | cancels => exact still rfl (phase?_cancel ..)
    | @flushes source queue found free =>
      refine still ?_ rfl
      cases source with
      | scheduler other => exact absurd rfl (free other)
      | _ => rfl
    | @closes source =>
      refine still ?_ rfl
      cases source <;> rfl
    | installs new =>
      refine sets rfl (fun same => ?_) fun _ => rfl
      subst same
      rw [quiet rfl, counted.absent new]
    | completes _ known =>
      refine sets rfl (fun same => ?_) fun different => ?_
      · subst same
        rw [frames_append, counted.phase _ known]
        simp [Deed.completes]
      · simp [Deed.completes, Ne.symm different]
    | idles _ known =>
      refine sets rfl (fun same => ?_) fun _ => rfl
      subst same
      rw [quiet rfl, counted.phase _ known]
    | startsFrame known =>
      refine sets rfl (fun same => ?_) fun _ => rfl
      subst same
      rw [quiet rfl, counted.phase _ known]

private theorem Life.counted (life : Life history stage) (id : Nat) : stage.Counted history id := by
  induction life with
  | bare => exact ⟨nofun, fun _ => rfl⟩
  | next _ step ih => exact step.counted ih

end Stage

namespace Machine

variable {machine after : Machine} {id other : Nat} {hosted : HostedScheduler}

/-! ### What calls of a scheduler are for -/

/-- What the calls of the scheduler of a number are for. -/
def tasks (id : Nat) (machine : Machine) : List Frame.Call :=
  ((machine.world.schedulers[id]?).map HostedScheduler.tasks).getD []

private theorem tasks_of_schedulers_eq (same : after.world.schedulers = machine.world.schedulers)
    (id : Nat) : after.tasks id = machine.tasks id := by
  rw [tasks, same, tasks]

private theorem tasks_of_found (found : machine.world.schedulers[id]? = some hosted) :
    machine.tasks id = hosted.core.queue.running.map Batch.purpose := by
  rw [tasks, found]
  rfl

private theorem tasks_setScheduler (found : machine.world.schedulers[other]? = some hosted)
    (core : Scheduler Action) :
    (machine.setScheduler other core).tasks id =
      if id = other then core.queue.running.map Batch.purpose else machine.tasks id := by
  simp only [tasks, setScheduler, withWorld, Array.getElem?_modify]
  by_cases same : id = other
  · subst same
    simp [found, HostedScheduler.tasks]
  · simp [same, Ne.symm same]

/-- As many tasks are there as calls are in progress. -/
private theorem length_tasks (attended : machine.stage.Attended) (id : Nat) :
    (machine.tasks id).length = machine.stage.serving.count (.scheduler id) := by
  rw [← attended (.scheduler id)]
  simp only [tasks, stage, World.awaiting]
  cases machine.world.schedulers[id]? with
  | none => rfl
  | some hosted => simp [HostedScheduler.tasks, Queue.map]

/-- What a step may do to the tasks of a scheduler: begin one, end the innermost, or note a failure
in it. -/
inductive Assigns (machine : Machine) (id : Nat) : List Frame.Call → Prop
  | stays : Assigns machine id (machine.tasks id)
  | ends {call : Frame.Call} {outer : List Frame.Call} (front : machine.tasks id = call :: outer) :
      Assigns machine id outer
  | completes {name : Name} {hosted : HostedScheduler}
      (control : machine.control = .execute (.scheduler (.completeFrame name)))
      (found : machine.world.schedulers[id]? = some hosted) :
      Assigns machine id (.completing (hosted.core.framesCompleted + 1) [] :: machine.tasks id)
  | closes {name : Name} {reason : String} (closed : Closed)
      (control : machine.control = .execute (.scheduler (.close name reason))) :
      Assigns machine id (.closing closed [] :: machine.tasks id)
  | notes {reason : Panic} {calls : List Call} {call : Frame.Call} {outer : List Frame.Call}
      (failure : Failure) (panics : machine.control = .unwind reason)
      (stack : machine.stack = .scheduler id :: calls)
      (front : machine.tasks id = call :: outer) : Assigns machine id (call.fail failure :: outer)

private theorem Assigns.of_eq {tasks : List Frame.Call} (same : tasks = machine.tasks id) :
    machine.Assigns id tasks := same ▸ .stays

/-- Where one scheduler changes, only its own calls can begin or end. -/
private theorem Assigns.setScheduler (found : machine.world.schedulers[other]? = some hosted)
    {core : Scheduler Action}
    (same : after.world.schedulers = (machine.setScheduler other core).world.schedulers)
    (own : machine.Assigns other (core.queue.running.map Batch.purpose)) :
    machine.Assigns id (after.tasks id) := by
  rw [tasks_of_schedulers_eq same, tasks_setScheduler found]
  split
  · next here =>
    subst here
    exact own
  · exact .stays

/-- Work on the scheduler of a name assigns tasks if it does so for every scheduler there is. -/
private theorem Assigns.onScheduler {name : Name} {work : Nat → HostedScheduler → Machine}
    (works : ∀ other hosted, machine.world.schedulers[other]? = some hosted →
      machine.Assigns id ((work other hosted).tasks id)) :
    machine.Assigns id ((machine.onScheduler name work).tasks id) := by
  unfold Machine.onScheduler
  split
  · exact .stays
  · split
    · exact .stays
    · next hosted found => exact works _ hosted found

private theorem assigns_schedule (name : Name) (handle : Option Name) (action : Action) :
    machine.Assigns id ((machine.schedule name handle action).tasks id) := by
  refine .onScheduler fun other hosted found => ?_
  have own := tasks_of_found found
  dsimp only [Scheduler.schedule]
  cases accepted : hosted.core.queue.register action with
  | error closed => exact .stays
  | ok registration =>
    obtain ⟨-, rfl⟩ := Queue.register_eq_ok_iff.mp accepted
    dsimp only
    split <;> exact .setScheduler found rfl (.of_eq own.symm)

private theorem assigns_executeScheduler {command : SchedulerCommand Body}
    (control : machine.control = .execute (.scheduler command)) :
    machine.Assigns id ((machine.executeScheduler command).tasks id) := by
  cases command with
  | create name config wake =>
    refine .of_eq ?_
    simp only [executeScheduler, nameScheduler, reply, withWorld, tasks, Array.getElem?_push]
    split
    · next same =>
      subst same
      simp [HostedScheduler.tasks]
    · rfl
  | share | describe => exact .onScheduler fun _ _ _ => .stays
  | schedulePlain | scheduleInformed => exact assigns_schedule ..
  | startFrame name =>
    refine .onScheduler fun other hosted found => ?_
    exact .setScheduler found rfl (.of_eq (tasks_of_found found).symm)
  | completeFrame name =>
    refine .onScheduler fun other hosted found => ?_
    have own := tasks_of_found found
    by_cases closed : hosted.core.queue.isClosed = true
    · simp only [Scheduler.completeFrame, if_pos closed]
      exact .setScheduler found rfl (.of_eq own.symm)
    · simp only [Scheduler.completeFrame, if_neg closed]
      refine .setScheduler found (schedulers_enter ..) ?_
      simpa [Queue.flush, ← own] using Assigns.completes control found
  | close name reason =>
    refine .onScheduler fun other hosted found => ?_
    have own := tasks_of_found found
    refine .setScheduler found rfl ?_
    simpa [Scheduler.close, Queue.close, Queue.flush, ← own] using
      Assigns.closes (hosted.core.queue.closed.getD ⟨reason⟩) control

private theorem assigns_continueScheduler (other : Nat) :
    machine.Assigns id ((machine.continueScheduler other).tasks id) := by
  unfold continueScheduler
  cases found : machine.world.schedulers[other]? with
  | none => exact .stays
  | some hosted =>
    have own := tasks_of_found found
    cases running : hosted.core.queue.running with
    | nil =>
      simp only [Scheduler.turn, Queue.turn, running]
      exact .stays
    | cons batch outer =>
      rw [running, List.map_cons] at own
      rcases Queue.turn_cases running with
        ⟨skipped, ticket, action, rest, -, -, -, -, turn⟩ | ⟨-, -, turn⟩
      · simp only [Scheduler.turn, turn]
        exact .setScheduler found (schedulers_deliver ..) (.of_eq own.symm)
      · cases purpose : batch.purpose with
        | completing frame failures =>
          simp only [Scheduler.turn, turn, purpose]
          exact .setScheduler found
            ((schedulers_leave ..).trans (schedulers_diagnoseAll ..)) (.ends own)
        | closing closed failures =>
          simp only [Scheduler.turn, turn, purpose]
          exact .setScheduler found (schedulers_diagnose ..) (.ends own)

/-- What a panic leaves of the tasks is what its scheduler makes of them. -/
private theorem tasks_catchInScheduler (reason : Panic)
    (found : machine.world.schedulers[other]? = some hosted) :
    (machine.catchInScheduler other reason).tasks id =
      if id = other then (hosted.core.noteFailure reason).queue.running.map Batch.purpose
      else machine.tasks id := by
  have same : (machine.catchInScheduler other reason).world.schedulers =
      (machine.setScheduler other (hosted.core.noteFailure reason)).world.schedulers := by
    simp only [catchInScheduler, found]
    unfold diagnoseRefusedAction
    split
    · rfl
    · split
      · exact schedulers_diagnose ..
      · rfl
  rw [tasks_of_schedulers_eq same, tasks_setScheduler found]

/-- A panic is noted in the innermost call. -/
private theorem running_noteFailure {core : Scheduler Action} {batch : Batch Frame.Call}
    {outer : List (Batch Frame.Call)} (running : core.queue.running = batch :: outer)
    (reason : Panic) :
    (core.noteFailure reason).queue.running.map Batch.purpose =
      batch.purpose.fail (Scheduler.failure reason batch) :: outer.map Batch.purpose := by
  simp [Scheduler.noteFailure, Queue.revise, running]

/-- The tasks of a scheduler change in these ways only. -/
private theorem assigns_step (machine : Machine) (id : Nat) :
    machine.Assigns id (machine.step.tasks id) := by
  by_cases about : machine.AboutSchedulers
  · cases about with
    | executes control =>
      rw [step_of_execute control]
      exact assigns_executeScheduler control
    | continues control stack =>
      rw [step_of_proceed control stack]
      exact assigns_continueScheduler _
    | @catches other calls reason control stack =>
      rw [step_of_unwind control stack, unwindCall]
      cases found : machine.world.schedulers[other]? with
      | none =>
        simp only [catchInScheduler, found]
        exact .stays
      | some hosted =>
        have own := tasks_of_found found
        rw [tasks_catchInScheduler reason found]
        split
        · next here =>
          subst here
          cases running : hosted.core.queue.running with
          | nil =>
            refine .of_eq (Eq.trans ?_ own.symm)
            simp [Scheduler.noteFailure, Queue.revise, running]
          | cons batch outer =>
            rw [running, List.map_cons] at own
            rw [running_noteFailure running]
            exact .notes _ control stack own
        · exact .stays
  · have blind (hosted : HostedScheduler) (ticket : Ticket) :
        (hosted.withdraw ticket).tasks = hosted.tasks :=
      congrArg (List.map Batch.purpose) (Queue.running_withdraw ..)
    exact .of_eq (congrArg (·.getD []) (map_schedulers_step blind about id))

private theorem Move.assigns (move : machine.Move after) (id : Nat) :
    machine.Assigns id (after.tasks id) := by
  cases move with
  | step => exact assigns_step machine id
  | reconsider | command => exact .stays

/-! ### The task of a call -/

section Task

variable {calls : List Call} {task : Frame.Call} {outer tasks : List Frame.Call}
  (assigns : machine.Assigns id tasks) (attended : machine.stage.Attended)
  (atop : Over (QueueRef.call (.scheduler id) :: calls) machine)
  (held : task :: outer <:+ machine.tasks id)
  (depth : outer.length = (calls.filterMap Call.source?).count (.scheduler id))
include assigns attended atop held depth

/-- A step leaves the task of a call that goes on, unless a panic comes back to the call. -/
private theorem Assigns.suffix (longer : outer.length < tasks.length)
    (calm : machine.stack = QueueRef.call (.scheduler id) :: calls →
      ∀ reason, machine.control ≠ .unwind reason) : task :: outer <:+ tasks := by
  cases assigns with
  | stays => exact held
  | completes | closes => exact held.trans (List.suffix_cons ..)
  | ends front =>
    rw [front] at held
    rcases List.suffix_cons_iff.mp held with whole | inner
    · obtain ⟨-, rfl⟩ := List.cons.inj whole
      exact absurd longer (Nat.lt_irrefl _)
    · exact inner
  | notes failure panics stack front =>
    rw [front] at held
    rcases List.suffix_cons_iff.mp held with whole | inner
    · -- The call that notes the panic would be this one.
      obtain ⟨-, rfl⟩ := List.cons.inj whole
      have alone := length_tasks attended id
      rw [front, List.length_cons, depth] at alone
      have working : machine.stack.head? = some (QueueRef.call (.scheduler id)) := by
        rw [stack]
        rfl
      exact absurd panics (calm (atop.stack_of_count working alone.symm) _)
    · exact inner.trans (List.suffix_cons ..)

end Task

/-- A call that completes a frame begins with the next number and without failures. -/
private theorem tasks_of_begins (attended : machine.stage.Attended)
    (began : machine.deed? = some (.begins (.scheduler id) .resume)) :
    ∃ hosted, machine.world.schedulers[id]? = some hosted ∧
      machine.step.tasks id =
        .completing (hosted.core.framesCompleted + 1) [] :: machine.tasks id := by
  have step := stage_step attended
  rw [began] at step
  have longer := length_tasks (step.attended attended) id
  rw [step.serving_of_begins, List.count_cons_self, ← length_tasks attended] at longer
  have assigns := assigns_step machine id
  generalize machine.step.tasks id = tasks at assigns longer ⊢
  cases assigns with
  | stays => omega
  | ends front =>
    rw [front, List.length_cons] at longer
    omega
  | completes control found => exact ⟨_, found, rfl⟩
  | closes closed control => cases starts_of_deed control began
  | notes failure panics stack front =>
    cases doing_of_deed began with
    | starts executes => cases panics.symm.trans executes

/-! ### What a call notes -/

/-- What the failures that a call has noted say of the panics in it. -/
structure Noted (id : Nat) (calls : List Call) (during : List Machine) (machine : Machine)
    (failures : List Failure) : Prop where
  /-- They are the panics so far, each at the place of its turn. -/
  exact : ∀ failure, failure ∈ failures ↔
    ∃ reason, PanicsAt (.scheduler id) calls during failure.sequence reason ∧
      failure.message = reason.words
  ascending : failures.Pairwise fun former latter => former.sequence < latter.sequence
  below : ∀ failure ∈ failures, failure.sequence <
    (turns (.scheduler id) (calls.filterMap Call.source?) during).length
  /-- Unless the call is about to go on, the callback of the last turn is under way, and nothing is
  noted of that. -/
  last : machine.stack = QueueRef.call (.scheduler id) :: calls ∧ machine.control = .proceed ∨
    ∃ place, Unreturned (.scheduler id) calls during place ∧
      ∀ failure ∈ failures, failure.sequence < place

section Noted

variable {calls : List Call} {during : List Machine} {last : Machine} {failures : List Failure}

private theorem Noted.nil (stack : machine.stack = QueueRef.call (.scheduler id) :: calls)
    (proceeds : machine.control = .proceed) : Noted id calls [] machine [] where
  exact failure := by
    constructor
    · nofun
    · rintro ⟨reason, ⟨sooner, ending, rest, split, -⟩, -⟩
      simp at split
  ascending := .nil
  below := List.forall_mem_nil _
  last := .inl ⟨stack, proceeds⟩

/-- Where no panic comes back to the call, nothing is to be noted. -/
private theorem exact_of_calm (noted : Noted id calls during last failures)
    (calm : last.stack = QueueRef.call (.scheduler id) :: calls →
      ∀ reason, last.control ≠ .unwind reason) (failure : Failure) :
    failure ∈ failures ↔
      ∃ reason, PanicsAt (.scheduler id) calls (during ++ [last]) failure.sequence reason ∧
        failure.message = reason.words := by
  rw [noted.exact]
  refine exists_congr fun reason => and_congr_left fun _ => ?_
  rw [panics_concat_iff]
  exact ⟨.inl, fun panics => panics.resolve_right fun ⟨_, stack, given⟩ => calm stack _ given⟩

private theorem Noted.turn (noted : Noted id calls during last failures)
    (atop : Over (QueueRef.call (.scheduler id) :: calls) last)
    (turn : (last.turnOver? (.scheduler id) (calls.filterMap Call.source?)).isSome) :
    Noted id calls (during ++ [last]) after failures where
  exact := exact_of_calm noted fun _ reason panics => by
    cases panics.symm.trans (atop.back_of_turn turn).2
  ascending := noted.ascending
  below failure member := by
    rw [turns_concat, List.length_append]
    exact Nat.lt_add_right _ (noted.below failure member)
  last := .inr ⟨_, unreturned_of_turn turn, noted.below⟩

private theorem Noted.away (noted : Noted id calls during last failures)
    (away : ¬ last.Back (QueueRef.call (.scheduler id) :: calls)) :
    Noted id calls (during ++ [last]) after failures where
  exact := exact_of_calm noted fun stack reason panics => away ⟨stack, .inr ⟨reason, panics⟩⟩
  ascending := noted.ascending
  below failure member := by
    rw [turns_concat, List.length_append]
    exact Nat.lt_add_right _ (noted.below failure member)
  last := by
    rcases noted.last with ⟨stack, proceeds⟩ | ⟨place, unreturned, earlier⟩
    · exact absurd ⟨stack, .inl proceeds⟩ away
    · exact .inr ⟨place, unreturned.concat away, earlier⟩

/-- A panic that comes back is noted at the place of the last turn. -/
private theorem Noted.panic {reason : Panic} (noted : Noted id calls during last failures)
    (atop : ∀ middle ∈ during, Over (QueueRef.call (.scheduler id) :: calls) middle)
    (stack : last.stack = QueueRef.call (.scheduler id) :: calls)
    (panics : last.control = .unwind reason)
    (stacked : after.stack = QueueRef.call (.scheduler id) :: calls)
    (proceeds : after.control = .proceed) :
    Noted id calls (during ++ [last]) after (failures ++ [.ofPanic
      ((turns (.scheduler id) (calls.filterMap Call.source?) during).length - 1) reason]) := by
  obtain ⟨place, unreturned, earlier⟩ := noted.last.resolve_left fun rests => by
    cases panics.symm.trans rests.2
  have counted := unreturned.length_turns atop
  rw [counted, Nat.add_sub_cancel, Failure.ofPanic_eq]
  constructor
  case exact =>
    intro failure
    rw [List.mem_append, noted.exact, List.mem_singleton]
    constructor
    · rintro (⟨given, former, same⟩ | rfl)
      · exact ⟨given, panics_concat_iff.mpr (.inl former), same⟩
      · exact ⟨reason, panics_concat_iff.mpr (.inr ⟨unreturned, stack, panics⟩), rfl⟩
    · rintro ⟨given, former, same⟩
      rcases panics_concat_iff.mp former with former | ⟨latest, -, own⟩
      · exact .inl ⟨given, former, same⟩
      · cases panics.symm.trans own
        have there := latest.length_turns atop
        rw [counted] at there
        rcases failure with ⟨sequence, message⟩
        cases Nat.succ.inj there
        exact .inr (congrArg _ same)
  case ascending =>
    refine List.pairwise_append.mpr ⟨noted.ascending, List.pairwise_singleton .., ?_⟩
    intro former member latter latest
    rw [List.mem_singleton.mp latest]
    exact earlier former member
  case below =>
    intro failure member
    rw [turns_concat, List.length_append, counted]
    rcases List.mem_append.mp member with former | latest
    · exact Nat.lt_add_right _ (counted ▸ noted.below failure former)
    · rw [List.mem_singleton.mp latest]
      exact Nat.lt_add_right _ (Nat.lt_succ_self place)
  case last => exact .inl ⟨stacked, proceeds⟩

end Noted

section Call

variable {earlier during : List Machine} {beginning : Machine}
  (course : Course (earlier ++ beginning :: during) machine)
  (began : beginning.deed? = some (.begins (.scheduler id) .resume))
  (lasts : ∀ middle ∈ during, ¬ middle.EndsCall (.scheduler id) beginning.stack)
include course began lasts

/-- A call that has control has the innermost batch, which is for its task and counts its turns. -/
private theorem Course.own_batch {task : Frame.Call}
    (stack : machine.stack = QueueRef.call (.scheduler id) :: beginning.stack)
    (held : task :: beginning.tasks id <:+ machine.tasks id) :
    ∃ hosted batch outer, machine.world.schedulers[id]? = some hosted ∧
      hosted.core.queue.running = batch :: outer ∧ batch.purpose = task ∧
      outer.map Batch.purpose = beginning.tasks id ∧
      batch.served = (turns (.scheduler id) beginning.stage.serving during).length := by
  obtain ⟨passed, left, -, midway⟩ := course.midway began lasts
  have alone := serving_of_source stack (QueueRef.source?_call (.scheduler id))
  obtain ⟨queue, others, present, running⟩ := midway.innermost course.life alone
  obtain ⟨hosted, found, rfl⟩ := Option.map_eq_some_iff.mp present
  obtain ⟨batch, outer, front, same, -⟩ := List.map_eq_cons_iff.mp running
  have served : (batch.map Frame.Call.delivery).served = _ := congrArg Batch.served same
  have length := length_tasks course.life.attended id
  rw [alone, List.count_cons_self] at length
  have whole : task :: beginning.tasks id = machine.tasks id := by
    refine held.eq_of_length ?_
    rw [length, List.length_cons, length_tasks course.before.life.attended]
    rfl
  rw [tasks_of_found found, front, List.map_cons] at whole
  obtain ⟨rfl, rest⟩ := List.cons.inj whole
  exact ⟨hosted, batch, outer, found, front, rfl, rest.symm, served⟩

/-- While a call is in progress, its task is above those that were there when it began. -/
private theorem Course.noted :
    ∃ failures, .completing (Deed.frames id (deeds earlier) + 1) failures :: beginning.tasks id <:+
        machine.tasks id ∧ Noted id beginning.stack during machine failures := by
  have depth := length_tasks course.before.life.attended id
  induction during using List.reverseRecOn generalizing machine with
  | nil =>
    obtain ⟨early, move⟩ := course.latest
    obtain ⟨hosted, found, tasks⟩ := tasks_of_begins early.life.attended began
    obtain ⟨stack, proceeds⟩ := step_of_begins began
    have counted := (early.life.counted id).phase _ (phase?_scheduler found)
    rw [move.eq_step began]
    refine ⟨[], ?_, .nil stack proceeds⟩
    rw [tasks, ← counted]
    exact List.suffix_rfl
  | append_singleton during last ih =>
    have atop := course.over_call began lasts
    have within := atop machine List.mem_concat_self
    rw [← List.cons_append, ← List.append_assoc] at course
    obtain ⟨early, move⟩ := course.latest
    have sooner (middle : Machine) (member : middle ∈ during) :
        ¬ middle.EndsCall (.scheduler id) beginning.stack :=
      lasts middle (List.mem_append_left _ member)
    obtain ⟨failures, held, noted⟩ := ih early sooner
    have above := atop last (List.mem_append_left _ List.mem_concat_self)
    have longer : (beginning.tasks id).length < (machine.tasks id).length := by
      rw [depth, length_tasks course.life.attended]
      exact within.within.count_le
    have stays (calm : last.stack = QueueRef.call (.scheduler id) :: beginning.stack →
        ∀ reason, last.control ≠ .unwind reason) :=
      (move.assigns id).suffix early.life.attended above held depth longer calm
    by_cases back : last.Back (QueueRef.call (.scheduler id) :: beginning.stack)
    · cases back.goesOn early.life.attended with
      | serves proceeds done =>
        have turn : last.turnOver? (.scheduler id) beginning.stage.serving = some _ :=
          (turnOver?_eq_some_iff above).mpr ⟨back.stack, _, _, done⟩
        refine ⟨failures, stays fun _ reason panics => ?_, noted.turn above ?_⟩
        · cases panics.symm.trans proceeds
        · exact Option.isSome_iff_exists.mpr ⟨_, turn⟩
      | finishes _ done =>
        exact absurd ⟨back.stack, .inl done⟩ (lasts last List.mem_concat_self)
      | loses _ _ free => exact absurd rfl (free id)
      | @catches reason _ panics own =>
        cases own
        obtain ⟨hosted, batch, outer, found, running, purpose, rest, served⟩ :=
          early.own_batch began sooner back.stack held
        obtain ⟨stack, proceeds⟩ := step_of_catches panics back.stack
        have tasks : last.step.tasks id = _ :=
          (congrArg (tasks id) (step_of_unwind panics back.stack)).trans
            (tasks_catchInScheduler reason found)
        rw [if_pos rfl, running_noteFailure running, purpose, rest] at tasks
        rw [back.move_eq_step move, tasks]
        refine ⟨_, ?_, noted.panic (fun middle member => ?_) back.stack panics
          (stack.trans back.stack) proceeds⟩
        · rw [Scheduler.failure, served]
          exact List.suffix_rfl
        · exact atop middle (List.mem_append_left _ (List.mem_append_left _ member))
    · exact ⟨failures, stays fun stack reason panics => back ⟨stack, .inr ⟨reason, panics⟩⟩,
        noted.away back⟩

/-- A call that ends answers with a report of all it has noted. -/
private theorem Course.report_of_ends (ends : machine.EndsCall (.scheduler id) beginning.stack) :
    ∃ failures, Noted id beginning.stack during machine failures ∧
      machine.step.control = .answer (.frame
        ⟨Deed.frames id (deeds earlier) + 1,
          (turns (.scheduler id) beginning.stage.serving during).length, failures⟩) ∧
      machine.step.stack = beginning.stack := by
  obtain ⟨stack, done | ⟨-, free⟩⟩ := ends
  case inr => exact absurd rfl (free id)
  obtain ⟨failures, held, noted⟩ := course.noted began lasts
  obtain ⟨hosted, batch, outer, found, running, purpose, -, served⟩ :=
    course.own_batch began lasts stack held
  obtain ⟨call, turns, given⟩ : ∃ call, machine.Turns call (.scheduler id) ∧
      machine.stage.turn? (.scheduler id) = some (.finishes (.scheduler id)) := by
    cases doing_of_deed done with
    | starts _ starting => cases starting
    | finishes turns given => exact ⟨_, turns, given⟩
  obtain ⟨top, others, front, turn⟩ := Stage.turn_of_finishes (awaiting_scheduler found) given
  cases running.symm.trans front
  obtain ⟨_, _, _, _, -, -, left, -⟩ := step_of_finishes done
  refine ⟨failures, noted, ?_, by rw [left, stack, List.tail_cons]⟩
  rw [turns.step, Call.eq_call_of_source? turns.serves]
  simp only [QueueRef.call, resume, continueScheduler, found, Scheduler.turn, turn, purpose]
  rw [← served]
  rfl

end Call

/-- A command to complete a frame begins a call if the scheduler is open; else it is answered at
once. -/
private theorem step_of_completeFrame {name : Name}
    (control : machine.control = .execute (.scheduler (.completeFrame name)))
    (named : machine.world.schedulerNames.get? name = some id)
    (found : machine.world.schedulers[id]? = some hosted) :
    hosted.core.queue.closed = none ∧
        machine.deed? = some (.begins (.scheduler id) .resume) ∨
      hosted.core.queue.closed ≠ none ∧ machine.deed? = some (.idles id) ∧
        machine.step.control = .answer (.frame ⟨hosted.core.framesCompleted, 0, []⟩) ∧
        machine.step.stack = machine.stack := by
  have done : machine.deed? = machine.stage.complete? id := by
    simp only [deed?, control, started?, named, Option.bind_some]
  have seen := awaiting_scheduler found
  rw [done, step_of_execute control]
  simp only [Stage.complete?, seen, Option.map_some]
  have same : (hosted.core.queue.map Callback.action Call.delivery).isClosed =
      hosted.core.queue.isClosed := rfl
  cases closed : hosted.core.queue.closed with
  | none =>
    have opened : hosted.core.queue.isClosed = false := by simp [Queue.isClosed, closed]
    rw [same, opened]
    exact .inl ⟨rfl, rfl⟩
  | some reason =>
    have shut : hosted.core.queue.isClosed = true := by simp [Queue.isClosed, closed]
    rw [same, shut]
    simp only [execute, executeScheduler, onScheduler, named, found, Scheduler.completeFrame, shut,
      if_true]
    exact .inr ⟨Option.some_ne_none _, trivial, rfl, rfl⟩

/-- What a report says of the call that it is about. -/
structure ReportsOn (report : Frame.Report) (id : Nat) (calls : List Call)
    (during : List Machine) : Prop where
  /-- It counts the turns that were given. -/
  dispatched : report.dispatched =
    (turns (.scheduler id) (calls.filterMap Call.source?) during).length
  /-- It lists the turns whose callbacks panicked, with what is known of the panics. -/
  failures : ∀ place message, ⟨place, message⟩ ∈ report.failures ↔
    ∃ reason, PanicsAt (.scheduler id) calls during place reason ∧ message = reason.words
  ascending : (report.failures.map Failure.sequence).Pairwise (· < ·)
  below : ∀ failure ∈ report.failures, failure.sequence < report.dispatched
  fewer : report.failures.length ≤ report.dispatched
  /-- How many actions returned can be told. -/
  succeeded : report.succeeded = some (report.dispatched - report.failures.length)

/-- How the frames of a scheduler are numbered and reported in a course. -/
structure FramesReported (passed : List Machine) (machine : Machine) (id : Nat) : Prop where
  /-- At every moment the scheduler shows how many frames have begun to be completed while it was
  open. -/
  counter : ∀ before middle rest, passed ++ [machine] = before ++ middle :: rest →
    ∀ hosted, middle.world.schedulers[id]? = some hosted →
      hosted.core.framesCompleted = Deed.frames id (deeds before) ∧
        ∀ name, middle.world.schedulerNames.get? name = some id →
          middle.world.view .scheduler name = some (.scheduler hosted.core.queue.hasAwaiters
            hosted.core.inFrame hosted.core.queue.isClosed (Deed.frames id (deeds before)))
  /-- A command to complete a frame begins a call if the scheduler is open; else it is answered at
  once, with a report of nothing. -/
  commands : ∀ before middle rest, passed ++ [machine] = before ++ middle :: rest →
    ∀ name hosted, middle.control = .execute (.scheduler (.completeFrame name)) →
      middle.world.schedulerNames.get? name = some id →
      middle.world.schedulers[id]? = some hosted →
        (hosted.core.queue.closed = none ∧
            middle.deed? = some (.begins (.scheduler id) .resume) ∧
            middle.step.tasks id =
              .completing (Deed.frames id (deeds before) + 1) [] :: middle.tasks id) ∨
          hosted.core.queue.closed ≠ none ∧ middle.step.stack = middle.stack ∧
            middle.step.control = .answer (.frame ⟨Deed.frames id (deeds before), 0, []⟩)
  /-- A call that has begun ends only with the report of the frame whose number it was given. -/
  calls : ∀ earlier beginning during middle rest,
    passed ++ [machine] = earlier ++ beginning :: during ++ middle :: rest →
      beginning.deed? = some (.begins (.scheduler id) .resume) →
      (∀ other ∈ during, ¬ other.EndsCall (.scheduler id) beginning.stack) →
      middle.EndsCall (.scheduler id) beginning.stack →
        ∃ report, middle.step.control = .answer (.frame report) ∧
          middle.step.stack = beginning.stack ∧
          report.frame = Deed.frames id (deeds earlier) + 1 ∧
          ReportsOn report id beginning.stack during

/-- What a call has noted is what its report says. -/
private theorem Noted.reportsOn {calls : List Call} {during : List Machine}
    {failures : List Failure} (noted : Noted id calls during machine failures) (frame : Nat) :
    ReportsOn ⟨frame, (turns (.scheduler id) (calls.filterMap Call.source?) during).length,
      failures⟩ id calls during := by
  have ascending : (failures.map Failure.sequence).Pairwise (· < ·) :=
    List.pairwise_map.mpr noted.ascending
  have fewer : failures.length ≤
      (turns (.scheduler id) (calls.filterMap Call.source?) during).length := by
    have once : (failures.map Failure.sequence).Nodup := ascending.imp Nat.ne_of_lt
    have inside : failures.map Failure.sequence ⊆
        List.range (turns (.scheduler id) (calls.filterMap Call.source?) during).length := by
      intro place member
      obtain ⟨failure, among, rfl⟩ := List.mem_map.mp member
      exact List.mem_range.mpr (noted.below failure among)
    simpa using (once.subperm inside).length_le
  exact {
    dispatched := rfl
    failures := fun place message => noted.exact ⟨place, message⟩
    ascending
    below := noted.below
    fewer
    succeeded := if_pos fewer }

/-- In every course, the reports of a scheduler's frames are consistent. -/
theorem frames_reported {passed : List Machine} (course : Course passed machine) (id : Nat) :
    FramesReported passed machine id := by
  have counted {before rest : List Machine} {middle : Machine} {hosted : HostedScheduler}
      (split : passed ++ [machine] = before ++ middle :: rest)
      (found : middle.world.schedulers[id]? = some hosted) :
      hosted.core.framesCompleted = Deed.frames id (deeds before) :=
    ((course.upTo split).life.counted id).phase _ (phase?_scheduler found)
  constructor
  case counter =>
    intro before middle rest split hosted found
    refine ⟨counted split found, fun name named => ?_⟩
    simp [World.view, named, found, counted split found]
  case commands =>
    intro before middle rest split name hosted control named found
    rcases step_of_completeFrame control named found with
      ⟨unclosed, began⟩ | ⟨closed, -, answers, stack⟩
    · obtain ⟨_, present, tasks⟩ := tasks_of_begins (course.upTo split).life.attended began
      cases found.symm.trans present
      exact .inl ⟨unclosed, began, by rw [tasks, counted split found]⟩
    · exact .inr ⟨closed, stack, by rw [answers, counted split found]⟩
  case calls =>
    intro earlier beginning during middle rest split began lasts ends
    obtain ⟨failures, noted, answers, stack⟩ :=
      (course.upTo split).report_of_ends began lasts ends
    exact ⟨_, answers, stack, rfl, noted.reportsOn _⟩

/-- Three actions wait for the end of a frame. The first one cancels the third, and schedules
another one and completes a frame itself; the second one and the new one panic. -/
def completesInside : Machine :=
  let body : Body :=
    [.scheduler (.create "s" {} []),
      .scheduler (.schedulePlain "s" "a" none
        [.handle (.cancel "h"),
          .scheduler (.schedulePlain "s" "d" none [.panic .wordless]),
          .scheduler (.completeFrame "s")]),
      .scheduler (.schedulePlain "s" "b" none [.panic (.message "boom")]),
      .scheduler (.schedulePlain "s" "c" (some "h") []),
      .scheduler (.completeFrame "s")]
  start { scripts := ⟨[("main", body)]⟩ } none (.call "main")

/-- The reports that have been given, the latest first. -/
def reports (machine : Machine) : List Frame.Report :=
  machine.log.filterMap fun event =>
    match event with
    | .answered (.frame report) => some report
    | _ => none

theorem frames_reported_of_completesInside :
    FramesReported (trail 48 completesInside) (advanced 48 completesInside) 0 ∧
      (advanced 48 completesInside).reports =
        [⟨1, 2, [⟨1, "boom"⟩]⟩, ⟨2, 1, [⟨0, "unknown panic"⟩]⟩] :=
  ⟨frames_reported ⟨_, _, _, goes_trail 48 completesInside⟩ 0, by with_unfolding_all rfl⟩

end Machine

end LiveTree.Session
