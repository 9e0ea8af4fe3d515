import LiveTree.Proofs.Session.Bystanders
import LiveTree.Proofs.Session.Course

/-! What stays of a scheduler. Its name, its hook and its settings are given when it is created,
and nothing that happens in a session changes them. -/
namespace LiveTree.Session

open Awaiting LiveTree.Frame

/-- The scheduler with an action withdrawn. -/
def HostedScheduler.withdraw (hosted : HostedScheduler) (ticket : Ticket) : HostedScheduler :=
  { hosted with core := { hosted.core with queue := hosted.core.queue.withdraw ticket } }

namespace Machine

/-- The next step is about schedulers: a command on them, or what a call of one goes on with. -/
inductive AboutSchedulers (machine : Machine) : Prop
  | executes {command : SchedulerCommand Body}
      (control : machine.control = .execute (.scheduler command))
  | continues {id : Nat} {calls : List Call} (control : machine.control = .proceed)
      (stack : machine.stack = .scheduler id :: calls)
  | catches {id : Nat} {calls : List Call} {reason : Panic}
      (control : machine.control = .unwind reason)
      (stack : machine.stack = .scheduler id :: calls)

/-! ### What leaves schedulers alone -/

theorem schedulers_diagnose (machine : Machine) (diagnostic : Diagnostic) :
    (machine.diagnose diagnostic).world.schedulers = machine.world.schedulers :=
  congrArg World.schedulers (machine.world_diagnose diagnostic)

theorem schedulers_diagnoseAll (machine : Machine) (diagnostics : List Diagnostic) :
    (machine.diagnoseAll diagnostics).world.schedulers = machine.world.schedulers := by
  unfold diagnoseAll
  induction diagnostics generalizing machine with
  | nil => rfl
  | cons diagnostic diagnostics ih => rw [List.foldl_cons, ih, schedulers_diagnose]

theorem schedulers_enter (machine : Machine) (span : Span) :
    (machine.enter span).world.schedulers = machine.world.schedulers := by
  unfold enter
  split <;> rfl

theorem schedulers_leave (machine : Machine) (span : Span) :
    (machine.leave span).world.schedulers = machine.world.schedulers := by
  unfold leave
  split <;> rfl

theorem schedulers_deliver (machine : Machine) (action : Action) (outcome : Outcome) :
    (machine.deliver action outcome).world.schedulers = machine.world.schedulers := by
  unfold deliver
  split <;> split <;> rfl

private theorem schedulers_executeClock (machine : Machine) (command : ClockCommand Body) :
    (machine.executeClock command).world.schedulers = machine.world.schedulers := by
  cases command with
  | create => rfl
  | share | describe | send | close =>
    exact @onClock_eq _ (·.world.schedulers) _ _ _ _ rfl fun _ _ => rfl
  | register name item handle ticked refused =>
    refine @onClock_eq _ (·.world.schedulers) _ _ _ _ rfl fun other hosted => ?_
    cases hosted.core.awaiters.register ⟨item, ticked, refused⟩ with
    | error => rfl
    | ok registration =>
      dsimp only
      split <;> rfl

private theorem schedulers_continueClock (machine : Machine) (id : Nat) :
    (machine.continueClock id).world.schedulers = machine.world.schedulers := by
  unfold continueClock
  split
  · rfl
  · split
    · rfl
    · rfl
    · next tick served core _ =>
      cases tick <;> exact schedulers_diagnose (machine.setClock id core) _
    · rfl

private theorem schedulers_unwindClock (machine : Machine) (id : Nat) :
    (machine.unwindClock id).world.schedulers = machine.world.schedulers := by
  unfold unwindClock
  split <;> rfl

section Seen

variable {β : Type} {seen : HostedScheduler → β} {machine : Machine}
  (blind : ∀ hosted ticket, seen (hosted.withdraw ticket) = seen hosted)
include blind

/-- To cancel a handle changes nothing in a scheduler but who waits there. -/
private theorem map_schedulers_cancel (handle : HandleId) (id : Nat) :
    ((machine.cancel handle).world.schedulers[id]?).map seen =
      (machine.world.schedulers[id]?).map seen := by
  unfold cancel
  rcases machine.world.handles.cancel handle with ⟨attempt, handles⟩
  dsimp only
  rcases attempt.action with - | ⟨⟩ | ⟨source, ticket⟩
  · rfl
  · rfl
  · cases source with
    | queue | clock => rfl
    | scheduler other =>
      simp only [act, withWorld, World.withdraw, proceed, Array.getElem?_modify]
      split
      · cases machine.world.schedulers[id]? with
        | none => rfl
        | some hosted => exact congrArg some (blind hosted ticket)
      · rfl

private theorem map_schedulers_executeHandle (command : HandleCommand Body) (id : Nat) :
    ((machine.executeHandle command).world.schedulers[id]?).map seen =
      (machine.world.schedulers[id]?).map seen := by
  have done := machine.handled command
  generalize machine.executeHandle command = after at done ⊢
  cases done with
  | cancels | replaces | releases => exact map_schedulers_cancel blind _ id
  | _ => rfl

/-- Nor does any other step that is not about schedulers. -/
theorem map_schedulers_step (plain : ¬ machine.AboutSchedulers) (id : Nat) :
    (machine.step.world.schedulers[id]?).map seen = (machine.world.schedulers[id]?).map seen := by
  by_cases bystands : machine.Bystands
  · rw [schedulers_step bystands]
  · rcases machine with ⟨world, listener, log, stack, control⟩
    cases control with
    | execute command =>
      cases command with
      | inspect => rfl
      | scheduler => exact absurd (.executes rfl) plain
      | clock command => exact congrArg (·[id]?.map seen) (schedulers_executeClock _ command)
      | handle command => exact map_schedulers_executeHandle blind command id
      | _ => exact absurd trivial bystands
    | answer => exact absurd trivial bystands
    | proceed =>
      cases stack with
      | nil => exact absurd trivial bystands
      | cons call calls =>
        cases call with
        | scheduler => exact absurd (.continues rfl rfl) plain
        | clock other => exact congrArg (·[id]?.map seen) (schedulers_continueClock _ other)
        | _ => exact absurd trivial bystands
    | unwind reason =>
      cases stack with
      | nil => exact absurd trivial bystands
      | cons call calls =>
        cases call with
        | scheduler => exact absurd (.catches rfl rfl) plain
        | clock other => exact congrArg (·[id]?.map seen) (schedulers_unwindClock _ other)
        | _ => exact absurd trivial bystands

end Seen

end Machine

/-- What a scheduler was created with. -/
structure Hosting where
  name : Name
  wake : Body
  config : Settings.FrameConfig

def HostedScheduler.hosting (hosted : HostedScheduler) : Hosting :=
  ⟨hosted.name, hosted.wake, hosted.core.config⟩

/-- What the scheduler of a number was created with. -/
def World.hosting? (world : World) (id : Nat) : Option Hosting :=
  (world.schedulers[id]?).map HostedScheduler.hosting

namespace Machine

variable {machine after : Machine} {id other : Nat} {hosted : HostedScheduler} {hosting : Hosting}

def hosting? (id : Nat) (machine : Machine) : Option Hosting := machine.world.hosting? id

private theorem hosting?_of_schedulers_eq
    (same : after.world.schedulers = machine.world.schedulers) :
    after.hosting? id = machine.hosting? id := by
  rw [hosting?, World.hosting?, same]
  rfl

private theorem hosting?_setScheduler (found : machine.world.schedulers[other]? = some hosted)
    (core : Scheduler Action) (same : core.config = hosted.core.config) :
    (machine.setScheduler other core).hosting? id = machine.hosting? id := by
  simp only [hosting?, World.hosting?, setScheduler, withWorld, Array.getElem?_modify]
  split
  · next here =>
    subst here
    rw [found, Option.map_some, Option.map_some, Option.map_some, HostedScheduler.hosting,
      HostedScheduler.hosting, same]
  · rfl

/-- Work on the scheduler of a name, of which more is known than that it exists. -/
private theorem hosting?_onScheduler {name : Name} {work : Nat → HostedScheduler → Machine}
    (works : ∀ other hosted, machine.world.schedulers[other]? = some hosted →
      (work other hosted).hosting? id = machine.hosting? id) :
    (machine.onScheduler name work).hosting? id = machine.hosting? id := by
  unfold onScheduler
  cases machine.world.schedulerNames.get? name with
  | none => rfl
  | some other =>
    dsimp only
    cases found : machine.world.schedulers[other]? with
    | none => rfl
    | some hosted => exact works other hosted found

private theorem hosting?_schedule (name : Name) (kept : Option Name) (action : Action) :
    (machine.schedule name kept action).hosting? id = machine.hosting? id := by
  refine hosting?_onScheduler fun other hosted found => ?_
  dsimp only [Scheduler.schedule]
  cases hosted.core.queue.register action with
  | error closed => rfl
  | ok registration =>
    have set : (machine.setScheduler other
        { hosted.core with queue := registration.queue }).hosting? id = machine.hosting? id :=
      hosting?_setScheduler found _ rfl
    dsimp only
    split <;> exact set

/-- A new scheduler does not take the place of another one. -/
private theorem hosting?_createScheduler (known : machine.hosting? id = some hosting) (name : Name)
    (config : Settings.FrameConfig) (wake : Body) :
    (machine.executeScheduler (.create name config wake)).hosting? id = some hosting := by
  obtain ⟨hosted, found, rfl⟩ := Option.map_eq_some_iff.mp known
  have inside : id < machine.world.schedulers.size := (Array.getElem?_eq_some_iff.mp found).1
  simp only [hosting?, World.hosting?, executeScheduler, nameScheduler, withWorld, reply,
    Array.getElem?_push]
  rw [if_neg (by omega), found, Option.map_some]

private theorem hosting?_executeScheduler (known : machine.hosting? id = some hosting)
    (command : SchedulerCommand Body) :
    (machine.executeScheduler command).hosting? id = some hosting := by
  cases command with
  | create => exact hosting?_createScheduler known ..
  | share | describe =>
    refine (hosting?_onScheduler fun _ _ _ => ?_).trans known
    rfl
  | schedulePlain | scheduleInformed => exact (hosting?_schedule ..).trans known
  | startFrame =>
    refine (hosting?_onScheduler fun other hosted found => ?_).trans known
    exact hosting?_setScheduler found hosted.core.startFrame rfl
  | close _ reason =>
    refine (hosting?_onScheduler fun other hosted found => ?_).trans known
    exact hosting?_setScheduler found (hosted.core.close ⟨reason⟩) rfl
  | completeFrame =>
    refine (hosting?_onScheduler fun other hosted found => ?_).trans known
    by_cases closed : hosted.core.queue.isClosed = true
    · simp only [Scheduler.completeFrame, if_pos closed]
      exact hosting?_setScheduler found { hosted.core with inFrame := false } rfl
    · simp only [Scheduler.completeFrame, if_neg closed]
      exact (hosting?_of_schedulers_eq (schedulers_enter _ _)).trans
        (hosting?_setScheduler found _ rfl)

private theorem hosting?_continueScheduler (machine : Machine) (other : Nat) :
    (machine.continueScheduler other).hosting? id = machine.hosting? id := by
  unfold continueScheduler
  cases found : machine.world.schedulers[other]? with
  | none => rfl
  | some hosted =>
    dsimp only [Scheduler.turn]
    cases hosted.core.queue.turn with
    | handOver call action queue =>
      exact (hosting?_of_schedulers_eq (schedulers_deliver _ _ _)).trans
        (hosting?_setScheduler found _ rfl)
    | finished call served queue =>
      cases call with
      | completing =>
        exact (hosting?_of_schedulers_eq
          ((schedulers_leave _ _).trans (schedulers_diagnoseAll _ _))).trans
          (hosting?_setScheduler found _ rfl)
      | closing =>
        exact (hosting?_of_schedulers_eq (schedulers_diagnose _ _)).trans
          (hosting?_setScheduler found _ rfl)
    | idle => rfl

private theorem hosting?_catchInScheduler (machine : Machine) (other : Nat) (reason : Panic) :
    (machine.catchInScheduler other reason).hosting? id = machine.hosting? id := by
  unfold catchInScheduler
  cases found : machine.world.schedulers[other]? with
  | none => rfl
  | some hosted =>
    have set : (machine.setScheduler other (hosted.core.noteFailure reason)).hosting? id =
        machine.hosting? id := by
      refine hosting?_setScheduler found _ ?_
      rfl
    unfold diagnoseRefusedAction
    dsimp only
    split
    · exact set
    · split
      · exact (hosting?_of_schedulers_eq (schedulers_diagnose _ _)).trans set
      · exact set

private theorem hosting?_step (known : machine.hosting? id = some hosting) :
    machine.step.hosting? id = some hosting := by
  by_cases about : machine.AboutSchedulers
  · cases about with
    | executes control =>
      rw [step_of_execute control]
      exact hosting?_executeScheduler known _
    | continues control stack =>
      rw [step_of_proceed control stack]
      exact (hosting?_continueScheduler _ _).trans known
    | catches control stack =>
      rw [step_of_unwind control stack]
      exact (hosting?_catchInScheduler _ _ _).trans known
  · exact (map_schedulers_step (fun _ _ => rfl) about id).trans known

/-- A scheduler keeps what it was created with. -/
theorem Goes.hosting? {passed : List Machine} (goes : machine.Goes passed after)
    (known : machine.hosting? id = some hosting) : after.hosting? id = some hosting := by
  induction goes with
  | stays => exact known
  | moves _ move ih =>
    cases move with
    | step => exact hosting?_step ih
    | reconsider | command => exact ih

end Machine

end LiveTree.Session
