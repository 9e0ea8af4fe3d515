import LiveTree.Session.Machine

/-! Frame-end schedulers in a session. -/
namespace LiveTree.Session.Machine

open LiveTree.Frame

/-- Replaces the state of a scheduler. -/
def setScheduler (machine : Machine) (id : Nat) (core : Scheduler Action) : Machine :=
  machine.withWorld { machine.world with
    schedulers := machine.world.schedulers.modify id fun hosted => { hosted with core } }

/-- Works on the scheduler of a name. -/
def onScheduler (machine : Machine) (name : Name)
    (work : Nat → HostedScheduler → Machine) : Machine :=
  match machine.world.schedulerNames.get? name with
  | none => machine.missKind .scheduler
  | some id =>
    match machine.world.schedulers[id]? with
    | none => machine.missKind .scheduler
    | some hosted => work id hosted

/-- Binds a name to a scheduler. -/
def nameScheduler (machine : Machine) (name : Name) (id : Nat) : Machine :=
  machine.withWorld
    { machine.world with schedulerNames := machine.world.schedulerNames.set name id }

/-- Registers an action with a scheduler. -/
def schedule (machine : Machine) (name : Name) (handle : Option Name) (action : Action) :
    Machine :=
  machine.onScheduler name fun id hosted =>
    match hosted.core.schedule action with
    | .error closed => machine.reply (.closed closed)
    | .ok scheduled =>
      let machine := (machine.setScheduler id scheduled.scheduler).keepHandle (.scheduler id)
        scheduled.ticket handle
      if scheduled.notifies then machine.callBack (.woken hosted.name) hosted.wake
      else machine.proceed

/-- Starts a command on a scheduler. -/
def executeScheduler (machine : Machine) : SchedulerCommand Body → Machine
  | .create name config wake =>
    let id := machine.world.schedulers.size
    let machine := machine.withWorld
      { machine.world with schedulers := machine.world.schedulers.push ⟨{ config }, name, wake⟩ }
    (machine.nameScheduler name id).reply .ok
  | .share name other =>
    machine.onScheduler name fun id _ => (machine.nameScheduler other id).reply .ok
  | .describe name =>
    machine.onScheduler name fun _ hosted => machine.reply (.text hosted.core.describe)
  | .schedulePlain name item handle completed =>
    machine.schedule name handle ⟨item, completed, none⟩
  | .scheduleInformed name item handle completed refused =>
    machine.schedule name handle ⟨item, completed, some refused⟩
  | .startFrame name =>
    machine.onScheduler name fun id hosted =>
      (machine.setScheduler id hosted.core.startFrame).reply .ok
  | .completeFrame name =>
    machine.onScheduler name fun id hosted =>
      match hosted.core.completeFrame with
      | .idle report core => (machine.setScheduler id core).reply (.frame report)
      | .started frame core =>
        (((machine.setScheduler id core).enter (.frame frame)).push (.scheduler id)).proceed
  | .close name reason =>
    machine.onScheduler name fun id hosted =>
      ((machine.setScheduler id (hosted.core.close ⟨reason⟩)).push (.scheduler id)).proceed

/-- Tells an action what has become of its frame. -/
def deliver (machine : Machine) (action : Action) : Outcome → Machine
  | .completed =>
    match action.refused with
    | none => machine.callBack (.ran action.item) action.completed
    | some _ => machine.callBack (.ended action.item) action.completed
  | .closed closed =>
    match action.refused with
    | none => machine.proceed
    | some refused => machine.callBack (.closed action.item closed) refused

/-- Lets the innermost completion or closing of a scheduler go on. -/
def continueScheduler (machine : Machine) (id : Nat) : Machine :=
  match machine.world.schedulers[id]? with
  | none => machine.pop.reply (.count 0)
  | some hosted =>
    match hosted.core.turn with
    | .handOver outcome action core => (machine.setScheduler id core).deliver action outcome
    | .completed report core =>
      let machine := (machine.setScheduler id core).diagnoseAll
        (report.diagnostics core.config.failurePolicy)
      (machine.leave (.frame report.frame)).pop.reply (.frame report)
    | .closed served core =>
      ((machine.setScheduler id core).diagnose (.schedulerClosed served)).pop.reply (.count served)
    | .idle => machine.pop.reply (.count 0)

/-- Reports the panic of an action that was told of a closing, unless the policy is silence. -/
def diagnoseRefusedAction (machine : Machine) (core : Scheduler Action) (reason : Panic) :
    Machine :=
  match core.innermost? with
  | none => machine
  | some batch =>
    if batch.purpose.isClosing && core.config.failurePolicy == .logAndContinue then
      machine.diagnose (.refusedActionPanicked (Scheduler.failure reason batch))
    else machine

/-- A panic ends in the completion or closing that called the action, which then goes on. -/
def catchInScheduler (machine : Machine) (id : Nat) (reason : Panic) : Machine :=
  match machine.world.schedulers[id]? with
  | none => machine.proceed
  | some hosted =>
    ((machine.setScheduler id (hosted.core.noteFailure reason)).diagnoseRefusedAction
      hosted.core reason).proceed

end LiveTree.Session.Machine
