import LiveTree.Proofs.Session.Acting
import LiveTree.Proofs.Session.Bystanders

/-! Schedulers that wake their hosts more often. The notify policy of a scheduler is looked at when
an action is registered, and it shows in the text of the scheduler; everything else goes on as it
would under another policy. So a step after which the host is woken of each registration is the
step that would be taken anyway, or it answers with another text, or the host is now woken of a
registration of which it would not have been. -/
namespace LiveTree.Frame.Scheduler

open Settings

variable {α : Type}

/-- A scheduler whose notify policy has become another one. -/
def under (change : NotifyPolicy → NotifyPolicy) (scheduler : Scheduler α) : Scheduler α :=
  { scheduler with
    config := { scheduler.config with notifyPolicy := change scheduler.config.notifyPolicy } }

/-- A change of policies after which the host is woken at least as often. -/
def Eager (change : NotifyPolicy → NotifyPolicy) : Prop :=
  ∀ policy, change policy = policy ∨ change policy = .always

private theorem notifies_under {change : NotifyPolicy → NotifyPolicy} (eager : Eager change)
    (scheduler : Scheduler α) (first : Bool) :
    (scheduler.under change).notifies first = scheduler.notifies first ∨
      (scheduler.under change).notifies first = true ∧ scheduler.notifies first = false := by
  cases told : scheduler.notifies first with
  | false =>
    cases (scheduler.under change).notifies first with
    | false => exact .inl rfl
    | true => exact .inr ⟨rfl, rfl⟩
  | true =>
    left
    rcases eager scheduler.config.notifyPolicy with same | always
    · rw [← told]
      simp only [notifies, under, same]
    · simp only [notifies, under, always]

end LiveTree.Frame.Scheduler

namespace LiveTree.Session

open Awaiting LiveTree.Frame Settings

/-- A hosted scheduler whose notify policy has become another one. -/
def HostedScheduler.under (change : NotifyPolicy → NotifyPolicy) (hosted : HostedScheduler) :
    HostedScheduler :=
  { hosted with core := hosted.core.under change }

/-- Only the notify policy of one scheduler is different, and what has been logged before. -/
def Backdrop.policy (id : Nat) (change : NotifyPolicy → NotifyPolicy) (earlier : List Event) :
    Backdrop :=
  ⟨fun schedulers => schedulers.modify id (.under change), fun clocks => clocks, earlier⟩

/-- How the policy of a scheduler is different if that of another one is. -/
def changeAt (id : Nat) (change : NotifyPolicy → NotifyPolicy) (other : Nat) :
    NotifyPolicy → NotifyPolicy :=
  if id = other then change else fun policy => policy

section Parts

variable {id : Nat} {change : NotifyPolicy → NotifyPolicy} {earlier : List Event}

private theorem eager_changeAt (eager : Scheduler.Eager change) (other : Nat) :
    Scheduler.Eager (changeAt id change other) := by
  unfold changeAt
  split
  · exact eager
  · exact fun _ => .inl rfl

theorem getElem?_under (schedulers : Array HostedScheduler) (other : Nat) :
    (schedulers.modify id (.under change))[other]? =
      (schedulers[other]?).map (.under (changeAt id change other)) := by
  rw [Array.getElem?_modify, changeAt]
  split
  · rfl
  · cases schedulers[other]? <;> rfl

/-- Work on one scheduler and the change of a policy go past each other. -/
private theorem modify_under (schedulers : Array HostedScheduler) (other : Nat)
    {work later : HostedScheduler → HostedScheduler}
    (same : ∀ hosted, schedulers[other]? = some hosted →
      later (hosted.under (changeAt id change other)) =
        (work hosted).under (changeAt id change other)) :
    (schedulers.modify id (.under change)).modify other later =
      (schedulers.modify other work).modify id (.under change) := by
  refine Array.ext_getElem? fun index => ?_
  rw [getElem?_under, Array.getElem?_modify, getElem?_under, Array.getElem?_modify]
  split
  · next here =>
    subst here
    cases found : schedulers[other]? with
    | none => rfl
    | some hosted => exact congrArg some (same hosted found)
  · rfl

namespace Machine

variable {machine : Machine} {name : Name}

private theorem policy_setScheduler (machine : Machine) (other : Nat) (core : Scheduler Action) :
    (machine.amid (.policy id change earlier)).setScheduler other
        (core.under (changeAt id change other)) =
      (machine.setScheduler other core).amid (.policy id change earlier) := by
  have same : (machine.world.schedulers.modify id (.under change)).modify other
      (fun hosted => { hosted with core := core.under (changeAt id change other) }) =
        (machine.world.schedulers.modify other fun hosted => { hosted with core }).modify id
          (.under change) :=
    modify_under machine.world.schedulers other fun _ _ => rfl
  dsimp only [setScheduler, withWorld, amid, World.amid, Backdrop.policy]
  rw [same]

private theorem policy_onScheduler {work later : Nat → HostedScheduler → Machine}
    (same : ∀ other hosted, machine.world.schedulers[other]? = some hosted →
      later other (hosted.under (changeAt id change other)) =
        (work other hosted).amid (.policy id change earlier)) :
    (machine.amid (.policy id change earlier)).onScheduler name later =
      (machine.onScheduler name work).amid (.policy id change earlier) := by
  dsimp only [onScheduler, amid, World.amid, Backdrop.policy]
  cases machine.world.schedulerNames.get? name with
  | none => rfl
  | some other =>
    dsimp only
    rw [getElem?_under]
    cases found : machine.world.schedulers[other]? with
    | none => rfl
    | some hosted => exact same other hosted found

private theorem amid_onClock {work later : Nat → HostedClock → Machine}
    (same : ∀ other hosted, later other hosted =
      (work other hosted).amid (.policy id change earlier)) :
    (machine.amid (.policy id change earlier)).onClock name later =
      (machine.onClock name work).amid (.policy id change earlier) := by
  dsimp only [onClock, amid, World.amid, Backdrop.policy]
  cases machine.world.clockNames.get? name with
  | none => rfl
  | some other =>
    dsimp only
    cases machine.world.clocks[other]? with
    | none => rfl
    | some hosted => exact same other hosted

/-! ### What goes on as it would -/

private theorem policy_executeClock (command : ClockCommand Body) :
    (machine.amid (.policy id change earlier)).executeClock command =
      (machine.executeClock command).amid (.policy id change earlier) := by
  cases command with
  | create => rfl
  | share | describe | send | close => exact amid_onClock fun _ _ => rfl
  | register name item handle ticked refused =>
    refine amid_onClock fun other hosted => ?_
    cases hosted.core.awaiters.register ⟨item, ticked, refused⟩ with
    | error closed => rfl
    | ok registration =>
      dsimp only
      split <;> rfl

private theorem policy_continueClock (machine : Machine) (other : Nat) :
    (machine.amid (.policy id change earlier)).continueClock other =
      (machine.continueClock other).amid (.policy id change earlier) := by
  have clocks : (machine.amid (.policy id change earlier)).world.clocks = machine.world.clocks :=
    rfl
  unfold continueClock
  rw [clocks]
  cases machine.world.clocks[other]? with
  | none => rfl
  | some hosted =>
    dsimp only
    split
    · rfl
    · rfl
    · next tick served core _ =>
      have set : (machine.amid (.policy id change earlier)).setClock other core =
          (machine.setClock other core).amid (.policy id change earlier) := rfl
      rw [set]
      cases tick <;> rw [diagnoseTick, amid_diagnose, amid_pop, amid_reply, diagnoseTick]
    · rfl

private theorem policy_unwindClock (machine : Machine) (other : Nat) :
    (machine.amid (.policy id change earlier)).unwindClock other =
      (machine.unwindClock other).amid (.policy id change earlier) := by
  dsimp only [unwindClock, amid, World.amid, Backdrop.policy]
  cases machine.world.clocks[other]? <;> rfl

private theorem policy_withdraw (world : World) (source : QueueRef) (ticket : Ticket) :
    (world.amid (.policy id change earlier)).withdraw source ticket =
      (world.withdraw source ticket).amid (.policy id change earlier) := by
  cases source with
  | queue | clock => rfl
  | scheduler other =>
    let gone (hosted : HostedScheduler) : HostedScheduler :=
      { hosted with core := { hosted.core with queue := hosted.core.queue.withdraw ticket } }
    have same : (world.schedulers.modify id (.under change)).modify other gone =
        (world.schedulers.modify other gone).modify id (.under change) :=
      modify_under world.schedulers other fun _ _ => rfl
    exact congrArg (fun schedulers => { world with schedulers }) same

private theorem policy_cancel (machine : Machine) (handle : HandleId) :
    (machine.amid (.policy id change earlier)).cancel handle =
      (machine.cancel handle).amid (.policy id change earlier) := by
  have same : (machine.amid (.policy id change earlier)).world.handles = machine.world.handles :=
    rfl
  unfold cancel
  rw [same]
  rcases machine.world.handles.cancel handle with ⟨attempt, handles⟩
  dsimp only
  rcases attempt.action with - | ⟨⟩ | ⟨source, ticket⟩
  · rfl
  · rfl
  · exact congrArg
      (fun world => ((machine.amid (.policy id change earlier)).withWorld world).proceed)
      (policy_withdraw { machine.world with handles } source ticket)

private theorem policy_onHandle {work later : HandleId → Handle CancelAction → Machine}
    (same : ∀ number handle, later number handle =
      (work number handle).amid (.policy id change earlier)) :
    (machine.amid (.policy id change earlier)).onHandle name later =
      (machine.onHandle name work).amid (.policy id change earlier) := by
  dsimp only [onHandle, amid, World.amid, Backdrop.policy]
  cases machine.world.handleNames.get? name with
  | none => rfl
  | some number =>
    dsimp only
    cases machine.world.handles[number]? with
    | none => rfl
    | some handle => exact same number handle

private theorem policy_onGuard {work later : Guard → Machine}
    (same : ∀ guard, later guard = (work guard).amid (.policy id change earlier)) :
    (machine.amid (.policy id change earlier)).onGuard name later =
      (machine.onGuard name work).amid (.policy id change earlier) := by
  dsimp only [onGuard, amid, World.amid, Backdrop.policy]
  cases machine.world.guards.get? name with
  | none => rfl
  | some guard => exact same guard

private theorem policy_executeHandle (command : HandleCommand Body) :
    (machine.amid (.policy id change earlier)).executeHandle command =
      (machine.executeHandle command).amid (.policy id change earlier) := by
  cases command with
  | create | createIdle => rfl
  | share | describe => exact policy_onHandle fun _ _ => rfl
  | cancel =>
    exact policy_onHandle fun number handle =>
      policy_cancel (machine.push (.replying (.flag (!handle.cancelled)))) number
  | guard name guard =>
    refine policy_onHandle fun number _ => ?_
    have same : (machine.amid (.policy id change earlier)).world.guards = machine.world.guards :=
      rfl
    unfold storeGuard
    rw [same]
    cases machine.world.guards.get? guard with
    | none => rfl
    | some former =>
      let kept := machine.withWorld
        { machine.world with guards := machine.world.guards.set guard ⟨number⟩ }
      exact policy_cancel (kept.push (.replying .ok)) former.handle
  | disarm name handle =>
    refine policy_onGuard fun guard => ?_
    cases handle <;> rfl
  | release name =>
    exact policy_onGuard fun guard =>
      policy_cancel ((machine.removeGuard name).push (.replying .ok)) guard.handle
  | describeGuard =>
    refine policy_onGuard fun guard => ?_
    have same : (machine.amid (.policy id change earlier)).world.handles = machine.world.handles :=
      rfl
    rw [same]
    cases machine.world.handles[guard.handle]? <;> rfl

/-- No view shows the policy. -/
theorem policy_view (world : World) (kind : Kind) (name : Name) :
    (world.amid (.policy id change earlier)).view kind name = world.view kind name := by
  cases kind with
  | scheduler =>
    dsimp only [World.view, World.amid, Backdrop.policy]
    cases world.schedulerNames.get? name with
    | none => rfl
    | some other =>
      simp only [Option.bind_eq_bind, Option.bind_some, getElem?_under]
      cases world.schedulers[other]? <;> rfl
  | _ => rfl

private theorem policy_deliver (machine : Machine) (action : Action) (outcome : Outcome) :
    (machine.amid (.policy id change earlier)).deliver action outcome =
      (machine.deliver action outcome).amid (.policy id change earlier) := by
  unfold deliver
  split <;> split <;> rfl

private theorem policy_continueScheduler (machine : Machine) (other : Nat) :
    (machine.amid (.policy id change earlier)).continueScheduler other =
      (machine.continueScheduler other).amid (.policy id change earlier) := by
  have found? : (machine.amid (.policy id change earlier)).world.schedulers[other]? = _ :=
    getElem?_under machine.world.schedulers other
  unfold continueScheduler
  rw [found?]
  cases machine.world.schedulers[other]? with
  | none => rfl
  | some hosted =>
    have set (core : Scheduler Action) :
        (machine.amid (.policy id change earlier)).setScheduler other
            (core.under (changeAt id change other)) =
          (machine.setScheduler other core).amid (.policy id change earlier) :=
      policy_setScheduler machine other core
    have queue : (hosted.core.under (changeAt id change other)).queue = hosted.core.queue := rfl
    dsimp only [Option.map_some, HostedScheduler.under, Scheduler.turn]
    rw [queue]
    cases hosted.core.queue.turn with
    | handOver call action queue =>
      dsimp only
      rw [← policy_deliver, ← set]
      rfl
    | finished call served queue =>
      cases call with
      | completing frame failures =>
        dsimp only
        simp only [← amid_reply, ← amid_pop, ← amid_leave, ← amid_diagnoseAll, ← set]
        rfl
      | closing closed failures =>
        dsimp only
        simp only [← amid_reply, ← amid_pop, ← amid_diagnose, ← set]
        rfl
    | idle => rfl

private theorem policy_catchInScheduler (machine : Machine) (other : Nat) (reason : Panic) :
    (machine.amid (.policy id change earlier)).catchInScheduler other reason =
      (machine.catchInScheduler other reason).amid (.policy id change earlier) := by
  have found? : (machine.amid (.policy id change earlier)).world.schedulers[other]? = _ :=
    getElem?_under machine.world.schedulers other
  unfold catchInScheduler
  rw [found?]
  cases machine.world.schedulers[other]? with
  | none => rfl
  | some hosted =>
    have noted : (hosted.core.under (changeAt id change other)).noteFailure reason =
        (hosted.core.noteFailure reason).under (changeAt id change other) := rfl
    have inner : (hosted.core.under (changeAt id change other)).innermost? =
        hosted.core.innermost? := rfl
    dsimp only [Option.map_some, HostedScheduler.under]
    rw [noted, policy_setScheduler]
    have failures : (hosted.core.under (changeAt id change other)).config.failurePolicy =
        hosted.core.config.failurePolicy := rfl
    unfold diagnoseRefusedAction
    rw [inner, failures]
    cases hosted.core.innermost? with
    | none => rfl
    | some batch =>
      dsimp only
      split
      · rw [amid_diagnose, amid_proceed]
      · rfl

private theorem policy_createScheduler (known : id < machine.world.schedulers.size)
    (config : FrameConfig) (wake : Body) :
    (machine.amid (.policy id change earlier)).executeScheduler (.create name config wake) =
      (machine.executeScheduler (.create name config wake)).amid (.policy id change earlier) := by
  have size : (machine.world.schedulers.modify id (.under change)).size =
      machine.world.schedulers.size := Array.size_modify
  have pushed (hosted : HostedScheduler) :
      (machine.world.schedulers.modify id (.under change)).push hosted =
        (machine.world.schedulers.push hosted).modify id (.under change) := by
    refine Array.ext_getElem? fun index => ?_
    rw [Array.getElem?_push, Array.getElem?_modify, Array.getElem?_modify, Array.getElem?_push,
      size]
    split
    · next new => rw [if_neg (by omega)]
    · rfl
  dsimp only [executeScheduler, nameScheduler, withWorld, amid, World.amid, Backdrop.policy]
  rw [size, pushed]
  rfl

private theorem policy_completeFrame :
    (machine.amid (.policy id change earlier)).executeScheduler (.completeFrame name) =
      (machine.executeScheduler (.completeFrame name)).amid (.policy id change earlier) := by
  refine policy_onScheduler fun other hosted _ => ?_
  have queue : (hosted.under (changeAt id change other)).core.queue = hosted.core.queue := rfl
  by_cases closed : hosted.core.queue.isClosed = true
  · simp only [Scheduler.completeFrame, queue, if_pos closed]
    exact congrArg (·.reply (.frame { frame := hosted.core.framesCompleted }))
      (policy_setScheduler machine other { hosted.core with inFrame := false })
  · simp only [Scheduler.completeFrame, queue, if_neg closed]
    simp only [← amid_proceed, ← amid_push, ← amid_enter, ← policy_setScheduler]
    rfl

/-- An action is accepted or refused as it would be, and perhaps the host is now woken. -/
private theorem policy_schedule (eager : Scheduler.Eager change) (kept : Option Name)
    (action : Action) :
    (machine.amid (.policy id change earlier)).schedule name kept action =
        (machine.schedule name kept action).amid (.policy id change earlier) ∨
      ∃ hosted registration, machine.world.schedulerNames.get? name = some id ∧
        machine.world.schedulers[id]? = some hosted ∧
        hosted.core.queue.register action = .ok registration ∧
        hosted.core.notifies registration.first = false ∧
        (hosted.core.under change).notifies registration.first = true ∧
        (machine.amid (.policy id change earlier)).schedule name kept action =
          ((machine.schedule name kept action).amid (.policy id change earlier)).callBack
            (.woken hosted.name) hosted.wake := by
  have named? : (machine.amid (.policy id change earlier)).world.schedulerNames =
      machine.world.schedulerNames := rfl
  unfold schedule onScheduler
  rw [named?]
  cases named : machine.world.schedulerNames.get? name with
  | none => exact .inl rfl
  | some other =>
    have found? : (machine.amid (.policy id change earlier)).world.schedulers[other]? = _ :=
      getElem?_under machine.world.schedulers other
    dsimp only
    rw [found?]
    cases found : machine.world.schedulers[other]? with
    | none => exact .inl rfl
    | some hosted =>
      have queue : (hosted.under (changeAt id change other)).core.queue = hosted.core.queue := rfl
      dsimp only [Option.map_some, Scheduler.schedule]
      rw [queue]
      cases accepted : hosted.core.queue.register action with
      | error closed => exact .inl rfl
      | ok registration =>
        let base := (machine.setScheduler other
          { hosted.core with queue := registration.queue }).keepHandle (.scheduler other)
            registration.ticket kept
        have set : ((machine.amid (.policy id change earlier)).setScheduler other
            { (hosted.under (changeAt id change other)).core with
              queue := registration.queue }).keepHandle (.scheduler other) registration.ticket
                kept = base.amid (.policy id change earlier) :=
          congrArg (·.keepHandle (.scheduler other) registration.ticket kept)
            (policy_setScheduler machine other { hosted.core with queue := registration.queue })
        dsimp only
        rw [set]
        rcases Scheduler.notifies_under (eager_changeAt eager other) hosted.core
          registration.first with same | ⟨told, untold⟩
        · left
          have same : (hosted.under (changeAt id change other)).core.notifies registration.first =
            hosted.core.notifies registration.first := same
          rw [same]
          split <;> rfl
        · right
          have own : id = other := by
            refine Classical.byContradiction fun different => ?_
            rw [changeAt, if_neg different] at told
            cases told.symm.trans untold
          subst own
          rw [changeAt, if_pos rfl] at told
          have told' : (hosted.under (changeAt id change id)).core.notifies registration.first =
              true := by
            rw [changeAt, if_pos rfl]
            exact told
          refine ⟨hosted, registration, rfl, found, accepted, untold, told, ?_⟩
          rw [told', untold]
          rfl

/-- How the next step may be different: it is the same, or its answer is another text, or the host
is now woken of a registration of which it would not have been. -/
inductive Differs (machine : Machine) (id : Nat) (change : NotifyPolicy → NotifyPolicy)
    (earlier : List Event) : Machine → Prop
  | same : Differs machine id change earlier (machine.step.amid (.policy id change earlier))
  | text {one other : String} (step : machine.step = machine.reply (.text one)) :
      Differs machine id change earlier
        ((machine.reply (.text other)).amid (.policy id change earlier))
  | woken {hosted : HostedScheduler} {ticket : Ticket} {handle : HandleId} {callback : Callback}
      {first : Bool} (found : machine.world.schedulers[id]? = some hosted)
      (done : machine.deed? = some (.accepts (.scheduler id) ticket handle callback false))
      (untold : hosted.core.notifies first = false)
      (told : (hosted.core.under change).notifies first = true) :
      Differs machine id change earlier
        ((machine.step.amid (.policy id change earlier)).callBack (.woken hosted.name) hosted.wake)

private theorem Differs.of_eq {after : Machine}
    (same : after = machine.step.amid (.policy id change earlier)) :
    Differs machine id change earlier after := same ▸ .same

private theorem differs_schedule (eager : Scheduler.Eager change) {kept : Option Name}
    {action : Action} (step : machine.step = machine.schedule name kept action)
    (done : machine.deed? = (machine.world.schedulerNames.get? name).bind fun other =>
      machine.stage.accept? (.scheduler other) (.action action)) :
    Differs machine id change earlier
      ((machine.amid (.policy id change earlier)).schedule name kept action) := by
  rcases policy_schedule eager kept action with
    same | ⟨hosted, registration, named, found, accepted, untold, told, woken⟩
  · rw [← step] at same
    exact .of_eq same
  · have silent : machine.stage.hooks (.scheduler id) registration.first = false := by
      rw [Stage.hooks, phase?_scheduler found]
      exact untold
    have accepts : machine.stage.accept? (.scheduler id) (.action action) =
        some (.accepts (.scheduler id) registration.ticket machine.stage.handles.size
          (.action action) (machine.stage.hooks (.scheduler id) registration.first)) :=
      Stage.accept?_of_ok (awaiting_scheduler found) (Queue.register_map accepted)
    rw [woken, ← step]
    rw [named, Option.bind_some, accepts, silent] at done
    exact .woken found done untold told

private theorem differs_executeScheduler (eager : Scheduler.Eager change)
    (known : id < machine.world.schedulers.size) {command : SchedulerCommand Body}
    (control : machine.control = .execute (.scheduler command)) :
    Differs machine id change earlier
      ((machine.amid (.policy id change earlier)).executeScheduler command) := by
  have step : machine.step = machine.executeScheduler command := by
    simp only [Machine.step, control]
    rfl
  have done : machine.deed? = machine.started? (.scheduler command) := by
    simp only [deed?, control]
  cases command with
  | create => exact .of_eq ((policy_createScheduler known _ _).trans (congrArg _ step.symm))
  | share =>
    exact .of_eq ((policy_onScheduler fun _ _ _ => rfl).trans (congrArg _ step.symm))
  | startFrame =>
    refine .of_eq ((policy_onScheduler fun other hosted _ => ?_).trans (congrArg _ step.symm))
    exact congrArg (·.reply .ok) (policy_setScheduler machine other hosted.core.startFrame)
  | close _ reason =>
    refine .of_eq ((policy_onScheduler fun other hosted _ => ?_).trans (congrArg _ step.symm))
    exact congrArg (fun after => (after.push (.scheduler other)).proceed)
      (policy_setScheduler machine other (hosted.core.close ⟨reason⟩))
  | describe name =>
    have named? : (machine.amid (.policy id change earlier)).world.schedulerNames =
        machine.world.schedulerNames := rfl
    have found? (other : Nat) :
        (machine.amid (.policy id change earlier)).world.schedulers[other]? = _ :=
      getElem?_under machine.world.schedulers other
    dsimp only [executeScheduler, onScheduler] at step ⊢
    rw [named?]
    cases named : machine.world.schedulerNames.get? name with
    | none =>
      rw [named] at step
      exact .of_eq (congrArg (amid (.policy id change earlier)) step.symm)
    | some other =>
      rw [named] at step
      dsimp only at step ⊢
      rw [found?]
      cases found : machine.world.schedulers[other]? with
      | none =>
        rw [found] at step
        exact .of_eq (congrArg (amid (.policy id change earlier)) step.symm)
      | some hosted =>
        rw [found] at step
        exact .text step
  | completeFrame => exact .of_eq (policy_completeFrame.trans (congrArg _ step.symm))
  | schedulePlain | scheduleInformed => exact differs_schedule eager step done

/-- No step is different in another way. -/
theorem differs_step (eager : Scheduler.Eager change) (known : id < machine.world.schedulers.size) :
    Differs machine id change earlier (machine.amid (.policy id change earlier)).step := by
  by_cases bystands : machine.Bystands
  · exact .of_eq (amid_step bystands)
  · rcases machine with ⟨world, listener, log, stack, control⟩
    cases control with
    | execute command =>
      cases command with
      | inspect components =>
        refine .of_eq ?_
        have same : (world.amid (.policy id change earlier)).views components =
            world.views components :=
          List.map_congr_left fun _ _ => congrArg _ (policy_view ..)
        let other : Machine := ⟨world, listener, log, stack, .execute (.inspect components)⟩
        exact congrArg (fun views => (other.amid (.policy id change earlier)).reply (.views views))
          same
      | scheduler command => exact differs_executeScheduler eager known rfl
      | clock command => exact .of_eq (policy_executeClock command)
      | handle command => exact .of_eq (policy_executeHandle command)
      | _ => exact absurd trivial bystands
    | answer => exact absurd trivial bystands
    | proceed =>
      cases stack with
      | nil => exact absurd trivial bystands
      | cons call calls =>
        cases call with
        | scheduler other => exact .of_eq (policy_continueScheduler _ other)
        | clock other => exact .of_eq (policy_continueClock _ other)
        | _ => exact absurd trivial bystands
    | unwind reason =>
      cases stack with
      | nil => exact absurd trivial bystands
      | cons call calls =>
        cases call with
        | scheduler other => exact .of_eq (policy_catchInScheduler _ other reason)
        | clock other => exact .of_eq (policy_unwindClock _ other)
        | _ => exact absurd trivial bystands

end Machine

end Parts

end LiveTree.Session
