import LiveTree.Proofs.Session.MutedCommands

/-! Steps of muted machines. Diagnostics are produced in the middle of calls, where a delivery
skips an object, a frame or a pass ends, or a panic is caught; none of them changes how the call
goes on. So a whole step does the same whether the machine is muted before or after. -/
namespace LiveTree.Session

open Awaiting LiveTree.Frame

namespace Machine

section Calls

variable {switch : Switch} {earlier : List Event} (machine : Machine)

private theorem muted_continueQueue (id : Nat) :
    (machine.muted switch earlier).continueQueue id =
      (machine.continueQueue id).muted switch earlier := by
  unfold continueQueue
  rw [getElem?_queues_muted]
  cases machine.world.queues[id]? with
  | none =>
    dsimp only [Option.map_none]
    rw [muted_pop, muted_reply]
  | some queue =>
    dsimp only [Option.map_some]
    rw [Queue.turn_muted]
    cases queue.turn with
    | handOver delivery waiter queue =>
      cases delivery with
      | resume =>
        dsimp only [Turn.map, id_eq]
        rw [Queue.map_muted, muted_setQueue]
        exact muted_callBack _ rfl waiter.served
      | refuse closed =>
        dsimp only [Turn.map, id_eq]
        rw [Queue.map_muted, muted_setQueue]
        exact muted_callBack _ rfl waiter.refused
    | finished delivery served queue =>
      dsimp only [Turn.map, id_eq]
      rw [Queue.map_muted, muted_setQueue, muted_pop, muted_reply]
    | idle =>
      dsimp only [Turn.map, id_eq]
      rw [muted_pop, muted_reply]

private theorem muted_diagnoseTick (served : Nat) (tick : Tick) :
    (machine.muted switch earlier).diagnoseTick served tick =
      (machine.diagnoseTick served tick).muted switch earlier := by
  cases tick <;> exact muted_diagnose _ rfl

private theorem muted_continueClock (id : Nat) :
    (machine.muted switch earlier).continueClock id =
      (machine.continueClock id).muted switch earlier := by
  unfold continueClock
  rw [getElem?_clocks_muted]
  cases machine.world.clocks[id]? with
  | none =>
    dsimp only [Option.map_none]
    rw [muted_pop, muted_reply]
  | some hosted =>
    dsimp only [Option.map_some, HostedClock.muted, Clock.turn]
    rw [Queue.turn_muted]
    cases hosted.core.awaiters.turn with
    | handOver tick waiter queue =>
      cases tick with
      | frame time =>
        dsimp only [Turn.map, id_eq]
        rw [Queue.map_muted, muted_setClock]
        exact muted_callBack _ rfl waiter.served
      | closed closed =>
        dsimp only [Turn.map, id_eq]
        rw [Queue.map_muted, muted_setClock]
        exact muted_callBack _ rfl waiter.refused
    | finished tick served queue =>
      dsimp only [Turn.map, id_eq]
      rw [Queue.map_muted, muted_setClock, muted_diagnoseTick, muted_pop, muted_reply]
    | idle =>
      dsimp only [Turn.map, id_eq]
      rw [muted_pop, muted_reply]

private theorem muted_deliver (action : Action) (outcome : Outcome) :
    (machine.muted switch earlier).deliver action.muted outcome =
      (machine.deliver action outcome).muted switch earlier := by
  rcases action with ⟨item, completed, _ | refused⟩
  · cases outcome with
    | completed => exact muted_callBack machine rfl completed
    | closed => rfl
  · cases outcome with
    | completed => exact muted_callBack machine rfl completed
    | closed => exact muted_callBack machine rfl refused

/-- A silent scheduler reports a frame without the warnings of panics. -/
private theorem diagnostics_silent (report : Report) (policy : Settings.FailurePolicy) :
    report.diagnostics .silent =
      (report.diagnostics policy).filter fun diagnostic => !diagnostic.warnsOfPanic := by
  have lost : (report.failures.map (.actionPanicked report.frame)).filter
      (fun diagnostic => !Diagnostic.warnsOfPanic diagnostic) = [] := by
    refine List.filter_eq_nil_iff.mpr fun diagnostic member => ?_
    obtain ⟨failure, -, rfl⟩ := List.mem_map.mp member
    exact Bool.false_ne_true
  cases policy with
  | logAndContinue =>
    rw [Report.diagnostics, Report.diagnostics, List.filter_append, lost]
    rfl
  | silent => rfl

private theorem muted_continueScheduler (id : Nat) :
    (machine.muted switch earlier).continueScheduler id =
      (machine.continueScheduler id).muted switch earlier := by
  unfold continueScheduler
  rw [getElem?_schedulers_muted]
  cases machine.world.schedulers[id]? with
  | none =>
    dsimp only [Option.map_none]
    rw [muted_pop, muted_reply]
  | some hosted =>
    have set (queue : Queue Action Frame.Call) : (machine.muted switch earlier).setScheduler id
        { hosted.core.muted with queue := queue.map .muted _ } =
          (machine.setScheduler id { hosted.core with queue }).muted switch earlier :=
      muted_setScheduler machine id { hosted.core with queue }
    have turn : hosted.core.muted.queue.turn = hosted.core.queue.turn.map .muted _ :=
      hosted.core.queue.turn_map
    dsimp only [Option.map_some, HostedScheduler.muted, Scheduler.turn]
    rw [turn]
    cases hosted.core.queue.turn with
    | handOver call action queue =>
      dsimp only [Turn.map, id_eq]
      rw [set]
      exact muted_deliver _ action call.outcome
    | finished call served queue =>
      cases call with
      | completing frame failures =>
        dsimp only [Turn.map, id_eq]
        rw [set, ← muted_reply, ← muted_pop, ← muted_leave, ← muted_diagnoseAll,
          ← diagnostics_silent]
        rfl
      | closing closed failures =>
        dsimp only [Turn.map, id_eq]
        rw [set, muted_diagnose _ rfl, muted_pop, muted_reply]
    | idle =>
      dsimp only [Turn.map, id_eq]
      rw [muted_pop, muted_reply]

private theorem muted_catchInScheduler (id : Nat) (reason : Panic) :
    (machine.muted switch earlier).catchInScheduler id reason =
      (machine.catchInScheduler id reason).muted switch earlier := by
  unfold catchInScheduler
  rw [getElem?_schedulers_muted]
  cases machine.world.schedulers[id]? with
  | none => rfl
  | some hosted =>
    have noted : hosted.core.muted.noteFailure reason = (hosted.core.noteFailure reason).muted := by
      simp only [Scheduler.noteFailure, Scheduler.muted, Queue.revise_map_id]
    have silent (other : Machine) :
        other.diagnoseRefusedAction hosted.core.muted reason = other := by
      unfold diagnoseRefusedAction
      cases hosted.core.muted.innermost? with
      | none => rfl
      | some batch => exact if_neg (by simp [Scheduler.muted, Settings.FrameConfig.muted])
    have warned (other : Machine) :
        (other.diagnoseRefusedAction hosted.core reason).muted switch earlier =
          other.muted switch earlier := by
      unfold diagnoseRefusedAction
      cases hosted.core.innermost? with
      | none => rfl
      | some batch =>
        dsimp only
        split
        · exact muted_diagnose_of_warns other rfl
        · rfl
    dsimp only [Option.map_some, HostedScheduler.muted]
    rw [noted, muted_setScheduler, silent, ← muted_proceed, warned]

private theorem muted_finishPass (call : PassCall) (pass : Relocation.Pass String Int)
    (disposed : List String) (drain : Lifecycle.Drain) :
    (machine.muted switch earlier).finishPass call.muted pass disposed drain =
      (machine.finishPass call pass disposed drain).muted switch earlier := by
  have viewed (other : Machine) (outcome : Relocation.PassOutcome String Int) :
      viewOutcome (other.muted switch earlier).world outcome = viewOutcome other.world outcome := by
    simp only [viewOutcome, viewEntry_muted]
  unfold finishPass
  dsimp only [PassCall.muted]
  rw [muted_diagnose _ rfl, muted_leave, viewed, muted_storePlaced, muted_storePlaced, muted_pop,
    muted_giveBack]
  rfl

private theorem plain_lifecycle_diagnostics (report : Lifecycle.Report) :
    ∀ diagnostic ∈ report.diagnostics, diagnostic.warnsOfPanic = false := by
  intro diagnostic member
  rcases List.mem_append.mp member with skipped | dispatched
  · obtain ⟨illegal, -, rfl⟩ := List.mem_map.mp skipped
    rfl
  · rw [List.mem_singleton.mp dispatched]
    rfl

private theorem muted_finishDrain (owner : DrainOwner) (drain : Lifecycle.Drain) :
    (machine.muted switch earlier).finishDrain owner.muted drain =
      (machine.finishDrain owner drain).muted switch earlier := by
  have reported : (machine.muted switch earlier).diagnoseAll drain.report.diagnostics = _ :=
    muted_diagnoseAll_of_plain machine (plain_lifecycle_diagnostics drain.report)
  unfold finishDrain
  rw [reported]
  cases owner with
  | dispatcher | discardedPool =>
    simp only [DrainOwner.muted, muted_setDispatcher, muted_pop, muted_reply, muted_discardBatch]
  | pool => simp only [DrainOwner.muted, muted_pop, muted_giveBack]
  | pass => simp only [DrainOwner.muted, muted_finishPass]

private theorem muted_continueDrain (owner : DrainOwner) (drain : Lifecycle.Drain) :
    (machine.muted switch earlier).continueDrain owner.muted drain =
      (machine.continueDrain owner drain).muted switch earlier := by
  unfold continueDrain
  cases drain.step with
  | attempt object target drain =>
    refine machine.muted_advance object target (fun illegal => ?_) fun moved => ?_
    · exact congrArg proceed (machine.muted_become (.draining owner (drain.refused illegal)))
    · exact moved.muted_become (.draining owner drain.delivered)
  | nextList drain => exact congrArg proceed (machine.muted_become (.draining owner drain))
  | finished => exact machine.muted_finishDrain owner drain

private theorem muted_continueRetirement (delivery : Lifecycle.Retirement) (counted : Bool) :
    (machine.muted switch earlier).continueRetirement delivery counted =
      (machine.continueRetirement delivery counted).muted switch earlier := by
  unfold continueRetirement
  cases delivery.next? with
  | none =>
    rw [muted_pop]
    cases counted <;> rfl
  | some next =>
    refine machine.muted_advance next.1 .retired (fun illegal => ?_) fun moved => ?_
    · have plain : (Diagnostic.retirementSkipped illegal).warnsOfPanic = false := rfl
      have retiring : (machine.muted switch earlier).become (.retiring next.2 counted) = _ :=
        machine.muted_become (.retiring next.2 counted)
      rw [retiring, muted_diagnose _ plain, muted_proceed]
    · exact moved.muted_become (.retiring next.2.delivered counted)

private theorem muted_continueMatching (call : PassCall) (pass : Relocation.Pass String Int) :
    (machine.muted switch earlier).continueMatching call.muted pass =
      (machine.continueMatching call pass).muted switch earlier := by
  unfold continueMatching
  cases pass.step with
  | matched _ claimed later =>
    dsimp only
    rw [← muted_proceed, ← muted_diagnose _ rfl, ← muted_become]
    rfl
  | unmatched request later =>
    rcases call with ⟨pool, number, _ | insertions, label, described⟩
    · dsimp only [PassCall.muted, mutedInsertions?]
      rw [← muted_proceed, ← muted_become]
      rfl
    · dsimp only [PassCall.muted, mutedInsertions?]
      rw [mutedInsertions_tail, mutedInsertions_head, Insertion.body_muted,
        Insertion.objects_muted, ← muted_callBack _ rfl, ← muted_become]
      rfl
  | settled =>
    dsimp only
    rw [← muted_proceed, ← muted_become, ← muted_diagnoseDisposal]
    rfl

private theorem muted_continueInserting (call : PassCall) (pass : Relocation.Pass String Int)
    (request : Relocation.Request Int) (objects : List Name) :
    (machine.muted switch earlier).continueInserting call.muted pass request objects =
      (machine.continueInserting call pass request objects).muted switch earlier := by
  unfold continueInserting
  rw [resolveObjects_muted]
  dsimp only
  rw [muted_withWorld, ← muted_proceed, ← muted_diagnose _ rfl, ← muted_become]
  rfl

private theorem muted_finishRegistration (handle : HandleId) (name : Option Name) :
    (machine.muted switch earlier).finishRegistration handle name =
      (machine.finishRegistration handle name).muted switch earlier := by
  cases name <;> rfl

private theorem muted_resume (call : Call) :
    (machine.muted switch earlier).resume call.muted =
      (machine.resume call).muted switch earlier := by
  cases call with
  | body rest =>
    cases rest with
    | nil => exact machine.muted_pop
    | cons command rest =>
      exact congrArg (fun later => { later with control := .execute command.muted })
        (machine.muted_become (.body rest))
  | iterating left rest =>
    cases left with
    | zero => exact congrArg (·.reply .ok) machine.muted_pop
    | succ left =>
      exact congrArg (·.run (mutedBody rest)) (machine.muted_become (.iterating left rest))
  | replying answer => exact congrArg (·.reply answer) machine.muted_pop
  | unwinding reason => exact congrArg (·.unwind reason) machine.muted_pop
  | holding pool answer =>
    exact (congrArg (·.release pool (.ok answer)) machine.muted_pop).trans
      (machine.pop.muted_release _ _)
  | registering handle name =>
    exact (congrArg (·.finishRegistration handle name) machine.muted_pop).trans
      (machine.pop.muted_finishRegistration handle name)
  | queue => exact machine.muted_continueQueue _
  | scheduler => exact machine.muted_continueScheduler _
  | clock => exact machine.muted_continueClock _
  | draining => exact machine.muted_continueDrain _ _
  | retiring => exact machine.muted_continueRetirement _ _
  | matching => exact machine.muted_continueMatching _ _
  | inserting => exact machine.muted_continueInserting _ _ _ _

private theorem muted_unwindMatching (call : PassCall) (pass : Relocation.Pass String Int)
    (reason : Panic) :
    (machine.muted switch earlier).unwindMatching call.muted pass reason =
      (machine.unwindMatching call pass reason).muted switch earlier := by
  unfold unwindMatching
  dsimp only [PassCall.muted]
  rw [muted_leave, muted_pop, muted_giveBack]

private theorem muted_unwindDrain (owner : DrainOwner) (drain : Lifecycle.Drain) (reason : Panic) :
    (machine.muted switch earlier).unwindDrain owner.muted drain reason =
      (machine.unwindDrain owner drain reason).muted switch earlier := by
  cases owner with
  | dispatcher | discardedPool => simp only [unwindDrain, DrainOwner.muted, muted_setDispatcher,
      muted_pop]
  | pool => simp only [unwindDrain, DrainOwner.muted, muted_pop, muted_giveBack]
  | pass => simp only [unwindDrain, DrainOwner.muted, PassCall.muted, muted_leave, muted_pop,
      muted_giveBack]

private theorem muted_unwindQueue (id : Nat) :
    (machine.muted switch earlier).unwindQueue id =
      (machine.unwindQueue id).muted switch earlier := by
  unfold unwindQueue
  rw [getElem?_queues_muted]
  cases machine.world.queues[id]? with
  | none => exact machine.muted_pop
  | some queue =>
    have abandoned : queue.muted.abandon = queue.abandon.muted := queue.map_abandon.symm
    dsimp only [Option.map_some]
    rw [abandoned, muted_setQueue, muted_pop]

private theorem muted_unwindClock (id : Nat) :
    (machine.muted switch earlier).unwindClock id =
      (machine.unwindClock id).muted switch earlier := by
  unfold unwindClock
  rw [getElem?_clocks_muted]
  cases machine.world.clocks[id]? with
  | none => exact machine.muted_pop
  | some hosted =>
    have abandoned : hosted.core.awaiters.muted.abandon = hosted.core.awaiters.abandon.muted :=
      hosted.core.awaiters.map_abandon.symm
    dsimp only [Option.map_some, HostedClock.muted, Clock.abandon]
    rw [abandoned, muted_setClock, muted_pop]

private theorem muted_unwindCall (reason : Panic) (call : Call) :
    (machine.muted switch earlier).unwindCall reason call.muted =
      (machine.unwindCall reason call).muted switch earlier := by
  cases call with
  | body | iterating | replying | unwinding | registering | retiring => exact machine.muted_pop
  | holding pool =>
    exact (congrArg (·.release pool (.error reason)) machine.muted_pop).trans
      (machine.pop.muted_release _ _)
  | queue => exact machine.muted_unwindQueue _
  | scheduler => exact machine.muted_catchInScheduler _ reason
  | clock => exact machine.muted_unwindClock _
  | draining => exact machine.muted_unwindDrain _ _ reason
  | matching | inserting => exact machine.muted_unwindMatching _ _ reason

end Calls

variable {switch : Switch} {earlier : List Event} {machine : Machine}

/-- A step is the same for a muted machine, unless it answers with the policy of a scheduler. -/
theorem muted_step
    (hides : ∀ command, machine.control = .execute command → ¬ command.ShowsPolicy) :
    (machine.muted switch earlier).step = machine.step.muted switch earlier := by
  rcases machine with ⟨world, listener, log, stack, control⟩
  cases control with
  | execute command => exact muted_execute (hides command rfl)
  | answer answer =>
    cases stack with
    | nil => rfl
    | cons call calls => cases call <;> rfl
  | proceed =>
    cases stack with
    | nil => rfl
    | cons call calls => exact muted_resume _ call
  | unwind reason =>
    cases stack with
    | nil => rfl
    | cons call calls => exact muted_unwindCall _ reason call

end Machine

end LiveTree.Session
