import LiveTree.Proofs.Session.Acting

/-! What a call does on the stage when it goes on, and when a panic leaves it. With the commands
that start, this makes every step of the machine one step on its stage. -/
namespace LiveTree.Session

open Awaiting LiveTree.Frame
open Lifecycle (ObjectId Registry)

namespace Machine

variable {machine : Machine}

/-! ### Calls that hand awaiters over -/

section Serving

variable {α ρ : Type} {source : QueueRef} {queue : Queue α ρ} {value : α → Callback}
  {purpose : ρ → Delivery} {calls : List QueueRef} {after : Machine}

/-- A call that hands awaiters over goes on with the next one, or it ends. -/
private theorem step_turn (seen : machine.stage.awaiting source = some (queue.map value purpose))
    (innermost : machine.stage.serving = source :: calls) (busy : queue.running ≠ [])
    (handedOver : ∀ reason item later, queue.turn = .handOver reason item later →
      after.stage = machine.stage.setQueue source (later.map value purpose))
    (finished : ∀ reason served later, queue.turn = .finished reason served later →
      after.stage =
        { machine.stage.setQueue source (later.map value purpose) with serving := calls }) :
    machine.stage.Step (machine.stage.turn? source) after.stage := by
  obtain ⟨batch, outer, running⟩ := List.exists_cons_of_ne_nil busy
  have runningSeen : (queue.map value purpose).running = _ := Queue.running_map_of_cons running
  rcases Stage.turn?_cases_of_running seen running with
    ⟨skipped, ticket, item, rest, split, passed, waiting, turn, deed⟩ | ⟨passed, turn, deed⟩
  · have seenAfter : (queue.handOver ticket batch rest outer).map value purpose =
        (queue.map value purpose).handOver ticket (batch.map purpose) rest
          (outer.map (·.map purpose)) := by
      unfold Queue.handOver
      rw [← Queue.map_settle]
      rfl
    rw [handedOver _ _ _ turn, deed, seenAfter]
    refine .serves seen innermost runningSeen split ?_ ?_
    · intro other member
      rw [Queue.fate?_map]
      exact passed other member
    · simp [Queue.map, waiting, Awaiter.map]
  · rw [finished _ _ _ turn, deed]
    refine .finishes seen innermost runningSeen ?_
    intro other member
    rw [Queue.fate?_map]
    exact passed other member

/-- A panic leaves such a call, and what still waits in its batch is lost. -/
private theorem step_giveUp (seen : machine.stage.awaiting source = some (queue.map value purpose))
    (innermost : machine.stage.serving = source :: calls) (busy : queue.running ≠ [])
    (free : ∀ id, source ≠ .scheduler id)
    (given : after.stage =
      { machine.stage.setQueue source (queue.abandon.map value purpose) with serving := calls }) :
    machine.stage.Step (machine.stage.giveUp? source) after.stage := by
  obtain ⟨batch, outer, running⟩ := List.exists_cons_of_ne_nil busy
  have runningSeen : (queue.map value purpose).running = _ := Queue.running_map_of_cons running
  have deed : machine.stage.giveUp? source =
      some (.loses source (Stage.waitingAmong (queue.map value purpose) batch.rest)) := by
    cases source with
    | scheduler id => exact absurd rfl (free id)
    | queue | clock =>
      simp only [Stage.giveUp?, seen, runningSeen]
      rfl
  rw [given, deed, Queue.map_abandon]
  exact .loses seen innermost runningSeen free

end Serving

/-! ### Calls that go on -/

section Resuming

variable {call : Call} {calls : List Call} (stack : machine.stack = call :: calls)
include stack

/-- The call that is innermost among those that hand awaiters over. -/
theorem serving_of_source {source : QueueRef} (serves : call.source? = some source) :
    machine.stage.serving = source :: calls.filterMap Call.source? := by
  simp [stage, stack, serves]

end Resuming

/-- Whatever call it is, it ends. -/
private theorem stage_popped (machine : Machine) :
    machine.pop.stage =
      { machine.stage with serving := machine.stack.tail.filterMap Call.source? } := rfl

private theorem stack_setQueue (id : Nat) (queue : Queue Waiter Delivery) :
    (machine.setQueue id queue).stack = machine.stack := rfl

private theorem stack_setScheduler (id : Nat) (core : Scheduler Action) :
    (machine.setScheduler id core).stack = machine.stack := rfl

private theorem stack_setClock (id : Nat) (core : Clock Waiter) :
    (machine.setClock id core).stack = machine.stack := rfl

/-- Whoever hands awaiters over has a batch of them. -/
theorem busy_of_attended (attended : machine.stage.Attended) {source : QueueRef}
    {calls : List QueueRef} (innermost : machine.stage.serving = source :: calls) :
    ∃ queue, machine.stage.awaiting source = some queue ∧ queue.running ≠ [] := by
  have count := attended source
  rw [innermost, List.count_cons_self] at count
  cases found : machine.stage.awaiting source with
  | none => simp [found] at count
  | some queue =>
    refine ⟨queue, rfl, ?_⟩
    rintro idle
    simp [found, idle] at count

private theorem step_continueQueue {id : Nat} {calls : List Call}
    (stack : machine.stack = .queue id :: calls) (attended : machine.stage.Attended) :
    machine.stage.Step (machine.stage.turn? (.queue id)) (machine.continueQueue id).stage := by
  have innermost := serving_of_source stack rfl
  obtain ⟨seen, awaits, busy⟩ := busy_of_attended attended innermost
  cases found : machine.world.queues[id]? with
  | none => simp [stage, World.awaiting, found] at awaits
  | some queue =>
    have awaits' := awaiting_queue found
    obtain rfl : queue.map .waiter (fun delivery => delivery) = seen :=
      Option.some.inj (awaits'.symm.trans awaits)
    refine step_turn awaits innermost (by simpa [Queue.map] using busy) ?_ ?_
    · intro reason item later turn
      rw [← stage_setQueue found]
      cases reason <;> simp [continueQueue, found, turn]
    · intro reason served later turn
      rw [← stage_setQueue found]
      simp only [continueQueue, found, turn, stage_reply]
      rw [stage_popped, stack_setQueue, stack, List.tail_cons]

private theorem step_continueScheduler {id : Nat} {calls : List Call}
    (stack : machine.stack = .scheduler id :: calls) (attended : machine.stage.Attended) :
    machine.stage.Step (machine.stage.turn? (.scheduler id))
      (machine.continueScheduler id).stage := by
  have innermost := serving_of_source stack rfl
  obtain ⟨seen, awaits, busy⟩ := busy_of_attended attended innermost
  cases found : machine.world.schedulers[id]? with
  | none => simp [stage, World.awaiting, found] at awaits
  | some hosted =>
    have awaits' := awaiting_scheduler found
    obtain rfl : hosted.core.queue.map .action Frame.Call.delivery = seen :=
      Option.some.inj (awaits'.symm.trans awaits)
    refine step_turn awaits innermost (by simpa [Queue.map] using busy) ?_ ?_
    · intro call action later turn
      have given : hosted.core.turn =
          .handOver call.outcome action { hosted.core with queue := later } := by
        simp [Scheduler.turn, turn]
      rw [← stage_setScheduler_of_phase found { hosted.core with queue := later } rfl]
      simp only [continueScheduler, found, given, stage_deliver]
    · intro call served later turn
      rw [← stage_setScheduler_of_phase found { hosted.core with queue := later } rfl]
      cases call with
      | completing frame failures =>
        have given : hosted.core.turn =
            .completed { frame, dispatched := served, failures }
              { hosted.core with queue := later } := by
          simp [Scheduler.turn, turn]
        simp only [continueScheduler, found, given, stage_reply]
        rw [stage_popped, stage_leave, stage_diagnoseAll, stack_leave, stack_diagnoseAll,
          stack_setScheduler, stack, List.tail_cons]
      | closing reason failures =>
        have given : hosted.core.turn = .closed served { hosted.core with queue := later } := by
          simp [Scheduler.turn, turn]
        simp only [continueScheduler, found, given, stage_reply]
        rw [stage_popped, stage_diagnose, stack_diagnose, stack_setScheduler, stack,
          List.tail_cons]

private theorem step_continueClock {id : Nat} {calls : List Call}
    (stack : machine.stack = .clock id :: calls) (attended : machine.stage.Attended) :
    machine.stage.Step (machine.stage.turn? (.clock id)) (machine.continueClock id).stage := by
  have innermost := serving_of_source stack rfl
  obtain ⟨seen, awaits, busy⟩ := busy_of_attended attended innermost
  cases found : machine.world.clocks[id]? with
  | none => simp [stage, World.awaiting, found] at awaits
  | some hosted =>
    have awaits' := awaiting_clock found
    obtain rfl : hosted.core.awaiters.map .waiter Tick.delivery = seen :=
      Option.some.inj (awaits'.symm.trans awaits)
    refine step_turn awaits innermost (by simpa [Queue.map] using busy) ?_ ?_
    · intro tick waiter later turn
      have given : hosted.core.turn = .handOver tick waiter ⟨later⟩ := by
        simp [Clock.turn, turn]
      rw [← stage_setClock found ⟨later⟩]
      cases tick <;> simp [continueClock, found, given]
    · intro tick served later turn
      have given : hosted.core.turn = .finished tick served ⟨later⟩ := by
        simp [Clock.turn, turn]
      rw [← stage_setClock found ⟨later⟩]
      rw [continueClock]
      simp only [found, given]
      cases tick <;>
        rw [diagnoseTick, stage_reply, stage_popped, stage_diagnose, stack_diagnose,
          stack_setClock, stack, List.tail_cons]

/-! ### Calls that hand nobody over -/

section Idle

variable {call : Call} {calls : List Call} (stack : machine.stack = call :: calls)
  (idle : call.source? = none)
include stack idle

private theorem stage_finishPass {passCall : PassCall} {pass : Relocation.Pass String Int}
    {disposed : List String} {drain : Lifecycle.Drain} :
    (machine.finishPass passCall pass disposed drain).stage = machine.stage := by
  unfold finishPass
  dsimp only
  rw [stage_giveBack, stage_pop _ (by simpa using stack) idle]
  simp

private theorem stage_finishDrain {owner : DrainOwner} {drain : Lifecycle.Drain} :
    (machine.finishDrain owner drain).stage = machine.stage := by
  have logged : (machine.diagnoseAll drain.report.diagnostics).stack = call :: calls := by
    rw [stack_diagnoseAll, stack]
  cases owner with
  | dispatcher id =>
    rw [finishDrain, stage_reply, stage_pop (setDispatcher _ id _) logged idle,
      stage_setDispatcher, stage_diagnoseAll]
  | pool id pool =>
    rw [finishDrain, stage_giveBack, stage_pop _ logged idle, stage_diagnoseAll]
  | pass passCall pass disposed =>
    rw [finishDrain, stage_finishPass logged idle, stage_diagnoseAll]
  | discardedPool =>
    rw [finishDrain, stage_discardBatch, stage_pop _ logged idle, stage_diagnoseAll]

private theorem stage_unwindDrain {owner : DrainOwner} {drain : Lifecycle.Drain} {reason : Panic} :
    (machine.unwindDrain owner drain reason).stage = machine.stage := by
  cases owner with
  | dispatcher id =>
    rw [unwindDrain, stage_pop (machine.setDispatcher id _) stack idle, stage_setDispatcher]
  | pool id pool => rw [unwindDrain, stage_giveBack, stage_pop _ stack idle]
  | pass passCall pass disposed =>
    rw [unwindDrain, stage_giveBack, stage_pop _ (by simpa using stack) idle, stage_leave]
  | discardedPool => rw [unwindDrain, stage_pop _ stack idle]

private theorem stage_unwindMatching {passCall : PassCall} {pass : Relocation.Pass String Int}
    {reason : Panic} : (machine.unwindMatching passCall pass reason).stage = machine.stage := by
  rw [unwindMatching, stage_giveBack, stage_pop _ (by simpa using stack) idle, stage_leave]

end Idle

private theorem step_continueDrain {owner : DrainOwner} {drain : Lifecycle.Drain}
    {calls : List Call} (stack : machine.stack = .draining owner drain :: calls) :
    machine.stage.Step (machine.continued? (.draining owner drain))
      (machine.continueDrain owner drain).stage := by
  simp only [continueDrain, continued?]
  cases drain.step with
  | attempt object target drain =>
    refine step_advance (fun illegal => ?_) fun moved same => ?_
    · rw [stage_proceed, stage_become _ stack rfl rfl]
    · rw [stage_become _ (same.trans stack) rfl rfl]
  | nextList drain =>
    apply step_of_stage_eq
    rw [stage_proceed, stage_become _ stack rfl rfl]
  | finished => exact step_of_stage_eq (stage_finishDrain stack rfl)

private theorem step_continueRetirement {delivery : Lifecycle.Retirement} {counted : Bool}
    {calls : List Call} (stack : machine.stack = .retiring delivery counted :: calls) :
    machine.stage.Step (machine.continued? (.retiring delivery counted))
      (machine.continueRetirement delivery counted).stage := by
  simp only [continueRetirement, continued?]
  cases delivery.next? with
  | none =>
    refine step_of_stage_eq ?_
    dsimp only
    split
    · rw [stage_reply, stage_pop _ stack rfl]
    · rw [stage_proceed, stage_pop _ stack rfl]
  | some next =>
    refine step_advance (fun illegal => ?_) fun moved same => ?_
    · rw [stage_proceed, stage_diagnose, stage_become _ stack rfl rfl]
    · rw [stage_become _ (same.trans stack) rfl rfl]

private theorem stage_continueMatching {call : PassCall} {pass : Relocation.Pass String Int}
    {calls : List Call} (stack : machine.stack = .matching call pass :: calls) :
    (machine.continueMatching call pass).stage = machine.stage := by
  unfold continueMatching
  split
  · rw [stage_proceed, stage_diagnose, stage_become _ stack rfl rfl]
  · split
    · rw [stage_proceed, stage_become _ stack rfl rfl]
    · dsimp only
      rw [stage_callBack, stage_become _ stack rfl rfl]
  · dsimp only
    unfold diagnoseDisposal
    rw [stage_proceed, stage_become _ ((stack_diagnoseAll _ _).trans stack) rfl rfl,
      stage_diagnoseAll]

private theorem step_continueInserting {call : PassCall} {pass : Relocation.Pass String Int}
    {request : Relocation.Request Int} {objects : List Name} {calls : List Call}
    (stack : machine.stack = .inserting call pass request objects :: calls) :
    machine.stage.Step none (machine.continueInserting call pass request objects).stage := by
  refine step_resolved objects ?_
  unfold continueInserting
  dsimp only
  rw [stage_proceed, stage_diagnose]
  exact stage_become (machine.withWorld _) stack rfl rfl

/-! ### Every step -/

private theorem step_resume {call : Call} {calls : List Call}
    (stack : machine.stack = call :: calls) (attended : machine.stage.Attended) :
    machine.stage.Step (machine.continued? call) (machine.resume call).stage := by
  cases call with
  | body rest =>
    apply step_of_stage_eq
    cases rest with
    | nil => exact stage_pop _ stack rfl
    | cons command rest => exact stage_become _ stack rfl rfl
  | iterating left body =>
    apply step_of_stage_eq
    cases left with
    | zero => exact stage_pop _ stack rfl
    | succ left => exact (stage_run _ body).trans (stage_become _ stack rfl rfl)
  | replying answer => exact step_of_stage_eq (stage_pop _ stack rfl)
  | unwinding reason => exact step_of_stage_eq (stage_pop _ stack rfl)
  | holding pool answer =>
    exact step_of_stage_eq ((stage_release _ pool _).trans (stage_pop _ stack rfl))
  | registering handle name =>
    apply step_of_stage_eq
    cases name <;> exact stage_pop _ stack rfl
  | queue id => exact step_continueQueue stack attended
  | scheduler id => exact step_continueScheduler stack attended
  | clock id => exact step_continueClock stack attended
  | draining owner drain => exact step_continueDrain stack
  | retiring delivery counted => exact step_continueRetirement stack
  | matching call pass => exact step_of_stage_eq (stage_continueMatching stack)
  | inserting call pass request objects => exact step_continueInserting stack

/-- A scheduler that catches a panic is not seen to change. -/
theorem stage_catchInScheduler (id : Nat) (reason : Panic) :
    (machine.catchInScheduler id reason).stage = machine.stage := by
  unfold catchInScheduler
  cases found : machine.world.schedulers[id]? with
  | none => rfl
  | some hosted =>
    have noted : (machine.setScheduler id (hosted.core.noteFailure reason)).stage =
        machine.stage := by
      rw [stage_setScheduler_of_phase found (hosted.core.noteFailure reason) rfl]
      have same : (hosted.core.noteFailure reason).queue.map Callback.action Frame.Call.delivery =
          hosted.core.queue.map Callback.action Frame.Call.delivery := by
        refine Queue.map_revise _ fun batch => ?_
        cases batch.purpose <;> rfl
      rw [same]
      exact Stage.setQueue_self (awaiting_scheduler found)
    dsimp only
    unfold diagnoseRefusedAction
    split
    · exact noted
    · split
      · rw [stage_proceed, stage_diagnose, noted]
      · exact noted

private theorem step_unwindQueue {id : Nat} {calls : List Call}
    (stack : machine.stack = .queue id :: calls) (attended : machine.stage.Attended) :
    machine.stage.Step (machine.stage.giveUp? (.queue id)) (machine.unwindQueue id).stage := by
  have innermost := serving_of_source stack rfl
  obtain ⟨seen, awaits, busy⟩ := busy_of_attended attended innermost
  cases found : machine.world.queues[id]? with
  | none => simp [stage, World.awaiting, found] at awaits
  | some queue =>
    have awaits' := awaiting_queue found
    obtain rfl : queue.map .waiter (fun delivery => delivery) = seen :=
      Option.some.inj (awaits'.symm.trans awaits)
    refine step_giveUp awaits innermost (by simpa [Queue.map] using busy)
      (fun _ other => by cases other) ?_
    rw [← stage_setQueue found, unwindQueue]
    simp only [found]
    rw [stage_popped, stack_setQueue, stack, List.tail_cons]

private theorem step_unwindClock {id : Nat} {calls : List Call}
    (stack : machine.stack = .clock id :: calls) (attended : machine.stage.Attended) :
    machine.stage.Step (machine.stage.giveUp? (.clock id)) (machine.unwindClock id).stage := by
  have innermost := serving_of_source stack rfl
  obtain ⟨seen, awaits, busy⟩ := busy_of_attended attended innermost
  cases found : machine.world.clocks[id]? with
  | none => simp [stage, World.awaiting, found] at awaits
  | some hosted =>
    have awaits' := awaiting_clock found
    obtain rfl : hosted.core.awaiters.map .waiter Tick.delivery = seen :=
      Option.some.inj (awaits'.symm.trans awaits)
    refine step_giveUp awaits innermost (by simpa [Queue.map] using busy)
      (fun _ other => by cases other) ?_
    have given := stage_setClock found hosted.core.abandon
    rw [show hosted.core.abandon.awaiters = hosted.core.awaiters.abandon from rfl] at given
    rw [← given, unwindClock]
    simp only [found]
    rw [stage_popped, stack_setClock, stack, List.tail_cons]

private theorem step_unwindCall {call : Call} {calls : List Call}
    (stack : machine.stack = call :: calls) (attended : machine.stage.Attended) (reason : Panic) :
    machine.stage.Step (call.source?.bind machine.stage.giveUp?)
      (machine.unwindCall reason call).stage := by
  cases call with
  | body | iterating | replying | unwinding | registering | retiring =>
    exact step_of_stage_eq (stage_pop _ stack rfl)
  | holding pool answer =>
    exact step_of_stage_eq ((stage_release _ pool _).trans (stage_pop _ stack rfl))
  | queue id => exact step_unwindQueue stack attended
  | scheduler id => exact step_of_stage_eq (stage_catchInScheduler id reason)
  | clock id => exact step_unwindClock stack attended
  | draining owner drain => exact step_of_stage_eq (stage_unwindDrain stack rfl)
  | matching call pass => exact step_of_stage_eq (stage_unwindMatching stack rfl)
  | inserting call pass request objects => exact step_of_stage_eq (stage_unwindMatching stack rfl)

/-- Every step of the machine is a step on its stage, and the deed was to be expected. -/
theorem stage_step (attended : machine.stage.Attended) :
    machine.stage.Step machine.deed? machine.step.stage := by
  rcases machine with ⟨world, listener, log, stack, control⟩
  cases control with
  | execute command => exact step_execute command
  | answer answer =>
    cases stack with
    | nil => exact .still _
    | cons call calls => cases call <;> exact .still _
  | proceed =>
    cases stack with
    | nil => exact .still _
    | cons call calls => exact step_resume rfl attended
  | unwind reason =>
    cases stack with
    | nil => exact .still _
    | cons call calls => exact step_unwindCall rfl attended reason

end Machine

end LiveTree.Session
