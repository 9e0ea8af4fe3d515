import LiveTree.Proofs.Lifecycle.Desk
import LiveTree.Proofs.Session.Course

/-! Errands of a session. Each step of the machine is one step at the desk with the errands that
could be read off the machine: shown for the commands on dispatchers, batches and pools, and for the
deliveries that go on, end, or are left by a panic. A panic that leaves a delivery ends it like the
last attempt does; what is then left of it is lost. -/
namespace LiveTree.Lifecycle

/-! A delivery of notifications does not touch the retirements. -/

theorem Drain.dispatcher_of_step_eq_attempt {drain later : Drain} {object : ObjectId}
    {target : State} (going : drain.step = .attempt object target later) :
    later.dispatcher = drain.dispatcher := by
  unfold step at going
  split at going
  · cases going
    rfl
  · split at going <;> cases going

private theorem Drain.retiring_of_step_eq_nextList {drain later : Drain}
    (going : drain.step = .nextList later) :
    later.dispatcher.retiring = drain.dispatcher.retiring := by
  unfold step at going
  split at going
  · cases going
  · split at going
    · next phase _ =>
      cases going
      cases phase <;> rfl
    · cases going

end LiveTree.Lifecycle

namespace LiveTree.Session

open Lifecycle (ObjectId Dispatcher Drain RetireBatch Retirement)

namespace Machine

section Commands

variable {machine after : Machine} {name : Name}

private theorem rests_of_desk_eq (same : after.desk = machine.desk) :
    machine.desk.Step [] after.desk := by
  rw [same]
  exact .rests

private theorem desk_setDispatcher (machine : Machine) (id : Nat) (dispatcher : Option Dispatcher) :
    (machine.setDispatcher id dispatcher).desk =
      { machine.desk with
        dispatchers := machine.desk.dispatchers.setIfInBounds id dispatcher } := rfl

private theorem desk_storeBatch (machine : Machine) (name : Name) (batch : RetireBatch) :
    (machine.storeBatch name batch).desk = machine.desk.store name batch := by
  unfold storeBatch Desk.store
  dsimp only
  cases former : machine.world.batches.get? name with
  | none =>
    simp only [desk, former]
    rfl
  | some held =>
    simp only [desk, former]
    rfl

/-- A command on a dispatcher does not find it, or works on it. -/
theorem onDispatcher_cases (machine : Machine) (name : Name) (work : Nat → Dispatcher → Machine) :
    (machine.dispatcher? name = none ∧ (machine.onDispatcher name work).desk = machine.desk) ∨
    ∃ id dispatcher, machine.dispatcher? name = some (id, dispatcher) ∧
      (machine.desk.dispatchers[id]?).join = some dispatcher ∧
      machine.onDispatcher name work = work id dispatcher := by
  unfold dispatcher? onDispatcher
  cases named : machine.world.dispatcherNames.get? name with
  | none => exact .inl ⟨rfl, rfl⟩
  | some id =>
    cases found : (machine.world.dispatchers[id]?).join with
    | none => exact .inl ⟨by simp [found], by simp only [found]; rfl⟩
    | some dispatcher =>
      exact .inr ⟨id, dispatcher, by simp [found], found, by simp only [found]⟩

private theorem desk_step_executeDispatcher (command : DispatcherCommand) :
    machine.desk.Step (machine.startedErrands (.dispatcher command))
      (machine.executeDispatcher command).desk := by
  cases command with
  | create => exact .founds
  | record name event objects =>
    have noted (id : Nat) (dispatcher : Dispatcher) :
        (setDispatcher (machine.withWorld (machine.world.resolveObjects objects).2) id
          (some dispatcher)).desk =
        { machine.desk with
          dispatchers := machine.desk.dispatchers.setIfInBounds id (some dispatcher) } := by
      rw [desk_setDispatcher, desk_resolveObjects]
    rcases machine.onDispatcher_cases name _ with ⟨absent, same⟩ | ⟨id, dispatcher, present, found,
      works⟩
    · have none : machine.startedErrands (.dispatcher (.record name event objects)) = [] := by
        cases event <;> simp only [startedErrands, absent]
      rw [none]
      exact rests_of_desk_eq same
    · rw [executeDispatcher, works]
      refine .of_eq (noted id _) ?_
      cases event with
      | retired =>
        simp only [startedErrands, present]
        exact .records found _
      | retained | entered | exited => exact .notes found rfl
  | dispatch name =>
    rcases machine.onDispatcher_cases name _ with ⟨-, same⟩ | ⟨id, dispatcher, -, found, works⟩
    · exact rests_of_desk_eq same
    · rw [executeDispatcher, works]
      exact .lends found
  | takeRetirements name batch =>
    rcases machine.onDispatcher_cases name _ with ⟨absent, same⟩ | ⟨id, dispatcher, present, found,
      works⟩
    · simp only [startedErrands, absent]
      exact rests_of_desk_eq same
    · rw [executeDispatcher, works]
      simp only [startedErrands, present]
      refine .of_eq (desk_storeBatch _ batch _) ?_
      exact .takes found
  | describe name =>
    rcases machine.onDispatcher_cases name _ with ⟨-, same⟩ | ⟨id, dispatcher, -, -, works⟩
    · exact rests_of_desk_eq same
    · rw [executeDispatcher, works]
      exact .rests

private theorem desk_step_executeBatch (command : BatchCommand) :
    machine.desk.Step (machine.startedErrands (.batch command))
      (machine.executeBatch command).desk := by
  cases command with
  | create name =>
    rw [executeBatch, desk_storeBatch]
    exact .stores name []
  | extend name source =>
    simp only [startedErrands, executeBatch, mergeBatch]
    cases found : machine.world.batches.get? source with
    | none => exact .rests
    | some other =>
      simp only [removeBatch, withWorld]
      cases into : (machine.world.batches.erase source).get? name with
      | none => exact .delivers found none
      | some batch => exact .merges found into
  | dispatch name =>
    simp only [startedErrands, executeBatch, onBatch]
    cases found : machine.world.batches.get? name with
    | none => exact .rests
    | some batch => exact .delivers found (some machine.stack)
  | discard name =>
    simp only [startedErrands, Desk.ousts, executeBatch, onBatch, desk]
    cases found : machine.world.batches.get? name with
    | none => exact .rests
    | some batch => exact .delivers found none
  | describe name => exact rests_of_desk_eq (@onBatch_eq _ desk _ _ _ _ rfl fun _ => rfl)

private theorem desk_step_executePool (command : PoolCommand Body) :
    machine.desk.Step (machine.startedErrands (.pool command))
      (machine.executePool command).desk := by
  cases command with
  | takeRetirements name batch =>
    simp only [startedErrands, pool?, executePool, onPool]
    cases machine.world.poolNames.get? name with
    | none => exact .rests
    | some id =>
      simp only [Option.bind_some]
      cases (machine.world.pools[id]?).join with
      | none => exact .rests
      | some pool =>
        refine .of_eq (desk_storeBatch _ batch _) ?_
        exact .stores batch pool.dispatcher.retiring
  | _ => exact rests_of_desk_eq (desk_executePool _ (by simp))

end Commands

section Calls

variable {machine : Machine} {calls : List Call}

theorem desk_finishPass (call : PassCall) (pass : Relocation.Pass String Int)
    (disposed : List String) {drain : Drain}
    (stack : machine.stack = .draining (.pass call pass disposed) drain :: calls) :
    (machine.finishPass call pass disposed drain).desk = machine.desk := by
  unfold finishPass
  dsimp only
  generalize pass.outcome disposed drain.report = outcome
  generalize Relocation.PassOutcome.resolution outcome call.number _ = resolution
  have held : ((((machine.diagnose resolution).leave (.pass call.number)).storePlaced call.label
      outcome.moved).storePlaced call.label outcome.inserted).stack =
      .draining (.pass call pass disposed) drain :: calls := by
    rw [stack_storePlaced, stack_storePlaced, stack_leave, stack_diagnose]
    exact stack
  refine (desk_giveBack _ _ _ _).trans ((desk_pop _ held rfl).trans ?_)
  rw [desk_storePlaced, desk_storePlaced, desk_leave, desk_diagnose]

private theorem desk_step_finishDrain {owner : DrainOwner} {drain : Drain}
    (stack : machine.stack = .draining owner drain :: calls) (finished : drain.step = .finished) :
    machine.desk.Step (machine.continuedErrands (.draining owner drain))
      (machine.finishDrain owner drain).desk := by
  have untouched := machine.desk_diagnoseAll drain.report.diagnostics
  have held := (machine.stack_diagnoseAll drain.report.diagnostics).trans stack
  unfold finishDrain
  dsimp only
  -- What is reported on the way changes neither the desk nor the calls.
  generalize machine.diagnoseAll drain.report.diagnostics = reported at untouched held
  rw [← untouched]
  cases owner with
  | dispatcher id =>
    have front : reported.desk.duties = .draining id drain :: duties calls :=
      duties_of_stack held rfl
    refine .of_eq ?_ (.returns front)
    simp [desk, pop, reply, setDispatcher, withWorld, held]
  | pool id pool =>
    exact rests_of_desk_eq ((desk_giveBack _ _ _ _).trans (reported.desk_pop held rfl))
  | pass call pass disposed =>
    exact rests_of_desk_eq (desk_finishPass call pass disposed held)
  | discardedPool =>
    simp only [continuedErrands, finished]
    refine .of_eq ?_ (.arrives drain.dispatcher.retiring)
    simp only [desk, pop, discardBatch, push, proceed, held]
    rfl

private theorem desk_step_continueDrain {owner : DrainOwner} {drain : Drain}
    (stack : machine.stack = .draining owner drain :: calls) :
    machine.desk.Step (machine.continuedErrands (.draining owner drain))
      (machine.continueDrain owner drain).desk := by
  -- The delivery may only become one that holds the same retirements.
  have goesOn (later : Drain) (same : later.dispatcher.retiring = drain.dispatcher.retiring)
      (world : World) (dispatchers : world.dispatchers = machine.world.dispatchers)
      (batches : world.batches = machine.world.batches) :
      machine.desk.Step [] ((machine.withWorld world).become (.draining owner later)).desk := by
    cases owner with
    | dispatcher id =>
      have front : machine.desk.duties = .draining id drain :: duties calls :=
        duties_of_stack stack rfl
      refine .of_eq ?_ (.drains front same)
      simp [desk, become, withWorld, stack, dispatchers, batches, duties, Call.duty?]
    | pool | pass | discardedPool =>
      refine rests_of_desk_eq ?_
      simp only [desk, become, withWorld, stack, dispatchers, batches]
      rfl
  cases going : drain.step with
  | attempt object target later =>
    have none : machine.continuedErrands (.draining owner drain) = [] := by
      cases owner <;> simp only [continuedErrands, going]
    have same := congrArg Dispatcher.retiring (Drain.dispatcher_of_step_eq_attempt going)
    simp only [none, continueDrain, going, advance]
    split
    · next illegal _ => exact goesOn (later.refused illegal) same machine.world rfl rfl
    · exact .of_eq (desk_tellState _ _ _) (goesOn later.delivered same _ rfl rfl)
  | nextList later =>
    have none : machine.continuedErrands (.draining owner drain) = [] := by
      cases owner <;> simp only [continuedErrands, going]
    simp only [none, continueDrain, going]
    exact goesOn later (Lifecycle.Drain.retiring_of_step_eq_nextList going) machine.world rfl rfl
  | finished =>
    simp only [continueDrain, going]
    exact desk_step_finishDrain stack going

private theorem desk_step_continueRetirement {delivery : Retirement} {counted : Bool}
    (stack : machine.stack = .retiring delivery counted :: calls) :
    machine.desk.Step (machine.continuedErrands (.retiring delivery counted))
      (machine.continueRetirement delivery counted).desk := by
  have front : machine.desk.duties =
      .retiring delivery (if counted then some calls else none) :: duties calls :=
    duties_of_stack stack rfl
  simp only [continuedErrands, continueRetirement]
  cases turn : delivery.next? with
  | none =>
    have ended := desk_pop_of_duty stack
    dsimp only
    split <;> exact .of_eq ended (.ends front)
  | some next =>
    obtain ⟨object, next⟩ := next
    have became (later : Retirement) (world : World) :
        ((machine.withWorld world).become (.retiring later counted)).desk =
          ⟨world.dispatchers, world.batches,
            .retiring later (if counted then some calls else none) :: duties calls⟩ := by
      simp [desk, become, withWorld, stack, duties, Call.duty?]
    have attempts := Desk.Step.attempts front turn
      ((machine.world.objects.state object).canBecome .retired)
    dsimp only [advance]
    cases attempt : machine.world.objects.advance object .retired with
    | error illegal =>
      rw [(Lifecycle.Registry.advance_eq_error_iff.mp attempt).1] at attempts ⊢
      refine .of_eq ?_ attempts
      exact (desk_diagnose _ _).trans (became next machine.world)
    | ok objects =>
      have legal : (machine.world.objects.state object).canBecome .retired = true := by
        exact Lifecycle.Registry.canBecome_of_advance attempt
      rw [legal] at attempts ⊢
      refine .of_eq ?_ attempts
      exact (desk_tellState _ _ _).trans (became next.delivered _)

theorem desk_continueMatching {call : PassCall} {pass : Relocation.Pass String Int}
    (stack : machine.stack = .matching call pass :: calls) :
    (machine.continueMatching call pass).desk = machine.desk := by
  have became (next : Call) (idle : next.duty? calls = none) :
      (machine.become next).desk = machine.desk := machine.desk_become stack rfl idle
  unfold continueMatching
  cases pass.step with
  | matched ticket claimed later =>
    exact (desk_diagnose _ _).trans (became (.matching call later) rfl)
  | unmatched request later =>
    cases kept : call.insertions with
    | none => exact became (.matching call (later.handBack request)) rfl
    | some insertions =>
      exact became (.inserting { call with insertions := some insertions.tail } later request
        (insertions.head?.getD ⟨[], []⟩).objects) rfl
  | settled =>
    have held :=
      (machine.stack_diagnoseAll (pass.pool.leftovers.map Relocation.Entry.disposal)).trans stack
    exact (desk_become _ held rfl rfl).trans (machine.desk_diagnoseAll _)

theorem desk_continueInserting {call : PassCall} {pass : Relocation.Pass String Int}
    {request : Relocation.Request Int} {objects : List Name}
    (stack : machine.stack = .inserting call pass request objects :: calls) :
    (machine.continueInserting call pass request objects).desk = machine.desk := by
  unfold continueInserting
  have became (later : Relocation.Pass String Int) :
      ((machine.withWorld (machine.world.resolveObjects objects).2).become
        (.matching call later)).desk = machine.desk := by
    have held : (machine.withWorld (machine.world.resolveObjects objects).2).stack =
      .inserting call pass request objects :: calls := stack
    exact (desk_become _ held rfl rfl).trans (machine.desk_resolveObjects objects)
  exact (desk_diagnose _ _).trans (became _)

private theorem desk_step_resume {call : Call} (stack : machine.stack = call :: calls) :
    machine.desk.Step (machine.continuedErrands call) (machine.resume call).desk := by
  have innermost : machine.stack.head? = some call := by rw [stack, List.head?_cons]
  cases call with
  | holding => exact rests_of_desk_eq ((desk_release _ _ _).trans (machine.desk_pop stack rfl))
  | draining => exact desk_step_continueDrain stack
  | retiring => exact desk_step_continueRetirement stack
  | matching => exact rests_of_desk_eq (desk_continueMatching stack)
  | inserting => exact rests_of_desk_eq (desk_continueInserting stack)
  | body | iterating | replying | unwinding | registering | queue | scheduler | clock =>
    exact rests_of_desk_eq (spares_resume innermost rfl).desk_eq

theorem desk_unwindMatching {call : Call} {ended : PassCall} {pass : Relocation.Pass String Int}
    {reason : Panic} (stack : machine.stack = call :: calls) (idle : call.duty? calls = none) :
    (machine.unwindMatching ended pass reason).desk = machine.desk := by
  unfold unwindMatching
  have held := (machine.stack_leave (.pass ended.number)).trans stack
  exact (desk_giveBack _ _ _ _).trans ((desk_pop _ held idle).trans (machine.desk_leave _))

private theorem desk_step_unwindDrain {owner : DrainOwner} {drain : Drain} (reason : Panic)
    (stack : machine.stack = .draining owner drain :: calls) :
    machine.desk.Step [] (machine.unwindDrain owner drain reason).desk := by
  cases owner with
  | dispatcher id =>
    have front : machine.desk.duties = .draining id drain :: duties calls :=
      duties_of_stack stack rfl
    refine .of_eq ?_ (.returns front)
    simp [desk, unwindDrain, pop, setDispatcher, withWorld, stack]
  | pool id pool =>
    exact rests_of_desk_eq ((desk_giveBack _ _ _ _).trans (machine.desk_pop stack rfl))
  | pass call pass disposed =>
    have held := (machine.stack_leave (.pass call.number)).trans stack
    refine rests_of_desk_eq ((desk_giveBack _ _ _ _).trans ?_)
    exact (desk_pop _ held rfl).trans (machine.desk_leave _)
  | discardedPool => exact rests_of_desk_eq (machine.desk_pop stack rfl)

private theorem desk_step_unwindCall {call : Call} (reason : Panic)
    (stack : machine.stack = call :: calls) (unwinds : machine.control = .unwind reason) :
    machine.desk.Step machine.errands (machine.unwindCall reason call).desk := by
  have innermost : machine.stack.head? = some call := by rw [stack, List.head?_cons]
  unfold errands
  rw [unwinds, stack]
  cases call with
  | holding => exact rests_of_desk_eq ((desk_release _ _ _).trans (machine.desk_pop stack rfl))
  | retiring delivery counted =>
    have front : machine.desk.duties =
        .retiring delivery (if counted then some calls else none) :: duties calls :=
      duties_of_stack stack rfl
    exact .of_eq (desk_pop_of_duty stack) (.ends front)
  | draining => exact desk_step_unwindDrain reason stack
  | matching | inserting => exact rests_of_desk_eq (desk_unwindMatching stack rfl)
  | body | iterating | replying | unwinding | registering | queue | scheduler | clock =>
    exact rests_of_desk_eq (spares_unwindCall innermost rfl reason).desk_eq

end Calls

variable {machine after : Machine}

private theorem desk_step_execute (command : Command) :
    machine.desk.Step (machine.startedErrands command) (machine.execute command).desk := by
  cases command with
  | object command => exact rests_of_desk_eq (machine.desk_executeObject command)
  | dispatcher command => exact desk_step_executeDispatcher command
  | batch command => exact desk_step_executeBatch command
  | pool command => exact desk_step_executePool command
  | entry command => exact rests_of_desk_eq (machine.desk_executeEntry command)
  | note | inspect | panic | call | iterate | queue | scheduler | clock | handle | hasher | arena =>
    exact rests_of_desk_eq (machine.spares_execute rfl).desk_eq

/-- A step of the machine is a step at the desk, with the errands that were to be expected. -/
theorem desk_step (machine : Machine) : machine.desk.Step machine.errands machine.step.desk := by
  rcases machine with ⟨world, listener, log, stack, control⟩
  cases control with
  | execute command => exact desk_step_execute command
  | answer answer =>
    cases stack with
    | nil => exact .rests
    | cons call calls => cases call <;> exact .rests
  | proceed =>
    cases stack with
    | nil => exact .rests
    | cons call calls => exact desk_step_resume rfl
  | unwind reason =>
    cases stack with
    | nil => exact .rests
    | cons call calls => exact desk_step_unwindCall reason rfl rfl

/-- User code that changes its mind does no errands. -/
private theorem errands_reconsider {call other : Call} {rest : List Call}
    (innermost : machine.stack = call :: rest) (proceeds : machine.control = .proceed)
    (free : call.Reconsiders other) : machine.errands = [] := by
  unfold errands
  rw [proceeds, innermost]
  cases free <;> rfl

/-- A move of a session is a step at the desk. -/
theorem Move.desk_step (move : machine.Move after) :
    machine.desk.Step machine.errands after.desk := by
  cases move with
  | step => exact Machine.desk_step machine
  | reconsider innermost proceeds free =>
    rw [errands_reconsider innermost proceeds free]
    refine rests_of_desk_eq ?_
    simp only [desk, innermost]
    cases free <;> rfl
  | command finished command =>
    have idle := (rests_of_outcome finished).1
    have none : machine.errands = [] := by
      rcases machine with ⟨world, listener, log, stack, control⟩
      cases idle
      cases control <;> first | rfl | cases finished
    rw [none]
    refine rests_of_desk_eq ?_
    simp only [desk, start, idle]

end Machine

end LiveTree.Session
