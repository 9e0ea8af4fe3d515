import LiveTree.Proofs.Session.Deeds

/-! What leaves the tree alone. Queues, schedulers, clocks, handles, hashers and arenas have nothing
to do with objects or with what refers to them; so the commands on them and the calls that these
start change neither dispatchers nor batches, pools or entries, and no call that works on one of
those comes or goes with them. This is found here once for the whole machine, and whatever is a
function of the tree is the same after such a step. -/
namespace LiveTree.Session

open Lifecycle (ObjectId)

/-- The tree as a session keeps it: the objects, and all that refers to them. -/
structure Tree where
  objects : Lifecycle.Registry Observer
  objectNames : Names ObjectId
  dispatchers : Array (Option Lifecycle.Dispatcher)
  batches : Names Lifecycle.RetireBatch
  pools : Array (Option Pool)
  entries : Names Entry

def World.tree (world : World) : Tree :=
  ⟨world.objects, world.objectNames, world.dispatchers, world.batches, world.pools, world.entries⟩

private theorem World.tree_withdraw (world : World) (source : QueueRef) (ticket : Awaiting.Ticket) :
    (world.withdraw source ticket).tree = world.tree := by
  cases source <;> rfl

/-- Whether a command has nothing to do with the tree. -/
def Command.isApart : Command → Bool
  | .object _ | .dispatcher _ | .batch _ | .pool _ | .entry _ => false
  | _ => true

/-- Whether a call has nothing to do with the tree. -/
def Call.isApart : Call → Bool
  | .holding _ _ | .draining _ _ | .retiring _ _ | .matching _ _ | .inserting _ _ _ _ => false
  | _ => true

namespace Machine

/-- From one machine to another by the parts of a step that leave the tree alone. -/
inductive Spares (machine : Machine) : Machine → Prop
  | stays : Spares machine machine
  | world {after : Machine} {world : World} (spares : Spares machine after)
      (same : world.tree = after.world.tree) : Spares machine (after.withWorld world)
  | control {after : Machine} {control : Control} (spares : Spares machine after) :
      Spares machine { after with control }
  | report {after : Machine} {event : Event} (spares : Spares machine after) :
      Spares machine (after.report event)
  | push {after : Machine} {call : Call} (spares : Spares machine after)
      (apart : call.isApart = true) : Spares machine (after.push call)
  | pop {after : Machine} {call : Call} (spares : Spares machine after)
      (innermost : after.stack.head? = some call) (apart : call.isApart = true) :
      Spares machine after.pop

variable {first machine : Machine}

/-! ### What stays the same -/

theorem Spares.tree_eq (spares : first.Spares machine) : machine.world.tree = first.world.tree := by
  induction spares with
  | stays => rfl
  | world _ same ih => exact same.trans ih
  | control _ ih | report _ ih | push _ _ ih | pop _ _ _ ih => exact ih

/-- What is seen of the calls in progress is the same if it is blind to those that are apart. -/
theorem Spares.eq_of_blind {α : Type} {see : List Call → α} (spares : first.Spares machine)
    (blind : ∀ call calls, call.isApart = true → see (call :: calls) = see calls) :
    see machine.stack = see first.stack := by
  induction spares with
  | stays => rfl
  | world _ _ ih | control _ ih | report _ ih => exact ih
  | push _ apart ih => exact (blind _ _ apart).trans ih
  | pop _ innermost apart ih =>
    obtain ⟨calls, stack⟩ := List.head?_eq_some_iff.mp innermost
    rw [stack, blind _ _ apart] at ih
    rw [← ih, Machine.pop, stack, List.tail_cons]

/-- The calls in progress are apart or were in progress before. -/
theorem Spares.mem_stack (spares : first.Spares machine) {call : Call}
    (member : call ∈ machine.stack) : call ∈ first.stack ∨ call.isApart = true := by
  induction spares with
  | stays => exact .inl member
  | world _ _ ih | control _ ih | report _ ih => exact ih member
  | push _ apart ih =>
    rcases List.mem_cons.mp member with rfl | before
    · exact .inr apart
    · exact ih before
  | pop _ _ _ ih => exact ih (List.mem_of_mem_tail member)

/-! ### Composite parts -/

theorem Spares.reply {answer : Answer} (spares : first.Spares machine) :
    first.Spares (machine.reply answer) := spares.control

theorem Spares.proceed (spares : first.Spares machine) : first.Spares machine.proceed :=
  spares.control

theorem Spares.finish {ending : Except Panic Answer} (spares : first.Spares machine) :
    first.Spares (machine.finish ending) := by
  cases ending <;> exact spares.control

private theorem Spares.run {body : Body} (spares : first.Spares machine) :
    first.Spares (machine.run body) := (spares.push rfl).proceed

theorem Spares.callBack {event : Event} {body : Body} (spares : first.Spares machine) :
    first.Spares (machine.callBack event body) := spares.report.run

theorem Spares.diagnose {diagnostic : Diagnostic} (spares : first.Spares machine) :
    first.Spares (machine.diagnose diagnostic) := by
  unfold Machine.diagnose
  split
  · exact spares.report
  · exact spares

theorem Spares.diagnoseAll {diagnostics : List Diagnostic} (spares : first.Spares machine) :
    first.Spares (machine.diagnoseAll diagnostics) := by
  unfold Machine.diagnoseAll
  induction diagnostics generalizing machine with
  | nil => exact spares
  | cons diagnostic diagnostics ih => exact ih spares.diagnose

theorem Spares.enter {span : Span} (spares : first.Spares machine) :
    first.Spares (machine.enter span) := by
  unfold Machine.enter
  split
  · exact spares.report
  · exact spares

theorem Spares.leave {span : Span} (spares : first.Spares machine) :
    first.Spares (machine.leave span) := by
  unfold Machine.leave
  split
  · exact spares.report
  · exact spares

theorem Spares.tell {id : ObjectId} {event : Lifecycle.Event} (spares : first.Spares machine) :
    first.Spares (machine.tell id event) := by
  unfold Machine.tell
  split
  · exact spares.proceed
  · dsimp only
    split
    · exact spares.proceed
    · exact spares.callBack

theorem Spares.tellState {id : ObjectId} {state : Lifecycle.State}
    (spares : first.Spares machine) : first.Spares (machine.tellState id state) := by
  unfold Machine.tellState
  split
  · exact spares.tell
  · exact spares.proceed

private theorem Spares.keepHandle {source : QueueRef} {ticket : Awaiting.Ticket}
    {name : Option Name} (spares : first.Spares machine) :
    first.Spares (machine.keepHandle source ticket name) := by
  unfold Machine.keepHandle
  exact .push (.world spares rfl) rfl

private theorem Spares.cancel {id : HandleId} (spares : first.Spares machine) :
    first.Spares (machine.cancel id) := by
  unfold Machine.cancel
  rcases machine.world.handles.cancel id with ⟨attempt, handles⟩
  have marked : first.Spares (machine.withWorld { machine.world with handles }) :=
    .world spares rfl
  dsimp only
  rcases attempt.action with - | ⟨⟩ | ⟨source, ticket⟩
  · exact marked.proceed
  · exact marked.callBack
  · exact .proceed (.world marked (World.tree_withdraw _ source ticket))

private theorem Spares.deliver {action : Action} {outcome : Frame.Outcome}
    (spares : first.Spares machine) : first.Spares (machine.deliver action outcome) := by
  unfold Machine.deliver
  split <;> split <;> first | exact spares.proceed | exact spares.callBack

/-! ### Commands -/

section Commands

variable {name : Name} (spares : first.Spares machine)
include spares

private theorem Spares.onQueue {work : Nat → Awaiting.Queue Waiter Awaiting.Delivery → Machine}
    (works : ∀ id queue, first.Spares (work id queue)) :
    first.Spares (machine.onQueue name work) :=
  of_eq_true (onQueue_eq (eq_true spares.control) fun id queue => eq_true (works id queue))

private theorem Spares.onScheduler {work : Nat → HostedScheduler → Machine}
    (works : ∀ id hosted, first.Spares (work id hosted)) :
    first.Spares (machine.onScheduler name work) :=
  of_eq_true (onScheduler_eq (eq_true spares.control) fun id hosted => eq_true (works id hosted))

private theorem Spares.onClock {work : Nat → HostedClock → Machine}
    (works : ∀ id hosted, first.Spares (work id hosted)) :
    first.Spares (machine.onClock name work) :=
  of_eq_true (onClock_eq (eq_true spares.control) fun id hosted => eq_true (works id hosted))

private theorem Spares.onHasher {work : Position.Hasher → Machine}
    (works : ∀ hasher, first.Spares (work hasher)) :
    first.Spares (machine.onHasher name work) :=
  of_eq_true (onHasher_eq (eq_true spares.control) fun hasher => eq_true (works hasher))

private theorem Spares.onArena {work : Arena Int → Machine}
    (works : ∀ arena, first.Spares (work arena)) :
    first.Spares (machine.onArena name work) :=
  of_eq_true (onArena_eq (eq_true spares.control) fun arena => eq_true (works arena))

private theorem Spares.executeQueue (command : QueueCommand Body) :
    first.Spares (machine.executeQueue command) := by
  cases command with
  | create =>
    exact .reply (.world (.world spares rfl) rfl)
  | share | forget =>
    exact spares.onQueue fun _ _ => .reply (.world spares rfl)
  | describe => exact spares.onQueue fun _ _ => spares.reply
  | register =>
    refine spares.onQueue fun id queue => ?_
    split
    · exact spares.reply
    · dsimp only
      split
      · exact .callBack (.keepHandle (.world spares rfl))
      · exact .proceed (.keepHandle (.world spares rfl))
  | flush | close =>
    refine spares.onQueue fun _ _ => ?_
    exact .proceed (.push (.world spares rfl) rfl)

private theorem Spares.schedule (handle : Option Name) (action : Action) :
    first.Spares (machine.schedule name handle action) := by
  refine spares.onScheduler fun _ _ => ?_
  split
  · exact spares.reply
  · dsimp only
    split
    · exact .callBack (.keepHandle (.world spares rfl))
    · exact .proceed (.keepHandle (.world spares rfl))

private theorem Spares.executeScheduler (command : SchedulerCommand Body) :
    first.Spares (machine.executeScheduler command) := by
  cases command with
  | create => exact .reply (.world (.world spares rfl) rfl)
  | share | startFrame => exact spares.onScheduler fun _ _ => .reply (.world spares rfl)
  | describe => exact spares.onScheduler fun _ _ => spares.reply
  | schedulePlain | scheduleInformed => exact spares.schedule ..
  | completeFrame =>
    refine spares.onScheduler fun _ _ => ?_
    split
    · exact .reply (.world spares rfl)
    · exact .proceed (.push (.enter (.world spares rfl)) rfl)
  | close => exact spares.onScheduler fun _ _ => .proceed (.push (.world spares rfl) rfl)

private theorem Spares.executeClock (command : ClockCommand Body) :
    first.Spares (machine.executeClock command) := by
  cases command with
  | create => exact .reply (.world (.world spares rfl) rfl)
  | share => exact spares.onClock fun _ _ => .reply (.world spares rfl)
  | describe => exact spares.onClock fun _ _ => spares.reply
  | register =>
    refine spares.onClock fun _ _ => ?_
    split
    · exact spares.reply
    · dsimp only
      split
      · exact .callBack (.keepHandle (.world spares rfl))
      · exact .proceed (.keepHandle (.world spares rfl))
  | send | close => exact spares.onClock fun _ _ => .proceed (.push (.world spares rfl) rfl)

omit spares in
private theorem Spares.executeHandle (machine : Machine) (command : HandleCommand Body) :
    machine.Spares (machine.executeHandle command) := by
  have done := machine.handled command
  generalize machine.executeHandle command = after at done ⊢
  cases done with
  | answers => exact Spares.stays.reply
  | creates | idle => exact .reply (.world (.world .stays rfl) rfl)
  | shares | guards | disarms => exact .reply (.world .stays rfl)
  | cancels => exact .cancel (.push .stays rfl)
  | replaces | releases => exact .cancel (.push (.world .stays rfl) rfl)
  | givesBack => exact .reply (.world (.world .stays rfl) rfl)

private theorem Spares.executeHasher (command : HasherCommand) :
    first.Spares (machine.executeHasher command) := by
  cases command with
  | create =>
    simp only [Machine.executeHasher]
    split
    · exact spares.reply
    · exact .reply (.world spares rfl)
  | copy | push => exact spares.onHasher fun _ => .reply (.world spares rfl)
  | pop =>
    refine spares.onHasher fun _ => ?_
    split
    · exact spares.reply
    · exact .reply (.world spares rfl)
  | path | describe => exact spares.onHasher fun _ => spares.reply

private theorem Spares.executeArena (command : ArenaCommand) :
    first.Spares (machine.executeArena command) := by
  cases command with
  | create => exact .reply (.world spares rfl)
  | register => exact spares.onArena fun _ => .reply (.world spares rfl)
  | get | list | describe => exact spares.onArena fun _ => spares.reply

end Commands

/-- A command that has nothing to do with the tree leaves it alone. -/
theorem spares_execute (machine : Machine) {command : Command} (apart : command.isApart = true) :
    machine.Spares (machine.execute command) := by
  have here : machine.Spares machine := .stays
  cases command with
  | note | inspect | panic => exact here.control
  | call script =>
    simp only [Machine.execute]
    split
    · exact here.reply
    · exact .run (here.push rfl)
  | iterate => exact .proceed (here.push rfl)
  | queue command => exact here.executeQueue command
  | scheduler command => exact here.executeScheduler command
  | clock command => exact here.executeClock command
  | handle command => exact .executeHandle machine command
  | hasher command => exact here.executeHasher command
  | arena command => exact here.executeArena command
  | object | dispatcher | batch | pool | entry => cases apart

/-! ### Calls that go on or end -/

section Calls

variable {call : Call}

private theorem Spares.become {next : Call} (spares : first.Spares machine)
    (innermost : machine.stack.head? = some call) (apart : call.isApart = true)
    (nextApart : next.isApart = true) : first.Spares (machine.become next) :=
  (spares.pop innermost apart).push nextApart

variable (innermost : machine.stack.head? = some call)
include innermost

private theorem spares_continueQueue (apart : call.isApart = true) (id : Nat) :
    machine.Spares (machine.continueQueue id) := by
  have here : machine.Spares machine := .stays
  have popped : machine.Spares machine.pop := here.pop innermost apart
  unfold continueQueue
  split
  · exact popped.reply
  · split
    · exact .callBack (.world here rfl)
    · exact .callBack (.world here rfl)
    · exact .reply (.pop (.world here rfl) innermost apart)
    · exact popped.reply

private theorem spares_continueScheduler (apart : call.isApart = true) (id : Nat) :
    machine.Spares (machine.continueScheduler id) := by
  have here : machine.Spares machine := .stays
  have popped : machine.Spares machine.pop := here.pop innermost apart
  unfold continueScheduler
  split
  · exact popped.reply
  · split
    · exact .deliver (.world here rfl)
    · refine .reply (.pop (.leave (.diagnoseAll (.world here rfl))) ?_ apart)
      rw [stack_leave, stack_diagnoseAll]
      exact innermost
    · refine .reply (.pop (.diagnose (.world here rfl)) ?_ apart)
      rw [stack_diagnose]
      exact innermost
    · exact popped.reply

private theorem spares_continueClock (apart : call.isApart = true) (id : Nat) :
    machine.Spares (machine.continueClock id) := by
  have here : machine.Spares machine := .stays
  have popped : machine.Spares machine.pop := here.pop innermost apart
  unfold continueClock
  split
  · exact popped.reply
  · split
    · exact .callBack (.world here rfl)
    · exact .callBack (.world here rfl)
    · unfold diagnoseTick
      split
      all_goals
        refine .reply (.pop (.diagnose (.world here rfl)) ?_ apart)
        rw [stack_diagnose]
        exact innermost
    · exact popped.reply

/-- A call that has nothing to do with the tree leaves it alone when it goes on. -/
theorem spares_resume (apart : call.isApart = true) : machine.Spares (machine.resume call) := by
  have here : machine.Spares machine := .stays
  have popped : machine.Spares machine.pop := here.pop innermost apart
  cases call with
  | body rest =>
    cases rest with
    | nil => exact popped
    | cons => exact .control (here.become innermost rfl rfl)
  | iterating left =>
    cases left with
    | zero => exact popped.reply
    | succ => exact .run (here.become innermost rfl rfl)
  | replying => exact popped.reply
  | unwinding => exact popped.control
  | registering _ name =>
    cases name with
    | none => exact popped.reply
    | some => exact .reply (.world popped rfl)
  | queue => exact spares_continueQueue innermost rfl _
  | scheduler => exact spares_continueScheduler innermost rfl _
  | clock => exact spares_continueClock innermost rfl _
  | holding | draining | retiring | matching | inserting => cases apart

omit innermost in
private theorem spares_catchInScheduler (machine : Machine) (id : Nat) (reason : Panic) :
    machine.Spares (machine.catchInScheduler id reason) := by
  have here : machine.Spares machine := .stays
  unfold catchInScheduler
  split
  · exact here.proceed
  · unfold diagnoseRefusedAction
    split
    · exact .proceed (.world here rfl)
    · split
      · exact .proceed (.diagnose (.world here rfl))
      · exact .proceed (.world here rfl)

/-- A call that has nothing to do with the tree leaves it alone when a panic leaves the call. -/
theorem spares_unwindCall (apart : call.isApart = true) (reason : Panic) :
    machine.Spares (machine.unwindCall reason call) := by
  have here : machine.Spares machine := .stays
  have popped : machine.Spares machine.pop := here.pop innermost apart
  cases call with
  | body | iterating | replying | unwinding | registering => exact popped
  | queue =>
    simp only [unwindCall, unwindQueue]
    split
    · exact popped
    · exact .pop (.world here rfl) innermost apart
  | scheduler => exact spares_catchInScheduler machine ..
  | clock =>
    simp only [unwindCall, unwindClock]
    split
    · exact popped
    · exact .pop (.world here rfl) innermost apart
  | holding | draining | retiring | matching | inserting => cases apart

end Calls

end Machine

end LiveTree.Session
