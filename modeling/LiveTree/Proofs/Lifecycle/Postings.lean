import LiveTree.Proofs.Lifecycle.Board

/-! What a session notes on its board. The posting of a step can be read off the machine before it;
so what waits at a dispatcher is a function of the machines that were passed. A dispatcher that is
away comes back when its delivery ends, whichever way, with the lists that were not begun. -/
namespace LiveTree.Session

open Lifecycle (ObjectId Dispatcher Drain RetireBatch Retirement)

/-- The delivery for which a call has borrowed a dispatcher. -/
def Call.lent? : Call → Option (Nat × Drain)
  | .draining (.dispatcher id) drain => some (id, drain)
  | _ => none

/-- The same, seen from the desk. -/
def Duty.lent? : Duty → Option (Nat × Drain)
  | draining id drain => some (id, drain)
  | retiring _ _ => none

private theorem lent?_duties (calls : List Call) :
    (duties calls).filterMap Duty.lent? = calls.filterMap Call.lent? := by
  induction calls with
  | nil => rfl
  | cons call calls ih =>
    rw [duties, List.filterMap_append, ih]
    cases call with
    | draining owner => cases owner <;> rfl
    | _ => rfl

namespace Machine

/-- What can be seen of the board. -/
def board (machine : Machine) : Board :=
  ⟨machine.world.dispatchers, machine.stack.filterMap Call.lent?⟩

/-- What a command that starts notes. -/
def startedPosting? (machine : Machine) : Command → Option Posting
  | .dispatcher (.record name event objects) =>
    (machine.dispatcher? name).map fun found =>
      .notes found.1 event (machine.world.resolveObjects objects).1
  | .dispatcher (.dispatch name) =>
    (machine.dispatcher? name).map fun found => .takes found.1 .exited
  | .dispatcher (.takeRetirements name _) =>
    (machine.dispatcher? name).map fun found => .takes found.1 .retired
  | _ => none

/-- What a call that goes on notes. -/
def continuedPosting? : Call → Option Posting
  | .draining (.dispatcher id) drain =>
    match drain.step with
    | .nextList later => some (.takes id later.phase.event)
    | _ => none
  | _ => none

/-- What the machine notes in its next step. -/
def posting? (machine : Machine) : Option Posting :=
  match machine.control, machine.stack with
  | .execute command, _ => machine.startedPosting? command
  | .proceed, call :: _ => continuedPosting? call
  | _, _ => none

/-- What was noted by machines that were passed. -/
def postings (passed : List Machine) : List Posting := passed.filterMap posting?

private theorem postings_concat (passed : List Machine) (last : Machine) :
    postings (passed ++ [last]) = postings passed ++ last.posting?.toList := by
  unfold postings
  cases posting : last.posting? <;> simp [posting]

theorem postings_append (before later : List Machine) :
    postings (before ++ later) = postings before ++ postings later := List.filterMap_append

section Quiet

variable {machine after : Machine} {call next : Call} {calls : List Call}

/-- What leaves the desk as it is leaves the board as it is. -/
private theorem board_of_desk_eq (same : after.desk = machine.desk) :
    after.board = machine.board := by
  have dispatchers : after.world.dispatchers = machine.world.dispatchers :=
    congrArg Desk.dispatchers same
  have lent := congrArg (fun desk : Desk => desk.duties.filterMap Duty.lent?) same
  simp only [desk, lent?_duties] at lent
  unfold board
  rw [dispatchers, lent]

private theorem rests_of_board_eq (same : after.board = machine.board) :
    machine.board.Step none after.board := by
  rw [same]
  exact .rests

private theorem rests_at_board (same : after.desk = machine.desk) :
    machine.board.Step none after.board := rests_of_board_eq (board_of_desk_eq same)

private theorem board_pop (stack : machine.stack = call :: calls) (free : call.lent? = none) :
    machine.pop.board = machine.board := by
  simp [board, pop, stack, free]

private theorem board_become (stack : machine.stack = call :: calls)
    (same : next.lent? = call.lent?) : (machine.become next).board = machine.board := by
  simp only [board, become, stack, List.tail_cons, List.filterMap_cons, same]

private theorem board_storeBatch (machine : Machine) (name : Name) (batch : RetireBatch) :
    (machine.storeBatch name batch).board = machine.board := by
  unfold storeBatch
  dsimp only
  split <;> rfl

end Quiet

section Commands

variable {machine after : Machine} {name : Name}

private theorem board_step_executeDispatcher (command : DispatcherCommand) :
    machine.board.Step (machine.startedPosting? (.dispatcher command))
      (machine.executeDispatcher command).board := by
  cases command with
  | create => exact .founds
  | record name event objects =>
    rcases machine.onDispatcher_cases name _ with ⟨absent, same⟩ | ⟨id, dispatcher, present, found,
      works⟩
    · simp only [startedPosting?, absent]
      exact rests_at_board same
    · rw [executeDispatcher, works]
      simp only [startedPosting?, present]
      have kept := board_of_desk_eq (machine.desk_resolveObjects objects)
      have found : (machine.board.dispatchers[id]?).join = some dispatcher := found
      rw [← kept] at found ⊢
      exact .notes found event _
  | dispatch name =>
    rcases machine.onDispatcher_cases name _ with ⟨absent, same⟩ | ⟨id, dispatcher, present, found,
      works⟩
    · simp only [startedPosting?, absent]
      exact rests_at_board same
    · rw [executeDispatcher, works]
      simp only [startedPosting?, present]
      exact .lends found
  | takeRetirements name batch =>
    rcases machine.onDispatcher_cases name _ with ⟨absent, same⟩ | ⟨id, dispatcher, present, found,
      works⟩
    · simp only [startedPosting?, absent]
      exact rests_at_board same
    · rw [executeDispatcher, works, board_storeBatch]
      simp only [startedPosting?, present]
      exact .empties found
  | describe name =>
    rcases machine.onDispatcher_cases name _ with ⟨-, same⟩ | ⟨id, dispatcher, -, -, works⟩
    · exact rests_at_board same
    · rw [executeDispatcher, works]
      exact .rests

/-- Commands on batches have nothing to do with the board. -/
private theorem board_executeBatch (command : BatchCommand) :
    (machine.executeBatch command).board = machine.board := by
  cases command with
  | create => exact board_storeBatch ..
  | extend name source =>
    simp only [executeBatch]
    split
    · rfl
    · unfold mergeBatch
      split <;> rfl
  | dispatch | discard | describe => exact @onBatch_eq _ board _ _ _ _ rfl fun _ => rfl

/-- Nor have those on pools, which keep a dispatcher of their own. -/
private theorem board_executePool (command : PoolCommand Body) :
    (machine.executePool command).board = machine.board := by
  cases command with
  | takeRetirements name batch =>
    refine @onPool_eq _ board _ _ _ _ rfl rfl fun id pool => ?_
    exact board_storeBatch _ batch _
  | _ => exact board_of_desk_eq (desk_executePool _ (by simp))

private theorem board_step_execute (command : Command) :
    machine.board.Step (machine.startedPosting? command) (machine.execute command).board := by
  cases command with
  | object command => exact rests_at_board (machine.desk_executeObject command)
  | dispatcher command => exact board_step_executeDispatcher command
  | batch command => exact rests_of_board_eq (board_executeBatch command)
  | pool command => exact rests_of_board_eq (board_executePool command)
  | entry command => exact rests_at_board (machine.desk_executeEntry command)
  | note | inspect | panic | call | iterate | queue | scheduler | clock | handle | hasher | arena =>
    exact rests_at_board (machine.spares_execute rfl).desk_eq

end Commands

section Calls

variable {machine : Machine} {calls : List Call}

/-- A delivery that goes on has another board only if it works on a dispatcher of its own. -/
private theorem board_goesOn {owner : DrainOwner} {drain later : Drain} {posting : Option Posting}
    (stack : machine.stack = .draining owner drain :: calls) (world : World)
    (same : world.dispatchers = machine.world.dispatchers)
    (none : (∀ id, owner ≠ .dispatcher id) → posting = none)
    (goesOn : ∀ id drains, owner = .dispatcher id → machine.board.drains = (id, drain) :: drains →
      machine.board.Step posting { machine.board with drains := (id, later) :: drains }) :
    machine.board.Step posting
      ((machine.withWorld world).become (.draining owner later)).board := by
  have became : ((machine.withWorld world).become (.draining owner later)).board =
      ⟨machine.world.dispatchers, (Call.draining owner later :: calls).filterMap Call.lent?⟩ := by
    simp only [board, become, withWorld, stack, List.tail_cons, same]
  have before : machine.board.drains = (Call.draining owner drain :: calls).filterMap Call.lent? :=
    congrArg (List.filterMap Call.lent?) stack
  rw [became]
  cases owner with
  | dispatcher id => exact goesOn id _ rfl before
  | pool | pass | discardedPool =>
    rw [none fun _ own => by cases own]
    have rests : machine.board = ⟨machine.world.dispatchers, calls.filterMap Call.lent?⟩ :=
      congrArg (Board.mk _) before
    exact rests ▸ .rests

/-- When a delivery ends, its dispatcher comes back as the delivery leaves it. -/
private theorem board_step_returned {id : Nat} {drain : Drain}
    (stack : machine.stack = .draining (.dispatcher id) drain :: calls) :
    machine.board.Step none (machine.setDispatcher id (some drain.dispatcher)).pop.board := by
  have front : machine.board.drains = (id, drain) :: calls.filterMap Call.lent? :=
    congrArg (List.filterMap Call.lent?) stack
  have returned : (machine.setDispatcher id (some drain.dispatcher)).pop.board =
      { dispatchers := machine.board.dispatchers.setIfInBounds id (some drain.dispatcher)
        drains := calls.filterMap Call.lent? } := by
    simp only [board, pop, setDispatcher, withWorld, stack, List.tail_cons]
  rw [returned]
  exact .returns front

private theorem board_step_finishDrain {owner : DrainOwner} {drain : Drain}
    (stack : machine.stack = .draining owner drain :: calls) :
    machine.board.Step none (machine.finishDrain owner drain).board := by
  have untouched := board_of_desk_eq (machine.desk_diagnoseAll drain.report.diagnostics)
  have held := (machine.stack_diagnoseAll drain.report.diagnostics).trans stack
  unfold finishDrain
  dsimp only
  -- What is reported on the way changes neither the board nor the calls.
  generalize machine.diagnoseAll drain.report.diagnostics = reported at untouched held
  rw [← untouched]
  cases owner with
  | dispatcher id => exact board_step_returned held
  | pool id pool =>
    exact rests_of_board_eq ((board_of_desk_eq (desk_giveBack ..)).trans (board_pop held rfl))
  | pass call pass disposed => exact rests_at_board (desk_finishPass call pass disposed held)
  | discardedPool => exact rests_of_board_eq (board_pop held rfl)

private theorem board_step_continueDrain {owner : DrainOwner} {drain : Drain}
    (stack : machine.stack = .draining owner drain :: calls) :
    machine.board.Step (continuedPosting? (.draining owner drain))
      (machine.continueDrain owner drain).board := by
  have nothing (other : ∀ id, owner ≠ .dispatcher id) :
      continuedPosting? (.draining owner drain) = none := by
    cases owner with
    | dispatcher id => exact absurd rfl (other id)
    | pool | pass | discardedPool => rfl
  cases going : drain.step with
  | attempt object target later =>
    have none : continuedPosting? (.draining owner drain) = none := by
      cases owner <;> simp only [continuedPosting?, going]
    have same := Drain.dispatcher_of_step_eq_attempt going
    simp only [none, continueDrain, going, advance]
    split
    · exact board_goesOn stack machine.world rfl (fun _ => rfl) fun _ _ _ front =>
        .attempts front same
    · next objects _ =>
      rw [board_of_desk_eq (desk_tellState ..)]
      exact board_goesOn stack { machine.world with objects } rfl (fun _ => rfl) fun _ _ _ front =>
        .attempts front same
  | nextList later =>
    simp only [continueDrain, going]
    refine board_goesOn stack machine.world rfl nothing fun id drains own front => ?_
    subst own
    simp only [continuedPosting?, going]
    exact .nextList front going
  | finished =>
    have none : continuedPosting? (.draining owner drain) = none := by
      cases owner <;> simp only [continuedPosting?, going]
    simp only [none, continueDrain, going]
    exact board_step_finishDrain stack

private theorem board_continueRetirement {delivery : Retirement} {counted : Bool}
    (stack : machine.stack = .retiring delivery counted :: calls) :
    (machine.continueRetirement delivery counted).board = machine.board := by
  unfold continueRetirement
  split
  · split <;> exact board_pop stack rfl
  · unfold advance
    split
    · exact (board_of_desk_eq (desk_diagnose ..)).trans (board_become stack rfl)
    · next objects _ =>
      have moved : (machine.withWorld { machine.world with objects }).stack =
          .retiring delivery counted :: calls := stack
      exact (board_of_desk_eq (desk_tellState ..)).trans (board_become moved rfl)

private theorem board_step_resume {call : Call} (stack : machine.stack = call :: calls) :
    machine.board.Step (continuedPosting? call) (machine.resume call).board := by
  have innermost : machine.stack.head? = some call := by rw [stack, List.head?_cons]
  cases call with
  | holding =>
    exact rests_of_board_eq ((board_of_desk_eq (desk_release ..)).trans (board_pop stack rfl))
  | draining => exact board_step_continueDrain stack
  | retiring => exact rests_of_board_eq (board_continueRetirement stack)
  | matching => exact rests_at_board (desk_continueMatching stack)
  | inserting => exact rests_at_board (desk_continueInserting stack)
  | body | iterating | replying | unwinding | registering | queue | scheduler | clock =>
    exact rests_at_board (spares_resume innermost rfl).desk_eq

private theorem board_step_unwindCall {call : Call} (reason : Panic)
    (stack : machine.stack = call :: calls) :
    machine.board.Step none (machine.unwindCall reason call).board := by
  have innermost : machine.stack.head? = some call := by rw [stack, List.head?_cons]
  have popped (free : call.lent? = none) : machine.pop.board = machine.board := board_pop stack free
  cases call with
  | holding => exact rests_of_board_eq ((board_of_desk_eq (desk_release ..)).trans (popped rfl))
  | retiring => exact rests_of_board_eq (popped rfl)
  | draining owner drain =>
    cases owner with
    | dispatcher id => exact board_step_returned stack
    | pool id pool =>
      exact rests_of_board_eq ((board_of_desk_eq (desk_giveBack ..)).trans (popped rfl))
    | pass call pass disposed =>
      have held := (machine.stack_leave (.pass call.number)).trans stack
      refine rests_of_board_eq ((board_of_desk_eq (desk_giveBack ..)).trans ?_)
      exact (board_pop held rfl).trans (board_of_desk_eq (machine.desk_leave _))
    | discardedPool => exact rests_of_board_eq (popped rfl)
  | matching | inserting => exact rests_at_board (desk_unwindMatching stack rfl)
  | body | iterating | replying | unwinding | registering | queue | scheduler | clock =>
    exact rests_at_board (spares_unwindCall innermost rfl reason).desk_eq

end Calls

variable {machine after : Machine} {passed : List Machine}

/-- A step of the machine is a step at the board, with the posting that was to be expected. -/
private theorem board_step (machine : Machine) :
    machine.board.Step machine.posting? machine.step.board := by
  rcases machine with ⟨world, listener, log, stack, control⟩
  cases control with
  | execute command => exact board_step_execute command
  | answer answer =>
    cases stack with
    | nil => exact .rests
    | cons call calls => cases call <;> exact .rests
  | proceed =>
    cases stack with
    | nil => exact .rests
    | cons call calls => exact board_step_resume rfl
  | unwind reason =>
    cases stack with
    | nil => exact .rests
    | cons call calls => exact board_step_unwindCall reason rfl

/-- A move of a session is a step at the board. -/
private theorem Move.board_step (move : machine.Move after) :
    machine.board.Step machine.posting? after.board := by
  cases move with
  | step => exact Machine.board_step machine
  | reconsider innermost proceeds free =>
    have none : machine.posting? = none := by
      unfold posting?
      rw [proceeds, innermost]
      cases free <;> rfl
    rw [none]
    refine rests_of_board_eq ?_
    simp only [board, innermost]
    cases free <;> rfl
  | command finished command =>
    have idle := (rests_of_outcome finished).1
    have none : machine.posting? = none := by
      rcases machine with ⟨world, listener, log, stack, control⟩
      cases idle
      cases control <;> first | rfl | cases finished
    rw [none]
    refine rests_of_board_eq ?_
    simp only [board, start, idle]

/-- In a session every dispatcher is at its place or away with one delivery, and what it holds for
an event is what was noted since the list was taken out last. -/
theorem Course.board (course : Course passed machine) :
    machine.board.Sound ∧
      ∀ id event, (machine.board.held id).recorded event =
        Posting.listed id event (postings passed) := by
  obtain ⟨scripts, listener, command, goes⟩ := course
  induction goes with
  | stays => exact ⟨⟨nofun, List.nodup_nil⟩, fun id event => by cases event <;> rfl⟩
  | moves _ move ih =>
    obtain ⟨sound, recorded⟩ := ih
    have step := move.board_step
    refine ⟨step.sound sound, fun id event => ?_⟩
    rw [step.recorded sound, recorded, postings_concat]
    simp only [Posting.listed, List.foldl_append]

end Machine

end LiveTree.Session
