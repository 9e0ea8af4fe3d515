import LiveTree.Proofs.Session.Calling
import LiveTree.Proofs.Session.Fates

/-! One fate for each awaiter, in every course of a session. A course may register, cancel, flush
and close from inside any callback, and panic anywhere; what an awaiter can count on is put
together here. -/
namespace LiveTree.Session.Machine

open Awaiting LiveTree.Frame

/-- What is sure of an awaiter that was accepted in a course. -/
structure OneFate (passed : List Machine) (machine : Machine) (source : QueueRef) (ticket : Ticket)
    (handle : HandleId) (callback : Callback) : Prop where
  /-- It is in exactly one condition. -/
  condition : ∃! condition : Condition,
    condition.Holds machine.stage (deeds passed) source ticket handle
  /-- It has not left a final condition that it was in earlier. -/
  final : ∀ before middle after, passed = before ++ middle :: after →
    ∀ condition : Condition, condition.Final →
      condition.Holds middle.stage (deeds before) source ticket handle →
      condition.Holds machine.stage (deeds passed) source ticket handle
  /-- It has had one turn at most. -/
  once : (deeds passed).countP (fun deed => deed.Serves source ticket) ≤ 1
  /-- Its turn runs what was registered for what it is told, and nothing else. -/
  turn : ∀ middle ∈ passed, ∀ served delivery,
    middle.deed? = some (.serves source ticket served delivery) →
      served = callback ∧ middle.step.control = .proceed ∧
        middle.step.stack = ((callback.body? delivery).map Call.body).toList ++ middle.stack
  /-- It never has a turn if its handle is cancelled before. -/
  cancelled : ∀ before middle after, passed = before ++ middle :: after →
    middle.deed? = some (.cancels handle) →
      (∀ deed ∈ deeds before, ¬ deed.Serves source ticket) →
        ∀ deed ∈ deeds passed, ¬ deed.Serves source ticket
  /-- A cancellation of its handle after its turn changes no queue of any component. -/
  late : ∀ before middle after, passed = before ++ middle :: after →
    middle.deed? = some (.cancels handle) →
      (∃ deed ∈ deeds before, deed.Serves source ticket) →
        middle.step.stage.awaiting = middle.stage.awaiting
  /-- A cancellation of any other handle leaves it in its condition. -/
  others : ∀ before middle after, passed = before ++ middle :: after →
    (∃ hooked, .accepts source ticket handle callback hooked ∈ deeds before) →
    ∀ id, middle.deed? = some (.cancels id) → id ≠ handle → ∀ condition : Condition,
      (condition.Holds middle.step.stage (deeds (before ++ [middle])) source ticket handle ↔
        condition.Holds middle.stage (deeds before) source ticket handle)

variable {passed : List Machine} {machine : Machine}

/-- In every course, every accepted awaiter has one fate; those that are pending in a queue stand in
the line that the course has left there, and the length of the queue is their number. No step calls
anybody back but as its deed says. -/
theorem awaiters_have_one_fate (course : Course passed machine) :
    (∀ middle ∈ passed, middle.Accounted) ∧
    (∀ source queue, machine.stage.awaiting source = some queue →
      queue.pending = (Deed.line source (deeds passed)).map Prod.fst ∧
      queue.size = {ticket | ∃ handle callback hooked,
        .accepts source ticket handle callback hooked ∈ deeds passed ∧
          Condition.pending.Holds machine.stage (deeds passed) source ticket handle}.ncard) ∧
    ∀ source ticket handle callback hooked,
      .accepts source ticket handle callback hooked ∈ deeds passed →
        OneFate passed machine source ticket handle callback := by
  have life := course.life
  refine ⟨fun middle _ => middle.accounted, fun source queue found => ⟨?_, life.size_eq found⟩,
    fun source ticket handle callback hooked accepted => ?_⟩
  · have line := life.pending_eq source
    rwa [found, Option.elim_some] at line
  constructor
  case condition => exact life.one_condition accepted
  case final =>
    rintro before middle after rfl condition final holds
    rw [deeds_append]
    exact Stage.holds_of_final final holds _
  case once => exact life.one_turn accepted
  case turn =>
    intro middle member served delivery done
    obtain ⟨before, after, rfl⟩ := List.append_of_mem member
    obtain ⟨proceeds, stack⟩ := step_of_serves done
    rw [deeds_append, deeds_cons, done] at life accepted
    have same : served = callback := life.callback_of_serves accepted
    subst same
    exact ⟨rfl, proceeds, stack⟩
  case cancelled =>
    rintro before middle after rfl done earlier deed member turn
    rw [deeds_append, deeds_cons, done] at life accepted member
    have settles : Deed.settles? source ticket handle (.cancels handle) = some .withdrawn :=
      if_pos rfl
    rcases List.mem_append.mp member with former | latter
    · exact earlier deed former turn
    · rcases List.mem_cons.mp latter with rfl | later
      · cases turn
      · exact life.no_turn_after accepted settles deed later turn
  case late =>
    rintro before middle after rfl done ⟨deed, member, turn⟩
    have early := course.before.life
    have step := stage_step early.attended
    rw [done] at step
    -- Who had a turn by then was registered by then.
    have registered : .accepts source ticket handle callback hooked ∈ deeds before := by
      obtain ⟨sooner, between, split⟩ := List.append_of_mem member
      rw [deeds_append, split, List.append_assoc, List.cons_append] at life accepted
      have known := (life.unsettled_before accepted (.inl turn)).1
      rw [split]
      exact List.mem_append_left _ known
    exact early.awaiting_of_late_cancel registered step rfl ⟨deed, member, turn⟩
  case others =>
    rintro before middle after rfl ⟨hooked, registered⟩ id done other condition
    have early := course.before.life
    have step := stage_step early.attended
    rw [done] at step
    rw [deeds_append, deeds_singleton, done]
    exact early.holds_of_other_cancel registered step other condition

/-- Two register, the first one cancels, and the queue is flushed. -/
def cancelledBeforeFlush : Machine :=
  let body : Body :=
    [.queue (.create "q"), .queue (.register "q" "a" (some "h") [] [] []),
      .queue (.register "q" "b" none [] [] []), .handle (.cancel "h"), .queue (.flush "q")]
  start { scripts := ⟨[("main", body)]⟩ } none (.call "main")

theorem awaiters_have_one_fate_flushed :
    OneFate (trail 30 cancelledBeforeFlush) (advanced 30 cancelledBeforeFlush) (.queue 0) 1 1
      (.waiter ⟨"b", [], []⟩) := by
  have course : Course (trail 30 cancelledBeforeFlush) (advanced 30 cancelledBeforeFlush) :=
    ⟨_, _, _, goes_trail 30 cancelledBeforeFlush⟩
  have done : deeds (trail 30 cancelledBeforeFlush) =
      [.accepts (.queue 0) 0 0 (.waiter ⟨"a", [], []⟩) true,
        .accepts (.queue 0) 1 1 (.waiter ⟨"b", [], []⟩) false, .cancels 0,
        .begins (.queue 0) .resume, .serves (.queue 0) 1 (.waiter ⟨"b", [], []⟩) .resume,
        .finishes (.queue 0)] := by
    with_unfolding_all rfl
  refine (awaiters_have_one_fate course).2.2 (.queue 0) 1 1 (.waiter ⟨"b", [], []⟩) false ?_
  rw [done]
  exact List.mem_cons_of_mem _ List.mem_cons_self

end LiveTree.Session.Machine
