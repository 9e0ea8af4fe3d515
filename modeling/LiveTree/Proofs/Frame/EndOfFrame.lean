import LiveTree.Proofs.Session.Calling
import LiveTree.Proofs.Session.Enlistment

/-! Work for the end of a frame runs once. An action that was accepted is told of exactly one thing
in the first call that ends its frame or closes its scheduler, unless it is cancelled before its
turn; and a panic of an action goes no further than that call. -/
namespace LiveTree.Session

open Awaiting LiveTree.Frame

/-- A deed that completes a frame of a scheduler or closes it. -/
def Deed.EndsFrame (id : Nat) : Deed → Prop
  | begins source _ => source = .scheduler id
  | idles scheduler => scheduler = id
  | _ => False

namespace Stage

variable {stage after : Stage} {history : List Deed} {id : Nat} {ticket : Ticket}
  {handle : HandleId} {callback : Callback} {hooked : Bool} {base : List QueueRef}
  {deed : Option Deed}

/-- A call of a scheduler is in progress that began over some other calls. -/
def InCall (stage : Stage) (id : Nat) (base : List QueueRef) : Prop :=
  .scheduler id :: base <:+ stage.serving

/-- An awaiter is still where the next call of its scheduler finds it. -/
def Queued (stage : Stage) (id : Nat) (ticket : Ticket) : Prop :=
  ∃ queue, stage.awaiting (.scheduler id) = some queue ∧ queue.closed = none ∧
    ticket < queue.awaiters.size ∧ (queue.fate? ticket = some .waiting → ticket ∈ queue.pending)

/-- A call of a scheduler is in progress until it is done with its batch. -/
private theorem Step.inCall (step : stage.Step deed after) (inCall : stage.InCall id base) :
    after.InCall id base ∨ deed = some (.finishes (.scheduler id)) ∧
      stage.serving = .scheduler id :: base ∧ after.serving = base := by
  rcases step.within inCall with still | ⟨finished | ⟨-, free⟩, innermost, ended⟩
  · exact .inl still
  · exact .inr ⟨finished, innermost, ended⟩
  · exact absurd rfl (free id)

/-- Who was accepted is queued until a frame ends. -/
private theorem Life.queued {sooner between : List Deed}
    (life : Life
      (sooner ++ .accepts (.scheduler id) ticket handle callback hooked :: between) stage)
    (first : ∀ done ∈ between, ¬ done.EndsFrame id) : stage.Queued id ticket :=
  life.ready fun _ member => first _ member rfl

/-- Nobody has a turn with a scheduler before a frame ends. -/
private theorem Life.unserved {sooner between : List Deed}
    (life : Life
      (sooner ++ .accepts (.scheduler id) ticket handle callback hooked :: between) stage)
    (first : ∀ done ∈ between, ¬ done.EndsFrame id) :
    ∀ deed ∈ sooner ++ .accepts (.scheduler id) ticket handle callback hooked :: between,
      ¬ deed.Serves (.scheduler id) ticket := fun deed member turn =>
  life.undisturbed (fun _ among => first _ among rfl) deed member (.inl turn)

/-- What a scheduler has accepted is never lost. -/
private theorem Life.never_loses (life : Life history stage) {tickets : List Ticket} :
    .loses (.scheduler id) tickets ∉ history := by
  intro member
  obtain ⟨before, after, rfl⟩ := List.append_of_mem member
  obtain ⟨first, second, -, step⟩ := life.split
  cases step with
  | loses _ _ _ free => exact free id rfl

end Stage

namespace Machine

variable {machine : Machine} {deed : Deed} {id : Nat}

/-- The frame of a scheduler that is not closed is ended by a command, which begins to hand
over. -/
private theorem begins_of_endsFrame {queue : CallbackQueue} (done : machine.deed? = some deed)
    (ends : deed.EndsFrame id) (found : machine.stage.awaiting (.scheduler id) = some queue)
    (unclosed : queue.closed = none) :
    ∃ delivery, deed = .begins (.scheduler id) delivery ∧
      ((∃ name, machine.control = .execute (.scheduler (.completeFrame name)) ∧
          delivery = .resume) ∨
        ∃ name reason, machine.control = .execute (.scheduler (.close name reason)) ∧
          delivery = .refuse ⟨reason⟩) := by
  cases doing_of_deed done with
  | starts control starting =>
    cases starting with
    | registers | startsFrame | cancels => cases ends
    | flushes free => exact absurd ends (free id)
    | closes _ free => exact absurd ends (free id)
    | completesFrame name =>
      cases ends
      exact ⟨.resume, rfl, .inl ⟨name, control, rfl⟩⟩
    | idles name present closed =>
      cases ends
      cases found.symm.trans present
      exact absurd unclosed closed
    | closesScheduler name reason present =>
      cases ends
      cases found.symm.trans present
      rw [unclosed]
      exact ⟨_, rfl, .inr ⟨name, reason, control, rfl⟩⟩
  | serves | finishes | loses | moves | refuses => cases ends

/-- What becomes of an action in the call that ends its frame. -/
structure EndOfFrame (earlier : List Machine) (ending : Machine) (later : List Machine)
    (machine : Machine) (id : Nat) (ticket : Ticket) (handle : HandleId) (callback : Callback)
    (delivery : Delivery) : Prop where
  /-- It had no turn before that call. -/
  before : ∀ deed ∈ deeds earlier, ¬ deed.Serves (.scheduler id) ticket
  /-- Its turn falls into that call, and runs what was registered for what the call tells. -/
  inside : ∀ during middle rest, later = during ++ middle :: rest →
    ∀ served told, middle.deed? = some (.serves (.scheduler id) ticket served told) →
      told = delivery ∧ middle.step.control = .proceed ∧
        middle.step.stack = ((callback.body? delivery).map Call.body).toList ++ middle.stack ∧
        ∀ other ∈ during ++ [middle], other.stage.InCall id ending.stage.serving
  /-- It has had exactly one turn, or its handle was cancelled before its turn, or the call is still
  in progress and it waits there. -/
  outcome : (deeds later).countP (fun deed => deed.Serves (.scheduler id) ticket) = 1 ∨
    Condition.cancelled.Holds machine.stage (deeds (earlier ++ ending :: later)) (.scheduler id)
      ticket handle ∨
    (∀ middle ∈ later ++ [machine], middle.stage.InCall id ending.stage.serving) ∧
      Condition.inBatch.Holds machine.stage (deeds (earlier ++ ending :: later)) (.scheduler id)
        ticket handle

/-- How a scheduler contains panics in a course. -/
structure Contained (passed : List Machine) (machine : Machine) (id : Nat) : Prop where
  /-- No command on it starts with a panic. -/
  starts : ∀ middle ∈ passed, ∀ command reason, middle.control = .execute (.scheduler command) →
    middle.step.control ≠ .unwind reason
  /-- A panic that comes to one of its calls ends there: the call goes on where it was, and nothing
  becomes of any action. -/
  caught : ∀ middle ∈ passed, ∀ rest reason, middle.stack = .scheduler id :: rest →
    middle.control = .unwind reason →
      middle.step.control = .proceed ∧ middle.step.stack = middle.stack ∧
        middle.step.stage = middle.stage
  /-- Whenever one of its calls is to go on, it gives an action its turn or ends. -/
  proceeds : ∀ middle ∈ passed, ∀ rest, middle.stack = .scheduler id :: rest →
    middle.control = .proceed →
      (∃ ticket callback told,
        middle.deed? = some (.serves (.scheduler id) ticket callback told)) ∨
      middle.deed? = some (.finishes (.scheduler id))
  /-- Its calls end by answering. -/
  answers : ∀ before middle next after base,
    passed ++ [machine] = before ++ middle :: next :: after →
      middle.stage.InCall id base → ¬ next.stage.InCall id base →
        ∃ answer, next.control = .answer answer

variable {passed : List Machine}

private theorem control_executeScheduler (machine : Machine) (command : SchedulerCommand Body)
    (reason : Panic) : (machine.executeScheduler command).control ≠ .unwind reason := by
  have scheduled (name : Name) (handle : Option Name) (action : Action) :
      (machine.schedule name handle action).control ≠ .unwind reason := by
    simp only [schedule, onScheduler]
    split
    · rintro ⟨⟩
    · split
      · rintro ⟨⟩
      · split
        · rintro ⟨⟩
        · split <;> rintro ⟨⟩
  cases command with
  | create => rintro ⟨⟩
  | schedulePlain | scheduleInformed => exact scheduled _ _ _
  | share | describe | startFrame | close =>
    simp only [executeScheduler, onScheduler]
    split
    · rintro ⟨⟩
    · split <;> rintro ⟨⟩
  | completeFrame =>
    simp only [executeScheduler, onScheduler]
    split
    · rintro ⟨⟩
    · split
      · rintro ⟨⟩
      · split <;> rintro ⟨⟩

private theorem Course.contained (course : Course passed machine) (id : Nat) :
    Contained passed machine id := by
  constructor
  case starts =>
    intro middle _ command reason control
    have stepped : middle.step = middle.executeScheduler command := by
      simp only [step, control]
      rfl
    rw [stepped]
    exact control_executeScheduler middle command reason
  case caught =>
    intro middle _ rest reason stack control
    have stepped : middle.step = middle.catchInScheduler id reason := by
      simp only [step, control, stack]
      rfl
    rw [stepped]
    refine ⟨?_, ?_, stage_catchInScheduler id reason⟩
    · unfold catchInScheduler
      split <;> rfl
    · unfold catchInScheduler
      split
      · rfl
      · unfold diagnoseRefusedAction
        split
        · rfl
        · split
          · exact stack_diagnose ..
          · rfl
  case proceeds =>
    intro middle member rest stack control
    obtain ⟨before, after, rfl⟩ := List.append_of_mem member
    have innermost := serving_of_source stack rfl
    obtain ⟨queue, found, busy⟩ := busy_of_attended course.before.life.attended innermost
    have turn : middle.deed? = middle.stage.turn? (.scheduler id) := by
      simp only [deed?, control, stack, continued?]
    rw [turn]
    exact Stage.exists_turn? found busy
  case answers =>
    intro before middle next after base split inCall outside
    obtain ⟨early, move⟩ := course.adjacent split
    have step := move.stage_step early.life.attended
    rcases step.inCall inCall with still | ⟨ended, -, -⟩
    · exact absurd still outside
    · obtain ⟨_, _, _, answer, -, -, -, answers, -⟩ := step_of_finishes ended
      rw [move.eq_step ended]
      exact ⟨answer, answers⟩

/-- What becomes of an action that is queued when a call ends its frame. -/
private theorem Course.endOfFrame {earlier later : List Machine} {ending : Machine}
    {ticket : Ticket} {handle : HandleId} {callback : Callback} {hooked : Bool}
    {delivery : Delivery} (course : Course (earlier ++ ending :: later) machine)
    (accepted : .accepts (.scheduler id) ticket handle callback hooked ∈ deeds earlier)
    (queued : ending.stage.Queued id ticket)
    (began : ending.deed? = some (.begins (.scheduler id) delivery))
    (unserved : ∀ deed ∈ deeds earlier, ¬ deed.Serves (.scheduler id) ticket) :
    EndOfFrame earlier ending later machine id ticket handle callback delivery := by
  constructor
  case before => exact unserved
  case inside =>
    intro during middle rest split served told done
    obtain ⟨rfl, rfl, -, inside⟩ := course.serves_inside accepted queued began split done
    obtain ⟨proceeds, stack⟩ := step_of_serves done
    exact ⟨rfl, proceeds, stack, inside⟩
  case outcome =>
    cases settled : Deed.settled? (.scheduler id) ticket handle
        (deeds (earlier ++ ending :: later)) with
    | none => exact .inr (.inr (course.inBatch_of_unsettled accepted queued began settled))
    | some fate =>
      cases fate with
      | waiting => exact absurd settled Stage.settled?_ne_waiting
      | handedOver => exact .inl (course.one_turn_since accepted began unserved settled)
      | withdrawn => exact .inr (.inl (Stage.cancelled_iff.mpr settled))
      | lost =>
        have member := mem_deeds_append_left (ending :: later) accepted
        obtain ⟨tickets, lost, -⟩ := (course.life.lost_iff member).mpr settled
        exact absurd lost course.life.never_loses

/-- In every course, the work for the end of a frame runs once: an action that a scheduler accepted
has at most one turn; where the scheduler first completes a frame or is closed after that, the
action is told so in that very call, and once, unless it was cancelled before; and no panic of an
action leaves such a call. No step calls an action but as its deed says. -/
theorem frame_end_work_runs_once (course : Course passed machine) (id : Nat) :
    (∀ middle ∈ passed, middle.Accounted) ∧ Contained passed machine id ∧
    ∀ ticket handle callback hooked,
      .accepts (.scheduler id) ticket handle callback hooked ∈ deeds passed →
        (deeds passed).countP (fun deed => deed.Serves (.scheduler id) ticket) ≤ 1 ∧
        ∀ earlier ending later, passed = earlier ++ ending :: later →
          ∀ sooner between,
            deeds earlier =
              sooner ++ .accepts (.scheduler id) ticket handle callback hooked :: between →
            (∀ done ∈ between, ¬ done.EndsFrame id) →
            ∀ deed, ending.deed? = some deed → deed.EndsFrame id →
              ∃ delivery, deed = .begins (.scheduler id) delivery ∧
                ((∃ name, ending.control = .execute (.scheduler (.completeFrame name)) ∧
                    delivery = .resume) ∨
                  ∃ name reason, ending.control = .execute (.scheduler (.close name reason)) ∧
                    delivery = .refuse ⟨reason⟩) ∧
                EndOfFrame earlier ending later machine id ticket handle callback delivery := by
  refine ⟨fun middle _ => middle.accounted, course.contained id, ?_⟩
  intro ticket handle callback hooked accepted
  refine ⟨course.life.one_turn accepted, ?_⟩
  rintro earlier ending later rfl sooner between waits first deed done ends
  have early := course.before.life
  rw [waits] at early
  have queued := early.queued first
  have unserved := early.unserved first
  rw [← waits] at unserved
  have registered : .accepts (.scheduler id) ticket handle callback hooked ∈ deeds earlier := by
    rw [waits]
    exact List.mem_append_right _ List.mem_cons_self
  have ⟨queue, found, unclosed, _, _⟩ := queued
  obtain ⟨delivery, rfl, told⟩ := begins_of_endsFrame done ends found unclosed
  exact ⟨delivery, rfl, told, course.endOfFrame registered queued done unserved⟩

/-- Two actions wait for the end of a frame, and the first one panics when its turn comes. -/
def panicsAtFrameEnd : Machine :=
  let body : Body :=
    [.scheduler (.create "s" {} []),
      .scheduler (.schedulePlain "s" "a" none [.panic .wordless]),
      .scheduler (.scheduleInformed "s" "b" none [] []),
      .scheduler (.completeFrame "s")]
  start { scripts := ⟨[("main", body)]⟩ } none (.call "main")

theorem frame_end_work_runs_once_despite_panic :
    EndOfFrame (trail 14 panicsAtFrameEnd) (advanced 14 panicsAtFrameEnd)
      (trail 9 (advanced 15 panicsAtFrameEnd)) (advanced 24 panicsAtFrameEnd) 0 1 1
      (.action ⟨"b", [], some []⟩) .resume := by
  have course : Course (trail 24 panicsAtFrameEnd) (advanced 24 panicsAtFrameEnd) :=
    ⟨_, _, _, goes_trail 24 panicsAtFrameEnd⟩
  have waits : deeds (trail 14 panicsAtFrameEnd) =
      [.accepts (.scheduler 0) 0 0 (.action ⟨"a", [.panic .wordless], none⟩) true,
        .accepts (.scheduler 0) 1 1 (.action ⟨"b", [], some []⟩) false] := by
    with_unfolding_all rfl
  have began : (advanced 14 panicsAtFrameEnd).deed? = some (.begins (.scheduler 0) .resume) := by
    with_unfolding_all rfl
  have split : trail 24 panicsAtFrameEnd = trail 14 panicsAtFrameEnd ++
      advanced 14 panicsAtFrameEnd :: trail 9 (advanced 15 panicsAtFrameEnd) := rfl
  have accepted : .accepts (.scheduler 0) 1 1 (.action ⟨"b", [], some []⟩) false ∈
      deeds (trail 24 panicsAtFrameEnd) := by
    rw [split, deeds_append, waits]
    exact List.mem_append_left _ (List.mem_cons_of_mem _ List.mem_cons_self)
  obtain ⟨-, ended⟩ := (frame_end_work_runs_once course 0).2.2 1 1 _ false accepted
  obtain ⟨delivery, same, -, told⟩ := ended _ _ _ split [_] [] waits nofun _ began rfl
  obtain ⟨-, rfl⟩ := Deed.begins.inj same
  exact told

end Machine

end LiveTree.Session
