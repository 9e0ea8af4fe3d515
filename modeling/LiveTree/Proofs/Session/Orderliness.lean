import LiveTree.Proofs.Awaiting.Numbering
import LiveTree.Proofs.Session.Fates

/-! Queues at every moment of a session. Between two commands, at the start of every callback and
after every panic, whoever looks at a queue finds it orderly: those that are pending wait, their
numbers go up, and everybody left in a batch comes before them. A handle that is cancelled therefore
takes its own awaiter off the list, or nobody if that was taken out before. -/
namespace LiveTree.Session

open Awaiting LiveTree.Frame
open scoped List

namespace Stage

variable {stage : Stage} {source : QueueRef} {queue changed : CallbackQueue} {deed : Option Deed}
  {history : List Deed}

/-- A registration puts one number more behind the others; every other step only leaves some
out. -/
private theorem Change.numbers (change : stage.Change source queue deed changed) :
    changed.numbers <+ queue.numbers ∨
      changed.numbers = queue.numbers ++ [queue.awaiters.size + 1] := by
  cases change with
  | stays => exact .inl (List.Sublist.refl _)
  | accepts accepted => exact .inr (Queue.numbers_register accepted)
  | withdraws => exact .inl (queue.numbers_withdraw _)
  | flushes => exact .inl (queue.numbers_flush _ ▸ List.Sublist.refl _)
  | closes reason => exact .inl (queue.numbers_close reason _ ▸ List.Sublist.refl _)
  | serves running split => exact .inl (Queue.numbers_handOver running split)
  | finishes running => exact .inl (Queue.numbers_finish running)
  | loses running => exact .inl (Queue.numbers_abandon running)

private theorem Change.ascending (change : stage.Change source queue deed changed)
    (ascending : queue.numbers.Pairwise (· < ·)) : changed.numbers.Pairwise (· < ·) := by
  rcases change.numbers with fewer | more
  · exact ascending.sublist fewer
  · rw [more]
    refine List.pairwise_append.mpr ⟨ascending, List.pairwise_singleton .., ?_⟩
    intro number member next latest
    rw [List.mem_singleton.mp latest]
    exact Nat.lt_succ_of_le (Queue.le_of_mem_numbers ascending member)

/-- Every queue is orderly, whatever has happened. -/
theorem Life.orderly (life : Life history stage) (found : stage.awaiting source = some queue) :
    queue.Orderly := by
  have empty : ({} : CallbackQueue).numbers.Pairwise (· < ·) := List.pairwise_singleton ..
  have ascending : queue.numbers.Pairwise (· < ·) :=
    life.holds_of_kept found empty fun change ascending => change.ascending ascending
  exact (life.sound found).orderly ascending

end Stage

namespace Machine

variable {passed : List Machine} {machine : Machine}

/-- In every course, every queue is orderly at every moment. Whenever the handle of an awaiter is
cancelled, only the queue of that awaiter can change, and its list loses the awaiter itself or
nobody, which is also what a search by numbers of 64 bits takes off, as long as fewer than 2^64 have
registered. -/
theorem queues_stay_orderly (course : Course passed machine) :
    (∀ source queue, machine.stage.awaiting source = some queue → queue.Orderly) ∧
    ∀ source ticket handle callback hooked,
      .accepts source ticket handle callback hooked ∈ deeds passed →
        machine.deed? = some (.cancels handle) →
          ∃ queue changed, machine.stage.awaiting source = some queue ∧
            machine.step.stage.awaiting =
              Function.update machine.stage.awaiting source (some changed) ∧
            queue.Removal ticket changed ∧
            (queue.awaiters.size < UInt64.size →
              changed.pending = Queue.strikeOut ticket queue.pending) := by
  have life := course.life
  refine ⟨fun source queue found => life.orderly found, ?_⟩
  intro source ticket handle callback hooked accepted cancels
  obtain ⟨queue, found, -, known⟩ := life.fate?_of_accepted accepted
  have step := stage_step life.attended
  rw [cancels] at step
  have stepped : machine.step.stage = machine.stage.cancel handle := by
    generalize machine.step.stage = after at step
    cases step
    rfl
  have removal := (life.sound found).removal ticket
  refine ⟨queue, queue.withdraw ticket, found, ?_, removal, ?_⟩
  · rw [stepped, life.awaiting_cancel accepted found]
  · intro few
    exact removal.pending_eq (life.orderly found) few (Queue.lt_size_of_fate? known)

/-- Two awaiters are handed over. The first of them, when it has its turn, registers two more, and
cancels the handle of the second one and that of the third one. -/
def cancelsMidFlush : Machine :=
  let first : Body :=
    [.queue (.register "q" "c" (some "c") [] [] []), .queue (.register "q" "d" none [] [] []),
      .handle (.cancel "b"), .handle (.cancel "c")]
  let body : Body :=
    [.queue (.create "q"), .queue (.register "q" "a" none first [] []),
      .queue (.register "q" "b" (some "b") [] [] []), .queue (.flush "q")]
  start { scripts := ⟨[("main", body)]⟩ } none (.call "main")

/-- When the third one is cancelled, the second one is still left in the batch. -/
theorem queues_stay_orderly_mid_flush :
    ∃ queue changed, (advanced 30 cancelsMidFlush).stage.awaiting (.queue 0) = some queue ∧
      queue.batched = [1] ∧ queue.pending = [2, 3] ∧ queue.Orderly ∧
      (advanced 31 cancelsMidFlush).stage.awaiting (.queue 0) = some changed ∧
      queue.Removal 2 changed ∧ changed.pending = [3] := by
  have course : Course (trail 30 cancelsMidFlush) (advanced 30 cancelsMidFlush) :=
    ⟨_, _, _, goes_trail 30 cancelsMidFlush⟩
  have accepted : .accepts (.queue 0) 2 2 (.waiter ⟨"c", [], []⟩) true ∈
      deeds (trail 30 cancelsMidFlush) := by
    have fifth : (deeds (trail 30 cancelsMidFlush))[4]? =
        some (.accepts (.queue 0) 2 2 (.waiter ⟨"c", [], []⟩) true) := by
      with_unfolding_all rfl
    exact List.mem_of_getElem? fifth
  have cancels : (advanced 30 cancelsMidFlush).deed? = some (.cancels 2) := by
    with_unfolding_all rfl
  have lists : ((advanced 30 cancelsMidFlush).stage.awaiting (.queue 0)).map
      (fun queue => (queue.batched, queue.pending, queue.awaiters.size)) =
        some ([1], [2, 3], 4) := by
    with_unfolding_all rfl
  obtain ⟨orderly, removes⟩ := queues_stay_orderly course
  obtain ⟨queue, changed, found, after, removal, struck⟩ := removes _ _ _ _ _ accepted cancels
  rw [found, Option.map_some, Option.some.injEq, Prod.mk.injEq, Prod.mk.injEq] at lists
  obtain ⟨batched, pending, size⟩ := lists
  refine ⟨queue, changed, found, batched, pending, orderly _ _ found, ?_, removal, ?_⟩
  · change (advanced 30 cancelsMidFlush).step.stage.awaiting (.queue 0) = some changed
    rw [after, Function.update_self]
  · rw [struck (by rw [size]; decide), pending]
    decide

end Machine

end LiveTree.Session
