import LiveTree.Proofs.Session.Books

/-! Where batches come from. A batch that is being handed over was taken out of its queue by a call
that is still in progress: the call began for the purpose of the batch, and whoever has its turn
in the batch waited in the queue then. Batches of one queue can lie above each other, because
calls can begin inside calls; how deep a batch lies tells its call from the others. -/
namespace LiveTree.Session

open Awaiting LiveTree.Frame

namespace Stage

variable {stage : Stage} {source : QueueRef} {queue changed : CallbackQueue} {deed : Option Deed}

/-- A batch that is in progress after a step has just been taken out, or it was in progress before,
perhaps with more awaiters and with another batch above it. -/
private theorem Change.running_cases (change : stage.Change source queue deed changed)
    {inner outer : List (Batch Delivery)} {batch : Batch Delivery}
    (running : changed.running = inner ++ batch :: outer) :
    (deed = some (.begins source batch.purpose) ∧ batch.rest = queue.pending ∧
      outer = queue.running) ∨
    ∃ inside former, queue.running = inside ++ former :: outer ∧
      former.purpose = batch.purpose ∧ batch.rest ⊆ former.rest := by
  have old (same : changed.running = queue.running) :
      ∃ inside former, queue.running = inside ++ former :: outer ∧
        former.purpose = batch.purpose ∧ batch.rest ⊆ former.rest :=
    ⟨inner, batch, same.symm.trans running, rfl, List.Subset.refl _⟩
  have ended (top : Batch Delivery) (popped : queue.running = top :: changed.running) :
      ∃ inside former, queue.running = inside ++ former :: outer ∧
        former.purpose = batch.purpose ∧ batch.rest ⊆ former.rest :=
    ⟨top :: inner, batch, popped.trans (congrArg _ running), rfl, List.Subset.refl _⟩
  cases change with
  | stays => exact .inr (old rfl)
  | accepts accepted =>
    obtain ⟨-, same⟩ := Queue.register_eq_ok_iff.mp accepted
    exact .inr (old (by rw [same]))
  | withdraws => exact .inr (old (Queue.running_withdraw ..))
  | flushes =>
    cases inner with
    | nil =>
      cases running
      exact .inl ⟨rfl, rfl, rfl⟩
    | cons top inner =>
      exact .inr ⟨inner, batch, (List.cons.inj running).2, rfl, List.Subset.refl _⟩
  | closes reason =>
    cases inner with
    | nil =>
      cases running
      exact .inl ⟨rfl, rfl, rfl⟩
    | cons top inner =>
      exact .inr ⟨inner, batch, (List.cons.inj running).2, rfl, List.Subset.refl _⟩
  | @serves top others skipped rest ticket callback front split =>
    cases inner with
    | nil =>
      cases running
      refine .inr ⟨[], top, front, rfl, ?_⟩
      rw [split]
      exact List.subset_append_of_subset_right _ (List.subset_cons_self ..)
    | cons current inner =>
      refine .inr ⟨top :: inner, batch, ?_, rfl, List.Subset.refl _⟩
      rw [front, (List.cons.inj running).2]
      rfl
  | finishes front => exact .inr (ended _ front)
  | @loses top others front =>
    refine .inr (ended top ?_)
    simp only [Queue.abandon, front]

end Stage

namespace Machine

variable {passed : List Machine} {machine : Machine} {source : QueueRef} {queue : CallbackQueue}

/-- The call that began at some machine took a batch out, and it has been in progress since. -/
structure TookOut (beginning : Machine) (since : List Machine) (machine : Machine)
    (source : QueueRef) (batch : Batch Delivery) : Prop where
  /-- It began for the purpose of the batch. -/
  began : beginning.deed? = some (.begins source batch.purpose)
  /-- Whoever is left in the batch waited then. -/
  waited : ∃ queue, beginning.stage.awaiting source = some queue ∧ batch.rest ⊆ queue.pending
  /-- It is in progress, with the calls below it that were in progress when it began. -/
  inProgress : ∀ middle ∈ since ++ [machine],
    source :: beginning.stage.serving <:+ middle.stage.serving

/-- Every batch in progress was taken out by a call in progress. -/
theorem Course.tookOut (course : Course passed machine)
    (found : machine.stage.awaiting source = some queue) {inner outer : List (Batch Delivery)}
    {batch : Batch Delivery} (running : queue.running = inner ++ batch :: outer) :
    ∃ before beginning since, passed = before ++ beginning :: since ∧
      TookOut beginning since machine source batch ∧
      beginning.stage.serving.count source = outer.length := by
  obtain ⟨scripts, listener, command, goes⟩ := course
  induction goes generalizing queue inner batch with
  | stays =>
    rw [stage_start] at found
    cases found
  | @moves passed last machine goes move ih =>
    have early : Course passed last := ⟨scripts, listener, command, goes⟩
    have step := move.stage_step early.life.attended
    have attended := step.attended early.life.attended source
    rw [found, Option.elim_some, running, List.length_append, List.length_cons] at attended
    cases former : last.stage.awaiting source with
    | none =>
      rcases step.appears former with still | ⟨opened, -⟩
      · rw [still] at found
        cases found
      · cases found.symm.trans opened
        exact absurd running.symm (by simp)
    | some held =>
      obtain ⟨changed, present, change⟩ := step.change former
      cases found.symm.trans present
      rcases change.running_cases running with
        ⟨began, rest, rfl⟩ | ⟨inside, old, split, purpose, left⟩
      · -- The step takes the batch out.
        have depth := early.life.attended source
        rw [former, Option.elim_some] at depth
        rw [began] at step
        refine ⟨passed, last, [], rfl, ⟨began, ⟨held, former, ?_⟩, ?_⟩, depth.symm⟩
        · rw [rest]
          exact List.Subset.refl _
        · intro middle member
          simp only [List.mem_singleton.mp member, step.serving_of_begins, List.suffix_refl]
      · obtain ⟨before, beginning, since, rfl, tookOut, depth⟩ := ih former split
        obtain ⟨queue, known, waited⟩ := tookOut.waited
        have soFar := tookOut.inProgress last (List.mem_append_right _ List.mem_cons_self)
        refine ⟨before, beginning, since ++ [last], by simp,
          ⟨purpose ▸ tookOut.began, ⟨queue, known, List.Subset.trans left waited⟩, ?_⟩, depth⟩
        intro middle member
        rcases List.mem_append.mp member with earlier | latest
        · exact tookOut.inProgress middle earlier
        · rw [List.mem_singleton.mp latest]
          -- The call cannot have ended, because there are more batches than calls below it.
          rcases step.turnover.call_stays soFar with still | ⟨-, ended, -⟩
          · exact still
          · rw [ended] at attended
            omega

end Machine

end LiveTree.Session
