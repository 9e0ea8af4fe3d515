import LiveTree.Proofs.Session.Handing
import LiveTree.Proofs.Session.Orderliness

/-! Generations. Whatever a call takes out of its queue when it begins, it goes through in the order
of registration and once: whoever has not been cancelled before its turn has its turn, and whoever
registers meanwhile is left to the next call. However deep calls of one queue lie inside each other,
each of them has a batch of its own, so this is shown for one batch, whatever happens around it. -/
namespace LiveTree.Session

open Awaiting LiveTree.Frame
open scoped List

namespace Deed

/-- The ticket that a deed gives to somebody who registers with a component. -/
def accepted? (source : QueueRef) : Deed → Option Ticket
  | accepts origin ticket _ _ _ => if origin = source then some ticket else none
  | _ => none

private theorem accepted?_accepts {source : QueueRef} {ticket : Ticket} {handle : HandleId}
    {callback : Callback} {hooked : Bool} :
    accepted? source (.accepts source ticket handle callback hooked) = some ticket := if_pos rfl

/-- Those of a line whose handle was not cancelled before anything else became of them. -/
def uncancelled (source : QueueRef) (history : List Deed) (line : List (Ticket × HandleId)) :
    List Ticket :=
  (line.filter fun waiting => settled? source waiting.1 waiting.2 history ≠ some .withdrawn).map
    Prod.fst

end Deed

namespace Stage

variable {stage after : Stage} {source : QueueRef} {queue changed : CallbackQueue}
  {deed : Option Deed} {history : List Deed} {base : List QueueRef} {delivery : Delivery}

/-! ### Tickets are numbers in the order of registration -/

/-- A registration is given the next number; no other deed gives one. -/
private theorem Change.range_size (change : stage.Change source queue deed changed) :
    List.range queue.awaiters.size ++ deed.toList.filterMap (Deed.accepted? source) =
      List.range changed.awaiters.size := by
  have quiet (nothing : deed.toList.filterMap (Deed.accepted? source) = [])
      (same : changed.awaiters.size = queue.awaiters.size) :
      List.range queue.awaiters.size ++ deed.toList.filterMap (Deed.accepted? source) =
        List.range changed.awaiters.size := by
    rw [nothing, same, List.append_nil]
  cases change with
  | stays foreign =>
    refine quiet ?_ rfl
    cases deed with
    | none => rfl
    | some done =>
      cases done with
      | accepts origin => simp [Deed.accepted?, show origin ≠ source from foreign _ rfl]
      | _ => rfl
  | accepts accepted =>
    obtain ⟨-, rfl⟩ := Queue.register_eq_ok_iff.mp accepted
    simp [Deed.accepted?, List.range_succ]
  | withdraws => exact quiet rfl (Queue.size_withdraw ..)
  | flushes => exact quiet rfl rfl
  | closes => exact quiet rfl rfl
  | serves => exact quiet rfl (by simp [Queue.handOver, Queue.settle])
  | finishes => exact quiet rfl rfl
  | loses => exact quiet rfl (Queue.size_abandon _)

/-- The tickets that a component has given, in order, are the numbers from zero on. -/
private theorem Life.accepted_eq_range (life : Life history stage) (source : QueueRef) :
    history.filterMap (Deed.accepted? source) =
      List.range ((stage.awaiting source).elim 0 fun queue => queue.awaiters.size) := by
  induction life with
  | bare => rfl
  | @next history stage after deed life step ih =>
    rw [List.filterMap_append, ih]
    cases found : stage.awaiting source with
    | none =>
      have nothing : deed.toList.filterMap (Deed.accepted? source) = [] := by
        rcases deed with _ | done
        · rfl
        · cases done with
          | accepts origin =>
            have other : origin ≠ source := by
              rintro rfl
              cases step with
              | accepts known => cases found.symm.trans known
            simp [Deed.accepted?, other]
          | _ => rfl
      rw [nothing]
      rcases step.appears found with absent | ⟨fresh, -⟩
      · rw [absent]
        rfl
      · rw [fresh]
        rfl
    | some queue =>
      obtain ⟨changed, present, change⟩ := step.change found
      rw [present]
      exact change.range_size

/-! ### A call goes through its batch -/

/-- What is decided stays decided. -/
private theorem settled?_append_of_ne {ticket : Ticket} {handle : HandleId}
    (settled : Deed.settled? source ticket handle history ≠ none) (deed : Option Deed) :
    Deed.settled? source ticket handle (history ++ deed.toList) =
      Deed.settled? source ticket handle history := by
  rw [settled?_append]
  obtain ⟨fate, known⟩ := Option.ne_none_iff_exists'.mp settled
  rw [known]
  rfl

private theorem uncancelled_append_of_settled {line : List (Ticket × HandleId)}
    (settled : ∀ waiting ∈ line, Deed.settled? source waiting.1 waiting.2 history ≠ none)
    (deed : Option Deed) :
    Deed.uncancelled source (history ++ deed.toList) line =
      Deed.uncancelled source history line := by
  unfold Deed.uncancelled
  congr 1
  refine List.filter_congr fun waiting member => ?_
  rw [settled?_append_of_ne (settled waiting member)]

@[simp]
theorem uncancelled_append (before later : List (Ticket × HandleId)) :
    Deed.uncancelled source history (before ++ later) =
      Deed.uncancelled source history before ++ Deed.uncancelled source history later := by
  simp [Deed.uncancelled]

private theorem uncancelled_eq_nil {line : List (Ticket × HandleId)}
    (withdrawn : ∀ waiting ∈ line,
      Deed.settled? source waiting.1 waiting.2 history = some .withdrawn) :
    Deed.uncancelled source history line = [] := by
  refine List.map_eq_nil_iff.mpr (List.filter_eq_nil_iff.mpr fun waiting member => ?_)
  simp [withdrawn waiting member]

/-- A call has gone through part of a line: those that have been passed and those that are left,
with the turns that were given. -/
structure Midway (stage : Stage) (history : List Deed) (source : QueueRef)
    (base : List QueueRef) (delivery : Delivery) (passed left : List (Ticket × HandleId))
    (turns : List Ticket) : Prop where
  /-- The call is in progress over the calls it began over. -/
  within : stage.Within source base
  /-- Those that are left are in its batch, which counts the turns. -/
  batch : ∃ queue inner outer, stage.awaiting source = some queue ∧
    queue.running = inner ++ ⟨delivery, left.map Prod.fst, turns.length⟩ :: outer ∧
    outer.length = base.count source
  /-- Whoever has been passed has had a turn or was cancelled before. -/
  settled : ∀ waiting ∈ passed, Deed.settled? source waiting.1 waiting.2 history ≠ none
  turns : turns = Deed.uncancelled source history passed
  /-- The last one that was passed had a turn. -/
  last : ∀ waiting ∈ passed.getLast?,
    Deed.settled? source waiting.1 waiting.2 history = some .handedOver

/-- A call that begins has everybody that stands in line still before it. -/
private theorem Step.midway_of_begins (step : stage.Step (some (.begins source delivery)) after)
    (life : Life history stage) :
    after.Midway (history ++ [.begins source delivery]) source stage.serving delivery []
      (Deed.line source history) [] := by
  obtain ⟨queue, found⟩ := step.exists_of_begins
  have line := life.pending_eq source
  rw [found, Option.elim_some] at line
  have count := life.attended source
  rw [found, Option.elim_some] at count
  obtain ⟨changed, present, change⟩ := step.change found
  refine ⟨⟨[], step.serving_of_begins.symm⟩, ⟨changed, [], queue.running, present, ?_, count⟩,
    List.forall_mem_nil _, rfl, nofun⟩
  rw [← line]
  cases change with
  | stays foreign => exact absurd rfl (foreign _ rfl)
  | flushes => rfl
  | closes => rfl

section Midway

variable {passed left : List (Ticket × HandleId)} {turns : List Ticket}
  (registered : ∀ waiting ∈ left, ∃ callback hooked,
    .accepts source waiting.1 waiting.2 callback hooked ∈ history)
include registered

/-- Whoever is in a batch in progress and does not wait has been cancelled. -/
private theorem Life.withdrawn_of_batched (life : Life history stage)
    (found : stage.awaiting source = some queue)
    (batched : ∀ waiting ∈ left, waiting.1 ∈ queue.batched)
    (idle : ∀ waiting ∈ left, queue.fate? waiting.1 ≠ some .waiting) :
    ∀ waiting ∈ left, Deed.settled? source waiting.1 waiting.2 history = some .withdrawn := by
  intro waiting member
  obtain ⟨callback, hooked, accepted⟩ := registered waiting member
  obtain ⟨held, present, -, known⟩ := life.fate?_of_accepted accepted
  cases found.symm.trans present
  have fate := ((life.sound found).turnless _ (batched waiting member)).resolve_left
    (idle waiting member)
  rw [known] at fate
  cases settled : Deed.settled? source waiting.1 waiting.2 history with
  | none =>
    rw [settled] at fate
    cases fate
  | some other =>
    rw [settled] at fate
    exact fate

/-- A call goes on through its line until it ends. -/
private theorem Step.midway (step : stage.Step deed after) (life : Life history stage)
    (midway : stage.Midway history source base delivery passed left turns) :
    (∃ more rest, left = more ++ rest ∧
      after.Midway (history ++ deed.toList) source base delivery (passed ++ more) rest
        (turns ++ (stage.turnOver? source base deed).toList)) ∨
    Ends source deed ∧ stage.serving = source :: base := by
  obtain ⟨within, ⟨queue, inner, outer, found, running, depth⟩, settled, given, last⟩ := midway
  obtain ⟨changed, present, change⟩ := step.change found
  rcases step.within within with still | ⟨ends, innermost, -⟩
  case inr => exact .inr ⟨ends, innermost⟩
  left
  have goesOn := step.not_ends life.attended still found running depth
  rcases change.batch_cases running goesOn with ⟨⟨above, same⟩, foreign⟩ |
    ⟨rfl, skipped, ticket, rest, callback, rfl, split, idle, waiting, rfl⟩
  · -- Nobody has a turn in this call.
    have nobody : stage.turnOver? source base deed = none := by
      unfold turnOver?
      split
      · next alone =>
        have count := life.attended source
        rw [found, Option.elim_some, running, List.length_append, List.length_cons, depth, alone,
          List.count_cons_self] at count
        have innermost : inner = [] := List.length_eq_zero_iff.mp (by omega)
        refine Option.bind_eq_none_iff.mpr fun done same => ?_
        cases done with
        | serves origin =>
          refine if_neg ?_
          rintro rfl
          exact foreign innermost _ _ _ same
        | _ => rfl
      · rfl
    refine ⟨[], left, rfl, still, ?_, ?_, ?_, ?_⟩
    · rw [nobody, Option.toList_none, List.append_nil]
      exact ⟨changed, above, outer, present, same, depth⟩
    · intro waiting member
      rw [List.append_nil] at member
      rw [settled?_append_of_ne (settled waiting member)]
      exact settled waiting member
    · rw [nobody, Option.toList_none, List.append_nil, List.append_nil, given,
        uncancelled_append_of_settled settled]
    · intro waiting member
      rw [List.append_nil] at member
      rw [settled?_append_of_ne (settled waiting (List.mem_of_getLast? member))]
      exact last waiting member
  · -- The call gives a turn to the first one that waits.
    obtain ⟨more, others, rfl, rfl, behind⟩ := List.map_eq_append_iff.mp split
    obtain ⟨⟨ticket, handle⟩, rest, rfl, rfl, rfl⟩ := List.map_eq_cons_iff.mp behind
    obtain ⟨callback', hooked, accepted⟩ :=
      registered (ticket, handle) (List.mem_append_right _ List.mem_cons_self)
    have batched : ∀ waiting ∈ more ++ (ticket, handle) :: rest, waiting.1 ∈ queue.batched := by
      intro waiting member
      rw [Queue.batched, running, List.nil_append, List.flatMap_cons]
      exact List.mem_append_left _ (List.mem_map_of_mem member)
    have withdrawn : ∀ waiting ∈ more,
        Deed.settled? source waiting.1 waiting.2 history = some .withdrawn :=
      life.withdrawn_of_batched
        (fun other member => registered other (List.mem_append_left _ member)) found
        (fun other member => batched other (List.mem_append_left _ member))
        fun other member => idle _ (List.mem_map_of_mem member)
    have gone : ∀ waiting ∈ more,
        Deed.settled? source waiting.1 waiting.2
          (history ++ (some (Deed.serves source ticket callback delivery)).toList) =
            some .withdrawn := by
      intro waiting member
      have known := withdrawn waiting member
      rw [settled?_append_of_ne (known ▸ Option.some_ne_none _), known]
    have alone : stage.serving = source :: base := by
      refine (step.serves_of_enlists life ⟨within, queue, [], _, outer, found, running, depth, rfl,
        Queue.lt_size_of_fate? waiting, fun _ => ?_⟩).2
      exact List.mem_map_of_mem (List.mem_append_right _ List.mem_cons_self)
    have turn : stage.turnOver? source base
        (some (.serves source ticket callback delivery)) = some ticket := by
      simp [turnOver?, Deed.served?, alone]
    have served : Deed.settled? source ticket handle
        (history ++ (some (Deed.serves source ticket callback delivery)).toList) =
          some .handedOver := by
      rw [settled?_append, (life.waiting_iff accepted found).mp waiting]
      simp [Deed.settles?]
    refine ⟨more ++ [(ticket, handle)], rest, by simp, still, ?_, ?_, ?_, ?_⟩
    · rw [turn]
      refine ⟨_, [], outer, present, ?_, depth⟩
      simp [Queue.handOver]
    · intro waiting member
      rcases List.mem_append.mp member with former | latter
      · rw [settled?_append_of_ne (settled waiting former)]
        exact settled waiting former
      · rcases List.mem_append.mp latter with skip | latest
        · rw [gone waiting skip]
          exact Option.some_ne_none _
        · obtain rfl := List.mem_singleton.mp latest
          rw [served]
          exact Option.some_ne_none _
    · have final : Deed.uncancelled source
          (history ++ (some (Deed.serves source ticket callback delivery)).toList)
          [(ticket, handle)] = [ticket] := by
        rw [Deed.uncancelled, List.filter_cons_of_pos (by rw [served]; rfl)]
        rfl
      rw [turn, uncancelled_append, uncancelled_append, uncancelled_append_of_settled settled,
        uncancelled_eq_nil gone, final, given]
      rfl
    · intro waiting member
      rw [← List.append_assoc, List.getLast?_concat] at member
      cases member
      exact served

end Midway

/-- A call that ends is the innermost, and its batch is the first. -/
theorem Midway.innermost {passed left : List (Ticket × HandleId)} {turns : List Ticket}
    (midway : stage.Midway history source base delivery passed left turns)
    (life : Life history stage) (alone : stage.serving = source :: base) :
    ∃ queue outer, stage.awaiting source = some queue ∧
      queue.running = ⟨delivery, left.map Prod.fst, turns.length⟩ :: outer := by
  obtain ⟨queue, inner, outer, found, running, depth⟩ := midway.batch
  have count := life.attended source
  rw [found, Option.elim_some, running, List.length_append, List.length_cons, depth, alone,
    List.count_cons_self] at count
  obtain rfl : inner = [] := List.length_eq_zero_iff.mp (by omega)
  exact ⟨queue, outer, found, running⟩

/-- A call that is done with its batch has given a turn to all of its line that had not been
cancelled before. -/
private theorem Midway.turns_of_finishes {passed left : List (Ticket × HandleId)}
    {turns : List Ticket} (midway : stage.Midway history source base delivery passed left turns)
    (life : Life history stage) (alone : stage.serving = source :: base)
    (registered : ∀ waiting ∈ left, ∃ callback hooked,
      .accepts source waiting.1 waiting.2 callback hooked ∈ history)
    (step : stage.Step (some (.finishes source)) after) :
    turns = Deed.uncancelled source history (passed ++ left) := by
  obtain ⟨queue, outer, found, running⟩ := midway.innermost life alone
  cases step with
  | finishes present _ front idle =>
    cases found.symm.trans present
    cases running.symm.trans front
    have withdrawn := life.withdrawn_of_batched registered found (fun waiting member => by
      rw [Queue.batched, running, List.flatMap_cons]
      exact List.mem_append_left _ (List.mem_map_of_mem member))
      fun waiting member => idle _ (List.mem_map_of_mem member)
    rw [uncancelled_append, uncancelled_eq_nil withdrawn, List.append_nil]
    exact midway.turns

/-! ### Generations follow each other -/

/-- Whoever has had a turn comes before those that wait for one in a batch, and these before those
that are pending. -/
def Ascends (stage : Stage) (source : QueueRef) (history : List Deed) : Prop :=
  (history.filterMap (Deed.served? source) ++
    (stage.awaiting source).elim [] fun queue => queue.batched ++ queue.pending).Pairwise (· < ·)

/-- Whoever has had a turn, is in a batch or is pending has been given a ticket. -/
private theorem Life.lt_size_of_known (life : Life history stage)
    (found : stage.awaiting source = some queue) {ticket : Ticket}
    (known : ticket ∈ history.filterMap (Deed.served? source) ++ queue.batched ++ queue.pending) :
    ticket < queue.awaiters.size := by
  rw [List.append_assoc] at known
  rcases List.mem_append.mp known with handed | listed
  · obtain ⟨done, member, served⟩ := List.mem_filterMap.mp handed
    obtain ⟨held, present, inside⟩ : ∃ held, stage.awaiting source = some held ∧
        ticket < held.awaiters.size := by
      have known := life.knows member
      cases done with
      | serves origin =>
        simp only [Deed.served?] at served
        split at served
        · next own =>
          cases served
          exact own ▸ known
        · cases served
      | _ => cases served
    cases found.symm.trans present
    exact inside
  · have sound := life.sound found
    rcases List.mem_append.mp listed with batched | pending
    · rcases sound.turnless ticket batched with waits | withdrawn
      · exact Queue.lt_size_of_fate? waits
      · exact Queue.lt_size_of_fate? withdrawn
    · exact Queue.lt_size_of_fate? (sound.waits ticket pending)

/-- A step leaves the awaiters in order, unless a call begins inside another. -/
private theorem Step.ascends (step : stage.Step deed after) (life : Life history stage)
    (unnested : ∀ delivery, deed = some (.begins source delivery) → source ∉ stage.serving)
    (ascends : stage.Ascends source history) : after.Ascends source (history ++ deed.toList) := by
  unfold Ascends at ascends ⊢
  rw [List.filterMap_append]
  cases found : stage.awaiting source with
  | none =>
    have nothing : deed.toList.filterMap (Deed.served? source) = [] := by
      rcases deed with _ | done
      · rfl
      · cases done with
        | serves origin =>
          have other : origin ≠ source := by
            rintro rfl
            cases step with
            | serves known => cases found.symm.trans known
          simp [Deed.served?, other]
        | _ => rfl
    rw [found] at ascends
    rw [nothing, List.append_nil]
    rcases step.appears found with absent | ⟨fresh, -⟩
    · rwa [absent]
    · rwa [fresh]
  | some queue =>
    obtain ⟨changed, present, change⟩ := step.change found
    rw [found, Option.elim_some] at ascends
    rw [present, Option.elim_some]
    have quiet (nothing : deed.toList.filterMap (Deed.served? source) = [])
        (fewer : changed.batched ++ changed.pending <+ queue.batched ++ queue.pending) :
        (history.filterMap (Deed.served? source) ++
          deed.toList.filterMap (Deed.served? source) ++
          (changed.batched ++ changed.pending)).Pairwise (· < ·) := by
      rw [nothing, List.append_nil]
      exact ascends.sublist (fewer.append_left _)
    -- A batch that is taken out has no other before it.
    have takesOut (purpose : Delivery) (began : deed = some (.begins source purpose))
        (running : changed.running = ⟨purpose, queue.pending, 0⟩ :: queue.running)
        (pending : changed.pending = []) :
        changed.batched ++ changed.pending <+ queue.batched ++ queue.pending := by
      have count := life.attended source
      rw [found, Option.elim_some, List.count_eq_zero_of_not_mem (unnested purpose began)] at count
      rw [Queue.batched, Queue.batched, running, pending, List.length_eq_zero_iff.mp count]
      simp
    cases change with
    | stays foreign =>
      refine quiet ?_ (List.Sublist.refl _)
      rcases deed with _ | done
      · rfl
      · cases done with
        | serves origin => simp [Deed.served?, show origin ≠ source from foreign _ rfl]
        | _ => rfl
    | accepts accepted =>
      obtain ⟨-, rfl⟩ := Queue.register_eq_ok_iff.mp accepted
      change (_ ++ [] ++ (queue.batched ++ (queue.pending ++ [queue.awaiters.size]))).Pairwise _
      rw [List.append_nil, ← List.append_assoc, ← List.append_assoc]
      rw [← List.append_assoc] at ascends
      refine List.pairwise_append.mpr ⟨ascends, List.pairwise_singleton .., ?_⟩
      intro ticket member new latest
      rw [List.mem_singleton.mp latest]
      exact life.lt_size_of_known found member
    | withdraws =>
      refine quiet rfl ?_
      rw [Queue.pending_withdraw (life.sound found), Queue.batched, Queue.running_withdraw]
      exact List.filter_sublist.append_left _
    | flushes => exact quiet rfl (takesOut _ rfl rfl rfl)
    | closes => exact quiet rfl (takesOut _ rfl rfl rfl)
    | finishes running =>
      refine quiet rfl (List.Sublist.append_right ?_ _)
      rw [Queue.batched, Queue.batched, running]
      exact List.sublist_append_right ..
    | @loses batch outer running =>
      have batched : queue.abandon.batched = outer.flatMap Batch.rest := by
        simp [Queue.batched, Queue.abandon, running]
      have pending : queue.abandon.pending = queue.pending := by simp [Queue.abandon, running]
      refine quiet rfl ?_
      rw [batched, pending, Queue.batched, running]
      exact List.Sublist.append_right (List.sublist_append_right ..) _
    | @serves batch outer skipped rest ticket callback running split =>
      have turn : (some (Deed.serves source ticket callback batch.purpose)).toList.filterMap
          (Deed.served? source) = [ticket] := by simp [Deed.served?]
      have batched : queue.batched = skipped ++ ticket :: (rest ++ outer.flatMap Batch.rest) := by
        simp [Queue.batched, running, split]
      rw [turn, List.append_assoc, List.singleton_append]
      rw [batched, List.append_assoc] at ascends
      exact ascends.sublist ((List.sublist_append_right ..).append_left _)

end Stage

namespace Machine

variable {machine : Machine} {earlier during passed : List Machine} {beginning : Machine}
  {source : QueueRef} {delivery : Delivery}

/-- Those that stand in line were registered, and are numbered in the order of registration. -/
private theorem Course.registered_of_line (course : Course passed machine) :
    ∀ waiting ∈ Deed.line source (deeds passed), ∃ callback hooked,
      .accepts source waiting.1 waiting.2 callback hooked ∈ deeds passed :=
  fun _ member => (course.life.accepted_of_line member).1

/-- At a moment of a call, it has gone through part of the line that stood when it began. -/
theorem Course.midway (course : Course (earlier ++ beginning :: during) machine)
    (began : beginning.deed? = some (.begins source delivery))
    (lasts : ∀ middle ∈ during, ¬ middle.EndsCall source beginning.stack) :
    ∃ passed left, Deed.line source (deeds earlier) = passed ++ left ∧
      machine.stage.Midway (deeds (earlier ++ beginning :: during)) source beginning.stage.serving
        delivery passed left (turns source beginning.stage.serving during) := by
  induction during using List.reverseRecOn generalizing machine with
  | nil =>
    obtain ⟨early, move⟩ := course.latest
    have step := move.stage_step early.life.attended
    rw [began] at step
    refine ⟨[], _, rfl, ?_⟩
    rw [deeds_append, deeds_singleton, began]
    exact step.midway_of_begins early.life
  | append_singleton during last ih =>
    have atop := course.over_call began lasts
    have registered : ∀ waiting ∈ Deed.line source (deeds earlier), ∃ callback hooked,
        .accepts source waiting.1 waiting.2 callback hooked ∈ deeds earlier :=
      course.before.registered_of_line
    rw [← List.cons_append, ← List.append_assoc] at course ⊢
    obtain ⟨early, move⟩ := course.latest
    obtain ⟨passed, left, split, midway⟩ :=
      ih early fun middle member => lasts middle (List.mem_append_left _ member)
    rw [split] at registered
    have known : ∀ waiting ∈ left, ∃ callback hooked,
        .accepts source waiting.1 waiting.2 callback hooked ∈
          deeds (earlier ++ beginning :: during) := by
      intro waiting member
      obtain ⟨callback, hooked, accepted⟩ := registered waiting (List.mem_append_right _ member)
      exact ⟨callback, hooked, mem_deeds_append_left _ accepted⟩
    rcases (move.stage_step early.life.attended).midway known early.life midway with
      ⟨more, rest, rfl, onward⟩ | ⟨ends, alone⟩
    · refine ⟨passed ++ more, rest, by simp [split], ?_⟩
      rw [deeds_append, deeds_singleton, turns_concat]
      exact onward
    · have above := atop last (List.mem_append_left _ List.mem_concat_self)
      exact absurd ⟨above.stack_eq (head?_of_ends ends) alone, ends⟩
        (lasts last List.mem_concat_self)

/-- What is sure of a call of a component at every moment until it ends: some machine began it, and
others have been passed since. -/
structure Generation (earlier during : List Machine) (beginning machine : Machine)
    (source : QueueRef) (delivery : Delivery) : Prop where
  /-- It took out all that was pending, in the order of registration; no more than that is handed
  out. -/
  swaps : ∃ queue, beginning.stage.awaiting source = some queue ∧
    queue.pending = (Deed.line source (deeds earlier)).map Prod.fst ∧
    queue.pending.Pairwise (· < ·) ∧
    (turns source beginning.stage.serving during).length ≤ queue.size
  inProgress : Over (source.call :: beginning.stack) machine
  /-- It has gone through part of those, and all of that part have had their turns in order but for
  those whose handles had been cancelled. -/
  handsOut : ∃ passed left, Deed.line source (deeds earlier) = passed ++ left ∧
    turns source beginning.stage.serving during =
      Deed.uncancelled source (deeds (earlier ++ beginning :: during)) passed
  /-- Each turn is that of somebody who was registered before, and runs what was registered. -/
  runs : ∀ middle ∈ during, ∀ ticket,
    middle.turnOver? source beginning.stage.serving = some ticket →
      ∃ handle callback hooked, .accepts source ticket handle callback hooked ∈ deeds earlier ∧
        middle.deed? = some (.serves source ticket callback delivery) ∧
        middle.step.control = .proceed ∧
        middle.step.stack = ((callback.body? delivery).map Call.body).toList ++ middle.stack
  /-- Whoever has registered since it began has no turn in it. -/
  newcomers : ∀ middle ∈ during, ∀ ticket handle callback hooked,
    middle.deed? = some (.accepts source ticket handle callback hooked) →
      ticket ∉ turns source beginning.stage.serving during
  /-- If it is done, all that were not cancelled have had their turns, and it answers how many. -/
  finishes : machine.stack = source.call :: beginning.stack →
    machine.deed? = some (.finishes source) →
      turns source beginning.stage.serving during =
          Deed.uncancelled source (deeds (earlier ++ beginning :: during))
            (Deed.line source (deeds earlier)) ∧
        machine.step.stack = beginning.stack ∧
        ∃ answer, machine.step.control = .answer answer ∧
          answer.Tells (turns source beginning.stage.serving during).length source delivery
  /-- If a panic leaves it, that is the panic of the callback that had the last turn, and those
  behind have had none. -/
  panics : ∀ tickets, machine.stack = source.call :: beginning.stack →
    machine.deed? = some (.loses source tickets) →
      ∃ passed last left before turn running,
        Deed.line source (deeds earlier) = passed ++ last :: left ∧
        turns source beginning.stage.serving during =
          Deed.uncancelled source (deeds (earlier ++ beginning :: during)) passed ++ [last.1] ∧
        during = before ++ turn :: running ∧
        turn.turnOver? source beginning.stage.serving = some last.1 ∧
        (∀ middle ∈ running, ¬ middle.Back (source.call :: beginning.stack)) ∧
        ∃ reason, machine.control = .unwind reason

/-- How a component hands out in a course. -/
structure InGenerations (passed : List Machine) (machine : Machine) (source : QueueRef) : Prop where
  /-- The tickets are numbers in the order of registration. -/
  numbered : ∃ count, (deeds passed).filterMap (Deed.accepted? source) = List.range count
  /-- Every call hands out what was pending when it began. -/
  calls : ∀ earlier beginning during middle rest delivery,
    passed ++ [machine] = earlier ++ beginning :: during ++ middle :: rest →
      beginning.deed? = some (.begins source delivery) →
      (∀ other ∈ during, ¬ other.EndsCall source beginning.stack) →
        Generation earlier during beginning middle source delivery
  /-- If no call begins inside another, all turns together are in the order of registration. -/
  ascending : (∀ middle ∈ passed, ∀ delivery, middle.deed? = some (.begins source delivery) →
    source ∉ middle.stage.serving) →
      ((deeds passed).filterMap (Deed.served? source)).Pairwise (· < ·)

section Call

variable (course : Course (earlier ++ beginning :: during) machine)
  (began : beginning.deed? = some (.begins source delivery))
  (lasts : ∀ middle ∈ during, ¬ middle.EndsCall source beginning.stack)
include course began lasts

/-- Each turn of a call is that of somebody who was registered before the call, and runs what was
registered. -/
private theorem Course.runs_of_turn {middle : Machine} (member : middle ∈ during) {ticket : Ticket}
    (turn : middle.turnOver? source beginning.stage.serving = some ticket) :
    ∃ handle callback hooked, .accepts source ticket handle callback hooked ∈ deeds earlier ∧
      middle.deed? = some (.serves source ticket callback delivery) ∧
      middle.step.control = .proceed ∧
      middle.step.stack = ((callback.body? delivery).map Call.body).toList ++ middle.stack := by
  have atop := course.over_call began lasts middle (List.mem_append_left _ member)
  obtain ⟨before, after, rfl⟩ := List.append_of_mem member
  rw [← List.cons_append, ← List.append_assoc] at course
  have early := course.before
  obtain ⟨stack, callback, told, done⟩ := (turnOver?_eq_some_iff atop).mp turn
  obtain ⟨passed, left, split, midway⟩ :=
    early.midway began fun other among => lasts other (List.mem_append_left _ among)
  obtain ⟨queue, outer, found, running⟩ :=
    midway.innermost early.life (serving_of_source stack source.source?_call)
  obtain ⟨held, batch, others, present, front, purpose, listed⟩ :=
    running_of_serves early.life.attended done
  cases found.symm.trans present
  cases running.symm.trans front
  subst purpose
  obtain ⟨⟨ticket, handle⟩, among, rfl⟩ := List.mem_map.mp listed
  obtain ⟨registered, hooked, accepted⟩ := early.before.registered_of_line (ticket, handle)
    (split ▸ List.mem_append_right _ among)
  have life := early.life_step
  have known := mem_deeds_append_left (beginning :: before) accepted
  rw [done] at life
  have same := life.callback_of_serves (List.mem_append_left _ known)
  exact ⟨handle, registered, hooked, accepted, same ▸ done, same ▸ step_of_serves done⟩

/-- Nobody who registers during a call has a turn in it. -/
private theorem Course.newcomer_of_accepts {middle : Machine} (member : middle ∈ during)
    {ticket : Ticket} {handle : HandleId} {callback : Callback} {hooked : Bool}
    (accepts : middle.deed? = some (.accepts source ticket handle callback hooked)) :
    ticket ∉ turns source beginning.stage.serving during := by
  intro turned
  obtain ⟨other, among, turn⟩ := List.mem_filterMap.mp turned
  obtain ⟨_, _, _, earlierOne, -⟩ := course.runs_of_turn began lasts among turn
  have tickets := course.life.accepted_eq_range source
  rw [deeds_append, List.filterMap_append] at tickets
  have once := tickets ▸ List.nodup_range
  have laterOne : .accepts source ticket handle callback hooked ∈ deeds (beginning :: during) :=
    List.mem_filterMap.mpr ⟨middle, List.mem_cons_of_mem _ member, accepts⟩
  refine (List.nodup_append.mp once).2.2 ticket ?_ ticket ?_ rfl
  · exact List.mem_filterMap.mpr ⟨_, earlierOne, Deed.accepted?_accepts⟩
  · exact List.mem_filterMap.mpr ⟨_, laterOne, Deed.accepted?_accepts⟩

omit began in
/-- The callback that had the last turn is what control has not come back from since. -/
private theorem Course.last_turn {given : List Ticket} {last : Ticket}
    (turned : turns source beginning.stage.serving during = given ++ [last])
    (free : ∀ id, source ≠ .scheduler id) :
    ∃ before turn running, during = before ++ turn :: running ∧
      turn.turnOver? source beginning.stage.serving = some last ∧
      ∀ middle ∈ running, ¬ middle.Back (source.call :: beginning.stack) := by
  obtain ⟨before, since, rfl, -, latest⟩ := List.filterMap_eq_append_iff.mp turned
  obtain ⟨others, turn, running, rfl, -, turns, nobody⟩ := List.filterMap_eq_cons_iff.mp latest
  refine ⟨before ++ others, turn, running, by simp, turns, fun middle member back => ?_⟩
  obtain ⟨sooner, later, rfl⟩ := List.append_of_mem member
  have whole : earlier ++ beginning :: (before ++ (others ++ turn :: (sooner ++ middle :: later))) =
      (earlier ++ beginning :: (before ++ (others ++ turn :: sooner))) ++ middle :: later := by
    simp
  have attended := (whole ▸ course).before.life.attended
  have quiet := List.filterMap_eq_nil_iff.mp nobody middle member
  rcases back.turns_or_catches attended (lasts middle (by simp)) with ⟨ticket, turn⟩ | ⟨id, own⟩
  · cases quiet.symm.trans turn
  · exact free id own

/-- A call gives at least one turn before a panic can leave it. -/
private theorem Course.turns_ne_nil_of_loses {tickets : List Ticket}
    (loses : machine.deed? = some (.loses source tickets)) :
    turns source beginning.stage.serving during ≠ [] := by
  intro nobody
  have regrouped : earlier ++ beginning :: during = earlier ++ [beginning] ++ during := by simp
  rw [regrouped] at course
  cases during with
  | nil =>
    obtain ⟨-, proceeds⟩ := course.next_of_begins began rfl
    cases doing_of_deed loses with
    | starts control => cases control.symm.trans proceeds
    | loses panics => cases panics.symm.trans proceeds
  | cons first during =>
    obtain ⟨stack, proceeds⟩ := course.next_of_begins began rfl
    have back : first.Back (source.call :: beginning.stack) := ⟨stack, .inl proceeds⟩
    have quiet := List.filterMap_eq_nil_iff.mp nobody first List.mem_cons_self
    have atop : Over (source.call :: beginning.stack) first := ⟨[], stack.symm⟩
    cases back.goesOn course.before.life.attended with
    | serves _ done => cases quiet.symm.trans ((turnOver?_eq_some_iff atop).mpr ⟨stack, _, _, done⟩)
    | finishes _ done => exact lasts first List.mem_cons_self ⟨stack, .inl done⟩
    | loses panics => cases panics.symm.trans proceeds
    | catches panics => cases panics.symm.trans proceeds

/-- At every moment of a call, it has handed out a generation as far as it has come. -/
private theorem Course.generation :
    Generation earlier during beginning machine source delivery := by
  obtain ⟨passed, left, split, midway⟩ := course.midway began lasts
  have life := course.life
  have registered : ∀ waiting ∈ left, ∃ callback hooked,
      .accepts source waiting.1 waiting.2 callback hooked ∈
        deeds (earlier ++ beginning :: during) := by
    intro waiting member
    obtain ⟨callback, hooked, accepted⟩ :=
      course.before.registered_of_line waiting (split ▸ List.mem_append_right _ member)
    exact ⟨callback, hooked, mem_deeds_append_left _ accepted⟩
  have alone (stack : machine.stack = source.call :: beginning.stack) :
      machine.stage.serving = source :: beginning.stage.serving :=
    serving_of_source stack source.source?_call
  constructor
  case swaps =>
    have early := course.before.life
    have step := stage_step early.attended
    rw [began] at step
    obtain ⟨queue, found⟩ := step.exists_of_begins
    have line := early.pending_eq source
    rw [found, Option.elim_some] at line
    refine ⟨queue, found, line, (early.orderly found).ascending, ?_⟩
    rw [Queue.size, line, split, midway.turns, Deed.uncancelled, List.length_map, List.length_map,
      List.length_append]
    exact Nat.le_add_right_of_le (List.length_filter_le ..)
  case inProgress => exact course.over_call began lasts machine List.mem_concat_self
  case handsOut => exact ⟨passed, left, split, midway.turns⟩
  case runs => exact fun middle member ticket turn => course.runs_of_turn began lasts member turn
  case newcomers =>
    exact fun middle member ticket handle callback hooked accepts =>
      course.newcomer_of_accepts began lasts member accepts
  case finishes =>
    intro stack done
    have step := stage_step life.attended
    rw [done] at step
    obtain ⟨queue, batch, outer, answer, found, running, ended, answers, tells⟩ :=
      step_of_finishes done
    obtain ⟨held, others, present, front⟩ := midway.innermost life (alone stack)
    cases found.symm.trans present
    cases running.symm.trans front
    refine ⟨?_, ?_, answer, answers, tells⟩
    · rw [split]
      exact midway.turns_of_finishes life (alone stack) registered step
    · rw [ended, stack, List.tail_cons]
  case panics =>
    intro tickets stack done
    have free : ∀ id, source ≠ .scheduler id := by
      have step := stage_step life.attended
      rw [done] at step
      generalize machine.step.stage = after at step
      cases step with
      | loses _ _ _ free => exact free
    obtain ⟨reason, panics⟩ : ∃ reason, machine.control = .unwind reason := by
      cases doing_of_deed done with
      | starts _ starting => cases starting
      | loses panics => exact ⟨_, panics⟩
    have given := course.turns_ne_nil_of_loses began lasts done
    rcases List.eq_nil_or_concat passed with rfl | ⟨sooner, last, rfl⟩
    · exact absurd midway.turns given
    · rw [List.concat_eq_append] at split midway
      have served := midway.last last (by simp)
      have final : Deed.uncancelled source (deeds (earlier ++ beginning :: during)) [last] =
          [last.1] := by
        rw [Deed.uncancelled, List.filter_cons_of_pos (by rw [served]; rfl)]
        rfl
      have turned := midway.turns
      rw [Stage.uncancelled_append, final] at turned
      obtain ⟨before, turn, running, parts, latest, away⟩ :=
        course.last_turn lasts turned free
      exact ⟨sooner, last, left, before, turn, running, by simp [split], turned, parts, latest,
        away, reason, panics⟩

end Call

/-- If no call of a component begins inside another, all its awaiters stay in order. -/
private theorem Course.ascends (course : Course passed machine)
    (unnested : ∀ middle ∈ passed, ∀ delivery, middle.deed? = some (.begins source delivery) →
      source ∉ middle.stage.serving) : machine.stage.Ascends source (deeds passed) := by
  obtain ⟨scripts, listener, command, goes⟩ := course
  induction goes with
  | stays =>
    rw [stage_start]
    exact .nil
  | @moves passed last machine goes move ih =>
    have early : Course passed last := ⟨scripts, listener, command, goes⟩
    rw [deeds_append, deeds_singleton]
    refine (move.stage_step early.life.attended).ascends early.life
      (unnested last List.mem_concat_self) (ih fun middle member => ?_)
    exact unnested middle (List.mem_append_left _ member)

/-- In every course, a component hands out in generations. -/
theorem hands_out_in_generations (course : Course passed machine) (source : QueueRef) :
    InGenerations passed machine source := by
  constructor
  case numbered => exact ⟨_, course.life.accepted_eq_range source⟩
  case calls =>
    intro earlier beginning during middle rest delivery split began lasts
    exact (course.upTo split).generation began lasts
  case ascending =>
    intro unnested
    exact (List.pairwise_append.mp (course.ascends unnested)).1

/-- Three awaiters wait in a queue. The first one, when it has its turn, cancels the handle of the
second one and registers again. The queue is flushed twice. -/
def registersAgain : Machine :=
  let body : Body :=
    [.queue (.create "q"),
      .queue (.register "q" "a" none
        [.handle (.cancel "h"), .queue (.register "q" "a" none [] [] [])] [] []),
      .queue (.register "q" "b" (some "h") [] [] []),
      .queue (.register "q" "c" none [] [] []),
      .queue (.flush "q"),
      .queue (.flush "q")]
  start { scripts := ⟨[("main", body)]⟩ } none (.call "main")

theorem hands_out_in_generations_of_registersAgain :
    InGenerations (trail 42 registersAgain) (advanced 42 registersAgain) (.queue 0) ∧
      turns (.queue 0) [] (trail 13 (advanced 19 registersAgain)) = [0, 2] ∧
      (deeds (trail 42 registersAgain)).filterMap (Deed.served? (.queue 0)) = [0, 2, 3] :=
  ⟨hands_out_in_generations ⟨_, _, _, goes_trail 42 registersAgain⟩ (.queue 0),
    by with_unfolding_all rfl, by with_unfolding_all rfl⟩

end Machine

end LiveTree.Session
