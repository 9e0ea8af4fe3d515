import Mathlib.Data.Set.Card
import LiveTree.Proofs.Session.Books
import LiveTree.Proofs.Session.Callbacks

/-! One fate for each awaiter. Registrations, cancellations, flushes and closings may nest in each
other's callbacks to any depth and be cut short by panics; at every moment every accepted awaiter is
nevertheless in exactly one of five conditions, and the last three of them are for good. -/
namespace LiveTree.Session

open Awaiting LiveTree.Frame

/-- A deed that gives an awaiter its turn. -/
def Deed.Serves (source : QueueRef) (ticket : Ticket) : Deed → Prop
  | serves origin served _ _ => origin = source ∧ served = ticket
  | _ => False

instance (source : QueueRef) (ticket : Ticket) : DecidablePred (Deed.Serves source ticket) :=
  fun deed => by
    cases deed <;> unfold Deed.Serves <;> infer_instance

/-- The conditions that an accepted awaiter can be in. -/
inductive Condition where
  | pending | inBatch | handedOver | cancelled | lost
deriving DecidableEq, Repr

namespace Condition

/-- What a condition means, by what stands on the stage and by what has been done. -/
def Holds (stage : Stage) (history : List Deed) (source : QueueRef) (ticket : Ticket)
    (handle : HandleId) : Condition → Prop
  /- It is listed among those that the next flush or closing takes out. -/
  | pending => ∃ queue, stage.awaiting source = some queue ∧ ticket ∈ queue.pending
  /- It is listed in a batch of a call in progress and can still be handed over. -/
  | inBatch => source ∈ stage.serving ∧ ∃ queue, stage.awaiting source = some queue ∧
      queue.fate? ticket = some .waiting ∧ ∃ batch ∈ queue.running, ticket ∈ batch.rest
  /- It has had its turn. -/
  | handedOver => ∃ deed ∈ history, deed.Serves source ticket
  /- Its handle was cancelled before anything else became of it. -/
  | cancelled => ∃ before after, history = before ++ .cancels handle :: after ∧
      Deed.settled? source ticket handle before = none
  /- It went down with the rest of its batch. -/
  | lost => ∃ tickets, .loses source tickets ∈ history ∧ ticket ∈ tickets

/-- The conditions that an awaiter does not leave. -/
def Final : Condition → Prop
  | pending | inBatch => False
  | handedOver | cancelled | lost => True

end Condition

namespace Stage

variable {stage : Stage} {history : List Deed} {source : QueueRef} {ticket : Ticket}
  {handle : HandleId}

/-- Where something was done, the stage was as it had become by then, and took that step. -/
theorem Life.split {before after : List Deed} {deed : Deed}
    (life : Life (before ++ deed :: after) stage) :
    ∃ first second, Life before first ∧ first.Step (some deed) second := by
  generalize whole : before ++ deed :: after = history at life
  induction life generalizing after with
  | bare => simp at whole
  | @next history first second last life step ih =>
    cases last with
    | none => exact ih (whole.trans (List.append_nil _))
    | some last =>
      rcases List.eq_nil_or_concat after with rfl | ⟨earlier, final, rfl⟩
      · obtain ⟨rfl, rfl⟩ := List.append_singleton_inj.mp whole
        exact ⟨first, second, life, step⟩
      · rw [List.concat_eq_append, ← List.cons_append, ← List.append_assoc] at whole
        obtain ⟨rfl, -⟩ := List.append_singleton_inj.mp whole
        exact ih rfl

/-- Who has a turn, or goes down with a batch, was registered and has been waiting until then. -/
theorem Life.unsettled_before {before after : List Deed} {deed : Deed} {callback : Callback}
    {hooked : Bool} (life : Life (before ++ deed :: after) stage)
    (accepted : .accepts source ticket handle callback hooked ∈ before ++ deed :: after)
    (settles : deed.Serves source ticket ∨
      ∃ tickets, deed = .loses source tickets ∧ ticket ∈ tickets) :
    .accepts source ticket handle callback hooked ∈ before ∧
      Deed.settled? source ticket handle before = none := by
  obtain ⟨first, second, early, step⟩ := life.split
  have waited : ∃ queue, first.awaiting source = some queue ∧
      queue.fate? ticket = some .waiting := by
    rcases settles with turn | ⟨tickets, rfl, member⟩
    · cases step with
      | serves found _ _ _ _ waiting =>
        obtain ⟨rfl, rfl⟩ := turn
        exact ⟨_, found, Queue.fate?_of_getElem? waiting⟩
      | _ => cases turn
    · cases step with
      | loses found => exact ⟨_, found, of_decide_eq_true (List.mem_filter.mp member).2⟩
  obtain ⟨queue, found, waiting⟩ := waited
  obtain ⟨held, another, also, member⟩ :=
    early.accepted_of_lt found (Queue.lt_size_of_fate? waiting)
  cases life.accepted_once accepted (List.mem_append_left _ member) (.inl ⟨rfl, rfl⟩)
  refine ⟨member, ?_⟩
  obtain ⟨seen, present, -, known⟩ := early.fate?_of_accepted member
  cases found.symm.trans present
  cases settled : Deed.settled? source ticket handle before with
  | none => rfl
  | some fate =>
    rw [waiting, settled] at known
    cases Option.some.inj known
    exact absurd settled settled?_ne_waiting

/-- Who has a turn has it with what was registered. -/
theorem Life.callback_of_serves {before after : List Deed} {served callback : Callback}
    {delivery : Delivery} {hooked : Bool}
    (life : Life (before ++ .serves source ticket served delivery :: after) stage)
    (accepted : .accepts source ticket handle callback hooked ∈
      before ++ .serves source ticket served delivery :: after) : served = callback := by
  have registered := (life.unsettled_before accepted (.inl ⟨rfl, rfl⟩)).1
  obtain ⟨first, second, early, step⟩ := life.split
  obtain ⟨queue, present, held, -⟩ := early.fate?_of_accepted registered
  cases step with
  | serves found _ _ _ _ waiting =>
    cases found.symm.trans present
    have value := (Queue.getElem?_awaiters_eq_some_iff.mp waiting).1
    exact Option.some.inj (value.symm.trans held)

/-- What a deed decides is decided, if nothing was before it. -/
private theorem settled?_of_first {before after : List Deed} {deed : Deed} {fate : Fate}
    (unsettled : Deed.settled? source ticket handle before = none)
    (settles : deed.settles? source ticket handle = some fate) :
    Deed.settled? source ticket handle (before ++ deed :: after) = some fate := by
  unfold Deed.settled? at unsettled ⊢
  rw [List.findSome?_append, unsettled, Option.none_or, List.findSome?_cons, settles]

private theorem exists_of_settled? {fate : Fate}
    (settled : Deed.settled? source ticket handle history = some fate) :
    ∃ before deed after, history = before ++ deed :: after ∧
      deed.settles? source ticket handle = some fate ∧
      Deed.settled? source ticket handle before = none := by
  obtain ⟨before, deed, after, rfl, settles, none⟩ := List.findSome?_eq_some_iff.mp settled
  exact ⟨before, deed, after, rfl, settles, List.findSome?_eq_none_iff.mpr none⟩

section Conditions

variable {callback : Callback} {hooked : Bool} (life : Life history stage)
  (accepted : .accepts source ticket handle callback hooked ∈ history)
include life accepted

theorem Life.handedOver_iff :
    Condition.handedOver.Holds stage history source ticket handle ↔
      Deed.settled? source ticket handle history = some .handedOver := by
  constructor
  · rintro ⟨deed, member, turn⟩
    obtain ⟨before, after, rfl⟩ := List.append_of_mem member
    obtain ⟨-, unsettled⟩ := life.unsettled_before accepted (.inl turn)
    refine settled?_of_first unsettled ?_
    cases deed <;> simp_all [Deed.Serves, Deed.settles?]
  · intro settled
    obtain ⟨before, deed, after, rfl, settles, -⟩ := exists_of_settled? settled
    refine ⟨deed, List.mem_append_right _ List.mem_cons_self, ?_⟩
    cases deed <;> simp_all [Deed.Serves, Deed.settles?]

omit life accepted in
theorem cancelled_iff :
    Condition.cancelled.Holds stage history source ticket handle ↔
      Deed.settled? source ticket handle history = some .withdrawn := by
  constructor
  · rintro ⟨before, after, rfl, unsettled⟩
    exact settled?_of_first unsettled (if_pos rfl)
  · intro settled
    obtain ⟨before, deed, after, rfl, settles, unsettled⟩ := exists_of_settled? settled
    cases deed with
    | cancels id =>
      obtain rfl : id = handle := by
        by_contra other
        simp [Deed.settles?, other] at settles
      exact ⟨before, after, rfl, unsettled⟩
    | _ => simp [Deed.settles?] at settles

theorem Life.lost_iff :
    Condition.lost.Holds stage history source ticket handle ↔
      Deed.settled? source ticket handle history = some .lost := by
  constructor
  · rintro ⟨tickets, member, lost⟩
    obtain ⟨before, after, rfl⟩ := List.append_of_mem member
    obtain ⟨-, unsettled⟩ := life.unsettled_before accepted (.inr ⟨tickets, rfl, lost⟩)
    exact settled?_of_first unsettled (if_pos ⟨rfl, lost⟩)
  · intro settled
    obtain ⟨before, deed, after, rfl, settles, -⟩ := exists_of_settled? settled
    cases deed with
    | loses origin tickets =>
      obtain ⟨rfl, lost⟩ : origin = source ∧ ticket ∈ tickets := by
        by_contra other
        simp [Deed.settles?, other] at settles
      exact ⟨tickets, List.mem_append_right _ List.mem_cons_self, lost⟩
    | _ => simp [Deed.settles?] at settles

theorem Life.waiting_iff {queue : CallbackQueue} (found : stage.awaiting source = some queue) :
    queue.fate? ticket = some .waiting ↔
      Deed.settled? source ticket handle history = none := by
  obtain ⟨held, present, -, known⟩ := life.fate?_of_accepted accepted
  cases found.symm.trans present
  rw [known]
  cases settled : Deed.settled? source ticket handle history with
  | none => simp
  | some fate =>
    have done : fate ≠ .waiting := by
      rintro rfl
      exact settled?_ne_waiting settled
    simp [done]

private theorem Life.pending_iff {queue : CallbackQueue}
    (found : stage.awaiting source = some queue) :
    Condition.pending.Holds stage history source ticket handle ↔
      Deed.settled? source ticket handle history = none ∧ ticket ∈ queue.pending := by
  constructor
  · rintro ⟨held, present, member⟩
    cases found.symm.trans present
    have waits := (life.sound found).waits ticket member
    exact ⟨(life.waiting_iff accepted found).mp waits, member⟩
  · rintro ⟨-, member⟩
    exact ⟨queue, found, member⟩

private theorem Life.inBatch_iff {queue : CallbackQueue}
    (found : stage.awaiting source = some queue) :
    Condition.inBatch.Holds stage history source ticket handle ↔
      Deed.settled? source ticket handle history = none ∧ ticket ∉ queue.pending := by
  have sound := life.sound found
  have apart := (List.nodup_append.mp sound.once).2.2
  constructor
  · rintro ⟨-, held, present, waits, batch, running, member⟩
    cases found.symm.trans present
    refine ⟨(life.waiting_iff accepted found).mp waits, fun pending => ?_⟩
    exact apart ticket pending ticket (List.mem_flatMap.mpr ⟨batch, running, member⟩) rfl
  · rintro ⟨unsettled, unlisted⟩
    have waits := (life.waiting_iff accepted found).mpr unsettled
    have batched := (sound.listed ticket waits).resolve_left unlisted
    obtain ⟨batch, running, member⟩ := List.mem_flatMap.mp batched
    refine ⟨?_, queue, found, waits, batch, running, member⟩
    have count := life.attended source
    rw [found, Option.elim_some] at count
    refine List.count_pos_iff.mp (count ▸ ?_)
    exact List.length_pos_of_mem running

/-- An accepted awaiter is in exactly one condition. -/
theorem Life.one_condition :
    ∃! condition : Condition, condition.Holds stage history source ticket handle := by
  obtain ⟨queue, found, -, -⟩ := life.fate?_of_accepted accepted
  have pending := life.pending_iff accepted found
  have inBatch := life.inBatch_iff accepted found
  have handedOver := life.handedOver_iff accepted
  have cancelled : Condition.cancelled.Holds stage history source ticket handle ↔ _ := cancelled_iff
  have lost := life.lost_iff accepted
  cases settled : Deed.settled? source ticket handle history with
  | none =>
    rw [settled] at pending inBatch handedOver cancelled lost
    by_cases listed : ticket ∈ queue.pending
    · refine ⟨.pending, pending.mpr ⟨rfl, listed⟩, fun other holds => ?_⟩
      cases other <;> simp_all
    · refine ⟨.inBatch, inBatch.mpr ⟨rfl, listed⟩, fun other holds => ?_⟩
      cases other <;> simp_all
  | some fate =>
    rw [settled] at pending inBatch handedOver cancelled lost
    cases fate with
    | waiting => exact absurd settled settled?_ne_waiting
    | handedOver =>
      refine ⟨.handedOver, handedOver.mpr rfl, fun other holds => ?_⟩
      cases other <;> simp_all
    | withdrawn =>
      refine ⟨.cancelled, cancelled.mpr rfl, fun other holds => ?_⟩
      cases other <;> simp_all
    | lost =>
      refine ⟨.lost, lost.mpr rfl, fun other holds => ?_⟩
      cases other <;> simp_all

end Conditions

/-! ### Cancellations -/

/-- Nobody has a turn once its fate is settled. -/
theorem Life.no_turn_after {before after : List Deed} {deed : Deed} {callback : Callback}
    {hooked : Bool} {fate : Fate} (life : Life (before ++ deed :: after) stage)
    (accepted : .accepts source ticket handle callback hooked ∈ before ++ deed :: after)
    (settles : deed.settles? source ticket handle = some fate) :
    ∀ later ∈ after, ¬ later.Serves source ticket := by
  intro later member turn
  obtain ⟨between, rest, rfl⟩ := List.append_of_mem member
  rw [← List.cons_append, ← List.append_assoc] at life accepted
  have unsettled := (life.unsettled_before accepted (.inl turn)).2
  have nothing := List.findSome?_eq_none_iff.mp unsettled deed
    (List.mem_append_right _ List.mem_cons_self)
  rw [settles] at nothing
  cases nothing

theorem settles?_of_serves {deed : Deed} (turn : deed.Serves source ticket) :
    deed.settles? source ticket handle = some .handedOver := by
  cases deed <;> simp_all [Deed.Serves, Deed.settles?]

/-- Nobody has more than one turn. -/
theorem Life.one_turn {callback : Callback} {hooked : Bool} (life : Life history stage)
    (accepted : .accepts source ticket handle callback hooked ∈ history) :
    history.countP (fun deed => deed.Serves source ticket) ≤ 1 := by
  by_cases served : ∃ deed ∈ history, deed.Serves source ticket
  · obtain ⟨deed, member, turn⟩ := served
    obtain ⟨before, after, rfl⟩ := List.append_of_mem member
    have unsettled := (life.unsettled_before accepted (.inl turn)).2
    have earlier : before.countP (fun deed => deed.Serves source ticket) = 0 := by
      refine List.countP_eq_zero.mpr fun other member => ?_
      have nothing := List.findSome?_eq_none_iff.mp unsettled other member
      rw [decide_eq_true_eq]
      intro turn
      rw [settles?_of_serves turn] at nothing
      cases nothing
    have later : after.countP (fun deed => deed.Serves source ticket) = 0 := by
      refine List.countP_eq_zero.mpr fun other member => ?_
      rw [decide_eq_true_eq]
      exact life.no_turn_after accepted (settles?_of_serves turn) other member
    rw [List.countP_append, List.countP_cons, earlier, later, if_pos (decide_eq_true turn)]
  · have nobody : history.countP (fun deed => deed.Serves source ticket) = 0 := by
      refine List.countP_eq_zero.mpr fun deed member => ?_
      rw [decide_eq_true_eq]
      exact fun turn => served ⟨deed, member, turn⟩
    rw [nobody]
    exact Nat.zero_le 1

/-- To cancel the handle of an awaiter is to withdraw it from its queue, whether the attempt is the
first one or finds nothing left to do. -/
theorem Life.awaiting_cancel {queue : CallbackQueue} {callback : Callback} {hooked : Bool}
    (life : Life history stage)
    (accepted : .accepts source ticket handle callback hooked ∈ history)
    (found : stage.awaiting source = some queue) :
    (stage.cancel handle).awaiting =
      Function.update stage.awaiting source (some (queue.withdraw ticket)) := by
  by_cases withdrawn : stage.withdrawn? handle = some (source, ticket)
  · funext other
    by_cases same : other = source
    · subst same
      rw [awaiting_cancel_of_withdrawn withdrawn, found, Function.update_self, Option.map_some]
    · rw [Function.update_of_ne same]
      refine awaiting_cancel_of_ne fun taken another => same ?_
      cases withdrawn.symm.trans another
      rfl
  · -- The handle was cancelled before, and since then the awaiter has not been waiting.
    have cancelled : .cancels handle ∈ history := by
      by_contra never
      exact withdrawn ((life.withdrawn?_eq_some_iff accepted).mpr ⟨rfl, never⟩)
    have settled : queue.fate? ticket ≠ some .waiting := by
      intro waits
      exact not_mem_of_unsettled ((life.waiting_iff accepted found).mp waits) cancelled
    rw [Queue.withdraw_of_ne_waiting settled, ← found, Function.update_eq_self]
    funext other
    refine awaiting_cancel_of_ne fun taken another => withdrawn ?_
    obtain ⟨_, _, member⟩ := life.accepted_of_withdrawn another
    cases life.accepted_once accepted member (.inr rfl)
    exact another

section Cancelling

variable {after : Stage} {id : HandleId} {callback : Callback} {hooked : Bool}
  (life : Life history stage)
  (accepted : .accepts source ticket handle callback hooked ∈ history)
  (step : stage.Step (some (.cancels id)) after)
include life accepted step

/-- A cancellation that comes too late changes no queue. -/
theorem Life.awaiting_of_late_cancel (own : id = handle)
    (served : Condition.handedOver.Holds stage history source ticket handle) :
    after.awaiting = stage.awaiting := by
  subst own
  obtain rfl : after = stage.cancel id := by
    cases step
    rfl
  obtain ⟨queue, found, -, -⟩ := life.fate?_of_accepted accepted
  have done : queue.fate? ticket ≠ some .waiting := by
    rw [Ne, life.waiting_iff accepted found, (life.handedOver_iff accepted).mp served]
    exact nofun
  rw [life.awaiting_cancel accepted found, Queue.withdraw_of_ne_waiting done, ← found,
    Function.update_eq_self]

/-- A cancellation of another handle leaves an awaiter where it is. -/
theorem Life.holds_of_other_cancel (other : id ≠ handle) (condition : Condition) :
    condition.Holds after (history ++ [.cancels id]) source ticket handle ↔
      condition.Holds stage history source ticket handle := by
  have later : Life (history ++ [.cancels id]) after := .next life step
  have member : .accepts source ticket handle callback hooked ∈ history ++ [.cancels id] :=
    List.mem_append_left _ accepted
  have settled : Deed.settled? source ticket handle (history ++ [.cancels id]) =
      Deed.settled? source ticket handle history := by
    have nothing : Deed.settles? source ticket handle (.cancels id) = none := if_neg other
    have appended : Deed.settled? source ticket handle (history ++ [.cancels id]) = _ :=
      settled?_append history (some (.cancels id)) handle
    rw [Option.bind_some, nothing, Option.or_none] at appended
    exact appended
  obtain ⟨queue, found, -, -⟩ := life.fate?_of_accepted accepted
  obtain ⟨changed, present, change⟩ := step.change found
  have listed : ticket ∈ changed.pending ↔ ticket ∈ queue.pending := by
    cases change with
    | stays => exact Iff.rfl
    | @withdraws _ taken withdrawn =>
      have apart : ticket ≠ taken := by
        rintro rfl
        exact other ((life.withdrawn?_eq_some_iff accepted).mp withdrawn).1
      rw [Queue.pending_withdraw (life.sound found), List.mem_filter]
      simp [apart]
  cases condition with
  | pending =>
    rw [later.pending_iff member present, life.pending_iff accepted found, settled, listed]
  | inBatch =>
    rw [later.inBatch_iff member present, life.inBatch_iff accepted found, settled, listed]
  | handedOver => rw [later.handedOver_iff member, life.handedOver_iff accepted, settled]
  | cancelled => rw [cancelled_iff, cancelled_iff, settled]
  | lost => rw [later.lost_iff member, life.lost_iff accepted, settled]

end Cancelling

/-- What is final stays, whatever is done after. -/
theorem holds_of_final {after : Stage} {condition : Condition} (final : condition.Final)
    (holds : condition.Holds stage history source ticket handle) (later : List Deed) :
    condition.Holds after (history ++ later) source ticket handle := by
  cases condition with
  | pending | inBatch => cases final
  | handedOver =>
    obtain ⟨deed, member, turn⟩ := holds
    exact ⟨deed, List.mem_append_left _ member, turn⟩
  | cancelled =>
    obtain ⟨before, rest, rfl, unsettled⟩ := holds
    exact ⟨before, rest ++ later, by simp, unsettled⟩
  | lost =>
    obtain ⟨tickets, member, lost⟩ := holds
    exact ⟨tickets, List.mem_append_left _ member, lost⟩

/-- The length of a queue is the number of its awaiters that are pending. -/
theorem Life.size_eq (life : Life history stage) {queue : CallbackQueue}
    (found : stage.awaiting source = some queue) :
    queue.size = {ticket | ∃ handle callback hooked,
      .accepts source ticket handle callback hooked ∈ history ∧
        Condition.pending.Holds stage history source ticket handle}.ncard := by
  have sound := life.sound found
  have same : {ticket | ∃ handle callback hooked,
      .accepts source ticket handle callback hooked ∈ history ∧
        Condition.pending.Holds stage history source ticket handle} =
      (queue.pending.toFinset : Set Ticket) := by
    ext ticket
    simp only [Set.mem_ofPred_eq, List.coe_toFinset]
    constructor
    · rintro ⟨handle, callback, hooked, -, held, present, member⟩
      cases found.symm.trans present
      exact member
    · intro member
      have waits := sound.waits ticket member
      obtain ⟨handle, callback, hooked, accepted⟩ :=
        life.accepted_of_lt found (Queue.lt_size_of_fate? waits)
      exact ⟨handle, callback, hooked, accepted, queue, found, member⟩
  rw [same, Set.ncard_coe_finset, List.toFinset_card_of_nodup (List.nodup_append.mp sound.once).1]
  rfl

end Stage

end LiveTree.Session
