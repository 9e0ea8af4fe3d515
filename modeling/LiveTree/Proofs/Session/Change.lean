import LiveTree.Proofs.Session.Stage

/-! What a step on the stage does to one queue, to the calls in progress, and to the handles. A
step has many forms, but a queue can only change in a few ways, and most deeds do not concern
it. -/
namespace LiveTree.Session.Stage

open Awaiting LiveTree.Frame

variable {stage after : Stage} {source other : QueueRef} {queue changed : CallbackQueue}
  {deed : Option Deed}

@[simp]
theorem awaiting_setQueue_self (stage : Stage) (source : QueueRef) (queue : CallbackQueue) :
    (stage.setQueue source queue).awaiting source = some queue := Function.update_self ..

private theorem awaiting_setQueue_of_ne (stage : Stage) (queue : CallbackQueue)
    (different : source ≠ other) :
    (stage.setQueue other queue).awaiting source = stage.awaiting source :=
  Function.update_of_ne different ..

/-- The awaiter that an attempt to cancel a handle withdraws. -/
def withdrawn? (stage : Stage) (id : HandleId) : Option (QueueRef × Ticket) :=
  match (stage.handles.cancel id).1.action with
  | some (.withdraw source ticket) => some (source, ticket)
  | _ => none

theorem awaiting_cancel_of_withdrawn {id : HandleId} {ticket : Ticket}
    (withdrawn : stage.withdrawn? id = some (source, ticket)) :
    (stage.cancel id).awaiting source = (stage.awaiting source).map (·.withdraw ticket) := by
  unfold withdrawn? at withdrawn
  unfold cancel
  split at withdrawn
  · next action =>
    cases withdrawn
    simp only [action, withdraw, Function.update_self]
  · cases withdrawn

theorem awaiting_cancel_of_ne {id : HandleId}
    (kept : ∀ ticket, stage.withdrawn? id ≠ some (source, ticket)) :
    (stage.cancel id).awaiting source = stage.awaiting source := by
  unfold cancel
  dsimp only
  split
  · next origin ticket action =>
    have different : source ≠ origin := by
      rintro rfl
      exact kept ticket (by simp only [withdrawn?, action])
    simp only [withdraw, Function.update_of_ne different]
  · rfl

@[simp]
theorem serving_cancel (stage : Stage) (id : HandleId) :
    (stage.cancel id).serving = stage.serving := by
  unfold cancel
  dsimp only
  split <;> rfl

@[simp]
theorem phase?_cancel (stage : Stage) (id : HandleId) :
    (stage.cancel id).phase? = stage.phase? := by
  unfold cancel
  dsimp only
  split <;> rfl

@[simp]
theorem objects_cancel (stage : Stage) (id : HandleId) :
    (stage.cancel id).objects = stage.objects := by
  unfold cancel
  dsimp only
  split <;> rfl

@[simp]
theorem handles_cancel (stage : Stage) (id : HandleId) :
    (stage.cancel id).handles = (stage.handles.cancel id).2 := by
  unfold cancel
  dsimp only
  split <;> rfl

/-- Whether a deed is done to the queue of a component. -/
def Concerns (stage : Stage) (source : QueueRef) : Deed → Prop
  | .accepts other _ _ _ _ | .begins other _ | .serves other _ _ _ | .finishes other
  | .loses other _ => other = source
  | .cancels id => ∃ ticket, stage.withdrawn? id = some (source, ticket)
  | .startsFrame _ | .idles _ | .moves _ _ | .refuses _ _ => False

/-- The ways in which the queue of a component changes in a step, by deed. -/
inductive Change (stage : Stage) (source : QueueRef) (queue : CallbackQueue) :
    Option Deed → CallbackQueue → Prop
  | stays {deed : Option Deed} (foreign : ∀ done ∈ deed, ¬ stage.Concerns source done) :
      Change stage source queue deed queue
  | accepts {callback : Callback} {registration : Registration Callback Delivery}
      (accepted : queue.register callback = .ok registration) :
      Change stage source queue
        (some (.accepts source registration.ticket stage.handles.size callback
          (stage.hooks source registration.first)))
        registration.queue
  | withdraws {id : HandleId} {ticket : Ticket}
      (withdrawn : stage.withdrawn? id = some (source, ticket)) :
      Change stage source queue (some (.cancels id)) (queue.withdraw ticket)
  | flushes :
      Change stage source queue (some (.begins source .resume)) (queue.flush .resume)
  | closes (reason : Closed) :
      Change stage source queue (some (.begins source (.refuse (queue.closed.getD reason))))
        (queue.close reason .refuse)
  | serves {batch : Batch Delivery} {outer : List (Batch Delivery)}
      {skipped rest : List Ticket} {ticket : Ticket} {callback : Callback}
      (running : queue.running = batch :: outer) (split : batch.rest = skipped ++ ticket :: rest)
      (passed : ∀ other ∈ skipped, queue.fate? other ≠ some .waiting)
      (waiting : queue.awaiters[ticket]? = some ⟨callback, .waiting⟩) :
      Change stage source queue (some (.serves source ticket callback batch.purpose))
        (queue.handOver ticket batch rest outer)
  | finishes {batch : Batch Delivery} {outer : List (Batch Delivery)}
      (running : queue.running = batch :: outer)
      (passed : ∀ ticket ∈ batch.rest, queue.fate? ticket ≠ some .waiting) :
      Change stage source queue (some (.finishes source)) { queue with running := outer }
  | loses {batch : Batch Delivery} {outer : List (Batch Delivery)}
      (running : queue.running = batch :: outer) (free : ∀ id, source ≠ .scheduler id) :
      Change stage source queue (some (.loses source (waitingAmong queue batch.rest)))
        queue.abandon

section Replaced

variable {held : CallbackQueue} (known : stage.awaiting other = some held)
  (given : after.awaiting = (stage.setQueue other changed).awaiting)
include known given

/-- Where one queue is replaced, that one changes and every other stays. -/
private theorem change_of_setQueue {done : Deed} (own : stage.Change other held (some done) changed)
    (alone : source ≠ other → ¬ stage.Concerns source done)
    (found : stage.awaiting source = some queue) :
    ∃ changed, after.awaiting source = some changed ∧
      stage.Change source queue (some done) changed := by
  rw [given]
  by_cases same : source = other
  · subst same
    cases found.symm.trans known
    exact ⟨changed, awaiting_setQueue_self .., own⟩
  · have foreign : ∀ deed ∈ some done, ¬ stage.Concerns source deed := by
      rintro _ ⟨rfl⟩
      exact alone same
    exact ⟨queue, (awaiting_setQueue_of_ne _ _ same).trans found, .stays foreign⟩

/-- Where one queue is replaced, none appears. -/
private theorem absent_of_setQueue (absent : stage.awaiting source = none) :
    after.awaiting source = none := by
  have different : source ≠ other := by
    rintro rfl
    rw [absent] at known
    cases known
  rw [given, awaiting_setQueue_of_ne _ _ different, absent]

end Replaced

/-- A queue that exists stays, changed in one of these ways. -/
theorem Step.change (step : stage.Step deed after) (found : stage.awaiting source = some queue) :
    ∃ changed, after.awaiting source = some changed ∧ stage.Change source queue deed changed := by
  have newcomer {other : QueueRef} (new : stage.awaiting other = none) : source ≠ other := by
    rintro rfl
    rw [new] at found
    cases found
  cases step with
  | rests | keeps | idles | startsFrame | moves | refuses =>
    exact ⟨queue, found, .stays (by simp [Concerns])⟩
  | opens new =>
    exact ⟨queue, (awaiting_setQueue_of_ne _ _ (newcomer new)).trans found, .stays nofun⟩
  | installs new =>
    exact ⟨queue, (awaiting_setQueue_of_ne _ _ (newcomer new)).trans found, .stays nofun⟩
  | @cancels id known =>
    by_cases own : ∃ ticket, stage.withdrawn? id = some (source, ticket)
    · obtain ⟨ticket, withdrawn⟩ := own
      refine ⟨queue.withdraw ticket, ?_, .withdraws withdrawn⟩
      rw [awaiting_cancel_of_withdrawn withdrawn, found, Option.map_some]
    · refine ⟨queue, ?_, .stays (by simpa [Concerns] using own)⟩
      rw [awaiting_cancel_of_ne (not_exists.mp own), found]
  | accepts known accepted => exact change_of_setQueue known rfl (.accepts accepted) Ne.symm found
  | flushes known free => exact change_of_setQueue known rfl .flushes Ne.symm found
  | closes known reason => exact change_of_setQueue known rfl (.closes reason) Ne.symm found
  | completes known => exact change_of_setQueue known rfl .flushes Ne.symm found
  | serves known _ running split passed waiting =>
    exact change_of_setQueue known rfl (.serves running split passed waiting) Ne.symm found
  | finishes known _ running passed =>
    exact change_of_setQueue known rfl (.finishes running passed) Ne.symm found
  | loses known _ running free =>
    exact change_of_setQueue known rfl (.loses running free) Ne.symm found

/-- A queue that appears is empty, and nothing is done to it. -/
theorem Step.appears (step : stage.Step deed after) (absent : stage.awaiting source = none) :
    after.awaiting source = none ∨ after.awaiting source = some {} ∧ deed = none := by
  have opened {other : QueueRef} : (stage.setQueue other {}).awaiting source = none ∨
      (stage.setQueue other {}).awaiting source = some {} ∧ (none : Option Deed) = none := by
    by_cases same : source = other
    · subst same
      exact .inr ⟨awaiting_setQueue_self .., rfl⟩
    · exact .inl ((awaiting_setQueue_of_ne _ _ same).trans absent)
  cases step with
  | rests | keeps | idles | startsFrame | moves | refuses => exact .inl absent
  | opens => exact opened
  | installs => exact opened
  | @cancels id known =>
    left
    by_cases own : ∃ ticket, stage.withdrawn? id = some (source, ticket)
    · obtain ⟨ticket, withdrawn⟩ := own
      rw [awaiting_cancel_of_withdrawn withdrawn, absent, Option.map_none]
    · rw [awaiting_cancel_of_ne (not_exists.mp own), absent]
  | accepts known => exact .inl (absent_of_setQueue known rfl absent)
  | flushes known => exact .inl (absent_of_setQueue known rfl absent)
  | closes known => exact .inl (absent_of_setQueue known rfl absent)
  | completes known => exact .inl (absent_of_setQueue known rfl absent)
  | serves known => exact .inl (absent_of_setQueue known rfl absent)
  | finishes known => exact .inl (absent_of_setQueue known rfl absent)
  | loses known => exact .inl (absent_of_setQueue known rfl absent)

/-! ### Calls in progress -/

/-- How the calls in progress change in a step: one begins, the innermost ends, or they stay. -/
inductive Turnover (calls : List QueueRef) : Option Deed → List QueueRef → Prop
  | stays {deed : Option Deed}
      (quiet : ∀ done ∈ deed, ∀ source delivery tickets,
        done ≠ .begins source delivery ∧ done ≠ .finishes source ∧ done ≠ .loses source tickets) :
      Turnover calls deed calls
  | begins {source : QueueRef} {delivery : Delivery} :
      Turnover calls (some (.begins source delivery)) (source :: calls)
  | finishes {source : QueueRef} {rest : List QueueRef} (innermost : calls = source :: rest) :
      Turnover calls (some (.finishes source)) rest
  | loses {source : QueueRef} {tickets : List Ticket} {rest : List QueueRef}
      (innermost : calls = source :: rest) (free : ∀ id, source ≠ .scheduler id) :
      Turnover calls (some (.loses source tickets)) rest

theorem Step.turnover (step : stage.Step deed after) :
    Turnover stage.serving deed after.serving := by
  cases step with
  | rests | keeps | opens | installs | accepts | idles | startsFrame | serves | moves | refuses =>
    exact .stays (by simp)
  | cancels =>
    rw [serving_cancel]
    exact .stays (by simp)
  | flushes | closes | completes => exact .begins
  | finishes _ innermost => exact .finishes innermost
  | loses _ innermost _ free => exact .loses innermost free

/-- Only what exists begins to hand over. -/
theorem Step.exists_of_begins {delivery : Delivery}
    (step : stage.Step (some (.begins source delivery)) after) :
    ∃ queue, stage.awaiting source = some queue := by
  cases step with
  | flushes found | closes found | completes found => exact ⟨_, found⟩

/-- A call that begins is the innermost. -/
theorem Step.serving_of_begins {delivery : Delivery}
    (step : stage.Step (some (.begins source delivery)) after) :
    after.serving = source :: stage.serving := by
  have turnover := step.turnover
  generalize after.serving = calls at turnover ⊢
  cases turnover with
  | stays quiet => exact absurd rfl (quiet _ rfl _ _ []).1
  | begins => rfl

/-- A call is in progress until it ends as the innermost one. -/
theorem Turnover.call_stays {calls left base : List QueueRef} (turnover : Turnover calls deed left)
    (inProgress : source :: base <:+ calls) :
    source :: base <:+ left ∨ calls = source :: base ∧ left = base ∧
      (deed = some (.finishes source) ∨
        (∃ tickets, deed = some (.loses source tickets)) ∧ ∀ id, source ≠ .scheduler id) := by
  cases turnover with
  | stays => exact .inl inProgress
  | begins => exact .inl (inProgress.trans (List.suffix_cons ..))
  | finishes innermost =>
    subst innermost
    rcases List.suffix_cons_iff.mp inProgress with whole | inner
    · cases whole
      exact .inr ⟨rfl, rfl, .inl rfl⟩
    · exact .inl inner
  | loses innermost free =>
    subst innermost
    rcases List.suffix_cons_iff.mp inProgress with whole | inner
    · cases whole
      exact .inr ⟨rfl, rfl, .inr ⟨⟨_, rfl⟩, free⟩⟩
    · exact .inl inner

/-- Where one queue is replaced, the calls must change with its batches. -/
private theorem Attended.setQueue {held : CallbackQueue} (attended : stage.Attended)
    (known : stage.awaiting other = some held)
    (given : after.awaiting = (stage.setQueue other changed).awaiting)
    (balance : changed.running.length + stage.serving.count other =
      held.running.length + after.serving.count other)
    (elsewhere : ∀ source, source ≠ other →
      after.serving.count source = stage.serving.count source) : after.Attended := by
  intro source
  have before := attended source
  rw [given]
  by_cases same : source = other
  · subst same
    rw [known, Option.elim_some] at before
    rw [awaiting_setQueue_self, Option.elim_some]
    omega
  · rw [awaiting_setQueue_of_ne _ _ same, elsewhere source same]
    exact before

private theorem Attended.opened (attended : stage.Attended) (new : stage.awaiting other = none)
    (given : after.awaiting = (stage.setQueue other {}).awaiting)
    (same : after.serving = stage.serving) : after.Attended := by
  intro source
  have before := attended source
  rw [given, same]
  by_cases same : source = other
  · subst same
    rw [new] at before
    rw [awaiting_setQueue_self]
    exact before
  · rw [awaiting_setQueue_of_ne _ _ same]
    exact before

/-- A step leaves every batch with its call. -/
theorem Step.attended (step : stage.Step deed after) (attended : stage.Attended) :
    after.Attended := by
  have starts {other source : QueueRef} (different : source ≠ other) :
      (other :: stage.serving).count source = stage.serving.count source :=
    List.count_cons_of_ne (Ne.symm different)
  have ends {other source : QueueRef} {calls : List QueueRef}
      (innermost : stage.serving = other :: calls) (different : source ≠ other) :
      calls.count source = stage.serving.count source := by
    rw [innermost, List.count_cons_of_ne (Ne.symm different)]
  cases step with
  | rests | keeps | idles | startsFrame | moves | refuses => exact attended
  | opens new => exact attended.opened new rfl rfl
  | installs new => exact attended.opened new rfl rfl
  | @cancels id =>
    intro source
    have before := attended source
    rw [serving_cancel, ← before]
    by_cases own : ∃ ticket, stage.withdrawn? id = some (source, ticket)
    · obtain ⟨ticket, withdrawn⟩ := own
      rw [awaiting_cancel_of_withdrawn withdrawn]
      cases stage.awaiting source with
      | none => rfl
      | some queue =>
        rw [Option.map_some, Option.elim_some, Option.elim_some, Queue.running_withdraw]
    · rw [awaiting_cancel_of_ne (not_exists.mp own)]
  | accepts known accepted =>
    obtain ⟨-, rfl⟩ := Queue.register_eq_ok_iff.mp accepted
    exact attended.setQueue known rfl rfl fun _ _ => rfl
  | flushes known free =>
    refine attended.setQueue known rfl ?_ fun source => starts
    simp [serve, setQueue, Queue.flush]
    omega
  | closes known reason =>
    refine attended.setQueue known rfl ?_ fun source => starts
    simp [serve, setQueue, Queue.close, Queue.flush]
    omega
  | completes known =>
    refine attended.setQueue known rfl ?_ fun source => starts
    simp [serve, setPhase, setQueue, Queue.flush]
    omega
  | serves known _ running =>
    refine attended.setQueue known rfl ?_ fun _ _ => rfl
    simp [Queue.handOver, setQueue, running]
  | finishes known innermost running =>
    refine attended.setQueue known rfl ?_ fun source => ends innermost
    simp [innermost, running]
    omega
  | loses known innermost running =>
    refine attended.setQueue known rfl ?_ fun source => ends innermost
    simp [Queue.abandon, innermost, running]
    omega

/-! ### Phases -/

/-- How the phase of a scheduler changes in a step: a frame begins, one ends, or it stays. -/
inductive Phasing (id : Nat) (queue : CallbackQueue) (phase : Phase) : Option Deed → Phase → Prop
  | stays {deed : Option Deed} : Phasing id queue phase deed phase
  | starts : Phasing id queue phase (some (.startsFrame id)) { phase with inFrame := true }
  | idles (closed : queue.closed ≠ none) :
      Phasing id queue phase (some (.idles id)) { phase with inFrame := false }
  | completes :
      Phasing id queue phase (some (.begins (.scheduler id) .resume))
        ⟨false, phase.policy, phase.completed + 1⟩

theorem phase?_setPhase_of_ne {id other : Nat} (stage : Stage) (phase : Phase)
    (different : id ≠ other) : (stage.setPhase other phase).phase? id = stage.phase? id :=
  Function.update_of_ne different ..

@[simp]
theorem phase?_setPhase_self (stage : Stage) (id : Nat) (phase : Phase) :
    (stage.setPhase id phase).phase? id = some phase := Function.update_self ..

theorem Step.phasing {id : Nat} {phase : Phase} (step : stage.Step deed after)
    (found : stage.awaiting (.scheduler id) = some queue) (current : stage.phase? id = some phase) :
    ∃ changed, after.phase? id = some changed ∧ Phasing id queue phase deed changed := by
  cases step with
  | rests | keeps | opens | accepts | flushes | closes | serves | finishes | loses | moves
  | refuses => exact ⟨phase, current, .stays⟩
  | cancels => exact ⟨phase, (congrFun (phase?_cancel ..) id).trans current, .stays⟩
  | @installs other policy new =>
    have different : id ≠ other := by
      rintro rfl
      rw [found] at new
      cases new
    exact ⟨phase, (phase?_setPhase_of_ne _ _ different).trans current, .stays⟩
  | @completes other held former known seen unclosed =>
    by_cases same : id = other
    · subst same
      cases current.symm.trans seen
      exact ⟨_, phase?_setPhase_self .., .completes⟩
    · exact ⟨phase, (phase?_setPhase_of_ne _ _ same).trans current, .stays⟩
  | @idles other held former known seen closed =>
    by_cases same : id = other
    · subst same
      cases current.symm.trans seen
      cases found.symm.trans known
      exact ⟨_, phase?_setPhase_self .., .idles closed⟩
    · exact ⟨phase, (phase?_setPhase_of_ne _ _ same).trans current, .stays⟩
  | @startsFrame other former seen =>
    by_cases same : id = other
    · subst same
      cases current.symm.trans seen
      exact ⟨_, phase?_setPhase_self .., .starts⟩
    · exact ⟨phase, (phase?_setPhase_of_ne _ _ same).trans current, .stays⟩

/-! ### Handles -/

/-- How the handles change in a step: one is added, there is an attempt to cancel one, or they
stay. -/
inductive Handling (handles : Handles CancelAction) : Option Deed → Handles CancelAction → Prop
  | stays {deed : Option Deed}
      (quiet : ∀ done ∈ deed, ∀ source ticket handle callback hooked,
        done ≠ .accepts source ticket handle callback hooked ∧ done ≠ .cancels handle) :
      Handling handles deed handles
  | keeps (handle : Handle CancelAction)
      (free : ∀ source ticket, handle.action ≠ some (.withdraw source ticket)) :
      Handling handles none (handles.push handle)
  | accepts {source : QueueRef} {ticket : Ticket} {callback : Callback} {hooked : Bool} :
      Handling handles (some (.accepts source ticket handles.size callback hooked))
        (handles.push (.forAction (.withdraw source ticket)))
  | cancels {id : HandleId} (known : id < handles.size) :
      Handling handles (some (.cancels id)) (handles.cancel id).2

theorem Step.handling (step : stage.Step deed after) :
    Handling stage.handles deed after.handles := by
  cases step with
  | rests | opens | installs | idles | startsFrame | serves | moves | refuses | flushes | closes
  | completes | finishes | loses => exact .stays (by simp)
  | keeps handle free => exact .keeps handle free
  | accepts => exact .accepts
  | cancels known =>
    rw [handles_cancel]
    exact .cancels known

end LiveTree.Session.Stage
