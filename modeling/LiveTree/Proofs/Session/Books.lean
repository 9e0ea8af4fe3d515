import LiveTree.Proofs.Session.Course

/-! What has been done and what stands agree. The history of a stage is a list of deeds; here the
fate of every awaiter, the action left in every handle, and the line of those that are pending are
read off that list, and shown to be what the stage holds. -/
namespace LiveTree.Session

open Awaiting LiveTree.Frame

/-- What a deed makes of an awaiter, if it settles its fate. -/
def Deed.settles? (source : QueueRef) (ticket : Ticket) (handle : HandleId) : Deed → Option Fate
  | serves origin served _ _ => if origin = source ∧ served = ticket then some .handedOver else none
  | cancels id => if id = handle then some .withdrawn else none
  | loses origin tickets => if origin = source ∧ ticket ∈ tickets then some .lost else none
  | _ => none

/-- The first deed that settles the fate of an awaiter decides it. -/
def Deed.settled? (source : QueueRef) (ticket : Ticket) (handle : HandleId)
    (history : List Deed) : Option Fate :=
  history.findSome? (Deed.settles? source ticket handle)

/-- Those that stand in line with a component after one more deed, each with its handle. -/
def Deed.linesUp (source : QueueRef) (line : List (Ticket × HandleId)) : Deed →
    List (Ticket × HandleId)
  | accepts origin ticket handle _ _ => if origin = source then line ++ [(ticket, handle)] else line
  | begins origin _ => if origin = source then [] else line
  | cancels id => line.filter fun waiting => waiting.2 != id
  | _ => line

/-- Those that stand in line with a component: registered since it last began to hand over, and not
cancelled. -/
def Deed.line (source : QueueRef) (history : List Deed) : List (Ticket × HandleId) :=
  history.foldl (Deed.linesUp source) []

namespace Stage

variable {stage after : Stage} {source other : QueueRef} {queue changed : CallbackQueue}
  {deed : Option Deed} {history : List Deed} {ticket : Ticket}

/-! ### Fates in one step -/

/-- What a deed makes of an awaiter, the handles being as they are. -/
def settles? (stage : Stage) (source : QueueRef) (ticket : Ticket) : Deed → Option Fate
  | .serves origin served _ _ =>
    if origin = source ∧ served = ticket then some .handedOver else none
  | .cancels id => if stage.withdrawn? id = some (source, ticket) then some .withdrawn else none
  | .loses origin tickets => if origin = source ∧ ticket ∈ tickets then some .lost else none
  | _ => none

private theorem settles?_of_foreign {done : Deed} (foreign : ¬ stage.Concerns source done) :
    stage.settles? source ticket done = none := by
  cases done with
  | serves | loses =>
    simp only [Concerns] at foreign
    simp [settles?, foreign]
  | cancels id => exact if_neg fun withdrawn => foreign ⟨ticket, withdrawn⟩
  | _ => rfl

/-- A step settles the fate of an awaiter that waits as the deed says, and no other. -/
theorem Change.fate? (change : stage.Change source queue deed changed) {fate : Fate}
    (known : queue.fate? ticket = some fate) :
    changed.fate? ticket =
      some (if fate = .waiting then (deed.bind (stage.settles? source ticket)).getD .waiting
        else fate) := by
  have unsettled (nothing : deed.bind (stage.settles? source ticket) = none) :
      queue.fate? ticket =
        some (if fate = .waiting then (deed.bind (stage.settles? source ticket)).getD .waiting
          else fate) := by
    rw [nothing, known]
    split
    · next waiting => rw [waiting]; rfl
    · rfl
  cases change with
  | stays foreign =>
    apply unsettled
    cases deed with
    | none => rfl
    | some done => exact settles?_of_foreign (foreign done rfl)
  | accepts accepted =>
    rw [Queue.fate?_register accepted]
    obtain ⟨-, rfl⟩ := Queue.register_eq_ok_iff.mp accepted
    rw [if_neg (Nat.ne_of_lt (Queue.lt_size_of_fate? known))]
    exact unsettled rfl
  | flushes => exact unsettled rfl
  | closes => exact unsettled rfl
  | finishes => exact unsettled rfl
  | @withdraws id withdrawnTicket withdrawn =>
    rw [Queue.fate?_withdraw]
    by_cases own : ticket = withdrawnTicket
    · subst own
      have settles : stage.settles? source ticket (.cancels id) = some .withdrawn :=
        if_pos withdrawn
      rw [Option.bind_some, settles, known]
      by_cases waits : fate = .waiting
      · simp [waits]
      · simp [waits]
    · rw [if_neg fun both => own both.1]
      refine unsettled (if_neg ?_)
      rw [withdrawn]
      simpa using Ne.symm own
  | @serves batch outer skipped rest served callback running split passed waiting =>
    rw [Queue.fate?_handOver (Queue.fate?_of_getElem? waiting)]
    by_cases own : ticket = served
    · subst own
      have waits : fate = .waiting := by
        have := Queue.fate?_of_getElem? waiting
        rw [known] at this
        exact Option.some.inj this
      simp [waits, settles?]
    · rw [if_neg own]
      refine unsettled ?_
      simp [settles?, Ne.symm own]
  | @loses batch outer running free =>
    rw [Queue.fate?_abandon running, known]
    by_cases waits : fate = .waiting
    · by_cases member : ticket ∈ batch.rest
      · simp [waits, settles?, member, waitingAmong, known]
      · simp [waits, settles?, member, waitingAmong]
    · simp [waits]

/-- A step may end an awaiter's waiting, and cannot make it wait again. -/
theorem Change.waited (change : stage.Change source queue deed changed)
    (inside : ticket < queue.awaiters.size) (waits : changed.fate? ticket = some .waiting) :
    queue.fate? ticket = some .waiting := by
  have known : queue.fate? ticket = some queue.awaiters[ticket].fate := by
    simp [Queue.fate?, inside]
  rw [change.fate? known] at waits
  rw [known]
  by_cases still : queue.awaiters[ticket].fate = .waiting
  · rw [still]
  · rwa [if_neg still] at waits

/-- A step leaves what awaiters hold. -/
private theorem Change.value? (change : stage.Change source queue deed changed)
    {callback : Callback} (held : queue.value? ticket = some callback) :
    changed.value? ticket = some callback := by
  cases change with
  | stays | flushes | closes | finishes => exact held
  | accepts accepted =>
    rw [Queue.value?_register accepted]
    obtain ⟨-, rfl⟩ := Queue.register_eq_ok_iff.mp accepted
    obtain ⟨awaiter, found, -⟩ := Option.map_eq_some_iff.mp held
    have inside := (Array.getElem?_eq_some_iff.mp found).1
    rw [if_neg (Nat.ne_of_lt inside), held]
  | withdraws => rw [Queue.value?_withdraw, held]
  | serves => rw [Queue.value?_handOver, held]
  | loses => rw [Queue.value?_abandon, held]

theorem Change.size_le (change : stage.Change source queue deed changed) :
    queue.awaiters.size ≤ changed.awaiters.size := by
  cases change with
  | stays | flushes | closes | finishes => exact Nat.le_refl _
  | accepts accepted =>
    obtain ⟨-, rfl⟩ := Queue.register_eq_ok_iff.mp accepted
    rw [Array.size_push]
    exact Nat.le_succ _
  | withdraws => exact Nat.le_of_eq (Queue.size_withdraw ..).symm
  | serves => exact Nat.le_of_eq (Array.size_modify ..).symm
  | loses => exact Nat.le_of_eq queue.size_abandon.symm

private theorem Change.sound (change : stage.Change source queue deed changed)
    (sound : queue.Sound) : changed.Sound := by
  cases change with
  | stays => exact sound
  | accepts accepted => exact sound.register accepted
  | flushes => exact sound.flush _
  | closes reason => exact sound.close reason _
  | finishes running passed => exact sound.finish running passed
  | withdraws => exact sound.withdraw _
  | serves running split passed waiting =>
    exact sound.handOver running split passed (Queue.fate?_of_getElem? waiting)
  | loses running => exact sound.abandon running

theorem Handling.size_le {handles changed : Handles CancelAction}
    (handling : Handling handles deed changed) : handles.size ≤ changed.size := by
  cases handling with
  | stays => exact Nat.le_refl _
  | keeps | accepts =>
    rw [Array.size_push]
    exact Nat.le_succ _
  | cancels =>
    unfold Handles.cancel
    split
    · exact Nat.le_of_eq (Array.size_setIfInBounds ..).symm
    · exact Nat.le_refl _

/-! ### Queues and what has been done to them -/

/-- What holds of an empty queue and is kept by every change holds of every queue. -/
theorem Life.holds_of_kept (life : Life history stage) (found : stage.awaiting source = some queue)
    {Holds : CallbackQueue → Prop} (empty : Holds {})
    (kept : ∀ {stage : Stage} {queue changed : CallbackQueue} {deed : Option Deed},
      stage.Change source queue deed changed → Holds queue → Holds changed) : Holds queue := by
  induction life generalizing queue with
  | bare => cases found
  | @next history stage after deed life step ih =>
    cases before : stage.awaiting source with
    | none =>
      rcases step.appears before with absent | ⟨fresh, -⟩
      · rw [absent] at found
        cases found
      · cases found.symm.trans fresh
        exact empty
    | some held =>
      obtain ⟨changed, present, change⟩ := step.change before
      cases found.symm.trans present
      exact kept change (ih before)

/-- Every queue is sound, whatever has happened. -/
theorem Life.sound (life : Life history stage) (found : stage.awaiting source = some queue) :
    queue.Sound :=
  life.holds_of_kept found .empty fun change sound => change.sound sound

/-- Whatever a deed names exists. -/
def Knows (stage : Stage) : Deed → Prop
  | .accepts source ticket handle _ _ =>
    (∃ queue, stage.awaiting source = some queue ∧ ticket < queue.awaiters.size) ∧
      handle < stage.handles.size
  | .cancels handle => handle < stage.handles.size
  | .serves source ticket _ _ =>
    ∃ queue, stage.awaiting source = some queue ∧ ticket < queue.awaiters.size
  | .loses source tickets =>
    ∃ queue, stage.awaiting source = some queue ∧ ∀ ticket ∈ tickets, ticket < queue.awaiters.size
  | _ => True

/-- What exists goes on to exist. -/
private theorem Step.knows (step : stage.Step deed after) {old : Deed} (known : stage.Knows old) :
    after.Knows old := by
  have handles := step.handling.size_le
  have queues {source : QueueRef} {tickets : List Ticket}
      (known : ∃ queue, stage.awaiting source = some queue ∧
        ∀ ticket ∈ tickets, ticket < queue.awaiters.size) :
      ∃ queue, after.awaiting source = some queue ∧
        ∀ ticket ∈ tickets, ticket < queue.awaiters.size := by
    obtain ⟨queue, found, inside⟩ := known
    obtain ⟨changed, present, change⟩ := step.change found
    exact ⟨changed, present, fun ticket member =>
      Nat.lt_of_lt_of_le (inside ticket member) change.size_le⟩
  cases old with
  | accepts source ticket handle =>
    obtain ⟨⟨queue, found, inside⟩, held⟩ := known
    obtain ⟨changed, present, kept⟩ := queues ⟨queue, found, List.forall_mem_singleton.mpr inside⟩
    exact ⟨⟨changed, present, kept ticket List.mem_cons_self⟩, Nat.lt_of_lt_of_le held handles⟩
  | cancels handle => exact Nat.lt_of_lt_of_le known handles
  | serves source ticket =>
    obtain ⟨queue, found, inside⟩ := known
    obtain ⟨changed, present, kept⟩ := queues ⟨queue, found, List.forall_mem_singleton.mpr inside⟩
    exact ⟨changed, present, kept ticket List.mem_cons_self⟩
  | loses source tickets => exact queues known
  | _ => trivial

/-- What is done names what exists. -/
private theorem Step.knows_own {done : Deed} (step : stage.Step (some done) after) :
    after.Knows done := by
  cases step with
  | @accepts source queue callback registration found accepted =>
    obtain ⟨-, rfl⟩ := Queue.register_eq_ok_iff.mp accepted
    refine ⟨⟨_, awaiting_setQueue_self .., ?_⟩, ?_⟩
    · simp
    · simp [issue, setQueue]
  | cancels known =>
    have grown := (Handling.cancels known).size_le
    simp only [Knows, handles_cancel]
    exact Nat.lt_of_lt_of_le known grown
  | @serves source queue batch outer skipped rest ticket callback calls found innermost running
      split passed waiting =>
    refine ⟨_, awaiting_setQueue_self .., ?_⟩
    rw [Queue.handOver, Queue.settle, Array.size_modify]
    exact (Array.getElem?_eq_some_iff.mp waiting).1
  | @loses source queue batch outer calls found innermost running free =>
    refine ⟨_, awaiting_setQueue_self .., fun ticket member => ?_⟩
    rw [Queue.size_abandon]
    exact Queue.lt_size_of_fate? (of_decide_eq_true (List.mem_filter.mp member).2)
  | flushes | closes | completes | idles | startsFrame | finishes | moves | refuses => trivial

theorem Life.knows (life : Life history stage) {done : Deed} (member : done ∈ history) :
    stage.Knows done := by
  induction life with
  | bare => cases member
  | next life step ih =>
    rcases List.mem_append.mp member with earlier | last
    · exact step.knows (ih earlier)
    · obtain rfl := Option.mem_toList.mp last
      exact step.knows_own

/-- Every ticket below the size of a queue was given to a registration. -/
theorem Life.accepted_of_lt (life : Life history stage) (found : stage.awaiting source = some queue)
    (inside : ticket < queue.awaiters.size) :
    ∃ handle callback hooked, .accepts source ticket handle callback hooked ∈ history := by
  induction life generalizing queue with
  | bare => cases found
  | @next history stage after deed life step ih =>
    cases before : stage.awaiting source with
    | none =>
      rcases step.appears before with absent | ⟨fresh, -⟩
      · cases absent.symm.trans found
      · cases found.symm.trans fresh
        cases inside
    | some held =>
      have earlier (inside : ticket < held.awaiters.size) :
          ∃ handle callback hooked,
            .accepts source ticket handle callback hooked ∈ history ++ deed.toList := by
        obtain ⟨handle, callback, hooked, member⟩ := ih before inside
        exact ⟨handle, callback, hooked, List.mem_append_left _ member⟩
      obtain ⟨changed, present, change⟩ := step.change before
      cases found.symm.trans present
      cases change with
      | stays | flushes | closes | finishes => exact earlier inside
      | withdraws => exact earlier (by rwa [Queue.size_withdraw] at inside)
      | serves => exact earlier (by rwa [Queue.handOver, Queue.settle, Array.size_modify] at inside)
      | loses => exact earlier (by rwa [Queue.size_abandon] at inside)
      | @accepts callback registration accepted =>
        obtain ⟨-, rfl⟩ := Queue.register_eq_ok_iff.mp accepted
        rw [Array.size_push] at inside
        by_cases new : ticket = held.awaiters.size
        · subst new
          exact ⟨_, _, _, List.mem_append_right _ List.mem_cons_self⟩
        · exact earlier (Nat.lt_of_le_of_ne (Nat.le_of_lt_succ inside) new)

/-! ### Handles and what has been done to them -/

/-- A registration is accepted under a ticket and a handle of its own. -/
theorem Life.accepted_once (life : Life history stage) {first second : QueueRef}
    {one two : Ticket} {left right : HandleId} {callback another : Callback} {hooked also : Bool}
    (former : .accepts first one left callback hooked ∈ history)
    (latter : .accepts second two right another also ∈ history)
    (same : first = second ∧ one = two ∨ left = right) :
    Deed.accepts first one left callback hooked = .accepts second two right another also := by
  induction life with
  | bare => cases former
  | @next history stage after deed life step ih =>
    -- A new registration has a ticket and a handle that no earlier one can have.
    have fresh {source other : QueueRef} {ticket taken : Ticket} {handle held : HandleId}
        {callback another : Callback} {hooked also : Bool}
        (new : deed = some (.accepts source ticket handle callback hooked))
        (old : .accepts other taken held another also ∈ history) :
        ¬ (source = other ∧ ticket = taken) ∧ handle ≠ held := by
      subst new
      obtain ⟨⟨queue, found, inside⟩, known⟩ := life.knows old
      cases step with
      | @accepts _ current _ registration present accepted =>
        obtain ⟨-, rfl⟩ := Queue.register_eq_ok_iff.mp accepted
        refine ⟨?_, Nat.ne_of_gt known⟩
        rintro ⟨rfl, rfl⟩
        cases found.symm.trans present
        exact Nat.lt_irrefl _ inside
    rcases List.mem_append.mp former with former | former <;>
      rcases List.mem_append.mp latter with latter | latter
    · exact ih former latter
    · obtain ⟨apart, different⟩ := fresh (Option.mem_toList.mp latter) former
      rcases same with ⟨rfl, rfl⟩ | rfl
      · exact absurd ⟨rfl, rfl⟩ apart
      · exact absurd rfl different
    · obtain ⟨apart, different⟩ := fresh (Option.mem_toList.mp former) latter
      rcases same with both | both
      · exact absurd both apart
      · exact absurd both different
    · exact Option.some.inj ((Option.mem_toList.mp former).symm.trans (Option.mem_toList.mp latter))

theorem getElem?_cancel (handles : Handles CancelAction) (id other : HandleId) :
    (handles.cancel id).2[other]? =
      if other = id then (handles[other]?).map fun handle => handle.cancel.2
      else handles[other]? := by
  unfold Handles.cancel
  split
  · next handle found =>
    dsimp only
    split
    · next same =>
      subst same
      have inside : other < handles.size := (Array.getElem?_eq_some_iff.mp found).1
      rw [found, Array.getElem?_setIfInBounds_self_of_lt inside]
      rfl
    · next different => simp [Ne.symm different]
  · next absent =>
    dsimp only
    split
    · next same =>
      subst same
      rw [absent]
      rfl
    · rfl

/-- Whatever withdraws an awaiter is the handle of its registration. -/
private theorem Life.accepted_of_withdraws (life : Life history stage) {id : HandleId}
    {handle : Handle CancelAction} (held : stage.handles[id]? = some handle)
    (action : handle.action = some (.withdraw source ticket)) :
    ∃ callback hooked, .accepts source ticket id callback hooked ∈ history := by
  induction life generalizing handle with
  | bare => cases held
  | @next history stage after deed life step ih =>
    have earlier {handle : Handle CancelAction} (held : stage.handles[id]? = some handle)
        (action : handle.action = some (.withdraw source ticket)) :
        ∃ callback hooked, .accepts source ticket id callback hooked ∈ history ++ deed.toList := by
      obtain ⟨callback, hooked, member⟩ := ih held action
      exact ⟨callback, hooked, List.mem_append_left _ member⟩
    generalize handlesAfter : after.handles = changed at held
    have handling := step.handling
    rw [handlesAfter] at handling
    cases handling with
    | stays => exact earlier held action
    | keeps kept free =>
      rw [Array.getElem?_push] at held
      split at held
      · cases held
        exact absurd action (free source ticket)
      · exact earlier held action
    | @accepts origin given callback hooked =>
      rw [Array.getElem?_push] at held
      split at held
      · next new =>
        cases held
        cases action
        subst new
        exact ⟨callback, hooked, List.mem_append_right _ (List.mem_singleton_self _)⟩
      · exact earlier held action
    | @cancels cancelled known =>
      rw [getElem?_cancel] at held
      split at held
      · obtain ⟨former, found, rfl⟩ := Option.map_eq_some_iff.mp held
        -- A handle that still has its action after an attempt to cancel was cancelled before it.
        unfold Handle.cancel at action
        split at action
        · exact earlier found action
        · cases action
      · exact earlier held action

/-- The handle of a registration withdraws the awaiter until it is cancelled, and nothing after. -/
private theorem Life.handle_of_accepted (life : Life history stage) {handle : HandleId}
    {callback : Callback} {hooked : Bool}
    (accepted : .accepts source ticket handle callback hooked ∈ history) :
    .cancels handle ∉ history ∧
        stage.handles[handle]? = some (.forAction (.withdraw source ticket)) ∨
      .cancels handle ∈ history ∧ stage.handles[handle]? = some ⟨true, none⟩ := by
  induction life with
  | bare => cases accepted
  | @next history stage after deed life step ih =>
    have handling := step.handling
    generalize after.handles = changed at handling ⊢
    rcases List.mem_append.mp accepted with old | new
    · have inside : handle < stage.handles.size := (life.knows old).2
      -- What leaves the handle as it is, and is not its cancellation, leaves the case as it is.
      have unmoved (kept : changed[handle]? = stage.handles[handle]?)
          (other : deed ≠ some (.cancels handle)) :
          .cancels handle ∉ history ++ deed.toList ∧
              changed[handle]? = some (.forAction (.withdraw source ticket)) ∨
            .cancels handle ∈ history ++ deed.toList ∧ changed[handle]? = some ⟨true, none⟩ := by
        rw [kept, List.mem_append, Option.mem_toList, or_iff_left other]
        exact ih old
      cases handling with
      | stays quiet =>
        refine unmoved rfl ?_
        rintro rfl
        exact (quiet _ rfl source ticket handle callback hooked).2 rfl
      | keeps =>
        refine unmoved ?_ nofun
        rw [Array.getElem?_push, if_neg (Nat.ne_of_lt inside)]
      | accepts =>
        refine unmoved ?_ nofun
        rw [Array.getElem?_push, if_neg (Nat.ne_of_lt inside)]
      | @cancels id known =>
        by_cases same : handle = id
        · subst same
          refine .inr ⟨List.mem_append_right _ List.mem_cons_self, ?_⟩
          rw [getElem?_cancel, if_pos rfl]
          rcases ih old with ⟨-, held⟩ | ⟨-, held⟩ <;> rw [held] <;> rfl
        · refine unmoved ?_ ?_
          · rw [getElem?_cancel, if_neg same]
          · intro cancels
            cases cancels
            exact same rfl
    · obtain rfl := Option.mem_toList.mp new
      cases handling with
      | stays quiet => exact absurd rfl (quiet _ rfl source ticket handle callback hooked).1
      | accepts =>
        refine .inl ⟨?_, by rw [Array.getElem?_push, if_pos rfl]⟩
        intro cancelled
        rcases List.mem_append.mp cancelled with earlier | itself
        · exact Nat.lt_irrefl _ (life.knows earlier)
        · cases List.mem_singleton.mp itself

/-- A handle that withdraws an awaiter when it is cancelled is as it was made. -/
theorem handle_of_withdrawn {id : HandleId}
    (withdrawn : stage.withdrawn? id = some (source, ticket)) :
    stage.handles[id]? = some (.forAction (.withdraw source ticket)) := by
  have action : (stage.handles.cancel id).1.action = some (.withdraw source ticket) := by
    unfold withdrawn? at withdrawn
    split at withdrawn
    · next action =>
      cases withdrawn
      exact action
    · cases withdrawn
  unfold Handles.cancel at action
  split at action
  · next held found =>
    dsimp only at action
    unfold Handle.cancel at action
    split at action
    · cases action
    · next fresh =>
      rcases held with ⟨cancelled, kept⟩
      cases cancelled with
      | true => exact absurd rfl fresh
      | false =>
        rw [found, show kept = some (.withdraw source ticket) from action]
        rfl
  · cases action

/-- What an attempt to cancel withdraws is the awaiter that the handle was given for. -/
theorem Life.accepted_of_withdrawn (life : Life history stage) {id : HandleId}
    (withdrawn : stage.withdrawn? id = some (source, ticket)) :
    ∃ callback hooked, .accepts source ticket id callback hooked ∈ history :=
  life.accepted_of_withdraws (handle_of_withdrawn withdrawn) rfl

/-- An attempt to cancel withdraws an awaiter if it is the first one on the awaiter's handle. -/
theorem Life.withdrawn?_eq_some_iff (life : Life history stage) {id handle : HandleId}
    {callback : Callback} {hooked : Bool}
    (accepted : .accepts source ticket handle callback hooked ∈ history) :
    stage.withdrawn? id = some (source, ticket) ↔ id = handle ∧ .cancels handle ∉ history := by
  constructor
  · intro withdrawn
    obtain ⟨another, also, member⟩ := life.accepted_of_withdrawn withdrawn
    cases life.accepted_once accepted member (.inl ⟨rfl, rfl⟩)
    refine ⟨rfl, fun cancelled => ?_⟩
    rcases life.handle_of_accepted accepted with ⟨never, -⟩ | ⟨-, spent⟩
    · exact never cancelled
    · cases (handle_of_withdrawn withdrawn).symm.trans spent
  · rintro ⟨rfl, never⟩
    rcases life.handle_of_accepted accepted with ⟨-, held⟩ | ⟨cancelled, -⟩
    · simp [withdrawn?, Handles.cancel, held, Handle.cancel, Handle.forAction]
    · exact absurd cancelled never

/-! ### Fates and what has been done -/

theorem settled?_append (history : List Deed) (deed : Option Deed) (handle : HandleId) :
    Deed.settled? source ticket handle (history ++ deed.toList) =
      (Deed.settled? source ticket handle history).or
        (deed.bind (Deed.settles? source ticket handle)) := by
  unfold Deed.settled?
  rw [List.findSome?_append]
  cases deed with
  | none => rfl
  | some done =>
    simp only [Option.toList_some, List.findSome?_singleton]
    rfl

/-- Whatever settles a fate leaves nobody waiting. -/
theorem settled?_ne_waiting {handle : HandleId} :
    Deed.settled? source ticket handle history ≠ some .waiting := by
  intro waits
  obtain ⟨deed, -, settles⟩ := List.exists_of_findSome?_eq_some waits
  cases deed <;> simp [Deed.settles?] at settles

/-- As long as nothing is settled about an awaiter, its handle has not been cancelled. -/
theorem not_mem_of_unsettled {handle : HandleId}
    (unsettled : Deed.settled? source ticket handle history = none) :
    .cancels handle ∉ history := by
  intro cancelled
  have nothing := List.findSome?_eq_none_iff.mp unsettled _ cancelled
  simp [Deed.settles?] at nothing

/-- As long as nothing is settled about an awaiter, a deed settles of it on the stage what it is to
settle by the books. -/
private theorem Life.settles?_eq (life : Life history stage) {handle : HandleId}
    {callback : Callback} {hooked : Bool}
    (accepted : .accepts source ticket handle callback hooked ∈ history)
    (unsettled : Deed.settled? source ticket handle history = none) (done : Deed) :
    stage.settles? source ticket done = Deed.settles? source ticket handle done := by
  have never := not_mem_of_unsettled unsettled
  cases done with
  | cancels id =>
    have own : stage.withdrawn? id = some (source, ticket) ↔ _ :=
      life.withdrawn?_eq_some_iff accepted
    simp [settles?, Deed.settles?, own, never]
  | _ => rfl

/-- Nothing is settled about an awaiter that comes only now, with a new handle. -/
private theorem Life.settled?_of_new (life : Life history stage)
    (found : stage.awaiting source = some queue) :
    Deed.settled? source queue.awaiters.size stage.handles.size history = none := by
  refine List.findSome?_eq_none_iff.mpr fun deed member => ?_
  have known := life.knows member
  cases deed with
  | cancels id => exact if_neg (Nat.ne_of_lt known)
  | serves origin served =>
    refine if_neg ?_
    rintro ⟨rfl, rfl⟩
    obtain ⟨held, present, inside⟩ := known
    cases found.symm.trans present
    exact Nat.lt_irrefl _ inside
  | loses origin tickets =>
    refine if_neg ?_
    rintro ⟨rfl, lost⟩
    obtain ⟨held, present, inside⟩ := known
    cases found.symm.trans present
    exact Nat.lt_irrefl _ (inside _ lost)
  | _ => rfl

/-- The fate of an awaiter is the one that the first deed to settle it decided, and what it holds is
what was registered. -/
theorem Life.fate?_of_accepted (life : Life history stage) {handle : HandleId}
    {callback : Callback} {hooked : Bool}
    (accepted : .accepts source ticket handle callback hooked ∈ history) :
    ∃ queue, stage.awaiting source = some queue ∧ queue.value? ticket = some callback ∧
      queue.fate? ticket = some ((Deed.settled? source ticket handle history).getD .waiting) := by
  induction life with
  | bare => cases accepted
  | @next history stage after deed life step ih =>
    rw [settled?_append]
    rcases List.mem_append.mp accepted with old | new
    · obtain ⟨queue, found, held, known⟩ := ih old
      obtain ⟨changed, present, change⟩ := step.change found
      refine ⟨changed, present, change.value? held, ?_⟩
      rw [change.fate? known]
      cases settled : Deed.settled? source ticket handle history with
      | some fate =>
        have done : fate ≠ .waiting := by
          rintro rfl
          exact settled?_ne_waiting settled
        rw [Option.getD_some, if_neg done]
        rfl
      | none =>
        have agree : stage.settles? source ticket = Deed.settles? source ticket handle :=
          funext (life.settles?_eq old settled)
        rw [Option.getD_none, if_pos rfl, Option.none_or, agree]
    · obtain rfl := Option.mem_toList.mp new
      cases step with
      | @accepts _ queue _ registration found registered =>
        refine ⟨registration.queue, awaiting_setQueue_self .., ?_, ?_⟩
        · rw [Queue.value?_register registered, if_pos rfl]
        · rw [Queue.fate?_register registered, if_pos rfl]
          obtain ⟨-, rfl⟩ := Queue.register_eq_ok_iff.mp registered
          rw [life.settled?_of_new found]
          rfl

/-! ### The line -/

private theorem line_append (history : List Deed) (deed : Option Deed) :
    Deed.line source (history ++ deed.toList) =
      deed.elim (Deed.line source history) (Deed.linesUp source (Deed.line source history)) := by
  unfold Deed.line
  rw [List.foldl_append]
  cases deed <;> rfl

/-- Those in line were registered and have not been cancelled. -/
theorem Life.accepted_of_line (life : Life history stage) {handle : HandleId}
    (waits : (ticket, handle) ∈ Deed.line source history) :
    (∃ callback hooked, .accepts source ticket handle callback hooked ∈ history) ∧
      .cancels handle ∉ history := by
  induction life with
  | bare => cases waits
  | @next history stage after deed life step ih =>
    rw [line_append] at waits
    have earlier (waits : (ticket, handle) ∈ Deed.line source history)
        (other : deed ≠ some (.cancels handle)) :
        (∃ callback hooked, .accepts source ticket handle callback hooked ∈
          history ++ deed.toList) ∧ .cancels handle ∉ history ++ deed.toList := by
      obtain ⟨⟨callback, hooked, member⟩, never⟩ := ih waits
      refine ⟨⟨callback, hooked, List.mem_append_left _ member⟩, ?_⟩
      rw [List.mem_append, Option.mem_toList, or_iff_left other]
      exact never
    rcases deed with _ | done
    · exact earlier waits nofun
    · cases done with
      | accepts origin given held callback hooked =>
        simp only [Option.elim_some, Deed.linesUp] at waits
        split at waits
        · next same =>
          subst same
          rcases List.mem_append.mp waits with old | new
          · exact earlier old nofun
          · cases List.mem_singleton.mp new
            refine ⟨⟨callback, hooked, List.mem_append_right _ List.mem_cons_self⟩, ?_⟩
            intro cancelled
            rcases List.mem_append.mp cancelled with before | itself
            · have known := life.knows before
              cases step
              exact Nat.lt_irrefl _ known
            · cases List.mem_singleton.mp itself
        · exact earlier waits nofun
      | begins origin delivery =>
        simp only [Option.elim_some, Deed.linesUp] at waits
        split at waits
        · cases waits
        · exact earlier waits nofun
      | cancels id =>
        obtain ⟨old, different⟩ := List.mem_filter.mp waits
        refine earlier old ?_
        rintro ⟨rfl⟩
        simp at different
      | _ => exact earlier waits nofun

/-- As long as nobody's deed concerns a component, its line stays. -/
private theorem Life.linesUp_of_foreign (life : Life history stage) {done : Deed}
    (foreign : ¬ stage.Concerns source done) :
    Deed.linesUp source (Deed.line source history) done = Deed.line source history := by
  cases done with
  | accepts | begins => exact if_neg foreign
  | cancels id =>
    refine List.filter_eq_self.mpr fun waiting member => bne_iff_ne.mpr fun own => foreign ?_
    obtain ⟨ticket, handle⟩ := waiting
    obtain ⟨⟨callback, hooked, accepted⟩, never⟩ := life.accepted_of_line member
    exact ⟨ticket, (life.withdrawn?_eq_some_iff accepted).mpr ⟨own.symm, never⟩⟩
  | _ => rfl

/-- To take a handle out of the line is to take its awaiter out. -/
private theorem Life.line_cancelled (life : Life history stage) {id : HandleId}
    (withdrawn : stage.withdrawn? id = some (source, ticket)) :
    ((Deed.line source history).filter fun waiting => waiting.2 != id).map Prod.fst =
      ((Deed.line source history).map Prod.fst).filter fun other => other != ticket := by
  rw [List.filter_map]
  congr 1
  refine List.filter_congr fun waiting member => ?_
  obtain ⟨other, handle⟩ := waiting
  obtain ⟨⟨callback, hooked, accepted⟩, never⟩ := life.accepted_of_line member
  have same : handle = id ↔ other = ticket := by
    constructor
    · rintro rfl
      have own := (life.withdrawn?_eq_some_iff accepted).mpr ⟨rfl, never⟩
      rw [withdrawn] at own
      cases own
      rfl
    · rintro rfl
      exact ((life.withdrawn?_eq_some_iff accepted).mp withdrawn).1.symm
  exact congrArg not (decide_eq_decide.mpr same)

/-- Those that are pending are those in line. -/
theorem Life.pending_eq (life : Life history stage) (source : QueueRef) :
    ((stage.awaiting source).elim [] Queue.pending) = (Deed.line source history).map Prod.fst := by
  induction life with
  | bare => rfl
  | @next history stage after deed life step ih =>
    rw [line_append]
    cases found : stage.awaiting source with
    | none =>
      rw [found, Option.elim_none] at ih
      have nobody : Deed.line source history = [] := List.map_eq_nil_iff.mp ih.symm
      rw [nobody]
      rcases step.appears found with absent | ⟨fresh, rfl⟩
      · rw [absent]
        rcases deed with _ | done
        · rfl
        · cases done with
          | accepts origin given handle =>
            have other : origin ≠ source := by
              rintro rfl
              obtain ⟨⟨queue, present, -⟩, -⟩ := step.knows_own
              cases absent.symm.trans present
            simp [Deed.linesUp, other]
          | begins => simp [Deed.linesUp]
          | _ => rfl
      · rw [fresh]
        rfl
    | some queue =>
      obtain ⟨changed, present, change⟩ := step.change found
      rw [found, Option.elim_some] at ih
      rw [present, Option.elim_some]
      cases change with
      | stays foreign =>
        rw [ih]
        cases deed with
        | none => rfl
        | some done => rw [Option.elim_some, life.linesUp_of_foreign (foreign done rfl)]
      | accepts accepted =>
        obtain ⟨-, rfl⟩ := Queue.register_eq_ok_iff.mp accepted
        simp [Deed.linesUp, ih]
      | withdraws withdrawn =>
        rw [Queue.pending_withdraw (life.sound found), ih]
        exact (life.line_cancelled withdrawn).symm
      | flushes | closes => simp [Deed.linesUp, Queue.flush, Queue.close]
      | serves => exact ih
      | finishes => exact ih
      | loses running =>
        have kept : queue.abandon.pending = queue.pending := by simp [Queue.abandon, running]
        rw [kept]
        exact ih

end Stage

end LiveTree.Session
